import PrimePaths.CommandLine.Process
import PrimePaths.Proofs.Analysis.Independence

namespace PrimePaths

/-- A message for a reader, which is not for the standard output when this is kept for a document. -/
def Message.isPlain : Message → Bool
  | .line _ => true
  | .complaint _ => true
  | _ => false

def Message.Plain (ms : List Message) : Prop :=
  ∀ m ∈ ms, m.isPlain

namespace Message

variable {ms ns : List Message}

theorem plain_nil : Plain [] :=
  nofun

theorem Plain.append (hms : Plain ms) (hns : Plain ns) : Plain (ms ++ ns) :=
  List.forall_mem_append.mpr ⟨hms, hns⟩

theorem plain_lines (ls : List String) : Plain (ls.map line) := by
  intro m hm
  obtain ⟨l, -, rfl⟩ := List.mem_map.mp hm
  rfl

/-- Plain messages hold no document. -/
theorem Plain.documents (h : Plain ms) : ms.filterMap CommandLine.Transcript.document? = [] := by
  rw [List.filterMap_eq_nil_iff]
  intro m hm
  have hplain := h m hm
  cases m <;> first | rfl | exact absurd hplain nofun

theorem Plain.any_isDocument (h : Plain ms) : ms.any CommandLine.Transcript.isDocument = false := by
  rw [List.any_eq_false]
  intro m hm
  have hplain := h m hm
  cases m <;> first | exact Bool.false_ne_true | exact absurd hplain nofun

end Message

theorem Report.plain_ofUnit (u : FlowUnit) (searched? : Option Searched) (a : Analysis) (o : Options) :
    Message.Plain (ofUnit u searched? a o) := by
  have hcomplaint (text : String) : Message.Plain [.complaint text, .line ""] := by
    intro m hm
    rcases List.mem_pair.mp hm with rfl | rfl <;> rfl
  unfold ofUnit
  split
  · exact (Message.plain_lines _).append (hcomplaint _)
  · exact (Message.plain_lines _).append (hcomplaint _)
  · exact Message.plain_lines _
  · exact Message.plain_lines _

namespace CommandLine

open Message

theorem plain_loadUnits (read : String → Except Crash ByteArray) (a : Arguments) :
    Plain (loadUnits read a).1 := by
  unfold loadUnits
  cases Listing.load read a.filename with
  | error f => exact plain_nil
  | ok units =>
    have hsaid : Plain (if a.options.verbose then [Message.line (Listing.summary units)] else []) := by
      split
      · exact plain_lines [_]
      · exact plain_nil
    dsimp only
    cases a.unitNames <;> exact hsaid

/-- What a unit adds to the analyses of the units that follow it. -/
theorem analyzeUnits_run_cons (r : Recording) (a : Arguments) (u : FlowUnit) (us : List FlowUnit)
    (t : Readings) :
    let attempted := (timedAttempt r.clocks u a.options).run t
    let rest := (analyzeUnits r.clocks a us).run attempted.2
    ∃ said, Plain said ∧ (analyzeUnits r.clocks a (u :: us)).run t =
      match attempted.1.result with
      | .error i => ((said, .error i), attempted.2)
      | .ok s => ((said ++ rest.1.1, rest.1.2.map (s.analysis :: ·)), rest.2) := by
  rw [analyzeUnits, StateT.run_bind]
  generalize (timedAttempt r.clocks u a.options).run t = attempted
  obtain ⟨⟨trace, result⟩, t'⟩ := attempted
  have hsaid (lines : List String) : Plain (if a.options.verbose then lines.map Message.line else []) := by
    split
    · exact plain_lines lines
    · exact plain_nil
  cases result with
  | error i => exact ⟨_, hsaid _, rfl⟩
  | ok s =>
    have hreport : Plain (if a.json then [] else Report.ofUnit u s.searched? s.analysis a.options) := by
      split
      · exact plain_nil
      · exact Report.plain_ofUnit u s.searched? s.analysis a.options
    exact ⟨_, (hsaid _).append hreport, rfl⟩

theorem plain_analyzeUnits (r : Recording) (a : Arguments) (units : List FlowUnit) (t : Readings) :
    Plain ((analyzeUnits r.clocks a units).run t).1.1 := by
  induction units generalizing t with
  | nil => exact plain_nil
  | cons u us ih =>
    obtain ⟨said, hsaid, hrun⟩ := analyzeUnits_run_cons r a u us t
    rw [hrun]
    split
    · exact hsaid
    · exact hsaid.append (ih _)

/-- Arguments that ask for the same analyses; they may differ in what is said on the way, and in the form of
the results. -/
structure Arguments.SameRun (a a' : Arguments) : Prop where
  filename : a'.filename = a.filename
  units : a'.units = a.units
  options : a'.options = { a.options with verbose := a'.options.verbose }

theorem analyzeUnits_congr (r : Recording) {a a' : Arguments} (h : a.SameRun a')
    (hwritten : a.options.limits.Writable) (units : List FlowUnit) (t : Readings) :
    ((analyzeUnits r.clocks a' units).run t).1.2 = ((analyzeUnits r.clocks a units).run t).1.2 ∧
      ((analyzeUnits r.clocks a' units).run t).2 = ((analyzeUnits r.clocks a units).run t).2 := by
  induction units generalizing t with
  | nil => exact ⟨rfl, rfl⟩
  | cons u us ih =>
    obtain ⟨said, -, hrun⟩ := analyzeUnits_run_cons r a u us t
    obtain ⟨said', -, hrun'⟩ := analyzeUnits_run_cons r a' u us t
    have hattempted : timedAttempt r.clocks u a'.options = timedAttempt r.clocks u a.options := by
      rw [h.options]
      exact timedAttempt_verbose u r.clocks hwritten _
    rw [hattempted] at hrun'
    rw [hrun, hrun']
    generalize (timedAttempt r.clocks u a.options).run t = attempted
    obtain ⟨hresult, hreadings⟩ := ih attempted.2
    cases attempted.1.result with
    | error i => exact ⟨rfl, rfl⟩
    | ok s => exact ⟨congrArg (Except.map (s.analysis :: ·)) hresult, hreadings⟩

theorem Recording.mem_analyses {r : Recording} {a : Arguments} {units : List FlowUnit} {t : Readings}
    {analyses : List Analysis} (h : r.analyses t a units = .ok analyses) :
    ∀ x ∈ analyses, ∃ u : FlowUnit, u.Analyzed x := by
  induction units generalizing t analyses with
  | nil =>
    have hnil : r.analyses t a [] = .ok [] := rfl
    obtain rfl := Except.ok.inj (hnil.symm.trans h)
    intro x hx
    cases hx
  | cons u us ih =>
    obtain ⟨t', hcons⟩ := r.analyses_cons t a u us
    simp only [hcons, Except.bind_eq_ok_iff, Except.pure_eq_ok_iff] at h
    obtain ⟨s, hs, rest, hrest, rfl⟩ := h
    intro x hx
    rcases List.mem_cons.mp hx with rfl | hx
    · exact ⟨u, r, t, a.options, s, hs, rfl⟩
    · exact ih hrest x hx

theorem Call.read_surroundings (c : Call) : c.surroundings.read = c.read :=
  rfl

theorem Call.clocks_surroundings (c : Call) : c.surroundings.clocks = c.recording.clocks :=
  rfl

theorem Call.dialect_surroundings (c : Call) : c.surroundings.dialect = c.dialect :=
  rfl

theorem pursue_run (c : Call) (argv : List String) (a : Arguments) (began : Int) (t : Readings) :
    (pursue c.surroundings argv a began).run t =
      let loaded := loadUnits c.read a
      match loaded.2 with
      | .error f => ((loaded.1, .error f), t)
      | .ok units =>
        let analyzed := (analyzeUnits c.recording.clocks a units).run t
        let said := loaded.1 ++ analyzed.1.1
        match analyzed.1.2 with
        | .error i => ((said, .error (.ofInterruption i)), analyzed.2)
        | .ok analyses =>
          match c.recording.nanoseconds analyzed.2.nanoseconds with
          | .error i => ((said, .error (.ofInterruption i)), analyzed.2.began)
          | .ok ended =>
            let elapsed := (Elapsed.ofNanoseconds (ended - began)).mapError RunFailure.crash
            ((said, elapsed.map fun elapsed => { argv, arguments := a, analyses, elapsed }),
              analyzed.2.began) := by
  rw [pursue, c.read_surroundings, c.clocks_surroundings]
  generalize loadUnits c.read a = loaded
  obtain ⟨said, _ | units⟩ := loaded
  · rfl
  · dsimp only
    rw [StateT.run_bind]
    generalize (analyzeUnits c.recording.clocks a units).run t = analyzed
    obtain ⟨⟨ms, _ | analyses⟩, t'⟩ := analyzed
    · rfl
    · change (c.recording.clocks.nanoseconds >>= _).run t' = _
      rw [StateT.run_bind, Recording.nanoseconds_run]
      dsimp only
      cases c.recording.nanoseconds t'.nanoseconds <;> rfl

theorem plain_pursue (c : Call) (argv : List String) (a : Arguments) (began : Int) (t : Readings) :
    Plain ((pursue c.surroundings argv a began).run t).1.1 := by
  have hloaded := plain_loadUnits c.read a
  rw [pursue_run]
  dsimp only
  split
  · exact hloaded
  · rename_i units hunits
    have hsaid := hloaded.append (plain_analyzeUnits c.recording a units t)
    split
    · exact hsaid
    · split <;> exact hsaid

theorem exists_bytes_of_loadUnits {read : String → Except Crash ByteArray} {a : Arguments}
    {units : List FlowUnit} (h : (loadUnits read a).2 = .ok units) :
    ∃ bytes, read a.filename = .ok bytes := by
  cases hread : read a.filename with
  | ok bytes => exact ⟨bytes, rfl⟩
  | error e => cases e <;> simp [loadUnits, Listing.load, hread] at h

/-- Results that a run can have: its file could be read, its analyses are those of units, and it took the
time between two readings of the clock. -/
structure RunResult.IsOf (r : RunResult) (c : Call) (argv : List String) (a : Arguments) (began : Int) :
    Prop where
  argv : r.argv = argv
  arguments : r.arguments = a
  bytes : ∃ bytes, c.read a.filename = .ok bytes
  analyses : ∀ x ∈ r.analyses, ∃ u : FlowUnit, u.Analyzed x
  elapsed : ∃ k ended, c.recording.nanoseconds k = .ok ended ∧
    Elapsed.ofNanoseconds (ended - began) = .ok r.elapsed

theorem isOf_of_pursue {c : Call} {argv : List String} {a : Arguments} {began : Int} {t : Readings}
    {r : RunResult} (h : ((pursue c.surroundings argv a began).run t).1.2 = .ok r) :
    r.IsOf c argv a began := by
  rw [pursue_run] at h
  dsimp only at h
  split at h
  · cases h
  · rename_i units hunits
    split at h
    · cases h
    · rename_i analyses hanalyses
      split at h
      · cases h
      · rename_i ended hended
        simp only [Except.map_eq_ok_iff, Except.mapError_eq_ok_iff] at h
        obtain ⟨elapsed, helapsed, rfl⟩ := h
        exact ⟨rfl, rfl, exists_bytes_of_loadUnits hunits, Recording.mem_analyses hanalyses, _, ended, hended,
          helapsed⟩

theorem loadUnits_congr (read : String → Except Crash ByteArray) {a a' : Arguments} (h : a.SameRun a') :
    (loadUnits read a').2 = (loadUnits read a).2 := by
  have hnames : a'.unitNames = a.unitNames := by rw [Arguments.unitNames, Arguments.unitNames, h.units]
  unfold loadUnits
  rw [h.filename, hnames]
  cases Listing.load read a.filename with
  | error f => rfl
  | ok units => cases a.unitNames <;> rfl

/-- The same run has the same results, and fails in the same way. -/
theorem pursue_congr (c : Call) {a a' : Arguments} (h : a.SameRun a')
    (hwritten : a.options.limits.Writable) (argv argv' : List String) (began : Int) (t : Readings) :
    ((pursue c.surroundings argv' a' began).run t).1.2 =
        (((pursue c.surroundings argv a began).run t).1.2.map fun r =>
          { r with argv := argv', arguments := a' }) ∧
      ((pursue c.surroundings argv' a' began).run t).2 = ((pursue c.surroundings argv a began).run t).2 := by
  rw [pursue_run, pursue_run]
  dsimp only
  rw [loadUnits_congr c.read h]
  cases (loadUnits c.read a).2 with
  | error f => exact ⟨rfl, rfl⟩
  | ok units =>
    obtain ⟨hresult, hreadings⟩ := analyzeUnits_congr c.recording h hwritten units t
    dsimp only
    rw [hresult, hreadings]
    cases ((analyzeUnits c.recording.clocks a units).run t).1.2 with
    | error i => exact ⟨rfl, rfl⟩
    | ok analyses =>
      dsimp only
      cases c.recording.nanoseconds ((analyzeUnits c.recording.clocks a units).run t).2.nanoseconds with
      | error i => exact ⟨rfl, rfl⟩
      | ok ended =>
        dsimp only
        cases Elapsed.ofNanoseconds (ended - began) <;> exact ⟨rfl, rfl⟩

namespace Account

variable {said : List Message}

theorem plain_ofReport (h : Plain said) (r : RunResult) : Plain (ofReport said r).said := by
  unfold ofReport
  dsimp only
  split
  · exact h.append (plain_lines _)
  · exact (h.append (plain_lines _)).append (plain_lines _)

/-- A report that comes to its end has told the verdict. -/
theorem ofReport_eq_ok {r : RunResult} {code : Int} {document? : Option Json}
    (h : (ofReport said r).outcome = .ok (code, document?)) :
    code = (overall r.analyses).exitCode ∧ document? = none := by
  unfold ofReport at h
  dsimp only at h
  split at h
  · cases h
  · obtain ⟨rfl, rfl⟩ := Prod.mk.inj (Except.ok.inj h)
    exact ⟨rfl, rfl⟩

end Account

namespace Call

/-- The account of a call with arguments that were read. -/
def accountOf (c : Call) (a : Arguments) (began : Int) : Account :=
  ((account c.surroundings c.argv a began).run { nanoseconds := 1 }).1

/-- What such a call says before its results, and the results. -/
def pursued (c : Call) (a : Arguments) (began : Int) : List Message × Except RunFailure RunResult :=
  ((pursue c.surroundings c.argv a began).run { nanoseconds := 1 }).1

/-- What it then looks up for a document. -/
def particularsOf (c : Call) (a : Arguments) (began : Int) : Except Interruption Particulars :=
  ((particulars c.surroundings a.filename).run
    ((pursue c.surroundings c.argv a began).run { nanoseconds := 1 }).2).1

variable (c : Call) (a : Arguments) (began : Int)

/-- The lookups for a document, the first one that fails first. -/
theorem particulars_run (filename : String) (t : Readings) :
    ((particulars c.surroundings filename).run t).1 = (do
      let version ← (Version.ofFile (c.read c.sourceFile)).mapError .crash
      let named ← c.recording.today t.today
      let dated ← c.recording.today (t.today + 1)
      let bytes ← (c.read filename).mapError .crash
      return { version, named, dated, bytes }) := by
  have hsource : c.surroundings.sourceFile = c.sourceFile := rfl
  have hnext : t.dated.today = t.today + 1 := rfl
  rw [particulars, c.read_surroundings, c.clocks_surroundings, hsource]
  cases Version.ofFile (c.read c.sourceFile) with
  | error e => rfl
  | ok version =>
    dsimp only
    rw [StateT.run_bind, Recording.today_run]
    cases c.recording.today t.today with
    | error i => rfl
    | ok named =>
      change (((c.recording.clocks.today >>= _).run t.dated).1 : Except Interruption Particulars) = _
      rw [StateT.run_bind, Recording.today_run, hnext]
      cases c.recording.today (t.today + 1) with
      | error i => rfl
      | ok dated => cases c.read filename <;> rfl

/-- The document of such a call with results, unless that was not to be had. -/
def documentOf (r : RunResult) : Except Interruption Json :=
  (c.particularsOf a began).map fun p => resultDocument c.place c.sourceFile p r

theorem accountOf_eq :
    c.accountOf a began =
      match c.pursued a began with
      | (said, .error f) => { said, outcome := .error f }
      | (said, .ok r) =>
        if a.json then .ofDocument said r (c.documentOf a began r) else .ofReport said r := by
  simp only [accountOf, account, StateT.run_bind, pursued, documentOf, particularsOf]
  generalize (pursue c.surroundings c.argv a began).run { nanoseconds := 1 } = pursued
  obtain ⟨⟨said, _ | r⟩, t⟩ := pursued
  · rfl
  · cases a.json <;> rfl

theorem plain_pursued : Plain (c.pursued a began).1 :=
  plain_pursue c c.argv a began _

theorem plain_accountOf : Plain (c.accountOf a began).said := by
  have hsaid := c.plain_pursued a began
  rw [accountOf_eq]
  generalize c.pursued a began = pursued at hsaid
  obtain ⟨said, _ | r⟩ := pursued
  · exact hsaid
  · dsimp only
    split
    · exact hsaid
    · exact Account.plain_ofReport hsaid r

variable {c a began}

/-- An account without a failure tells the verdict on results of the call, in a document if one was asked
for. -/
theorem accountOf_eq_ok {code : Int} {document? : Option Json}
    (h : (c.accountOf a began).outcome = .ok (code, document?)) :
    ∃ r : RunResult, r.IsOf c c.argv a began ∧ code = (overall r.analyses).exitCode ∧
      document?.isSome = a.json ∧
      ∀ j ∈ document?, ∃ p, j = resultDocument c.place c.sourceFile p r := by
  rw [accountOf_eq] at h
  have hresult (r : RunResult) (hr : (c.pursued a began).2 = .ok r) := isOf_of_pursue hr
  generalize c.pursued a began = pursued at h hresult
  obtain ⟨said, _ | r⟩ := pursued
  · cases h
  · refine ⟨r, hresult r rfl, ?_⟩
    dsimp only at h
    split at h
    · rename_i hjson
      simp only [Account.ofDocument, documentOf, Except.map_eq_ok_iff, Except.mapError_eq_ok_iff] at h
      obtain ⟨j, ⟨p, -, rfl⟩, hverdict⟩ := h
      obtain ⟨rfl, rfl⟩ := Prod.mk.inj hverdict
      refine ⟨rfl, by simp [hjson], fun j hj => ⟨p, (Option.some.inj hj).symm⟩⟩
    · rename_i hjson
      obtain ⟨rfl, rfl⟩ := Account.ofReport_eq_ok h
      exact ⟨rfl, by simp [hjson], fun j hj => absurd hj (Option.not_mem_none j)⟩

end Call

end CommandLine
end PrimePaths
