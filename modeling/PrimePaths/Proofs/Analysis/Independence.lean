import PrimePaths.CommandLine.Account
import PrimePaths.Proofs.Analysis.Modes
import PrimePaths.Proofs.Graph.Shift
import PrimePaths.Proofs.Search.Untimed

namespace PrimePaths

def UnitFailure.lineless : UnitFailure → UnitFailure
  | graph e => graph e.lineless
  | limit reached => limit reached

/-- An analysis without its time and without line numbers. -/
def Analysis.essence (a : Analysis) : Analysis :=
  { a with elapsed := {}, failure := a.failure.map UnitFailure.lineless }

/-- What an analysis without a time limit comes upon. -/
def FlowUnit.untimedExamination (u : FlowUnit) (o : Options) : Examination :=
  match u.graph with
  | .error fault => .refused fault
  | .ok graph =>
    match o.nodesHalt? graph.graph.n with
    | some halt => .halted { graph, progress := {} } halt
    | none => .ofOutcome graph (graph.graph.untimedOutcome o.verbose o.limits)

/-- What an analysis without a time limit says, whenever it is made. -/
def FlowUnit.untimedReport (u : FlowUnit) (o : Options) : Except Interruption Analysis :=
  (fun s => s.analysis.essence) <$> ((u.untimedExamination o).attempt u o).result

variable {u : FlowUnit} {k : Nat} {o : Options} {r : Recording} {t : Readings}

section Reports

theorem GraphError.message_lineless (e : GraphError) : e.lineless.message = e.message := by
  cases e <;> rfl

theorem Study.essence_ofGraphError {e e' : GraphError} (h : e.lineless = e'.lineless) :
    (ofGraphError (u.shift k) o e).analysis.essence = (ofGraphError u o e').analysis.essence := by
  have hmessage : e.message = e'.message := by
    rw [← e.message_lineless, h, e'.message_lineless]
  have hfailure : (UnitFailure.graph e).lineless = (UnitFailure.graph e').lineless :=
    congrArg UnitFailure.graph h
  simp only [ofGraphError, Analysis.essence, hmessage, Option.map_some, hfailure]
  rfl

theorem Attempt.result_halted_shift (s : Searched) (halt : Halt) :
    ((Examination.halted s halt).attempt (u.shift k) o).result =
      ((Examination.halted s halt).attempt u o).result := by
  have hlimit : Study.ofLimit (u.shift k) o s = Study.ofLimit u o s :=
    funext fun reached => Study.ofLimit_congr (u.name_shift k) (u.length_shift k) o s reached
  simp only [Examination.attempt, Attempt.ofHalt, hlimit]

theorem Attempt.essence_refused_shift {fault fault' : GraphFault} (h : fault.lineless = fault'.lineless) :
    (fun s => s.analysis.essence) <$> ((Examination.refused fault).attempt (u.shift k) o).result =
      (fun s => s.analysis.essence) <$> ((Examination.refused fault').attempt u o).result := by
  cases fault with
  | invalid e =>
    cases fault' with
    | invalid e' => exact congrArg Except.ok (Study.essence_ofGraphError (GraphFault.invalid.inj h))
    | crash c => cases h
  | crash c =>
    cases fault' with
    | invalid e => cases h
    | crash c' =>
      cases h
      rfl

theorem Attempt.result_complete_shift (s : Searched) :
    ((Examination.complete s).attempt (u.shift k) o).result =
      ((Examination.complete s).attempt u o).result :=
  congrArg Except.ok (Study.ofPrimes_congr (u.name_shift k) (u.length_shift k) o s _)

/-- The place of a unit in its file does not matter. -/
theorem FlowUnit.untimedReport_shift (k : Nat) (u : FlowUnit) (o : Options) :
    (u.shift k).untimedReport o = u.untimedReport o := by
  have hgraph := graph_shift k u
  rw [untimedReport, untimedReport, untimedExamination, untimedExamination]
  generalize (u.shift k).graph = below at hgraph
  generalize u.graph = above at hgraph
  -- Both units have the same graph, or both have an error that differs in its line at most.
  rcases below with fault | g <;> rcases above with fault' | g'
  · exact Attempt.essence_refused_shift (Except.error.inj hgraph)
  · exact absurd hgraph nofun
  · exact absurd hgraph nofun
  · obtain rfl := Except.ok.inj hgraph
    apply congrArg
    dsimp only
    split
    · exact Attempt.result_halted_shift _ _
    · dsimp only [Examination.ofOutcome]
      split
      · exact Attempt.result_halted_shift _ _
      · exact Attempt.result_complete_shift _

end Reports

section Runs

theorem Recording.examine_untimed {r : Recording} (hr : r.Steady) (t : Readings) (u : FlowUnit)
    (ho : o.limits.maxSeconds = none) : r.examine t u o = u.untimedExamination o := by
  rw [examine, FlowUnit.untimedExamination]
  cases u.graph with
  | error fault => rfl
  | ok g =>
    dsimp only
    cases o.nodesHalt? g.graph.n with
    | some halt => rfl
    | none =>
      obtain ⟨startedAt, hfirst⟩ := hr.seconds t.seconds
      have hfound : r.find t o.verbose o.limits g.graph = g.graph.untimedOutcome o.verbose o.limits := by
        rw [find, enumerate_untimed r.clocks.seconds o.verbose ho]
        change (Outcome.since _ (r.seconds t.seconds)).2 = _
        rw [hfirst]
        rfl
      exact congrArg (Examination.ofOutcome g) hfound

/-- A steady clock takes part in nothing but the time of an analysis. -/
theorem Recording.essence_study (hr : r.Steady) (ho : o.limits.maxSeconds = none) (t : Readings)
    (u : FlowUnit) : (fun s => s.analysis.essence) <$> r.study t u o = u.untimedReport o := by
  obtain ⟨span, hspan⟩ := exists_span hr t
  rw [FlowUnit.untimedReport, ← examine_untimed hr t.began u ho]
  cases hresult : ((r.examine t.began u o).attempt u o).result with
  | ok reported =>
    have hstudy : r.study t u o = .ok (reported.withElapsed span) :=
      study_eq_ok_iff.mpr ⟨reported, span, hresult, hspan, rfl⟩
    rw [hstudy]
    rfl
  | error i =>
    obtain ⟨began, hbegan, -⟩ := hr.nanoseconds t.nanoseconds
    rw [study_eq, hbegan, hresult]
    rfl

open CommandLine

/-- The analyses of units, one after the other, on a recording. -/
def Recording.analyses (r : Recording) (t : Readings) (a : Arguments) (units : List FlowUnit) :
    Except Interruption (List Analysis) :=
  ((analyzeUnits r.clocks a units).run t).1.2

theorem Recording.analyses_cons (r : Recording) (t : Readings) (a : Arguments) (u : FlowUnit)
    (us : List FlowUnit) :
    ∃ t', r.analyses t a (u :: us) = (do
      let s ← r.study t u a.options
      let rest ← r.analyses t' a us
      return s.analysis :: rest) := by
  refine ⟨((timedAttempt r.clocks u a.options).run t).2, ?_⟩
  rw [analyses, analyzeUnits, study, StateT.run_bind]
  generalize (timedAttempt r.clocks u a.options).run t = attempted
  obtain ⟨⟨trace, result⟩, t'⟩ := attempted
  cases result with
  | error i => rfl
  | ok s =>
    change (r.analyses t' a us).map (s.analysis :: ·) = _
    cases r.analyses t' a us <;> rfl

/-- Each unit is analyzed as if it were alone. -/
theorem Recording.essence_analyses (hr : r.Steady) {a : Arguments}
    (ha : a.options.limits.maxSeconds = none) (t : Readings) (units : List FlowUnit) :
    List.map Analysis.essence <$> r.analyses t a units =
      units.mapM fun u => u.untimedReport a.options := by
  induction units generalizing t with
  | nil => rfl
  | cons u us ih =>
    obtain ⟨t', hanalyses⟩ := r.analyses_cons t a u us
    have hfirst := r.essence_study hr ha t u
    have hrest := ih t'
    rw [hanalyses, List.mapM_cons, ← hfirst, ← hrest]
    cases r.study t u a.options with
    | error i => rfl
    | ok s => cases r.analyses t' a us <;> rfl

theorem Recording.exists_analyses (hr : r.Steady) {a : Arguments} (ha : a.options.Numeric)
    (hwritten : a.options.Writable) (t : Readings) {units : List FlowUnit}
    (hunits : ∀ u ∈ units, u.Writable) : ∃ analyses, r.analyses t a units = .ok analyses := by
  induction units generalizing t with
  | nil => exact ⟨[], rfl⟩
  | cons u us ih =>
    obtain ⟨t', hanalyses⟩ := r.analyses_cons t a u us
    obtain ⟨s, hstudy⟩ := r.exists_study (t := t) ha hwritten (hunits u List.mem_cons_self) hr
    obtain ⟨rest, hrest⟩ := ih t' fun v hv => hunits v (List.mem_cons_of_mem u hv)
    rw [hanalyses, hstudy, hrest]
    exact ⟨_, rfl⟩

end Runs

section Exit

theorem Analysis.failed_of_error {a : Analysis} (h : a.status = .error) : a.failed = true := by
  simp [failed, h]

theorem exitCode_overall (analyses : List Analysis) :
    (overall analyses).exitCode =
      if analyses.any Analysis.failed then 1
      else if analyses.any fun a => a.status == .inconclusive then 2 else 0 := by
  have hnamed (p : Analysis → Bool) :
      (!((analyses.filter p).map Analysis.name).isEmpty) = analyses.any p := by
    rw [Bool.eq_iff_iff]
    simp
  have hfailed : analyses.any Analysis.failed =
      (analyses.any (fun a => a.status == .error) ||
        analyses.any fun a => a.status != .error && a.failed) := by
    rw [Bool.eq_iff_iff, Bool.or_eq_true, List.any_eq_true, List.any_eq_true, List.any_eq_true]
    constructor
    · rintro ⟨a, ha, hfailed⟩
      by_cases herror : a.status = .error
      · exact Or.inl ⟨a, ha, by simp [herror]⟩
      · exact Or.inr ⟨a, ha, by simp [herror, hfailed]⟩
    · rintro (⟨a, ha, herror⟩ | ⟨a, ha, hother⟩)
      · exact ⟨a, ha, Analysis.failed_of_error (by simpa using herror)⟩
      · exact ⟨a, ha, (Bool.and_eq_true _ _ ▸ hother).2⟩
  simp only [overall, hnamed, hfailed]
  cases analyses.any fun a => a.status == .error <;>
    cases analyses.any fun a => a.status != .error && a.failed <;>
      cases analyses.any fun a => a.status == .inconclusive <;> rfl

theorem exitCode_overall_essence (analyses : List Analysis) :
    (overall (analyses.map Analysis.essence)).exitCode = (overall analyses).exitCode := by
  rw [exitCode_overall, exitCode_overall, List.any_map, List.any_map]
  rfl

/-- A failure in either part comes before a limit that was reached in either part. -/
theorem exitCode_overall_append (as bs : List Analysis) :
    (overall (as ++ bs)).exitCode =
      if (overall as).exitCode = 1 ∨ (overall bs).exitCode = 1 then 1
      else if (overall as).exitCode = 2 ∨ (overall bs).exitCode = 2 then 2
      else 0 := by
  rw [exitCode_overall, exitCode_overall, exitCode_overall, List.any_append, List.any_append]
  cases as.any Analysis.failed <;> cases bs.any Analysis.failed <;>
    cases as.any (fun a => a.status == .inconclusive) <;>
      cases bs.any (fun a => a.status == .inconclusive) <;> decide

end Exit

end PrimePaths
