import PrimePaths.Analysis.Overall
import PrimePaths.Proofs.Analysis.Completeness
import PrimePaths.Proofs.Path.Confirmation
import PrimePaths.Proofs.Search.Multiplicity

namespace PrimePaths

/-- The options differ in the filter, in the checks and in what is shown at most. -/
structure Options.SameQuestion (o₁ o₂ : Options) : Prop where
  unique : o₁.unique = o₂.unique
  maxNodes : o₁.maxNodes = o₂.maxNodes
  limits : o₁.limits = o₂.limits

namespace Analysis

/-- An analysis without the name of the filter and the results of the checks. -/
def answer (a : Analysis) : Analysis :=
  { a with strategy := .quadratic, confirmation := {}, validation := none }

structure ChecksHold (a : Analysis) : Prop where
  validation : ∀ v ∈ a.validation, v.verdict = .pass ∨ v.verdict = .inconclusive
  confirmation : ∀ pass ∈ a.confirmation.pass, pass = true

theorem ChecksHold.failed_eq {a : Analysis} (h : a.ChecksHold) : a.failed = (a.status == .error) := by
  have hconfirmation : (a.confirmation.pass == some false) = false := by
    rw [beq_eq_false_iff_ne]
    intro hfalse
    exact absurd (h.confirmation false hfalse) (by decide)
  have hvalidation : ∀ v ∈ a.validation, (v.verdict == .fail) = false := by
    intro v hv
    rcases h.validation v hv with hpass | hopen
    · rw [hpass]
      rfl
    · rw [hopen]
      rfl
  unfold failed
  cases hv : a.validation with
  | none => simp [hconfirmation]
  | some v => simp [hconfirmation, hvalidation v hv]

end Analysis

theorem Validation.verdict_ofPrimes (s : Strategy) {primes others : List Path} {f : Findings}
    (hagree : primes = others) (hpass : f.pass = true) :
    (ofPrimes s primes others f).verdict = .pass := by
  have hcomplaint : f.complaint? = none := Option.isNone_iff_eq_none.mp hpass
  simp [ofPrimes, hagree, hcomplaint]

namespace Study

variable {u : FlowUnit} {o o₁ o₂ : Options} {s : Searched} {primes : List Path}

theorem checksHold_ofLimit (reached : LimitReached) : (ofLimit u o s reached).analysis.ChecksHold := by
  refine ⟨?_, nofun⟩
  intro v hv
  obtain ⟨-, hv⟩ := Option.ite_none_right_eq_some.mp hv
  rw [← Option.some.inj hv]
  exact Or.inr rfl

theorem checksHold_ofPrimes
    (hagree : primes = primePaths o.strategy.other s.progress.paths.toList)
    (hpass : (confirmPrimes s.progress.paths.toList primes).pass = true) :
    (ofPrimes u o s primes).analysis.ChecksHold := by
  unfold ofPrimes
  dsimp only
  split
  · refine ⟨?_, ?_⟩
    · intro v hv
      rw [← Option.some.inj hv]
      exact Or.inl (Validation.verdict_ofPrimes _ hagree hpass)
    · intro pass h
      rw [← Option.some.inj h]
      exact hpass
  · split
    · refine ⟨nofun, ?_⟩
      intro pass h
      rw [← Option.some.inj h]
      exact hpass
    · exact ⟨nofun, nofun⟩

theorem answer_ofPrimes (u : FlowUnit) (o : Options) (s : Searched) (primes : List Path) :
    (ofPrimes u o s primes).analysis.answer =
      { Analysis.answer (searchedRecord u o s) with
        message := some Analysis.successMessage
        paths := .ofList s.progress.paths.toList
        primes := .ofList (if o.unique then distinctPaths primes else primes) } := by
  unfold ofPrimes
  dsimp only
  split
  · rfl
  · split <;> rfl

theorem answer_searchedRecord (h : o₁.SameQuestion o₂) :
    (searchedRecord u o₁ s).answer = (searchedRecord u o₂ s).answer := by
  simp [searchedRecord, Analysis.blank, Analysis.answer, h.unique]

end Study

namespace Recording

variable {r : Recording} {t : Readings} {u : FlowUnit} {o o₁ o₂ : Options}

/-- Both filters find the same prime paths of a complete search, and the check passes them. -/
theorem Examined.primes_of_complete {s : Searched} (hx : r.Examined t u o (.complete s)) :
    (∀ f f', primePaths f s.progress.paths.toList = primePaths f' s.progress.paths.toList) ∧
      ∀ f, (confirmPrimes s.progress.paths.toList
        (primePaths f s.progress.paths.toList)).pass = true := by
  cases hx with
  | @complete g hgraph hnodes hsearch =>
    have hpaths := (search_complete g.graph hsearch).1
    have hne : ∀ p ∈ g.graph.paths, p ≠ [] := fun _ => Graph.ne_nil_of_mem_paths
    simp only [hpaths]
    refine ⟨?_, ?_⟩
    · intro f f'
      rw [primePaths_of_ne_nil hne, primePaths_of_ne_nil hne]
    · intro f
      exact pass_confirmPrimes_primePaths hne f

theorem Examined.checksHold {x : Examination} {s : Study} (hx : r.Examined t u o x)
    (hs : (x.attempt u o).result = .ok s) : s.analysis.ChecksHold := by
  rcases Examination.result_cases hs with ⟨e, rfl, rfl⟩ | ⟨s, reached, rfl, rfl⟩ | ⟨s, rfl, rfl⟩
  · exact ⟨nofun, nofun⟩
  · exact Study.checksHold_ofLimit reached
  · obtain ⟨hsame, hpass⟩ := hx.primes_of_complete
    exact Study.checksHold_ofPrimes (hsame _ _) (hpass _)

/-- The report on an examination answers the same in all modes. -/
theorem Examined.answer_congr {x : Examination} (hx : r.Examined t u o x)
    (h : o₁.SameQuestion o₂) :
    (fun s => s.analysis.answer) <$> (x.attempt u o₁).result =
      (fun s => s.analysis.answer) <$> (x.attempt u o₂).result := by
  cases x with
  | refused fault =>
    cases fault with
    | crash c => rfl
    | invalid e =>
      have hanswer : (Study.ofGraphError u o₁ e).analysis.answer =
          (Study.ofGraphError u o₂ e).analysis.answer := by
        simp [Study.ofGraphError, Analysis.blank, Analysis.answer, h.unique]
      exact congrArg Except.ok hanswer
  | halted searched halt =>
    simp only [Examination.attempt, Attempt.ofHalt]
    cases halt.raised with
    | error i => rfl
    | ok reached =>
      have hanswer : (Study.ofLimit u o₁ searched reached).analysis.answer =
          (Study.ofLimit u o₂ searched reached).analysis.answer := by
        simp [Study.ofLimit, Study.searchedRecord, Analysis.blank, Analysis.answer, h.unique]
      exact congrArg Except.ok hanswer
  | complete searched =>
    obtain ⟨hsame, -⟩ := hx.primes_of_complete
    have hanswer (o : Options) := Study.answer_ofPrimes u o searched
      (primePaths o.strategy searched.progress.paths.toList)
    refine congrArg Except.ok ((hanswer o₁).trans (Eq.trans ?_ (hanswer o₂).symm))
    rw [Study.answer_searchedRecord h, h.unique, hsame o₁.strategy o₂.strategy]

theorem answer_study (h : o₁.SameQuestion o₂)
    (hexamine : r.examine t.began u o₁ = r.examine t.began u o₂) :
    (fun s => s.analysis.answer) <$> r.study t u o₁ =
      (fun s => s.analysis.answer) <$> r.study t u o₂ := by
  have hanswer := (r.examined_examine t.began u o₁).answer_congr h
  rw [study_eq, study_eq, ← hexamine]
  cases r.nanoseconds t.nanoseconds with
  | error i => rfl
  | ok began =>
    generalize ((r.examine t.began u o₁).attempt u o₁).result = result₁ at hanswer
    generalize ((r.examine t.began u o₁).attempt u o₂).result = result₂ at hanswer
    rcases result₁ with i₁ | s₁ <;> rcases result₂ with i₂ | s₂
    · exact congrArg Except.error (Except.error.inj hanswer)
    · exact absurd hanswer nofun
    · exact absurd hanswer nofun
    · -- The time goes into both answers in the same place.
      cases r.nanoseconds (t.nanoseconds + 1) with
      | error i => rfl
      | ok ended =>
        cases hspan : (Elapsed.ofNanoseconds (ended - began)).mapError Interruption.crash with
        | error i => simp [bind, Except.bind, hspan]
        | ok span =>
          have htimed := congrArg (fun a : Analysis => { a with elapsed := span }) (Except.ok.inj hanswer)
          simp only [bind, Except.bind, hspan]
          exact congrArg Except.ok htimed

/-- What can be reported is what a silent analysis comes upon. -/
theorem examine_silent {s : Study} (h : ((r.examine t u o).attempt u o).result = .ok s) :
    r.examine t u o = r.examine t u { o with verbose := false } := by
  unfold examine at h ⊢
  cases hgraph : u.graph with
  | error fault => rfl
  | ok g =>
    rw [hgraph] at h
    simp only [Options.nodesHalt?] at h ⊢
    split
    · rfl
    · rename_i hnodes
      rw [hnodes] at h
      rcases r.find_cases o.verbose o.limits g.graph with hfound | ⟨-, hfound⟩
      · rw [hfound]
        rfl
      · rw [hfound] at h
        cases h

theorem answer_of_studies {s₁ s₂ : Study} (h : o₁.SameQuestion o₂) (h₁ : r.study t u o₁ = .ok s₁)
    (h₂ : r.study t u o₂ = .ok s₂) : s₁.analysis.answer = s₂.analysis.answer := by
  obtain ⟨_, _, hreported₁, -⟩ := study_eq_ok_iff.mp h₁
  obtain ⟨_, _, hreported₂, -⟩ := study_eq_ok_iff.mp h₂
  have hsilent : r.examine t.began u { o₁ with verbose := false } =
      r.examine t.began u { o₂ with verbose := false } :=
    r.examine_congr t.began u h.maxNodes h.limits (Or.inl rfl)
  have hanswer := answer_study h
    ((examine_silent hreported₁).trans (hsilent.trans (examine_silent hreported₂).symm))
  rw [h₁, h₂] at hanswer
  exact Except.ok.inj hanswer

theorem checksHold_of_study {s : Study} (h : r.study t u o = .ok s) : s.analysis.ChecksHold := by
  obtain ⟨reported, span, hreported, -, rfl⟩ := study_eq_ok_iff.mp h
  obtain ⟨hvalidation, hconfirmation⟩ := (r.examined_examine t.began u o).checksHold hreported
  exact ⟨hvalidation, hconfirmation⟩

end Recording

/-- Where all checks hold, a run ends by the worst status of its units. -/
theorem overall_status_eq {analyses : List Analysis} (h : ∀ a ∈ analyses, a.ChecksHold) :
    (overall analyses).status =
      if ∃ a ∈ analyses, a.status = .error then .error
      else if ∃ a ∈ analyses, a.status = .inconclusive then .inconclusive
      else .ok := by
  have hfailed : (analyses.filter fun a => a.status != .error && a.failed) = [] := by
    rw [List.filter_eq_nil_iff]
    intro a ha
    rw [(h a ha).failed_eq]
    simp
  have hsome (status : Status) :
      (!((analyses.filter fun a => a.status == status).map Analysis.name).isEmpty) = true ↔
        ∃ a ∈ analyses, a.status = status := by
    simp
  simp only [overall, hfailed, hsome]
  split
  · rfl
  · simp only [List.map_nil, List.isEmpty_nil, Bool.not_true, Bool.false_eq_true, if_false]
    split <;> rfl

def FlowUnit.Analyzed (u : FlowUnit) (a : Analysis) : Prop :=
  ∃ (r : Recording) (t : Readings) (o : Options) (s : Study), r.study t u o = .ok s ∧ s.analysis = a

theorem FlowUnit.Analyzed.checksHold {u : FlowUnit} {a : Analysis} (h : u.Analyzed a) :
    a.ChecksHold := by
  obtain ⟨r, t, o, s, hs, rfl⟩ := h
  exact Recording.checksHold_of_study hs

theorem FlowUnit.Analyzed.error_iff {u : FlowUnit} {a : Analysis} (h : u.Analyzed a) :
    a.status = .error ↔ u.Refused := by
  obtain ⟨r, t, o, s, hs, rfl⟩ := h
  exact (Recording.fullOrEmpty_of_study hs).error_iff

/-- The counts that an analysis gives are those of its lists. -/
theorem FlowUnit.Analyzed.count_eq {u : FlowUnit} {a : Analysis} (h : u.Analyzed a) :
    a.paths.count = a.paths.paths.length ∧ a.primes.count = a.primes.paths.length := by
  obtain ⟨r, t, o, s, hs, rfl⟩ := h
  have hsound := Recording.fullOrEmpty_of_study hs
  by_cases hok : s.analysis.status = .ok
  · obtain ⟨g, -, done, -, hpaths, hprimes⟩ := hsound.full hok
    rw [hpaths, hprimes]
    exact ⟨rfl, rfl⟩
  · obtain ⟨hpaths, hprimes⟩ := hsound.empty hok
    rw [hpaths, hprimes]
    exact ⟨rfl, rfl⟩

/-- No check of an analysis ever fails and no mode changes its answer, so that no run over several units
fails but by an invalid graph. Modes do not decide about failures either, but that a verbose analysis has to
write its limits. -/
theorem modes_agree :
    (∀ (r : Recording) (t : Readings) (u : FlowUnit) (o : Options),
      (o.Numeric → o.Writable → u.Writable → r.Steady → ∃ s, r.study t u o = .ok s) ∧
        ∀ s, r.study t u o = .ok s → s.analysis.ChecksHold) ∧
    (∀ (r : Recording) (t : Readings) (u : FlowUnit) (o₁ o₂ : Options), o₁.SameQuestion o₂ →
      (∀ s₁ s₂, r.study t u o₁ = .ok s₁ → r.study t u o₂ = .ok s₂ →
        s₁.analysis.answer = s₂.analysis.answer) ∧
      (o₁.verbose = o₂.verbose ∨ o₁.limits.Writable →
        (fun s => s.analysis.answer) <$> r.study t u o₁ =
          (fun s => s.analysis.answer) <$> r.study t u o₂)) ∧
    ∀ units : List (FlowUnit × Analysis), (∀ x ∈ units, x.1.Analyzed x.2) →
      (overall (units.map Prod.snd)).status ≠ .fail ∧
        ((overall (units.map Prod.snd)).exitCode = 1 ↔ ∃ x ∈ units, x.1.Refused) := by
  refine ⟨fun r t u o => ⟨?_, ?_⟩, fun r t u o₁ o₂ h => ⟨?_, ?_⟩, fun units hunits => ?_⟩
  · intro ho hwritten hu hr
    exact Recording.exists_study ho hwritten hu hr
  · intro s hs
    exact Recording.checksHold_of_study hs
  · intro s₁ s₂ h₁ h₂
    exact Recording.answer_of_studies h h₁ h₂
  · intro hverbose
    exact Recording.answer_study h (r.examine_congr t.began u h.maxNodes h.limits hverbose)
  · have hchecks : ∀ a ∈ units.map Prod.snd, a.ChecksHold := by
      intro a ha
      obtain ⟨x, hx, rfl⟩ := List.mem_map.mp ha
      exact (hunits x hx).checksHold
    have herror : (∃ a ∈ units.map Prod.snd, a.status = .error) ↔ ∃ x ∈ units, x.1.Refused := by
      constructor
      · intro h
        obtain ⟨a, ha, herror⟩ := h
        obtain ⟨x, hx, rfl⟩ := List.mem_map.mp ha
        exact ⟨x, hx, (hunits x hx).error_iff.mp herror⟩
      · intro h
        obtain ⟨x, hx, hrefused⟩ := h
        exact ⟨x.2, List.mem_map_of_mem hx, (hunits x hx).error_iff.mpr hrefused⟩
    rw [Overall.exitCode, overall_status_eq hchecks, ← herror]
    split
    · rename_i h
      exact ⟨nofun, iff_of_true rfl h⟩
    · rename_i h
      split
      · exact ⟨nofun, iff_of_false (by decide) h⟩
      · exact ⟨nofun, iff_of_false (by decide) h⟩

/-- A cycle of two nodes, analyzed with the index and all checks and without them. -/
theorem modes_agree_cycle :
    ∃ checked plain,
      (Recording.counting 7).study {} .cycle
        { indexed := true, validate := true, confirmPrimes := true, verbose := true } = .ok checked ∧
      (Recording.counting 7).study {} .cycle {} = .ok plain ∧
      checked.analysis.ChecksHold ∧ checked.analysis.answer = plain.analysis.answer ∧
      (overall [checked.analysis, plain.analysis]).exitCode ≠ 1 := by
  obtain ⟨hstudies, hanswers, hruns⟩ := modes_agree
  have hsteady : (Recording.counting 7).Steady := Recording.steady_counting (by decide)
  obtain ⟨hchecked, hholds⟩ := hstudies (.counting 7) {} .cycle
    { indexed := true, validate := true, confirmPrimes := true, verbose := true }
  obtain ⟨checked, hchecked⟩ := hchecked ⟨by decide, by decide, by decide, by decide⟩
    ⟨by decide, by decide⟩ FlowUnit.writable_cycle hsteady
  obtain ⟨plain, hplain⟩ := (hstudies (.counting 7) {} .cycle {}).1
    ⟨by decide, by decide, by decide, by decide⟩ ⟨by decide, by decide⟩ FlowUnit.writable_cycle hsteady
  have hsame := (hanswers (.counting 7) {} .cycle
    { indexed := true, validate := true, confirmPrimes := true, verbose := true } {} ⟨rfl, rfl, rfl⟩).2
    (Or.inr (by decide))
  rw [hchecked, hplain] at hsame
  refine ⟨checked, plain, hchecked, hplain, hholds checked hchecked, Except.ok.inj hsame, ?_⟩
  have hunits : ∀ x ∈ [(FlowUnit.cycle, checked.analysis), (FlowUnit.cycle, plain.analysis)],
      x.1.Analyzed x.2 := by
    intro x hx
    rcases List.mem_pair.mp hx with rfl | rfl
    · exact ⟨_, _, _, checked, hchecked, rfl⟩
    · exact ⟨_, _, _, plain, hplain, rfl⟩
  intro hone
  obtain ⟨x, hx, hrefused⟩ := (hruns _ hunits).2.mp hone
  obtain ⟨g, hgraph, -⟩ := FlowUnit.graph_cycle
  have hunit : x.1 = .cycle := by
    rcases List.mem_pair.mp hx with rfl | rfl <;> rfl
  rw [hunit] at hrefused
  exact FlowUnit.not_refused hgraph hrefused

/-- A limit that is never reached and is too long to be written. -/
def Limits.long : Limits where
  maxCalls := some (.number (.whole (10 ^ Crash.maxDigits)))

theorem Limits.not_writable_long : ¬Limits.long.Writable :=
  fun h => Number.not_writable_pow (h (.number (.whole (10 ^ Crash.maxDigits))) List.mem_cons_self)

theorem FlowUnit.graph_of_nil {u : FlowUnit} (h : u.entries = []) :
    ∃ g, u.graph = .ok g ∧ g.graph.nodes = [] := by
  have htable : u.blockTable = .ok [] := by
    rw [blockTable_of_perm (by simp [indices, expected, h]), sorted, h, List.mergeSort_nil]
    rfl
  rw [graph, htable]
  exact ⟨_, rfl, rfl⟩

/-- There is no study if the clock fails at its end. Under a limit that is too long to be written a unit
without blocks has a study if the analysis is silent, and none if it is verbose. -/
theorem Recording.not_modes_agree :
    (¬∃ s, ({ counting 0 with
      nanoseconds := fun k => if k = 0 then .ok 0 else .error (.crash .clock) } : Recording).study {} .single
        {} = .ok s) ∧
      (∃ s, (counting 0).study {} { name := "u" } { limits := .long } = .ok s) ∧
      ¬∃ s, (counting 0).study {} { name := "u" } { verbose := true, limits := .long } = .ok s := by
  obtain ⟨g, hgraph, hnodes⟩ := FlowUnit.graph_of_nil (u := { name := "u" }) rfl
  refine ⟨?_, ?_, ?_⟩
  · rintro ⟨s, hs⟩
    obtain ⟨_, span, -, hspan, -⟩ := study_eq_ok_iff.mp hs
    cases hspan
  · have hsearch : ((counting 0).search (Readings.began {}) .long g.graph none).halt? = none := by
      by_contra hhalt
      have hpaths := ((search_halts_iff g.graph (some (10 ^ Crash.maxDigits)) none rfl).mp hhalt).1
      exact hpaths (by simp [Graph.paths, hnodes])
    have hexamined : (counting 0).examine (Readings.began {}) { name := "u" } { limits := .long } =
        .ofOutcome g ((counting 0).search (Readings.began {}) .long g.graph none) := by
      rw [examine, hgraph]
      rfl
    obtain ⟨span, hspan⟩ := exists_span (steady_counting (i := 0) (by decide)) {}
    have hreported : ∃ reported, (((counting 0).examine (Readings.began {}) { name := "u" }
        { limits := .long }).attempt { name := "u" } { limits := .long }).result = .ok reported := by
      rw [hexamined, Examination.ofOutcome, hsearch]
      exact ⟨_, rfl⟩
    obtain ⟨reported, hreported⟩ := hreported
    exact ⟨_, study_eq_ok_iff.mpr ⟨reported, span, hreported, hspan, rfl⟩⟩
  · rintro ⟨s, hs⟩
    obtain ⟨reported, -, hreported, -⟩ := study_eq_ok_iff.mp hs
    have hexamined : (counting 0).examine (Readings.began {}) { name := "u" }
        { verbose := true, limits := .long } =
          .ofOutcome g ((counting 0).find (Readings.began {}) true .long g.graph) := by
      rw [examine, hgraph]
      rfl
    rw [hexamined, find_unsaid rfl fun hsaid => Limits.not_writable_long hsaid.2] at hreported
    cases hreported

end PrimePaths
