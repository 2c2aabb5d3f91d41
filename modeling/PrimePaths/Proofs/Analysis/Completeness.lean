import PrimePaths.Analysis.Patch
import PrimePaths.Proofs.Analysis.Examination
import PrimePaths.Proofs.Path.Distinct

namespace PrimePaths

/-- The paths of a search of the whole graph without limits and the prime ones among them. -/
def Analysis.ListsAll (a : Analysis) (o : Options) (g : Graph) : Prop :=
  ∃ done, g.FullSearch done ∧ a.paths = .ofList done.paths.toList ∧
    a.primes = .ofList (
      if o.unique then (primePaths o.strategy done.paths.toList).eraseDups
      else primePaths o.strategy done.paths.toList)

/-- The status of a study, what decides it and what it lists. -/
structure Recording.FullOrEmpty (r : Recording) (t : Readings) (u : FlowUnit) (o : Options)
    (s : Study) : Prop where
  error_iff : s.analysis.status = .error ↔ u.Refused
  error_graph : s.analysis.status = .error → s.analysis.graph = none ∧ s.searched? = none
  inconclusive_iff : s.analysis.status = .inconclusive ↔
    ∃ g, u.graph = .ok g ∧ (o.ExceedsNodes g.graph.n ∨
      ∃ reached, (r.search t.began o.limits g.graph none).halt? = some (.limit reached))
  not_searched : ∀ g, u.graph = .ok g → o.ExceedsNodes g.graph.n →
    s.analysis.stats = some { calls := 0, pathsFound := 0, maxDepth := 0 } ∧
      ((timedAttempt r.clocks u o).run t).2.seconds = t.seconds
  empty : s.analysis.status ≠ .ok →
    s.analysis.paths = { count := 0, paths := [] } ∧ s.analysis.primes = { count := 0, paths := [] }
  full : s.analysis.status = .ok → ∃ g, u.graph = .ok g ∧ s.analysis.ListsAll o g.graph

namespace Study

variable {u : FlowUnit} {o : Options} {s : Searched} {primes : List Path}

theorem status_ofPrimes : (ofPrimes u o s primes).analysis.status = .ok := by
  cases hvalidate : o.validate <;> cases hconfirm : o.confirmPrimes <;>
    simp [ofPrimes, hvalidate, hconfirm, searchedRecord, Analysis.blank]

end Study

namespace Recording

variable {r : Recording} {t : Readings} {u : FlowUnit} {o : Options}

theorem seconds_timedAttempt {g : LiveGraph} {halt : Halt} (hgraph : u.graph = .ok g)
    (hnodes : o.nodesHalt? g.graph.n = some halt) :
    ((timedAttempt r.clocks u o).run t).2.seconds = t.seconds := by
  have hrun : (attempt r.clocks.seconds u o).run t.began =
      (.ofHalt u o { graph := g, progress := {} } halt, t.began) := by
    simp only [attempt, hgraph, hnodes]
    rfl
  rw [timedAttempt_run, hrun]
  cases r.nanoseconds t.nanoseconds with
  | error i => rfl
  | ok began =>
    dsimp only
    split <;> rfl

theorem fullOrEmpty_ofGraphError {e : GraphError} (hgraph : u.graph = .error (.invalid e))
    (span : Elapsed) :
    r.FullOrEmpty t u o ((Study.ofGraphError u o e).withElapsed span) := by
  have hno (g : LiveGraph) : u.graph ≠ .ok g := by
    rw [hgraph]
    simp
  exact {
    error_iff := iff_of_true rfl (u.refused_iff.mpr ⟨e, hgraph⟩)
    error_graph := fun _ => ⟨rfl, rfl⟩
    inconclusive_iff := iff_of_false nofun fun ⟨g, hg, _⟩ => hno g hg
    not_searched := fun g hg => absurd hg (hno g)
    empty := fun _ => ⟨rfl, rfl⟩
    full := nofun }

theorem fullOrEmpty_ofLimit {g : LiveGraph} {p : Progress} {reached : LimitReached}
    (hgraph : u.graph = .ok g)
    (hlimit : o.ExceedsNodes g.graph.n ∨
      ∃ reached, (r.search t.began o.limits g.graph none).halt? = some (.limit reached))
    (hempty : o.ExceedsNodes g.graph.n → p = {}) (span : Elapsed) :
    r.FullOrEmpty t u o ((Study.ofLimit u o { graph := g, progress := p } reached).withElapsed span) := by
  refine {
    error_iff := iff_of_false nofun (FlowUnit.not_refused hgraph)
    error_graph := nofun
    inconclusive_iff := iff_of_true rfl ⟨g, hgraph, hlimit⟩
    not_searched := ?_
    empty := fun _ => ⟨rfl, rfl⟩
    full := nofun }
  intro g' hg' hexceeds
  obtain rfl := Except.ok.inj (hgraph.symm.trans hg')
  obtain rfl := hempty hexceeds
  obtain ⟨reached, hnodes⟩ := (o.exceedsNodes_iff _).mp hexceeds
  exact ⟨rfl, seconds_timedAttempt hgraph hnodes⟩

theorem fullOrEmpty_ofPrimes {g : LiveGraph} {p : Progress} (hgraph : u.graph = .ok g)
    (hnodes : o.nodesHalt? g.graph.n = none)
    (hsearch : (r.search t.began o.limits g.graph none).halt? = none)
    (hpaths : p.paths.toList = g.graph.paths) (span : Elapsed) :
    r.FullOrEmpty t u o ((Study.ofPrimes u o { graph := g, progress := p }
      (primePaths o.strategy p.paths.toList)).withElapsed span) := by
  have hstatus : ((Study.ofPrimes u o { graph := g, progress := p }
      (primePaths o.strategy p.paths.toList)).withElapsed span).analysis.status = .ok :=
    Study.status_ofPrimes
  have hroom : ¬o.ExceedsNodes g.graph.n := by
    rw [o.exceedsNodes_iff, hnodes]
    simp
  refine {
    error_iff := iff_of_false (by simp [hstatus]) (FlowUnit.not_refused hgraph)
    error_graph := fun h => by simp [hstatus] at h
    inconclusive_iff := iff_of_false (by simp [hstatus]) ?_
    not_searched := ?_
    empty := fun h => absurd hstatus h
    full := fun _ => ⟨g, hgraph, g.graph.survey g.graph.nodes, g.graph.fullSearch_survey, ?_, ?_⟩ }
  · intro h
    obtain ⟨g', hg', hlimit⟩ := h
    obtain rfl := Except.ok.inj (hgraph.symm.trans hg')
    rcases hlimit with hexceeds | ⟨reached, hreached⟩
    · exact hroom hexceeds
    · simp [hsearch] at hreached
  · intro g' hg' hexceeds
    obtain rfl := Except.ok.inj (hgraph.symm.trans hg')
    exact absurd hexceeds hroom
  · rw [g.graph.paths_survey_nodes, ← hpaths]
    rfl
  · rw [g.graph.paths_survey_nodes, ← hpaths, ← distinctPaths_eq_eraseDups]
    rfl

theorem fullOrEmpty_of_study {s : Study} (h : r.study t u o = .ok s) : r.FullOrEmpty t u o s := by
  obtain ⟨reported, span, hreported, -, rfl⟩ := study_eq_ok_iff.mp h
  have hx := r.examined_examine t.began u o
  generalize r.examine t.began u o = x at hx hreported
  rcases Examination.result_cases hreported with ⟨e, rfl, rfl⟩ | ⟨s, reached, rfl, rfl⟩ | ⟨s, rfl, rfl⟩
  · cases hx with
    | refused hgraph => exact fullOrEmpty_ofGraphError hgraph span
  · cases hx with
    | crowded hgraph hnodes =>
      exact fullOrEmpty_ofLimit hgraph (Or.inl ((o.exceedsNodes_iff _).mpr ⟨reached, hnodes⟩))
        (fun _ => rfl) span
    | stopped hgraph hnodes hsearch =>
      refine fullOrEmpty_ofLimit hgraph (Or.inr ⟨reached, hsearch⟩) (fun hexceeds => ?_) span
      obtain ⟨_, hcrowded⟩ := (o.exceedsNodes_iff _).mp hexceeds
      simp [hnodes] at hcrowded
  · cases hx with
    | complete hgraph hnodes hsearch =>
      exact fullOrEmpty_ofPrimes hgraph hnodes hsearch (search_complete _ hsearch).1 span

/-- On clocks that answer, and unless a number is too long to be written, a unit is studied under numbers, and
every study tells all or nothing. -/
theorem study_full_or_empty (r : Recording) (t : Readings) (u : FlowUnit) (o : Options) :
    (o.Numeric → o.Writable → u.Writable → r.Steady → ∃ s, r.study t u o = .ok s) ∧
      ∀ s, r.study t u o = .ok s → r.FullOrEmpty t u o s := by
  constructor
  · intro ho hwritten hu hr
    exact exists_study ho hwritten hu hr
  · intro s hs
    exact fullOrEmpty_of_study hs

/-- The report on a study as it came about can be shown. -/
theorem ofPatched_study {s : Study} (h : r.study t u o = .ok s) :
    Report.ofPatched u s o (.object []) = .ok (Report.ofUnit u s.searched? s.analysis o) := by
  obtain ⟨reported, span, hreported, -, rfl⟩ := study_eq_ok_iff.mp h
  refine Report.ofPatched_nothing u o fun hnone => ?_
  rcases Examination.result_cases hreported with ⟨e, -, rfl⟩ | ⟨s, reached, -, rfl⟩ | ⟨s, -, rfl⟩
  · rfl
  · cases hnone
  · cases hnone

end Recording

/-- Two blocks that follow each other, the second one listed first. -/
def FlowUnit.cycle : FlowUnit where
  name := "cycle"
  entries := [
    { index := 1, block := { live := true, succs := [0] } },
    { index := 0, block := { live := true, succs := [1] } }]

theorem FlowUnit.graph_cycle : ∃ g, FlowUnit.cycle.graph = .ok g ∧ g.graph.n = 2 := by
  have htable : FlowUnit.cycle.blockTable =
      .ok [{ live := true, succs := [1] }, { live := true, succs := [0] }] := by
    simp [blockTable, firstRepeat?, sorted, List.mergeSort, List.MergeSort.Internal.splitInTwo, cycle]
    decide
  rw [graph, htable]
  exact ⟨_, rfl, rfl⟩

theorem FlowUnit.writable_cycle : FlowUnit.cycle.Writable :=
  ⟨by decide +kernel, by decide +kernel⟩

/-- A cycle of two nodes where one node is allowed. -/
theorem Recording.study_full_or_empty_cycle :
    ∃ s, (counting 7).study {} .cycle { maxNodes := some (.number (.whole 1)) } = .ok s ∧
      s.analysis.status = .inconclusive ∧
      s.analysis.paths = { count := 0, paths := [] } ∧
      s.analysis.stats = some { calls := 0, pathsFound := 0, maxDepth := 0 } := by
  obtain ⟨hexists, hfull⟩ :=
    study_full_or_empty (counting 7) {} .cycle { maxNodes := some (.number (.whole 1)) }
  obtain ⟨s, hs⟩ := hexists ⟨by decide, by decide, by decide, by decide⟩
    ⟨by decide +kernel, by decide +kernel⟩ FlowUnit.writable_cycle (steady_counting (by decide))
  have hsound := hfull s hs
  obtain ⟨g, hgraph, hn⟩ := FlowUnit.graph_cycle
  have hexceeds : Options.ExceedsNodes { maxNodes := some (.number (.whole 1)) } g.graph.n :=
    ⟨.whole 1, rfl, by rw [hn]; decide⟩
  have hstatus := hsound.inconclusive_iff.mpr ⟨g, hgraph, Or.inl hexceeds⟩
  have hempty := (hsound.empty (by simp [hstatus])).1
  exact ⟨s, hs, hstatus, hempty, (hsound.not_searched g hgraph hexceeds).1⟩

/-- A unit of one block. -/
def FlowUnit.single : FlowUnit where
  name := "u"
  entries := [{ index := 0, block := { live := true, succs := [] } }]

/-- Clocks of which the one of nanoseconds always fails. -/
def Recording.failing : Recording :=
  { counting 0 with nanoseconds := fun _ => .error (.crash .clock) }

/-- There is no study if the clock fails, nor of a unit that repeats an index too long to be written. -/
theorem Recording.not_study_failing :
    (¬∃ s, failing.study {} .single {} = .ok s) ∧
      ¬∃ s, (counting 0).study {} { name := "u", entries := [
        { index := 10 ^ Crash.maxDigits, block := { live := true, succs := [] } },
        { index := 10 ^ Crash.maxDigits, block := { live := true, succs := [] } }] } {} = .ok s := by
  constructor
  · rintro ⟨s, hs⟩
    cases hs
  · rintro ⟨s, hs⟩
    obtain ⟨reported, -, hreported, -⟩ := study_eq_ok_iff.mp hs
    have htable := FlowUnit.blockTable_pair_of_long (u := { name := "u", entries := [
      { index := 10 ^ Crash.maxDigits, block := { live := true, succs := [] } },
      { index := 10 ^ Crash.maxDigits, block := { live := true, succs := [] } }] })
      rfl rfl Number.not_writable_pow
    rw [examine, FlowUnit.graph_eq_error_iff.mpr (Or.inl htable)] at hreported
    cases hreported

end PrimePaths
