import PrimePaths.Analysis.Basic
import PrimePaths.Proofs.Except
import PrimePaths.Proofs.Graph.BlockTable
import PrimePaths.Proofs.Graph.Induced
import PrimePaths.Proofs.Search.Preservation
import PrimePaths.Proofs.Search.Cut

namespace PrimePaths

/-- The bounds on the nodes and on the search are numbers. -/
structure Options.Numeric (o : Options) : Prop where
  nodes : o.maxNodes ≠ some .blank
  limits : o.limits.Numeric

/-- The bounds on the nodes and on the search can be written. -/
structure Options.Writable (o : Options) : Prop where
  nodes : ∀ b ∈ o.maxNodes, b.Writable
  limits : o.limits.Writable

def Options.ExceedsNodes (o : Options) (n : Int) : Prop :=
  ∃ limit, o.maxNodes = some (.number limit) ∧ limit.lt (.whole n) = true

theorem Options.exceedsNodes_iff (o : Options) (n : Int) :
    o.ExceedsNodes n ↔ ∃ reached, o.nodesHalt? n = some (.limit reached) := by
  constructor
  · intro h
    obtain ⟨limit, hmax, hless⟩ := h
    exact ⟨.nodes n limit, by simp [nodesHalt?, hmax, Bound.halt?, hless]⟩
  · intro h
    obtain ⟨reached, h⟩ := h
    obtain ⟨b, hmax, h⟩ := Option.bind_eq_some_iff.mp h
    cases b with
    | blank => simp [Bound.halt?] at h
    | number limit => exact ⟨limit, hmax, (Option.ite_none_right_eq_some.mp h).1⟩

namespace FlowUnit

/-- The listing of a unit gives no table of blocks, or the blocks give no graph, for an error in it. -/
def Refused (u : FlowUnit) : Prop :=
  (∃ e, u.blockTable = .error (.invalid e)) ∨
    ∃ blocks e, u.blockTable = .ok blocks ∧ LiveGraph.ofBlocks blocks = .error (.invalid e)

variable {u : FlowUnit} {g : LiveGraph}

theorem graph_eq_error_iff {fault : GraphFault} :
    u.graph = .error fault ↔ u.blockTable = .error fault ∨
      ∃ blocks, u.blockTable = .ok blocks ∧ LiveGraph.ofBlocks blocks = .error fault := by
  unfold graph
  cases u.blockTable with
  | error e => simp [bind, Except.bind]
  | ok blocks => simp [bind, Except.bind]

theorem refused_iff (u : FlowUnit) : u.Refused ↔ ∃ e, u.graph = .error (.invalid e) := by
  simp only [Refused, graph_eq_error_iff, exists_or]
  rw [exists_comm]

theorem not_refused (hgraph : u.graph = .ok g) : ¬u.Refused := by
  rw [u.refused_iff, hgraph]
  simp

theorem Writable.blockTable_ne_crash (h : u.Writable) (c : Crash) : u.blockTable ≠ .error (.crash c) := by
  by_cases hnodup : u.indices.Nodup
  · by_cases hperm : u.indices.Perm u.expected
    · rw [blockTable_of_perm hperm]
      exact nofun
    · rw [blockTable_of_gap hnodup hperm]
      exact nofun
  · obtain ⟨e, ⟨before, after, hentries, -⟩, hwritten, -⟩ := blockTable_of_repeat_cases hnodup
    rw [hwritten (h.indices e (by simp [hentries]))]
    exact nofun

theorem Writable.graph_ne_crash (h : u.Writable) (c : Crash) : u.graph ≠ .error (.crash c) := by
  intro hgraph
  rcases graph_eq_error_iff.mp hgraph with htable | ⟨blocks, htable, hblocks⟩
  · exact h.blockTable_ne_crash c htable
  · obtain ⟨i, s, ⟨before, block, after, earlier, later, hlist, -, hsuccs, -⟩, hlong, -⟩ :=
      LiveGraph.ofBlocks_eq_crash_iff.mp hblocks
    have hblock : block ∈ blocks := by simp [hlist]
    rw [(blockTable_eq_ok htable).2] at hblock
    obtain ⟨e, he, rfl⟩ := List.mem_map.mp hblock
    exact hlong (h.succs e (mem_sorted.mp he) s (by simp [hsuccs]))

theorem started_writable (hgraph : u.graph = .ok g) {limits : Limits} (hl : limits.Writable) :
    (Remark.started g.graph.n limits).Writable := by
  obtain ⟨blocks, -, hblocks⟩ := Except.bind_eq_ok_iff.mp hgraph
  have hn : g.graph.n = (LiveGraph.liveIds blocks).length :=
    Graph.n_addEdges (LiveGraph.ofBlocks_eq_ok hblocks).2
  exact ⟨fun hneg => absurd hneg (by omega), hl⟩

end FlowUnit

section Verbose

variable {m : Type → Type} [Monad m] (u : FlowUnit) {o : Options}

/-- Under limits that can be written it does not matter whether an analysis is verbose. -/
theorem attempt_verbose (now : m (Except Interruption Number)) (h : o.limits.Writable) (verbose : Bool) :
    attempt now u { o with verbose } = attempt now u o := by
  unfold attempt
  cases hgraph : u.graph with
  | error fault => rfl
  | ok g =>
    have hsaid := FlowUnit.started_writable hgraph h
    simp only [enumerate_verbose now hsaid none]
    rfl

theorem timedAttempt_verbose (clocks : Clocks m) (h : o.limits.Writable) (verbose : Bool) :
    timedAttempt clocks u { o with verbose } = timedAttempt clocks u o := by
  rw [timedAttempt, timedAttempt, attempt_verbose u clocks.seconds h]

end Verbose

/-- What an analysis comes upon. -/
inductive Examination
  | refused (fault : GraphFault)
  | halted (s : Searched) (halt : Halt)
  | complete (s : Searched)

namespace Examination

def ofOutcome (graph : LiveGraph) (found : Outcome) : Examination :=
  match found.halt? with
  | some halt => .halted { graph, progress := found.progress } halt
  | none => .complete { graph, progress := found.progress }

def attempt (u : FlowUnit) (o : Options) : Examination → Attempt
  | refused fault => .ofFault u o fault
  | halted s halt => .ofHalt u o s halt
  | complete s => .ofSearch u o s

/-- The studies that an analysis can report; after a crash there is none. -/
theorem result_cases {u : FlowUnit} {o : Options} {x : Examination} {study : Study}
    (h : (x.attempt u o).result = .ok study) :
    (∃ e, x = .refused (.invalid e) ∧ study = .ofGraphError u o e) ∨
    (∃ s reached, x = .halted s (.limit reached) ∧ study = .ofLimit u o s reached) ∨
    (∃ s, x = .complete s ∧
      study = .ofPrimes u o s (primePaths o.strategy s.progress.paths.toList)) := by
  cases x with
  | refused fault =>
    cases fault with
    | invalid e => exact Or.inl ⟨e, rfl, (Except.ok.inj h).symm⟩
    | crash c => cases h
  | halted s halt =>
    obtain ⟨reached, hraised, hstudy⟩ := Except.map_eq_ok_iff.mp h
    obtain ⟨rfl, -⟩ := Halt.raised_eq_ok_iff.mp hraised
    exact Or.inr (Or.inl ⟨s, reached, rfl, hstudy.symm⟩)
  | complete s => exact Or.inr (Or.inr ⟨s, rfl, (Except.ok.inj h).symm⟩)

end Examination

def Readings.began (t : Readings) : Readings :=
  { t with nanoseconds := t.nanoseconds + 1 }

def Readings.dated (t : Readings) : Readings :=
  { t with today := t.today + 1 }

namespace Recording

variable (r : Recording) (t : Readings) (u : FlowUnit) (o : Options)

theorem nanoseconds_run : r.clocks.nanoseconds.run t = (r.nanoseconds t.nanoseconds, t.began) :=
  rfl

theorem today_run : r.clocks.today.run t = (r.today t.today, t.dated) :=
  rfl

/-- What a search of a whole graph finds that may have to say its limits first. -/
def find (verbose : Bool) (limits : Limits) (g : Graph) : Outcome :=
  ((enumerate r.clocks.seconds verbose limits g none).run t).1.2

def examine : Examination :=
  match u.graph with
  | .error fault => .refused fault
  | .ok graph =>
    match o.nodesHalt? graph.graph.n with
    | some halt => .halted { graph, progress := {} } halt
    | none => .ofOutcome graph (r.find t o.verbose o.limits graph.graph)

def study : Except Interruption Study :=
  ((timedAttempt r.clocks u o).run t).1.result

/-- The clocks of a search always answer, that of nanoseconds with a number of at most 64 bits. -/
structure Steady : Prop where
  seconds : ∀ k, ∃ n, r.seconds k = .ok n
  nanoseconds : ∀ k, ∃ i : Int, r.nanoseconds k = .ok i ∧ i.natAbs < 2 ^ 63

theorem not_fails_of_steady {r : Recording} (hr : r.Steady) (i : Interruption) : ¬r.Fails i := by
  intro hfails
  obtain ⟨k, hk⟩ := hfails
  obtain ⟨n, hn⟩ := hr.seconds k
  rw [hk] at hn
  cases hn

theorem steady_counting {i : Int} (hi : i.natAbs < 2 ^ 63) : (counting i).Steady where
  seconds := fun k => ⟨.whole k, rfl⟩
  nanoseconds := fun _ => ⟨i, rfl, hi⟩

variable {r t} in
/-- A verbose search that cannot say its limits is cut short after its first reading. -/
theorem find_unsaid {limits : Limits} {g : Graph} {startedAt : Number}
    (hfirst : r.seconds t.seconds = .ok startedAt) (hunsaid : ¬(Remark.started g.n limits).Writable) :
    r.find t true limits g = .cut (.crash .unwritable) := by
  have hreading : r.clocks.seconds.run t = (.ok startedAt, { t with seconds := t.seconds + 1 }) := by
    rw [← hfirst]
    rfl
  rw [find, enumerate, StateT.run_bind, hreading]
  simp only [hunsaid, not_false_eq_true, and_self, if_true]
  rfl

variable {t} in
/-- Any other search finds what there is to find. -/
theorem find_cases (verbose : Bool) (limits : Limits) (g : Graph) :
    r.find t verbose limits g = r.search t limits g none ∨
      ¬(Remark.started g.n limits).Writable ∧
        r.find t verbose limits g = .cut (.crash .unwritable) := by
  by_cases hsaid : (Remark.started g.n limits).Writable
  · rw [find, enumerate_verbose _ hsaid]
    exact Or.inl rfl
  · cases verbose with
    | false => exact Or.inl rfl
    | true =>
      cases hfirst : r.seconds t.seconds with
      | ok startedAt => exact Or.inr ⟨hsaid, find_unsaid hfirst hsaid⟩
      | error i =>
        have hreading : r.clocks.seconds.run t = (.error i, { t with seconds := t.seconds + 1 }) := by
          rw [← hfirst]
          rfl
        rw [search_of_error hfirst, find, enumerate, StateT.run_bind, hreading]
        exact Or.inl rfl

theorem examine_congr {o₁ o₂ : Options} (hnodes : o₁.maxNodes = o₂.maxNodes)
    (hlimits : o₁.limits = o₂.limits)
    (hverbose : o₁.verbose = o₂.verbose ∨ o₁.limits.Writable) :
    r.examine t u o₁ = r.examine t u o₂ := by
  simp only [examine, Options.nodesHalt?, ← hnodes, ← hlimits]
  cases hgraph : u.graph with
  | error fault => rfl
  | ok graph =>
    have hfind : r.find t o₁.verbose o₁.limits graph.graph = r.find t o₂.verbose o₁.limits graph.graph := by
      rcases hverbose with hsame | hl
      · rw [hsame]
      · have hsaid := FlowUnit.started_writable hgraph hl
        rw [find, find, enumerate_verbose _ hsaid none o₁.verbose,
          enumerate_verbose _ hsaid none o₂.verbose]
    simp only [hfind]

/-- An analysis reports on its examination and leaves the nanosecond clock alone. -/
theorem attempt_run :
    ((attempt r.clocks.seconds u o).run t).1 = (r.examine t u o).attempt u o ∧
      ((attempt r.clocks.seconds u o).run t).2.nanoseconds = t.nanoseconds := by
  unfold attempt examine
  cases u.graph with
  | error e => exact ⟨rfl, rfl⟩
  | ok graph =>
    dsimp only
    cases o.nodesHalt? graph.graph.n with
    | some halt => exact ⟨rfl, rfl⟩
    | none =>
      have hclock := (r.readings_enumerate t o.verbose o.limits graph.graph).1
      simp only [find, Examination.ofOutcome, StateT.run_bind]
      generalize (enumerate r.clocks.seconds o.verbose o.limits graph.graph none).run t = found at hclock
      obtain ⟨⟨b, ⟨halt?, progress⟩⟩, t'⟩ := found
      cases halt? <;> exact ⟨rfl, hclock⟩

theorem timedAttempt_run :
    (timedAttempt r.clocks u o).run t =
      match r.nanoseconds t.nanoseconds with
      | .error i => ({ trace := [], result := .error i }, t.began)
      | .ok began =>
        let (a, t) := (attempt r.clocks.seconds u o).run t.began
        match a.result with
        | .error _ => (a, t)
        | .ok _ => (a.timed began (r.nanoseconds t.nanoseconds), t.began) := by
  unfold timedAttempt
  rw [StateT.run_bind, nanoseconds_run]
  cases r.nanoseconds t.nanoseconds with
  | error i => rfl
  | ok began =>
    change (attempt r.clocks.seconds u o >>= _).run t.began = _
    rw [StateT.run_bind]
    generalize (attempt r.clocks.seconds u o).run t.began = attempted
    obtain ⟨⟨trace, result⟩, t'⟩ := attempted
    cases result <;> rfl

/-- The time between two readings of the nanosecond clock. -/
def span : Except Interruption Elapsed := do
  let began ← r.nanoseconds t.nanoseconds
  let ended ← r.nanoseconds (t.nanoseconds + 1)
  (Elapsed.ofNanoseconds (ended - began)).mapError .crash

/-- An analysis is an examination and its report between two readings of the nanosecond clock. -/
theorem study_eq :
    r.study t u o = (do
      let began ← r.nanoseconds t.nanoseconds
      let s ← ((r.examine t.began u o).attempt u o).result
      let ended ← r.nanoseconds (t.nanoseconds + 1)
      let span ← (Elapsed.ofNanoseconds (ended - began)).mapError .crash
      return s.withElapsed span) := by
  obtain ⟨hattempt, hclock⟩ := r.attempt_run t.began u o
  rw [study, timedAttempt_run, ← hattempt]
  cases r.nanoseconds t.nanoseconds with
  | error i => rfl
  | ok began =>
    generalize (attempt r.clocks.seconds u o).run t.began = attempted at hclock
    obtain ⟨⟨trace, result⟩, t'⟩ := attempted
    cases result with
    | error i => rfl
    | ok s =>
      -- The search takes no reading of this clock, so the second one is the next.
      change (do
        let span ← (Elapsed.ofNanoseconds ((← r.nanoseconds t'.nanoseconds) - began)).mapError .crash
        return s.withElapsed span) = _
      rw [hclock]
      rfl

inductive Examined : Examination → Prop
  | refused {fault} (hgraph : u.graph = .error fault) : Examined (.refused fault)
  | crowded {g halt} (hgraph : u.graph = .ok g) (hnodes : o.nodesHalt? g.graph.n = some halt) :
    Examined (.halted { graph := g, progress := {} } halt)
  | unsaid {g} (hgraph : u.graph = .ok g) (hnodes : o.nodesHalt? g.graph.n = none)
    (hunsaid : ¬(Remark.started g.graph.n o.limits).Writable) :
    Examined (.halted { graph := g, progress := {} } (.cut (.crash .unwritable)))
  | stopped {g halt} (hgraph : u.graph = .ok g) (hnodes : o.nodesHalt? g.graph.n = none)
    (hsearch : (r.search t o.limits g.graph none).halt? = some halt) :
    Examined (.halted { graph := g, progress := (r.search t o.limits g.graph none).progress } halt)
  | complete {g} (hgraph : u.graph = .ok g) (hnodes : o.nodesHalt? g.graph.n = none)
    (hsearch : (r.search t o.limits g.graph none).halt? = none) :
    Examined (.complete { graph := g, progress := (r.search t o.limits g.graph none).progress })

theorem examined_examine : r.Examined t u o (r.examine t u o) := by
  unfold examine
  cases hgraph : u.graph with
  | error fault => exact .refused hgraph
  | ok g =>
    dsimp only
    cases hnodes : o.nodesHalt? g.graph.n with
    | some halt => exact .crowded hgraph hnodes
    | none =>
      rcases r.find_cases o.verbose o.limits g.graph with hfound | ⟨hunsaid, hfound⟩
      · rw [hfound, Examination.ofOutcome]
        cases hsearch : (r.search t o.limits g.graph none).halt? with
        | some halt => exact .stopped hgraph hnodes hsearch
        | none => exact .complete hgraph hnodes hsearch
      · rw [hfound]
        exact .unsaid hgraph hnodes hunsaid

variable {r t u o}

/-- Numbers that can be written halt an examination at a limit only, so there is something to report. -/
theorem Examined.exists_result {x : Examination} (hx : r.Examined t u o x) (ho : o.Numeric)
    (hwritten : o.Writable) (hu : u.Writable) (hr : r.Steady) : ∃ s, (x.attempt u o).result = .ok s := by
  have hreport (s : Searched) {reached : LimitReached} (hlimit : reached.limit.Writable) :
      ∃ study, ((Examination.halted s (.limit reached)).attempt u o).result = .ok study :=
    ⟨_, Except.map_eq_ok_iff.mpr ⟨reached, Halt.raised_eq_ok_iff.mpr ⟨rfl, hlimit⟩, rfl⟩⟩
  cases hx with
  | @refused fault hgraph =>
    cases fault with
    | invalid e => exact ⟨_, rfl⟩
    | crash c => exact absurd hgraph (hu.graph_ne_crash c)
  | crowded _ hnodes =>
    obtain ⟨reached, rfl⟩ := Bound.isLimit_of_halt? ho.nodes hnodes
    obtain ⟨limit, hmax, rfl⟩ := Bound.eq_number_of_halt? hnodes
    exact hreport _ (hwritten.nodes _ hmax)
  | unsaid hgraph _ hunsaid => exact absurd (FlowUnit.started_writable hgraph hwritten.limits) hunsaid
  | stopped _ _ hsearch =>
    rcases isDue_of_search_nodes ho.limits hsearch with ⟨reached, rfl⟩ | ⟨i, hfails, -⟩
    · exact hreport _ (Halt.raised_eq_ok_iff.mp (raised_of_search_nodes hwritten.limits hsearch)).2
    · exact absurd hfails (not_fails_of_steady hr i)
  | complete => exact ⟨_, rfl⟩

theorem study_eq_ok_iff {s : Study} :
    r.study t u o = .ok s ↔ ∃ reported span,
      ((r.examine t.began u o).attempt u o).result = .ok reported ∧ r.span t = .ok span ∧
        s = reported.withElapsed span := by
  simp only [study_eq, span, Except.bind_eq_ok_iff, Except.pure_eq_ok_iff]
  constructor
  · rintro ⟨began, hbegan, reported, hreported, ended, hended, span, hspan, rfl⟩
    exact ⟨reported, span, hreported, ⟨began, hbegan, ended, hended, hspan⟩, rfl⟩
  · rintro ⟨reported, span, hreported, ⟨began, hbegan, ended, hended, hspan⟩, rfl⟩
    exact ⟨began, hbegan, reported, hreported, ended, hended, span, hspan, rfl⟩

theorem exists_span (hr : r.Steady) (t : Readings) : ∃ span, r.span t = .ok span := by
  obtain ⟨began, hbegan, hfirst⟩ := hr.nanoseconds t.nanoseconds
  obtain ⟨ended, hended, hsecond⟩ := hr.nanoseconds (t.nanoseconds + 1)
  obtain ⟨span, hspan⟩ : ∃ span, Elapsed.ofNanoseconds (ended - began) = .ok span := by
    apply Elapsed.exists_ofNanoseconds
    by_cases hzero : (ended - began).natAbs = 0
    · rw [hzero]
      decide
    · rw [Nat.log2_lt hzero]
      omega
  refine ⟨span, ?_⟩
  rw [Recording.span, hbegan, hended]
  exact congrArg (Except.mapError Interruption.crash) hspan

theorem exists_study (ho : o.Numeric) (hwritten : o.Writable) (hu : u.Writable) (hr : r.Steady) :
    ∃ s, r.study t u o = .ok s := by
  obtain ⟨reported, hreported⟩ := (r.examined_examine t.began u o).exists_result ho hwritten hu hr
  obtain ⟨span, hspan⟩ := exists_span hr t
  exact ⟨_, study_eq_ok_iff.mpr ⟨reported, span, hreported, hspan, rfl⟩⟩

end Recording

end PrimePaths
