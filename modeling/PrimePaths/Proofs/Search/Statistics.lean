import PrimePaths.Proofs.Search.Cut
import PrimePaths.Proofs.Search.Multiplicity

namespace PrimePaths

open PrimePaths.Path

/-- The paths without a repeated node. -/
def simplePaths (paths : List Path) : List Path :=
  paths.filter fun p => decide p.Nodup

/-- The length of the longest path, zero if there is none. -/
def depthOf (paths : List Path) : Nat :=
  (paths.map List.length).foldr max 0

section Paths

variable {ps qs : List Path} {p : Path} {k : Nat}

theorem simplePaths_append : simplePaths (ps ++ qs) = simplePaths ps ++ simplePaths qs :=
  List.filter_append ps qs

theorem mem_simplePaths : p ∈ simplePaths ps ↔ p ∈ ps ∧ p.Nodup := by
  rw [simplePaths, List.mem_filter, decide_eq_true_iff]

theorem depthOf_append : depthOf (ps ++ qs) = max (depthOf ps) (depthOf qs) := by
  induction ps with
  | nil => exact (Nat.zero_max _).symm
  | cons p ps ih =>
    change max p.length (depthOf (ps ++ qs)) = max (max p.length (depthOf ps)) (depthOf qs)
    rw [ih, Nat.max_assoc]

theorem depthOf_le_iff : depthOf ps ≤ k ↔ ∀ p ∈ ps, p.length ≤ k := by
  induction ps with
  | nil => exact iff_of_true (Nat.zero_le k) nofun
  | cons p ps ih =>
    rw [List.forall_mem_cons, ← ih]
    exact Nat.max_le

end Paths

/-- The path that a finding prolongs. -/
def Finding.entered? : Finding → Option Path
  | .enter path => some path
  | .close _ | .skip | .back => none

theorem Finding.simplePaths_path? {f : Finding} (hf : f.Shaped) :
    simplePaths f.path?.toList = f.entered?.toList := by
  cases f with
  | close path =>
    have hrepeats : ¬path.Nodup := hf.not_nodup
    simp [path?, entered?, simplePaths, hrepeats]
  | enter path =>
    have hsimple : path.Nodup := hf.2
    simp [path?, entered?, simplePaths, hsimple]
  | skip => rfl
  | back => rfl

namespace Progress

/-- The counters are those of the recorded paths without a repeated node. -/
structure Exact (p : Progress) : Prop where
  calls : p.calls = (simplePaths p.paths.toList).length
  maxDepth : p.maxDepth = depthOf (simplePaths p.paths.toList)

variable {p : Progress} {f : Finding} {fs : List Finding}

theorem Exact.after (h : p.Exact) (hf : f.Shaped) : (p.after f).Exact := by
  have hpaths : simplePaths (p.after f).paths.toList =
      simplePaths p.paths.toList ++ f.entered?.toList := by
    rw [paths_after, simplePaths_append, f.simplePaths_path? hf]
  constructor
  · rw [hpaths, List.length_append, ← h.calls]
    cases f <;> rfl
  · rw [hpaths, depthOf_append, ← h.maxDepth]
    cases f with
    | enter path => exact congrArg (max p.maxDepth) (Nat.max_zero _).symm
    | close | skip | back => exact (Nat.max_zero _).symm

theorem exact_foldl_after (h : p.Exact) (hfs : ∀ f ∈ fs, f.Shaped) : (fs.foldl Progress.after p).Exact := by
  induction fs generalizing p with
  | nil => exact h
  | cons f fs ih =>
    have hnext := h.after (hfs f List.mem_cons_self)
    exact ih hnext fun f hf => hfs f (List.mem_cons_of_mem _ hf)

end Progress

section Stops

variable {l : Limits} {fails : Interruption → Prop} {p q : Progress} {path : Path} {e : Halt}

/-- The depth that a search has seen when it stops at a path that it enters. -/
def LimitReached.depth (depth length : Nat) : LimitReached → Nat
  | paths _ => max depth length
  | calls _ | seconds _ | nodes .. => depth

/-- The call of a path counts before any limit does, and its depth before the limit of paths. -/
theorem Stop.enter_eq {reached : LimitReached} (h : Stop l fails p (.enter path) (.limit reached) q) :
    q.paths = p.paths ∧ q.calls = p.calls + 1 ∧
      q.maxDepth = reached.depth p.maxDepth path.length := by
  cases h with
  | calls h =>
    obtain ⟨limit, -, rfl⟩ := Bound.eq_number_of_halt? h
    exact ⟨rfl, rfl, rfl⟩
  | seconds _ _ h =>
    obtain ⟨limit, -, rfl⟩ := Bound.eq_number_of_halt? h
    exact ⟨rfl, rfl, rfl⟩
  | paths _ h =>
    obtain ⟨limit, -, rfl⟩ := Bound.eq_number_of_halt? h
    exact ⟨rfl, rfl, rfl⟩

theorem Stop.close_eq (h : Stop l fails p (.close path) e q) : q = p := by
  cases h
  rfl

theorem Stop.maxDepth_le {f : Finding} (h : Stop l fails p f e q) :
    q.maxDepth ≤ max p.maxDepth (depthOf f.entered?.toList) := by
  cases h with
  | calls | seconds | clock | close => exact Nat.le_max_left _ _
  | paths => exact max_le_max_left _ (Nat.le_max_left _ _)

end Stops

section Bounds

variable {g : Graph} {path : Path} {ps : List Path}

theorem Graph.length_le_of_nodup (hnodup : path.Nodup) (hnodes : ∀ v ∈ path, v ∈ g.nodes) :
    path.length ≤ g.n.toNat := by
  have hle := hnodup.length_le_of_subset hnodes
  rwa [nodes, List.length_map, List.length_range] at hle

/-- A recorded path visits each node once, but for the start if it comes back to it. -/
theorem Graph.length_le_of_mem_paths (h : path ∈ g.paths) : path.length ≤ g.n.toNat + 1 := by
  obtain ⟨⟨hshape, hnodes⟩, -⟩ := (mem_paths_iff path).mp h
  have hinner : path.dropLast.length ≤ g.n.toNat :=
    length_le_of_nodup hshape.nodup_dropLast fun v hv => hnodes v (List.dropLast_subset path hv)
  rw [List.length_dropLast] at hinner
  omega

theorem Graph.depthOf_simplePaths_le (h : ∀ p ∈ ps, p ∈ g.paths) :
    depthOf (simplePaths ps) ≤ g.n.toNat := by
  rw [depthOf_le_iff]
  intro p hp
  obtain ⟨hmem, hnodup⟩ := mem_simplePaths.mp hp
  exact length_le_of_nodup hnodup ((mem_paths_iff p).mp (h p hmem)).1.2

end Bounds

namespace Recording

/-- A search of the whole graph that started at the given time comes to a finding, after it acted on those
before it, and halts there. -/
def HaltsFrom (r : Recording) (t : Readings) (limits : Limits) (g : Graph) (startedAt : Number) (f : Finding)
    (e : Halt) : Prop :=
  ∃ before rest p t' q t'', g.nodes.flatMap g.tree = before ++ f :: rest ∧
    (forM before (r.budget limits startedAt).act).replay { remarks := #[.started g.n limits] }
      { t with seconds := t.seconds + 1 } = ((.ok (), p), t') ∧
    ((r.budget limits startedAt).act f).replay p t' = ((.error e, q), t'')

/-- A search of the whole graph halts at a finding; the clock was read for its start. -/
def HaltsAt (r : Recording) (t : Readings) (limits : Limits) (g : Graph) (f : Finding) (e : Halt) : Prop :=
  ∃ startedAt, r.seconds t.seconds = .ok startedAt ∧ r.HaltsFrom t limits g startedAt f e

variable {r : Recording} {t : Readings} {limits : Limits} {g : Graph} {startedAt : Number} {f : Finding}
  {e : Halt}

theorem search_eq (limits : Limits) (g : Graph) (hfirst : r.seconds t.seconds = .ok startedAt) :
    r.search t limits g none =
      .ofReplay ((forM (g.nodes.flatMap g.tree) (r.budget limits startedAt).act).replay
        { remarks := #[.started g.n limits] } { t with seconds := t.seconds + 1 }).1 := by
  rw [search_of_ok hfirst]
  exact (r.budget limits startedAt).outcome_enumerate (fun _ hs => hs) _

/-- A search ends where it halts, with what its progress was there. -/
theorem HaltsAt.search_eq (h : r.HaltsAt t limits g f e) :
    ∃ fails before rest p, g.nodes.flatMap g.tree = before ++ f :: rest ∧
      Course limits fails { remarks := #[.started g.n limits] } before none p ∧
      ∃ q, Stop limits fails p f e q ∧ r.search t limits g none = { halt? := some e, progress := q } := by
  obtain ⟨startedAt, hfirst, before, rest, p, t', q, t'', htrees, hbefore, hf⟩ := h
  have hrun := Search.replay_forM_eq_error_iff.mpr ⟨before, f, rest, p, t', htrees, hbefore, hf⟩
  refine ⟨(r.budget limits startedAt).Fails, before, rest, p, htrees, ?_, q, ?_, ?_⟩
  · obtain ⟨halt?, q', t₂, hcourse, hreplay⟩ := (r.budget limits startedAt).course_forM before
      { remarks := #[.started g.n limits] } { t with seconds := t.seconds + 1 }
    rw [hbefore] at hreplay
    cases halt? with
    | none =>
      cases hreplay
      exact hcourse
    | some e' => cases hreplay
  · obtain ⟨t₂, ⟨-, hreplay⟩ | ⟨e', q', hstop, hreplay⟩⟩ :=
      (r.budget limits startedAt).act_cases f p t'
    · rw [hf] at hreplay
      cases hreplay
    · rw [hf] at hreplay
      cases hreplay
      exact hstop
  · rw [Recording.search_eq limits g hfirst, hrun]
    rfl

/-- A search halts exactly if its first reading fails or it comes to a finding where it does. -/
theorem halt?_eq_some_iff :
    (r.search t limits g none).halt? = some e ↔
      (∃ i, r.seconds t.seconds = .error i ∧ e = .cut i) ∨ ∃ f, r.HaltsAt t limits g f e := by
  constructor
  · intro h
    cases hfirst : r.seconds t.seconds with
    | error i =>
      rw [search_of_error hfirst] at h
      exact Or.inl ⟨i, rfl, (Option.some.inj h).symm⟩
    | ok startedAt =>
      rw [search_eq limits g hfirst] at h
      rcases hrun : (forM (g.nodes.flatMap g.tree) (r.budget limits startedAt).act).replay
        { remarks := #[.started g.n limits] } { t with seconds := t.seconds + 1 } with ⟨⟨e' | u, q⟩, t''⟩
      · rw [hrun] at h
        cases h
        obtain ⟨before, f, rest, p, t', htrees, hbefore, hf⟩ := Search.replay_forM_eq_error_iff.mp hrun
        exact Or.inr ⟨f, startedAt, hfirst, before, rest, p, t', q, t'', htrees, hbefore, hf⟩
      · rw [hrun] at h
        cases h
  · intro h
    rcases h with ⟨i, hfirst, rfl⟩ | ⟨f, hf⟩
    · rw [search_of_error hfirst]
      rfl
    · obtain ⟨-, -, -, -, -, -, q, -, hsearch⟩ := hf.search_eq
      rw [hsearch]

theorem mem_paths_of_search {path : Path}
    (h : path ∈ (r.search t limits g none).progress.paths.toList) : path ∈ g.paths := by
  cases hhalt : (r.search t limits g none).halt? with
  | none =>
    obtain ⟨hall, -⟩ := search_complete g hhalt
    rwa [hall] at h
  | some e =>
    cases hfirst : r.seconds t.seconds with
    | error i =>
      rw [search_of_error hfirst] at h
      cases h
    | ok startedAt =>
      obtain ⟨next, rest, hlist⟩ := search_prefix g hfirst hhalt
      rw [hlist]
      exact List.mem_append_left _ h

theorem exact_of_complete (h : (r.search t limits g none).halt? = none) :
    (r.search t limits g none).progress.Exact := by
  cases hfirst : r.seconds t.seconds with
  | error i =>
    rw [search_of_error hfirst]
    exact ⟨rfl, rfl⟩
  | ok startedAt =>
    obtain ⟨q, hcourse, remarks, hq⟩ := course_search_nodes limits g hfirst
    rw [h] at hcourse
    have hexact : q.Exact := by
      rw [hcourse.eq_foldl]
      exact Progress.exact_foldl_after ⟨rfl, rfl⟩ fun f hf => Graph.shaped_of_mem_trees hf
    rw [hq]
    exact ⟨hexact.calls, hexact.maxDepth⟩

theorem HaltsAt.exists_stop (h : r.HaltsAt t limits g f e) :
    ∃ fails p, p.Exact ∧ f ∈ g.nodes.flatMap g.tree ∧
      Stop limits fails p f e (r.search t limits g none).progress := by
  obtain ⟨fails, before, rest, p, htrees, hcourse, q, hstop, hsearch⟩ := h.search_eq
  have hmem : ∀ found ∈ before ++ f :: rest, found ∈ g.nodes.flatMap g.tree := by
    intro found hfound
    rwa [htrees]
  have hexact : p.Exact := by
    rw [hcourse.eq_foldl]
    refine Progress.exact_foldl_after ⟨rfl, rfl⟩ fun found hfound => ?_
    exact Graph.shaped_of_mem_trees (hmem found (List.mem_append_left _ hfound))
  refine ⟨fails, p, hexact, hmem f (by simp), ?_⟩
  rwa [hsearch]

/-- No node is deeper than there are nodes, wherever a search ends. -/
theorem maxDepth_le (r : Recording) (t : Readings) (limits : Limits) (g : Graph) :
    (r.search t limits g none).progress.maxDepth ≤ g.n.toNat := by
  cases hhalt : (r.search t limits g none).halt? with
  | none =>
    rw [(exact_of_complete hhalt).maxDepth]
    exact Graph.depthOf_simplePaths_le fun _ => mem_paths_of_search
  | some e =>
    rcases halt?_eq_some_iff.mp hhalt with ⟨i, hfirst, -⟩ | ⟨f, hf⟩
    · rw [search_of_error hfirst]
      exact Nat.zero_le _
    obtain ⟨_, p, hexact, hmem, hstop⟩ := hf.exists_stop
    have hbefore : p.maxDepth ≤ g.n.toNat := by
      rw [hexact.maxDepth, ← hstop.paths_eq]
      exact Graph.depthOf_simplePaths_le fun _ => mem_paths_of_search
    have hlast : depthOf f.entered?.toList ≤ g.n.toNat := by
      rw [← f.simplePaths_path? (Graph.shaped_of_mem_trees hmem)]
      apply Graph.depthOf_simplePaths_le
      intro path hpath
      exact List.mem_filterMap.mpr ⟨f, hmem, Option.mem_toList.mp hpath⟩
    exact hstop.maxDepth_le.trans (Nat.max_le.mpr ⟨hbefore, hlast⟩)

end Recording

/-- The counters of a search are exact wherever it ends. If it came to its end, or to a limit at a path that
closes, its calls are as many as the recorded paths without a repeated node, and its depth is the length of
the longest of these. If it came to a limit at a path that it entered, this path is one more call; the limit
of paths alone lets it count for the depth. No depth exceeds the number of nodes, and no recorded path
exceeds it by more than one. It halts nowhere else, unless the reading for its start fails, and the caller
hears of a limit that can be written. -/
theorem statistics_exact (r : Recording) (t : Readings) (limits : Limits) (g : Graph) :
    let found := r.search t limits g none
    let simple := simplePaths found.progress.paths.toList
    (found.halt? = none →
      found.progress.calls = simple.length ∧ found.progress.maxDepth = depthOf simple) ∧
    (∀ e, found.halt? = some e ↔
      (∃ i, r.seconds t.seconds = .error i ∧ e = .cut i) ∨
      (∃ path, r.HaltsAt t limits g (.close path) e) ∨ ∃ path, r.HaltsAt t limits g (.enter path) e) ∧
    (∀ path reached, r.HaltsAt t limits g (.close path) (.limit reached) →
      path.IsClosing ∧ found.progress.calls = simple.length ∧ found.progress.maxDepth = depthOf simple) ∧
    (∀ path reached, r.HaltsAt t limits g (.enter path) (.limit reached) →
      path.IsSimple ∧ found.progress.calls = simple.length + 1 ∧
        found.progress.maxDepth = reached.depth (depthOf simple) path.length) ∧
    ((found.progress.maxDepth : Int) ≤ max g.n 0 ∧
      ∀ path ∈ found.progress.paths.toList, (path.length : Int) ≤ max g.n 0 + 1) ∧
    (limits.Writable → ∀ reached, found.halt? = some (.limit reached) →
      (Halt.limit reached).raised = .ok reached) := by
  intro found simple
  refine ⟨?_, ?_, ?_, ?_, ⟨?_, ?_⟩, fun hl reached => Recording.raised_of_search_nodes hl⟩
  · intro hhalt
    have hexact := Recording.exact_of_complete hhalt
    exact ⟨hexact.calls, hexact.maxDepth⟩
  · intro e
    rw [Recording.halt?_eq_some_iff]
    refine or_congr_right ⟨?_, ?_⟩
    · rintro ⟨f, hf⟩
      obtain ⟨_, p, -, -, hstop⟩ := hf.exists_stop
      cases f with
      | close path => exact Or.inl ⟨path, hf⟩
      | enter path => exact Or.inr ⟨path, hf⟩
      | skip | back => cases hstop
    · rintro (⟨path, hf⟩ | ⟨path, hf⟩)
      · exact ⟨_, hf⟩
      · exact ⟨_, hf⟩
  · intro path reached hf
    obtain ⟨_, p, hexact, hmem, hstop⟩ := hf.exists_stop
    obtain rfl : found.progress = p := hstop.close_eq
    exact ⟨Graph.shaped_of_mem_trees hmem, hexact.calls, hexact.maxDepth⟩
  · intro path reached hf
    obtain ⟨_, p, hexact, hmem, hstop⟩ := hf.exists_stop
    obtain ⟨hpaths, hcalls, hdepth⟩ := hstop.enter_eq
    have hsimple : simple = simplePaths p.paths.toList := congrArg (simplePaths ·.toList) hpaths
    refine ⟨Graph.shaped_of_mem_trees hmem, ?_, ?_⟩
    · rw [hcalls, hexact.calls, hsimple]
    · rw [hdepth, hexact.maxDepth, hsimple]
  · have hdepth : found.progress.maxDepth ≤ g.n.toNat := r.maxDepth_le t limits g
    omega
  · intro path hpath
    have hlength := Graph.length_le_of_mem_paths (Recording.mem_paths_of_search hpath)
    omega

/-- On an edge from one node to another with room for one path, the search is stopped at the second one. -/
theorem statistics_exact_edge :
    ∃ g, (Graph.empty 2).addEdges [(0, 1)] = .ok g ∧
      (Recording.counting 0).HaltsAt {} (.ofCounts none (some 1)) g (.enter [0, 1])
        (.limit (.paths (.whole 1))) ∧
      (let found := (Recording.counting 0).search {} (.ofCounts none (some 1)) g none
      found.progress.paths = #[[0]] ∧ found.progress.calls = 2 ∧ found.progress.maxDepth = 2) ∧
      (Halt.limit (.paths (.whole 1))).raised = .ok (.paths (.whole 1)) := by
  refine ⟨_, rfl, ?_⟩
  generalize hg : Graph.mk _ _ _ _ = g
  have hnodes : g.nodes = [0, 1] := by
    rw [← hg]
    rfl
  have hzero : g.succsOf 0 = [1] := by
    rw [← hg]
    rfl
  have hone : g.succsOf 1 = [] := by
    rw [← hg]
    rfl
  have htrees : g.nodes.flatMap g.tree =
      [.enter [0]] ++ .enter [0, 1] :: [.back, .back, .enter [1], .back] := by
    simp [Graph.tree, Graph.beyond_eq, Graph.branch, hnodes, hzero, hone]
  have hhalts : (Recording.counting 0).HaltsAt {} (.ofCounts none (some 1)) g (.enter [0, 1])
      (.limit (.paths (.whole 1))) :=
    ⟨_, rfl, _, _, _, _, _, _, htrees, rfl, rfl⟩
  have hpaths : ((Recording.counting 0).search {} (.ofCounts none (some 1)) g none).progress.paths =
      #[[0]] := by
    rw [Recording.search_eq (.ofCounts none (some 1)) g rfl, htrees]
    rfl
  obtain ⟨-, hplaces, -, hentered, -, hraised⟩ :=
    statistics_exact (.counting 0) {} (.ofCounts none (some 1)) g
  obtain ⟨-, hcalls, hdepth⟩ := hentered _ _ hhalts
  rw [hpaths] at hcalls hdepth
  have hhalt := (hplaces _).mpr (Or.inr (Or.inr ⟨_, hhalts⟩))
  exact ⟨hhalts, ⟨hpaths, hcalls, hdepth⟩, hraised (by decide +kernel) _ hhalt⟩

end PrimePaths
