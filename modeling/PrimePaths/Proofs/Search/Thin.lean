import PrimePaths.Graph.Basic
import PrimePaths.Proofs.Path.Distinct
import PrimePaths.Proofs.Path.Parts
import PrimePaths.Proofs.Path.Shape
import PrimePaths.Proofs.Search.Course
import PrimePaths.Proofs.Search.Unlimited
import Mathlib.Data.List.Basic

namespace PrimePaths.Graph

/-- The graph in which each node keeps a part of its successors. -/
def thin (g : Graph) (part : Int → List Int → List Int) (hpart : ∀ u us, part u us ⊆ us) : Graph where
  n := g.n
  succs := g.succs.mapIdx fun u us => part u us
  size_succs := by simpa using g.size_succs
  inRange := by
    intro us hus v hv
    obtain ⟨u, hu, rfl⟩ := Array.mem_mapIdx.mp hus
    have hmem : g.succs[u] ∈ g.succs := Array.getElem_mem hu
    exact g.inRange _ hmem v (hpart u _ hv)

/-- Each successor is listed once, where it occurs first. -/
def distinctSuccs (g : Graph) : Graph :=
  g.thin (fun _ us => us.eraseDups) fun _ _ _ hv => List.mem_eraseDups.mp hv

/-- No edge leads from a node to itself; the others stay. -/
def withoutLoops (g : Graph) : Graph :=
  g.thin (fun u us => us.filter fun v => decide (v ≠ u)) fun _ _ => List.filter_subset_self _

variable {g : Graph} {u : Int}

theorem nodes_thin (g : Graph) (part : Int → List Int → List Int)
    (hpart : ∀ u us, part u us ⊆ us) : (g.thin part hpart).nodes = g.nodes := rfl

theorem succsOf_thin (part : Int → List Int → List Int) (hpart : ∀ u us, part u us ⊆ us)
    (hu : u ∈ g.nodes) : (g.thin part hpart).succsOf u = part u (g.succsOf u) := by
  obtain ⟨hlo, hhi⟩ := mem_nodes.mp hu
  have hsize : u.toNat < g.succs.size := by
    rw [g.size_succs]
    omega
  have hat : ((u.toNat : Nat) : Int) = u := Int.toNat_of_nonneg hlo
  simp [succsOf, succsOf?, thin, hlo, hsize, hat]

@[simp] theorem nodes_distinctSuccs (g : Graph) : g.distinctSuccs.nodes = g.nodes :=
  nodes_thin g _ _

theorem succsOf_distinctSuccs (hu : u ∈ g.nodes) :
    g.distinctSuccs.succsOf u = (g.succsOf u).eraseDups :=
  succsOf_thin _ _ hu

@[simp] theorem nodes_withoutLoops (g : Graph) : g.withoutLoops.nodes = g.nodes :=
  nodes_thin g _ _

theorem succsOf_withoutLoops (hu : u ∈ g.nodes) :
    g.withoutLoops.succsOf u = (g.succsOf u).filter fun v => decide (v ≠ u) :=
  succsOf_thin _ _ hu

end PrimePaths.Graph

namespace PrimePaths

namespace Graph

variable {g : Graph} {start v : Int} {path : Path}

/-- On from a node, the first occurrences are what is recorded where each successor is listed once. -/
theorem eraseDups_pathsAt (hv : v ∈ g.nodes) :
    (g.pathsAt start path v).eraseDups = g.distinctSuccs.pathsAt start path v := by
  induction path, v, hv using visit_induction with
  | step path v hv ih =>
  unfold pathsAt
  split
  · rfl
  split
  · rfl
  rename_i hnew
  have hothers : ∀ q ∈ g.pathsBeyond start (path ++ [v]) v, (!q == path ++ [v]) = true := by
    intro q hq
    simpa using ne_of_mem_of_not_mem hq (not_mem_pathsBeyond _ _)
  have hapart : ∀ w ∈ g.succsOf v, ∀ x ∈ g.succsOf v, x ≠ w →
      (g.pathsAt start (path ++ [v]) x).Disjoint (g.pathsAt start (path ++ [v]) w) :=
    fun w hw x hx hne => disjoint_pathsAt (mem_nodes_of_mem_succsOf hx) (mem_nodes_of_mem_succsOf hw) hne
  rw [List.eraseDups_cons, List.filter_eq_self.mpr hothers, pathsBeyond_eq, pathsBeyond_eq,
    succsOf_distinctSuccs hv, eraseDups_flatMap hapart]
  congr 1
  apply List.flatMap_congr
  intro w hw
  exact ih hnew w (List.mem_eraseDups.mp hw)

theorem eraseDups_paths (g : Graph) : g.paths.eraseDups = g.distinctSuccs.paths := by
  have hapart : ∀ s ∈ g.nodes, ∀ t ∈ g.nodes, t ≠ s →
      (g.pathsAt t [] t).Disjoint (g.pathsAt s [] s) :=
    fun s hs t ht hne => disjoint_pathsAt ht hs hne
  rw [paths_eq_pathsAt, paths_eq_pathsAt, eraseDups_flatMap hapart, eraseDups_of_nodup g.nodup_nodes,
    nodes_distinctSuccs]
  apply List.flatMap_congr
  intro s hs
  exact eraseDups_pathsAt hs

end Graph

/-- It is all the same whether repetitions are dropped before or after the filter. -/
theorem distinctPaths_primePaths (s : Strategy) (paths : List Path) :
    distinctPaths (primePaths s paths) = primePaths s (distinctPaths paths) := by
  have hkeeps (p : Path) : Keeps s (distinctPaths paths) p ↔ Keeps s paths p := by
    apply keeps_congr
    simp only [Path.Dominated, mem_distinctPaths]
  rw [primePaths_eq_filter, primePaths_eq_filter]
  simp only [hkeeps]
  rw [distinctPaths_eq_eraseDups, distinctPaths_eq_eraseDups, eraseDups_filter]

/-- Without their repetitions, the paths of a search without limits are those of the graph that lists each
successor once, in the same order, and so are the prime ones; of any paths, the prime ones without their
repetitions are those that are prime among the paths without theirs. -/
theorem distinctPaths_enumerate (g : Graph) :
    ∃ done once, g.FullSearch done ∧ g.distinctSuccs.FullSearch once ∧
      distinctPaths done.paths.toList = once.paths.toList ∧
      (∀ s : Strategy,
        distinctPaths (primePaths s done.paths.toList) = primePaths s once.paths.toList) ∧
      ∀ (s : Strategy) (paths : List Path),
        distinctPaths (primePaths s paths) = primePaths s (distinctPaths paths) := by
  have hpaths : distinctPaths (g.survey g.nodes).paths.toList =
      (g.distinctSuccs.survey g.distinctSuccs.nodes).paths.toList := by
    rw [g.paths_survey_nodes, g.distinctSuccs.paths_survey_nodes, distinctPaths_eq_eraseDups,
      g.eraseDups_paths]
  refine ⟨_, _, g.fullSearch_survey, g.distinctSuccs.fullSearch_survey, hpaths, ?_, ?_⟩
  · intro s
    rw [distinctPaths_primePaths, hpaths]
  · exact distinctPaths_primePaths

end PrimePaths

namespace PrimePaths

namespace Finding

/-- The findings but for the successors that are skipped. -/
def moves (fs : List Finding) : List Finding :=
  fs.filter fun f => decide (f ≠ .skip)

@[simp] theorem moves_skip : moves [.skip] = [] := rfl

theorem moves_cons {f : Finding} (h : f ≠ .skip) (fs : List Finding) : moves (f :: fs) = f :: moves fs := by
  simp [moves, h]

theorem moves_append (fs fs' : List Finding) : moves (fs ++ fs') = moves fs ++ moves fs' :=
  List.filter_append fs fs'

theorem moves_flatMap (l : List Int) (f : Int → List Finding) :
    moves (l.flatMap f) = l.flatMap fun v => moves (f v) :=
  List.filter_flatMap

end Finding

open Finding

/-- A search does nothing where it skips a successor. -/
theorem Budget.forM_moves {m : Type → Type} [Monad m] [LawfulMonad m] (b : Budget m)
    (fs : List Finding) : forM (moves fs) b.act = forM fs b.act := by
  induction fs with
  | nil => rfl
  | cons f fs ih =>
    rw [List.forM_cons, ← ih]
    by_cases hskip : f = .skip
    · subst hskip
      have hnothing : b.act .skip = pure () := rfl
      rw [hnothing, pure_bind]
      rfl
    · rw [moves_cons hskip, List.forM_cons]

/-- Elements that yield nothing may be left out. -/
private theorem flatMap_filter_of_nil {p : Int → Bool} {f f' : Int → List Finding} {l : List Int}
    (hkept : ∀ v ∈ l, p v = true → f v = f' v) (hdropped : ∀ v ∈ l, p v = false → f' v = []) :
    (l.filter p).flatMap f = l.flatMap f' := by
  induction l with
  | nil => rfl
  | cons v l ih =>
    obtain ⟨hv, hl⟩ := List.forall_mem_cons.mp hkept
    obtain ⟨hv', hl'⟩ := List.forall_mem_cons.mp hdropped
    rw [List.flatMap_cons, ← ih hl hl']
    cases hp : p v with
    | true => rw [List.filter_cons_of_pos hp, List.flatMap_cons, hv hp]
    | false => rw [List.filter_cons_of_neg (by simp [hp]), hv' hp, List.nil_append]

namespace Graph

variable {g : Graph} {start v : Int} {path : Path}

/-- The last node of a path neither closes it nor prolongs it. -/
theorem moves_branch_last (h : (path ++ [v]).Nodup) (hstart : start ∈ (path ++ [v]).head?) :
    moves (g.branch start (path ++ [v]) v) = [] := by
  have hon : v ∈ path ++ [v] := List.mem_append_right path List.mem_cons_self
  have hopen : ¬(v = start ∧ 1 < (path ++ [v]).length) := by
    intro hclose
    obtain ⟨rfl, hlen⟩ := hclose
    cases path with
    | nil => simp at hlen
    | cons s path =>
      obtain rfl : s = v := by simpa using hstart
      exact (Path.nodup_append_singleton.mp h).2 List.mem_cons_self
  rw [branch, if_neg hopen, if_pos hon, moves_skip]

/-- At every depth the search moves as it does without the edges from a node to itself. -/
theorem moves_branch_withoutLoops (hv : v ∈ g.nodes) (h : path.Nodup)
    (hstart : start ∈ (path ++ [v]).head?) :
    moves (g.withoutLoops.branch start path v) = moves (g.branch start path v) := by
  induction path, v, hv using visit_induction with
  | step path v hv ih =>
  unfold branch
  split
  · rfl
  split
  · rfl
  rename_i hnew
  have hlonger : (path ++ [v]).Nodup := Path.nodup_append_singleton.mpr ⟨h, hnew⟩
  have hbeyond : moves (g.withoutLoops.beyond start (path ++ [v]) v) =
      moves (g.beyond start (path ++ [v]) v) := by
    rw [beyond_eq, beyond_eq, succsOf_withoutLoops hv, moves_flatMap, moves_flatMap]
    apply flatMap_filter_of_nil
    · intro w hw _
      have hhead : start ∈ (path ++ [v] ++ [w]).head? := List.mem_head?_append_of_mem_head? hstart
      exact ih hnew w hw hlonger hhead
    · intro w _ hsame
      obtain rfl : w = v := by simpa using hsame
      exact moves_branch_last hlonger hstart
  rw [moves_cons (by simp), moves_cons (by simp), moves_append, moves_append, hbeyond]

theorem moves_tree_withoutLoops (hs : start ∈ g.nodes) :
    moves (g.withoutLoops.tree start) = moves (g.tree start) := by
  rw [tree_eq_branch, tree_eq_branch]
  exact moves_branch_withoutLoops hs List.nodup_nil rfl

end Graph

variable {m : Type → Type} [Monad m] [LawfulMonad m]

theorem Budget.enumerate_withoutLoops (b : Budget m) {g : Graph} {starts : List Int}
    (h : ∀ s ∈ starts, s ∈ g.nodes) : b.enumerate g.withoutLoops starts = b.enumerate g starts := by
  have hmoves : moves (starts.flatMap g.withoutLoops.tree) = moves (starts.flatMap g.tree) := by
    rw [moves_flatMap, moves_flatMap]
    apply List.flatMap_congr
    intro s hs
    exact Graph.moves_tree_withoutLoops (h s hs)
  have hwalks : forM starts (b.walkFrom g.withoutLoops) = forM starts (b.walkFrom g) :=
    calc forM starts (b.walkFrom g.withoutLoops)
        = forM (starts.flatMap g.withoutLoops.tree) b.act := b.forM_walkFrom h
      _ = forM (moves (starts.flatMap g.withoutLoops.tree)) b.act := (b.forM_moves _).symm
      _ = forM (moves (starts.flatMap g.tree)) b.act := by rw [hmoves]
      _ = forM (starts.flatMap g.tree) b.act := b.forM_moves _
      _ = forM starts (b.walkFrom g) := (b.forM_walkFrom h).symm
  rw [enumerate, enumerate, List.forM_eq_forM, hwalks]
  rfl

/-- From any nodes, under any limits and on any clock, a search is the search in the graph without the edges
from a node to itself. Under numbers it ends by itself, at a limit or because its clock fails, and a limit
that can be written is what the caller hears of. -/
theorem enumerate_eq_withoutLoops (now : m (Except Interruption Number)) (verbose : Bool)
    (limits : Limits) (g : Graph) (starts? : Option (List Int))
    (h : ∀ s ∈ starts?.getD g.nodes, s ∈ g.nodes) :
    enumerate now verbose limits g starts? = enumerate now verbose limits g.withoutLoops starts? ∧
      (limits.Numeric → ∀ (r : Recording) (t : Readings) (e : Halt),
        (r.search t limits g starts?).halt? = some e → e.IsDue r.Fails) ∧
      (limits.Writable → ∀ (r : Recording) (t : Readings) (reached : LimitReached),
        (r.search t limits g starts?).halt? = some (.limit reached) →
          (Halt.limit reached).raised = .ok reached) := by
  refine ⟨?_, fun hl r t e hhalt => ?_, fun hl r t reached hhalt => ?_⟩
  · simp only [enumerate, Graph.nodes_withoutLoops, Budget.enumerate_withoutLoops _ h]
    rfl
  · exact Recording.isDue_of_search hl h hhalt
  · exact Recording.raised_of_search hl h hhalt

/-- A cycle of two nodes that both lead to themselves, too, searched with three calls. -/
theorem enumerate_eq_withoutLoops_cycle :
    ∃ g, (Graph.empty 2).addEdges [(0, 0), (0, 1), (1, 0), (1, 1), (1, 1)] = .ok g ∧
      g.withoutLoops.edges = [(0, 1), (1, 0)] ∧
      (∀ s ∈ (some [1, 0, 1]).getD g.nodes, s ∈ g.nodes) ∧
      Limits.Numeric { maxCalls := some (.number (.whole 3)) } ∧
      Limits.Writable { maxCalls := some (.number (.whole 3)) } ∧
      enumerate (Recording.counting 0).clocks.seconds true { maxCalls := some (.number (.whole 3)) } g
          (some [1, 0, 1]) =
        enumerate (Recording.counting 0).clocks.seconds true { maxCalls := some (.number (.whole 3)) }
          g.withoutLoops (some [1, 0, 1]) := by
  refine ⟨_, rfl, ?_, ?_, ?_, ?_, ?_⟩
  · decide
  · decide
  · exact ⟨by decide, by decide, by decide⟩
  · decide +kernel
  · exact (enumerate_eq_withoutLoops _ _ _ _ (some [1, 0, 1]) (by decide)).1

end PrimePaths
