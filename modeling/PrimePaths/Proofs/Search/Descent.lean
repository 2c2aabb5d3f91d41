import PrimePaths.Search.Enumeration
import Mathlib.Data.List.Basic

namespace PrimePaths

namespace Graph

/-- The nodes that a path does not visit. -/
def unvisited (g : Graph) (path : Path) : List Int :=
  g.nodes.filter fun v => decide (v ∉ path)

theorem length_unvisited_lt {g : Graph} {path : Path} {v : Int} (hv : v ∈ g.nodes)
    (hnew : v ∉ path) : (g.unvisited (path ++ [v])).length < (g.unvisited path).length := by
  have hsub : g.unvisited (path ++ [v]) = (g.unvisited path).filter fun w => decide (w ≠ v) := by
    rw [unvisited, unvisited, List.filter_filter]
    apply List.filter_congr
    intro w _
    by_cases hw : w = v <;> simp [hw]
  have hv' : v ∈ g.unvisited path := List.mem_filter.mpr ⟨hv, by simpa using hnew⟩
  rw [hsub]
  exact List.length_filter_lt_length_iff_exists.mpr ⟨v, hv', by simp⟩

/-- Induction on the nodes that are left to visit: on from a node that is new to the path, each of its
successors comes next. -/
@[elab_as_elim]
theorem visit_induction {g : Graph} {motive : (path : Path) → (v : Int) → v ∈ g.nodes → Prop}
    (step : ∀ path v hv, (v ∉ path → ∀ w (hw : w ∈ g.succsOf v),
      motive (path ++ [v]) w (mem_nodes_of_mem_succsOf hw)) → motive path v hv)
    (path : Path) (v : Int) (hv : v ∈ g.nodes) : motive path v hv := by
  induction hn : (g.unvisited path).length using Nat.strongRecOn generalizing path v with
  | ind n ih =>
    apply step
    intro hnew w hw
    have hless := length_unvisited_lt hv hnew
    exact ih _ (hn ▸ hless) _ _ _ rfl

/-- What a depth-first search from `start` finds beyond a path whose last node is `u`: each successor closes
the path, lies on it or prolongs it. -/
def beyond (g : Graph) (start : Int) (path : Path) (u : Int) : List Finding :=
  (g.succsOf u).attach.flatMap fun v =>
    if v.1 = start ∧ 1 < path.length then [.close (path ++ [v.1])]
    else if hnew : v.1 ∈ path then [.skip]
    else .enter (path ++ [v.1]) :: (beyond g start (path ++ [v.1]) v.1 ++ [.back])
termination_by (g.unvisited path).length
decreasing_by exact length_unvisited_lt (mem_nodes_of_mem_succsOf v.2) hnew

def branch (g : Graph) (start : Int) (path : Path) (v : Int) : List Finding :=
  if v = start ∧ 1 < path.length then [.close (path ++ [v])]
  else if v ∈ path then [.skip]
  else .enter (path ++ [v]) :: (g.beyond start (path ++ [v]) v ++ [.back])

theorem beyond_eq (g : Graph) (start : Int) (path : Path) (u : Int) :
    g.beyond start path u = (g.succsOf u).flatMap (g.branch start path) := by
  conv_rhs => rw [← List.attach_map_subtype_val (g.succsOf u), List.flatMap_map]
  rw [beyond]
  simp only [branch, dite_eq_ite]

/-- What the search from one start finds, the start itself first. -/
def tree (g : Graph) (start : Int) : List Finding :=
  .enter [start] :: (g.beyond start [start] start ++ [.back])

/-- A start is to the empty path what a successor is to a longer one. -/
theorem tree_eq_branch (g : Graph) (start : Int) : g.tree start = g.branch start [] start := by
  simp [tree, branch]

end Graph

namespace Walk

variable {g : Graph} {start : Int}

/-- What the steps of a walk find until it leaves its start. -/
def findings (g : Graph) (start : Int) (w : Walk) (h : w.InBounds g start) : List Finding :=
  match hstep : w.next? g start with
  | none => []
  | some (f, w') => f :: findings g start w' (h.next hstep)
termination_by w.weight g
decreasing_by exact weight_next h hstep

theorem findings_of_next {w w' : Walk} {f : Finding} (h : w.InBounds g start)
    (hstep : w.next? g start = some (f, w')) :
    w.findings g start h = f :: w'.findings g start (h.next hstep) := by
  rw [findings]
  split
  · simp_all
  · rename_i f₂ w₂ hstep₂
    obtain ⟨rfl, rfl⟩ := Prod.mk.inj (Option.some.inj (hstep₂.symm.trans hstep))
    rfl

theorem findings_of_unread_nil {w : Walk} (h : w.InBounds g start) (hw : w.unread = []) :
    w.findings g start h = [] := by
  have hend : w.next? g start = none := by simp [next?, hw]
  rw [findings]
  split
  · rfl
  · simp_all

theorem findings_congr {w w' : Walk} (hw : w = w') (h : w.InBounds g start)
    (h' : w'.InBounds g start) : w.findings g start h = w'.findings g start h' := by
  subst hw
  rfl

/-- The walk after its last node was left. -/
def leave (w : Walk) : Walk where
  path := w.path.dropLast
  onPath := w.path.getLast?.elim w.onPath w.onPath.erase
  unread := w.unread.tail

section Moves

variable {path : Path} {onPath us vs : List Int} {rest : List (List Int)} {v : Int}

theorem next?_back :
    next? g start ⟨path, onPath, [] :: rest⟩ = some (.back, leave ⟨path, onPath, [] :: rest⟩) :=
  rfl

theorem next?_close (hclose : v = start ∧ 1 < path.length) :
    next? g start ⟨path, onPath, (v :: vs) :: rest⟩ =
      some (.close (path ++ [v]), ⟨path, onPath, vs :: rest⟩) := by
  simp [next?, hclose]

theorem next?_skip (hopen : ¬(v = start ∧ 1 < path.length)) (hold : v ∈ onPath) :
    next? g start ⟨path, onPath, (v :: vs) :: rest⟩ =
      some (.skip, ⟨path, onPath, vs :: rest⟩) := by
  simp [next?, hopen, hold]

theorem next?_enter (hopen : ¬(v = start ∧ 1 < path.length)) (hnew : v ∉ onPath) :
    next? g start ⟨path, onPath, (v :: vs) :: rest⟩ =
      some (.enter (path ++ [v]), ⟨path ++ [v], v :: onPath, g.succsOf v :: vs :: rest⟩) := by
  simp [next?, hopen, hnew]

theorem InBounds.read (h : InBounds g start ⟨path, onPath, (v :: vs) :: rest⟩) :
    InBounds g start ⟨path, onPath, vs :: rest⟩ where
  nodup := h.nodup
  nodes := h.nodes
  depth := by simpa using h.depth
  unread := by
    intro us hus u hu
    rcases List.mem_cons.mp hus with rfl | hus
    · exact h.unread _ List.mem_cons_self u (List.mem_cons_of_mem _ hu)
    · exact h.unread us (List.mem_cons_of_mem _ hus) u hu

theorem weight_read :
    weight g ⟨path, onPath, vs :: rest⟩ < weight g ⟨path, onPath, (v :: vs) :: rest⟩ := by
  have hpos := cost_pos g.edgeCount (room g - (rest.length + 1))
  simp only [weight, weightOf, List.length_cons, Nat.add_mul]
  omega

/-- Before a walk leaves its last node it searches the branches of the successors that are unread. -/
theorem findings_unread (hpath : ∀ v, v ∈ onPath ↔ v ∈ path)
    (h : InBounds g start ⟨path, onPath, us :: rest⟩)
    (hleave : (leave ⟨path, onPath, us :: rest⟩).InBounds g start) :
    findings g start ⟨path, onPath, us :: rest⟩ h =
      us.flatMap (g.branch start path) ++
        .back :: (leave ⟨path, onPath, us :: rest⟩).findings g start hleave := by
  -- The weight falls twice: on entering a successor, and again after it was left.
  induction hn : weight g ⟨path, onPath, us :: rest⟩ using Nat.strongRecOn
    generalizing path onPath us rest with
  | ind n ih =>
  cases us with
  | nil =>
    rw [findings_of_next h next?_back]
    rfl
  | cons v vs =>
    have hvs : findings g start ⟨path, onPath, vs :: rest⟩ h.read =
        vs.flatMap (g.branch start path) ++
          .back :: (leave ⟨path, onPath, (v :: vs) :: rest⟩).findings g start hleave :=
      ih _ (hn ▸ weight_read) hpath h.read hleave rfl
    rw [List.flatMap_cons, List.append_assoc, ← hvs, Graph.branch]
    by_cases hclose : v = start ∧ 1 < path.length
    · rw [findings_of_next h (next?_close hclose), if_pos hclose]
      rfl
    by_cases hold : v ∈ path
    · rw [findings_of_next h (next?_skip hclose ((hpath v).mpr hold)), if_neg hclose, if_pos hold]
      rfl
    · have hstep : next? g start ⟨path, onPath, (v :: vs) :: rest⟩ =
          some (.enter (path ++ [v]), ⟨path ++ [v], v :: onPath, g.succsOf v :: vs :: rest⟩) :=
        next?_enter hclose ((hpath v).not.mpr hold)
      have hdeep : ∀ u, u ∈ v :: onPath ↔ u ∈ path ++ [v] := by
        intro u
        rw [List.mem_cons, List.mem_append, List.mem_singleton, hpath u, or_comm]
      have hback : leave ⟨path ++ [v], v :: onPath, g.succsOf v :: vs :: rest⟩ =
          ⟨path, onPath, vs :: rest⟩ := by
        simp [leave]
      have hbelow := ih _ (hn ▸ weight_next h hstep) hdeep (h.next hstep) (hback ▸ h.read) rfl
      rw [findings_of_next h hstep, hbelow, findings_congr hback _ h.read, ← Graph.beyond_eq,
        if_neg hclose, if_neg hold]
      simp

end Moves

theorem findings_begin {us : List Int} (h : g.succsOf? start = some us) :
    .enter [start] :: (begin start us).findings g start (inBounds_begin h) = g.tree start := by
  have hus : g.succsOf start = us := by simp [Graph.succsOf, h]
  have hleave : (leave (begin start us)).InBounds g start := by
    refine ⟨?_, ?_, ?_, ?_⟩ <;> simp [leave, begin]
  have hbegin : (begin start us).findings g start (inBounds_begin h) =
      us.flatMap (g.branch start [start]) ++
        .back :: (leave (begin start us)).findings g start hleave :=
    findings_unread (fun _ => Iff.rfl) (inBounds_begin h) hleave
  rw [hbegin, findings_of_unread_nil hleave rfl, Graph.tree, Graph.beyond_eq, hus]

end Walk

/-- A walk under a budget acts on its findings one after the other. -/
theorem Budget.follow_eq_forM {m : Type → Type} [Monad m] (b : Budget m) {g : Graph} {start : Int}
    {w : Walk} (h : w.InBounds g start) :
    b.follow g start w h = forM (w.findings g start h) b.act := by
  induction hn : w.weight g using Nat.strongRecOn generalizing w with
  | ind n ih =>
  rw [Budget.follow]
  split
  · rename_i hstep
    rw [Walk.findings]
    split
    · rfl
    · simp_all
  · rename_i f w' hstep
    rw [Walk.findings_of_next h hstep, List.forM_cons]
    rw [ih (w'.weight g) (hn ▸ Walk.weight_next h hstep) (h.next hstep) rfl]

theorem Budget.walkFrom_of_succs {m : Type → Type} [Monad m] (b : Budget m) {g : Graph} {start : Int}
    {us : List Int} (hus : g.succsOf? start = some us) :
    b.walkFrom g start = (do
      b.expand [start]
      b.follow g start (.begin start us) (Walk.inBounds_begin hus)) := by
  rw [walkFrom]
  split
  · simp_all
  · rename_i us' hus'
    obtain rfl := Option.some.inj (hus'.symm.trans hus)
    rfl

theorem Budget.walkFrom_eq_forM {m : Type → Type} [Monad m] (b : Budget m) {g : Graph} {start : Int}
    (h : start ∈ g.nodes) : b.walkFrom g start = forM (g.tree start) b.act := by
  have hus := Graph.succsOf?_of_mem h
  rw [← Walk.findings_begin hus, List.forM_cons, ← b.follow_eq_forM, b.walkFrom_of_succs hus]
  rfl

end PrimePaths
