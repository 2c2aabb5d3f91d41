import PrimePaths.Proofs.Path.Shape
import PrimePaths.Proofs.Search.Unlimited
import Mathlib.Algebra.Notation.Defs
import Mathlib.Data.List.Chain

namespace PrimePaths

/-- The count in a `flatMap` comes from the elements `a` alone if no other one yields `x`. -/
private theorem count_flatMap_of_single {l : List Int} {f : Int → List Path} {a : Int} {x : Path}
    (h : ∀ b ∈ l, b ≠ a → x ∉ f b) : (l.flatMap f).count x = l.count a * (f a).count x := by
  induction l with
  | nil => simp
  | cons b l ih =>
    have hl := ih fun c hc => h c (List.mem_cons_of_mem b hc)
    rw [List.flatMap_cons, List.count_append, hl, List.count_cons]
    by_cases hb : b = a
    · subst hb
      simp [Nat.add_mul, Nat.add_comm]
    · simp [List.count_eq_zero_of_not_mem (h b List.mem_cons_self hb), hb]

namespace Graph

/-- In how many ways the edges lead along a path, as an edge may be listed several times. -/
def ways (g : Graph) : Path → Nat
  | u :: v :: p => (g.succsOf u).count v * g.ways (v :: p)
  | _ => 1

/-- The path has a shape that a search records, and its nodes are nodes of the graph. -/
def Admits (g : Graph) (p : Path) : Prop :=
  p.HasShape ∧ ∀ v ∈ p, v ∈ g.nodes

instance (g : Graph) (p : Path) : Decidable (g.Admits p) :=
  inferInstanceAs (Decidable (_ ∧ _))

/-- How often a search records a path. -/
def multiplicity (g : Graph) (p : Path) : Nat :=
  if g.Admits p then g.ways p else 0

variable {g : Graph} {start : Int}

theorem count_pathsBeyond_step (path r : Path) (u v : Int) :
    (g.pathsBeyond start path u).count (path ++ v :: r) =
      (g.succsOf u).count v * (g.pathsAt start path v).count (path ++ v :: r) := by
  rw [pathsBeyond_eq]
  apply count_flatMap_of_single
  intro w hw hother hmem
  obtain ⟨r', hr'⟩ := exists_append_of_mem_pathsAt (mem_nodes_of_mem_succsOf hw) hmem
  have hhead := List.append_cancel_left hr'
  exact hother (List.cons.inj hhead).1.symm

theorem count_pathsAt_self {t : Path} (h : (start :: t).Nodup) (v : Int) :
    (g.pathsAt start (start :: t) v).count (start :: t ++ [v]) =
      if Path.HasShape (start :: t ++ [v]) then 1 else 0 := by
  have hnone : (g.pathsBeyond start (start :: t ++ [v]) v).count (start :: t ++ [v]) = 0 :=
    List.count_eq_zero_of_not_mem (not_mem_pathsBeyond _ _)
  rw [pathsAt]
  simp only [Path.hasShape_append_singleton h]
  by_cases hclose : v = start ∧ 1 < (start :: t).length
  · simp only [hclose, and_self, or_true, if_true, List.count_singleton_self]
  · by_cases hold : v ∈ start :: t
    · simp only [hclose, hold, not_true, or_self, if_false, if_true, List.count_nil]
    · simp only [hclose, hold, not_false_eq_true, true_or, if_false, if_true,
        List.count_cons_self, hnone]

theorem count_pathsAt_cons (t r : Path) (v w : Int) :
    (g.pathsAt start (start :: t) v).count (start :: t ++ v :: w :: r) =
      if v ∈ start :: t then 0
      else (g.pathsBeyond start (start :: t ++ [v]) v).count (start :: t ++ [v] ++ w :: r) := by
  have hlong : start :: t ++ v :: w :: r = start :: t ++ [v] ++ w :: r := by simp
  have hne : start :: t ++ [v] ≠ start :: t ++ [v] ++ w :: r := by simp
  rw [hlong, pathsAt]
  by_cases hclose : v = start ∧ 1 < (start :: t).length
  · have hold : v ∈ start :: t := hclose.1 ▸ List.mem_cons_self
    rw [if_pos hclose, if_pos hold, List.count_singleton, beq_eq_false_iff_ne.mpr hne]
    rfl
  · rw [if_neg hclose]
    split
    · rfl
    · rw [List.count_cons_of_ne hne]

/-- Beyond a path without a repeated node, each shape is recorded as often as edges lead along it. -/
theorem count_pathsBeyond {t : Path} (h : (start :: t).Nodup) (u v : Int) (r : Path) :
    (g.pathsBeyond start (start :: t) u).count (start :: t ++ v :: r) =
      if Path.HasShape (start :: t ++ v :: r) then g.ways (u :: v :: r) else 0 := by
  -- The induction follows the nodes that are left; the path before them grows with each.
  induction r generalizing t u v with
  | nil =>
    rw [count_pathsBeyond_step, count_pathsAt_self h, mul_ite]
    rfl
  | cons w r ih =>
    rw [count_pathsBeyond_step, count_pathsAt_cons]
    by_cases hold : v ∈ start :: t
    · have hshape : ¬Path.HasShape (start :: t ++ v :: w :: r) :=
        fun hshape => hshape.not_mem_of_append hold
      rw [if_pos hold, if_neg hshape, Nat.mul_zero]
    · have hnodup : (start :: (t ++ [v])).Nodup := Path.nodup_append_singleton.mpr ⟨h, hold⟩
      have hbelow := ih hnodup v w
      rw [← List.cons_append, List.append_assoc (start :: t)] at hbelow
      rw [if_neg hold, List.append_assoc, hbelow, mul_ite]
      rfl

theorem mem_nodes_of_ways_ne_zero {u : Int} {p : Path} (h : g.ways (u :: p) ≠ 0) :
    ∀ v ∈ p, v ∈ g.nodes := by
  induction p generalizing u with
  | nil => simp
  | cons w p ih =>
    obtain ⟨hcount, hrest⟩ := Nat.mul_ne_zero_iff.mp h
    have hw : w ∈ g.succsOf u := List.count_pos_iff.mp (Nat.pos_of_ne_zero hcount)
    intro v hv
    rcases List.mem_cons.mp hv with rfl | hv
    · exact mem_nodes_of_mem_succsOf hw
    · exact ih hrest v hv

theorem multiplicity_cons (s : Int) (p : Path) :
    g.multiplicity (s :: p) =
      g.nodes.count s * if Path.HasShape (s :: p) then g.ways (s :: p) else 0 := by
  by_cases hs : s ∈ g.nodes
  · rw [List.count_eq_one_of_mem g.nodup_nodes hs, Nat.one_mul, multiplicity]
    by_cases hways : g.ways (s :: p) = 0
    · simp [hways]
    · have hnodes := mem_nodes_of_ways_ne_zero hways
      have hall : ∀ v ∈ s :: p, v ∈ g.nodes := List.forall_mem_cons.mpr ⟨hs, hnodes⟩
      exact if_congr (and_iff_left hall) rfl rfl
  · rw [List.count_eq_zero_of_not_mem hs, Nat.zero_mul, multiplicity, if_neg]
    exact fun h => hs (h.2 s List.mem_cons_self)

theorem multiplicity_nil (g : Graph) : g.multiplicity [] = 0 := by
  rw [multiplicity, if_neg]
  exact fun h => h.1.ne_nil rfl

theorem count_paths (g : Graph) (p : Path) : g.paths.count p = g.multiplicity p := by
  rw [paths_eq]
  cases p with
  | nil =>
    rw [multiplicity_nil]
    apply List.count_eq_zero_of_not_mem
    intro hmem
    obtain ⟨s, -, hs⟩ := List.mem_flatMap.mp hmem
    rcases List.mem_cons.mp hs with hs | hs
    · simp at hs
    · obtain ⟨v, r, hr⟩ := exists_append_of_mem_pathsBeyond hs
      simp at hr
  | cons s p =>
    have hstart : ∀ u ∈ g.nodes, u ≠ s → s :: p ∉ [u] :: g.pathsBeyond u [u] u := by
      intro u _ hu hmem
      rcases List.mem_cons.mp hmem with hmem | hmem
      · exact hu (List.cons.inj hmem).1.symm
      · obtain ⟨v, r, hr⟩ := exists_append_of_mem_pathsBeyond hmem
        exact hu (List.cons.inj hr).1.symm
    rw [count_flatMap_of_single hstart, multiplicity_cons]
    congr 1
    cases p with
    | nil =>
      rw [List.count_cons_self, List.count_eq_zero_of_not_mem (not_mem_pathsBeyond _ _),
        if_pos (Path.hasShape_singleton s)]
      rfl
    | cons v r =>
      rw [List.count_cons_of_ne (by simp)]
      exact count_pathsBeyond (List.nodup_singleton s) s v r

theorem ways_pos_iff (p : Path) : 0 < g.ways p ↔ p.IsChain fun u v => v ∈ g.succsOf u := by
  induction p with
  | nil => simp [ways]
  | cons u p ih =>
    cases p with
    | nil => simp [ways]
    | cons v p =>
      rw [List.isChain_cons_cons, ← ih, ← List.count_pos_iff, ways]
      exact ⟨fun h => ⟨Nat.pos_of_mul_pos_right h, Nat.pos_of_mul_pos_left h⟩,
        fun h => Nat.mul_pos h.1 h.2⟩

theorem mem_paths_iff (p : Path) :
    p ∈ g.paths ↔ g.Admits p ∧ p.IsChain fun u v => v ∈ g.succsOf u := by
  rw [← List.count_pos_iff, count_paths, multiplicity, ← ways_pos_iff]
  by_cases h : g.Admits p <;> simp [h]

theorem ne_nil_of_mem_paths {p : Path} (hp : p ∈ g.paths) : p ≠ [] :=
  ((mem_paths_iff p).mp hp).1.1.ne_nil

/-- A search without limits records each sequence of nodes as often as edges lead along it, if it is a path
of a recorded shape in the graph, and never otherwise. -/
theorem count_enumerate (g : Graph) :
    ∃ done, g.FullSearch done ∧ ∀ p, done.paths.toList.count p = g.multiplicity p := by
  refine ⟨g.survey g.nodes, g.fullSearch_survey, ?_⟩
  intro p
  rw [g.paths_survey_nodes, count_paths]

end Graph

end PrimePaths
