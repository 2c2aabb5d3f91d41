import PrimePaths.Proofs.Path.Shape
import PrimePaths.Proofs.Search.Unlimited

namespace PrimePaths

open PrimePaths.Path

/-- A path that is entered repeats no node, and one that is closed comes back to its start. -/
def Finding.Shaped : Finding → Prop
  | .close path => path.IsClosing
  | .enter path => path.IsSimple
  | .skip => True
  | .back => True

namespace Graph

variable {g : Graph} {start : Int}

theorem shaped_of_mem_branch {t : Path} {v : Int} {f : Finding} (h : (start :: t).Nodup)
    (hv : v ∈ g.nodes) (hf : f ∈ g.branch start (start :: t) v) : f.Shaped := by
  generalize hpath : start :: t = path at h hf
  induction path, v, hv using visit_induction generalizing t with
  | step path v hv ih =>
  subst hpath
  unfold branch at hf
  split at hf
  · rename_i hclose
    obtain ⟨rfl, hlen⟩ := hclose
    rw [List.mem_singleton.mp hf]
    exact isClosing_append_singleton hlen rfl h
  split at hf
  · rw [List.mem_singleton.mp hf]
    trivial
  rename_i hnew
  have hnodup : (start :: t ++ [v]).Nodup := nodup_append_singleton.mpr ⟨h, hnew⟩
  rcases List.mem_cons.mp hf with rfl | hf
  · exact ⟨by simp, hnodup⟩
  rcases List.mem_append.mp hf with hf | hf
  · rw [beyond_eq, List.mem_flatMap] at hf
    obtain ⟨w, hw, hf⟩ := hf
    exact ih hnew w hw rfl hnodup hf
  · rw [List.mem_singleton.mp hf]
    trivial

theorem shaped_of_mem_tree {f : Finding} (hf : f ∈ g.tree start) : f.Shaped := by
  rcases List.mem_cons.mp hf with rfl | hf
  · exact ⟨by simp, List.nodup_singleton start⟩
  rcases List.mem_append.mp hf with hf | hf
  · rw [beyond_eq, List.mem_flatMap] at hf
    obtain ⟨v, hv, hf⟩ := hf
    exact shaped_of_mem_branch (List.nodup_singleton start) (mem_nodes_of_mem_succsOf hv) hf
  · rw [List.mem_singleton.mp hf]
    trivial

theorem shaped_of_mem_trees {starts : List Int} {f : Finding} (hf : f ∈ starts.flatMap g.tree) :
    f.Shaped := by
  obtain ⟨s, -, hs⟩ := List.mem_flatMap.mp hf
  exact shaped_of_mem_tree hs

end Graph

/-- How many paths of a list do not close. -/
def openCount (paths : List Path) : Nat :=
  paths.countP fun p => decide ¬p.IsClosing

namespace Progress

theorem calls_after {f : Finding} (hf : f.Shaped) (p : Progress) :
    (p.after f).calls = p.calls + openCount f.path?.toList := by
  cases f with
  | close path =>
    have : path.IsClosing := hf
    simp [after, Finding.path?, openCount, this]
  | enter path =>
    have : ¬path.IsClosing := fun h => h.not_nodup hf.2
    simp [after, Finding.path?, openCount, this]
  | skip => rfl
  | back => rfl

theorem calls_foldl_after {fs : List Finding} (hfs : ∀ f ∈ fs, f.Shaped) (p : Progress) :
    (fs.foldl after p).calls = p.calls + openCount (fs.filterMap Finding.path?) := by
  induction fs generalizing p with
  | nil => rfl
  | cons f fs ih =>
    rw [List.foldl_cons, ih (fun f hf => hfs f (List.mem_cons_of_mem _ hf)),
      calls_after (hfs f List.mem_cons_self), Nat.add_assoc, openCount, openCount, openCount,
      ← List.countP_append]
    cases hpath : f.path? <;> simp [hpath]

end Progress

end PrimePaths
