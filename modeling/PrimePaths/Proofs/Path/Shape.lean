import PrimePaths.Path.Basic
import Mathlib.Data.List.Nodup

namespace PrimePaths.Path

/-- A path without a repeated node. -/
def IsSimple (p : Path) : Prop :=
  p ≠ [] ∧ p.Nodup

/-- A path of three nodes or more that comes back to its start and repeats no other node. -/
def IsClosing (p : Path) : Prop :=
  3 ≤ p.length ∧ p.head? = p.getLast? ∧ p.dropLast.Nodup

def HasShape (p : Path) : Prop :=
  p.IsSimple ∨ p.IsClosing

instance (p : Path) : Decidable p.IsSimple :=
  inferInstanceAs (Decidable (_ ∧ _))

instance (p : Path) : Decidable p.IsClosing :=
  inferInstanceAs (Decidable (_ ∧ _))

instance (p : Path) : Decidable p.HasShape :=
  inferInstanceAs (Decidable (_ ∨ _))

theorem HasShape.ne_nil {p : Path} (h : p.HasShape) : p ≠ [] := by
  rcases h with h | h
  · exact h.1
  · intro hnil
    subst hnil
    exact absurd h.1 (by simp)

theorem hasShape_singleton (v : Int) : HasShape [v] :=
  Or.inl ⟨by simp, by simp⟩

theorem nodup_append_singleton {p : Path} {v : Int} : (p ++ [v]).Nodup ↔ p.Nodup ∧ v ∉ p := by
  rw [← List.concat_eq_append, List.nodup_concat, and_comm]

/-- A path that repeats no node keeps a shape with one more node if that node is new or closes it. -/
theorem hasShape_append_singleton {start v : Int} {t : Path} (h : (start :: t).Nodup) :
    HasShape (start :: t ++ [v]) ↔ v ∉ start :: t ∨ (v = start ∧ 1 < (start :: t).length) := by
  have hlast : (start :: t ++ [v]).getLast? = some v := List.getLast?_concat
  refine or_congr ?_ ?_
  · rw [IsSimple, nodup_append_singleton]
    simp [h]
  · rw [IsClosing, List.dropLast_concat, hlast, List.length_append, List.cons_append,
      List.head?_cons, Option.some_inj]
    simp only [List.length_cons, List.length_nil, h, and_true]
    constructor
    · intro hclose
      obtain ⟨hlen, rfl⟩ := hclose
      exact ⟨rfl, by omega⟩
    · intro hclose
      obtain ⟨rfl, hlen⟩ := hclose
      exact ⟨by omega, rfl⟩

/-- One more step to its start closes a path of two nodes or more. -/
theorem isClosing_append_singleton {p : Path} {start : Int} (hlen : 1 < p.length)
    (hstart : p.head? = some start) (h : p.Nodup) : IsClosing (p ++ [start]) := by
  refine ⟨?_, ?_, ?_⟩
  · rw [List.length_append, List.length_singleton]
    omega
  · rw [List.head?_append, hstart, List.getLast?_concat]
    rfl
  · rwa [List.dropLast_concat]

theorem HasShape.nodup_dropLast {p : Path} (h : p.HasShape) : p.dropLast.Nodup := by
  rcases h with h | h
  · exact h.2.sublist p.dropLast_sublist
  · exact h.2.2

theorem HasShape.nodup_tail {p : Path} (h : p.HasShape) : p.tail.Nodup := by
  rcases h with h | ⟨hlen, hends, hnodup⟩
  · exact h.2.sublist p.tail_sublist
  · rcases p with _ | ⟨s, p⟩
    · simp
    · have hne : p ≠ [] := by
        intro hnil
        simp [hnil] at hlen
      -- The last node is the start, so the tail is the path without its end, turned by one node.
      have hlast : p.getLast hne = s := by
        rw [List.head?_cons, List.getLast?_cons_of_ne_nil hne, List.getLast?_eq_some_getLast hne] at hends
        exact (Option.some.inj hends).symm
      rw [List.dropLast_cons_of_ne_nil hne, ← List.singleton_append, List.nodup_append_comm] at hnodup
      rw [List.tail_cons, ← List.dropLast_append_getLast hne, hlast]
      exact hnodup

/-- What lies properly in a shape repeats no node. -/
theorem HasShape.nodup_of_isProperSubpath {p q : Path} (h : q.HasShape)
    (hpq : IsProperSubpath p q) : p.Nodup := by
  rcases eq_or_ne p [] with rfl | hne
  · exact List.nodup_nil
  rcases (isProperSubpath_iff_infix_tail_or hne).mp hpq with htail | hlast
  · exact h.nodup_tail.sublist htail.sublist
  · exact h.nodup_dropLast.sublist hlast.sublist

theorem IsClosing.not_nodup {p : Path} (h : p.IsClosing) : ¬p.Nodup := by
  obtain ⟨hlen, hends, -⟩ := h
  intro hnodup
  rcases p with _ | ⟨s, _ | ⟨v, p⟩⟩
  · simp at hlen
  · simp at hlen
  · rw [List.head?_cons, List.getLast?_cons_cons] at hends
    exact (List.nodup_cons.mp hnodup).1 (List.mem_of_getLast? hends.symm)

theorem HasShape.not_mem_of_append {p r : Path} {v w : Int} (h : HasShape (p ++ v :: w :: r)) :
    v ∉ p := by
  have hpart : p ++ [v] <+: (p ++ v :: w :: r).dropLast := by
    refine ⟨(w :: r).dropLast, ?_⟩
    rw [List.dropLast_append_of_ne_nil (by simp), List.append_assoc]
    rfl
  exact (nodup_append_singleton.mp (h.nodup_dropLast.sublist hpart.sublist)).2

end PrimePaths.Path
