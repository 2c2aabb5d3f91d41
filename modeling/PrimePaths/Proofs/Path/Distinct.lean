import PrimePaths.Path.Filter
import Mathlib.Data.List.Basic

namespace PrimePaths

section FirstOccurrences

variable {α β : Type} [BEq α] [LawfulBEq α] [BEq β] [LawfulBEq β]

omit [LawfulBEq α] in
/-- Induction along the first occurrences: behind an element, those that differ from it are left. -/
theorem firstOccurrences_induction {motive : List α → Prop} (nil : motive [])
    (cons : ∀ a l, motive (l.filter fun b => !b == a) → motive (a :: l)) (l : List α) : motive l := by
  match l with
  | [] => exact nil
  | a :: l => exact cons a l (firstOccurrences_induction nil cons (l.filter fun b => !b == a))
termination_by l.length
decreasing_by exact Nat.lt_succ_of_le (List.length_filter_le _ _)

theorem eraseDups_filter (p : α → Bool) (l : List α) :
    (l.filter p).eraseDups = l.eraseDups.filter p := by
  induction l using firstOccurrences_induction with
  | nil => rfl
  | cons a l ih =>
    rw [List.eraseDups_cons]
    by_cases ha : p a
    · rw [List.filter_cons_of_pos ha, List.filter_cons_of_pos ha, List.eraseDups_cons, ← ih,
        List.filter_filter, List.filter_filter]
      simp only [Bool.and_comm]
    · rw [List.filter_cons_of_neg ha, List.filter_cons_of_neg ha, ← ih, List.filter_filter]
      congr 1
      apply List.filter_congr
      intro b _
      by_cases hb : b = a
      · subst hb
        simp [ha]
      · simp [hb]

theorem eraseDups_of_nodup {l : List α} (h : l.Nodup) : l.eraseDups = l := by
  induction l with
  | nil => rfl
  | cons a l ih =>
    obtain ⟨ha, hl⟩ := List.nodup_cons.mp h
    have hothers : l.filter (fun b => !b == a) = l := by
      apply List.filter_eq_self.mpr
      intro b hb
      simpa using ne_of_mem_of_not_mem hb ha
    rw [List.eraseDups_cons, hothers, ih hl]

/-- To remove what one element yields is to remove the element, if no other one yields any of it. -/
theorem removeAll_flatMap {f : α → List β} {a : α} {l : List α}
    (h : ∀ b ∈ l, b ≠ a → (f b).Disjoint (f a)) :
    (l.flatMap f).removeAll (f a) = (l.filter fun b => !b == a).flatMap f := by
  induction l with
  | nil => rfl
  | cons b l ih =>
    obtain ⟨hb, hl⟩ := List.forall_mem_cons.mp h
    have hrest := ih hl
    rw [List.removeAll] at hrest
    rw [List.removeAll, List.flatMap_cons, List.filter_append, hrest]
    by_cases heq : b = a
    · subst heq
      simp
    · have hkept : (f b).filter (fun x => !(f a).elem x) = f b := by
        apply List.filter_eq_self.mpr
        intro x hx
        simpa using hb heq hx
      rw [hkept, List.filter_cons_of_pos (by simpa using heq), List.flatMap_cons]

/-- Where different elements yield different things, the first occurrences of what a list yields come from
the first occurrences in the list. -/
theorem eraseDups_flatMap {f : α → List β} {l : List α}
    (h : ∀ a ∈ l, ∀ b ∈ l, b ≠ a → (f b).Disjoint (f a)) :
    (l.flatMap f).eraseDups = l.eraseDups.flatMap fun a => (f a).eraseDups := by
  induction l using firstOccurrences_induction with
  | nil => rfl
  | cons a l ih =>
    obtain ⟨ha, hl⟩ := List.forall_mem_cons.mp h
    have hothers : ∀ b ∈ l.filter (fun b => !b == a), b ∈ l := fun b hb => List.mem_of_mem_filter hb
    have hbehind := ih fun b hb c hc => hl b (hothers b hb) c (List.mem_cons_of_mem a (hothers c hc))
    have hfirst : ∀ b ∈ l, b ≠ a → (f b).Disjoint (f a) := (List.forall_mem_cons.mp ha).2
    rw [List.flatMap_cons, List.eraseDups_append, removeAll_flatMap hfirst, hbehind,
      List.eraseDups_cons, List.flatMap_cons]

end FirstOccurrences

namespace Distinct

/-- What was kept is what was seen. -/
def Synced (d : Distinct) : Prop :=
  ∀ p, p ∈ d.seen ↔ p ∈ d.kept

theorem synced_empty : Synced {} := by
  intro p
  simp

theorem Synced.add {d : Distinct} (h : d.Synced) (p : Path) : (d.add p).Synced := by
  unfold Distinct.add
  split
  · exact h
  · intro q
    simp only [Std.HashSet.mem_insert, beq_iff_eq, Array.mem_push, h q]
    tauto

theorem kept_foldl_add (paths : List Path) (d : Distinct) (h : d.Synced) :
    (paths.foldl Distinct.add d).kept.toList =
      d.kept.toList ++ (paths.filter fun p => decide (p ∉ d.kept)).eraseDups := by
  induction paths generalizing d with
  | nil => simp
  | cons p ps ih =>
    rw [List.foldl_cons, ih _ (h.add p)]
    by_cases hp : p ∈ d.kept
    · have hseen : d.seen.contains p = true := Std.HashSet.mem_iff_contains.mp ((h p).mpr hp)
      simp [Distinct.add, hseen, hp]
    · have hseen : d.seen.contains p = false := by
        rw [← Bool.not_eq_true, ← Std.HashSet.mem_iff_contains, h p]
        exact hp
      have hkept : (d.add p).kept = d.kept.push p := by simp [Distinct.add, hseen]
      rw [hkept, List.filter_cons_of_pos (by simpa using hp), List.eraseDups_cons,
        List.filter_filter, Array.toList_push, List.append_assoc, List.singleton_append]
      congr 3
      apply List.filter_congr
      intro q _
      by_cases hqp : q = p <;> simp [hqp]

end Distinct

theorem distinctPaths_eq_eraseDups (paths : List Path) : distinctPaths paths = paths.eraseDups := by
  rw [distinctPaths, Distinct.kept_foldl_add paths {} Distinct.synced_empty]
  simp

theorem mem_distinctPaths {paths : List Path} {p : Path} : p ∈ distinctPaths paths ↔ p ∈ paths := by
  rw [distinctPaths_eq_eraseDups, List.mem_eraseDups]

end PrimePaths
