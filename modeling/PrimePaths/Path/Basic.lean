namespace PrimePaths

/-- The nodes that a walk visits, in order. -/
abbrev Path := List Int

namespace Path

def text (p : Path) : String :=
  " -> ".intercalate (p.map toString)

/-- The part of a path from the place `i` up to the place `j`. -/
def slice (p : Path) (i j : Nat) : Path :=
  (p.drop i).take (j - i)

/-- `sub` is a contiguous part of `full` and not all of it. -/
def IsProperSubpath (sub full : Path) : Prop :=
  ∃ a b, full = a ++ sub ++ b ∧ ¬(a = [] ∧ b = [])

/-- Whether some window of a strictly longer path shows `sub`. -/
def isProperSubpath (sub full : Path) : Bool :=
  if full.length ≤ sub.length then false
  else (List.range (full.length - sub.length + 1)).any fun i =>
    full.slice i (i + sub.length) == sub

/-- A contiguous part of a path is the path itself or a proper subpath. -/
theorem infix_iff_eq_or_isProperSubpath (sub full : Path) :
    sub <:+: full ↔ sub = full ∨ IsProperSubpath sub full := by
  constructor
  · rintro ⟨a, b, h⟩
    by_cases hab : a = [] ∧ b = []
    · obtain ⟨rfl, rfl⟩ := hab
      exact Or.inl (by simpa using h)
    · exact Or.inr ⟨a, b, h.symm, hab⟩
  · rintro (rfl | ⟨a, b, h, -⟩)
    · exact List.infix_refl sub
    · exact ⟨a, b, h.symm⟩

/-- A proper subpath leaves out the first node or the last one. -/
theorem isProperSubpath_iff_infix_tail_or {sub full : Path} (hne : sub ≠ []) :
    IsProperSubpath sub full ↔ sub <:+: full.tail ∨ sub <:+: full.dropLast := by
  constructor
  · rintro ⟨a, b, rfl, hproper⟩
    cases a with
    | cons v vs => exact Or.inl ⟨vs, b, by simp⟩
    | nil =>
      rcases List.eq_nil_or_concat b with rfl | ⟨bs, w, rfl⟩
      · exact absurd ⟨rfl, rfl⟩ hproper
      · refine Or.inr ⟨[], bs, ?_⟩
        rw [List.concat_eq_append, ← List.append_assoc, List.dropLast_concat]
  · rintro (⟨a, b, h⟩ | ⟨a, b, h⟩)
    · cases full with
      | nil => simp_all
      | cons v vs => exact ⟨v :: a, b, by simpa using h.symm, by simp⟩
    · rcases List.eq_nil_or_concat full with rfl | ⟨vs, w, rfl⟩
      · simp_all
      · rw [List.concat_eq_append, List.dropLast_concat] at h
        exact ⟨a, b ++ [w], by rw [List.concat_eq_append, ← h]; simp, by simp⟩

end Path

end PrimePaths
