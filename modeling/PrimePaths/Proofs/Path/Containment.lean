import PrimePaths.Path.Basic
import Mathlib.Data.List.Infix
import Mathlib.Data.Finset.Max

namespace PrimePaths.Path

theorem length_slice {p : Path} {i j : Nat} (h : j ≤ p.length) : (p.slice i j).length = j - i := by
  rw [slice, List.length_take, List.length_drop]
  omega

theorem slice_isInfix (p : Path) (i j : Nat) : p.slice i j <:+: p :=
  (List.take_prefix (j - i) _).isInfix.trans (List.drop_suffix i p).isInfix

/-- A path shows each of its contiguous parts in a window of that length. -/
theorem infix_iff_exists_slice {p q : Path} :
    q <:+: p ↔ ∃ i, i + q.length ≤ p.length ∧ p.slice i (i + q.length) = q := by
  constructor
  · intro h
    obtain ⟨a, b, rfl⟩ := h
    refine ⟨a.length, by simp, ?_⟩
    rw [slice, List.append_assoc, List.drop_left, Nat.add_sub_cancel_left, List.take_left]
  · intro h
    obtain ⟨i, -, hslice⟩ := h
    rw [← hslice]
    exact slice_isInfix p _ _

/-- A proper subpath is a contiguous part that is shorter. -/
theorem isProperSubpath_iff_length_lt (sub full : Path) :
    IsProperSubpath sub full ↔ sub <:+: full ∧ sub.length < full.length := by
  constructor
  · intro h
    obtain ⟨a, b, rfl, hproper⟩ := h
    refine ⟨⟨a, b, rfl⟩, ?_⟩
    by_contra hlen
    simp only [List.length_append, Nat.not_lt] at hlen
    have ha : a = [] := List.length_eq_zero_iff.mp (by omega)
    have hb : b = [] := List.length_eq_zero_iff.mp (by omega)
    exact hproper ⟨ha, hb⟩
  · intro h
    obtain ⟨⟨a, b, rfl⟩, hlen⟩ := h
    refine ⟨a, b, rfl, ?_⟩
    intro hnil
    obtain ⟨rfl, rfl⟩ := hnil
    simp at hlen

/-- The scan of windows decides containment. -/
theorem isProperSubpath_iff (sub full : Path) :
    isProperSubpath sub full = true ↔ IsProperSubpath sub full := by
  rw [isProperSubpath_iff_length_lt, isProperSubpath]
  by_cases hlen : sub.length < full.length
  · rw [if_neg (Nat.not_le.mpr hlen), and_iff_left hlen, infix_iff_exists_slice, List.any_eq_true]
    apply exists_congr
    intro i
    rw [List.mem_range, beq_iff_eq]
    apply and_congr_left
    intro _
    omega
  · rw [if_pos (Nat.not_lt.mp hlen)]
    simp [hlen]

instance (sub full : Path) : Decidable (IsProperSubpath sub full) :=
  decidable_of_iff _ (isProperSubpath_iff sub full)

namespace IsProperSubpath

variable {p q r : Path}

theorem length_lt (h : IsProperSubpath p q) : p.length < q.length :=
  ((isProperSubpath_iff_length_lt p q).mp h).2

theorem isInfix (h : IsProperSubpath p q) : p <:+: q :=
  ((isProperSubpath_iff_length_lt p q).mp h).1

theorem irrefl (p : Path) : ¬IsProperSubpath p p :=
  fun h => Nat.lt_irrefl _ h.length_lt

theorem of_part (h : p <:+: q) (hqr : IsProperSubpath q r) : IsProperSubpath p r := by
  have hlen : p.length < r.length := Nat.lt_of_le_of_lt h.length_le hqr.length_lt
  exact (isProperSubpath_iff_length_lt p r).mpr ⟨h.trans hqr.isInfix, hlen⟩

theorem part_of (hpq : IsProperSubpath p q) (h : q <:+: r) : IsProperSubpath p r := by
  have hlen : p.length < r.length := Nat.lt_of_lt_of_le hpq.length_lt h.length_le
  exact (isProperSubpath_iff_length_lt p r).mpr ⟨hpq.isInfix.trans h, hlen⟩

theorem trans (hpq : IsProperSubpath p q) (hqr : IsProperSubpath q r) : IsProperSubpath p r :=
  hqr.of_part hpq.isInfix

end IsProperSubpath

theorem nil_isProperSubpath_iff (full : Path) : IsProperSubpath [] full ↔ full ≠ [] := by
  rw [isProperSubpath_iff_length_lt, List.length_nil, List.length_pos_iff]
  exact and_iff_right List.nil_infix

/-- Some path of the list contains `p` properly. -/
def Dominated (paths : List Path) (p : Path) : Prop :=
  ∃ q ∈ paths, IsProperSubpath p q

instance (paths : List Path) (p : Path) : Decidable (Dominated paths p) :=
  inferInstanceAs (Decidable (∃ q ∈ paths, IsProperSubpath p q))

theorem exists_undominated_of_mem {paths : List Path} {p : Path} (hp : p ∈ paths) :
    ∃ q ∈ paths, p <:+: q ∧ ¬Dominated paths q := by
  -- The longest of the paths around `p` cannot lie properly in another path.
  let around := (paths.filter fun q => decide (p <:+: q)).toFinset
  have hmem : ∀ q, q ∈ around ↔ q ∈ paths ∧ p <:+: q := by
    intro q
    simp [around]
  have hne : around.Nonempty := ⟨p, (hmem p).mpr ⟨hp, List.infix_refl p⟩⟩
  obtain ⟨q, hq, hlongest⟩ := Finset.exists_max_image around List.length hne
  obtain ⟨hqmem, hpq⟩ := (hmem q).mp hq
  refine ⟨q, hqmem, hpq, ?_⟩
  intro hdom
  obtain ⟨r, hr, hqr⟩ := hdom
  have hle := hlongest r ((hmem r).mpr ⟨hr, hpq.trans hqr.isInfix⟩)
  exact Nat.not_lt.mpr hle hqr.length_lt

end PrimePaths.Path
