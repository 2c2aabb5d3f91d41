import PrimePaths.Path.Filter
import PrimePaths.Proofs.Path.Containment

namespace PrimePaths

namespace Path

theorem mem_bounds {n i j : Nat} : (i, j) ∈ bounds n ↔ i < j ∧ j ≤ n := by
  simp only [bounds, List.mem_flatMap, List.mem_range, List.mem_map, List.mem_range'_1,
    Prod.mk.injEq]
  constructor
  · intro h
    obtain ⟨_, _, _, _, rfl, rfl⟩ := h
    omega
  · intro h
    exact ⟨i, by omega, j, by omega, rfl, rfl⟩

theorem mem_slices {p q : Path} : q ∈ p.slices ↔ q ≠ [] ∧ q <:+: p := by
  simp only [slices, List.mem_map, Prod.exists, mem_bounds]
  constructor
  · intro h
    obtain ⟨i, j, ⟨hij, hj⟩, rfl⟩ := h
    have hlen := length_slice (i := i) hj
    refine ⟨List.ne_nil_of_length_pos (by omega), slice_isInfix p i j⟩
  · intro h
    obtain ⟨hne, hpart⟩ := h
    obtain ⟨i, hi, hslice⟩ := infix_iff_exists_slice.mp hpart
    have hpos := List.length_pos_iff.mpr hne
    exact ⟨i, i + q.length, ⟨by omega, hi⟩, hslice⟩

theorem mem_properSlices_iff_length_lt {p q : Path} :
    q ∈ p.properSlices ↔ q ∈ p.slices ∧ q.length < p.length := by
  simp only [properSlices, slices, List.mem_map, List.mem_filter, decide_eq_true_iff]
  constructor
  · intro h
    obtain ⟨⟨i, j⟩, ⟨hbounds, hlen⟩, rfl⟩ := h
    refine ⟨⟨(i, j), hbounds, rfl⟩, ?_⟩
    rw [length_slice (mem_bounds.mp hbounds).2]
    exact hlen
  · intro h
    obtain ⟨⟨⟨i, j⟩, hbounds, rfl⟩, hlen⟩ := h
    rw [length_slice (mem_bounds.mp hbounds).2] at hlen
    exact ⟨(i, j), ⟨hbounds, hlen⟩, rfl⟩

theorem mem_properSlices {p q : Path} : q ∈ p.properSlices ↔ q ≠ [] ∧ IsProperSubpath q p := by
  rw [mem_properSlices_iff_length_lt, mem_slices, isProperSubpath_iff_length_lt, and_assoc]

end Path

namespace SliceIndex

/-- Membership after the slices of one path after the other were put in, for any choice of slices. -/
private theorem mem_foldl_insertMany {slices : Path → List Path} {paths : List Path}
    {index : SliceIndex} {q : Path} :
    q ∈ paths.foldl (fun index p => index.insertMany (slices p)) index ↔
      q ∈ index ∨ ∃ p ∈ paths, q ∈ slices p := by
  induction paths generalizing index with
  | nil => simp
  | cons p ps ih =>
    rw [List.foldl_cons, ih, Std.HashSet.mem_insertMany_list, List.contains_iff_mem, or_assoc]
    simp

theorem mem_ofPaths {paths : List Path} {q : Path} :
    q ∈ ofPaths paths ↔ ∃ p ∈ paths, q ≠ [] ∧ q <:+: p := by
  simp only [ofPaths, mem_foldl_insertMany, Path.mem_slices, Std.HashSet.not_mem_empty, false_or]

/-- The index of proper slices holds the non-empty proper subpaths of its paths. -/
theorem mem_ofProper {paths : List Path} {q : Path} :
    q ∈ ofProper paths ↔ q ≠ [] ∧ Path.Dominated paths q := by
  simp only [ofProper, mem_foldl_insertMany, Path.mem_properSlices, Std.HashSet.not_mem_empty,
    false_or]
  constructor
  · intro h
    obtain ⟨p, hp, hne, hqp⟩ := h
    exact ⟨hne, p, hp, hqp⟩
  · intro h
    obtain ⟨hne, p, hp, hqp⟩ := h
    exact ⟨p, hp, hne, hqp⟩

end SliceIndex

end PrimePaths
