import PrimePaths.Path.Filter
import PrimePaths.Proofs.Path.Slices

namespace PrimePaths

open PrimePaths.Path

theorem isPrime_iff (p : Path) (paths : List Path) :
    isPrime p paths = true ↔ ¬Dominated paths p := by
  rw [isPrime, List.all_eq_true]
  constructor
  · intro h hdom
    obtain ⟨q, hq, hpq⟩ := hdom
    have hkeep := h q hq
    simp [hpq.length_lt, (isProperSubpath_iff p q).mpr hpq] at hkeep
  · intro h q hq
    rw [Bool.not_eq_true', Bool.and_eq_false_imp]
    intro _
    by_contra hpq
    exact h ⟨q, hq, (isProperSubpath_iff p q).mp (by simpa using hpq)⟩

theorem contains_ofProper_iff (p : Path) (paths : List Path) :
    (SliceIndex.ofProper paths).contains p = true ↔ p ≠ [] ∧ Dominated paths p := by
  rw [← Std.HashSet.mem_iff_contains, SliceIndex.mem_ofProper]

/-- The scan of windows finds a contiguous part that leaves something out, and nothing else, so it is a
strict order of paths. The index holds the parts of this kind that are not empty: it has no say about the
empty path, and any other path is prime exactly if the index does not hold it. -/
theorem containment_exact :
    (∀ sub full : Path,
      isProperSubpath sub full = true ↔ ∃ a b, full = a ++ sub ++ b ∧ ¬(a = [] ∧ b = [])) ∧
    (∀ full : Path, isProperSubpath [] full = true ↔ full ≠ []) ∧
    (∀ p : Path, isProperSubpath p p = false) ∧
    (∀ p q r : Path, isProperSubpath p q = true → isProperSubpath q r = true →
      isProperSubpath p r = true) ∧
    ∀ (paths : List Path) (p : Path),
      (p ∈ SliceIndex.ofProper paths ↔ p ≠ [] ∧ ∃ q ∈ paths, isProperSubpath p q = true) ∧
      (p ≠ [] → (isPrime p paths = true ↔ p ∉ SliceIndex.ofProper paths)) := by
  refine ⟨isProperSubpath_iff, ?_, ?_, ?_, ?_⟩
  · intro full
    rw [isProperSubpath_iff, nil_isProperSubpath_iff]
  · intro p
    rw [← Bool.not_eq_true, isProperSubpath_iff]
    exact IsProperSubpath.irrefl p
  · intro p q r hpq hqr
    rw [isProperSubpath_iff] at hpq hqr ⊢
    exact hpq.trans hqr
  · intro paths p
    constructor
    · rw [SliceIndex.mem_ofProper]
      simp only [Dominated, isProperSubpath_iff]
    · intro hne
      rw [isPrime_iff, SliceIndex.mem_ofProper, and_iff_right hne]

/-- A window that begins in a run of equal nodes is found, and the empty path stays out of the index though
the scan finds it in every other one. -/
theorem containment_exact_overlap :
    isProperSubpath [0, 0, 1] [0, 0, 0, 1] = true ∧
    isProperSubpath [0, 0, 0, 1] [2, 0, 0, 0, 1] = true ∧
    isProperSubpath [0, 0, 1] [2, 0, 0, 0, 1] = true ∧
    [0, 0, 1] ∈ SliceIndex.ofProper [[2, 0, 0, 0, 1], [0, 1, 0]] ∧
    ([0, 1, 0] : Path) ≠ [] ∧ isPrime [0, 1, 0] [[2, 0, 0, 0, 1], [0, 1, 0]] = true ∧
    [0, 1, 0] ∉ SliceIndex.ofProper [[2, 0, 0, 0, 1], [0, 1, 0]] ∧
    isPrime [] [[0, 1, 0]] = false ∧ [] ∉ SliceIndex.ofProper [[0, 1, 0]] := by
  obtain ⟨-, -, -, htrans, hindex⟩ := containment_exact
  have hinner : isProperSubpath [0, 0, 1] [0, 0, 0, 1] = true := by decide
  have houter : isProperSubpath [0, 0, 0, 1] [2, 0, 0, 0, 1] = true := by decide
  have hpart : isProperSubpath [0, 0, 1] [2, 0, 0, 0, 1] = true :=
    htrans [0, 0, 1] [0, 0, 0, 1] [2, 0, 0, 0, 1] hinner houter
  have hne : ([0, 1, 0] : Path) ≠ [] := by decide
  have hprime : isPrime [0, 1, 0] [[2, 0, 0, 0, 1], [0, 1, 0]] = true := by decide
  obtain ⟨hheld, -⟩ := hindex [[2, 0, 0, 0, 1], [0, 1, 0]] [0, 0, 1]
  obtain ⟨-, hmissing⟩ := hindex [[2, 0, 0, 0, 1], [0, 1, 0]] [0, 1, 0]
  obtain ⟨hempty, -⟩ := hindex [[0, 1, 0]] []
  refine ⟨hinner, houter, hpart, ?_, hne, hprime, (hmissing hne).mp hprime, by decide, ?_⟩
  · exact hheld.mpr ⟨by decide, [2, 0, 0, 0, 1], by decide, hpart⟩
  · intro hmem
    exact (hempty.mp hmem).1 rfl

theorem primePaths_quadratic (paths : List Path) :
    primePaths .quadratic paths = paths.filter fun p => decide (¬Dominated paths p) := by
  apply List.filter_congr
  intro p _
  rw [Bool.eq_iff_iff, isPrime_iff, decide_eq_true_iff]

theorem primePaths_indexed (paths : List Path) :
    primePaths .indexed paths = paths.filter fun p => decide (p = [] ∨ ¬Dominated paths p) := by
  apply List.filter_congr
  intro p _
  rw [Bool.eq_iff_iff, decide_eq_true_iff, Bool.not_eq_true', ← Bool.not_eq_true,
    contains_ofProper_iff]
  tauto

/-- What a filter keeps of a list: the paths that no other one contains properly, and the look-up in the
index each empty path, too. -/
def Keeps (s : Strategy) (paths : List Path) (p : Path) : Prop :=
  (s = .indexed ∧ p = []) ∨ ¬Dominated paths p

instance (s : Strategy) (paths : List Path) (p : Path) : Decidable (Keeps s paths p) :=
  inferInstanceAs (Decidable (_ ∨ _))

theorem primePaths_eq_filter (s : Strategy) (paths : List Path) :
    primePaths s paths = paths.filter fun p => decide (Keeps s paths p) := by
  cases s with
  | quadratic =>
    rw [primePaths_quadratic]
    simp [Keeps]
  | indexed =>
    rw [primePaths_indexed]
    simp [Keeps]

theorem mem_primePaths_iff {s : Strategy} {paths : List Path} {p : Path} :
    p ∈ primePaths s paths ↔ p ∈ paths ∧ Keeps s paths p := by
  rw [primePaths_eq_filter, List.mem_filter, decide_eq_true_iff]

theorem primePaths_sublist (s : Strategy) (paths : List Path) : (primePaths s paths).Sublist paths := by
  rw [primePaths_eq_filter]
  exact List.filter_sublist

/-- Where no path is empty, both filters keep the paths that no other one contains properly. -/
theorem primePaths_of_ne_nil {paths : List Path} (h : ∀ p ∈ paths, p ≠ []) (s : Strategy) :
    primePaths s paths = paths.filter fun p => decide (¬Dominated paths p) := by
  rw [primePaths_eq_filter]
  apply List.filter_congr
  intro p hp
  simp [Keeps, h p hp]

theorem mem_primePaths {paths : List Path} (h : ∀ p ∈ paths, p ≠ []) (s : Strategy) (p : Path) :
    p ∈ primePaths s paths ↔ p ∈ paths ∧ ¬Dominated paths p := by
  rw [primePaths_of_ne_nil h, List.mem_filter, decide_eq_true_iff]

theorem dominated_nil_iff (paths : List Path) : Dominated paths [] ↔ ∃ q ∈ paths, q ≠ [] := by
  simp only [Dominated, nil_isProperSubpath_iff]

/-- The filters differ only where an empty path is listed together with one that is not empty: the scan
drops the empty path then, the index never holds it. -/
theorem quadratic_eq_indexed_iff (paths : List Path) :
    (primePaths .quadratic paths = primePaths .indexed paths ↔
      ¬([] ∈ paths ∧ ∃ p ∈ paths, p ≠ [])) ∧
    (primePaths .quadratic paths).filter (fun p => decide (p ≠ [])) =
      (primePaths .indexed paths).filter (fun p => decide (p ≠ [])) := by
  rw [primePaths_quadratic, primePaths_indexed]
  refine ⟨⟨?_, ?_⟩, ?_⟩
  · intro heq hboth
    obtain ⟨hnil, hother⟩ := hboth
    have hkept : [] ∈ paths.filter fun p => decide (p = [] ∨ ¬Dominated paths p) :=
      List.mem_filter.mpr ⟨hnil, by simp⟩
    rw [← heq, List.mem_filter, decide_eq_true_iff] at hkept
    exact hkept.2 ((dominated_nil_iff paths).mpr hother)
  · intro hapart
    apply List.filter_congr
    intro p hp
    have hfree : p = [] → ¬Dominated paths p := by
      intro hnil hdom
      subst hnil
      exact hapart ⟨hp, (dominated_nil_iff paths).mp hdom⟩
    rw [decide_eq_decide]
    tauto
  · rw [List.filter_filter, List.filter_filter]
    apply List.filter_congr
    intro p _
    by_cases hp : p = [] <;> simp [hp]

end PrimePaths
