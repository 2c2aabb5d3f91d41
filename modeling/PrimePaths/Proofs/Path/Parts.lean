import PrimePaths.Proofs.Path.Primes

namespace PrimePaths

open PrimePaths.Path

variable {s : Strategy} {paths more : List Path} {p : Path}

theorem dominated_append_iff :
    Dominated (paths ++ more) p ↔ Dominated paths p ∨ Dominated more p := by
  simp only [Dominated, List.mem_append, or_and_right, exists_or]

@[simp] theorem primePaths_nil (s : Strategy) : primePaths s [] = [] := by
  rw [primePaths_eq_filter, List.filter_nil]

/-- What is kept of a list depends on the paths that it contains properly, and on nothing else. -/
theorem keeps_congr (h : Dominated paths p ↔ Dominated more p) : Keeps s paths p ↔ Keeps s more p := by
  rw [Keeps, Keeps, h]

theorem Keeps.of_subset (h : Keeps s more p) (hsub : paths ⊆ more) : Keeps s paths p := by
  apply h.imp_right
  intro hfree hdom
  obtain ⟨q, hq, hpq⟩ := hdom
  exact hfree ⟨q, hsub hq, hpq⟩

/-- What is dropped is contained in what is kept. -/
theorem dominated_primePaths_iff : Dominated (primePaths s paths) p ↔ Dominated paths p := by
  constructor
  · intro hdom
    obtain ⟨q, hq, hpq⟩ := hdom
    exact ⟨q, (mem_primePaths_iff.mp hq).1, hpq⟩
  · intro hdom
    obtain ⟨q, hq, hpq⟩ := hdom
    -- `q` may be dropped itself, but a maximal path around it is kept.
    obtain ⟨r, hr, hqr, hfree⟩ := exists_undominated_of_mem hq
    have hkept : r ∈ primePaths s paths := mem_primePaths_iff.mpr ⟨hr, Or.inr hfree⟩
    exact ⟨r, hkept, hpq.part_of hqr⟩

/-- A filter on a part keeps all that the filter on the whole keeps of it. -/
theorem filter_keeps_primePaths (hsub : paths ⊆ more) :
    (primePaths s paths).filter (fun p => decide (Keeps s more p)) =
      paths.filter fun p => decide (Keeps s more p) := by
  rw [primePaths_eq_filter, List.filter_filter]
  apply List.filter_congr
  intro p _
  have hpart : Keeps s more p → Keeps s paths p := fun h => h.of_subset hsub
  rw [← Bool.decide_and, decide_eq_decide]
  exact and_iff_left_of_imp hpart

theorem primePaths_append (s : Strategy) (paths more : List Path) :
    primePaths s (paths ++ more) = primePaths s (primePaths s paths ++ primePaths s more) := by
  have hkeeps (p : Path) :
      Keeps s (primePaths s paths ++ primePaths s more) p ↔ Keeps s (paths ++ more) p := by
    apply keeps_congr
    rw [dominated_append_iff, dominated_append_iff, dominated_primePaths_iff, dominated_primePaths_iff]
  calc primePaths s (paths ++ more)
      = paths.filter (fun p => decide (Keeps s (paths ++ more) p)) ++
          more.filter (fun p => decide (Keeps s (paths ++ more) p)) := by
        rw [primePaths_eq_filter, List.filter_append]
    _ = (primePaths s paths ++ primePaths s more).filter
          fun p => decide (Keeps s (paths ++ more) p) := by
        rw [List.filter_append, filter_keeps_primePaths (List.subset_append_left paths more),
          filter_keeps_primePaths (List.subset_append_right paths more)]
    _ = primePaths s (primePaths s paths ++ primePaths s more) := by
        rw [primePaths_eq_filter s (_ ++ _)]
        simp only [hkeeps]

theorem primePaths_primePaths (s : Strategy) (paths : List Path) :
    primePaths s (primePaths s paths) = primePaths s paths := by
  simpa using (primePaths_append s paths []).symm

theorem keeps_append_of_dominated (h : ∀ q ∈ more, Dominated paths q) :
    Keeps s (paths ++ more) p ↔ Keeps s paths p := by
  apply keeps_congr
  rw [dominated_append_iff]
  apply or_iff_left_of_imp
  intro hdom
  obtain ⟨q, hq, hpq⟩ := hdom
  obtain ⟨r, hr, hqr⟩ := h q hq
  exact ⟨r, hr, hpq.trans hqr⟩

/-- Of paths that a list contains properly, only empty ones are kept after it, and only by the index. -/
theorem primePaths_append_of_dominated (h : ∀ q ∈ more, Dominated paths q) :
    primePaths s (paths ++ more) =
      primePaths s paths ++ more.filter fun q => decide (s = .indexed ∧ q = []) := by
  rw [primePaths_eq_filter, primePaths_eq_filter, List.filter_append]
  simp only [keeps_append_of_dominated h]
  congr 1
  apply List.filter_congr
  intro q hq
  have hdom : ¬¬Dominated paths q := not_not_intro (h q hq)
  rw [decide_eq_decide, Keeps]
  exact or_iff_left hdom

/-- To filter a list, filter its parts and then what is left of them together. So a filter changes nothing
that it has filtered, and paths that a list contains properly do not matter behind it. -/
theorem primePaths_in_parts (s : Strategy) (paths more : List Path) :
    primePaths s (paths ++ more) = primePaths s (primePaths s paths ++ primePaths s more) ∧
    primePaths s (primePaths s paths) = primePaths s paths ∧
    ((∀ q ∈ more, Dominated paths q) →
      (∀ p ∈ paths, p ∈ primePaths s (paths ++ more) ↔ p ∈ primePaths s paths) ∧
      primePaths s (paths ++ more) =
        primePaths s paths ++ more.filter fun q => decide (s = .indexed ∧ q = [])) := by
  refine ⟨primePaths_append s paths more, primePaths_primePaths s paths, ?_⟩
  intro hdominated
  refine ⟨?_, primePaths_append_of_dominated hdominated⟩
  intro p hp
  have hmem : p ∈ paths ++ more := List.mem_append_left more hp
  rw [mem_primePaths_iff, mem_primePaths_iff, keeps_append_of_dominated hdominated]
  simp only [hp, hmem]

/-- A path that one part keeps is dropped from the whole, and the empty paths stay where the index is used. -/
theorem primePaths_in_parts_nested :
    primePaths .indexed ([[], [0, 1], [0, 1], [0]] ++ [[1, 2], [0, 1, 2]]) =
      primePaths .indexed ([[], [0, 1], [0, 1]] ++ [[0, 1, 2]]) ∧
    primePaths .indexed ([[], [0, 1], [0, 1]] ++ [[0, 1, 2]]) = [[], [0, 1, 2]] ∧
    (∀ q ∈ ([[], [0]] : List Path), Dominated [[0, 1], [0, 1]] q) ∧
    primePaths .indexed ([[0, 1], [0, 1]] ++ [[], [0]]) = [[0, 1], [0, 1], []] := by
  have hupper : primePaths .indexed [[], [0, 1], [0, 1], [0]] = [[], [0, 1], [0, 1]] := by
    rw [primePaths_indexed]
    decide
  have hlower : primePaths .indexed [[1, 2], [0, 1, 2]] = [[0, 1, 2]] := by
    rw [primePaths_indexed]
    decide
  have hkept : primePaths .indexed [[0, 1], [0, 1]] = [[0, 1], [0, 1]] := by
    rw [primePaths_indexed]
    decide
  have hdominated : ∀ q ∈ ([[], [0]] : List Path), Dominated [[0, 1], [0, 1]] q := by decide
  obtain ⟨hparts, -, -⟩ := primePaths_in_parts .indexed [[], [0, 1], [0, 1], [0]] [[1, 2], [0, 1, 2]]
  obtain ⟨-, -, hbehind⟩ := primePaths_in_parts .indexed [[0, 1], [0, 1]] [[], [0]]
  obtain ⟨-, hbehind⟩ := hbehind hdominated
  rw [hupper, hlower] at hparts
  rw [hkept] at hbehind
  refine ⟨hparts, ?_, hdominated, hbehind⟩
  rw [primePaths_indexed]
  decide

end PrimePaths
