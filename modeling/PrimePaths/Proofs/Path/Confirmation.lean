import PrimePaths.Path.Filter
import PrimePaths.Proofs.Path.Distinct
import PrimePaths.Proofs.Path.Primes

namespace PrimePaths

open PrimePaths.Path

theorem Findings.pass_iff (f : Findings) :
    f.pass = true ↔ f.invented = [] ∧ f.notMaximal = [] ∧ f.uncovered = [] := by
  simp only [Findings.pass, Findings.complaint?, ← List.isEmpty_iff]
  cases f.invented.isEmpty <;> cases f.notMaximal.isEmpty <;> cases f.uncovered.isEmpty <;> simp

namespace confirmPrimes

variable (paths primes : List Path)

theorem invented_eq_nil_iff :
    (confirmPrimes paths primes).invented = [] ↔ ∀ p ∈ primes, p ∈ paths := by
  simp [confirmPrimes]

theorem notMaximal_eq_nil_iff :
    (confirmPrimes paths primes).notMaximal = [] ↔ ∀ p ∈ primes, p = [] ∨ ¬Dominated paths p := by
  simp only [confirmPrimes, List.filter_eq_nil_iff, contains_ofProper_iff]
  apply forall₂_congr
  intro p _
  tauto

theorem uncovered_eq_nil_iff :
    (confirmPrimes paths primes).uncovered = [] ↔
      ∀ p ∈ paths, p ≠ [] ∧ ∃ r ∈ primes, p <:+: r := by
  simp only [confirmPrimes, List.filter_eq_nil_iff, mem_distinctPaths, Bool.not_eq_true',
    Bool.not_eq_false, ← Std.HashSet.mem_iff_contains, SliceIndex.mem_ofPaths]
  apply forall₂_congr
  intro p _
  constructor
  · intro h
    obtain ⟨r, hr, hne, hpr⟩ := h
    exact ⟨hne, r, hr, hpr⟩
  · intro h
    obtain ⟨hne, r, hr, hpr⟩ := h
    exact ⟨r, hr, hne, hpr⟩

end confirmPrimes

private theorem mem_primes_of_pass {paths primes : List Path} {p : Path}
    (hne : ∀ p ∈ paths, p ≠ []) (hpass : (confirmPrimes paths primes).pass = true)
    (hp : p ∈ primes) : p ∈ paths ∧ ¬Dominated paths p := by
  rw [Findings.pass_iff, confirmPrimes.invented_eq_nil_iff,
    confirmPrimes.notMaximal_eq_nil_iff] at hpass
  obtain ⟨hlisted, hmaximal, -⟩ := hpass
  have hmem := hlisted p hp
  exact ⟨hmem, (hmaximal p hp).resolve_left (hne p hmem)⟩

private theorem mem_of_pass {paths primes : List Path} {p : Path}
    (hne : ∀ p ∈ paths, p ≠ []) (hpass : (confirmPrimes paths primes).pass = true)
    (hp : p ∈ paths) (hfree : ¬Dominated paths p) : p ∈ primes := by
  have hcovered := ((Findings.pass_iff _).mp hpass).2.2
  rw [confirmPrimes.uncovered_eq_nil_iff] at hcovered
  obtain ⟨-, r, hr, hpr⟩ := hcovered p hp
  -- `r` is listed, so it contains `p` properly only if `p` is dominated.
  rcases (infix_iff_eq_or_isProperSubpath p r).mp hpr with rfl | hproper
  · exact hr
  · exact absurd ⟨r, (mem_primes_of_pass hne hpass hr).1, hproper⟩ hfree

private theorem pass_of_mem_iff {paths primes : List Path} (hne : ∀ p ∈ paths, p ≠ [])
    (h : ∀ p, p ∈ primes ↔ p ∈ paths ∧ ¬Dominated paths p) :
    (confirmPrimes paths primes).pass = true := by
  rw [Findings.pass_iff, confirmPrimes.invented_eq_nil_iff, confirmPrimes.notMaximal_eq_nil_iff,
    confirmPrimes.uncovered_eq_nil_iff]
  refine ⟨?_, ?_, ?_⟩
  · intro p hp
    exact ((h p).mp hp).1
  · intro p hp
    exact Or.inr ((h p).mp hp).2
  · intro p hp
    obtain ⟨q, hq, hpq, hfree⟩ := exists_undominated_of_mem hp
    exact ⟨hne p hp, q, (h q).mpr ⟨hq, hfree⟩, hpq⟩

theorem pass_confirmPrimes_primePaths {paths : List Path} (hne : ∀ p ∈ paths, p ≠ []) (s : Strategy) :
    (confirmPrimes paths (primePaths s paths)).pass = true :=
  pass_of_mem_iff hne (mem_primePaths hne s)

/-- The check accepts a list if and only if it holds the prime paths and nothing else; what a filter
finds always passes. -/
theorem confirmPrimes_pass_iff (paths primes : List Path) (s : Strategy)
    (hne : ∀ p ∈ paths, p ≠ []) :
    ((confirmPrimes paths primes).pass = true ↔ ∀ p, p ∈ primes ↔ p ∈ primePaths s paths) ∧
    (confirmPrimes paths (primePaths s paths)).pass = true := by
  refine ⟨⟨?_, ?_⟩, ?_⟩
  · intro hpass p
    rw [mem_primePaths hne]
    exact ⟨mem_primes_of_pass hne hpass, fun hp => mem_of_pass hne hpass hp.1 hp.2⟩
  · intro h
    exact pass_of_mem_iff hne fun p => (h p).trans (mem_primePaths hne s p)
  · exact pass_of_mem_iff hne (mem_primePaths hne s)

/-- The order and the repetitions of the claimed paths do not count; what is missing does. -/
theorem confirmPrimes_pass_edge :
    (∀ p ∈ ([[0], [0, 1], [1]] : List Path), p ≠ []) ∧
      (confirmPrimes [[0], [0, 1], [1]] [[0, 1], [0, 1]]).pass = true ∧
      (confirmPrimes [[0], [0, 1], [1]] [[0]]).pass = false ∧
      (confirmPrimes [[0], [0, 1], [1]] (primePaths .quadratic [[0], [0, 1], [1]])).pass = true := by
  have hne : ∀ p ∈ ([[0], [0, 1], [1]] : List Path), p ≠ [] := by decide
  have hprimes : primePaths .quadratic [[0], [0, 1], [1]] = [[0, 1]] := by decide
  obtain ⟨hright, hfilter⟩ :=
    confirmPrimes_pass_iff [[0], [0, 1], [1]] [[0, 1], [0, 1]] .quadratic hne
  obtain ⟨hwrong, -⟩ := confirmPrimes_pass_iff [[0], [0, 1], [1]] [[0]] .quadratic hne
  refine ⟨hne, hright.mpr fun p => ?_, ?_, hfilter⟩
  · simp [hprimes]
  · rw [← Bool.not_eq_true, hwrong, hprimes]
    intro hsame
    exact absurd ((hsame [0]).mp (by decide)) (by decide)

end PrimePaths
