import PrimePaths.Clock
import Mathlib.Algebra.Group.Nat.Defs

namespace PrimePaths

namespace Binary64

theorem log2_le {m k : Nat} (h : m ≤ 2 ^ k) : m.log2 ≤ k := by
  by_cases hm : m = 0
  · simp [hm]
  · have hless : m < 2 ^ (k + 1) := by
      rw [Nat.pow_succ]
      have hpos := Nat.two_pow_pos k
      omega
    exact Nat.le_of_lt_succ ((Nat.log2_lt hm).mpr hless)

theorem shiftLeft_le {m k : Nat} (h : m ≤ 2 ^ k) (n : Nat) : m <<< n ≤ 2 ^ (k + n) := by
  rw [Nat.shiftLeft_eq, Nat.pow_add]
  exact Nat.mul_le_mul_right _ h

theorem exists_nearest_of_le (negative : Bool) {num den k : Nat} (hden : 0 < den) (h : num ≤ 2 ^ k)
    (hk : k ≤ 1000) :
    ∃ m q, nearest negative num den = finite negative m q ∧ m ≤ 2 ^ precision ∧
      q ≤ max ((k : Int) - 51) minExponent := by
  have hlog := log2_le h
  have hspan : (num.log2 : Int) - den.log2 ≤ 1000 := by omega
  obtain ⟨m, q, hnearest, hm, hq⟩ := exists_nearest negative hden hspan
  rw [Nat.one_shiftLeft] at hm
  simp only [minExponent] at hq ⊢
  exact ⟨m, q, hnearest, hm, by omega⟩

/-- A scaled number is finite if it is not very large. -/
theorem exists_ofScaled (negative : Bool) {m k : Nat} {q : Int} (h : m ≤ 2 ^ k) (hk : k ≤ 1000)
    (hq : k + q ≤ 1000) : ∃ m' q', ofScaled negative m q = finite negative m' q' := by
  unfold ofScaled
  split
  · obtain ⟨m', q', hnearest, -⟩ :=
      exists_nearest_of_le negative Nat.one_pos (shiftLeft_le h q.toNat) (by omega)
    exact ⟨m', q', hnearest⟩
  · have hden : 0 < 1 <<< (-q).toNat := by
      rw [Nat.one_shiftLeft]
      exact Nat.two_pow_pos _
    obtain ⟨m', q', hnearest, -⟩ := exists_nearest_of_le negative hden h hk
    exact ⟨m', q', hnearest⟩

theorem exists_divNat (negative : Bool) {m d : Nat} {q : Int} (hd : 0 < d) (h : m ≤ 2 ^ precision)
    (hq : q ≤ 900) :
    ∃ m' q', (finite negative m q).divNat d = finite negative m' q' ∧ m' ≤ 2 ^ precision ∧
      q' ≤ max (q + 2) 2 := by
  simp only [divNat]
  split
  · obtain ⟨m', q', hnearest, hm', hq'⟩ :=
      exists_nearest_of_le negative hd (shiftLeft_le h q.toNat) (by simp only [precision]; omega)
    simp only [precision, minExponent] at hq'
    exact ⟨m', q', hnearest, hm', by omega⟩
  · have hden : 0 < d <<< (-q).toNat := by
      rw [Nat.shiftLeft_eq]
      exact Nat.mul_pos hd (Nat.two_pow_pos _)
    obtain ⟨m', q', hnearest, hm', hq'⟩ := exists_nearest_of_le negative hden h (by decide)
    simp only [precision, minExponent] at hq'
    exact ⟨m', q', hnearest, hm', by omega⟩

end Binary64

open Binary64

/-- The number nearest to a quotient, if it is finite. -/
theorem Binary64.nearest_le {negative s : Bool} {num den m : Nat} {q : Int} (hden : 0 < den)
    (h : nearest negative num den = finite s m q) : m ≤ 2 ^ precision ∧ q ≤ maxExponent := by
  obtain ⟨m', q', hm, -, hnearest⟩ := nearest_eq negative num hden
  rw [h] at hnearest
  split at hnearest
  · cases hnearest
  · cases hnearest
    rw [← Nat.one_shiftLeft]
    omega

/-- A finite number of nanoseconds is a finite number of seconds. -/
theorem Binary64.exists_divNat_perSecond {s : Bool} {m : Nat} {q : Int}
    (h : m ≤ 2 ^ precision ∧ q ≤ maxExponent) :
    ∃ s' m' q', (finite s m q).divNat Elapsed.perSecond = finite s' m' q' := by
  have hlog : Elapsed.perSecond.log2 = 29 := by decide
  have hpos : 0 < Elapsed.perSecond := by decide
  obtain ⟨hm, hq⟩ := h
  simp only [precision, maxExponent] at hm hq
  rw [divNat]
  split
  · have hnum := log2_le (shiftLeft_le hm q.toNat)
    have hsize : ((m <<< q.toNat).log2 : Int) - Elapsed.perSecond.log2 ≤ 1000 := by omega
    obtain ⟨m', q', hnearest, -⟩ := exists_nearest s hpos hsize
    exact ⟨s, m', q', hnearest⟩
  · have hnum := log2_le hm
    have hsize : (m.log2 : Int) - (Elapsed.perSecond <<< (-q).toNat).log2 ≤ 1000 := by omega
    have hden : 0 < Elapsed.perSecond <<< (-q).toNat := by
      rw [Nat.shiftLeft_eq]
      exact Nat.mul_pos hpos (Nat.two_pow_pos _)
    obtain ⟨m', q', hnearest, -⟩ := exists_nearest s hden hsize
    exact ⟨s, m', q', hnearest⟩

/-- The seconds of a span are finite. -/
theorem Elapsed.exists_seconds {nanoseconds : Int} {span : Elapsed}
    (h : ofNanoseconds nanoseconds = .ok span) : ∃ negative m q, span.seconds = finite negative m q := by
  unfold ofNanoseconds at h
  split at h
  · cases h
  · rename_i hfinite
    obtain rfl := Except.ok.inj h
    obtain ⟨m, q, -, -, hnearest⟩ := nearest_eq (nanoseconds < 0) nanoseconds.natAbs Nat.one_pos
    have hspanned : ofInt nanoseconds = nearest (nanoseconds < 0) nanoseconds.natAbs 1 := rfl
    rw [hspanned] at hfinite ⊢
    split at hnearest
    · exact absurd hnearest (hfinite _)
    · rw [hnearest]
      exact exists_divNat_perSecond (nearest_le Nat.one_pos hnearest)

theorem Elapsed.exists_nanosecondsOfSeconds {nanoseconds : Int} {span : Elapsed}
    (h : nanoseconds.natAbs ≤ 2 ^ 65) (hspan : ofNanoseconds nanoseconds = .ok span) :
    ∃ whole, span.nanosecondsOfSeconds = .ok whole := by
  obtain ⟨m, q, hspanned, hm, hq⟩ := exists_nearest_of_le (nanoseconds < 0) Nat.one_pos h (by decide)
  obtain ⟨k, r, hsecond, hk, hr⟩ :=
    exists_nearest_of_le false Nat.one_pos (show perSecond ≤ 2 ^ 30 by decide) (by decide)
  simp only [minExponent] at hq hr
  have hsmall : q ≤ 900 := by omega
  obtain ⟨m', q', hseconds, hm', hq'⟩ :=
    exists_divNat (nanoseconds < 0) (show 0 < perSecond by decide) hm hsmall
  have hproduct : m' * k ≤ 2 ^ (precision + precision) := by
    rw [Nat.pow_add]
    exact Nat.mul_le_mul hm' hk
  have hexponents : ((precision + precision : Nat) : Int) + (q' + r) ≤ 1000 := by
    simp only [precision]
    omega
  obtain ⟨m'', q'', hwhole⟩ :=
    exists_ofScaled (decide (nanoseconds < 0) != false) hproduct (by decide) hexponents
  have hspanned : ofInt nanoseconds = finite (nanoseconds < 0) m q := hspanned
  have hsecond : ofInt perSecond = finite false k r := hsecond
  rw [ofNanoseconds, hspanned] at hspan
  obtain rfl := Except.ok.inj hspan
  rw [nanosecondsOfSeconds, hseconds, hsecond, mul, hwhole]
  exact ⟨_, rfl⟩

end PrimePaths
