namespace PrimePaths

/-- The whole number nearest to `num / den`; a half goes to the even neighbour. -/
def roundHalfEven (num den : Nat) : Nat :=
  let whole := num / den
  let double := 2 * (num % den)
  if double < den then whole
  else if den < double then whole + 1
  else whole + whole % 2

theorem roundHalfEven_le {num den bound : Nat} (h : num < den * bound) : roundHalfEven num den ≤ bound := by
  have hwhole : num / den < bound := Nat.div_lt_of_lt_mul h
  unfold roundHalfEven
  dsimp only
  split
  · omega
  · split <;> omega

/-- A 64 bit floating point number; a finite one stands for `m * 2 ^ q`, negated if asked. -/
inductive Binary64
  | nan
  | infinite (negative : Bool)
  | finite (negative : Bool) (m : Nat) (q : Int)
  deriving DecidableEq, Repr

namespace Binary64

/-- Finite numbers have significands below `2 ^ precision`. -/
def precision : Nat := 53

/-- The least exponent, at which significands may be small. -/
def minExponent : Int := -1074

def maxExponent : Int := 971

def zero (negative : Bool) : Binary64 :=
  finite negative 0 minExponent

/-- The quotient `num / den` over `2 ^ q`, as numerator and denominator. -/
private def scaled (num den : Nat) (q : Int) : Nat × Nat :=
  if 0 ≤ q then (num, den <<< q.toNat) else (num <<< (-q).toNat, den)

/-- Whether `num / den` is below `2 ^ precision * 2 ^ q`. -/
private def fits (num den : Nat) (q : Int) : Bool :=
  let s := scaled num den q
  s.1 < s.2 <<< precision

/-- The exponent at which `num / den` has a significand of full width, or the least one. -/
private def exponentFor (num den : Nat) : Int :=
  let low : Int := (num.log2 : Int) - den.log2 - precision
  let q := if fits num den low then low else low + 1
  max q minExponent

/-- The number nearest to `num / den`. -/
def nearest (negative : Bool) (num den : Nat) : Binary64 :=
  if num = 0 then zero negative else
  let q := exponentFor num den
  let s := scaled num den q
  let m := roundHalfEven s.1 s.2
  let (m, q) := if m = 1 <<< precision then (1 <<< (precision - 1), q + 1) else (m, q)
  if maxExponent < q then infinite negative else finite negative m q

def ofInt (i : Int) : Binary64 :=
  nearest (i < 0) i.natAbs 1

private theorem exponentFor_le (num den : Nat) :
    exponentFor num den ≤ max ((num.log2 : Int) - den.log2 + 1 - precision) minExponent := by
  simp only [exponentFor]
  split <;> omega

private theorem fits_of_lt {num den : Nat} (hden : 0 < den) {q : Int}
    (h : (num.log2 : Int) - den.log2 - precision < q) : fits num den q = true := by
  have hnum : num < 2 ^ (num.log2 + 1) := Nat.lt_log2_self
  have hden : 2 ^ den.log2 ≤ den := Nat.log2_self_le (Nat.ne_of_gt hden)
  simp only [fits, scaled]
  split
  · apply decide_eq_true
    have hexponent : num.log2 + 1 ≤ den.log2 + q.toNat + precision := by omega
    simp only [Nat.shiftLeft_eq]
    calc num < 2 ^ (num.log2 + 1) := hnum
      _ ≤ 2 ^ (den.log2 + q.toNat + precision) := Nat.pow_le_pow_right (by decide) hexponent
      _ = 2 ^ den.log2 * 2 ^ q.toNat * 2 ^ precision := by rw [Nat.pow_add, Nat.pow_add]
      _ ≤ den * 2 ^ q.toNat * 2 ^ precision := Nat.mul_le_mul_right _ (Nat.mul_le_mul_right _ hden)
  · apply decide_eq_true
    have hexponent : num.log2 + 1 + (-q).toNat ≤ den.log2 + precision := by omega
    simp only [Nat.shiftLeft_eq]
    calc num * 2 ^ (-q).toNat < 2 ^ (num.log2 + 1) * 2 ^ (-q).toNat :=
          Nat.mul_lt_mul_of_pos_right hnum (Nat.two_pow_pos _)
      _ = 2 ^ (num.log2 + 1 + (-q).toNat) := (Nat.pow_add ..).symm
      _ ≤ 2 ^ (den.log2 + precision) := Nat.pow_le_pow_right (by decide) hexponent
      _ = 2 ^ den.log2 * 2 ^ precision := Nat.pow_add ..
      _ ≤ den * 2 ^ precision := Nat.mul_le_mul_right _ hden

/-- The exponent of a quotient leaves no more than the width of a significand. -/
private theorem fits_exponentFor (num : Nat) {den : Nat} (hden : 0 < den) :
    fits num den (exponentFor num den) = true := by
  by_cases hlow : fits num den ((num.log2 : Int) - den.log2 - precision) = true
  · simp only [exponentFor, hlow, if_true]
    rcases Int.lt_or_le ((num.log2 : Int) - den.log2 - precision) minExponent with hmin | hmin
    · exact fits_of_lt hden (by omega)
    · rw [Int.max_eq_left hmin]
      exact hlow
  · refine fits_of_lt hden ?_
    simp only [exponentFor, hlow, Bool.false_eq_true, if_false]
    omega

/-- The number nearest to a quotient has a significand that is no wider than that of others, and an exponent
that goes with the quotient. It is infinite if this exponent is too large. -/
theorem nearest_eq (negative : Bool) (num : Nat) {den : Nat} (hden : 0 < den) :
    ∃ m q, m ≤ 1 <<< precision ∧ q ≤ max ((num.log2 : Int) - den.log2 - 51) (minExponent + 1) ∧
      nearest negative num den = if maxExponent < q then infinite negative else finite negative m q := by
  have hexponent := exponentFor_le num den
  have hfits := fits_exponentFor num hden
  simp only [fits, decide_eq_true_eq, Nat.shiftLeft_eq] at hfits
  have hm := roundHalfEven_le hfits
  rw [← Nat.one_shiftLeft] at hm
  simp only [precision, minExponent] at hexponent
  unfold nearest
  split
  · exact ⟨0, minExponent, Nat.zero_le _, by omega, rfl⟩
  · dsimp only
    split
    · have hcarry : 1 <<< (precision - 1) ≤ 1 <<< precision := by decide
      refine ⟨1 <<< (precision - 1), exponentFor num den + 1, hcarry, ?_, rfl⟩
      simp only [minExponent]
      omega
    · dsimp only
      refine ⟨_, exponentFor num den, hm, ?_, rfl⟩
      simp only [minExponent]
      omega

/-- It is finite unless the quotient is very large. -/
theorem exists_nearest (negative : Bool) {num den : Nat} (hden : 0 < den)
    (h : (num.log2 : Int) - den.log2 ≤ 1000) :
    ∃ m q, nearest negative num den = finite negative m q ∧ m ≤ 1 <<< precision ∧
      q ≤ max ((num.log2 : Int) - den.log2 - 51) (minExponent + 1) := by
  obtain ⟨m, q, hm, hq, hnearest⟩ := nearest_eq negative num hden
  have hless : ¬maxExponent < q := by
    simp only [minExponent] at hq
    simp only [maxExponent]
    omega
  rw [if_neg hless] at hnearest
  exact ⟨m, q, hnearest, hm, hq⟩

/-- A whole number of 64 bits has a finite number nearest to it. -/
theorem ofInt_ne_infinite {i : Int} (h : i.natAbs.log2 < 64) (negative : Bool) :
    ofInt i ≠ infinite negative := by
  have hlog : (i.natAbs.log2 : Int) - Nat.log2 1 ≤ 1000 := by omega
  obtain ⟨m, q, hnearest, -, -⟩ := exists_nearest (i < 0) Nat.one_pos hlog
  rw [ofInt, hnearest]
  nofun

/-- The number nearest to `m * 2 ^ q`. -/
def ofScaled (negative : Bool) (m : Nat) (q : Int) : Binary64 :=
  if 0 ≤ q then nearest negative (m <<< q.toNat) 1 else nearest negative m (1 <<< (-q).toNat)

def neg : Binary64 → Binary64
  | nan => nan
  | infinite s => infinite !s
  | finite s m q => finite (!s) m q

/-- Brings two scaled integers to the smaller exponent. -/
private def align (a b : Int × Int) : Int × Int × Int :=
  let q := min a.2 b.2
  (a.1 * (1 <<< (a.2 - q).toNat : Nat), b.1 * (1 <<< (b.2 - q).toNat : Nat), q)

/-- The difference; two equal numbers have the difference `0.0`. -/
def sub : Binary64 → Binary64 → Binary64
  | nan, _ => nan
  | _, nan => nan
  | infinite s, infinite t => if s = t then nan else infinite s
  | infinite s, finite .. => infinite s
  | finite .., infinite t => infinite !t
  | finite s m q, finite t k r =>
    if m = 0 ∧ k = 0 then zero (s && !t) else
    let (a, b, e) := align (if s then -m else m, q) (if t then -k else k, r)
    ofScaled (a - b < 0) (a - b).natAbs e

def mul : Binary64 → Binary64 → Binary64
  | nan, _ => nan
  | _, nan => nan
  | infinite s, infinite t => infinite (s != t)
  | infinite s, finite t m _ => if m = 0 then nan else infinite (s != t)
  | finite s m _, infinite t => if m = 0 then nan else infinite (s != t)
  | finite s m q, finite t k r => ofScaled (s != t) (m * k) (q + r)

/-- The quotient by a positive whole number. -/
def divNat : Binary64 → Nat → Binary64
  | nan, _ => nan
  | infinite s, _ => infinite s
  | finite s m q, d =>
    if 0 ≤ q then nearest s (m <<< q.toNat) d else nearest s m (d <<< (-q).toNat)

/-- The order of the numbers; NaN is neither below nor above any number. -/
def lt : Binary64 → Binary64 → Bool
  | nan, _ => false
  | _, nan => false
  | infinite s, infinite t => s && !t
  | infinite s, finite .. => s
  | finite .., infinite t => !t
  | finite s m q, finite t k r =>
    let (a, b, _) := align (if s then -m else m, q) (if t then -k else k, r)
    a < b

/-- Drops the places after the point, of a finite number. -/
def truncate? : Binary64 → Option Int
  | finite s m q =>
    let whole : Nat := if 0 ≤ q then m <<< q.toNat else m >>> (-q).toNat
    some (if s then -whole else whole)
  | _ => none

end Binary64

end PrimePaths
