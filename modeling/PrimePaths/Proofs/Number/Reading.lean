import PrimePaths.Number.Reading
import PrimePaths.Text.Character
import Mathlib.Algebra.Group.Int.Defs
import Mathlib.Algebra.Group.Nat.Defs

namespace PrimePaths.Text

variable {c : Char} {cs : List Char}

theorem digitValue?_of_isDigit (h : c.isDigit = true) : digitValue? c = some (c.toNat - '0'.toNat) := by
  have hrange : 48 ≤ c.toNat ∧ c.toNat ≤ 57 := Char.isDigit_iff_toNat.mp h
  have hlow : 0x30 ≤ c.toNat := hrange.1
  have hhigh : c.toNat < 0x30 + 10 := by omega
  have hfirst : zeroDigits.find? (fun z => z ≤ c.toNat && c.toNat < z + 10) = some 0x30 := by
    rw [zeroDigits, List.find?_cons_of_pos]
    simp only [hlow, hhigh, decide_true, Bool.and_true]
  rw [digitValue?, hfirst]
  rfl

theorem isDigit_of_mem_toDigits {n : Nat} (h : c ∈ Nat.toDigits 10 n) : isDigit c = true := by
  have hdigit := Nat.isDigit_of_mem_toDigits (by decide) (by decide) h
  rw [isDigit, digitValue?_of_isDigit hdigit]
  rfl

/-- Digits read from a number on are put behind it. -/
theorem foldlM_digitValue? {n : Nat} (h : ∀ c ∈ cs, c.isDigit = true) :
    cs.foldlM (fun n c => (digitValue? c).map (10 * n + ·)) n = some (Nat.ofDigitChars 10 cs n) := by
  induction cs generalizing n with
  | nil => rfl
  | cons c cs ih =>
    have hc := digitValue?_of_isDigit (h c List.mem_cons_self)
    have hrest := @ih (10 * n + (c.toNat - '0'.toNat)) fun d hd => h d (List.mem_cons_of_mem c hd)
    rw [List.foldlM_cons, hc, Nat.ofDigitChars_cons, ← hrest]
    rfl

theorem ofDigits?_toDigits (n : Nat) : ofDigits? (Nat.toDigits 10 n) = some n := by
  have hsome : (Nat.toDigits 10 n).isEmpty = false := by
    simp [Nat.toDigits_ne_nil]
  have hdigits : ∀ c ∈ Nat.toDigits 10 n, c.isDigit = true := fun c hc =>
    Nat.isDigit_of_mem_toDigits (by decide) (by decide) hc
  rw [ofDigits?, hsome, foldlM_digitValue? hdigits, Nat.ofDigitChars_ten_toDigits]
  rfl

section Bounds

variable {d n k : Nat}

theorem digitValue?_lt (h : digitValue? c = some d) : d < 10 := by
  obtain ⟨z, hz, rfl⟩ := Option.map_eq_some_iff.mp h
  have hrange := List.find?_some hz
  simp only [Bool.and_eq_true, decide_eq_true_eq] at hrange
  omega

/-- One more digit makes a number at most one digit longer. -/
theorem append_digit_lt (hn : n < 10 ^ k) (hd : d < 10) : 10 * n + d < 10 ^ (k + 1) := by
  rw [Nat.pow_succ]
  omega

theorem foldlM_digitValue?_lt {v : Nat} (hn : n < 10 ^ k)
    (h : cs.foldlM (fun n c => (digitValue? c).map (10 * n + ·)) n = some v) : v < 10 ^ (k + cs.length) := by
  induction cs generalizing n k with
  | nil =>
    obtain rfl := Option.some.inj h
    exact hn
  | cons c cs ih =>
    rw [List.foldlM_cons] at h
    obtain ⟨m, hm, hrest⟩ := Option.bind_eq_some_iff.mp h
    obtain ⟨d, hd, rfl⟩ := Option.map_eq_some_iff.mp hm
    have hlast := ih (append_digit_lt hn (digitValue?_lt hd)) hrest
    rwa [List.length_cons, Nat.add_comm cs.length, ← Nat.add_assoc]

theorem ofDigits?_lt (h : ofDigits? cs = some n) : n < 10 ^ cs.length := by
  obtain ⟨-, h⟩ := Option.ite_none_left_eq_some.mp h
  have hlt := foldlM_digitValue?_lt (k := 0) (by decide) h
  rwa [Nat.zero_add] at hlt

end Bounds

end PrimePaths.Text

namespace PrimePaths

variable {cs : List Char} {ds : List Nat} {d : Nat}

theorem groupedDigits?_lt (h : groupedDigits? cs = some ds) (hd : d ∈ ds) : d < 10 := by
  fun_induction groupedDigits? cs generalizing ds with
  | case1 => cases h
  | case2 c =>
    obtain ⟨e, he, rfl⟩ := Option.map_eq_some_iff.mp h
    rw [List.mem_singleton.mp hd]
    exact Text.digitValue?_lt he
  | case3 c cs ih | case4 c cs _ _ ih =>
    obtain ⟨e, he, h⟩ := Option.bind_eq_some_iff.mp h
    obtain ⟨rest, hrest, h⟩ := Option.bind_eq_some_iff.mp h
    obtain rfl := Option.some.inj h
    rcases List.mem_cons.mp hd with rfl | hd
    · exact Text.digitValue?_lt he
    · exact ih hrest hd

theorem natOfDigits_lt (h : ∀ d ∈ ds, d < 10) : natOfDigits ds < 10 ^ ds.length := by
  suffices hfold : ∀ n k, n < 10 ^ k → ds.foldl (fun n d => 10 * n + d) n < 10 ^ (k + ds.length) by
    have hall := hfold 0 0 (by decide)
    rwa [Nat.zero_add] at hall
  induction ds with
  | nil => exact fun n k hn => hn
  | cons d ds ih =>
    intro n k hn
    have hrest := ih (fun e he => h e (List.mem_cons_of_mem d he)) (10 * n + d) (k + 1)
      (Text.append_digit_lt hn (h d List.mem_cons_self))
    rwa [List.length_cons, Nat.add_comm ds.length, ← Nat.add_assoc]

theorem Number.writable_whole_iff {i : Int} :
    (Number.whole i).Writable ↔ i.natAbs < 10 ^ Crash.maxDigits := by
  have hpow (k : Nat) : Nat.pow 10 k = 10 ^ k := rfl
  rw [Number.Writable, hpow]

/-- The least number that is too long. -/
theorem Number.not_writable_pow : ¬(Number.whole (10 ^ Crash.maxDigits)).Writable := by
  have hsize (k : Nat) : ((10 : Int) ^ k).natAbs = 10 ^ k := Int.natAbs_pow 10 k
  rw [Number.writable_whole_iff, hsize]
  exact Nat.lt_irrefl (10 ^ Crash.maxDigits)

/-- A whole number that could be read can be written. -/
theorem writable_of_readInt? {s : String} {i : Int} (h : readInt? s = some i) :
    (Number.whole i).Writable := by
  unfold readInt? at h
  dsimp only at h
  obtain ⟨ds, hds, h⟩ := Option.bind_eq_some_iff.mp h
  obtain ⟨hshort, h⟩ := Option.ite_none_right_eq_some.mp h
  have hlt := Nat.lt_of_lt_of_le (natOfDigits_lt fun d => groupedDigits?_lt hds)
    (Nat.pow_le_pow_right (by decide) hshort)
  rw [← Option.some.inj h, Number.writable_whole_iff]
  split <;> omega

end PrimePaths
