import PrimePaths.Number.Basic
import PrimePaths.Proofs.Json.Grammar
import Mathlib.Data.List.DropRight

namespace PrimePaths

open Json

section Digits

variable {c : Char} {cs : List Char}

theorem Json.Digits.append (h : ∀ c ∈ cs, c.isDigit = true) (hne : cs ≠ []) (rest : List Char) :
    Digits (cs ++ rest) rest := by
  induction cs with
  | nil => exact absurd rfl hne
  | cons c cs ih =>
    have hc := h c List.mem_cons_self
    cases cs with
    | nil => exact .one hc
    | cons c' cs => exact .more hc (ih (fun d hd => h d (List.mem_cons_of_mem c hd)) (List.cons_ne_nil _ _))

theorem Json.Whole.append (h : ∀ d ∈ c :: cs, d.isDigit = true) (hzero : c = '0' → cs = [])
    (rest : List Char) : Whole (c :: cs ++ rest) rest := by
  by_cases hc : c = '0'
  · obtain rfl := hzero hc
    subst hc
    exact .zero
  · exact .digits hc (Digits.append h (List.cons_ne_nil c cs) rest)

theorem Json.Whole.one (hc : c.isDigit = true) (rest : List Char) : Whole (c :: rest) rest :=
  Whole.append (List.forall_mem_singleton.mpr hc) (fun _ => rfl) rest

theorem isDigit_toDigits {n : Nat} : ∀ c ∈ Nat.toDigits 10 n, c.isDigit = true :=
  fun _ hc => Nat.isDigit_of_mem_toDigits (by decide) (by decide) hc

/-- A number that is not zero does not begin with a zero. -/
theorem exists_toDigits_eq_cons {n : Nat} (h : n ≠ 0) : ∃ c cs, Nat.toDigits 10 n = c :: cs ∧ c ≠ '0' := by
  induction n using Nat.strongRecOn with
  | ind n ih =>
    rcases Nat.lt_or_ge n 10 with hless | hmore
    · rw [Nat.toDigits_of_lt_base hless]
      have hchars : ∀ n < 10, n ≠ 0 → Nat.digitChar n ≠ '0' := by decide
      exact ⟨_, [], rfl, hchars n hless h⟩
    · obtain ⟨c, cs, hcs, hc⟩ := ih (n / 10) (by omega) (by omega)
      rw [Nat.toDigits_of_base_le (by decide) hmore, hcs]
      exact ⟨c, _, rfl, hc⟩

theorem whole_toDigits (n : Nat) (rest : List Char) : Whole (Nat.toDigits 10 n ++ rest) rest := by
  by_cases hn : n = 0
  · subst hn
    exact .zero
  · obtain ⟨c, cs, hcs, hc⟩ := exists_toDigits_eq_cons hn
    have hdigits := isDigit_toDigits (n := n)
    rw [hcs] at hdigits ⊢
    exact Whole.append hdigits (fun h => absurd h hc) rest

end Digits

namespace Decimal

variable {d : Decimal}

/-- Digits, of which a zero is the first one only if it is the only one. -/
structure Proper (d : Decimal) : Prop where
  digits : ∀ c ∈ d.digits, c.isDigit = true
  first : ∃ c cs, d.digits = c :: cs ∧ (c = '0' → cs = [] ∧ d.exponent = 0)

theorem isDigit_zeros (k : Nat) : ∀ c ∈ zeros k, c.isDigit = true := by
  intro c hc
  obtain rfl := List.eq_of_mem_replicate hc
  rfl

theorem proper_ofCount {count : Nat} {power : Int} (h : count = 0 → power = 0) :
    (ofCount count power).Proper := by
  by_cases hcount : count = 0
  · obtain rfl := h hcount
    subst hcount
    have hdigits : (ofCount 0 0).digits = ['0'] := by decide
    exact ⟨by simp [hdigits], '0', [], hdigits, fun _ => ⟨rfl, by decide⟩⟩
  · obtain ⟨c, cs, hcs, hc⟩ := exists_toDigits_eq_cons hcount
    have hdigits := isDigit_toDigits (n := count)
    have htext : (toString count).toList = c :: cs := Nat.toList_repr.trans hcs
    rw [hcs] at hdigits
    -- Without the zeros at its end, the text begins as before.
    have hfront : (c :: cs).rdropWhile (· == '0') <+: c :: cs := List.rdropWhile_prefix _ _
    have hsome : (c :: cs).rdropWhile (· == '0') ≠ [] := by
      rw [Ne, List.rdropWhile_eq_nil_iff]
      intro hzeros
      exact hc (beq_iff_eq.mp (hzeros c List.mem_cons_self))
    have hofCount : (ofCount count power).digits = (c :: cs).rdropWhile (· == '0') := by
      simp only [ofCount, htext]
      rw [← List.rdropWhile, if_neg (by simpa using hsome)]
    refine ⟨fun d hd => hdigits d (hfront.subset (hofCount ▸ hd)), ?_⟩
    rw [hofCount]
    cases hkept : (c :: cs).rdropWhile (· == '0') with
    | nil => exact absurd hkept hsome
    | cons c' cs' =>
      rw [hkept] at hfront
      obtain ⟨rfl, -⟩ := List.cons_prefix_cons.mp hfront
      exact ⟨_, _, rfl, fun h => absurd h hc⟩

/-- The digits up to the point, the first one included. -/
theorem exists_take (h : d.Proper) (k : Nat) :
    ∃ c cs, (d.digits ++ zeros k).take (d.exponent.toNat + 1) = c :: cs ∧ (c = '0' → cs = []) := by
  obtain ⟨c, cs, hcs, hfirst⟩ := h.first
  refine ⟨c, (cs ++ zeros k).take d.exponent.toNat, by rw [hcs, List.cons_append, List.take_succ_cons], ?_⟩
  intro hzero
  obtain ⟨-, hexponent⟩ := hfirst hzero
  rw [hexponent]
  rfl

theorem exists_positional (h : d.Proper) (rest : List Char) :
    ∃ b, Whole (positional d ++ rest) b ∧ Fraction b rest := by
  obtain ⟨first, more, hfirst, -⟩ := h.first
  unfold positional
  split
  · have hdigits := List.forall_mem_append.mpr ⟨isDigit_zeros ((-d.exponent).toNat - 1), h.digits⟩
    have hsome : zeros ((-d.exponent).toNat - 1) ++ d.digits ≠ [] := by simp [hfirst]
    exact ⟨_, .zero, .some (Digits.append hdigits hsome rest)⟩
  · dsimp only
    generalize d.exponent.toNat + 1 - d.digits.length = k
    have hshown := List.forall_mem_append.mpr ⟨h.digits, isDigit_zeros k⟩
    obtain ⟨c, cs, htake, hzero⟩ := exists_take h k
    have hwhole : ∀ c' ∈ c :: cs, c'.isDigit = true := by
      rw [← htake]
      exact fun c' hc' => hshown c' (List.mem_of_mem_take hc')
    have hfraction : ∀ c' ∈ (d.digits ++ zeros k).drop (d.exponent.toNat + 1), c'.isDigit = true :=
      fun c' hc' => hshown c' (List.mem_of_mem_drop hc')
    rw [htake, List.append_assoc]
    refine ⟨_, Whole.append hwhole hzero _, .some ?_⟩
    split
    · exact .one rfl
    · rename_i hsome
      exact Digits.append hfraction (by simpa using hsome) rest

theorem exists_scientific (h : d.Proper) (l : Layout) (rest : List Char) :
    ∃ b c, Whole (scientific l d ++ rest) b ∧ Fraction b c ∧ Exponent c rest := by
  obtain ⟨c, cs, hcs, -⟩ := h.first
  have hdigits := h.digits
  rw [hcs] at hdigits
  have hhead : c.isDigit = true := hdigits c List.mem_cons_self
  have htail : ∀ c' ∈ cs, c'.isDigit = true := fun c' hc' => hdigits c' (List.mem_cons_of_mem c hc')
  have htext : (toString d.exponent.natAbs).toList = Nat.toDigits 10 d.exponent.natAbs := Nat.toList_repr
  simp only [scientific, htext, hcs, List.take_succ_cons, List.take_zero, List.drop_succ_cons, List.drop_zero]
  generalize hzeros : zeros (l.exponentDigits - (Nat.toDigits 10 d.exponent.natAbs).length) = front
  have hpower : ∀ c' ∈ front ++ Nat.toDigits 10 d.exponent.natAbs, c'.isDigit = true := by
    rw [← hzeros]
    exact List.forall_mem_append.mpr ⟨isDigit_zeros _, isDigit_toDigits⟩
  have hsome : front ++ Nat.toDigits 10 d.exponent.natAbs ≠ [] := by simp [Nat.toDigits_ne_nil]
  have hsign : [if d.exponent < 0 then '-' else '+'] ∈ ([[], ['+'], ['-']] : List (List Char)) := by
    split <;> decide
  have hexponent := Exponent.some (c := 'e') (by decide) hsign (Digits.append hpower hsome rest)
  simp only [List.append_assoc, List.cons_append, List.nil_append] at hexponent ⊢
  refine ⟨_, _, Whole.one hhead _, ?_, hexponent⟩
  cases cs with
  | nil => exact .none
  | cons c' cs => exact .some (Digits.append htail (List.cons_ne_nil c' cs) _)

/-- A decimal is written by digits, digits behind a point, and a power of ten. -/
theorem exists_text (h : d.Proper) (l : Layout) (rest : List Char) :
    ∃ b c, Whole ((d.text l).toList ++ rest) b ∧ Fraction b c ∧ Exponent c rest := by
  rw [text, String.toList_ofList]
  split
  · obtain ⟨b, hb, hrest⟩ := exists_positional h rest
    exact ⟨b, rest, hb, hrest, .none⟩
  · exact exists_scientific h l rest

end Decimal

namespace Number

/-- A number that is none of the words for numbers. -/
def Finite : Number → Prop
  | whole _ => True
  | floating (.finite ..) => True
  | floating _ => False

instance : DecidablePred Finite
  | whole _ => .isTrue trivial
  | floating (.finite ..) => .isTrue trivial
  | floating .nan => .isFalse id
  | floating (.infinite _) => .isFalse id

section Sign

variable {a b c rest : List Char}

theorem numeral_unsigned (ha : Whole a b) (hb : Fraction b c) (hc : Exponent c rest) : Numeral a rest :=
  have hsign : [] ∈ ([[], ['-']] : List (List Char)) := by decide
  .parts hsign ha hb hc

theorem numeral_negative (ha : Whole a b) (hb : Fraction b c) (hc : Exponent c rest) :
    Numeral ('-' :: a) rest :=
  have hsign : ['-'] ∈ ([[], ['-']] : List (List Char)) := by decide
  .parts hsign ha hb hc

end Sign

theorem numeral_text {n : Number} (h : n.Finite) (rest : List Char) :
    Numeral (n.text.toList ++ rest) rest := by
  match n with
  | whole (.ofNat k) =>
    have htext : (whole (.ofNat k)).text.toList = Nat.toDigits 10 k := Nat.toList_repr
    rw [htext]
    exact numeral_unsigned (whole_toDigits k rest) .none .none
  | whole (.negSucc k) =>
    have htext : (whole (.negSucc k)).text.toList = '-' :: Nat.toDigits 10 (k + 1) := by
      rw [← Nat.toList_repr]
      exact String.toList_append
    rw [htext]
    exact numeral_negative (whole_toDigits (k + 1) rest) .none .none
  | floating (.finite negative m q) =>
    obtain ⟨count, power, hshortest, hzero⟩ := Binary64.exists_ofCount_shortest m q
    obtain ⟨b, c, ha, hb, hc⟩ := Decimal.exists_text (Decimal.proper_ofCount hzero) Decimal.layout rest
    have htext : (floating (.finite negative m q)).text =
        (if negative then "-" else "") ++ (Decimal.ofCount count power).text Decimal.layout := by
      rw [← hshortest]
      rfl
    rw [htext, String.toList_append, List.append_assoc]
    cases negative
    · exact numeral_unsigned ha hb hc
    · exact numeral_negative ha hb hc

end Number
end PrimePaths
