import PrimePaths.Crash
import PrimePaths.Number.Basic
import PrimePaths.Text.Character

namespace PrimePaths

/-- White space around a number: all but the four separator controls. -/
def isNumberBlank (c : Char) : Bool :=
  Text.isBlank c && !(0x1c ≤ c.toNat && c.toNat ≤ 0x1f)

/-- The values of digits that stand alone or with one underscore between two of them. -/
def groupedDigits? : List Char → Option (List Nat)
  | [] => none
  | [c] => (Text.digitValue? c).map ([·])
  | c :: '_' :: cs => do
    let d ← Text.digitValue? c
    return d :: (← groupedDigits? cs)
  | c :: cs => do
    let d ← Text.digitValue? c
    return d :: (← groupedDigits? cs)

def natOfDigits (ds : List Nat) : Nat :=
  ds.foldl (fun n d => 10 * n + d) 0

/-- Takes a sign off the front: whether it was a minus, and the rest. -/
def takeSign : List Char → Bool × List Char
  | '-' :: cs => (true, cs)
  | '+' :: cs => (false, cs)
  | cs => (false, cs)

/-- A whole number: white space, a sign, digits. -/
def readInt? (s : String) : Option Int := do
  let (negative, cs) := takeSign (Text.stripOf isNumberBlank s.toList)
  let ds ← groupedDigits? cs
  if ds.length ≤ Crash.maxDigits then
    some (if negative then -(natOfDigits ds : Int) else natOfDigits ds)
  else none

namespace Binary64

/-- Decimal exponents beyond this are beyond all numbers. -/
def decimalBound : Int := 400

/-- The number nearest to `count * 10 ^ exponent`. -/
def ofDecimal (negative : Bool) (count : Nat) (exponent : Int) : Binary64 :=
  let size : Int := (toString count).length + exponent
  if count = 0 ∨ size < -decimalBound then zero negative
  else if decimalBound < size then infinite negative
  else if 0 ≤ exponent then nearest negative (count * Nat.pow 10 exponent.toNat) 1
  else nearest negative count (Nat.pow 10 (-exponent).toNat)

end Binary64

/-- The digits of a part of a number that may be missing. -/
private def optionalDigits? (cs : List Char) : Option (List Nat) :=
  if cs.isEmpty then some [] else groupedDigits? cs

/-- The exponent after the digits of a number: none, or a letter, a sign and digits. -/
private def readExponent? : List Char → Option Int
  | [] => some 0
  | c :: cs =>
    if c = 'e' ∨ c = 'E' then do
      let (negative, cs) := takeSign cs
      let ds ← groupedDigits? cs
      return if negative then -(natOfDigits ds : Int) else natOfDigits ds
    else none

/-- A decimal without a sign: digits, a point among them or beside them, an exponent. -/
private def readDecimal? (negative : Bool) (cs : List Char) : Option Binary64 := do
  let isDigitPart (c : Char) : Bool := Text.isDigit c || c == '_'
  let whole := cs.takeWhile isDigitPart
  let rest := cs.dropWhile isDigitPart
  let (fraction, rest) :=
    match rest with
    | '.' :: rest => (rest.takeWhile isDigitPart, rest.dropWhile isDigitPart)
    | rest => ([], rest)
  if whole.isEmpty && fraction.isEmpty then none
  let ws ← optionalDigits? whole
  let fs ← optionalDigits? fraction
  let e ← readExponent? rest
  return .ofDecimal negative (natOfDigits (ws ++ fs)) (e - fs.length)

/-- A floating point number: white space, a sign, then a decimal or a word for NaN or infinity. -/
def readFloat? (s : String) : Option Binary64 :=
  let (negative, cs) := takeSign (Text.stripOf isNumberBlank s.toList)
  let word := String.ofList (cs.map Char.toLower)
  if word = "nan" then some .nan
  else if word = "inf" ∨ word = "infinity" then some (.infinite negative)
  else readDecimal? negative cs

end PrimePaths
