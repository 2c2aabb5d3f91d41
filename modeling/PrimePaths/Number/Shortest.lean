import PrimePaths.Number.Binary64

namespace PrimePaths

/-- Decimal digits without trailing zeros, and the power of ten of the first one. -/
structure Decimal where
  digits : List Char
  exponent : Int
  deriving DecidableEq, Repr

namespace Decimal

structure Layout where
  /-- The exponents that are written without a power of ten. -/
  positionalFrom : Int
  positionalBelow : Int
  /-- The least count of digits in a written exponent. -/
  exponentDigits : Nat
  nan : String
  infinity : String

/-- Positional from `1e-4` to below `1e16`, a fraction always, exponents of two digits or more. -/
def layout : Layout where
  positionalFrom := -4
  positionalBelow := 16
  exponentDigits := 2
  nan := "nan"
  infinity := "inf"

def zeros (count : Nat) : List Char :=
  List.replicate count '0'

/-- The digits with a point after the one of power zero, a zero on each side if nothing stands there. -/
def positional (d : Decimal) : List Char :=
  if d.exponent < 0 then
    '0' :: '.' :: zeros ((-d.exponent).toNat - 1) ++ d.digits
  else
    let whole := d.exponent.toNat + 1
    let shown := d.digits ++ zeros (whole - d.digits.length)
    let fraction := shown.drop whole
    shown.take whole ++ '.' :: (if fraction.isEmpty then ['0'] else fraction)

def scientific (l : Layout) (d : Decimal) : List Char :=
  let e := (toString d.exponent.natAbs).toList
  let fraction := d.digits.drop 1
  d.digits.take 1 ++ (if fraction.isEmpty then [] else '.' :: fraction) ++
    'e' :: (if d.exponent < 0 then '-' else '+') :: zeros (l.exponentDigits - e.length) ++ e

def text (l : Layout) (d : Decimal) : String :=
  String.ofList <|
    if l.positionalFrom ≤ d.exponent ∧ d.exponent < l.positionalBelow then positional d
    else scientific l d

/-- The decimal of `count * 10 ^ exponent`. -/
def ofCount (count : Nat) (exponent : Int) : Decimal :=
  let ds := (toString count).toList
  let kept := (ds.reverse.dropWhile (· == '0')).reverse
  { digits := if kept.isEmpty then ['0'] else kept
    exponent := exponent + ds.length - 1 }

end Decimal

namespace Binary64

/-- The power of ten of the first digit of `num / den`. -/
private def leadingPower (num den : Nat) : Int :=
  if den ≤ num then ((toString (num / den)).length : Int) - 1
  else
    let below := (toString (den / num)).length - 1
    if den ≤ num * Nat.pow 10 below then -(below : Int) else -(below : Int) - 1

/-- The numbers that round to a given one, all over the denominator `den`. -/
private structure Interval where
  low : Nat
  value : Nat
  high : Nat
  den : Nat
  closed : Bool

private def Interval.holds (i : Interval) (num den : Nat) : Bool :=
  if i.closed then i.low * den ≤ num * i.den && num * i.den ≤ i.high * den
  else i.low * den < num * i.den && num * i.den < i.high * den

/-- The reals nearer to `m * 2 ^ q` than to its neighbours, the ends included if `m` is even. -/
private def interval (m : Nat) (q : Int) : Interval :=
  let narrow := m = 1 <<< (precision - 1) ∧ minExponent < q
  let low := 4 * m - if narrow then 1 else 2
  let (scale, den) := if 2 ≤ q then (1 <<< (q - 2).toNat, 1) else (1, 1 <<< (2 - q).toNat)
  { low := low * scale, value := 4 * m * scale, high := (4 * m + 2) * scale, den, closed := m % 2 == 0 }

/-- The neighbours of the value on the grid of `10 ^ power`: the one in the interval that is nearer. -/
private def onGrid? (i : Interval) (power : Int) : Option Decimal :=
  let (up, down) := if 0 ≤ power then (Nat.pow 10 power.toNat, 1) else (1, Nat.pow 10 (-power).toNat)
  let below := i.value * down / (i.den * up)
  let above := below + 1
  let inside (count : Nat) : Bool := 0 < count && i.holds (count * up) down
  let toBelow := i.value * down - below * up * i.den
  let toAbove := above * up * i.den - i.value * down
  let belowFirst := toBelow < toAbove || (toBelow == toAbove && below % 2 == 0)
  let order := if belowFirst then [below, above] else [above, below]
  (order.find? inside).map fun count => Decimal.ofCount count power

/-- The decimal with the fewest digits that rounds to `m * 2 ^ q`, the nearest one of those. -/
def shortest (m : Nat) (q : Int) : Decimal :=
  if m = 0 then { digits := ['0'], exponent := 0 } else
  let i := interval m q
  let lead := leadingPower i.value i.den
  let grids := (List.range 17).map fun (k : Nat) => lead - k
  (grids.findSome? (onGrid? i)).getD (Decimal.ofCount 0 0)

private theorem exists_ofCount_onGrid? {i : Interval} {power : Int} {d : Decimal}
    (h : onGrid? i power = some d) : ∃ count, 0 < count ∧ d = Decimal.ofCount count power := by
  obtain ⟨count, hcount, rfl⟩ := Option.map_eq_some_iff.mp h
  have hinside := List.find?_some hcount
  exact ⟨count, of_decide_eq_true (Bool.and_eq_true_iff.mp hinside).1, rfl⟩

/-- The shortest decimal counts powers of ten, and none of them only if it is zero. -/
theorem exists_ofCount_shortest (m : Nat) (q : Int) :
    ∃ count power, shortest m q = Decimal.ofCount count power ∧ (count = 0 → power = 0) := by
  unfold shortest
  split
  · exact ⟨0, 0, by decide, fun _ => rfl⟩
  · dsimp only
    cases hfound : ((List.range 17).map fun (k : Nat) =>
      leadingPower (interval m q).value (interval m q).den - k).findSome? (onGrid? (interval m q)) with
    | none => exact ⟨0, 0, rfl, fun _ => rfl⟩
    | some d =>
      obtain ⟨power, -, hd⟩ := List.exists_of_findSome?_eq_some hfound
      obtain ⟨count, hcount, rfl⟩ := exists_ofCount_onGrid? hd
      exact ⟨count, power, rfl, fun hzero => absurd hzero (Nat.ne_of_gt hcount)⟩

/-- The shortest text that reads back as the number. -/
def text : Binary64 → String
  | nan => Decimal.layout.nan
  | infinite s => (if s then "-" else "") ++ Decimal.layout.infinity
  | finite s m q => (if s then "-" else "") ++ (shortest m q).text Decimal.layout

/-- The number with a fixed count of places; a half goes to the even last digit. -/
def fixed (places : Nat) : Binary64 → String
  | nan => Decimal.layout.nan
  | infinite s => (if s then "-" else "") ++ Decimal.layout.infinity
  | finite s m q =>
    let count :=
      if 0 ≤ q then m <<< q.toNat * Nat.pow 10 places
      else roundHalfEven (m * Nat.pow 10 places) (1 <<< (-q).toNat)
    let ds := (toString count).toList
    let ds := List.replicate (places + 1 - ds.length) '0' ++ ds
    let whole := ds.length - places
    (if s then "-" else "") ++ String.ofList (ds.take whole) ++
      if places = 0 then "" else "." ++ String.ofList (ds.drop whole)

end Binary64

end PrimePaths
