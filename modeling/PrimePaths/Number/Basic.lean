import PrimePaths.Crash
import PrimePaths.Number.Shortest

namespace PrimePaths

inductive Number
  | whole (i : Int)
  | floating (x : Binary64)
  deriving DecidableEq, Repr

namespace Number

def text : Number → String
  | whole i => toString i
  | floating x => x.text

/-- Whether a number is short enough to be written; a floating point number always is. -/
def Writable : Number → Prop
  | whole i => i.natAbs < Nat.pow 10 Crash.maxDigits
  | floating _ => True

instance : DecidablePred Writable
  | whole _ => Nat.decLt _ _
  | floating _ => .isTrue trivial

/-- The floating point number nearest to a number. -/
def toBinary64 : Number → Binary64
  | whole i => .ofInt i
  | floating x => x

def sub : Number → Number → Number
  | whole a, whole b => whole (a - b)
  | a, b => floating (a.toBinary64.sub b.toBinary64)

/-- Whether a whole number is below a floating one; the comparison is exact. -/
private def intLt (i : Int) : Binary64 → Bool
  | .nan => false
  | .infinite s => !s
  | .finite s m q =>
    let v : Int := if s then -m else m
    if 0 ≤ q then i < v * (1 <<< q.toNat : Nat) else i * (1 <<< (-q).toNat : Nat) < v

/-- The exact order of the values; NaN is neither below nor above any number. -/
def lt : Number → Number → Bool
  | whole a, whole b => a < b
  | whole a, floating y => intLt a y
  | floating x, whole b => intLt (-b) x.neg
  | floating x, floating y => x.lt y

def isNaN : Number → Bool
  | floating .nan => true
  | _ => false

/-- Whether a number is below or equal to another one. -/
def le (a b : Number) : Bool :=
  !a.isNaN && !b.isNaN && !b.lt a

end Number

end PrimePaths
