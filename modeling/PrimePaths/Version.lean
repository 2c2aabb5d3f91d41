import PrimePaths.Crash
import PrimePaths.Number.Reading
import PrimePaths.Text.Lines

namespace PrimePaths.Version

/-- The digits after blanks at the front of a text. -/
def numberAfterBlanks? (cs : List Char) : Option (List Char) :=
  let ds := (cs.dropWhile Text.isBlank).takeWhile Text.isDigit
  if (cs.takeWhile Text.isBlank).isEmpty || ds.isEmpty then none else some ds

/-- The number after the first word "Version" that has one after it. -/
def digits? : List Char → Option (List Char)
  | [] => none
  | c :: cs =>
    let word := "Version".toList
    let here := if word.isPrefixOf (c :: cs) then numberAfterBlanks? ((c :: cs).drop word.length) else none
    here <|> digits? cs

def ofLine (line : List Char) : Except Crash (Option Nat) :=
  match digits? (Text.strip line) with
  | none => .ok none
  | some ds =>
    if Crash.maxDigits < ds.length then .error (.tooManyDigits ds.length)
    else .ok (Text.ofDigits? ds)

/-- The version in a file; there is none in a file that cannot be opened. -/
def ofFile (bytes : Except Crash ByteArray) : Except Crash (Option Nat) :=
  match bytes with
  | .error .nullInName => .error .nullInName
  | .error _ => .ok none
  | .ok bytes =>
    match Text.firstLine bytes with
    | .error _ => .error .notText
    | .ok line => ofLine line

end PrimePaths.Version
