import PrimePaths.Graph.FlowUnit
import PrimePaths.Listing.Error
import PrimePaths.Text.Character
import PrimePaths.Text.Word

namespace PrimePaths.Listing

def blockLine (index : Nat) (b : Block) : String :=
  " ".intercalate ([toString index, if b.live then "live" else "dead"] ++ b.succs.map toString)

def unitLines (name : String) (blocks : List Block) : List String :=
  s!"FUNC {name}" :: blocks.zipIdx.map fun (b, i) => blockLine i b

/-- The text of units, each line with its end. -/
def write (units : List (String × List Block)) : String :=
  String.join ((units.flatMap fun (name, blocks) => unitLines name blocks).map (· ++ "\n"))

end PrimePaths.Listing

namespace PrimePaths

/-- A block line; its numbers are kept as written. -/
structure BlockLine where
  index : List Char
  live : Bool
  succs : List (List Char)
  deriving DecidableEq, Repr

inductive LineContent
  | nothing
  | header (name : String)
  | block (b : BlockLine)
  deriving DecidableEq, Repr

namespace LineContent

/-- The line before its comment, without white space at its ends. -/
def body (line : List Char) : List Char :=
  Text.strip (line.takeWhile (· != '#'))

/-- A control character other than the tab. -/
def isControl (c : Char) : Bool :=
  (c.toNat < 32 && c != '\t') || c.toNat == 127

def isNameChar (c : Char) : Bool :=
  Text.isWordChar c || c == '.' || c == '-'

def isName (cs : List Char) : Bool :=
  !cs.isEmpty && cs.all isNameChar

/-- A number without a sign. -/
def isIndex (cs : List Char) : Bool :=
  !cs.isEmpty && cs.all Text.isDigit

/-- Whether a block is live, in letters of either case. Only ASCII letters have these lower cases. -/
def status? (cs : List Char) : Option Bool :=
  let word := String.ofList (cs.map Char.toLower)
  if word = "live" then some true
  else if word = "dead" then some false
  else none

/-- Reads the words of a line that is not empty. -/
def ofWords (body : List Char) : List (List Char) → Except LineProblem LineContent
  | [] => .ok .nothing
  | first :: rest =>
    if first = "FUNC".toList then
      match rest with
      | [name] =>
        if isName name then .ok (.header (String.ofList name))
        else .error (.invalidName (String.ofList name))
      | _ => .error (.malformedHeader (String.ofList body))
    else
      match rest with
      | [] => .error (.incompleteBlock (String.ofList body))
      | status :: succs =>
        match (first :: succs).find? (!isIndex ·) with
        | some bad => .error (.invalidIndex (String.ofList bad))
        | none =>
          match status? status with
          | none => .error (.invalidStatus (String.ofList status))
          | some live => .ok (.block { index := first, live, succs })

def read (line : List Char) : Except LineProblem LineContent :=
  let body := body line
  if body.isEmpty then .ok .nothing
  else if body.any isControl then .error .controlCharacter
  else ofWords body (Text.words body)

end LineContent

end PrimePaths
