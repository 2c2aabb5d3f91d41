import PrimePaths.Crash
import PrimePaths.FileTree
import PrimePaths.Listing.Line
import PrimePaths.Text.Lines

namespace PrimePaths

inductive LoadFailure
  | input (e : InputError)
  | crash (c : Crash)
  deriving DecidableEq, Repr

namespace Listing

/-- The value of an index, which has to be short enough. -/
def indexValue (cs : List Char) : Except LoadFailure Int :=
  if Crash.maxDigits < cs.length then .error (.crash (.tooManyDigits cs.length))
  else .ok ((Text.ofDigits? cs).getD 0)

def entryOf (number : Nat) (b : BlockLine) : Except LoadFailure Entry := do
  let index ← indexValue b.index
  let succs ← b.succs.mapM indexValue
  return { index, block := { live := b.live, succs }, line := some (number : Int) }

/-- Adds an entry to the last unit, or to a first one named after the file. -/
def addEntry (path : String) (number : Nat) (units : List FlowUnit) (e : Entry) : List FlowUnit :=
  match units.getLast? with
  | some u => units.dropLast ++ [u.addEntry e]
  | none => [{ name := FileName.stem path, line := some (number : Int), entries := [e] }]

/-- Adds what a line says to the units before it. -/
def addLine (path : String) (units : List FlowUnit) (line : Nat × List Char) :
    Except LoadFailure (List FlowUnit) :=
  let bad (problem : LineProblem) : LoadFailure :=
    .input (.badLine path line.1 (String.ofList line.2) problem)
  match LineContent.read line.2 with
  | .error problem => .error (bad problem)
  | .ok .nothing => .ok units
  | .ok (.header name) =>
    if units.any (·.name == name) then .error (bad (.repeatedName name))
    else .ok (units ++ [{ name, line := some (line.1 : Int) }])
  | .ok (.block b) => (entryOf line.1 b).map (addEntry path line.1 units)

def readLines (path : String) (lines : List (List Char)) : Except LoadFailure (List FlowUnit) :=
  if lines.all fun line => line.all Text.isBlank then .error (.input (.blank path))
  else do
    let numbered := (lines.zipIdx 1).map fun (line, number) => (number, line)
    let units ← numbered.foldlM (addLine path) []
    if units.all fun u => u.entries.isEmpty then .error (.input (.noBlocks path))
    else .ok units

def readText (path : String) (text : String) : Except LoadFailure (List FlowUnit) :=
  readLines path (Text.lines (Text.unifyNewlines text.toList))

/-- The units of a file that is looked up by name. -/
def load (read : String → Except Crash ByteArray) (path : String) : Except LoadFailure (List FlowUnit) :=
  match read path with
  | .error .noFile => .error (.input (.notFound path))
  | .error c => .error (.crash c)
  | .ok bytes =>
    match Text.decode bytes with
    | .error fault => .error (.input (.notText path fault))
    | .ok text => readText path text

def summary (units : List FlowUnit) : String :=
  let blocks := (units.flatMap FlowUnit.entries).length
  s!"[INFO] Parsed input: units={units.length}, blocks={blocks}"

/-- The units with the given names in file order; all of them if no names are given. -/
def select (units : List FlowUnit) (names : List String) : Except InputError (List FlowUnit) :=
  if names.isEmpty then .ok units
  else
    let known := units.map FlowUnit.name
    let missing := names.filter fun n => !known.contains n
    if missing.isEmpty then .ok (units.filter fun u => names.contains u.name)
    else .error (.unknownUnits missing known)

end Listing

end PrimePaths
