import PrimePaths.Json
import PrimePaths.Text.Utf8

namespace PrimePaths

inductive LineProblem
  | controlCharacter
  | malformedHeader (body : String)
  | invalidName (name : String)
  | repeatedName (name : String)
  | incompleteBlock (body : String)
  | invalidIndex (token : String)
  | invalidStatus (status : String)
  deriving DecidableEq, Repr

inductive InputError
  | notFound (path : String)
  | notText (path : String) (fault : Text.Utf8Fault)
  | blank (path : String)
  | badLine (path : String) (number : Nat) (line : String) (problem : LineProblem)
  | noBlocks (path : String)
  /-- Units are asked for that the file does not hold. -/
  | unknownUnits (missing available : List String)
  deriving DecidableEq, Repr

namespace LineProblem

def message (number : Nat) : LineProblem → String
  | controlCharacter => s!"Line {number} contains control characters."
  | malformedHeader body => s!"Unit header '{body}' is malformed. Expected format: 'FUNC NAME'"
  | invalidName name => s!"Invalid unit name: '{name}' (contains spaces or special characters)"
  | repeatedName name => s!"Duplicate unit name detected: '{name}'"
  | incompleteBlock body =>
    s!"Block definition '{body}' is incomplete. Expected format: 'INDEX live|dead [SUCC ...]'"
  | invalidIndex token =>
    s!"Invalid block index '{token}' on line {number} (must be a non-negative integer)"
  | invalidStatus status =>
    s!"Invalid block status '{status}' on line {number}. Expected 'live' or 'dead'"

def details (path : String) (number : Nat) (line : String) : LineProblem → List (String × Json)
  | invalidName name | repeatedName name =>
    [("name", .string name), ("line_no", .int number), ("path", .string path)]
  | invalidIndex token =>
    [("line", .string line), ("line_no", .int number), ("token", .string token),
      ("path", .string path)]
  | _ => [("line", .string line), ("line_no", .int number), ("path", .string path)]

end LineProblem

namespace InputError

def code : InputError → String
  | notFound _ => "INPUT_NOT_FOUND"
  | blank _ => "INPUT_EMPTY"
  | _ => "INPUT_INVALID"

def exitCode : InputError → Int
  | _ => 1

def message : InputError → String
  | notFound path => s!"File '{path}' not found."
  | notText _ _ => "Input file is not valid UTF-8 text."
  | blank _ => "Input file is empty or contains only whitespace."
  | badLine _ number _ problem => problem.message number
  | noBlocks _ => "No units or blocks defined in the input file."
  | unknownUnits missing _ => "Unit '" ++ missing.headD "" ++ "' not found in input file."

def details : InputError → List (String × Json)
  | notFound path => [("path", .string path)]
  | notText path fault => [("path", .string path), ("reason", .string fault.message)]
  | blank path => [("path", .string path)]
  | badLine path number line problem => problem.details path number line
  | noBlocks path => [("path", .string path)]
  | unknownUnits missing available =>
    [("missing", .strings missing), ("available", .strings available)]

end InputError

end PrimePaths
