import PrimePaths.Number.Basic
import PrimePaths.Text.Quoted

namespace PrimePaths

/-- A JSON document; its fields keep their order. -/
inductive Json
  | null
  | bool (b : Bool)
  | number (n : Number)
  | string (s : String)
  | array (items : List Json)
  | object (fields : List (String × Json))
  deriving Repr, Inhabited

namespace Json

def int (i : Int) : Json := number (.whole i)

def strings (ss : List String) : Json := array (ss.map string)

def ints (is : List Int) : Json := array (is.map int)

def ofOption {α : Type} (f : α → Json) : Option α → Json
  | some a => f a
  | none => null

def asText? : Json → Option String
  | string s => some s
  | _ => none

def asInt? : Json → Option Int
  | number (.whole i) => some i
  | _ => none

def asBool? : Json → Option Bool
  | bool b => some b
  | _ => none

def asList : Json → List Json
  | array items => items
  | _ => []

def asFields : Json → List (String × Json)
  | object fields => fields
  | _ => []

/-- A field of a document, if it is given and no null. -/
def field? (j : Json) (key : String) : Option Json :=
  match j.asFields.lookup key with
  | some null => none
  | found => found

def hasField (j : Json) (key : String) : Bool :=
  (j.asFields.lookup key).isSome

/-- Whether a field is given as a null. -/
def isBlank (j : Json) (key : String) : Bool :=
  j.hasField key && (j.field? key).isNone

/-- A character inside a JSON string; one beyond 16 bits becomes two surrogates. -/
def escaped (c : Char) : List Char :=
  let unit (n : Nat) : List Char := '\\' :: 'u' :: Text.hex 4 n
  if c = '"' ∨ c = '\\' then ['\\', c]
  else if c = '\n' then ['\\', 'n']
  else if c = '\r' then ['\\', 'r']
  else if c = '\t' then ['\\', 't']
  else if c = '\x08' then ['\\', 'b']
  else if c = '\x0c' then ['\\', 'f']
  else if 32 ≤ c.toNat && c.toNat < 127 then [c]
  else if c.toNat < 0x10000 then unit c.toNat
  else unit (0xd800 + (c.toNat - 0x10000) / 0x400) ++ unit (0xdc00 + (c.toNat - 0x10000) % 0x400)

def stringText (s : String) : String :=
  String.ofList ('"' :: s.toList.flatMap escaped ++ ['"'])

def numberText : Number → String
  | .floating .nan => "NaN"
  | .floating (.infinite negative) => if negative then "-Infinity" else "Infinity"
  | n => n.text

/-- A line break and the indentation of a level. -/
def newline (level : Nat) : String :=
  String.ofList ('\n' :: List.replicate (2 * level) ' ')

/-- Items in brackets, one a line; no items leave the brackets together. -/
def bracketed (level : Nat) (left right : String) (items : List String) : String :=
  if items.isEmpty then left ++ right
  else
    left ++ newline (level + 1) ++ ("," ++ newline (level + 1)).intercalate items ++
      newline level ++ right

mutual

/-- The text of a document at a level of indentation. -/
def textAt (level : Nat) : Json → String
  | null => "null"
  | bool b => if b then "true" else "false"
  | number n => numberText n
  | string s => stringText s
  | array items => bracketed level "[" "]" (itemTexts (level + 1) items)
  | object fields => bracketed level "\x7b" "\x7d" (fieldTexts (level + 1) fields)

def itemTexts (level : Nat) : List Json → List String
  | [] => []
  | j :: js => textAt level j :: itemTexts level js

def fieldTexts (level : Nat) : List (String × Json) → List String
  | [] => []
  | (key, j) :: fields => (stringText key ++ ": " ++ textAt level j) :: fieldTexts level fields

end

/-- The text of a document: two spaces for each level, ASCII characters only. -/
def text (j : Json) : String :=
  textAt 0 j

end Json

end PrimePaths
