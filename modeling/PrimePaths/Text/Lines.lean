import PrimePaths.Text.Utf8

namespace PrimePaths.Text

/-- The text with a line feed for each carriage return, alone or before a line feed. -/
def unifyNewlines : List Char → List Char
  | [] => []
  | '\r' :: '\n' :: cs => '\n' :: unifyNewlines cs
  | c :: cs => (if c = '\r' then '\n' else c) :: unifyNewlines cs

/-- The characters that end a line in a text without carriage returns. -/
def lineEnds : List Nat := [0x0a, 0x0b, 0x0c, 0x0d, 0x1c, 0x1d, 0x1e, 0x85, 0x2028, 0x2029]

def isLineEnd (c : Char) : Bool :=
  lineEnds.contains c.toNat

/-- Puts a character in front of the lines that follow it. -/
def addChar (c : Char) (ls : List (List Char)) : List (List Char) :=
  if isLineEnd c then [] :: ls
  else match ls with
    | [] => [[c]]
    | l :: ls => (c :: l) :: ls

/-- The lines without their ends; an end at the close of the text starts no further line. -/
def lines (cs : List Char) : List (List Char) :=
  cs.foldr addChar []

def blockSize : Nat := 8192

/-- The line at the start of a text after which more may come, if the text holds its end. A carriage return
that closes the text may be half of a line end and waits for what follows. -/
def completeLine? (cs : List Char) : Option (List Char) :=
  let settled := if cs.getLast? = some '\r' then cs.dropLast else cs
  let text := unifyNewlines settled
  if text.contains '\n' then some (text.takeWhile (· != '\n')) else none

/-- The line at the start of a text that is there in full. -/
def lineOf (cs : List Char) : List Char :=
  (unifyNewlines cs).takeWhile (· != '\n')

/-- The first line of the bytes, of which so many are read so far. -/
def firstLineFrom (bytes : ByteArray) (count : Nat) : Except Utf8Fault (List Char) := do
  let start ← decodeOpen (bytes.extract 0 count)
  match completeLine? start.toList with
  | some line => return line
  | none =>
    if count < bytes.size then firstLineFrom bytes (count + blockSize)
    else return lineOf (← decode bytes).toList
termination_by bytes.size - count
decreasing_by
  simp only [blockSize]
  omega

/-- The first line of bytes that are read block by block. A fault after the block that completes the line is
never seen; a character that the block breaks off is no fault then. -/
def firstLine (bytes : ByteArray) : Except Utf8Fault (List Char) :=
  firstLineFrom bytes blockSize

end PrimePaths.Text
