namespace PrimePaths

/-- A failure outside the errors that are reported as such. -/
inductive Crash
  /-- A clock failed. -/
  | clock
  /-- A file name holds a null character. -/
  | nullInName
  /-- A whole number is written with too many digits. -/
  | tooManyDigits (count : Nat)
  /-- A whole number has too many digits to be written. -/
  | unwritable
  /-- A file is no UTF-8 text where one is needed. -/
  | notText
  | isDirectory
  | notADirectory
  | nameTooLong
  | noFile
  /-- A search starts at a node that the graph does not have. -/
  | unknownStart
  /-- A blank value is compared, looked up or gone through. -/
  | blankValue
  /-- A part is asked of a record that is not there. -/
  | noRecord
  /-- A record lacks a field. -/
  | noField
  /-- A strategy is asked for by a name, shown in quotes, that no strategy has. -/
  | unknownStrategy (shown : String)
  /-- A number is too large for a floating point number, or a floating one for a whole one. -/
  | overflow
  deriving DecidableEq, Repr

namespace Crash

/-- The most digits of a whole number that is read or written. -/
def maxDigits : Nat := 4300

def kind : Crash → String
  | clock => "RuntimeError"
  | nullInName => "ValueError"
  | tooManyDigits _ => "ValueError"
  | unwritable => "ValueError"
  | notText => "UnicodeDecodeError"
  | isDirectory => "IsADirectoryError"
  | notADirectory => "NotADirectoryError"
  | nameTooLong => "OSError"
  | noFile => "FileNotFoundError"
  | unknownStart => "IndexError"
  | blankValue => "TypeError"
  | noRecord => "AttributeError"
  | noField => "KeyError"
  | unknownStrategy _ => "ValueError"
  | overflow => "OverflowError"

def limitText : String :=
  s!"Exceeds the limit ({maxDigits} digits) for integer string conversion"

def remedyText : String :=
  "use sys.set_int_max_str_digits() to increase the limit"

/-- What a failed value has to say. -/
def message? : Crash → Option String
  | nullInName => some "embedded null byte"
  | tooManyDigits count => some s!"{limitText}: value has {count} digits; {remedyText}"
  | unwritable => some s!"{limitText}; {remedyText}"
  | unknownStrategy shown => some s!"Unknown prime path filter strategy: {shown}"
  | _ => none

end Crash

end PrimePaths
