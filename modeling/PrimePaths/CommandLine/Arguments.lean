import PrimePaths.CommandLine.Options

namespace PrimePaths.CommandLine

/-- What a command line asks for; a unit may be asked for by a blank name. -/
structure Arguments where
  filename : String := ""
  options : Options := {}
  units : Option (List (Option String)) := none
  json : Bool := false
  deriving DecidableEq, Repr

/-- A command line that is read up to some argument. -/
structure Reading where
  arguments : Arguments := {}
  file? : Option String := none
  extras : List String := []
  deriving DecidableEq, Repr

inductive Refusal
  | help
  | usage (e : UsageError)
  deriving DecidableEq, Repr

namespace Arguments

/-- Sets a flag; help ends the reading. -/
def setFlag (a : Arguments) : Flag → Except Refusal Arguments
  | .help => .error .help
  | .time => .ok { a with options := { a.options with time := true } }
  | .verbose => .ok { a with options := { a.options with verbose := true } }
  | .indexed => .ok { a with options := { a.options with indexed := true } }
  | .validate => .ok { a with options := { a.options with validate := true } }
  | .confirmPrimes => .ok { a with options := { a.options with confirmPrimes := true } }
  | .unique => .ok { a with options := { a.options with unique := true } }
  | .allPaths => .ok { a with options := { a.options with allPaths := true } }
  | .json => .ok { a with json := true }

/-- The value that a text gives a setting. In the earlier dialect, two dashes are the separator still and
leave a blank. -/
def valueOf : Dialect → String → Option String
  | .earlier, text => if text = "--" then none else some text
  | .later, text => some text

def wholeBound (s : Setting) : Option String → Except Refusal Bound
  | none => .ok .blank
  | some value =>
    match readInt? value with
    | some i => .ok (.number (.whole i))
    | none => .error (.usage (.notWhole (.setting s) value))

/-- A floating point number as the bound of a setting. -/
def floatingBound (s : Setting) : Option String → Except Refusal Bound
  | none => .ok .blank
  | some value =>
    match readFloat? value with
    | some x => .ok (.number (.floating x))
    | none => .error (.usage (.notFloating (.setting s) value))

def setLimits (a : Arguments) (f : Limits → Limits) : Arguments :=
  { a with options := { a.options with limits := f a.options.limits } }

/-- Gives a setting a value; units add up, of other settings the last value counts. -/
def setSetting (d : Dialect) (a : Arguments) (s : Setting) (text : String) : Except Refusal Arguments :=
  let value := valueOf d text
  match s with
  | .unit => .ok { a with units := some (a.units.getD [] ++ [value]) }
  | .maxSeconds => do
    let b ← floatingBound s value
    return a.setLimits fun l => { l with maxSeconds := some b }
  | .maxCalls => do
    let b ← wholeBound s value
    return a.setLimits fun l => { l with maxCalls := some b }
  | .maxPaths => do
    let b ← wholeBound s value
    return a.setLimits fun l => { l with maxPaths := some b }
  | .maxNodes => do
    let b ← wholeBound s value
    return { a with options := { a.options with maxNodes := some b } }

/-- The refusal of what a flag has no use for. -/
def needless (f : Flag) (value : List Char) : Refusal :=
  .usage (.needlessValue (.flag f) (String.ofList value))

/-- The flag of a short name. -/
def shortFlag? (c : Char) : Option Flag :=
  match Choice.ofName? (String.ofList ['-', c]) with
  | some (.flag f) => some f
  | _ => none

/-- The flags of an argument that runs short names together, in the earlier dialect: after a short flag, each
character that follows has to be one, too. -/
def runTogether (f : Flag) : List Char → Except Refusal (List Flag)
  | [] => .ok [f]
  | c :: cs =>
    match shortFlag? c with
    | some g => (runTogether g cs).map (f :: ·)
    | none => .error (needless f (c :: cs))

/-- The flags of an argument that runs short names together, in the later dialect, with what is left of the
argument from the first character on that is no flag. A dash or an equals sign after a flag is refused. -/
def runApart (f : Flag) : List Char → Except Refusal (List Flag × List String)
  | [] => .ok ([f], [])
  | '-' :: cs => .error (needless f ('-' :: cs))
  | '=' :: cs => .error (needless f cs)
  | c :: cs =>
    match shortFlag? c with
    | some g => (runApart g cs).map fun (flags, left) => (f :: flags, left)
    | none => .ok ([f], [String.ofList ('-' :: c :: cs)])

/-- The flags that an argument holds, and what is left of it without use. Long names, and in the later dialect
equals signs, are not followed by flags; an empty value is one too many. -/
def flagsOf (d : Dialect) (name : String) (f : Flag) (attached : Attached) :
    Except Refusal (List Flag × List String) :=
  match attached, d with
  | .nothing, _ => .ok ([f], [])
  | .assigned [], _ => .error (needless f [])
  | .assigned cs, .earlier | .joined cs, .earlier =>
    if name.startsWith "--" then .error (needless f cs)
    else (runTogether f cs).map fun flags => (flags, [])
  | .assigned cs, .later => .error (needless f cs)
  | .joined cs, .later => runApart f cs

/-- The names of the units asked for; a blank one names nothing that could be looked up. -/
def unitNames (a : Arguments) : Except Crash (List String) :=
  (a.units.getD []).mapM fun name? => name?.elim (.error .blankValue) .ok

end Arguments

namespace Reading

/-- Reads tokens on. The first operand is the file, and a separator beside it is dropped; what has no use
is kept among the extras. -/
def readTokens (d : Dialect) (r : Reading) : List Token → Except Refusal Reading
  | [] => .ok r
  | .unknown text :: rest => readTokens d { r with extras := r.extras ++ [text] } rest
  | .option name (.flag f) attached :: rest => do
    let (flags, left) ← Arguments.flagsOf d name f attached
    let arguments ← flags.foldlM Arguments.setFlag r.arguments
    readTokens d { r with arguments, extras := r.extras ++ left } rest
  | .option _ (.setting s) (.assigned value) :: rest
  | .option _ (.setting s) (.joined value) :: rest => do
    let arguments ← r.arguments.setSetting d s (String.ofList value)
    readTokens d { r with arguments } rest
  | .option _ (.setting s) .nothing :: .operand value :: rest => do
    let arguments ← r.arguments.setSetting d s value
    readTokens d { r with arguments } rest
  | .option _ (.setting s) .nothing :: _ => .error (.usage (.missingValue (.setting s)))
  | .operand text :: .separator :: rest =>
    if r.file?.isNone then readTokens d { r with file? := some text } rest
    else readTokens d { r with extras := r.extras ++ [text, "--"] } rest
  | .operand text :: rest =>
    if r.file?.isNone then readTokens d { r with file? := some text } rest
    else readTokens d { r with extras := r.extras ++ [text] } rest
  | .separator :: .operand text :: rest =>
    if r.file?.isNone then readTokens d { r with file? := some text } rest
    else readTokens d { r with extras := r.extras ++ ["--", text] } rest
  | .separator :: rest => readTokens d { r with extras := r.extras ++ ["--"] } rest

/-- The arguments, if there is a file and nothing is left over. -/
def arguments? (r : Reading) : Except Refusal Arguments :=
  match r.file? with
  | none => .error (.usage .missingFile)
  | some filename =>
    if r.extras.isEmpty then .ok { r.arguments with filename }
    else .error (.usage (.unrecognized r.extras))

end Reading

/-- Reads a command line. All arguments are understood before the first one takes effect. -/
def Arguments.ofCommandLine (d : Dialect) (argv : List String) : Except Refusal Arguments := do
  match Token.ofArguments argv with
  | .error e => .error (.usage e)
  | .ok tokens =>
    let r ← Reading.readTokens d {} tokens
    r.arguments?

end PrimePaths.CommandLine
