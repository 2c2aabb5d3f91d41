import PrimePaths.Analysis.Basic
import PrimePaths.Number.Reading
import PrimePaths.Text.Quoted

namespace PrimePaths.CommandLine

/-- Command lines are read in one of two ways. They differ in two dashes that are the value of an option,
and in what follows a short flag in its argument. -/
inductive Dialect
  | earlier
  | later
  deriving DecidableEq, Repr

/-- Options without a value. -/
inductive Flag
  | help
  | time
  | verbose
  | indexed
  | validate
  | confirmPrimes
  | unique
  | allPaths
  | json
  deriving DecidableEq, Repr

/-- Options with a value. -/
inductive Setting
  | unit
  | maxSeconds
  | maxCalls
  | maxPaths
  | maxNodes
  deriving DecidableEq, Repr

inductive Choice
  | flag (f : Flag)
  | setting (s : Setting)
  deriving DecidableEq, Repr

namespace Choice

def names : Choice → List String
  | flag .help => ["-h", "--help"]
  | flag .time => ["-t", "--time"]
  | flag .verbose => ["-v", "--verbose"]
  | flag .indexed => ["--indexed"]
  | flag .validate => ["--validate"]
  | flag .confirmPrimes => ["--confirm-primes"]
  | flag .unique => ["--unique"]
  | flag .allPaths => ["--all-paths"]
  | flag .json => ["--json"]
  | setting .unit => ["--unit"]
  | setting .maxSeconds => ["--max-seconds"]
  | setting .maxCalls => ["--max-calls"]
  | setting .maxPaths => ["--max-paths"]
  | setting .maxNodes => ["--max-nodes"]

/-- All options in the order in which they are listed. -/
def all : List Choice :=
  [flag .help, flag .time, flag .verbose, flag .indexed, flag .validate, flag .confirmPrimes,
    flag .unique, flag .allPaths, setting .unit, flag .json, setting .maxSeconds,
    setting .maxCalls, setting .maxPaths, setting .maxNodes]

def table : List (String × Choice) :=
  all.flatMap fun c => c.names.map fun n => (n, c)

def ofName? (name : String) : Option Choice :=
  table.lookup name

/-- The names of an option as they are shown together. -/
def label (c : Choice) : String :=
  "/".intercalate c.names

end Choice

inductive UsageError
  | ambiguous (argument : String) (names : List String)
  | needlessValue (option : Choice) (value : String)
  | missingValue (option : Choice)
  | notWhole (option : Choice) (value : String)
  | notFloating (option : Choice) (value : String)
  | missingFile
  | unrecognized (arguments : List String)
  deriving DecidableEq, Repr

def UsageError.message : UsageError → String
  | ambiguous argument names =>
    s!"ambiguous option: {argument} could match " ++ ", ".intercalate names
  | needlessValue option value =>
    s!"argument {option.label}: ignored explicit argument {Text.quoted value}"
  | missingValue option => s!"argument {option.label}: expected one argument"
  | notWhole option value => s!"argument {option.label}: invalid int value: {Text.quoted value}"
  | notFloating option value =>
    s!"argument {option.label}: invalid float value: {Text.quoted value}"
  | missingFile => "the following arguments are required: filename"
  | unrecognized arguments => "unrecognized arguments: " ++ " ".intercalate arguments

/-- What an argument holds beside the name of its option. -/
inductive Attached
  | nothing
  /-- A value after an equals sign. -/
  | assigned (value : List Char)
  /-- Characters right after a short name. -/
  | joined (cs : List Char)
  deriving DecidableEq, Repr

/-- An argument of the command line as it is understood. -/
inductive Token
  | operand (text : String)
  /-- The two dashes after which all arguments are operands. -/
  | separator
  /-- An option by the name meant. -/
  | option (name : String) (choice : Choice) (attached : Attached)
  | unknown (text : String)
  deriving DecidableEq, Repr

namespace Token

/-- Splits an argument at its first equals sign. -/
def splitValue (cs : List Char) : String × Attached :=
  let name := cs.takeWhile (· != '=')
  match cs.drop name.length with
  | [] => (String.ofList name, .nothing)
  | _ :: value => (String.ofList name, .assigned value)

/-- Digits, or a point with digits after it, behind a dash; one line feed may end the text. -/
def isNegativeNumber : List Char → Bool
  | '-' :: cs =>
    let cs := if cs.getLast? = some '\n' then cs.dropLast else cs
    let rest := cs.dropWhile Text.isDigit
    match rest with
    | [] => !cs.isEmpty
    | '.' :: fraction => !fraction.isEmpty && fraction.all Text.isDigit
    | _ => false
  | _ => false

/-- The options that an argument which names none may stand for. -/
def candidates (argument : String) : List (String × Choice × Attached) :=
  if argument.startsWith "--" then
    let (start, attached) := splitValue argument.toList
    (Choice.table.filter fun (n, _) => n.startsWith start).map fun (n, c) => (n, c, attached)
  else
    let short := String.ofList (argument.toList.take 2)
    (Choice.table.filter fun (n, _) => n == short).map fun (n, c) =>
      (n, c, .joined (argument.toList.drop 2))

/-- Understands one argument before the separator. -/
def ofArgument (argument : String) : Except UsageError Token :=
  if !argument.startsWith "-" || argument == "-" then .ok (.operand argument)
  else
    match Choice.ofName? argument with
    | some c => .ok (.option argument c .nothing)
    | none =>
      let (name, attached) := splitValue argument.toList
      match Choice.ofName? name with
      | some c => .ok (.option name c attached)
      | none =>
        match candidates argument with
        | [(n, c, attached)] => .ok (.option n c attached)
        | [] =>
          if isNegativeNumber argument.toList || argument.toList.contains ' ' then
            .ok (.operand argument)
          else .ok (.unknown argument)
        | several => .error (.ambiguous argument (several.map fun (n, _) => n))

def ofArguments : List String → Except UsageError (List Token)
  | [] => .ok []
  | argument :: rest =>
    if argument = "--" then .ok (separator :: rest.map operand)
    else do
      let token ← ofArgument argument
      return token :: (← ofArguments rest)

end Token

end PrimePaths.CommandLine
