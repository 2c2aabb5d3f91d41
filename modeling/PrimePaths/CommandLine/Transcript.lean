import PrimePaths.CommandLine.Documents
import PrimePaths.Listing.Reader
import PrimePaths.Message

namespace PrimePaths.CommandLine

inductive Ending
  /-- It comes to its end with an exit code. -/
  | exit (code : Int)
  /-- The reading of its arguments ends it with an exit code. -/
  | stopped (code : Int)
  | interrupted
  | crashed (c : Crash)
  deriving DecidableEq, Repr

/-- What a run said and how it ended; `jsonRequested` says whether the standard output is kept for a
document. -/
structure Transcript where
  messages : List Message
  jsonRequested : Bool
  ending : Ending

namespace Transcript

def isDocument : Message → Bool
  | .document _ => true
  | _ => false

def jsonEmitted (t : Transcript) : Bool :=
  t.messages.any isDocument

def streams (traceText : Crash → String) (t : Transcript) : Streams :=
  .ofMessages t.jsonRequested traceText t.messages

end Transcript

/-- Why a run with valid arguments has no results. -/
inductive RunFailure
  | input (e : InputError)
  | interrupted
  | crash (c : Crash)

namespace RunFailure

def ofLoad : LoadFailure → RunFailure
  | .input e => input e
  | .crash c => crash c

def ofInterruption : Interruption → RunFailure
  | .byUser => interrupted
  | .crash c => crash c

def note : RunFailure → ErrorNote
  | input e => { exitCode := e.exitCode, code := e.code, message := e.message, details := e.details }
  | interrupted =>
    { exitCode := 130, code := "INTERRUPTED", message := "Interrupted by user (Ctrl+C / SIGINT)." }
  | crash c => {
      exitCode := 1
      code := "INTERNAL"
      message := s!"Internal error: {c.kind}"
      details := [("exception_type", .string c.kind)] }

/-- What is said without JSON, and the end. -/
def complaint : RunFailure → List Message × Ending
  | input e => ([.complaint s!"Error: {e.message}"], .exit e.exitCode)
  | interrupted => ([.complaint "Error: Interrupted by user."], .exit 130)
  | crash c => ([], .crashed c)

def trace : RunFailure → List Message
  | crash c => [.trace c]
  | _ => []

end RunFailure

/-- The end of a run that is cut short before it begins. -/
def Ending.ofInterruption : Interruption → Ending
  | .byUser => interrupted
  | .crash c => crashed c

/-- The arguments that tell of JSON and help before all arguments are read. -/
def asksJson (argv : List String) : Bool :=
  argv.contains "--json"

def asksHelp (argv : List String) : Bool :=
  argv.contains "--help" || argv.contains "-h"

def failed (argv : List String) (filename : String) (json : Bool) (said : List Message)
    (f : RunFailure) : Transcript :=
  if json then
    let document := errorDocument argv (some filename) f.note
    { messages := said ++ f.trace ++ [.document document]
      jsonRequested := true
      ending := .exit f.note.exitCode }
  else
    let (ms, ending) := f.complaint
    { messages := said ++ ms, jsonRequested := false, ending }

/-- The run that only shows the help text in a document. -/
def helped (argv : List String) (version : Except Crash (Option Nat)) : Transcript :=
  match version with
  | .ok v => { messages := [.document (helpDocument argv v)], jsonRequested := true, ending := .exit 0 }
  | .error c => { messages := [], jsonRequested := true, ending := .crashed c }

namespace Refusal

/-- What is said of arguments that ask for no run, and the exit code. -/
def saying : Refusal → Message × Int
  | help => (.help helpText, 0)
  | usage e => (.usage s!"{usageText}{programName}: error: {e.message}\n", 2)

def note (r : Refusal) : ErrorNote where
  exitCode := 1
  code := "CLI_USAGE"
  message := "Command-line usage error."
  details := [("system_exit_code", .int r.saying.2)]

end Refusal

def refused (argv : List String) (r : Refusal) : Transcript :=
  if asksJson argv then
    { messages := [r.saying.1, .document (errorDocument argv none r.note)]
      jsonRequested := true
      ending := .exit r.note.exitCode }
  else { messages := [r.saying.1], jsonRequested := false, ending := .stopped r.saying.2 }

end PrimePaths.CommandLine
