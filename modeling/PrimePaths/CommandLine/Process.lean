import PrimePaths.CommandLine.Account

namespace PrimePaths.CommandLine

namespace Transcript

def document? : Message → Option Json
  | .document j => some j
  | _ => none

def documents (t : Transcript) : List Json :=
  t.messages.filterMap document?

end Transcript

structure JsonFlags where
  requested : Bool := false
  emitted : Bool := false
  deriving DecidableEq, Repr

/-- What a call has written so far, to the streams and as documents. -/
structure Output where
  streams : Streams := {}
  documents : List Json := []

structure Console where
  flags : JsonFlags
  output : Output := {}

def Console.add (traceText : Crash → String) (c : Console) (message : Message) : Console :=
  let document? := Transcript.document? message
  { flags := { c.flags with emitted := c.flags.emitted || document?.isSome }
    output := {
      streams := c.output.streams.add c.flags.requested traceText message
      documents := c.output.documents ++ document?.toList } }

/-- A call in progress writes to a console and reads clocks. -/
abbrev Act := StateT Console Replay

namespace Act

variable (traceText : Crash → String)

def say (ms : List Message) : Act Unit :=
  modify fun c => ms.foldl (Console.add traceText) c

/-- Ends a call that failed. If a document was asked for, the failure is told by one, but a crash is not
after a document was written. -/
def fail (argv : List String) (filename : String) (f : RunFailure) : Act Ending := do
  let flags := (← get).flags
  let told := match f with
    | .crash _ => flags.emitted
    | _ => false
  if flags.requested && !told then
    say traceText (f.trace ++ [.document (errorDocument argv (some filename) f.note)])
    return .exit f.note.exitCode
  else
    say traceText f.complaint.1
    return f.complaint.2

/-- Ends a call whose arguments ask for no run. -/
def refuse (argv : List String) (r : Refusal) : Act Ending := do
  say traceText [r.saying.1]
  if (← get).flags.requested then
    say traceText [.document (errorDocument argv none r.note)]
    return .exit r.note.exitCode
  else return .stopped r.saying.2

/-- Ends a call whose arguments asked for a run. -/
def conclude (argv : List String) (filename : String) (x : Account) : Act Ending := do
  say traceText x.said
  match x.outcome with
  | .error f => fail traceText argv filename f
  | .ok (code, document?) =>
    say traceText (document?.toList.map Message.document)
    return .exit code

end Act

/-- One call: its arguments, the clocks that it reads, and the files that it finds. -/
structure Call where
  argv : List String
  recording : Recording
  read : String → Except Crash ByteArray
  place : Place
  sourceFile : String
  dialect : Dialect

namespace Call

def surroundings (c : Call) : Surroundings Replay where
  clocks := c.recording.clocks
  read := c.read
  place := c.place
  sourceFile := c.sourceFile
  dialect := c.dialect

/-- The run of a call on its own. -/
def transcript (c : Call) : Transcript :=
  ((run c.surroundings c.argv).run {}).1

/-- What a call came to. -/
structure Upshot where
  ending : Ending
  output : Output

variable (traceText : Crash → String)

/-- The run of a call with arguments that were read. -/
def carryOut (c : Call) (a : Arguments) (began : Int) : Act Ending := do
  if a.json then
    modify fun console => { console with flags := { console.flags with requested := true } }
  let x ← (account c.surroundings c.argv a.settled began : Replay Account)
  Act.conclude traceText c.argv a.filename x

/-- A call from the time at which it began. -/
def proceed (c : Call) (began : Int) : Act Ending := do
  if (← get).flags.requested && asksHelp c.argv then
    match Version.ofFile (c.read c.sourceFile) with
    | .error crash => return .crashed crash
    | .ok version =>
      Act.say traceText [.document (helpDocument c.argv version)]
      return .exit 0
  else
    match Arguments.ofCommandLine c.dialect c.argv with
    | .error r => Act.refuse traceText c.argv r
    | .ok a => c.carryOut traceText a began

/-- A call in a process whose flags may say anything. -/
def act (c : Call) : Act Ending := do
  modify fun console => { console with flags := { requested := asksJson c.argv, emitted := false } }
  match ← c.surroundings.clocks.nanoseconds with
  | .error i => return .ofInterruption i
  | .ok began => c.proceed traceText began

/-- A call from the flags that earlier calls left, and the flags that it leaves. -/
def runFrom (flags : JsonFlags) (c : Call) : Upshot × JsonFlags :=
  let ((ending, console), _) := ((c.act traceText).run { flags }).run {}
  ({ ending, output := console.output }, console.flags)

/-- Calls one after the other in one process. -/
def session (flags : JsonFlags) : List Call → List Upshot
  | [] => []
  | c :: cs =>
    let (upshot, flags) := c.runFrom traceText flags
    upshot :: session flags cs

end Call
end PrimePaths.CommandLine
