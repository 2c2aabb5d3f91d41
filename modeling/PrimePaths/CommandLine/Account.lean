import PrimePaths.Analysis.Basic
import PrimePaths.CommandLine.Transcript
import PrimePaths.Report
import PrimePaths.Version

namespace PrimePaths.CommandLine

structure Surroundings (m : Type → Type) where
  clocks : Clocks m
  /-- The files as they are during the run. -/
  read : String → Except Crash ByteArray
  place : Place
  /-- The file whose first line states the version. -/
  sourceFile : String
  dialect : Dialect

def resultLines (total : Overall) : List String :=
  if total.status = .ok then [] else [s!"Result: {total.status.label} ({total.message})"]

/-- The line about the time of a run, if it is asked for. -/
def timeLines (elapsed : Elapsed) (o : Options) : Except Crash (List String) := do
  if o.time then
    let whole ← elapsed.nanosecondsOfSeconds
    return [s!"Elapsed Time (seconds): {elapsed.seconds.fixed 9} (ns={whole})"]
  else return []

/-- What a run says, and what it comes to: a failure, or an exit code and the document that it is to write,
if any. -/
structure Account where
  said : List Message
  outcome : Except RunFailure (Int × Option Json)

namespace Account

/-- The transcript of a run, in which a failure is told by a document if `json` says so. -/
def transcript (argv : List String) (filename : String) (json : Bool) (x : Account) : Transcript :=
  match x.outcome with
  | .error f => failed argv filename json x.said f
  | .ok (code, document?) => {
      messages := x.said ++ document?.toList.map Message.document
      jsonRequested := json
      ending := .exit code }

/-- The account of a run that tells its results to a reader. -/
def ofReport (said : List Message) (r : RunResult) : Account :=
  let total := overall r.analyses
  let said := said ++ (resultLines total).map Message.line
  match timeLines r.elapsed r.arguments.options with
  | .error c => { said, outcome := .error (.crash c) }
  | .ok lines => { said := said ++ lines.map Message.line, outcome := .ok (total.exitCode, none) }

/-- The account of a run that tells its results by a document, if there is one. -/
def ofDocument (said : List Message) (r : RunResult) (document : Except Interruption Json) : Account :=
  let code := (overall r.analyses).exitCode
  { said, outcome := (document.mapError .ofInterruption).map fun j => (code, some j) }

end Account

variable {m : Type → Type} [Monad m]

/-- Analyzes units one after the other; what is said up to an interruption stays said. -/
def analyzeUnits (clocks : Clocks m) (a : Arguments) :
    List FlowUnit → m (List Message × Except Interruption (List Analysis))
  | [] => pure ([], .ok [])
  | u :: us => do
    let t ← timedAttempt clocks u a.options
    let opening := s!"[INFO] Analyzing unit '{u.name}' ({u.entries.length} blocks)"
    let said := if a.options.verbose then (opening :: t.trace).map Message.line else []
    match t.result with
    | .error i => pure (said, .error i)
    | .ok s => do
      let report := if a.json then [] else Report.ofUnit u s.searched? s.analysis a.options
      let (ms, rest) ← analyzeUnits clocks a us
      pure (said ++ report ++ ms, rest.map (s.analysis :: ·))

/-- Loads the file of the arguments and selects its units, with what is said of the whole file. -/
def loadUnits (read : String → Except Crash ByteArray) (a : Arguments) :
    List Message × Except RunFailure (List FlowUnit) :=
  match Listing.load read a.filename with
  | .error f => ([], .error (.ofLoad f))
  | .ok units =>
    let said := if a.options.verbose then [Message.line (Listing.summary units)] else []
    match a.unitNames with
    | .error c => (said, .error (.crash c))
    | .ok names => (said, (Listing.select units names).mapError .input)

/-- What a run says up to its results, and the results unless it fails before. -/
def pursue (w : Surroundings m) (argv : List String) (a : Arguments) (began : Int) :
    m (List Message × Except RunFailure RunResult) := do
  match loadUnits w.read a with
  | (said, .error f) => pure (said, .error f)
  | (said, .ok units) => do
    let (ms, r) ← analyzeUnits w.clocks a units
    match r with
    | .error i => pure (said ++ ms, .error (.ofInterruption i))
    | .ok analyses =>
      match ← w.clocks.nanoseconds with
      | .error i => pure (said ++ ms, .error (.ofInterruption i))
      | .ok ended =>
        let elapsed := (Elapsed.ofNanoseconds (ended - began)).mapError RunFailure.crash
        pure (said ++ ms, elapsed.map fun elapsed => { argv, arguments := a, analyses, elapsed })

/-- Looks up what a document needs: the version, the time, the file, in this order. -/
def particulars (w : Surroundings m) (filename : String) : m (Except Interruption Particulars) := do
  match Version.ofFile (w.read w.sourceFile) with
  | .error c => pure (.error (.crash c))
  | .ok version =>
    match ← w.clocks.today with
    | .error i => pure (.error i)
    | .ok named =>
      match ← w.clocks.today with
      | .error i => pure (.error i)
      | .ok dated =>
        pure ((w.read filename).mapError .crash |>.map fun bytes => { version, named, dated, bytes })

def account (w : Surroundings m) (argv : List String) (a : Arguments) (began : Int) : m Account := do
  match ← pursue w argv a began with
  | (said, .error f) => pure { said, outcome := .error f }
  | (said, .ok r) =>
    if a.json then do
      let p ← particulars w a.filename
      pure (.ofDocument said r (p.map fun p => resultDocument w.place w.sourceFile p r))
    else pure (.ofReport said r)

namespace Arguments

/-- With JSON asked for, nothing is said on the way. -/
def settled (a : Arguments) : Arguments :=
  if a.json then { a with options := { a.options with verbose := false } } else a

end Arguments

def run (w : Surroundings m) (argv : List String) : m Transcript := do
  match ← w.clocks.nanoseconds with
  | .error i => pure { messages := [], jsonRequested := asksJson argv, ending := .ofInterruption i }
  | .ok began =>
    if asksJson argv && asksHelp argv then pure (helped argv (Version.ofFile (w.read w.sourceFile)))
    else
      match Arguments.ofCommandLine w.dialect argv with
      | .error r => pure (refused argv r)
      | .ok a => do
        let x ← account w argv a.settled began
        return x.transcript argv a.filename (asksJson argv || a.json)

end PrimePaths.CommandLine
