import PrimePaths.Analysis.Json
import PrimePaths.Analysis.Overall
import PrimePaths.CommandLine.Arguments
import PrimePaths.CommandLine.Help
import PrimePaths.FileTree
import PrimePaths.Sha256
import PrimePaths.Clock

namespace PrimePaths.CommandLine

def schemaVersion : String := "1.1"

def toolName : String := "Prime_Master"

/-- Where a run takes place; the working directory is given by the parts of its name. -/
structure Place where
  directory : List String
  process : Nat
  host : String
  platform : String
  deriving DecidableEq, Repr

def summaryFields (exitCode : Int) (status message : String) : List (String × Json) :=
  [("exit_code", .int exitCode), ("status", .string status), ("message", .string message)]

/-- What went wrong in a run, for its error document. -/
structure ErrorNote where
  exitCode : Int
  code : String
  message : String
  details : List (String × Json) := []

/-- The document of a run that failed; the file is known once the command line is read. -/
def errorDocument (argv : List String) (filename : Option String) (e : ErrorNote) : Json :=
  .object [
    ("schema_version", .string schemaVersion),
    ("run", .object [
      ("argv", .strings argv),
      ("json_requested", .bool true),
      ("filename", .ofOption Json.string filename)]),
    ("results", .object [
      ("summary", .object (summaryFields e.exitCode "ERROR" e.message)),
      ("error", .object [
        ("code", .string e.code),
        ("message", .string e.message),
        ("details", .object e.details)])])]

def versionToJson (version : Option Nat) : Json :=
  .ofOption (fun v => .int v) version

def helpDocument (argv : List String) (version : Option Nat) : Json :=
  .object [
    ("schema_version", .string schemaVersion),
    ("run", .object [
      ("argv", .strings argv),
      ("tool", .object [("name", .string toolName), ("version", versionToJson version)])]),
    ("options", .object [("json", .bool true)]),
    ("results", .object [
      ("summary", .object (summaryFields 0 "OK" "Help text")),
      ("help", .object [("text", .string helpText)])])]

/-- The strategies whose primes are taken. -/
def filterName (o : Options) : String :=
  if o.validate then "both" else o.strategy.name

def optionsToJson (argv : List String) (o : Options) : Json :=
  .object [
    ("argv", .strings argv),
    ("filter", .string (filterName o)),
    ("unique", .bool o.unique),
    ("verbose", .bool o.verbose),
    ("time_enabled", .bool o.time),
    ("confirm_primes", .bool o.confirmPrimes),
    ("validate", .bool o.validate),
    ("json_enabled", .bool true)]

def limitsToJson (o : Options) : Json :=
  .object [
    ("max_seconds", .ofOption Bound.toJson o.limits.maxSeconds),
    ("max_calls", .ofOption Bound.toJson o.limits.maxCalls),
    ("max_paths", .ofOption Bound.toJson o.limits.maxPaths),
    ("max_nodes", .ofOption Bound.toJson o.maxNodes)]

/-- The counters of all searches together: calls and paths add up, of the depths the greatest counts. -/
def totalStats (analyses : List Analysis) : SearchStats :=
  let stats := analyses.filterMap Analysis.stats
  { calls := (stats.map SearchStats.calls).foldl (· + ·) 0
    pathsFound := (stats.map SearchStats.pathsFound).foldl (· + ·) 0
    maxDepth := (stats.map SearchStats.maxDepth).foldl max 0 }

/-- What a run over a file came to. -/
structure RunResult where
  argv : List String
  arguments : Arguments
  analyses : List Analysis
  elapsed : Elapsed

/-- What is looked up for the document of a run. The time is read twice: to name the run, and to date it. -/
structure Particulars where
  version : Option Nat
  named : Timestamp
  dated : Timestamp
  bytes : ByteArray

/-- The document of a run that analyzed all units of a file. -/
def resultDocument (place : Place) (sourceFile : String) (p : Particulars) (r : RunResult) : Json :=
  let total := overall r.analyses
  .object [
    ("schema_version", .string schemaVersion),
    ("tool", .object [
      ("name", .string toolName),
      ("version", versionToJson p.version),
      ("source_file", .string (FileName.relative place.directory sourceFile))]),
    ("run", .object [
      ("run_id", .string (p.named.runId place.process)),
      ("timestamp_utc", .string p.dated.text),
      ("host", .string place.host),
      ("platform", .string place.platform)]),
    ("input", .object [
      ("file_path", .string (FileName.relative place.directory r.arguments.filename)),
      ("file_name", .string (FileName.base r.arguments.filename)),
      ("sha256", .string (Sha256.digest p.bytes)),
      ("units", .strings (r.analyses.map Analysis.name))]),
    ("options", optionsToJson r.argv r.arguments.options),
    ("limits", limitsToJson r.arguments.options),
    ("results", .object [
      ("summary", .object <| summaryFields total.exitCode total.status.label total.message ++ [
        ("unit_count", .int r.analyses.length),
        ("elapsed_seconds", .number (.floating r.elapsed.seconds))]),
      ("units", .array (r.analyses.map Analysis.toJson))]),
    ("diagnostics", .object [
      ("warnings", .array []),
      ("enumeration_stats", statsToJson (some (totalStats r.analyses)))])]

end PrimePaths.CommandLine
