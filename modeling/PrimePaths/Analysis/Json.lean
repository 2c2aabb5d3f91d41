import PrimePaths.Analysis.Basic
import PrimePaths.Json

namespace PrimePaths

open Json

def Path.toJson (p : Path) : Json :=
  .ints p

def Bound.toJson : Bound → Json
  | .number n => .number n
  | .blank => .array []

def pathsToJson (paths : List Path) : Json :=
  .array (paths.map Path.toJson)

def edgesToJson (edges : List (Int × Int)) : Json :=
  .array (edges.map fun (u, v) => .ints [u, v])

def GraphError.details : GraphError → List (String × Json)
  | edgeOutside u v n => [("u", .int u), ("v", .int v), ("n", .int n)]
  | successorOutside block successor count =>
    [("block", .int block), ("successor", .int successor), ("block_count", .int count)]
  | duplicateBlock unit block line =>
    [("unit", .string unit), ("block", .int block), ("line", .ofOption Json.int line)]
  | gap unit missing indices =>
    [("unit", .string unit), ("missing", .ints missing), ("indices", .ints indices)]

def UnitFailure.toJson : UnitFailure → Json
  | graph e =>
    .object [("code", .string "GRAPH_INVALID"), ("message", .string e.message),
      ("details", .object e.details)]
  | limit reached =>
    .object [("code", .string "SEARCH_LIMIT"), ("message", .string reached.message),
      ("details", .object [])]

def GraphFacts.toJson (g : GraphFacts) : Json :=
  .object [
    ("block_count", .int g.blockCount),
    ("node_count", .int g.nodeCount),
    ("edge_count", .int g.edgeCount),
    ("block_ids", .ints g.blockIds),
    ("edges", edgesToJson g.edges),
    ("initial", .ints g.initial),
    ("final", .ints g.final)]

/-- The lists of findings, if a check was made. -/
def Findings.fields (f : Findings) : List (String × Json) :=
  [("invented", pathsToJson f.invented),
    ("not_maximal", pathsToJson f.notMaximal),
    ("uncovered", pathsToJson f.uncovered)]

def Confirmation.toJson (c : Confirmation) : Json :=
  .object <| [
    ("enabled", .bool c.enabled),
    ("pass", .ofOption Json.bool c.pass),
    ("failure_reason", .ofOption Json.string c.failureReason)] ++
    (c.findings.map Findings.fields).getD []

def Agreement.toJson (a : Agreement) : Json :=
  .object [("prime_paths", .bool a.same), ("prime_count", .ints (a.counts.map Int.ofNat))]

def Validation.toJson (v : Validation) : Json :=
  .object [
    ("status", .string v.verdict.label),
    ("reason", .ofOption Json.string v.reason),
    ("agreement", .ofOption Agreement.toJson v.agreement)]

/-- The counters of a search, or nulls if there was no graph to search. -/
def statsToJson (s? : Option SearchStats) : Json :=
  let field (f : SearchStats → Nat) : Json := .ofOption (fun s => .int (f s)) s?
  .object [
    ("dfs_calls", field SearchStats.calls),
    ("paths_found", field SearchStats.pathsFound),
    ("max_depth", field SearchStats.maxDepth)]

def Analysis.toJson (a : Analysis) : Json :=
  .object [
    ("name", .string a.name),
    ("status", .string a.status.label),
    ("message", .ofOption Json.string a.message),
    ("graph", .ofOption GraphFacts.toJson a.graph),
    ("paths", .object [
      ("path_count", .int a.paths.count),
      ("paths", pathsToJson a.paths.paths)]),
    ("prime_paths", .object [
      ("strategy", .string a.strategy.name),
      ("unique", .bool a.unique),
      ("prime_count", .int a.primes.count),
      ("paths", pathsToJson a.primes.paths)]),
    ("confirm_primes", a.confirmation.toJson),
    ("validation", .ofOption Validation.toJson a.validation),
    ("error", .ofOption UnitFailure.toJson a.failure),
    ("enumeration_stats", statsToJson a.stats),
    ("performance", .object [
      ("elapsed_seconds", .number (.floating a.elapsed.seconds)),
      ("elapsed_nanoseconds", .int a.elapsed.nanoseconds)])]

end PrimePaths
