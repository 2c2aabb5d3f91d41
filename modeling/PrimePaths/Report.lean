import PrimePaths.Analysis.Basic
import PrimePaths.Message

namespace PrimePaths.Report

def textOrNone (s? : Option String) : String :=
  s?.getD "None"

def joined (is : List Int) : String :=
  ", ".intercalate (is.map toString)

/-- The lines of a block: its index, and its successors if it has any. -/
def blockLines (e : Entry) : List String :=
  (s!"  Block {e.index}" ++ if e.block.live then " (live)" else "") ::
    if e.block.succs.isEmpty then []
    else ["    -> " ++ ", ".intercalate (e.block.succs.map fun s => s!"Block {s}")]

/-- The name of a unit and its blocks by index. -/
def listing (u : FlowUnit) : List String :=
  s!"=== Function: {u.name} ===" :: "" :: "CFG Blocks:" :: u.sorted.flatMap blockLines

def graphInfo (g : Graph) : List String :=
  ["", "Graph Info:", "Edges:"] ++ (g.edges.map fun (u, v) => s!"  {u} {v}") ++
    ["Initial nodes: " ++ joined g.initialNodes, "Final nodes: " ++ joined g.finalNodes]

/-- Paths under a heading, numbered from one. -/
def numbered (heading : String) (paths : List Path) : List String :=
  "" :: heading :: (paths.zipIdx 1).map fun (p, i) => s!"  {i}: {p.text}"

def confirmation (u : FlowUnit) (c : Confirmation) : List String :=
  let count (f : Findings → List Path) : Nat := (c.findings.map f).elim 0 List.length
  [s!"=== CONFIRM-PRIMES ({u.name}) ===",
    s!"Prime paths not enumerated: {count Findings.invented}",
    s!"Prime paths not maximal: {count Findings.notMaximal}",
    s!"Paths not covered by a prime path: {count Findings.uncovered}",
    if c.pass = some true then
      "Result: PASS (prime paths are enumerated, maximal and cover every path)"
    else s!"Result: FAIL ({textOrNone c.failureReason})"]

def validation (v : Validation) : String :=
  s!"Validation result: {v.verdict.label} ({textOrNone v.reason})"

/-- What is known about a unit whose search stopped. -/
def stopped (a : Analysis) (p : Progress) : List String :=
  [textOrNone a.message, s!"Progress so far: calls={p.calls}, paths_found={p.paths.size}"] ++
    if a.validation.isSome then
      ["Validation result: INCONCLUSIVE (enumeration did not complete within limits)"]
    else []

def results (u : FlowUnit) (g : Graph) (a : Analysis) (o : Options) : List String :=
  (if o.allPaths then numbered "All Paths:" a.paths.paths else []) ++
    numbered "Prime Paths:" a.primes.paths ++
    [s!"Number of Nodes: {g.n}",
      s!"Number of Edges: {g.edgeCount}",
      s!"Number of Paths Found: {a.paths.count}",
      s!"Number of Prime Paths: {a.primes.count}"] ++
    (if o.confirmPrimes || o.validate then confirmation u a.confirmation else []) ++
    (a.validation.map validation).toList

/-- The report on a unit; one without a graph has its blocks and a complaint only. -/
def ofUnit (u : FlowUnit) (searched? : Option Searched) (a : Analysis) (o : Options) : List Message :=
  let lines (ls : List String) : List Message := ls.map Message.line
  let complaint : List Message :=
    [.complaint s!"Error: unit '{u.name}': {textOrNone a.message}", .line ""]
  match a.status, searched? with
  | .error, _ | _, none => lines (listing u) ++ complaint
  | .inconclusive, some s =>
    lines (listing u ++ graphInfo s.graph.graph ++ stopped a s.progress ++ [""])
  | .ok, some s =>
    lines (listing u ++ graphInfo s.graph.graph ++ results u s.graph.graph a o ++ [""])

end PrimePaths.Report
