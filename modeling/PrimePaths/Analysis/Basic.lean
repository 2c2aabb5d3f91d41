import PrimePaths.Clock
import PrimePaths.Graph.FlowUnit
import PrimePaths.Path.Filter
import PrimePaths.Search.Enumeration
import PrimePaths.Search.Limits

namespace PrimePaths

/-- How to analyze and report; `maxNodes` bounds the nodes of a unit, `limits` each search. -/
structure Options where
  indexed : Bool := false
  validate : Bool := false
  confirmPrimes : Bool := false
  unique : Bool := false
  allPaths : Bool := false
  verbose : Bool := false
  time : Bool := false
  maxNodes : Option Bound := none
  limits : Limits := {}
  deriving DecidableEq, Repr

namespace Options

def strategy (o : Options) : Strategy :=
  if o.indexed then .indexed else .quadratic

/-- Halts at a unit with more nodes than are searched. -/
def nodesHalt? (o : Options) (n : Int) : Option Halt :=
  o.maxNodes.bind fun b => b.halt? (fun limit => limit.lt (.whole n)) (.nodes n)

end Options

inductive Status
  | ok
  | inconclusive
  | error
  deriving DecidableEq, Repr

def Status.label : Status → String
  | ok => "OK"
  | inconclusive => "INCONCLUSIVE"
  | error => "ERROR"

/-- What a validation says; a record from elsewhere may say it in other words. -/
inductive Verdict
  | pass
  | fail
  | inconclusive
  | other (label : String)
  deriving DecidableEq, Repr

def Verdict.label : Verdict → String
  | pass => "PASS"
  | fail => "FAIL"
  | inconclusive => "INCONCLUSIVE"
  | other label => label

/-- Whether both strategies found the same primes, and how many each found. -/
structure Agreement where
  same : Bool
  counts : List Nat
  deriving DecidableEq, Repr

structure Validation where
  verdict : Verdict
  reason : Option String
  agreement : Option Agreement
  deriving DecidableEq, Repr

/-- The check of the primes; no findings if it was not made. -/
structure Confirmation where
  enabled : Bool := false
  pass : Option Bool := none
  failureReason : Option String := none
  findings : Option Findings := none
  deriving DecidableEq, Repr

inductive UnitFailure
  | graph (e : GraphError)
  | limit (reached : LimitReached)
  deriving DecidableEq, Repr

structure GraphFacts where
  blockCount : Nat
  nodeCount : Int
  edgeCount : Nat
  blockIds : List Int
  edges : List (Int × Int)
  initial : List Int
  final : List Int
  deriving DecidableEq, Repr

/-- Paths and the count that is given with them; a record from elsewhere may give any number. -/
structure PathList where
  count : Int := 0
  paths : List Path := []
  deriving DecidableEq, Repr

structure SearchStats where
  calls : Nat
  pathsFound : Nat
  maxDepth : Nat
  deriving DecidableEq, Repr

structure Analysis where
  name : String
  status : Status := .ok
  message : Option String := none
  graph : Option GraphFacts := none
  paths : PathList := {}
  strategy : Strategy := .quadratic
  unique : Bool := false
  primes : PathList := {}
  confirmation : Confirmation := {}
  validation : Option Validation := none
  failure : Option UnitFailure := none
  stats : Option SearchStats := none
  elapsed : Elapsed := {}
  deriving DecidableEq, Repr

/-- The graph that an analysis looked at and the search on it. -/
structure Searched where
  graph : LiveGraph
  progress : Progress

structure Study where
  analysis : Analysis
  searched? : Option Searched

/-- What was said while a unit was analyzed, and its study unless that was cut short. -/
structure Attempt where
  trace : List String
  result : Except Interruption Study

namespace PathList

def ofList (paths : List Path) : PathList where
  count := paths.length
  paths := paths

end PathList

namespace GraphFacts

def ofGraph (g : LiveGraph) (blockCount : Nat) : GraphFacts where
  blockCount := blockCount
  nodeCount := g.graph.n
  edgeCount := g.graph.edgeCount
  blockIds := g.blockIds
  edges := g.graph.edges
  initial := g.graph.initialNodes
  final := g.graph.finalNodes

end GraphFacts

namespace SearchStats

def ofProgress (p : Progress) : SearchStats where
  calls := p.calls
  pathsFound := p.paths.size
  maxDepth := p.maxDepth

end SearchStats

namespace Confirmation

def ofFindings (enabled : Bool) (f : Findings) : Confirmation where
  enabled := enabled
  pass := some f.pass
  failureReason := f.complaint?.map Complaint.text
  findings := some f

end Confirmation

namespace Validation

/-- The verdict when a search stopped early. -/
def ofLimit (reached : LimitReached) : Validation where
  verdict := .inconclusive
  reason := some s!"enumeration incomplete ({reached.message})"
  agreement := none

/-- The verdict on the primes of a strategy and of the other one. -/
def ofPrimes (s : Strategy) (primes others : List Path) (f : Findings) : Validation :=
  let agreement := some { same := primes == others, counts := [primes.length, others.length] }
  if primes ≠ others then
    { verdict := .fail
      reason := some s!"{s.name} and {s.other.name} filters disagree"
      agreement }
  else
    match f.complaint? with
    | none =>
      { verdict := .pass
        reason := some "both filters produced the same valid prime paths"
        agreement }
    | some c => { verdict := .fail, reason := some c.text, agreement }

end Validation

namespace Analysis

/-- The record of a unit before anything is known about it. -/
def blank (name : String) (o : Options) : Analysis where
  name := name
  strategy := o.strategy
  unique := o.unique
  confirmation := { enabled := o.confirmPrimes }

/-- The message of a unit whose paths are all known. -/
def successMessage : String :=
  "Prime paths computed successfully"

end Analysis

namespace Study

def ofGraphError (u : FlowUnit) (o : Options) (e : GraphError) : Study where
  analysis := { Analysis.blank u.name o with
    status := .error
    message := some e.message
    failure := some (.graph e) }
  searched? := none

/-- What every study of a unit with a graph holds. -/
def searchedRecord (u : FlowUnit) (o : Options) (s : Searched) : Analysis :=
  { Analysis.blank u.name o with
    graph := some (.ofGraph s.graph u.entries.length)
    stats := some (.ofProgress s.progress) }

/-- The study of a unit whose search stopped, or did not start, because of a limit. -/
def ofLimit (u : FlowUnit) (o : Options) (s : Searched) (reached : LimitReached) : Study where
  analysis := { searchedRecord u o s with
    status := .inconclusive
    message := some s!"Stopped early due to search limits: {reached.message}"
    failure := some (.limit reached)
    validation := if o.validate then some (.ofLimit reached) else none }
  searched? := some s

/-- The study of a unit whose paths are all known, the prime ones among them given. -/
def ofPrimes (u : FlowUnit) (o : Options) (s : Searched) (primes : List Path) : Study :=
  let paths := s.progress.paths.toList
  let shown := if o.unique then distinctPaths primes else primes
  let checked := searchedRecord u o s
  let checked :=
    if o.validate then
      let findings := confirmPrimes paths primes
      { checked with
        validation :=
          some (.ofPrimes o.strategy primes (primePaths o.strategy.other paths) findings)
        confirmation := .ofFindings o.confirmPrimes findings }
    else if o.confirmPrimes then
      { checked with confirmation := .ofFindings true (confirmPrimes paths primes) }
    else checked
  { analysis := { checked with
      message := some Analysis.successMessage
      paths := .ofList paths
      primes := .ofList shown }
    searched? := some s }

section Congruence

variable {u u' : FlowUnit}

/-- A study of a graph reads the name of its unit and how many blocks the unit lists. -/
theorem searchedRecord_congr (hname : u.name = u'.name) (hlength : u.entries.length = u'.entries.length)
    (o : Options) (s : Searched) : searchedRecord u o s = searchedRecord u' o s := by
  rw [searchedRecord, searchedRecord, hname, hlength]

theorem ofLimit_congr (hname : u.name = u'.name) (hlength : u.entries.length = u'.entries.length)
    (o : Options) (s : Searched) (reached : LimitReached) :
    ofLimit u o s reached = ofLimit u' o s reached := by
  rw [ofLimit, ofLimit, searchedRecord_congr hname hlength]

theorem ofPrimes_congr (hname : u.name = u'.name) (hlength : u.entries.length = u'.entries.length)
    (o : Options) (s : Searched) (primes : List Path) :
    ofPrimes u o s primes = ofPrimes u' o s primes := by
  rw [ofPrimes, ofPrimes, searchedRecord_congr hname hlength]

end Congruence

end Study

namespace Attempt

/-- The lines about a graph and the search on it. -/
def searchTrace (u : FlowUnit) (s : Searched) : List String :=
  s.graph.summary u.entries.length :: s.progress.remarks.toList.map Remark.text

/-- The attempt at a unit without a graph. -/
def ofFault (u : FlowUnit) (o : Options) (f : GraphFault) : Attempt where
  trace := []
  result :=
    match f with
    | .invalid e => .ok (.ofGraphError u o e)
    | .crash c => .error (.crash c)

/-- The attempt at a unit whose search ended early, or did not start. -/
def ofHalt (u : FlowUnit) (o : Options) (s : Searched) (halt : Halt) : Attempt where
  trace := searchTrace u s
  result := halt.raised.map (.ofLimit u o s)

/-- The attempt at a unit whose search came to its end. -/
def ofSearch (u : FlowUnit) (o : Options) (s : Searched) : Attempt :=
  let paths := s.progress.paths.toList
  let primes := primePaths o.strategy paths
  { trace := searchTrace u s ++ [
      s!"[INFO] Filtering prime paths ({o.strategy.name})...",
      s!"[INFO] Prime paths: {primes.length} of {paths.length} paths"]
    result := .ok (.ofPrimes u o s primes) }

end Attempt

variable {m : Type → Type} [Monad m]

/-- Analyzes a unit: its graph, all paths of the graph, and the prime ones among them. -/
def attempt (now : m (Except Interruption Number)) (u : FlowUnit) (o : Options) : m Attempt :=
  match u.graph with
  | .error f => pure (.ofFault u o f)
  | .ok graph =>
    match o.nodesHalt? graph.graph.n with
    | some halt => pure (.ofHalt u o { graph, progress := {} } halt)
    | none => do
      let (_, outcome) ← enumerate now o.verbose o.limits graph.graph none
      let searched : Searched := { graph, progress := outcome.progress }
      match outcome.halt? with
      | some halt => pure (.ofHalt u o searched halt)
      | none => pure (.ofSearch u o searched)

end PrimePaths

namespace PrimePaths

def Study.withElapsed (s : Study) (elapsed : Elapsed) : Study :=
  { s with analysis := { s.analysis with elapsed } }

/-- The attempt that took the time between two readings of the nanosecond clock, in which a failure to read
the clock, or too long a time, takes the place of the result. -/
def Attempt.timed (a : Attempt) (began : Int) (ended : Except Interruption Int) : Attempt where
  trace := a.trace
  result := do
    let s ← a.result
    let span ← (Elapsed.ofNanoseconds ((← ended) - began)).mapError .crash
    return s.withElapsed span

variable {m : Type → Type} [Monad m]

/-- Analyzes a unit between two readings of the nanosecond clock; there is no second one after a crash. -/
def timedAttempt (clocks : Clocks m) (u : FlowUnit) (o : Options) : m Attempt := do
  match ← clocks.nanoseconds with
  | .error i => pure { trace := [], result := .error i }
  | .ok began =>
    let a ← attempt clocks.seconds u o
    match a.result with
    | .error _ => pure a
    | .ok _ => return a.timed began (← clocks.nanoseconds)

end PrimePaths
