import PrimePaths.Search.Enumeration

namespace PrimePaths

/-- A graph under construction, the limits set on it and the progress of its last search. -/
structure Session where
  graph : Graph
  verbose : Bool := false
  limits : Limits := {}
  progress : Progress := {}
  startedAt : Number := .whole 0

namespace Session

/-- A session on `n` nodes without edges. -/
def start (n : Int) (verbose : Bool) : Session where
  graph := .empty n
  verbose := verbose

/-- Adds one edge; a refused edge changes nothing. -/
def addEdge (s : Session) (u v : Int) : Option GraphFault × Session :=
  match s.graph.addEdge u v with
  | .ok g => (none, { s with graph := g })
  | .error e => (some e, s)

/-- Adds edges in their order up to the first one that is refused. -/
def addEdges (s : Session) : List (Int × Int) → Option GraphFault × Session
  | [] => (none, s)
  | (u, v) :: edges =>
    match s.addEdge u v with
    | (none, s) => s.addEdges edges
    | (some e, s) => (some e, s)

def setLimits (s : Session) (limits : Limits) : Session :=
  { s with limits }

variable {m : Type → Type} [Monad m]

/-- Searches anew from the given starts, from all nodes if there are none given. -/
def enumerate (s : Session) (now : m (Except Interruption Number)) (starts? : Option (List Int)) :
    m (Option Halt × Session) := do
  let (startedAt?, outcome) ← PrimePaths.enumerate now s.verbose s.limits s.graph starts?
  let startedAt := startedAt?.getD s.startedAt
  pure (outcome.halt?, { s with progress := outcome.progress, startedAt })

/-- Walks from one start node on top of what is recorded. -/
def walk (s : Session) (now : m (Except Interruption Number)) (start : Int) : m (Option Halt × Session) := do
  let b : Budget m := { limits := s.limits, now, startedAt := s.startedAt }
  let outcome ← (b.walkFrom s.graph start).outcome { s.progress with remarks := #[] }
  pure (outcome.halt?, { s with progress := outcome.progress })

/-- A step of a session. -/
inductive Step
  | addEdge (u v : Int)
  | setLimits (limits : Limits)
  | enumerate (starts? : Option (List Int))
  | walk (start : Int)
  deriving DecidableEq, Repr

/-- Why a step does not come to its end. -/
inductive Failure
  | edge (f : GraphFault)
  | search (halt : Halt)
  deriving DecidableEq, Repr

def perform (s : Session) (now : m (Except Interruption Number)) : Step → m (Option Failure × Session)
  | .addEdge u v =>
    let (e?, s) := s.addEdge u v
    pure (e?.map .edge, s)
  | .setLimits limits => pure (none, s.setLimits limits)
  | .enumerate starts? => do
    let (halt?, s) ← s.enumerate now starts?
    pure (halt?.map .search, s)
  | .walk start => do
    let (halt?, s) ← s.walk now start
    pure (halt?.map .search, s)

/-- Performs steps in their order, also after one that failed, and tells how each of them ended. -/
def performAll (s : Session) (now : m (Except Interruption Number)) :
    List Step → m (List (Step × Option Failure) × Session)
  | [] => pure ([], s)
  | step :: steps => do
    let (failure?, s) ← s.perform now step
    let (log, s) ← s.performAll now steps
    pure ((step, failure?) :: log, s)

end Session

end PrimePaths
