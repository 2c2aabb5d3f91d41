import PrimePaths.Path.Basic
import PrimePaths.Search.Limits

namespace PrimePaths

/-- A remark of a search, for whoever wants to follow it. -/
inductive Remark
  | started (n : Int) (limits : Limits)
  | passing (calls paths depth : Nat)
  | complete (calls paths : Nat)
  deriving DecidableEq, Repr

def Remark.text : Remark → String
  | started n limits => s!"[INFO] Starting DFS path enumeration from {n} nodes ({limits.text})..."
  | passing calls paths depth => s!"[DFS] calls={calls}, paths_found={paths}, depth={depth}"
  | complete calls paths => s!"[INFO] DFS complete: calls={calls}, total_paths={paths}"

/-- Whether a remark can be made. Counts are never too long, but a graph may be made for any number of nodes
below zero. -/
def Remark.Writable : Remark → Prop
  | started n limits => (n < 0 → (Number.whole n).Writable) ∧ limits.Writable
  | _ => True

instance : DecidablePred Remark.Writable
  | .started n limits => inferInstanceAs (Decidable ((n < 0 → (Number.whole n).Writable) ∧ limits.Writable))
  | .passing .. | .complete .. => .isTrue trivial

structure Progress where
  paths : Array Path := #[]
  calls : Nat := 0
  maxDepth : Nat := 0
  remarks : Array Remark := #[]
  deriving DecidableEq, Repr

/-- Search steps; the progress outlives an early end. -/
abbrev Search (m : Type → Type) := ExceptT Halt (StateT Progress m)

/-- What a search is held to: its limits, its clock, and the time at which it started. -/
structure Budget (m : Type → Type) where
  limits : Limits
  now : m (Except Interruption Number)
  startedAt : Number

namespace Budget

variable {m : Type → Type} [Monad m]

def stopAt : Option Halt → Search m Unit
  | some halt => throw halt
  | none => pure ()

/-- Stops if too many calls were made or too much time went by; the clock is read only if time counts. -/
def check (b : Budget m) : Search m Unit := do
  let p ← get
  stopAt (b.limits.callsHalt? p.calls)
  if b.limits.maxSeconds.isSome then
    match ← b.now with
    | .ok time => stopAt (b.limits.secondsHalt? (time.sub b.startedAt))
    | .error i => throw (.cut i)

/-- Records a path if there is room for it. -/
def record (b : Budget m) (path : Path) : Search m Unit := do
  let p ← get
  stopAt (b.limits.pathsHalt? p.paths.size)
  modify fun p => { p with paths := p.paths.push path }

def remarkEvery : Nat := 10000

/-- Counts a call for a path without a repeated node, then records it. -/
def expand (b : Budget m) (path : Path) : Search m Unit := do
  modify fun p => { p with calls := p.calls + 1 }
  b.check
  modify fun p => { p with maxDepth := max p.maxDepth path.length }
  modify fun p =>
    if p.calls % remarkEvery = 0 then
      { p with remarks := p.remarks.push (.passing p.calls p.paths.size path.length) }
    else p
  b.record path

end Budget

end PrimePaths
