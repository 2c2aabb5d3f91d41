import PrimePaths.Clock

namespace PrimePaths

/-- A bound on a search. A blank one was asked for without a value; nothing can be compared with it. -/
inductive Bound
  | number (n : Number)
  | blank
  deriving DecidableEq, Repr

namespace Bound

def text : Bound → String
  | number n => n.text
  | blank => "[]"

def Writable : Bound → Prop
  | number n => n.Writable
  | blank => True

instance : DecidablePred Writable
  | number n => inferInstanceAs (Decidable n.Writable)
  | blank => .isTrue trivial

end Bound

/-- Bounds on one search; an absent one bounds nothing. -/
structure Limits where
  maxSeconds : Option Bound := none
  maxCalls : Option Bound := none
  maxPaths : Option Bound := none
  deriving DecidableEq, Repr

inductive LimitReached
  | calls (limit : Number)
  | seconds (limit : Number)
  | paths (limit : Number)
  | nodes (count : Int) (limit : Number)
  deriving DecidableEq, Repr

namespace LimitReached

def message : LimitReached → String
  | calls limit => s!"DFS call limit exceeded ({limit.text})."
  | seconds limit => s!"Time limit exceeded ({limit.text} seconds)."
  | paths limit => s!"Path limit exceeded ({limit.text})."
  | nodes count limit => s!"Node limit exceeded ({count} > {limit.text})."

/-- The limit that the message writes. -/
def limit : LimitReached → Number
  | calls limit | seconds limit | paths limit | nodes _ limit => limit

end LimitReached

/-- Why a search halts: at a limit, or cut short. -/
inductive Halt
  | limit (reached : LimitReached)
  | cut (i : Interruption)
  deriving DecidableEq, Repr

/-- What comes of a halt: the limit with its message, or what cut the search short. A message that cannot be
written does so, too. -/
def Halt.raised : Halt → Except Interruption LimitReached
  | limit reached =>
    if reached.limit.Writable then .ok reached else .error (.crash .unwritable)
  | cut i => .error i

theorem Halt.raised_eq_ok_iff {halt : Halt} {reached : LimitReached} :
    halt.raised = .ok reached ↔ halt = .limit reached ∧ reached.limit.Writable := by
  cases halt with
  | cut i => simp [raised]
  | limit found =>
    by_cases hwritten : found.limit.Writable
    · simp only [raised, hwritten, if_true, Except.ok.injEq, limit.injEq]
      exact ⟨fun h => ⟨h, h ▸ hwritten⟩, And.left⟩
    · simp only [raised, hwritten, if_false, limit.injEq]
      exact iff_of_false nofun fun h => hwritten (h.1 ▸ h.2)

/-- What a bound says to a search: it halts one that `passes` the number, and a blank bound halts all. -/
def Bound.halt? (b : Bound) (passes : Number → Bool) (reached : Number → LimitReached) : Option Halt :=
  match b with
  | number limit => if passes limit then some (.limit (reached limit)) else none
  | blank => some (.cut (.crash .blankValue))

namespace Limits

/-- Halts when more calls were made than allowed. -/
def callsHalt? (l : Limits) (calls : Nat) : Option Halt :=
  l.maxCalls.bind fun b => b.halt? (fun limit => limit.lt (.whole calls)) .calls

/-- Halts when more time went by than allowed. -/
def secondsHalt? (l : Limits) (elapsed : Number) : Option Halt :=
  l.maxSeconds.bind fun b => b.halt? (fun limit => limit.lt elapsed) .seconds

/-- Halts when as many paths are recorded as allowed, so that there is no room for another. -/
def pathsHalt? (l : Limits) (recorded : Nat) : Option Halt :=
  l.maxPaths.bind fun b => b.halt? (fun limit => limit.le (.whole recorded)) .paths

/-- The limits that are given. -/
def given (l : Limits) : List Bound :=
  l.maxSeconds.toList ++ l.maxCalls.toList ++ l.maxPaths.toList

def Writable (l : Limits) : Prop :=
  ∀ b ∈ l.given, b.Writable

instance : DecidablePred Writable :=
  fun l => inferInstanceAs (Decidable (∀ b ∈ l.given, b.Writable))

def text (l : Limits) : String :=
  let shown (name : String) (b? : Option Bound) : List String :=
    (b?.map fun b => s!"{name}={b.text}").toList
  let all :=
    shown "max_seconds" l.maxSeconds ++ shown "max_calls" l.maxCalls ++ shown "max_paths" l.maxPaths
  if all.isEmpty then "no limits" else ", ".intercalate all

end Limits

end PrimePaths
