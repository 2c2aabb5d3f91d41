import PrimePaths.Crash
import PrimePaths.Number.Basic

namespace PrimePaths

structure Timestamp where
  year : Nat
  month : Nat
  day : Nat
  hour : Nat
  minute : Nat
  second : Nat
  microsecond : Nat
  deriving DecidableEq, Repr

namespace Timestamp

def epoch : Timestamp where
  year := 1970
  month := 1
  day := 1
  hour := 0
  minute := 0
  second := 0
  microsecond := 0

/-- A number with zeros in front up to a width. -/
def padded (width n : Nat) : String :=
  let ds := (toString n).toList
  String.ofList (List.replicate (width - ds.length) '0' ++ ds)

/-- Date and time of day; microseconds are shown if there are any. -/
def text (t : Timestamp) : String :=
  let fraction := if t.microsecond = 0 then "" else "." ++ padded 6 t.microsecond
  s!"{padded 4 t.year}-{padded 2 t.month}-{padded 2 t.day}" ++
    s!"T{padded 2 t.hour}:{padded 2 t.minute}:{padded 2 t.second}" ++ fraction ++ "Z"

/-- The name of a run: its time and its process. -/
def runId (t : Timestamp) (process : Nat) : String :=
  s!"{t.text}::pid{process}"

end Timestamp

/-- What cuts a run short: its user, or a failure, such as that of a clock. -/
inductive Interruption
  | byUser
  | crash (c : Crash)
  deriving DecidableEq, Repr

/-- The clocks that a run reads: seconds limit a search, nanoseconds time the run, and the time of day names
it. Each reading may cut the run short. -/
structure Clocks (m : Type → Type) where
  seconds : m (Except Interruption Number)
  nanoseconds : m (Except Interruption Int)
  today : m (Except Interruption Timestamp)

/-- The readings of each clock, by number. -/
structure Recording where
  seconds : Nat → Except Interruption Number
  nanoseconds : Nat → Except Interruption Int
  today : Nat → Except Interruption Timestamp

/-- How many readings were taken of each clock. -/
structure Readings where
  seconds : Nat := 0
  nanoseconds : Nat := 0
  today : Nat := 0
  deriving DecidableEq, Repr

/-- A run on recorded readings. -/
abbrev Replay := StateM Readings

/-- The clocks that answer from a recording, one reading after the other. -/
def Recording.clocks (r : Recording) : Clocks Replay where
  seconds := modifyGet fun t => (r.seconds t.seconds, { t with seconds := t.seconds + 1 })
  nanoseconds :=
    modifyGet fun t => (r.nanoseconds t.nanoseconds, { t with nanoseconds := t.nanoseconds + 1 })
  today := modifyGet fun t => (r.today t.today, { t with today := t.today + 1 })

/-- Clocks on which the seconds count up from zero and all else stands still. -/
def Recording.counting (nanoseconds : Int) : Recording where
  seconds := fun k => .ok (.whole k)
  nanoseconds := fun _ => .ok nanoseconds
  today := fun _ => .ok .epoch

/-- A span of time: its nanoseconds, and the seconds nearest to them. -/
structure Elapsed where
  nanoseconds : Int := 0
  seconds : Binary64 := .zero false
  deriving DecidableEq, Repr

namespace Elapsed

def perSecond : Nat := 1000000000

/-- A span of nanoseconds, unless they are too many for a floating point number. -/
def ofNanoseconds (nanoseconds : Int) : Except Crash Elapsed :=
  match Binary64.ofInt nanoseconds with
  | .infinite _ => .error .overflow
  | x => .ok { nanoseconds, seconds := x.divNat perSecond }

theorem exists_ofNanoseconds {nanoseconds : Int} (h : nanoseconds.natAbs.log2 < 64) :
    ∃ span, ofNanoseconds nanoseconds = .ok span := by
  unfold ofNanoseconds
  split
  · rename_i negative hinfinite
    exact absurd hinfinite (Binary64.ofInt_ne_infinite h negative)
  · exact ⟨_, rfl⟩

/-- The whole nanoseconds that the seconds come to, in floating point arithmetic. -/
def nanosecondsOfSeconds (e : Elapsed) : Except Crash Int :=
  match (e.seconds.mul (.ofInt perSecond)).truncate? with
  | some i => .ok i
  | none => .error .overflow

end Elapsed

end PrimePaths
