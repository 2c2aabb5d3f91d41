import PrimePaths.Search.Walk

namespace PrimePaths

namespace Walk

/-- How many steps one successor can cost when the path may still grow by `c` nodes. -/
def cost (degree : Nat) : Nat → Nat
  | 0 => 1
  | c + 1 => degree * cost degree c + 2

/-- A bound on the steps that are left: each list of the stack counts with the room above it. -/
def weightOf (degree room : Nat) : List (List Int) → Nat
  | [] => 0
  | us :: rest => us.length * cost degree (room - (rest.length + 1)) + 1 + weightOf degree room rest

def weight (g : Graph) (w : Walk) : Nat :=
  weightOf g.edgeCount (room g) w.unread

private theorem length_le_edgeCount {g : Graph} {us : List Int} (h : us ∈ g.succs) :
    us.length ≤ g.edgeCount := by
  unfold Graph.edgeCount
  exact (List.sublist_flatten_of_mem (Array.mem_toList_iff.mpr h)).length_le

private theorem length_succsOf_le (g : Graph) (u : Int) : (g.succsOf u).length ≤ g.edgeCount := by
  unfold Graph.succsOf
  cases hu : g.succsOf? u with
  | none => simp
  | some us =>
    refine length_le_edgeCount ?_
    unfold Graph.succsOf? at hu
    split at hu
    · exact Array.mem_of_getElem? hu
    · split at hu
      · exact Array.mem_of_getElem? hu
      · simp at hu

theorem cost_pos (degree c : Nat) : 0 < cost degree c := by
  cases c <;> simp [cost]

/-- Each step takes weight away. -/
theorem weight_next {g : Graph} {start : Int} {w w' : Walk} {f : Finding} (h : w.InBounds g start)
    (hstep : w.next? g start = some (f, w')) : w'.weight g < w.weight g := by
  have hbound := (h.next hstep).depth_le
  unfold next? at hstep
  unfold weight
  split at hstep
  · simp at hstep
  · rename_i rest hw
    obtain ⟨-, rfl⟩ := Prod.mk.inj (Option.some.inj hstep)
    simp [hw, weightOf]
  · rename_i v vs rest hw
    have hpos := cost_pos g.edgeCount (room g - (rest.length + 1))
    split at hstep
    · obtain ⟨-, rfl⟩ := Prod.mk.inj (Option.some.inj hstep)
      simp only [hw, weightOf, List.length_cons, Nat.add_mul]
      omega
    · split at hstep
      · obtain ⟨-, rfl⟩ := Prod.mk.inj (Option.some.inj hstep)
        simp only [hw, weightOf, List.length_cons, Nat.add_mul]
        omega
      · obtain ⟨-, rfl⟩ := Prod.mk.inj (Option.some.inj hstep)
        simp only [List.length_cons] at hbound
        obtain ⟨c, hc⟩ : ∃ c, room g - (rest.length + 1) = c + 1 :=
          ⟨room g - (rest.length + 1) - 1, by omega⟩
        have hc' : room g - (rest.length + 1 + 1) = c := by omega
        have hdeg := Nat.mul_le_mul_right (cost g.edgeCount c) (length_succsOf_le g v)
        simp only [hw, weightOf, List.length_cons, Nat.add_mul, hc, hc', cost]
        omega

end Walk

namespace Budget

variable {m : Type → Type} [Monad m]

def act (b : Budget m) : Finding → Search m Unit
  | .close path => b.record path
  | .enter path => b.expand path
  | .skip => pure ()
  | .back => pure ()

/-- Walks on until the start node is left or the budget ends the search. -/
def follow (b : Budget m) (g : Graph) (start : Int) (w : Walk) (h : w.InBounds g start) :
    Search m Unit :=
  match hstep : w.next? g start with
  | none => pure ()
  | some (f, w') => do
    b.act f
    b.follow g start w' (h.next hstep)
termination_by w.weight g
decreasing_by exact Walk.weight_next h hstep

/-- Records the start alone, then walks from it; a start that names no node stops the search. -/
def walkFrom (b : Budget m) (g : Graph) (start : Int) : Search m Unit := do
  b.expand [start]
  match h : g.succsOf? start with
  | none => throw (.cut (.crash .unknownStart))
  | some us => b.follow g start (.begin start us) (Walk.inBounds_begin h)

end Budget

variable {m : Type → Type} [Monad m]

def remark (r : Remark) : Search m Unit :=
  modify fun p => { p with remarks := p.remarks.push r }

/-- A search from the given starts in their order, with its remarks. -/
def Budget.enumerate (b : Budget m) (g : Graph) (starts : List Int) : Search m Unit := do
  remark (.started g.n b.limits)
  starts.forM (b.walkFrom g)
  let p ← get
  remark (.complete p.calls p.paths.size)

structure Outcome where
  halt? : Option Halt
  progress : Progress
  deriving DecidableEq, Repr

def Search.outcome (s : Search m Unit) (p : Progress) : m Outcome := do
  let (r, p) ← s.run.run p
  match r with
  | .ok _ => pure { halt? := none, progress := p }
  | .error e => pure { halt? := some e, progress := p }

namespace Outcome

/-- The outcome of a search that does not come to its first start. -/
def cut (i : Interruption) : Outcome where
  halt? := some (.cut i)
  progress := {}

/-- An outcome with the time of the start, once that was read. -/
def since (outcome : Outcome) : Except Interruption Number → Option Number × Outcome
  | .ok startedAt => (some startedAt, outcome)
  | .error i => (none, .cut i)

end Outcome

/-- Enumerates the paths from the given starts, all nodes if there are none given, and tells when it started.
The clock is read once for that time. A verbose search says its limits first, and does not go on if they
cannot be written. -/
def enumerate (now : m (Except Interruption Number)) (verbose : Bool) (limits : Limits) (g : Graph)
    (starts? : Option (List Int)) : m (Option Number × Outcome) := do
  match ← now with
  | .error i => pure (none, .cut i)
  | .ok startedAt =>
    if verbose ∧ ¬(Remark.started g.n limits).Writable then
      pure (some startedAt, .cut (.crash .unwritable))
    else
      let b : Budget m := { limits, now, startedAt }
      let outcome ← (b.enumerate g (starts?.getD g.nodes)).outcome {}
      pure (some startedAt, outcome)

/-- Who says nothing, or can say it, is not cut short for it. -/
theorem enumerate_verbose (now : m (Except Interruption Number)) {limits : Limits} {g : Graph}
    (h : (Remark.started g.n limits).Writable) (starts? : Option (List Int)) (verbose : Bool) :
    enumerate now verbose limits g starts? = enumerate now false limits g starts? := by
  simp [enumerate, h]

end PrimePaths
