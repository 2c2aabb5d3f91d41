import PrimePaths.Generator.Chooser
import PrimePaths.Graph.FlowUnit
import Std.Data.HashSet

namespace PrimePaths.Generator

structure Shape where
  blocks : Int
  extraEdges : Int
  deadBlocks : Int := 0
  deriving DecidableEq, Repr

inductive ShapeError
  /-- Edges are asked for where there is no block. -/
  | noBlocks
  | negativeDeadBlocks
  deriving DecidableEq, Repr

def ShapeError.message : ShapeError → String
  | noBlocks => "empty range for randrange()"
  | negativeDeadBlocks => "Sample larger than population or is negative"

abbrev EdgeSet := Std.HashSet (Nat × Nat)

namespace Shape

def count (s : Shape) : Nat :=
  s.blocks.toNat

def edgeGoal (s : Shape) : Int :=
  s.blocks - 1 + s.extraEdges

/-- How many random edges are tried. -/
def attempts (s : Shape) : Nat :=
  (s.extraEdges * 20).toNat

/-- The edges of the chain through all blocks. -/
def chain (s : Shape) : EdgeSet :=
  Std.HashSet.ofList ((List.range (s.count - 1)).map fun i => (i, i + 1))

/-- How many blocks are to be dead; the first one has to live. -/
def deadCount (s : Shape) : Nat :=
  min s.deadBlocks.toNat (s.count - 1)

end Shape

variable {σ : Type}

/-- Tries random edges until there are as many as wanted; one that is there already adds nothing. -/
def addRandomEdges (c : Chooser σ) (n : Nat) (goal : Int) : Nat → EdgeSet → σ → EdgeSet × σ
  | 0, edges, s => (edges, s)
  | tries + 1, edges, s =>
    if goal ≤ edges.size then (edges, s)
    else
      let (u, s) := c.below n s
      let (v, s) := c.below n s
      addRandomEdges c n goal tries (edges.insert (u, v)) s

def blocksOf (n : Nat) (edges : EdgeSet) (dead : List Nat) : List Block :=
  (List.range n).map fun i => {
    live := !dead.contains i
    succs := ((List.range n).filter fun v => edges.contains (i, v)).map Int.ofNat }

def blocks (c : Chooser σ) (shape : Shape) (s : σ) : Except ShapeError (List Block) :=
  if shape.count = 0 ∧ 0 < shape.edgeGoal ∧ 0 < shape.attempts then .error .noBlocks
  else
    let (edges, s) := addRandomEdges c shape.count shape.edgeGoal shape.attempts shape.chain s
    if shape.deadBlocks < 0 then .error .negativeDeadBlocks
    else
      let (places, _) := c.sample (shape.count - 1) shape.deadCount s
      .ok (blocksOf shape.count edges (places.map (· + 1)))

def seeded (shape : Shape) (seed : Int) : Except ShapeError (List Block) :=
  blocks .twister shape (Twister.ofSeed seed)

end PrimePaths.Generator
