import PrimePaths.Graph.Basic

namespace PrimePaths

/-- A basic block: whether it is live, and the indices of the blocks that may follow it. -/
structure Block where
  live : Bool
  succs : List Int
  deriving DecidableEq, Repr

/-- The graph of the live blocks, the block of each node, and how many edges touched a dead block. -/
structure LiveGraph where
  graph : Graph
  blockIds : List Int
  dropped : Nat

namespace LiveGraph

/-- The first successor that is no block, by block and place. -/
def strayEdge? (blocks : List Block) : Option GraphError :=
  blocks.zipIdx.findSome? fun (b, i) =>
    (b.succs.find? fun (s : Int) => !(0 ≤ s && s < (blocks.length : Int))).map fun s =>
      .successorOutside i s blocks.length

/-- The indices of the live blocks in ascending order. -/
def liveIds (blocks : List Block) : List Int :=
  (blocks.zipIdx.filter fun (b, _) => b.live).map fun (_, i) => (i : Int)

def nodeOf? (ids : List Int) (block : Int) : Option Int :=
  (ids.idxOf? block).map Int.ofNat

/-- The edges among live blocks as edges among their nodes, in block order. -/
def liveEdges (blocks : List Block) (ids : List Int) : List (Int × Int) :=
  (blocks.filter Block.live).zipIdx.flatMap fun (b, u) =>
    (b.succs.filterMap (nodeOf? ids)).map fun v => ((u : Int), v)

/-- The graph of the live blocks; every successor, also one of a dead block, has to be a block. -/
def ofBlocks (blocks : List Block) : Except GraphFault LiveGraph :=
  match strayEdge? blocks with
  | some e => e.raise
  | none => do
    let ids := liveIds blocks
    let edges := liveEdges blocks ids
    let graph ← (Graph.empty ids.length).addEdges edges
    let listed := ((blocks.filter Block.live).flatMap Block.succs).length
    pure { graph, blockIds := ids, dropped := listed - edges.length }

/-- A line about the graph of a listing with `count` blocks. -/
def summary (g : LiveGraph) (count : Nat) : String :=
  s!"[INFO] Normalized graph: blocks={count}, live_nodes={g.graph.n}, " ++
    s!"edges={g.graph.edgeCount}, dropped_edges={g.dropped}"

end LiveGraph

/-- A listed block with its index and the line that lists it. -/
structure Entry where
  index : Int
  block : Block
  line : Option Int := none
  deriving DecidableEq, Repr

/-- The block listing of one function, in the order in which the blocks were listed. -/
structure FlowUnit where
  name : String
  line : Option Int := none
  entries : List Entry := []
  deriving DecidableEq, Repr

namespace FlowUnit

def addEntry (u : FlowUnit) (e : Entry) : FlowUnit :=
  { u with entries := u.entries ++ [e] }

/-- The first entry whose index an earlier entry has. -/
def firstRepeat? : List Entry → List Int → Option Entry
  | [], _ => none
  | e :: es, seen => if e.index ∈ seen then some e else firstRepeat? es (e.index :: seen)

def sorted (u : FlowUnit) : List Entry :=
  u.entries.mergeSort fun a b => a.index ≤ b.index

/-- The blocks by index; the indices have to run from zero without gap or repetition. -/
def blockTable (u : FlowUnit) : Except GraphFault (List Block) :=
  match firstRepeat? u.entries [] with
  | some e => (GraphError.duplicateBlock u.name e.index e.line).raise
  | none =>
    let expected := (List.range u.entries.length).map Int.ofNat
    let indices := u.sorted.map Entry.index
    if indices = expected then .ok (u.sorted.map Entry.block)
    else (GraphError.gap u.name (expected.filter fun i => !indices.contains i) indices).raise

/-- The graph of the live blocks of a unit. -/
def graph (u : FlowUnit) : Except GraphFault LiveGraph := do
  LiveGraph.ofBlocks (← u.blockTable)

end FlowUnit

end PrimePaths
