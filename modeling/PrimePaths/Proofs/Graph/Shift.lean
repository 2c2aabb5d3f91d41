import PrimePaths.Graph.FlowUnit

namespace PrimePaths

/-- The entry `k` lines further down. -/
def Entry.shift (k : Nat) (e : Entry) : Entry :=
  { e with line := e.line.map (· + (k : Int)) }

/-- The unit `k` lines further down. -/
def FlowUnit.shift (k : Nat) (u : FlowUnit) : FlowUnit :=
  { u with
    line := u.line.map (· + (k : Int))
    entries := u.entries.map (Entry.shift k) }

/-- The error without the number of a line. -/
def GraphError.lineless : GraphError → GraphError
  | duplicateBlock unit block _ => duplicateBlock unit block none
  | e => e

/-- The fault without the number of a line. -/
def GraphFault.lineless : GraphFault → GraphFault
  | invalid e => invalid e.lineless
  | crash c => crash c

/-- The line of an error is not in its message. -/
theorem GraphError.mapError_raise {α : Type} (e : GraphError) :
    (e.raise : Except GraphFault α).mapError GraphFault.lineless = e.lineless.raise := by
  have hwritable : e.lineless.Writable ↔ e.Writable := by
    cases e <;> exact Iff.rfl
  by_cases h : e.Writable
  · rw [raise, if_pos h, raise, if_pos (hwritable.mpr h)]
    rfl
  · rw [raise, if_neg h, raise, if_neg (mt hwritable.mp h)]
    rfl

namespace FlowUnit

variable {u : FlowUnit} {k : Nat}

theorem name_shift (k : Nat) (u : FlowUnit) : (u.shift k).name = u.name :=
  rfl

theorem length_shift (k : Nat) (u : FlowUnit) : (u.shift k).entries.length = u.entries.length :=
  List.length_map _

theorem firstRepeat?_shift (es : List Entry) (seen : List Int) :
    firstRepeat? (es.map (Entry.shift k)) seen = (firstRepeat? es seen).map (Entry.shift k) := by
  induction es generalizing seen with
  | nil => rfl
  | cons e es ih =>
    have hindex : (e.shift k).index = e.index := rfl
    rw [List.map_cons, firstRepeat?, firstRepeat?, hindex, ih]
    split <;> rfl

theorem sorted_shift (k : Nat) (u : FlowUnit) : (u.shift k).sorted = u.sorted.map (Entry.shift k) := by
  rw [sorted, sorted, List.map_mergeSort]
  · rfl
  · intro d _ e _
    rfl

theorem blockTable_shift (k : Nat) (u : FlowUnit) :
    (u.shift k).blockTable.mapError GraphFault.lineless = u.blockTable.mapError GraphFault.lineless := by
  have hrepeat : firstRepeat? (u.shift k).entries [] = (firstRepeat? u.entries []).map (Entry.shift k) :=
    firstRepeat?_shift u.entries []
  have hindices : (u.shift k).sorted.map Entry.index = u.sorted.map Entry.index := by
    rw [sorted_shift, List.map_map]
    rfl
  have hblocks : (u.shift k).sorted.map Entry.block = u.sorted.map Entry.block := by
    rw [sorted_shift, List.map_map]
    rfl
  rw [blockTable, blockTable, hrepeat, hindices, hblocks, length_shift]
  cases firstRepeat? u.entries [] with
  | none => rfl
  | some e =>
    dsimp only [Option.map_some]
    rw [GraphError.mapError_raise, GraphError.mapError_raise]
    rfl

theorem graph_shift (k : Nat) (u : FlowUnit) :
    (u.shift k).graph.mapError GraphFault.lineless = u.graph.mapError GraphFault.lineless := by
  have htable := blockTable_shift k u
  rw [graph, graph]
  generalize (u.shift k).blockTable = below at htable
  generalize u.blockTable = above at htable
  rcases below with e | blocks <;> rcases above with e' | blocks'
  · exact congrArg Except.error (Except.error.inj htable)
  · exact absurd htable nofun
  · exact absurd htable nofun
  · rw [Except.ok.inj htable]

end FlowUnit

end PrimePaths
