import PrimePaths.Number.Basic

namespace PrimePaths

/-- The ways in which a block listing fails to describe a graph. -/
inductive GraphError
  /-- An edge leaves the nodes `0 .. n-1`. -/
  | edgeOutside (u v n : Int)
  /-- A block names a successor that is no block. -/
  | successorOutside (block : Nat) (successor : Int) (count : Nat)
  /-- A block index occurs a second time, on the given line. -/
  | duplicateBlock (unit : String) (block : Int) (line : Option Int)
  /-- The block indices leave out some of `0 .. k-1`. -/
  | gap (unit : String) (missing indices : List Int)
  deriving DecidableEq, Repr

/-- Why a graph is not made: it has an error, or what is to be said of the error cannot be written. -/
inductive GraphFault
  | invalid (e : GraphError)
  | crash (c : Crash)
  deriving DecidableEq, Repr

namespace GraphError

def message : GraphError → String
  | edgeOutside u v n => s!"Edge {u} -> {v} refers to a node outside 0..{n - 1}."
  | successorOutside block successor count =>
    s!"Block {block} has successor {successor} outside 0..{(count : Int) - 1}."
  | duplicateBlock unit block _ => s!"Duplicate block index {block} in unit '{unit}'."
  | gap unit _ _ => s!"Block indices of unit '{unit}' must be contiguous from 0."

/-- The numbers in the message that may be of any length; counts and places are never too long. -/
def numbers : GraphError → List Number
  | edgeOutside u v n => [.whole u, .whole v, .whole (n - 1)]
  | successorOutside _ successor _ => [.whole successor]
  | duplicateBlock _ block _ => [.whole block]
  | gap .. => []

def Writable (e : GraphError) : Prop :=
  ∀ n ∈ e.numbers, n.Writable

instance : DecidablePred Writable :=
  fun e => inferInstanceAs (Decidable (∀ n ∈ e.numbers, n.Writable))

/-- Fails with the error; its message is written first. -/
def raise {α : Type} (e : GraphError) : Except GraphFault α :=
  .error (if e.Writable then .invalid e else .crash .unwritable)

section Raise

variable {α : Type} {e e' : GraphError} {a : α} {c : Crash}

theorem raise_ne_ok (e : GraphError) (a : α) : e.raise ≠ .ok a :=
  nofun

theorem raise_eq_invalid_iff :
    (e.raise : Except GraphFault α) = .error (.invalid e') ↔ e.Writable ∧ e = e' := by
  by_cases h : e.Writable <;> simp [raise, h]

theorem raise_eq_crash_iff :
    (e.raise : Except GraphFault α) = .error (.crash c) ↔ ¬e.Writable ∧ c = .unwritable := by
  by_cases h : e.Writable <;> simp [raise, h, eq_comm]

theorem raise_gap (unit : String) (missing indices : List Int) :
    ((gap unit missing indices).raise : Except GraphFault α) =
      .error (.invalid (gap unit missing indices)) :=
  raise_eq_invalid_iff.mpr ⟨nofun, rfl⟩

end Raise

end GraphError

/-- A directed graph on the nodes `0 .. n-1` that has a successor list for each node; a negative `n` means no
nodes. It grows by checked edges only, so every successor is a node. -/
structure Graph where
  n : Int
  succs : Array (List Int)
  size_succs : succs.size = n.toNat
  inRange : ∀ us ∈ succs, ∀ v ∈ us, 0 ≤ v ∧ v < n

namespace Graph

def empty (n : Int) : Graph where
  n := n
  succs := Array.replicate n.toNat []
  size_succs := by simp
  inRange := by
    intro us hus v hv
    simp [(Array.mem_replicate.mp hus).2] at hv

private theorem inRange_modify (g : Graph) (u : Nat) (v : Int) (hv : 0 ≤ v ∧ v < g.n) :
    ∀ us ∈ g.succs.modify u (· ++ [v]), ∀ w ∈ us, 0 ≤ w ∧ w < g.n := by
  intro us hus w hw
  obtain ⟨i, hi, rfl⟩ := Array.mem_iff_getElem.mp hus
  have hi' : i < g.succs.size := by simpa using hi
  have hold := g.inRange g.succs[i] (Array.getElem_mem hi')
  rw [Array.getElem_modify] at hw
  split at hw
  · rcases List.mem_append.mp hw with hw | hw
    · exact hold w hw
    · rw [List.mem_singleton.mp hw]
      exact hv
  · exact hold w hw

/-- Appends `v` to the successors of `u`; both have to be nodes. -/
def addEdge (g : Graph) (u v : Int) : Except GraphFault Graph :=
  if h : (0 ≤ u ∧ u < g.n) ∧ (0 ≤ v ∧ v < g.n) then
    .ok {
      n := g.n
      succs := g.succs.modify u.toNat (· ++ [v])
      size_succs := by simpa using g.size_succs
      inRange := inRange_modify g u.toNat v h.2 }
  else (GraphError.edgeOutside u v g.n).raise

def addEdges (g : Graph) (edges : List (Int × Int)) : Except GraphFault Graph :=
  edges.foldlM (fun g e => g.addEdge e.1 e.2) g

/-- The nodes in ascending order. -/
def nodes (g : Graph) : List Int :=
  (List.range g.n.toNat).map Int.ofNat

/-- The successors of a start node; a negative one counts from the last node backwards. -/
def succsOf? (g : Graph) (start : Int) : Option (List Int) :=
  if 0 ≤ start then g.succs[start.toNat]?
  else if 0 ≤ start + g.n then g.succs[(start + g.n).toNat]?
  else none

/-- The successors of a node, none if it is no node. -/
def succsOf (g : Graph) (u : Int) : List Int :=
  (g.succsOf? u).getD []

/-- The edges by source, then by their place in its successor list. -/
def edges (g : Graph) : List (Int × Int) :=
  g.nodes.flatMap fun u => (g.succsOf u).map fun v => (u, v)

def edgeCount (g : Graph) : Nat :=
  g.succs.toList.flatten.length

/-- The nodes that no edge enters. -/
def initialNodes (g : Graph) : List Int :=
  g.nodes.filter fun v => g.succs.all fun us => !us.contains v

/-- The nodes that no edge leaves. -/
def finalNodes (g : Graph) : List Int :=
  g.nodes.filter fun u => (g.succsOf u).isEmpty

theorem mem_map_ofNat_range {k : Nat} {v : Int} :
    v ∈ (List.range k).map Int.ofNat ↔ 0 ≤ v ∧ v < k := by
  rw [List.mem_map]
  constructor
  · rintro ⟨i, hi, rfl⟩
    exact ⟨Int.natCast_nonneg i, Int.ofNat_lt.mpr (List.mem_range.mp hi)⟩
  · rintro ⟨hlo, hhi⟩
    exact ⟨v.toNat, List.mem_range.mpr (by omega), Int.toNat_of_nonneg hlo⟩

theorem mem_nodes {g : Graph} {v : Int} : v ∈ g.nodes ↔ 0 ≤ v ∧ v < g.n := by
  rw [nodes, mem_map_ofNat_range]
  omega

theorem nodup_nodes (g : Graph) : g.nodes.Nodup :=
  List.Pairwise.map Int.ofNat (fun _ _ hne heq => hne (Int.ofNat.inj heq)) List.nodup_range

theorem mem_succsOf {g : Graph} {u v : Int} (h : v ∈ g.succsOf u) : 0 ≤ v ∧ v < g.n := by
  unfold succsOf succsOf? at h
  split at h
  · cases hu : g.succs[u.toNat]? with
    | none => simp [hu] at h
    | some us =>
      rw [hu] at h
      exact g.inRange us (Array.mem_of_getElem? hu) v h
  · split at h
    · cases hu : g.succs[(u + g.n).toNat]? with
      | none => simp [hu] at h
      | some us =>
        rw [hu] at h
        exact g.inRange us (Array.mem_of_getElem? hu) v h
    · simp at h

theorem mem_nodes_of_mem_succsOf {g : Graph} {u v : Int} (h : v ∈ g.succsOf u) : v ∈ g.nodes :=
  mem_nodes.mpr (mem_succsOf h)

/-- Each node has a successor list. -/
theorem succsOf?_of_mem {g : Graph} {u : Int} (h : u ∈ g.nodes) :
    g.succsOf? u = some (g.succsOf u) := by
  obtain ⟨hlo, hhi⟩ := mem_nodes.mp h
  have hsize : u.toNat < g.succs.size := by
    rw [g.size_succs]
    omega
  simp [succsOf, succsOf?, hlo, hsize]

/-- The successor lists are those of the nodes. -/
theorem mem_succs {g : Graph} {us : List Int} : us ∈ g.succs ↔ ∃ u ∈ g.nodes, g.succsOf u = us := by
  constructor
  · intro h
    obtain ⟨i, hi, rfl⟩ := Array.mem_iff_getElem.mp h
    have hlt : (i : Int) < g.n := by
      rw [g.size_succs] at hi
      omega
    refine ⟨i, mem_nodes.mpr ⟨by omega, hlt⟩, ?_⟩
    simp [succsOf, succsOf?, hi]
  · intro h
    obtain ⟨u, hu, rfl⟩ := h
    have hat := succsOf?_of_mem hu
    rw [succsOf?, if_pos (mem_nodes.mp hu).1] at hat
    exact Array.mem_of_getElem? hat

theorem mem_edges {g : Graph} {u v : Int} : (u, v) ∈ g.edges ↔ u ∈ g.nodes ∧ v ∈ g.succsOf u := by
  simp [edges]

theorem mem_initialNodes {g : Graph} {v : Int} :
    v ∈ g.initialNodes ↔ v ∈ g.nodes ∧ ∀ u, (u, v) ∉ g.edges := by
  simp only [initialNodes, List.mem_filter, Array.all_eq_true_iff_forall_mem, mem_succs, mem_edges]
  simp

theorem mem_finalNodes {g : Graph} {u : Int} :
    u ∈ g.finalNodes ↔ u ∈ g.nodes ∧ ∀ v, (u, v) ∉ g.edges := by
  rw [finalNodes, List.mem_filter, List.isEmpty_iff, List.eq_nil_iff_forall_not_mem]
  apply and_congr_right
  intro hu
  simp [mem_edges, hu]

end Graph

end PrimePaths
