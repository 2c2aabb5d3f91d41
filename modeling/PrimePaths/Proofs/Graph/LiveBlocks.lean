import PrimePaths.Graph.FlowUnit
import PrimePaths.Proofs.Graph.Edges
import Mathlib.Data.List.Basic

namespace PrimePaths.LiveGraph

variable {blocks : List Block} {block : Block} {g : LiveGraph} {ids : List Int} {v b : Int}

/-- The block of a node. -/
def blockOf? (ids : List Int) (node : Int) : Option Int :=
  if 0 ≤ node then ids[node.toNat]? else none

theorem filter_live (blocks : List Block) :
    blocks.filter Block.live = (blocks.zipIdx.filter fun x => x.1.live).map Prod.fst := by
  conv_lhs => rw [← List.zipIdx_map_fst 0 blocks, List.filter_map]
  rfl

theorem length_liveIds (blocks : List Block) :
    (liveIds blocks).length = (blocks.filter Block.live).length := by
  rw [liveIds, filter_live, List.length_map, List.length_map]

theorem liveIds_getElem? {u : Nat} (h : (liveIds blocks)[u]? = some b) :
    ∃ (i : Nat) (block : Block), b = i ∧ blocks[i]? = some block ∧ block.live = true ∧
      (blocks.filter Block.live)[u]? = some block := by
  rw [liveIds, List.getElem?_map, Option.map_eq_some_iff] at h
  obtain ⟨⟨block, i⟩, hat, rfl⟩ := h
  have hmem := List.mem_filter.mp (List.mem_of_getElem? hat)
  refine ⟨i, block, rfl, List.mem_zipIdx_iff_getElem?.mp hmem.1, hmem.2, ?_⟩
  rw [filter_live, List.getElem?_map, hat]
  rfl

theorem mem_liveIds :
    b ∈ liveIds blocks ↔
      ∃ (i : Nat) (block : Block), b = i ∧ blocks[i]? = some block ∧ block.live = true := by
  constructor
  · intro h
    obtain ⟨u, hu⟩ := List.mem_iff_getElem?.mp h
    obtain ⟨i, block, hi, hblock, hlive, -⟩ := liveIds_getElem? hu
    exact ⟨i, block, hi, hblock, hlive⟩
  · intro h
    obtain ⟨i, block, rfl, hblock, hlive⟩ := h
    refine List.mem_map.mpr ⟨(block, i), List.mem_filter.mpr ⟨?_, hlive⟩, rfl⟩
    exact List.mem_zipIdx_iff_getElem?.mpr hblock

theorem blockOf?_eq_some_iff :
    blockOf? ids v = some b ↔ ∃ u : Nat, v = u ∧ ids[u]? = some b := by
  unfold blockOf?
  constructor
  · intro h
    obtain ⟨hlo, hat⟩ := Option.ite_none_right_eq_some.mp h
    exact ⟨v.toNat, (Int.toNat_of_nonneg hlo).symm, hat⟩
  · intro h
    obtain ⟨u, rfl, hat⟩ := h
    simpa using hat

theorem exists_node (h : b ∈ ids) : ∃ v, blockOf? ids v = some b := by
  obtain ⟨u, hu⟩ := List.mem_iff_getElem?.mp h
  exact ⟨u, blockOf?_eq_some_iff.mpr ⟨u, rfl, hu⟩⟩

theorem blockOf?_of_nodeOf? (h : nodeOf? ids b = some v) : blockOf? ids v = some b := by
  obtain ⟨u, hu, rfl⟩ := Option.map_eq_some_iff.mp h
  obtain ⟨hlt, hat, -⟩ := List.idxOf?_eq_some_iff.mp hu
  exact blockOf?_eq_some_iff.mpr ⟨u, rfl, List.getElem?_eq_some_iff.mpr ⟨hlt, hat⟩⟩

theorem nodeOf?_eq_none_iff : nodeOf? ids b = none ↔ b ∉ ids := by
  rw [nodeOf?, Option.map_eq_none_iff, List.idxOf?_eq_none_iff]

/-- To number the successors and read their blocks back drops those that have no number. -/
theorem map_blockOf?_filterMap (ids succs : List Int) :
    (succs.filterMap (nodeOf? ids)).map (blockOf? ids) =
      (succs.filter fun s => decide (s ∈ ids)).map some := by
  induction succs with
  | nil => rfl
  | cons s succs ih =>
    cases hs : nodeOf? ids s with
    | none =>
      have hdead := nodeOf?_eq_none_iff.mp hs
      rw [List.filterMap_cons_none hs, List.filter_cons_of_neg (by simpa using hdead), ih]
    | some w =>
      have hlive : s ∈ ids := by
        by_contra hdead
        simp [nodeOf?_eq_none_iff.mpr hdead] at hs
      rw [List.filterMap_cons_some hs, List.filter_cons_of_pos (by simpa using hlive), List.map_cons,
        List.map_cons, ih, blockOf?_of_nodeOf? hs]

/-- Of edges that are listed source by source, those of one source are the ones of its place. -/
private theorem filter_flatMap_zipIdx {f : Block → List Int} {l : List Block} {k j : Nat}
    (h : l[j]? = some block) :
    (((l.zipIdx k).flatMap fun x => (f x.1).map fun w => ((x.2 : Int), w)).filter
      fun e => e.1 = ((k + j : Nat) : Int)).map Prod.snd = f block := by
  induction l generalizing k j with
  | nil => simp at h
  | cons first l ih =>
    rw [List.zipIdx_cons, List.flatMap_cons, List.filter_append, List.map_append]
    cases j with
    | zero =>
      have hhere : ∀ e ∈ (f first).map fun w => ((k : Int), w), decide (e.1 = ((k + 0 : Nat) : Int)) := by
        simp
      have hlater : ∀ e ∈ (l.zipIdx (k + 1)).flatMap fun x => (f x.1).map fun w => ((x.2 : Int), w),
          ¬decide (e.1 = ((k + 0 : Nat) : Int)) = true := by
        intro e he
        obtain ⟨x, hx, he⟩ := List.mem_flatMap.mp he
        obtain ⟨w, -, rfl⟩ := List.mem_map.mp he
        have hplace := (List.mem_zipIdx hx).1
        rw [decide_eq_true_iff]
        omega
      obtain rfl := Option.some.inj h
      rw [List.filter_eq_nil_iff.mpr hlater, List.filter_eq_self.mpr hhere, List.map_nil,
        List.append_nil, List.map_map]
      exact List.map_id _
    | succ j =>
      have hearlier : ∀ e ∈ (f first).map fun w => ((k : Int), w),
          ¬decide (e.1 = ((k + (j + 1) : Nat) : Int)) = true := by
        intro e he
        obtain ⟨w, -, rfl⟩ := List.mem_map.mp he
        rw [decide_eq_true_iff]
        omega
      have hbelow := ih (k := k + 1) (j := j) (by simpa using h)
      rw [Nat.add_right_comm] at hbelow
      rw [List.filter_eq_nil_iff.mpr hearlier, List.map_nil, List.nil_append]
      exact hbelow

theorem ofBlocks_eq_ok (h : ofBlocks blocks = .ok g) :
    g.blockIds = liveIds blocks ∧
      (Graph.empty (liveIds blocks).length).addEdges (liveEdges blocks (liveIds blocks)) =
        .ok g.graph := by
  unfold ofBlocks at h
  split at h
  · exact absurd h (GraphError.raise_ne_ok _ _)
  · dsimp only at h
    obtain ⟨graph, hadd, h⟩ := Except.bind_eq_ok_iff.mp h
    obtain rfl := Except.ok.inj h
    exact ⟨rfl, hadd⟩

theorem mem_nodes_iff (h : ofBlocks blocks = .ok g) :
    v ∈ g.graph.nodes ↔ ∃ b, blockOf? g.blockIds v = some b := by
  obtain ⟨hids, hadd⟩ := ofBlocks_eq_ok h
  have hn : g.graph.n = (liveIds blocks).length := Graph.n_addEdges hadd
  simp only [Graph.mem_nodes, hn, hids, blockOf?_eq_some_iff]
  constructor
  · intro hv
    have hlt : v.toNat < (liveIds blocks).length := by omega
    exact ⟨_, v.toNat, by omega, List.getElem?_eq_getElem hlt⟩
  · intro hv
    obtain ⟨b, u, rfl, hat⟩ := hv
    have hlt := (List.getElem?_eq_some_iff.mp hat).1
    omega

/-- The successors of a node are those of its block, in their order, less the dead ones. -/
theorem map_blockOf?_succsOf (h : ofBlocks blocks = .ok g) (hv : blockOf? g.blockIds v = some b)
    {i : Nat} (hb : b = i) (hblock : blocks[i]? = some block) :
    (g.graph.succsOf v).map (blockOf? g.blockIds) =
      (block.succs.filter fun s => decide (s ∈ g.blockIds)).map some := by
  have hnode := (mem_nodes_iff h).mpr ⟨b, hv⟩
  obtain ⟨hids, hadd⟩ := ofBlocks_eq_ok h
  rw [Graph.mem_nodes, Graph.n_addEdges hadd, ← Graph.mem_nodes] at hnode
  obtain ⟨u, rfl, hat⟩ := blockOf?_eq_some_iff.mp hv
  rw [hids] at hat
  obtain ⟨i', block', hi', hblock', -, hplace⟩ := liveIds_getElem? hat
  obtain rfl : i' = i := by omega
  obtain rfl := Option.some.inj (hblock'.symm.trans hblock)
  have hedges := filter_flatMap_zipIdx (f := fun b => b.succs.filterMap (nodeOf? (liveIds blocks)))
    (k := 0) hplace
  rw [Nat.zero_add] at hedges
  rw [Graph.succsOf_addEdges hadd hnode, Graph.succsOf_empty, List.nil_append, hids]
  exact (congrArg _ hedges).trans (map_blockOf?_filterMap _ _)

end PrimePaths.LiveGraph
