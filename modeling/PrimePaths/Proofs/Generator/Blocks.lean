import PrimePaths.Generator.Basic
import PrimePaths.Proofs.Generator.Chooser
import Mathlib.Data.List.ProdSigma

namespace PrimePaths.Generator

variable {σ : Type} {c : Chooser σ} {s : σ} {n u v i tries : Nat} {goal : Int}
  {edges grown : EdgeSet} {dead : List Nat} {shape : Shape} {b : Block}

section Edges

/-- Both ends of each edge are among the blocks `0 .. n-1`. -/
def Within (n : Nat) (edges : EdgeSet) : Prop :=
  ∀ e ∈ edges, e.1 < n ∧ e.2 < n

/-- Edges were added among the blocks `0 .. n-1`, and none once the goal was reached. -/
structure Grows (n : Nat) (goal : Int) (edges grown : EdgeSet) : Prop where
  kept : ∀ e ∈ edges, e ∈ grown
  within : Within n edges → Within n grown
  le_size : edges.size ≤ grown.size
  size_le : (grown.size : Int) ≤ max goal edges.size

theorem Grows.refl (n : Nat) (goal : Int) (edges : EdgeSet) : Grows n goal edges edges :=
  ⟨fun _ he => he, id, Nat.le_refl _, Int.le_max_right _ _⟩

theorem Grows.insert (hroom : (edges.size : Int) < goal) (hu : u < n) (hv : v < n) :
    Grows n goal edges (edges.insert (u, v)) := by
  have hsize : (edges.insert (u, v)).size = if (u, v) ∈ edges then edges.size else edges.size + 1 :=
    Std.HashSet.size_insert
  refine ⟨fun e he => Std.HashSet.mem_insert.mpr (Or.inr he), ?_, ?_, ?_⟩
  · intro hwithin e he
    rcases Std.HashSet.mem_insert.mp he with hnew | hold
    · rw [← eq_of_beq hnew]
      exact ⟨hu, hv⟩
    · exact hwithin e hold
  · rw [hsize]
    split <;> omega
  · rw [hsize]
    split <;> omega

theorem Grows.trans {middle : EdgeSet} (h : Grows n goal edges middle)
    (h' : Grows n goal middle grown) :
    Grows n goal edges grown := by
  have hle := h.size_le
  have hle' := h'.size_le
  refine ⟨fun e he => h'.kept e (h.kept e he), h'.within ∘ h.within, Nat.le_trans h.le_size h'.le_size, ?_⟩
  omega

/-- Whatever is drawn, the edges grow as they may. -/
theorem grows_addRandomEdges (hc : c.Lawful) (hn : 0 < n) :
    Grows n goal edges (addRandomEdges c n goal tries edges s).1 := by
  induction tries generalizing edges s with
  | zero => exact .refl n goal edges
  | succ tries ih =>
    rw [addRandomEdges]
    split
    · exact .refl n goal edges
    · rename_i hroom
      exact (Grows.insert (by omega) (hc.below_lt n _ hn) (hc.below_lt n _ hn)).trans ih

theorem mem_chain : (u, v) ∈ shape.chain ↔ v = u + 1 ∧ v < shape.count := by
  rw [Shape.chain, Std.HashSet.mem_ofList, List.contains_iff_mem, List.mem_map]
  constructor
  · intro h
    obtain ⟨i, hi, heq⟩ := h
    obtain ⟨rfl, rfl⟩ := Prod.mk.inj heq
    rw [List.mem_range] at hi
    omega
  · intro h
    obtain ⟨rfl, hlt⟩ := h
    exact ⟨u, List.mem_range.mpr (by omega), rfl⟩

theorem size_chain (shape : Shape) : shape.chain.size = shape.count - 1 := by
  have hdistinct : ((List.range (shape.count - 1)).map fun i => (i, i + 1)).Pairwise
      fun e e' => (e == e') = false := by
    rw [List.pairwise_map]
    refine List.pairwise_lt_range.imp ?_
    intro i j hlt
    simp
    omega
  rw [Shape.chain, Std.HashSet.size_ofList hdistinct, List.length_map, List.length_range]

theorem within_chain (shape : Shape) : Within shape.count shape.chain := by
  intro e he
  have hedge := mem_chain.mp he
  omega

end Edges

section Blocks

theorem getElem?_blocksOf :
    (blocksOf n edges dead)[i]? = some b ↔ i < n ∧ b = {
      live := !dead.contains i
      succs := ((List.range n).filter fun v => edges.contains (i, v)).map Int.ofNat } := by
  rw [blocksOf, List.getElem?_map, Option.map_eq_some_iff]
  constructor
  · intro h
    obtain ⟨j, hj, rfl⟩ := h
    obtain ⟨hlt, hj⟩ := List.getElem?_eq_some_iff.mp hj
    rw [List.getElem_range] at hj
    subst hj
    exact ⟨by simpa using hlt, rfl⟩
  · intro h
    obtain ⟨hlt, rfl⟩ := h
    exact ⟨i, by simp [hlt], rfl⟩

theorem exists_blocksOf (edges : EdgeSet) (dead : List Nat) (hi : i < n) :
    ∃ b, (blocksOf n edges dead)[i]? = some b ∧ (b.live = true ↔ i ∉ dead) :=
  ⟨_, getElem?_blocksOf.mpr ⟨hi, rfl⟩, by simp⟩

theorem mem_succs_blocksOf (h : (blocksOf n edges dead)[i]? = some b) {t : Int} :
    t ∈ b.succs ↔ ∃ v < n, t = v ∧ (i, v) ∈ edges := by
  obtain ⟨-, rfl⟩ := getElem?_blocksOf.mp h
  rw [List.mem_map]
  constructor
  · intro h
    obtain ⟨v, hv, rfl⟩ := h
    obtain ⟨hlt, hedge⟩ := List.mem_filter.mp hv
    exact ⟨v, List.mem_range.mp hlt, rfl, hedge⟩
  · intro h
    obtain ⟨v, hlt, rfl, hedge⟩ := h
    exact ⟨v, List.mem_filter.mpr ⟨List.mem_range.mpr hlt, hedge⟩, rfl⟩

theorem pairwise_succs_blocksOf (h : (blocksOf n edges dead)[i]? = some b) :
    b.succs.Pairwise (· < ·) := by
  obtain ⟨-, rfl⟩ := getElem?_blocksOf.mp h
  rw [List.pairwise_map]
  exact (List.pairwise_lt_range.filter _).imp Int.ofNat_lt.mpr

/-- Looking for an edge between any two blocks finds each edge once. -/
theorem perm_toList (h : Within n edges) :
    (((List.range n).product (List.range n)).filter fun e => edges.contains e).Perm edges.toList := by
  have hdistinct : edges.toList.Nodup := by
    refine Std.HashSet.distinct_toList.imp ?_
    simp
  have hpairs : ((List.range n).product (List.range n)).Nodup :=
    List.nodup_range.product List.nodup_range
  rw [List.perm_ext_iff_of_nodup (hpairs.filter _) hdistinct]
  intro e
  obtain ⟨u, v⟩ := e
  simpa using h (u, v)

/-- The blocks list each edge once. -/
theorem length_succs_blocksOf (h : Within n edges) :
    ((blocksOf n edges dead).flatMap Block.succs).length = edges.size := by
  rw [← Std.HashSet.length_toList, ← (perm_toList h).length_eq]
  simp [blocksOf, List.flatMap_map, List.product, List.filter_flatMap, List.length_flatMap,
    List.filter_map, Function.comp_def]

theorem length_filter_blocksOf (hnodup : dead.Nodup) (hlt : ∀ i ∈ dead, i < n) :
    ((blocksOf n edges dead).filter fun b => !b.live).length = dead.length := by
  have hperm : ((List.range n).filter fun i => dead.contains i).Perm dead := by
    rw [List.perm_ext_iff_of_nodup (List.nodup_range.filter _) hnodup]
    intro i
    simpa using hlt i
  rw [blocksOf, List.filter_map, List.length_map, ← hperm.length_eq]
  simp [Function.comp_def]

end Blocks

/-- What is promised of generated blocks: their number, and how many of them are dead, never the first one;
ascending successors among the blocks, with a chain through all of them; and at most as many edges beyond
the chain as asked for. -/
structure Promised (shape : Shape) (bs : List Block) : Prop where
  length : (bs.length : Int) = shape.blocks
  first_live : ∃ b, bs[0]? = some b ∧ b.live = true
  dead : ((bs.filter fun b => !b.live).length : Int) = min shape.deadBlocks (shape.blocks - 1)
  ascending : ∀ b ∈ bs, b.succs.Pairwise (· < ·)
  within : ∀ b ∈ bs, ∀ t ∈ b.succs, 0 ≤ t ∧ t < shape.blocks
  chained : ∀ i : Nat, (i : Int) < shape.blocks - 1 → ∃ b, bs[i]? = some b ∧ (i : Int) + 1 ∈ b.succs
  chain_le : shape.blocks - 1 ≤ (bs.flatMap Block.succs).length
  le_goal : ((bs.flatMap Block.succs).length : Int) ≤ shape.blocks - 1 + shape.extraEdges

/-- The shape can be generated: some block, and no negative numbers of other things. -/
structure Shape.Sensible (shape : Shape) : Prop where
  blocks : 1 ≤ shape.blocks
  extraEdges : 0 ≤ shape.extraEdges
  deadBlocks : 0 ≤ shape.deadBlocks

theorem Shape.Sensible.count_eq (h : shape.Sensible) : (shape.count : Int) = shape.blocks :=
  Int.toNat_of_nonneg (Int.le_of_lt h.blocks)

theorem promised_blocksOf (h : shape.Sensible)
    (hgrows : Grows shape.count shape.edgeGoal shape.chain edges) (hnodup : dead.Nodup)
    (hdead : ∀ i ∈ dead, 0 < i ∧ i < shape.count) (hlength : dead.length = shape.deadCount) :
    Promised shape (blocksOf shape.count edges dead) := by
  have hcount := h.count_eq
  obtain ⟨hblocks, hextra, hnonneg⟩ := h
  have hwithin := hgrows.within (within_chain shape)
  have hsize : ((blocksOf shape.count edges dead).flatMap Block.succs).length = edges.size :=
    length_succs_blocksOf hwithin
  have hchain := hgrows.le_size
  have hgoal := hgrows.size_le
  rw [size_chain] at hchain hgoal
  unfold Shape.edgeGoal at hgoal
  refine ⟨?_, ?_, ?_, ?_, ?_, ?_, ?_, ?_⟩
  · simpa [blocksOf] using hcount
  · obtain ⟨b, hb, hlive⟩ := exists_blocksOf edges dead (i := 0) (by omega : 0 < shape.count)
    exact ⟨b, hb, hlive.mpr fun hmem => Nat.lt_irrefl 0 (hdead 0 hmem).1⟩
  · rw [length_filter_blocksOf hnodup fun i hi => (hdead i hi).2, hlength, Shape.deadCount]
    omega
  · intro b hb
    obtain ⟨i, hi⟩ := List.mem_iff_getElem?.mp hb
    exact pairwise_succs_blocksOf hi
  · intro b hb t ht
    obtain ⟨i, hi⟩ := List.mem_iff_getElem?.mp hb
    obtain ⟨v, hv, rfl, -⟩ := (mem_succs_blocksOf hi).mp ht
    omega
  · intro i hi
    obtain ⟨b, hb, -⟩ := exists_blocksOf edges dead (by omega : i < shape.count)
    refine ⟨b, hb, (mem_succs_blocksOf hb).mpr ⟨i + 1, by omega, rfl, ?_⟩⟩
    exact hgrows.kept _ (mem_chain.mpr ⟨rfl, by omega⟩)
  · omega
  · omega

/-- A sensible shape is generated whatever the choices are, and keeps all promises. -/
theorem exists_blocks (hc : c.Lawful) (h : shape.Sensible) (s : σ) :
    ∃ bs, blocks c shape s = .ok bs ∧ Promised shape bs := by
  have hcount := h.count_eq
  have hblocks := h.blocks
  have hpos : 0 < shape.count := by omega
  have hgrows : Grows shape.count shape.edgeGoal shape.chain
      (addRandomEdges c shape.count shape.edgeGoal shape.attempts shape.chain s).1 :=
    grows_addRandomEdges hc hpos
  have hle : shape.deadCount ≤ shape.count - 1 := Nat.min_le_right _ _
  rw [blocks, if_neg fun hnone => absurd hnone.1 (Nat.ne_of_gt hpos)]
  dsimp only
  rw [if_neg (Int.not_lt.mpr h.deadBlocks)]
  refine ⟨_, rfl, promised_blocksOf h hgrows ?_ ?_ ?_⟩
  · exact (hc.nodup_sample _ _ _ hle).map (fun _ _ => Nat.succ.inj)
  · intro i hi
    obtain ⟨j, hj, rfl⟩ := List.mem_map.mp hi
    have hlt := hc.sample_lt _ _ _ hle j hj
    omega
  · rw [List.length_map, hc.length_sample _ _ _ hle]

end PrimePaths.Generator
