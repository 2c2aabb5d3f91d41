import PrimePaths.Proofs.Graph.LiveBlocks
import PrimePaths.Proofs.Number.Reading

namespace PrimePaths.LiveGraph

variable {blocks blocks' : List Block} {g g' : LiveGraph} {ids : List Int} {e : GraphError} {c : Crash}
  {f : Int → Int} {s v : Int}

/-- The number is the index of a block. -/
def IsBlock (blocks : List Block) (s : Int) : Prop :=
  0 ≤ s ∧ s < (blocks.length : Int)

instance (blocks : List Block) (s : Int) : Decidable (IsBlock blocks s) :=
  inferInstanceAs (Decidable (_ ∧ _))

section Strays

/-- The block `i` lists the successor `s`, which is no block; all successors before it, in the block and in
the blocks before, are blocks. -/
def FirstStray (blocks : List Block) (i : Nat) (s : Int) : Prop :=
  ∃ before block after earlier later,
    blocks = before ++ block :: after ∧ before.length = i ∧ block.succs = earlier ++ s :: later ∧
    (∀ b ∈ before, ∀ t ∈ b.succs, IsBlock blocks t) ∧ (∀ t ∈ earlier, IsBlock blocks t) ∧
    ¬IsBlock blocks s

/-- The first element that yields something, with its place. -/
private theorem findSome?_zipIdx_eq_some_iff {α β : Type} {l : List α} {f : α × Nat → Option β}
    {b : β} :
    l.zipIdx.findSome? f = some b ↔
      ∃ before a after, l = before ++ a :: after ∧ f (a, before.length) = some b ∧
        ∀ x ∈ before.zipIdx, f x = none := by
  rw [List.findSome?_eq_some_iff]
  constructor
  · intro h
    obtain ⟨l₁, x, l₂, hsplit, hx, hnone⟩ := h
    obtain ⟨before, rest, hl, rfl, hrest⟩ := List.zipIdx_eq_append_iff.mp hsplit
    obtain ⟨a, after, rfl, rfl, -⟩ := List.zipIdx_eq_cons_iff.mp hrest.symm
    exact ⟨before, a, after, hl, by simpa using hx, hnone⟩
  · intro h
    obtain ⟨before, a, after, rfl, ha, hnone⟩ := h
    refine ⟨before.zipIdx, (a, before.length), after.zipIdx (before.length + 1), ?_, ha, hnone⟩
    rw [List.zipIdx_append, List.zipIdx_cons, Nat.zero_add]

theorem find?_stray_eq_none_iff {succs : List Int} :
    (succs.find? fun s => !(0 ≤ s && s < (blocks.length : Int))) = none ↔
      ∀ s ∈ succs, IsBlock blocks s := by
  simp [IsBlock]

theorem find?_stray_eq_some_iff {succs : List Int} :
    (succs.find? fun s => !(0 ≤ s && s < (blocks.length : Int))) = some s ↔
      ∃ earlier later, succs = earlier ++ s :: later ∧ (∀ t ∈ earlier, IsBlock blocks t) ∧
        ¬IsBlock blocks s := by
  have hstray (t : Int) : (!(0 ≤ t && t < (blocks.length : Int))) = true ↔ ¬IsBlock blocks t := by
    simp [IsBlock]
    omega
  simp only [List.find?_eq_some_iff_append, hstray, Bool.not_eq_true', ← Bool.not_eq_true, not_not]
  constructor
  · intro h
    obtain ⟨hs, earlier, later, hsplit, hearlier⟩ := h
    exact ⟨earlier, later, hsplit, hearlier, hs⟩
  · intro h
    obtain ⟨earlier, later, hsplit, hearlier, hs⟩ := h
    exact ⟨hs, earlier, later, hsplit, hearlier⟩

private theorem forall_mem_zipIdx_iff {listed : List Block} :
    (∀ x ∈ listed.zipIdx, ∀ s ∈ x.1.succs, IsBlock blocks s) ↔
      ∀ b ∈ listed, ∀ s ∈ b.succs, IsBlock blocks s := by
  rw [← List.forall_mem_map (f := Prod.fst) (P := fun b : Block => ∀ s ∈ b.succs, IsBlock blocks s),
    List.zipIdx_map_fst]

theorem strayEdge?_eq_none_iff :
    strayEdge? blocks = none ↔ ∀ b ∈ blocks, ∀ s ∈ b.succs, IsBlock blocks s := by
  simp only [strayEdge?, List.findSome?_eq_none_iff, Option.map_eq_none_iff, find?_stray_eq_none_iff,
    forall_mem_zipIdx_iff]

theorem strayEdge?_eq_some_iff :
    strayEdge? blocks = some e ↔
      ∃ i s, FirstStray blocks i s ∧ e = .successorOutside i s blocks.length := by
  simp only [strayEdge?, findSome?_zipIdx_eq_some_iff, Option.map_eq_some_iff, Option.map_eq_none_iff,
    find?_stray_eq_none_iff, find?_stray_eq_some_iff, forall_mem_zipIdx_iff]
  constructor
  · intro h
    obtain ⟨before, b, after, hblocks, ⟨s, ⟨earlier, later, hsuccs, hearlier, hs⟩, rfl⟩, hbefore⟩ := h
    exact ⟨_, s, ⟨before, b, after, earlier, later, hblocks, rfl, hsuccs, hbefore, hearlier, hs⟩, rfl⟩
  · intro h
    obtain ⟨_, s, ⟨before, b, after, earlier, later, hblocks, rfl, hsuccs, hbefore, hearlier, hs⟩, rfl⟩ := h
    exact ⟨before, b, after, hblocks, ⟨s, ⟨earlier, later, hsuccs, hearlier, hs⟩, rfl⟩, hbefore⟩

end Strays

section LiveIds

theorem pairwise_liveIds (blocks : List Block) : (liveIds blocks).Pairwise (· < ·) := by
  have hplaces : (blocks.zipIdx.map Prod.snd).Pairwise (· < ·) := by
    rw [List.zipIdx_map_snd]
    exact List.pairwise_lt_range'
  rw [liveIds, List.pairwise_map]
  refine ((List.pairwise_map.mp hplaces).filter _).imp ?_
  intro x y hlt
  exact Int.ofNat_lt.mpr hlt

theorem mem_range_of_nodeOf? (h : nodeOf? ids s = some v) : 0 ≤ v ∧ v < ids.length := by
  obtain ⟨u, hu, rfl⟩ := Option.map_eq_some_iff.mp h
  obtain ⟨hlt, -⟩ := List.idxOf?_eq_some_iff.mp hu
  exact ⟨Int.natCast_nonneg u, Int.ofNat_lt.mpr hlt⟩

theorem mem_nodes_of_mem_liveEdges {x : Int × Int} (hx : x ∈ liveEdges blocks (liveIds blocks)) :
    x.1 ∈ (Graph.empty (liveIds blocks).length).nodes ∧
      x.2 ∈ (Graph.empty (liveIds blocks).length).nodes := by
  obtain ⟨⟨b, u⟩, hb, hx⟩ := List.mem_flatMap.mp hx
  obtain ⟨v, hv, rfl⟩ := List.mem_map.mp hx
  obtain ⟨s, -, hnode⟩ := List.mem_filterMap.mp hv
  have hu : u < (blocks.filter Block.live).length := by
    simpa using List.snd_lt_of_mem_zipIdx hb
  rw [← length_liveIds] at hu
  rw [Graph.mem_nodes, Graph.mem_nodes]
  exact ⟨⟨Int.natCast_nonneg u, Int.ofNat_lt.mpr hu⟩, mem_range_of_nodeOf? hnode⟩

end LiveIds

section Outcome

theorem exists_ofBlocks (h : ∀ b ∈ blocks, ∀ s ∈ b.succs, IsBlock blocks s) :
    ∃ g, ofBlocks blocks = .ok g := by
  have hnodes : ∀ x ∈ liveEdges blocks (liveIds blocks), _ := fun _ hx => mem_nodes_of_mem_liveEdges hx
  obtain ⟨graph, hadd⟩ := Graph.exists_addEdges hnodes
  rw [ofBlocks, strayEdge?_eq_none_iff.mpr h]
  dsimp only
  rw [hadd]
  exact ⟨_, rfl⟩

/-- A listing fails with the first successor that is no block. -/
theorem ofBlocks_eq_error_iff {fault : GraphFault} :
    ofBlocks blocks = .error fault ↔
      ∃ i s, FirstStray blocks i s ∧
        (GraphError.successorOutside i s blocks.length).raise = (.error fault : Except _ LiveGraph) := by
  have hstray : (∃ e, strayEdge? blocks = some e ∧ e.raise = (.error fault : Except _ LiveGraph)) ↔
      ∃ i s, FirstStray blocks i s ∧
        (GraphError.successorOutside i s blocks.length).raise = (.error fault : Except _ LiveGraph) := by
    simp only [strayEdge?_eq_some_iff]
    constructor
    · intro h
      obtain ⟨_, ⟨i, s, hfirst, rfl⟩, hraise⟩ := h
      exact ⟨i, s, hfirst, hraise⟩
    · intro h
      obtain ⟨i, s, hfirst, hraise⟩ := h
      exact ⟨_, ⟨i, s, hfirst, rfl⟩, hraise⟩
  rw [← hstray]
  cases he : strayEdge? blocks with
  | none =>
    obtain ⟨g, hg⟩ := exists_ofBlocks (strayEdge?_eq_none_iff.mp he)
    simp [hg]
  | some e => simp [ofBlocks, he]

theorem writable_successorOutside {i count : Nat} :
    (GraphError.successorOutside i s count).Writable ↔ (Number.whole s).Writable := by
  simp [GraphError.Writable, GraphError.numbers]

theorem ofBlocks_eq_invalid_iff :
    ofBlocks blocks = .error (.invalid e) ↔
      ∃ i s, FirstStray blocks i s ∧ (Number.whole s).Writable ∧
        e = .successorOutside i s blocks.length := by
  simp only [ofBlocks_eq_error_iff, GraphError.raise_eq_invalid_iff, writable_successorOutside,
    eq_comm (a := e)]

theorem ofBlocks_eq_crash_iff :
    ofBlocks blocks = .error (.crash c) ↔
      ∃ i s, FirstStray blocks i s ∧ ¬(Number.whole s).Writable ∧ c = .unwritable := by
  simp only [ofBlocks_eq_error_iff, GraphError.raise_eq_crash_iff, writable_successorOutside]

theorem exists_error_iff :
    (∃ fault, ofBlocks blocks = .error fault) ↔ ∃ b ∈ blocks, ∃ s ∈ b.succs, ¬IsBlock blocks s := by
  constructor
  · intro h
    obtain ⟨fault, hfault⟩ := h
    by_contra hnone
    push Not at hnone
    obtain ⟨g, hg⟩ := exists_ofBlocks hnone
    exact absurd (hg.symm.trans hfault) nofun
  · intro h
    obtain ⟨b, hb, s, hs, hstray⟩ := h
    cases he : strayEdge? blocks with
    | none => exact absurd (strayEdge?_eq_none_iff.mp he b hb s hs) hstray
    | some e => exact ⟨_, by rw [ofBlocks, he]; rfl⟩

/-- The graph is the one that the live blocks induce: its nodes are these blocks in ascending order, and the
successors of a node are those that its block lists, in their order, less the dead ones. -/
structure Induces (blocks : List Block) (g : LiveGraph) : Prop where
  ascending : g.blockIds.Pairwise (· < ·)
  live : ∀ b, b ∈ g.blockIds ↔
    ∃ (i : Nat) (block : Block), b = i ∧ blocks[i]? = some block ∧ block.live = true
  count : g.graph.n = g.blockIds.length
  succs : ∀ v ∈ g.graph.nodes, ∃ (i : Nat) (block : Block),
    blockOf? g.blockIds v = some (i : Int) ∧ blocks[i]? = some block ∧
      (g.graph.succsOf v).map (blockOf? g.blockIds) =
        (block.succs.filter fun s => decide (s ∈ g.blockIds)).map some

theorem induces_of_ofBlocks (h : ofBlocks blocks = .ok g) : Induces blocks g := by
  obtain ⟨hids, hadd⟩ := ofBlocks_eq_ok h
  have hn : g.graph.n = (liveIds blocks).length := Graph.n_addEdges hadd
  refine ⟨hids ▸ pairwise_liveIds blocks, fun b => hids ▸ mem_liveIds, hids ▸ hn, ?_⟩
  intro v hv
  obtain ⟨b, hb⟩ := (mem_nodes_iff h).mp hv
  obtain ⟨u, rfl, hat⟩ := blockOf?_eq_some_iff.mp hb
  rw [hids] at hat
  obtain ⟨i, block, rfl, hblock, -, -⟩ := liveIds_getElem? hat
  exact ⟨i, block, hb, hblock, map_blockOf?_succsOf h hb rfl hblock⟩

end Outcome

section Renumbering

/-- The successors of each live block that are live themselves. -/
def liveSuccs (blocks : List Block) : List (List Int) :=
  (blocks.filter Block.live).map fun b => b.succs.filter fun s => decide (s ∈ liveIds blocks)

/-- The live blocks of the second listing are those of the first one with other numbers, in the same order
and with the same live successors. As both lists of numbers ascend, so does the renumbering; dead blocks and
what they list may differ in any way. -/
structure Renumbers (f : Int → Int) (blocks blocks' : List Block) : Prop where
  ids : liveIds blocks' = (liveIds blocks).map f
  succs : liveSuccs blocks' = (liveSuccs blocks).map (List.map f)

theorem liveEdges_eq_flatMap (blocks : List Block) :
    liveEdges blocks (liveIds blocks) =
      (liveSuccs blocks).zipIdx.flatMap fun x =>
        (x.1.filterMap (nodeOf? (liveIds blocks))).map fun v => ((x.2 : Int), v) := by
  have hlive (succs : List Int) :
      (succs.filter fun s => decide (s ∈ liveIds blocks)).filterMap (nodeOf? (liveIds blocks)) =
        succs.filterMap (nodeOf? (liveIds blocks)) := by
    rw [List.filterMap_filter]
    apply List.filterMap_congr
    intro s _
    by_cases hs : s ∈ liveIds blocks
    · simp [hs]
    · simp [hs, nodeOf?_eq_none_iff.mpr hs]
  rw [liveEdges, liveSuccs, List.zipIdx_map, List.flatMap_map]
  apply List.flatMap_congr
  intro x _
  exact congrArg _ (hlive x.1.succs).symm

private theorem idxOf?_map (h : (ids.map f).Nodup) (hs : s ∈ ids) :
    (ids.map f).idxOf? (f s) = ids.idxOf? s := by
  induction ids with
  | nil => simp at hs
  | cons b ids ih =>
    obtain ⟨hfirst, hrest⟩ := List.nodup_cons.mp h
    rw [List.map_cons, List.idxOf?_cons, List.idxOf?_cons]
    by_cases hb : b = s
    · simp [hb]
    · have hmem : s ∈ ids := (List.mem_cons.mp hs).resolve_left (Ne.symm hb)
      have hne : f b ≠ f s := fun heq => hfirst (heq ▸ List.mem_map_of_mem hmem)
      simp [hb, hne, ih hrest hmem]

/-- Blocks keep their nodes when they get other numbers. -/
theorem filterMap_nodeOf?_map {succs : List Int} (h : (ids.map f).Nodup)
    (hsuccs : ∀ s ∈ succs, s ∈ ids) :
    (succs.map f).filterMap (nodeOf? (ids.map f)) = succs.filterMap (nodeOf? ids) := by
  rw [List.filterMap_map]
  apply List.filterMap_congr
  intro s hs
  rw [Function.comp_apply, nodeOf?, nodeOf?, idxOf?_map h (hsuccs s hs)]

theorem Renumbers.liveEdges_eq (h : Renumbers f blocks blocks') :
    liveEdges blocks' (liveIds blocks') = liveEdges blocks (liveIds blocks) := by
  have hnodup : ((liveIds blocks).map f).Nodup := by
    rw [← h.ids]
    exact (pairwise_liveIds blocks').imp Int.ne_of_lt
  rw [liveEdges_eq_flatMap, liveEdges_eq_flatMap, h.succs, h.ids, List.zipIdx_map,
    List.flatMap_map]
  apply List.flatMap_congr
  intro x hx
  have hlive : ∀ s ∈ x.1, s ∈ liveIds blocks := by
    obtain ⟨b, -, hb⟩ := List.mem_map.mp (List.fst_mem_of_mem_zipIdx hx)
    intro s hs
    rw [← hb] at hs
    simpa using (List.mem_filter.mp hs).2
  exact congrArg (List.map _) (filterMap_nodeOf?_map hnodup hlive)

theorem Renumbers.graph_eq (h : Renumbers f blocks blocks') (hg : ofBlocks blocks = .ok g)
    (hg' : ofBlocks blocks' = .ok g') : g'.graph = g.graph := by
  have hadd := (ofBlocks_eq_ok hg).2
  have hadd' := (ofBlocks_eq_ok hg').2
  rw [h.liveEdges_eq, h.ids, List.length_map, hadd] at hadd'
  exact (Except.ok.inj hadd').symm

end Renumbering

/-- A listing has no graph exactly if some successor, of a live block or of a dead one, is no block, and the
first of these is reported, if it is short enough to be written; otherwise the listing has the graph that its
live blocks induce. So listings whose live blocks differ in their numbers only have the same graph, if they
have graphs at all. -/
theorem ofBlocks_blames_or_induces (blocks : List Block) :
    ((∃ fault, ofBlocks blocks = .error fault) ↔ ∃ b ∈ blocks, ∃ s ∈ b.succs, ¬IsBlock blocks s) ∧
    (∀ e, ofBlocks blocks = .error (.invalid e) ↔
      ∃ i s, FirstStray blocks i s ∧ (Number.whole s).Writable ∧
        e = .successorOutside i s blocks.length) ∧
    ((∀ b ∈ blocks, ∀ s ∈ b.succs, IsBlock blocks s) →
      ∃ g, ofBlocks blocks = .ok g ∧ Induces blocks g) ∧
    ∀ f blocks' g g', Renumbers f blocks blocks' →
      ofBlocks blocks = .ok g → ofBlocks blocks' = .ok g' → g'.graph = g.graph := by
  refine ⟨exists_error_iff, fun e => ofBlocks_eq_invalid_iff, ?_, fun f blocks' g g' h => h.graph_eq⟩
  intro h
  obtain ⟨g, hg⟩ := exists_ofBlocks h
  exact ⟨g, hg, induces_of_ofBlocks hg⟩

/-- A dead block comes in first, and the live ones come to list it. -/
theorem ofBlocks_blames_or_induces_rewired :
    ∃ g g', ofBlocks [⟨true, [1, 1, 0]⟩, ⟨true, []⟩] = .ok g ∧
      ofBlocks [⟨false, [2]⟩, ⟨true, [2, 0, 2, 1]⟩, ⟨true, [0]⟩] = .ok g' ∧
      g.blockIds = [0, 1] ∧ g'.blockIds = [1, 2] ∧ g'.graph = g.graph := by
  have hrenumbers : Renumbers (· + 1) [⟨true, [1, 1, 0]⟩, ⟨true, []⟩]
      [⟨false, [2]⟩, ⟨true, [2, 0, 2, 1]⟩, ⟨true, [0]⟩] := ⟨by decide, by decide⟩
  exact ⟨_, _, rfl, rfl, rfl, rfl, (ofBlocks_blames_or_induces _).2.2.2 _ _ _ _ hrenumbers rfl rfl⟩

/-- A dead block more takes the graph away if it lists what is no block; and a successor of 4301 digits is no
block, but it is not reported as such. -/
theorem not_ofBlocks_induces :
    (Renumbers id [⟨true, []⟩] [⟨true, []⟩, ⟨false, [5]⟩] ∧ (∃ g, ofBlocks [⟨true, []⟩] = .ok g) ∧
      ofBlocks [⟨true, []⟩, ⟨false, [5]⟩] = .error (.invalid (.successorOutside 1 5 2))) ∧
    ¬IsBlock [⟨true, [10 ^ Crash.maxDigits]⟩] (10 ^ Crash.maxDigits) ∧
      ofBlocks [⟨true, [10 ^ Crash.maxDigits]⟩] = .error (.crash .unwritable) := by
  have hpos : (0 : Int) < 10 ^ Crash.maxDigits := Int.pow_pos (by decide)
  have hlong : ¬IsBlock [⟨true, [10 ^ Crash.maxDigits]⟩] (10 ^ Crash.maxDigits) := by
    intro h
    exact absurd h.2 (Int.not_lt.mpr hpos)
  refine ⟨⟨⟨by decide, by decide⟩, ⟨_, rfl⟩, ?_⟩, hlong, ?_⟩
  · rw [ofBlocks_eq_invalid_iff]
    have hstray : FirstStray [⟨true, []⟩, ⟨false, [5]⟩] 1 5 :=
      ⟨[⟨true, []⟩], _, [], [], [], rfl, rfl, rfl, by simp, nofun, by decide⟩
    exact ⟨1, 5, hstray, by decide +kernel, rfl⟩
  · rw [ofBlocks_eq_crash_iff]
    have hstray : FirstStray [⟨true, [10 ^ Crash.maxDigits]⟩] 0 (10 ^ Crash.maxDigits) :=
      ⟨[], _, [], [], [], rfl, rfl, rfl, nofun, nofun, hlong⟩
    exact ⟨0, 10 ^ Crash.maxDigits, hstray, Number.not_writable_pow, rfl⟩

end PrimePaths.LiveGraph
