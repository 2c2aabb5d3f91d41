import PrimePaths.Proofs.Analysis.Completeness
import PrimePaths.Proofs.Graph.FlowUnit
import PrimePaths.Proofs.Graph.LiveBlocks
import PrimePaths.Proofs.Path.Primes
import PrimePaths.Proofs.Search.Multiplicity

namespace PrimePaths

open PrimePaths.Path

/-- The unit lists a live block of this index. -/
def FlowUnit.IsLive (u : FlowUnit) (b : Int) : Prop :=
  ∃ e ∈ u.entries, e.index = b ∧ e.block.live = true

/-- The unit lists the second block as a successor of the first one. -/
def FlowUnit.Leads (u : FlowUnit) (b s : Int) : Prop :=
  ∃ e ∈ u.entries, e.index = b ∧ s ∈ e.block.succs

instance (u : FlowUnit) (b : Int) : Decidable (u.IsLive b) :=
  inferInstanceAs (Decidable (∃ e ∈ u.entries, _ ∧ _))

instance (u : FlowUnit) (b s : Int) : Decidable (u.Leads b s) :=
  inferInstanceAs (Decidable (∃ e ∈ u.entries, _ ∧ _))

namespace Analysis

/-- The nodes of a path are those of the given blocks, one by one. -/
def ReadsAs (a : Analysis) (p : Path) (bs : List Int) : Prop :=
  ∃ facts, a.graph = some facts ∧ p.map (LiveGraph.blockOf? facts.blockIds) = bs.map some

/-- Some prime path of the analysis runs along the given blocks. -/
def Visits (a : Analysis) (bs : List Int) : Prop :=
  ∃ p ∈ a.primes.paths, a.ReadsAs p bs

structure Covers (a : Analysis) (u : FlowUnit) : Prop where
  readable : ∀ p ∈ a.primes.paths, ∃ bs, a.ReadsAs p bs
  block : ∀ b, u.IsLive b → ∃ bs, a.Visits bs ∧ b ∈ bs
  edge : ∀ b s, u.IsLive b → u.IsLive s → u.Leads b s → s ≠ b → ∃ bs, a.Visits bs ∧ [b, s] <:+: bs
  live : ∀ bs, a.Visits bs → ∀ b ∈ bs, u.IsLive b
  listed : ∀ bs, a.Visits bs → bs.IsChain u.Leads

end Analysis

namespace Graph

variable {g : Graph} {u v : Int} {p : Path}

theorem singleton_mem_paths (hv : v ∈ g.nodes) : [v] ∈ g.paths := by
  refine (mem_paths_iff _).mpr ⟨⟨hasShape_singleton v, ?_⟩, List.isChain_singleton v⟩
  intro w hw
  rw [List.mem_singleton.mp hw]
  exact hv

theorem pair_mem_paths (hu : u ∈ g.nodes) (hv : v ∈ g.succsOf u) (hne : v ≠ u) : [u, v] ∈ g.paths := by
  have hsimple : IsSimple [u, v] := ⟨by simp, by simpa using hne.symm⟩
  refine (mem_paths_iff _).mpr ⟨⟨Or.inl hsimple, ?_⟩, List.isChain_pair.mpr hv⟩
  intro w hw
  rcases List.mem_pair.mp hw with rfl | rfl
  · exact hu
  · exact mem_nodes_of_mem_succsOf hv

/-- Every path lies in a prime one. -/
theorem exists_prime_of_mem_paths (f : Strategy) (hp : p ∈ g.paths) :
    ∃ q ∈ primePaths f g.paths, p <:+: q := by
  obtain ⟨q, hq, hpq, hfree⟩ := exists_undominated_of_mem hp
  exact ⟨q, (mem_primePaths (fun _ => ne_nil_of_mem_paths) f q).mpr ⟨hq, hfree⟩, hpq⟩

end Graph

namespace FlowUnit

variable {u : FlowUnit} {g : LiveGraph} {v b s : Int}

theorem graph_eq_ok_iff :
    u.graph = .ok g ↔ ∃ blocks, u.blockTable = .ok blocks ∧ LiveGraph.ofBlocks blocks = .ok g :=
  Except.bind_eq_ok_iff

theorem isLive_iff (h : u.graph = .ok g) : u.IsLive b ↔ b ∈ g.blockIds := by
  obtain ⟨blocks, htable, hblocks⟩ := graph_eq_ok_iff.mp h
  rw [(LiveGraph.ofBlocks_eq_ok hblocks).1, LiveGraph.mem_liveIds]
  constructor
  · intro hlive
    obtain ⟨e, he, hindex, hlive⟩ := hlive
    obtain ⟨i, -, hi⟩ := exists_index htable he
    have hat := (getElem?_blockTable htable).mpr ⟨e, he, hi, rfl⟩
    exact ⟨i, e.block, hindex.symm.trans hi, hat, hlive⟩
  · intro hlive
    obtain ⟨i, block, rfl, hat, hlive⟩ := hlive
    obtain ⟨e, he, hindex, rfl⟩ := (getElem?_blockTable htable).mp hat
    exact ⟨e, he, hindex, hlive⟩

/-- The edges from a node lead to the live blocks that its block lists. -/
theorem exists_succ_iff (h : u.graph = .ok g) (hv : LiveGraph.blockOf? g.blockIds v = some b) :
    (∃ w ∈ g.graph.succsOf v, LiveGraph.blockOf? g.blockIds w = some s) ↔
      u.Leads b s ∧ u.IsLive s := by
  obtain ⟨blocks, htable, hblocks⟩ := graph_eq_ok_iff.mp h
  have hmem : b ∈ LiveGraph.liveIds blocks := by
    obtain ⟨i, -, hat⟩ := LiveGraph.blockOf?_eq_some_iff.mp hv
    rw [← (LiveGraph.ofBlocks_eq_ok hblocks).1]
    exact List.mem_of_getElem? hat
  obtain ⟨i, block, rfl, hat, -⟩ := LiveGraph.mem_liveIds.mp hmem
  have hleads : u.Leads i s ↔ s ∈ block.succs := by
    obtain ⟨e, he, hindex, rfl⟩ := (getElem?_blockTable htable).mp hat
    constructor
    · intro hleads
      obtain ⟨e', he', hindex', hs⟩ := hleads
      have hat' := (getElem?_blockTable htable).mpr ⟨e', he', hindex', rfl⟩
      rw [Option.some.inj (hat.symm.trans hat')]
      exact hs
    · intro hs
      exact ⟨e, he, hindex, hs⟩
  rw [← List.mem_map, LiveGraph.map_blockOf?_succsOf hblocks hv rfl hat, List.mem_map, hleads,
    isLive_iff h]
  simp

end FlowUnit

section Readings

variable {u : FlowUnit} {g : LiveGraph} {p q : Path} {bs cs : List Int}

/-- The paths of the graph of a unit can be read in blocks. -/
theorem LiveGraph.exists_blocks_of_mem_paths {blocks : List Block}
    (h : LiveGraph.ofBlocks blocks = .ok g) (hp : p ∈ g.graph.paths) :
    ∃ bs : List Int, p.map (blockOf? g.blockIds) = bs.map some := by
  have hnodes := ((Graph.mem_paths_iff p).mp hp).1.2
  clear hp
  induction p with
  | nil => exact ⟨[], rfl⟩
  | cons v p ih =>
    obtain ⟨bs, hbs⟩ := ih fun w hw => hnodes w (List.mem_cons_of_mem v hw)
    obtain ⟨b, hb⟩ := (mem_nodes_iff h).mp (hnodes v List.mem_cons_self)
    exact ⟨b :: bs, by rw [List.map_cons, List.map_cons, hb, hbs]⟩

/-- A part of a path reads as a part of what the path reads as. -/
theorem LiveGraph.isInfix_of_map_blockOf? {ids : List Int} (hpq : p <:+: q)
    (hp : p.map (blockOf? ids) = bs.map some) (hq : q.map (blockOf? ids) = cs.map some) : bs <:+: cs := by
  have hmap := hpq.map (blockOf? ids)
  rw [hp, hq] at hmap
  simpa [List.filterMap_map] using hmap.filterMap id

theorem FlowUnit.isChain_leads_of_mem_paths (h : u.graph = .ok g) (hp : p ∈ g.graph.paths)
    (hbs : p.map (LiveGraph.blockOf? g.blockIds) = bs.map some) : bs.IsChain u.Leads := by
  have hchain := ((Graph.mem_paths_iff p).mp hp).2
  -- Between nodes an edge of the graph becomes a statement about the blocks that they have.
  let leads (x y : Option Int) : Prop := ∀ b ∈ x, ∀ s ∈ y, u.Leads b s
  have hnodes : (p.map (LiveGraph.blockOf? g.blockIds)).IsChain leads := by
    rw [List.isChain_map]
    refine hchain.imp ?_
    intro v w hw b hb s hs
    exact ((FlowUnit.exists_succ_iff h hb).mp ⟨w, hw, hs⟩).1
  rw [hbs, List.isChain_map] at hnodes
  exact hnodes.imp fun b s hleads => hleads b rfl s rfl

end Readings

namespace Recording

variable {r : Recording} {t : Readings} {u : FlowUnit} {o : Options} {s : Study} {g : LiveGraph}

theorem graph_of_study (h : r.study t u o = .ok s) (hgraph : u.graph = .ok g) :
    s.analysis.graph = some (.ofGraph g u.entries.length) := by
  obtain ⟨reported, span, hreported, -, rfl⟩ := study_eq_ok_iff.mp h
  have hx := r.examined_examine t.began u o
  generalize r.examine t.began u o = x at hx hreported
  rcases Examination.result_cases hreported with ⟨e, rfl, rfl⟩ | ⟨s, reached, rfl, rfl⟩ | ⟨s, rfl, rfl⟩
  · cases hx with
    | refused herror => simp [hgraph] at herror
  · cases hx with
    | crowded hok | stopped hok =>
      obtain rfl := Except.ok.inj (hgraph.symm.trans hok)
      rfl
  · cases hx with
    | complete hok =>
      obtain rfl := Except.ok.inj (hgraph.symm.trans hok)
      unfold Study.ofPrimes
      dsimp only
      split
      · rfl
      · split <;> rfl

theorem mem_primes_of_study (h : r.study t u o = .ok s) (hstatus : s.analysis.status = .ok)
    (hgraph : u.graph = .ok g) {p : Path} :
    p ∈ s.analysis.primes.paths ↔ p ∈ primePaths o.strategy g.graph.paths := by
  obtain ⟨g', hgraph', done, hfull, -, hprimes⟩ := (fullOrEmpty_of_study h).full hstatus
  obtain rfl := Except.ok.inj (hgraph.symm.trans hgraph')
  have hpaths : done.paths.toList = g.graph.paths := by
    rw [hfull.eq_survey]
    exact g.graph.paths_survey_nodes
  rw [hprimes, hpaths, PathList.ofList]
  split
  · exact List.mem_eraseDups
  · rfl

/-- The prime paths of a unit that is analyzed in full cover its live blocks and the edges among them, and
run along such edges only. -/
theorem study_covers (h : r.study t u o = .ok s) (hstatus : s.analysis.status = .ok) :
    s.analysis.Covers u := by
  obtain ⟨g, hgraph, -⟩ := (fullOrEmpty_of_study h).full hstatus
  obtain ⟨blocks, htable, hblocks⟩ := FlowUnit.graph_eq_ok_iff.mp hgraph
  have hfacts := graph_of_study h hgraph
  have hprimes : ∀ p, p ∈ s.analysis.primes.paths ↔ p ∈ primePaths o.strategy g.graph.paths :=
    fun p => mem_primes_of_study h hstatus hgraph
  have hreads : ∀ p bs, s.analysis.ReadsAs p bs ↔
      p.map (LiveGraph.blockOf? g.blockIds) = bs.map some := by
    intro p bs
    simp [Analysis.ReadsAs, hfacts, GraphFacts.ofGraph]
  have hlisted : ∀ p ∈ s.analysis.primes.paths, p ∈ g.graph.paths := fun p hp =>
    ((mem_primePaths (fun _ => Graph.ne_nil_of_mem_paths) _ p).mp ((hprimes p).mp hp)).1
  -- What a path reads as is a part of what some prime path reads as.
  have hcovered : ∀ p ∈ g.graph.paths, ∀ bs : List Int,
      p.map (LiveGraph.blockOf? g.blockIds) = bs.map some →
      ∃ cs, s.analysis.Visits cs ∧ bs <:+: cs := by
    intro p hp bs hbs
    obtain ⟨q, hq, hpq⟩ := Graph.exists_prime_of_mem_paths o.strategy hp
    have hmem := (hprimes q).mpr hq
    obtain ⟨cs, hcs⟩ := LiveGraph.exists_blocks_of_mem_paths hblocks (hlisted q hmem)
    exact ⟨cs, ⟨q, hmem, (hreads q cs).mpr hcs⟩, LiveGraph.isInfix_of_map_blockOf? hpq hbs hcs⟩
  refine {
    readable := ?_
    block := ?_
    edge := ?_
    live := ?_
    listed := ?_ }
  · intro p hp
    obtain ⟨bs, hbs⟩ := LiveGraph.exists_blocks_of_mem_paths hblocks (hlisted p hp)
    exact ⟨bs, (hreads p bs).mpr hbs⟩
  · intro b hb
    obtain ⟨v, hv⟩ := LiveGraph.exists_node ((FlowUnit.isLive_iff hgraph).mp hb)
    have hnode := (LiveGraph.mem_nodes_iff hblocks).mpr ⟨b, hv⟩
    obtain ⟨bs, hvisits, hpart⟩ := hcovered [v] (Graph.singleton_mem_paths hnode) [b] (by simp [hv])
    exact ⟨bs, hvisits, hpart.subset (List.mem_singleton_self b)⟩
  · intro b c hb hc hleads hne
    obtain ⟨v, hv⟩ := LiveGraph.exists_node ((FlowUnit.isLive_iff hgraph).mp hb)
    have hnode := (LiveGraph.mem_nodes_iff hblocks).mpr ⟨b, hv⟩
    obtain ⟨w, hw, hwc⟩ := (FlowUnit.exists_succ_iff hgraph hv).mpr ⟨hleads, hc⟩
    have hapart : w ≠ v := by
      intro hsame
      rw [hsame, hv] at hwc
      exact hne (Option.some.inj hwc).symm
    exact hcovered [v, w] (Graph.pair_mem_paths hnode hw hapart) [b, c] (by simp [hv, hwc])
  · intro bs hvisits b hb
    obtain ⟨p, hp, hbs⟩ := hvisits
    have hmem : some b ∈ p.map (LiveGraph.blockOf? g.blockIds) := by
      rw [(hreads p bs).mp hbs]
      exact List.mem_map_of_mem hb
    obtain ⟨v, -, hv⟩ := List.mem_map.mp hmem
    obtain ⟨i, -, hat⟩ := LiveGraph.blockOf?_eq_some_iff.mp hv
    exact (FlowUnit.isLive_iff hgraph).mpr (List.mem_of_getElem? hat)
  · intro bs hvisits
    obtain ⟨p, hp, hbs⟩ := hvisits
    exact FlowUnit.isChain_leads_of_mem_paths hgraph (hlisted p hp) ((hreads p bs).mp hbs)

/-- Without limits a unit with a graph is analyzed in full. -/
theorem status_of_study (h : r.study t u o = .ok s) (hgraph : u.graph = .ok g) (hnodes : o.maxNodes = none)
    (hlimits : o.limits = {}) : s.analysis.status = .ok := by
  have hsound := fullOrEmpty_of_study h
  cases hstatus : s.analysis.status with
  | ok => rfl
  | error => exact absurd (hsound.error_iff.mp hstatus) (FlowUnit.not_refused hgraph)
  | inconclusive =>
    obtain ⟨g', -, hlimit⟩ := hsound.inconclusive_iff.mp hstatus
    rcases hlimit with ⟨limit, hlimit, -⟩ | ⟨reached, hreached⟩
    · simp [hnodes] at hlimit
    · cases hfirst : r.seconds t.began.seconds with
      | error i =>
        rw [search_of_error hfirst] at hreached
        cases hreached
      | ok startedAt =>
        have hhalts : (r.search t.began (.ofCounts none none) g'.graph none).halt? ≠ none := by
          rw [← show o.limits = .ofCounts none none from hlimits, hreached]
          simp
        have hcause := ((search_halts_iff g'.graph none none hfirst).mp hhalts).2
        simp at hcause

end Recording

/-- Two live blocks in a cycle and a dead one that the first of them may lead to. -/
def FlowUnit.detour : FlowUnit where
  name := "detour"
  entries := [
    { index := 2, block := { live := true, succs := [0] } },
    { index := 0, block := { live := true, succs := [1, 2] } },
    { index := 1, block := { live := false, succs := [2] } }]

theorem FlowUnit.graph_detour : ∃ g, FlowUnit.detour.graph = .ok g := by
  have htable : FlowUnit.detour.blockTable =
      .ok [{ live := true, succs := [1, 2] }, { live := false, succs := [2] },
        { live := true, succs := [0] }] := by
    simp [blockTable, firstRepeat?, sorted, List.mergeSort, List.MergeSort.Internal.splitInTwo, detour]
    decide
  rw [graph, htable]
  exact ⟨_, rfl⟩

/-- The edge around the dead block is followed, the edge to it is not. -/
theorem Recording.study_covers_detour :
    ∃ s, (counting 7).study {} .detour { unique := true } = .ok s ∧
      s.analysis.status = .ok ∧ (∃ bs, s.analysis.Visits bs ∧ [0, 2] <:+: bs) ∧
      ∀ bs, s.analysis.Visits bs → 1 ∉ bs := by
  have hwritable : FlowUnit.detour.Writable := ⟨by decide +kernel, by decide +kernel⟩
  obtain ⟨s, hs⟩ := exists_study (r := counting 7) (t := {}) (u := .detour) (o := { unique := true })
    ⟨by decide, by decide, by decide, by decide⟩ ⟨by decide, by decide⟩ hwritable
    (steady_counting (by decide))
  obtain ⟨g, hgraph⟩ := FlowUnit.graph_detour
  have hstatus := status_of_study hs hgraph rfl rfl
  have hcovers := study_covers hs hstatus
  refine ⟨s, hs, hstatus, hcovers.edge 0 2 (by decide) (by decide) (by decide) (by decide), ?_⟩
  intro bs hvisits hdead
  exact absurd (hcovers.live bs hvisits 1 hdead) (by decide)

end PrimePaths
