import PrimePaths.Proofs.Generator.Blocks
import PrimePaths.Proofs.Graph.Ascending
import PrimePaths.Proofs.Listing.RoundTrip
import Mathlib.Data.Nat.Digits.Defs

namespace PrimePaths.Generator

variable {σ : Type} {c : Chooser σ} {shape : Shape} {bs : List Block} {g : LiveGraph}

/-- The shape that is asked for; without a number of extra edges, it gets as many as blocks. -/
def Shape.requested (blocks : Int) (extraEdges? : Option Int) (deadBlocks : Int) : Shape where
  blocks := blocks
  extraEdges := extraEdges?.getD blocks
  deadBlocks := deadBlocks

theorem Shape.sensible_requested {count dead : Int} {extra? : Option Int} (hcount : 1 ≤ count)
    (hextra : ∀ extra ∈ extra?, 0 ≤ extra) (hdead : 0 ≤ dead) :
    (Shape.requested count extra? dead).Sensible := by
  refine ⟨hcount, ?_, hdead⟩
  cases extra? with
  | none => exact Int.le_of_lt hcount
  | some extra => exact hextra extra rfl

namespace Promised

theorem isBlock (h : Promised shape bs) : ∀ b ∈ bs, ∀ t ∈ b.succs, LiveGraph.IsBlock bs t := by
  intro b hb t ht
  rw [LiveGraph.IsBlock, h.length]
  exact h.within b hb t ht

/-- No number that is written has more digits than are read. -/
theorem writable (h : Promised shape bs) (hfits : shape.count ≤ 10 ^ Crash.maxDigits) :
    Listing.Writable [("generated", bs)] := by
  have hpos : 0 < Crash.maxDigits := by decide
  have hlength : bs.length = shape.count := by
    rw [Shape.count, ← h.length, Int.toNat_natCast]
  have hshort : ∀ k < bs.length, (toString k).length ≤ Crash.maxDigits := by
    intro k hk
    exact Nat.repr_length k Crash.maxDigits hpos (Nat.lt_of_lt_of_le (hlength ▸ hk) hfits)
  refine ⟨by simp, ?_, ?_, ?_, ?_⟩
  · simp only [List.mem_singleton, forall_eq]
    decide
  · simp only [List.mem_singleton, forall_eq]
    intro b hb t ht
    obtain ⟨hlo, hhi⟩ := h.isBlock b hb t ht
    obtain ⟨k, rfl⟩ := Int.eq_ofNat_of_zero_le hlo
    exact ⟨hlo, hshort k (Int.ofNat_lt.mp hhi)⟩
  · simpa using hshort
  · obtain ⟨b, hb, -⟩ := h.first_live
    exact ⟨_, List.mem_singleton_self _, List.ne_nil_of_mem (List.mem_of_getElem? hb)⟩

theorem length_liveIds (h : Promised shape bs) :
    ((LiveGraph.liveIds bs).length : Int) = shape.blocks - min shape.deadBlocks (shape.blocks - 1) := by
  have hsplit := List.length_eq_length_filter_add (l := bs) Block.live
  rw [LiveGraph.length_liveIds, ← h.dead, ← h.length]
  omega

/-- The first block comes first among the live ones. -/
theorem head?_liveIds (h : Promised shape bs) : (LiveGraph.liveIds bs).head? = some 0 := by
  obtain ⟨b, hb, hlive⟩ := h.first_live
  obtain ⟨rest, rfl⟩ : ∃ rest, bs = b :: rest := by
    cases bs with
    | nil => simp at hb
    | cons first rest => exact ⟨rest, by simpa using hb⟩
  simp [LiveGraph.liveIds, List.zipIdx_cons, hlive]

theorem exists_graph (h : Promised shape bs) :
    ∃ g, LiveGraph.ofBlocks bs = .ok g ∧
      g.graph.n = shape.blocks - min shape.deadBlocks (shape.blocks - 1) ∧ g.blockIds.head? = some 0 := by
  obtain ⟨g, hg⟩ := LiveGraph.exists_ofBlocks h.isBlock
  obtain ⟨hids, hadd⟩ := LiveGraph.ofBlocks_eq_ok hg
  have hn : g.graph.n = (LiveGraph.liveIds bs).length := Graph.n_addEdges hadd
  exact ⟨g, hg, hn.trans h.length_liveIds, hids ▸ h.head?_liveIds⟩

end Promised

/-- The file that is written for promised blocks is read as one unit with the graph of these blocks. -/
theorem Promised.exists_unit (h : Promised shape bs) (hfits : shape.count ≤ 10 ^ Crash.maxDigits)
    {read : String → Except Crash ByteArray} {path : String}
    (hfile : read path = .ok (Listing.write [("generated", bs)]).toUTF8) :
    ∃ u, Listing.load read path = .ok [u] ∧ u.name = "generated" ∧ u.graph = LiveGraph.ofBlocks bs := by
  obtain ⟨loaded, hload, hunits⟩ := Listing.exists_load (h.writable hfits) hfile
  obtain ⟨u, _, hlists, hnone, rfl⟩ := List.forall₂_cons_left_iff.mp hunits
  obtain rfl := List.forall₂_nil_left_iff.mp hnone
  exact ⟨u, hload, hlists.1, hlists.graph⟩

/-- That unit has a graph, whose first node is the first block. -/
theorem exists_load (h : Promised shape bs) (hfits : shape.count ≤ 10 ^ Crash.maxDigits)
    {read : String → Except Crash ByteArray} {path : String}
    (hfile : read path = .ok (Listing.write [("generated", bs)]).toUTF8) :
    ∃ u g, Listing.load read path = .ok [u] ∧ u.name = "generated" ∧ u.graph = .ok g ∧
      g.graph.n = shape.blocks - min shape.deadBlocks (shape.blocks - 1) ∧
      g.blockIds.head? = some 0 := by
  obtain ⟨u, hload, hname, hgraph⟩ := h.exists_unit hfits hfile
  obtain ⟨g, hg, hn, hfirst⟩ := h.exists_graph
  exact ⟨u, g, hload, hname, hgraph.trans hg, hn, hfirst⟩

theorem Promised.exists_ascending (h : Promised shape bs) (hfits : shape.count ≤ 10 ^ Crash.maxDigits)
    {read : String → Except Crash ByteArray} {path : String}
    (hfile : read path = .ok (Listing.write [("generated", bs)]).toUTF8) :
    ∃ u g, Listing.load read path = .ok [u] ∧ u.graph = .ok g ∧ g.graph.Ascending := by
  obtain ⟨u, hload, -, hgraph⟩ := h.exists_unit hfits hfile
  obtain ⟨g, hg, -⟩ := h.exists_graph
  have hinduces := LiveGraph.induces_of_ofBlocks hg
  exact ⟨u, g, hload, hgraph.trans hg, hinduces.ascending_graph h.ascending⟩

/-- Whatever the random choices are, a sensible request is met by blocks that keep all promises, and the file
that is written for them is read as one unit, whose graph has the live blocks as nodes and starts with the
first one. -/
theorem blocks_valid {count dead : Int} {extra? : Option Int} (hc : c.Lawful) (hcount : 1 ≤ count)
    (hextra : ∀ extra ∈ extra?, 0 ≤ extra) (hdead : 0 ≤ dead) (s : σ) :
    ∃ bs, blocks c (.requested count extra? dead) s = .ok bs ∧
      Promised (.requested count extra? dead) bs ∧
      -- The index of a block has too many digits to be read only after so many other blocks.
      (count.toNat ≤ 10 ^ Crash.maxDigits → ∀ (read : String → Except Crash ByteArray) (path : String),
        read path = .ok (Listing.write [("generated", bs)]).toUTF8 →
        ∃ u g, Listing.load read path = .ok [u] ∧ u.name = "generated" ∧ u.graph = .ok g ∧
          g.graph.n = count - min dead (count - 1) ∧ g.blockIds.head? = some 0) := by
  obtain ⟨bs, hbs, hpromised⟩ := exists_blocks hc (Shape.sensible_requested hcount hextra hdead) s
  exact ⟨bs, hbs, hpromised, fun hfits _ _ hfile => exists_load hpromised hfits hfile⟩

/-- Three blocks, one of them dead, drawn from a seed. -/
theorem blocks_valid_seeded :
    Chooser.twister.Lawful ∧ 3 ≤ 10 ^ Crash.maxDigits ∧
    ∃ bs, blocks .twister (.requested 3 none 1) (Twister.ofSeed 7) = .ok bs ∧
      Promised (.requested 3 none 1) bs ∧
      ∃ u g, Listing.load (fun _ => .ok (Listing.write [("generated", bs)]).toUTF8) "out.txt" = .ok [u] ∧
        u.name = "generated" ∧ u.graph = .ok g ∧ g.graph.n = 2 ∧ g.blockIds.head? = some 0 := by
  have hfits : 3 ≤ 10 ^ Crash.maxDigits :=
    calc 3 ≤ 10 ^ 1 := by decide
      _ ≤ 10 ^ Crash.maxDigits := Nat.pow_le_pow_right (by decide) (by decide)
  have hextra : ∀ extra ∈ (none : Option Int), 0 ≤ extra := by simp
  have hcount : (1 : Int) ≤ 3 := by decide
  have hdead : (0 : Int) ≤ 1 := by decide
  obtain ⟨bs, hbs, hpromised, hload⟩ :=
    blocks_valid Chooser.lawful_twister hcount hextra hdead (Twister.ofSeed 7)
  exact ⟨Chooser.lawful_twister, hfits, bs, hbs, hpromised, hload hfits _ "out.txt" rfl⟩

end PrimePaths.Generator
