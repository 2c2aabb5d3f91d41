import PrimePaths.Proofs.Graph.Induced

namespace PrimePaths

namespace Graph

/-- Each successor list ascends, so that no edge is listed twice. -/
def Ascending (g : Graph) : Prop :=
  ∀ u ∈ g.nodes, (g.succsOf u).Pairwise (· < ·)

instance (g : Graph) : Decidable g.Ascending :=
  inferInstanceAs (Decidable (∀ u ∈ g.nodes, _))

theorem pairwise_nodes (g : Graph) : g.nodes.Pairwise (· < ·) := by
  rw [nodes, List.pairwise_map]
  exact List.pairwise_lt_range.imp Int.ofNat_lt.mpr

end Graph

namespace LiveGraph

variable {blocks : List Block} {g : LiveGraph} {ids : List Int} {v w b c : Int}

/-- The nodes are numbered in the order of their blocks. -/
theorem lt_of_blockOf?_lt (hids : ids.Pairwise (· < ·)) (hv : blockOf? ids v = some b)
    (hw : blockOf? ids w = some c) (hlt : b < c) : v < w := by
  obtain ⟨i, rfl, hi⟩ := blockOf?_eq_some_iff.mp hv
  obtain ⟨j, rfl, hj⟩ := blockOf?_eq_some_iff.mp hw
  obtain ⟨hib, rfl⟩ := List.getElem?_eq_some_iff.mp hi
  obtain ⟨hjb, rfl⟩ := List.getElem?_eq_some_iff.mp hj
  rcases Nat.lt_trichotomy i j with hij | rfl | hji
  · exact Int.ofNat_lt.mpr hij
  · exact absurd hlt (Int.lt_irrefl _)
  · have hback := List.pairwise_iff_getElem.mp hids j i hjb hib hji
    exact absurd hback (Int.lt_asymm hlt)

/-- The nodes list their successors in ascending order if the blocks do, also without the dead ones. -/
theorem Induces.ascending_graph (h : Induces blocks g) (hblocks : ∀ b ∈ blocks, b.succs.Pairwise (· < ·)) :
    g.graph.Ascending := by
  intro u hu
  obtain ⟨i, block, -, hblock, hsuccs⟩ := h.succs u hu
  have hlisted := (hblocks block (List.mem_of_getElem? hblock)).filter fun s => decide (s ∈ g.blockIds)
  have hread : ((g.graph.succsOf u).map (blockOf? g.blockIds)).Pairwise
      fun x y => ∃ b c, x = some b ∧ y = some c ∧ b < c := by
    rw [hsuccs, List.pairwise_map]
    apply hlisted.imp
    intro b c hlt
    exact ⟨b, c, rfl, rfl, hlt⟩
  rw [List.pairwise_map] at hread
  apply hread.imp
  intro v w hvw
  obtain ⟨b, c, hv, hw, hlt⟩ := hvw
  exact lt_of_blockOf?_lt h.ascending hv hw hlt

end LiveGraph

end PrimePaths
