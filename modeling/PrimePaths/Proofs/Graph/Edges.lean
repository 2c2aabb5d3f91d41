import PrimePaths.Graph.Basic
import PrimePaths.Proofs.Except
import Mathlib.Data.List.Basic

namespace PrimePaths.Graph

variable {g g' : Graph} {u v : Int} {e : Int × Int} {edges : List (Int × Int)}

theorem succsOf_empty (n w : Int) : (empty n).succsOf w = [] := by
  simp only [succsOf, succsOf?, empty, Array.getElem?_replicate]
  split_ifs <;> rfl

theorem n_addEdge (h : g.addEdge u v = .ok g') : g'.n = g.n := by
  unfold addEdge at h
  split at h
  · rw [← Except.ok.inj h]
  · exact absurd h (GraphError.raise_ne_ok _ _)

theorem exists_addEdge (hu : u ∈ g.nodes) (hv : v ∈ g.nodes) : ∃ g', g.addEdge u v = .ok g' := by
  rw [addEdge, dif_pos ⟨mem_nodes.mp hu, mem_nodes.mp hv⟩]
  exact ⟨_, rfl⟩

theorem succsOf_addEdge (h : g.addEdge u v = .ok g') {w : Int} (hw : w ∈ g.nodes) :
    g'.succsOf w = g.succsOf w ++ if u = w then [v] else [] := by
  obtain ⟨hlo, hhi⟩ := mem_nodes.mp hw
  have hsize : w.toNat < g.succs.size := by
    rw [g.size_succs]
    omega
  unfold addEdge at h
  split at h
  · rename_i hedge
    have hsame : u.toNat = w.toNat ↔ u = w := by omega
    rw [← Except.ok.inj h]
    simp only [succsOf, succsOf?, if_pos hlo, Array.getElem?_modify, hsame]
    split <;> simp [hsize]
  · exact absurd h (GraphError.raise_ne_ok _ _)

theorem subset_succsOf_addEdge (h : g.addEdge u v = .ok g') (w : Int) : g.succsOf w ⊆ g'.succsOf w := by
  have hsubset (i : Nat) :
      g.succs[i]?.getD [] ⊆ (g.succs.modify u.toNat (· ++ [v]))[i]?.getD [] := by
    rw [Array.getElem?_modify]
    split
    · cases g.succs[i]? with
      | none => exact List.Subset.refl []
      | some us => exact List.subset_append_left us [v]
    · exact List.Subset.refl _
  unfold addEdge at h
  split at h
  · rw [← Except.ok.inj h]
    unfold succsOf succsOf?
    split
    · exact hsubset w.toNat
    · split
      · exact hsubset (w + g.n).toNat
      · exact List.Subset.refl _
  · exact absurd h (GraphError.raise_ne_ok _ _)

theorem edgeCount_empty (n : Int) : (empty n).edgeCount = 0 := by
  simp [edgeCount, empty]

theorem edgeCount_addEdge (h : g.addEdge u v = .ok g') : g'.edgeCount = g.edgeCount + 1 := by
  unfold addEdge at h
  split at h
  · rename_i hedge
    have hsize : u.toNat < g.succs.toList.length := by
      rw [Array.length_toList, g.size_succs]
      omega
    have hsplit := List.take_append_drop u.toNat g.succs.toList
    rw [← List.getElem_cons_drop hsize] at hsplit
    have hcount := congrArg (fun succs => succs.flatten.length) hsplit
    rw [← Except.ok.inj h, edgeCount, edgeCount, Array.toList_modify,
      List.modify_eq_take_cons_drop hsize]
    simp only [List.flatten_append, List.flatten_cons, List.length_append, List.length_singleton]
      at hcount ⊢
    omega
  · exact absurd h (GraphError.raise_ne_ok _ _)

/-- Edges are added one after the other. -/
theorem addEdges_cons_eq_ok_iff :
    g.addEdges (e :: edges) = .ok g' ↔
      ∃ g₁, g.addEdge e.1 e.2 = .ok g₁ ∧ g₁.addEdges edges = .ok g' := by
  rw [addEdges, List.foldlM_cons]
  exact Except.bind_eq_ok_iff

theorem n_addEdges (h : g.addEdges edges = .ok g') : g'.n = g.n := by
  induction edges generalizing g with
  | nil => rw [← Except.ok.inj h]
  | cons e edges ih =>
    obtain ⟨g₁, hfirst, hrest⟩ := addEdges_cons_eq_ok_iff.mp h
    rw [ih hrest, n_addEdge hfirst]

/-- No edge among nodes is refused. -/
theorem exists_addEdges (h : ∀ e ∈ edges, e.1 ∈ g.nodes ∧ e.2 ∈ g.nodes) :
    ∃ g', g.addEdges edges = .ok g' := by
  induction edges generalizing g with
  | nil => exact ⟨g, rfl⟩
  | cons e edges ih =>
    obtain ⟨⟨hu, hv⟩, hrest⟩ := List.forall_mem_cons.mp h
    obtain ⟨g₁, hfirst⟩ := exists_addEdge hu hv
    have hnodes : g₁.nodes = g.nodes := by rw [nodes, nodes, n_addEdge hfirst]
    obtain ⟨g', hadd⟩ := ih (g := g₁) (by rwa [hnodes])
    exact ⟨g', addEdges_cons_eq_ok_iff.mpr ⟨g₁, hfirst, hadd⟩⟩

theorem succsOf_addEdges (h : g.addEdges edges = .ok g') {w : Int} (hw : w ∈ g.nodes) :
    g'.succsOf w = g.succsOf w ++ (edges.filter fun e => e.1 = w).map Prod.snd := by
  induction edges generalizing g with
  | nil =>
    rw [← Except.ok.inj h]
    simp
  | cons e edges ih =>
    obtain ⟨g₁, hfirst, hrest⟩ := addEdges_cons_eq_ok_iff.mp h
    have hw₁ : w ∈ g₁.nodes := by
      rw [mem_nodes, n_addEdge hfirst, ← mem_nodes]
      exact hw
    rw [ih hrest hw₁, succsOf_addEdge hfirst hw, List.append_assoc]
    by_cases he : e.1 = w <;> simp [he]

end PrimePaths.Graph
