import PrimePaths.Graph.FlowUnit
import Mathlib.Data.List.Basic

namespace PrimePaths.FlowUnit

/-- The numbers of a unit can be written. -/
structure Writable (u : FlowUnit) : Prop where
  indices : ∀ e ∈ u.entries, (Number.whole e.index).Writable
  succs : ∀ e ∈ u.entries, ∀ v ∈ e.block.succs, (Number.whole v).Writable

variable {u : FlowUnit} {blocks : List Block} {block : Block}

theorem blockTable_eq_ok (h : u.blockTable = .ok blocks) :
    u.sorted.map Entry.index = (List.range u.entries.length).map Int.ofNat ∧
      blocks = u.sorted.map Entry.block := by
  unfold blockTable at h
  split at h
  · exact absurd h (GraphError.raise_ne_ok _ _)
  · dsimp only at h
    split at h
    · rename_i hindices
      exact ⟨hindices, (Except.ok.inj h).symm⟩
    · exact absurd h (GraphError.raise_ne_ok _ _)

theorem perm_sorted (u : FlowUnit) : u.sorted.Perm u.entries :=
  List.mergeSort_perm _ _

theorem mem_sorted {e : Entry} : e ∈ u.sorted ↔ e ∈ u.entries :=
  u.perm_sorted.mem_iff

/-- In a listing that has a table, the index of an entry is its place after sorting. -/
theorem index_of_getElem?_sorted (h : u.blockTable = .ok blocks) {i : Nat} {e : Entry}
    (he : u.sorted[i]? = some e) : e.index = i := by
  have hindex : (u.sorted.map Entry.index)[i]? = some e.index := by
    rw [List.getElem?_map, he]
    rfl
  rw [(blockTable_eq_ok h).1, List.getElem?_map, Option.map_eq_some_iff] at hindex
  obtain ⟨j, hj, hindex⟩ := hindex
  obtain ⟨hlt, hj⟩ := List.getElem?_eq_some_iff.mp hj
  rw [← hindex, ← hj, List.getElem_range]
  rfl

theorem exists_index (h : u.blockTable = .ok blocks) {e : Entry} (he : e ∈ u.entries) :
    ∃ i : Nat, u.sorted[i]? = some e ∧ e.index = i := by
  obtain ⟨i, hi⟩ := List.mem_iff_getElem?.mp (mem_sorted.mpr he)
  exact ⟨i, hi, index_of_getElem?_sorted h hi⟩

theorem getElem?_blockTable (h : u.blockTable = .ok blocks) {i : Nat} :
    blocks[i]? = some block ↔ ∃ e ∈ u.entries, e.index = i ∧ e.block = block := by
  obtain ⟨-, rfl⟩ := blockTable_eq_ok h
  rw [List.getElem?_map, Option.map_eq_some_iff]
  constructor
  · intro hat
    obtain ⟨e, he, hblock⟩ := hat
    exact ⟨e, mem_sorted.mp (List.mem_of_getElem? he), index_of_getElem?_sorted h he, hblock⟩
  · intro hat
    obtain ⟨e, he, hindex, hblock⟩ := hat
    obtain ⟨j, hj, hplace⟩ := exists_index h he
    obtain rfl : j = i := by omega
    exact ⟨e, hj, hblock⟩

theorem firstRepeat?_eq_none_iff {es : List Entry} {seen : List Int} :
    firstRepeat? es seen = none ↔ (es.map Entry.index).Nodup ∧ ∀ e ∈ es, e.index ∉ seen := by
  induction es generalizing seen with
  | nil => simp [firstRepeat?]
  | cons e es ih =>
    rw [firstRepeat?]
    split
    · rename_i hold
      simp [hold]
    · rename_i hnew
      rw [ih, List.map_cons, List.nodup_cons, List.forall_mem_cons]
      constructor
      · intro h
        obtain ⟨hrest, hlater⟩ := h
        refine ⟨⟨?_, hrest⟩, hnew, fun d hd => mt (List.mem_cons_of_mem e.index) (hlater d hd)⟩
        intro hmem
        obtain ⟨d, hd, hsame⟩ := List.mem_map.mp hmem
        exact hlater d hd (hsame ▸ List.mem_cons_self)
      · intro h
        obtain ⟨⟨hfirst, hrest⟩, -, hlater⟩ := h
        refine ⟨hrest, ?_⟩
        intro d hd hmem
        rcases List.mem_cons.mp hmem with hsame | hold
        · exact hfirst (hsame ▸ List.mem_map_of_mem hd)
        · exact hlater d hd hold

theorem firstRepeat?_of_nodup {es : List Entry} (h : (es.map Entry.index).Nodup) :
    firstRepeat? es [] = none :=
  firstRepeat?_eq_none_iff.mpr ⟨h, by simp⟩

/-- Blocks that are listed in the order of their indices are the table. -/
theorem blockTable_of_listed
    (h : u.entries.map (fun e => (e.index, e.block)) = blocks.zipIdx.map fun (b, i) => ((i : Int), b)) :
    u.blockTable = .ok blocks := by
  have hindices : u.entries.map Entry.index = (List.range blocks.length).map Int.ofNat := by
    have hfst := congrArg (List.map Prod.fst) h
    rw [List.map_map, List.map_map] at hfst
    rw [List.range_eq_range', ← List.zipIdx_map_snd 0 blocks, List.map_map]
    exact hfst
  have hblocks : u.entries.map Entry.block = blocks := by
    have hsnd := congrArg (List.map Prod.snd) h
    rw [List.map_map, List.map_map] at hsnd
    rw [← List.zipIdx_map_fst 0 blocks]
    exact hsnd
  have hlength : u.entries.length = blocks.length := by
    rw [← hblocks, List.length_map]
  have hincreasing : (u.entries.map Entry.index).Pairwise (· < ·) := by
    rw [hindices, List.pairwise_map]
    exact List.pairwise_lt_range.imp Int.ofNat_lt.mpr
  have hsorted : u.sorted = u.entries := by
    apply List.mergeSort_of_pairwise
    refine (List.pairwise_map.mp hincreasing).imp ?_
    intro d e hlt
    exact decide_eq_true (Int.le_of_lt hlt)
  rw [blockTable, firstRepeat?_of_nodup (hincreasing.imp Int.ne_of_lt), hsorted, hindices, hblocks, hlength]
  exact if_pos rfl

end PrimePaths.FlowUnit
