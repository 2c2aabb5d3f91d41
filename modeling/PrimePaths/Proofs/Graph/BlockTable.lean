import PrimePaths.Proofs.Graph.FlowUnit
import PrimePaths.Proofs.Number.Reading
import Mathlib.Data.List.Perm.Subperm
import Mathlib.Data.List.Nodup

namespace PrimePaths.FlowUnit

variable {u : FlowUnit} {blocks : List Block} {e : Entry} {es : List Entry} {seen : List Int} {v : Int}

/-- The indices of a unit in the order in which its blocks are listed. -/
def indices (u : FlowUnit) : List Int :=
  u.entries.map Entry.index

/-- The indices that as many blocks have to have, in ascending order. -/
def expected (u : FlowUnit) : List Int :=
  (List.range u.entries.length).map Int.ofNat

/-- The indices that no block has, though there are enough blocks. -/
def missing (u : FlowUnit) : List Int :=
  u.expected.filter fun v => !u.indices.contains v

section Repeats

/-- The entry has the index of an earlier one; the entries before it have distinct indices. -/
def FirstRepeat (u : FlowUnit) (e : Entry) : Prop :=
  ∃ before after, u.entries = before ++ e :: after ∧ (before.map Entry.index).Nodup ∧
    e.index ∈ before.map Entry.index

theorem exists_of_firstRepeat? (h : firstRepeat? es seen = some e) :
    ∃ before after, es = before ++ e :: after ∧ (before.map Entry.index).Nodup ∧
      (∀ d ∈ before, d.index ∉ seen) ∧ (e.index ∈ seen ∨ e.index ∈ before.map Entry.index) := by
  induction es generalizing seen with
  | nil => simp [firstRepeat?] at h
  | cons d es ih =>
    rw [firstRepeat?] at h
    split at h
    · rename_i hold
      obtain rfl := Option.some.inj h
      exact ⟨[], es, rfl, by simp, by simp, Or.inl hold⟩
    · rename_i hnew
      obtain ⟨before, after, rfl, hnodup, hbefore, hrepeat⟩ := ih h
      refine ⟨d :: before, after, rfl, ?_, ?_, ?_⟩
      · rw [List.map_cons, List.nodup_cons]
        refine ⟨?_, hnodup⟩
        intro hmem
        obtain ⟨c, hc, hsame⟩ := List.mem_map.mp hmem
        exact hbefore c hc (hsame ▸ List.mem_cons_self)
      · rw [List.forall_mem_cons]
        exact ⟨hnew, fun c hc => mt (List.mem_cons_of_mem d.index) (hbefore c hc)⟩
      · rw [List.mem_cons] at hrepeat
        rw [List.map_cons, List.mem_cons]
        tauto

/-- A repeated index is reported for the first entry that has it once more. -/
theorem blockTable_of_repeat (h : ¬u.indices.Nodup) :
    ∃ e, u.FirstRepeat e ∧ u.blockTable = (GraphError.duplicateBlock u.name e.index e.line).raise := by
  cases hrepeat : firstRepeat? u.entries [] with
  | none => exact absurd (firstRepeat?_eq_none_iff.mp hrepeat).1 h
  | some e =>
    obtain ⟨before, after, hsplit, hnodup, -, hold⟩ := exists_of_firstRepeat? hrepeat
    refine ⟨e, ⟨before, after, hsplit, hnodup, by simpa using hold⟩, ?_⟩
    rw [blockTable, hrepeat]

theorem writable_duplicateBlock {unit : String} {block : Int} {line : Option Int} :
    (GraphError.duplicateBlock unit block line).Writable ↔ (Number.whole block).Writable := by
  simp [GraphError.Writable, GraphError.numbers]

/-- An index that comes twice and is too long to be written is not reported. -/
theorem blockTable_pair_of_long {d e : Entry} (hentries : u.entries = [d, e]) (hsame : d.index = e.index)
    (hlong : ¬(Number.whole e.index).Writable) : u.blockTable = .error (.crash .unwritable) := by
  have hrepeat : firstRepeat? u.entries [] = some e := by simp [hentries, firstRepeat?, hsame]
  rw [blockTable, hrepeat]
  exact GraphError.raise_eq_crash_iff.mpr ⟨mt writable_duplicateBlock.mp hlong, rfl⟩

/-- The report of a repeated index writes it. -/
theorem blockTable_of_repeat_cases (h : ¬u.indices.Nodup) :
    ∃ e, u.FirstRepeat e ∧
      ((Number.whole e.index).Writable →
        u.blockTable = .error (.invalid (.duplicateBlock u.name e.index e.line))) ∧
      (¬(Number.whole e.index).Writable → u.blockTable = .error (.crash .unwritable)) := by
  obtain ⟨e, hrepeat, htable⟩ := blockTable_of_repeat h
  refine ⟨e, hrepeat, ?_, ?_⟩
  · intro hshort
    exact htable.trans (GraphError.raise_eq_invalid_iff.mpr ⟨writable_duplicateBlock.mpr hshort, rfl⟩)
  · intro hlong
    exact htable.trans (GraphError.raise_eq_crash_iff.mpr ⟨mt writable_duplicateBlock.mp hlong, rfl⟩)

end Repeats

section Sorting

theorem pairwise_sorted (u : FlowUnit) : u.sorted.Pairwise fun d e => d.index ≤ e.index := by
  have htrans : ∀ c d e : Entry, decide (c.index ≤ d.index) → decide (d.index ≤ e.index) →
      decide (c.index ≤ e.index) := by
    simp only [decide_eq_true_iff]
    omega
  have htotal : ∀ d e : Entry, decide (d.index ≤ e.index) || decide (e.index ≤ d.index) := by
    simp only [Bool.or_eq_true, decide_eq_true_iff]
    omega
  exact (List.pairwise_mergeSort htrans htotal u.entries).imp of_decide_eq_true

theorem pairwise_expected (u : FlowUnit) : u.expected.Pairwise (· < ·) :=
  List.pairwise_map.mpr (List.pairwise_lt_range.imp Int.ofNat_lt.mpr)

theorem mem_expected : v ∈ u.expected ↔ 0 ≤ v ∧ v < u.entries.length :=
  Graph.mem_map_ofNat_range

/-- Sorting leads to the expected indices exactly if they are there in some order. -/
theorem map_index_sorted_eq_iff :
    u.sorted.map Entry.index = u.expected ↔ u.indices.Perm u.expected := by
  have hperm : (u.sorted.map Entry.index).Perm u.indices := u.perm_sorted.map Entry.index
  constructor
  · intro h
    exact h ▸ hperm.symm
  · intro h
    have hsorted : (u.sorted.map Entry.index).Pairwise (· ≤ ·) :=
      List.pairwise_map.mpr u.pairwise_sorted
    have hexpected := u.pairwise_expected.imp Int.le_of_lt
    exact (hperm.trans h).eq_of_pairwise (fun _ _ _ _ => Int.le_antisymm) hsorted hexpected

end Sorting

section Tables

theorem nodup_of_perm (h : u.indices.Perm u.expected) : u.indices.Nodup :=
  h.nodup_iff.mpr (u.pairwise_expected.imp Int.ne_of_lt)

theorem blockTable_of_perm (h : u.indices.Perm u.expected) :
    u.blockTable = .ok (u.sorted.map Entry.block) := by
  rw [blockTable, firstRepeat?_of_nodup (nodup_of_perm h)]
  exact if_pos (map_index_sorted_eq_iff.mpr h)

theorem exists_blockTable_iff :
    (∃ blocks, u.blockTable = .ok blocks) ↔ u.indices.Perm u.expected := by
  constructor
  · intro h
    obtain ⟨blocks, hblocks⟩ := h
    exact map_index_sorted_eq_iff.mp (blockTable_eq_ok hblocks).1
  · intro h
    exact ⟨_, blockTable_of_perm h⟩

theorem blockTable_of_gap (hnodup : u.indices.Nodup) (hgap : ¬u.indices.Perm u.expected) :
    u.blockTable = .error (.invalid (.gap u.name u.missing (u.sorted.map Entry.index))) := by
  have hmissing : (u.expected.filter fun v => !(u.sorted.map Entry.index).contains v) = u.missing := by
    have hmem (v : Int) : v ∈ u.sorted.map Entry.index ↔ v ∈ u.indices :=
      (u.perm_sorted.map Entry.index).mem_iff
    simp only [missing, List.contains_eq_mem, hmem]
  rw [blockTable, firstRepeat?_of_nodup hnodup, ← hmissing, ← GraphError.raise_gap]
  exact if_neg (mt map_index_sorted_eq_iff.mp hgap)

theorem mem_missing : v ∈ u.missing ↔ (0 ≤ v ∧ v < u.entries.length) ∧ v ∉ u.indices := by
  simp [missing, mem_expected]

theorem pairwise_missing (u : FlowUnit) : u.missing.Pairwise (· < ·) :=
  u.pairwise_expected.filter _

/-- As many indices as expected that leave none out are the expected ones. -/
theorem missing_ne_nil (hgap : ¬u.indices.Perm u.expected) : u.missing ≠ [] := by
  intro hnil
  have hsubset : u.expected ⊆ u.indices := by
    intro v hv
    by_contra hnot
    have hmem : v ∈ u.missing := mem_missing.mpr ⟨mem_expected.mp hv, hnot⟩
    simp [hnil] at hmem
  have hlength : u.indices.length ≤ u.expected.length := by
    simp [indices, expected]
  have hexpected : u.expected.Nodup := u.pairwise_expected.imp Int.ne_of_lt
  have hsubperm := hexpected.subperm hsubset
  exact hgap (hsubperm.perm_of_length_le hlength).symm

/-- No second entry has the index of an entry. -/
theorem filter_index_eq (hnodup : u.indices.Nodup) (he : e ∈ u.entries) :
    (u.entries.filter fun d => d.index = e.index) = [e] := by
  have hdistinct : (u.entries.filter fun d => d.index = e.index).Nodup := hnodup.of_map.filter _
  apply List.perm_singleton.mp
  rw [List.perm_ext_iff_of_nodup hdistinct (List.nodup_singleton e)]
  intro d
  rw [List.mem_filter, List.mem_singleton, decide_eq_true_iff]
  constructor
  · intro hd
    exact List.inj_on_of_nodup_map hnodup hd.1 he hd.2
  · intro heq
    exact ⟨heq ▸ he, congrArg Entry.index heq⟩

/-- A table has as many blocks as the unit, each from the one entry with its place as index. -/
theorem blockTable_at (h : u.blockTable = .ok blocks) :
    blocks.length = u.entries.length ∧ ∀ i < u.entries.length, ∃ e,
      (u.entries.filter fun d => d.index = (i : Int)) = [e] ∧ blocks[i]? = some e.block := by
  have hlength : blocks.length = u.entries.length := by
    rw [(blockTable_eq_ok h).2, List.length_map, u.perm_sorted.length_eq]
  have hnodup := nodup_of_perm (exists_blockTable_iff.mp ⟨blocks, h⟩)
  refine ⟨hlength, ?_⟩
  intro i hi
  have hat := List.getElem?_eq_getElem (l := blocks) (hlength ▸ hi)
  obtain ⟨e, he, hindex, hblock⟩ := (getElem?_blockTable h).mp hat
  refine ⟨e, hindex ▸ filter_index_eq hnodup he, ?_⟩
  rw [hblock, hat]

end Tables

section Order

/-- Entries with distinct indices are sorted to one list, whatever their order. -/
theorem sorted_of_perm (hnodup : u.indices.Nodup) (h : es.Perm u.entries) :
    { u with entries := es }.sorted = u.sorted := by
  have hperm : { u with entries := es }.sorted.Perm u.sorted :=
    (perm_sorted _).trans (h.trans u.perm_sorted.symm)
  refine hperm.eq_of_pairwise ?_ (pairwise_sorted _) u.pairwise_sorted
  intro d e hd he hle hge
  have hd' : d ∈ u.entries := h.mem_iff.mp ((perm_sorted _).mem_iff.mp hd)
  have he' : e ∈ u.entries := u.perm_sorted.mem_iff.mp he
  exact List.inj_on_of_nodup_map hnodup hd' he' (Int.le_antisymm hle hge)

theorem blockTable_of_entries_perm (hnodup : u.indices.Nodup) (h : es.Perm u.entries) :
    { u with entries := es }.blockTable = u.blockTable := by
  have hnodup' : (es.map Entry.index).Nodup := (h.map Entry.index).nodup_iff.mpr hnodup
  rw [blockTable, blockTable, sorted_of_perm hnodup h, firstRepeat?_of_nodup hnodup,
    firstRepeat?_of_nodup hnodup', h.length_eq]

theorem graph_of_entries_perm (hnodup : u.indices.Nodup) (h : es.Perm u.entries) :
    { u with entries := es }.graph = u.graph := by
  rw [graph, graph, blockTable_of_entries_perm hnodup h]

end Order

end PrimePaths.FlowUnit
