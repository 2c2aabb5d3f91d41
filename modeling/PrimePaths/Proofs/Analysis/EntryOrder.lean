import PrimePaths.Analysis.Basic
import PrimePaths.Proofs.Graph.BlockTable

namespace PrimePaths

variable {m : Type → Type} [Monad m] {u u' : FlowUnit}

/-- An analysis reads no more of a unit than its name, its graph and how many blocks it lists. -/
theorem attempt_congr (hname : u.name = u'.name) (hlength : u.entries.length = u'.entries.length)
    (hgraph : u.graph = u'.graph) (now : m (Except Interruption Number)) (o : Options) :
    attempt now u o = attempt now u' o := by
  have hfault (fault : GraphFault) : Attempt.ofFault u o fault = Attempt.ofFault u' o fault := by
    have herror (e : GraphError) : Study.ofGraphError u o e = Study.ofGraphError u' o e := by
      rw [Study.ofGraphError, Study.ofGraphError, hname]
    simp only [Attempt.ofFault, herror]
  have htrace (s : Searched) : Attempt.searchTrace u s = Attempt.searchTrace u' s := by
    rw [Attempt.searchTrace, Attempt.searchTrace, hlength]
  have hhalt (s : Searched) (halt : Halt) : Attempt.ofHalt u o s halt = Attempt.ofHalt u' o s halt := by
    have hlimit : Study.ofLimit u o s = Study.ofLimit u' o s :=
      funext fun reached => Study.ofLimit_congr hname hlength o s reached
    rw [Attempt.ofHalt, Attempt.ofHalt, htrace, hlimit]
  have hsearch (s : Searched) : Attempt.ofSearch u o s = Attempt.ofSearch u' o s := by
    simp only [Attempt.ofSearch, htrace, Study.ofPrimes_congr hname hlength]
  simp only [attempt, hgraph, hfault, hhalt, hsearch]

/-- Entries with distinct indices are analyzed alike in every order. -/
theorem attempt_of_entries_perm {es : List Entry} (hnodup : u.indices.Nodup) (h : es.Perm u.entries)
    (now : m (Except Interruption Number)) (o : Options) :
    attempt now { u with entries := es } o = attempt now u o := by
  apply attempt_congr
  · rfl
  · exact h.length_eq
  · exact FlowUnit.graph_of_entries_perm hnodup h

/-- The indices of the listed blocks decide about the table: it exists exactly if they are `0 .. k-1` in
some order, and then holds each block at its index. If an index is repeated, the first repetition is
reported unless its index is too long to be written, and otherwise a gap. If no index is repeated, an
analysis does not depend on the order of the blocks, whatever its outcome and the clocks are. -/
theorem entryOrder_immaterial (u : FlowUnit) :
    ((∃ blocks, u.blockTable = .ok blocks) ↔ u.indices.Perm u.expected) ∧
    (∀ blocks, u.blockTable = .ok blocks →
      blocks.length = u.entries.length ∧ ∀ i < u.entries.length, ∃ e,
        (u.entries.filter fun d => d.index = (i : Int)) = [e] ∧ blocks[i]? = some e.block) ∧
    (¬u.indices.Nodup → ∃ e, u.FirstRepeat e ∧
      ((Number.whole e.index).Writable →
        u.blockTable = .error (.invalid (.duplicateBlock u.name e.index e.line))) ∧
      (¬(Number.whole e.index).Writable → u.blockTable = .error (.crash .unwritable))) ∧
    (u.indices.Nodup → ¬u.indices.Perm u.expected → ∃ missing,
      u.blockTable = .error (.invalid (.gap u.name missing (u.sorted.map Entry.index))) ∧
        missing ≠ [] ∧ missing.Pairwise (· < ·) ∧
        ∀ v, v ∈ missing ↔ (0 ≤ v ∧ v < u.entries.length) ∧ v ∉ u.indices) ∧
    ∀ es, es.Perm u.entries → u.indices.Nodup →
      ∀ (m : Type → Type) [Monad m] (clocks : Clocks m) (o : Options),
        timedAttempt clocks { u with entries := es } o = timedAttempt clocks u o := by
  refine ⟨FlowUnit.exists_blockTable_iff, fun _ => FlowUnit.blockTable_at,
    FlowUnit.blockTable_of_repeat_cases, ?_, ?_⟩
  · intro hnodup hgap
    exact ⟨u.missing, FlowUnit.blockTable_of_gap hnodup hgap, FlowUnit.missing_ne_nil hgap,
      u.pairwise_missing, fun _ => FlowUnit.mem_missing⟩
  · intro es h hnodup m _ clocks o
    rw [timedAttempt, timedAttempt, attempt_of_entries_perm hnodup h]

/-- Two blocks of the index `10 ^ 4300` are a repetition that is not reported as such. -/
theorem blockTable_longIndex :
    ¬[(10 : Int) ^ Crash.maxDigits, 10 ^ Crash.maxDigits].Nodup ∧
      FlowUnit.blockTable {
        name := "f"
        entries := [⟨10 ^ Crash.maxDigits, ⟨true, []⟩, none⟩, ⟨10 ^ Crash.maxDigits, ⟨true, []⟩, none⟩] } =
          .error (.crash .unwritable) :=
  ⟨by simp, FlowUnit.blockTable_pair_of_long rfl rfl Number.not_writable_pow⟩

end PrimePaths
