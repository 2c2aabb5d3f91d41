import PrimePaths.Generator.Chooser
import Mathlib.Data.List.Nodup
import Mathlib.Data.List.Perm.Subperm

namespace PrimePaths

/-- The choices are within their bounds, and a sample has as many places as wanted, each one once. -/
structure Chooser.Lawful {σ : Type} (c : Chooser σ) : Prop where
  below_lt : ∀ n s, 0 < n → (c.below n s).1 < n
  length_sample : ∀ n k s, k ≤ n → (c.sample n k s).1.length = k
  nodup_sample : ∀ n k s, k ≤ n → (c.sample n k s).1.Nodup
  sample_lt : ∀ n k s, k ≤ n → ∀ i ∈ (c.sample n k s).1, i < n

namespace Twister

variable {n k tries : Nat} {t : Twister} {taken : List Nat} {pool : Array Nat}

theorem drawUntil_induction {P : Nat → Prop} {accept : Nat → Bool} {settle : Nat → Nat}
    (haccept : ∀ x, accept x = true → P x) (hsettle : ∀ x, P (settle x)) :
    P (drawUntil k accept settle tries t).1 := by
  induction tries generalizing t with
  | zero => exact hsettle _
  | succ tries ih =>
    rw [drawUntil]
    dsimp only
    split
    · rename_i h
      exact haccept _ h
    · exact ih

theorem below_lt (hn : 0 < n) : (t.below n).1 < n :=
  drawUntil_induction (P := (· < n)) (fun _ h => of_decide_eq_true h) fun x => Nat.mod_lt x hn

section Fresh

/-- While a place is free, one that is free is drawn. -/
theorem fresh_spec (hroom : taken.length < n) :
    (fresh n taken tries t).1 < n ∧ (fresh n taken tries t).1 ∉ taken := by
  induction tries generalizing t with
  | zero =>
    obtain ⟨i, hi, hfree⟩ : ∃ i ∈ List.range n, i ∉ taken := by
      by_contra hfull
      push Not at hfull
      have hle := (List.nodup_range.subperm hfull).length_le
      rw [List.length_range] at hle
      omega
    have hsome : ((List.range n).find? fun i => !taken.contains i).isSome := by
      rw [List.find?_isSome]
      exact ⟨i, hi, by simpa using hfree⟩
    obtain ⟨j, hfind⟩ := Option.isSome_iff_exists.mp hsome
    have hj := List.mem_range.mp (List.mem_of_find?_eq_some hfind)
    rw [fresh, hfind]
    exact ⟨hj, by simpa using List.find?_some hfind⟩
  | succ tries ih =>
    rw [fresh]
    dsimp only
    split
    · exact ih
    · rename_i hnew
      exact ⟨below_lt (by omega), by simpa using hnew⟩

theorem sampleFresh_spec (hnodup : taken.Nodup) (hlt : ∀ i ∈ taken, i < n)
    (hroom : taken.length + k ≤ n) :
    (sampleFresh n k taken t).1.length = taken.length + k ∧ (sampleFresh n k taken t).1.Nodup ∧
      ∀ i ∈ (sampleFresh n k taken t).1, i < n := by
  induction k generalizing taken t with
  | zero => exact ⟨rfl, hnodup, hlt⟩
  | succ k ih =>
    have hroom' : taken.length < n := by omega
    rw [sampleFresh]
    dsimp only
    generalize hdrawn : fresh n taken patience t = drawn
    obtain ⟨j, t'⟩ := drawn
    obtain ⟨hj, hnew⟩ : j < n ∧ j ∉ taken := by
      have hfresh := @fresh_spec n patience t taken hroom'
      rwa [hdrawn] at hfresh
    have hnodup' := List.nodup_cons.mpr ⟨hnew, hnodup⟩
    have hlt' : ∀ i ∈ j :: taken, i < n := List.forall_mem_cons.mpr ⟨hj, hlt⟩
    obtain ⟨hlength, hrest⟩ := @ih t' (j :: taken) hnodup' hlt' (by simp; omega)
    refine ⟨?_, hrest⟩
    rw [hlength, List.length_cons]
    omega

end Fresh

section Pool

open scoped List in
/-- To take an element out and to fill its place with the last one keeps all the others. -/
theorem perm_replace {l : List Nat} {last x j : Nat} (hx : (l ++ [last])[j]? = some x) :
    (l ++ [last]).Perm (x :: ((l ++ [last]).set j last).dropLast) := by
  by_cases hinner : j < l.length
  · have hsplit : l.take j ++ x :: l.drop (j + 1) = l := by
      rw [List.getElem?_append_left hinner] at hx
      obtain ⟨hj, rfl⟩ := List.getElem?_eq_some_iff.mp hx
      rw [List.getElem_cons_drop, List.take_append_drop]
    rw [List.set_append_left _ _ hinner, List.dropLast_concat, List.set_eq_take_append_cons_drop,
      if_pos hinner]
    calc l ++ [last] ~ last :: l := List.perm_append_singleton last l
      _ = last :: (l.take j ++ x :: l.drop (j + 1)) := by rw [hsplit]
      _ ~ last :: x :: (l.take j ++ l.drop (j + 1)) := List.perm_middle.cons last
      _ ~ x :: last :: (l.take j ++ l.drop (j + 1)) := .swap _ _ _
      _ ~ x :: (l.take j ++ last :: l.drop (j + 1)) := List.perm_middle.symm.cons _
  · have hlast : j = l.length := by
      have hj := (List.getElem?_eq_some_iff.mp hx).1
      rw [List.length_append, List.length_singleton] at hj
      omega
    subst hlast
    obtain rfl : last = x := by simpa using hx
    simp

theorem perm_pool {j : Nat} (hj : j < pool.size) :
    pool.toList.Perm
      (pool.getD j 0 :: (pool.set! j (pool.getD (pool.size - 1) 0)).pop.toList) := by
  obtain ⟨l, last, hl⟩ : ∃ l last, pool.toList = l ++ [last] := by
    rcases List.eq_nil_or_concat pool.toList with hnil | hconcat
    · have hsize := congrArg List.length hnil
      rw [Array.length_toList, List.length_nil] at hsize
      omega
    · simpa using hconcat
  have hsize : pool.size = l.length + 1 := by
    rw [← Array.length_toList, hl, List.length_append, List.length_singleton]
  have hchosen : (l ++ [last])[j]? = some (pool.getD j 0) := by
    simp [← hl, Array.getD, hj]
  have hend : pool.getD (pool.size - 1) 0 = last := by
    simp [Array.getD, ← Array.getElem_toList, hl, hsize]
  rw [hend]
  simpa [hl] using perm_replace hchosen

/-- A sample and what is left of the pool make up the pool. -/
theorem exists_samplePool (hk : k ≤ pool.size) :
    (samplePool k pool t).1.length = k ∧ ∃ rest, pool.toList.Perm ((samplePool k pool t).1 ++ rest) := by
  induction k generalizing pool t with
  | zero => exact ⟨rfl, pool.toList, .refl _⟩
  | succ k ih =>
    have hpool := perm_pool (below_lt (t := t) (by omega : 0 < pool.size))
    rw [samplePool]
    dsimp only
    have hleft : k ≤ (pool.set! (t.below pool.size).1 (pool.getD (pool.size - 1) 0)).pop.size := by
      simp
      omega
    obtain ⟨hlength, rest, hrest⟩ := ih (t := (t.below pool.size).2) hleft
    exact ⟨congrArg (· + 1) hlength, rest, hpool.trans (hrest.cons _)⟩

end Pool

theorem sample_spec (hk : k ≤ n) :
    (sample n k t).1.length = k ∧ (sample n k t).1.Nodup ∧ ∀ i ∈ (sample n k t).1, i < n := by
  rw [sample]
  split
  · have hsize : k ≤ (Array.range n).size := by simpa using hk
    obtain ⟨hlength, rest, hrest⟩ := exists_samplePool (t := t) hsize
    rw [Array.toList_range] at hrest
    refine ⟨hlength, ?_, ?_⟩
    · exact (List.nodup_append.mp (hrest.nodup_iff.mp List.nodup_range)).1
    · intro i hi
      exact List.mem_range.mp (hrest.mem_iff.mpr (List.mem_append_left rest hi))
  · have hroom : ([] : List Nat).length + k ≤ n := by simpa using hk
    obtain ⟨hlength, hnodup, hlt⟩ := sampleFresh_spec (t := t) List.nodup_nil nofun hroom
    simpa [hlength, hnodup] using hlt

end Twister

theorem Chooser.lawful_twister : Chooser.twister.Lawful where
  below_lt _ _ hn := Twister.below_lt hn
  length_sample _ _ _ hk := (Twister.sample_spec hk).1
  nodup_sample _ _ _ hk := (Twister.sample_spec hk).2.1
  sample_lt _ _ _ hk := (Twister.sample_spec hk).2.2

end PrimePaths
