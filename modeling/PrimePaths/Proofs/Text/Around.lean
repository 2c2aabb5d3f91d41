import PrimePaths.Proofs.Text.Lines
import Mathlib.Data.List.DropRight
import Mathlib.Data.List.TakeWhile

namespace PrimePaths.Text

variable {c e e' : Char} {l mid xs ys : List Char}

/-- What stands on the last line of a text, if this is left open. -/
def lineBefore (cs : List Char) : List Char :=
  cs.rtakeWhile (!isLineEnd ·)

/-- What stands before the first line end of a text. -/
def lineAfter (cs : List Char) : List Char :=
  cs.takeWhile (!isLineEnd ·)

/-- No line of the text is left open. -/
def Ended (cs : List Char) : Prop :=
  ∀ e ∈ cs.getLast?, isLineEnd e = true

section Lines

/-- A text that leaves no line open keeps apart from what follows it. -/
theorem lines_append (h : Ended xs) : lines (xs ++ ys) = lines xs ++ lines ys := by
  rcases xs.eq_nil_or_concat with rfl | ⟨front, e, rfl⟩
  · rfl
  · rw [List.concat_eq_append] at h ⊢
    rw [List.append_assoc, List.singleton_append, lines_append_end (h e List.getLast?_concat)]

theorem lines_of_open (hsome : l ≠ []) (hl : ∀ c ∈ l, isLineEnd c = false) : lines l = [l] := by
  induction l with
  | nil => exact absurd rfl hsome
  | cons c l ih =>
    have hc := hl c List.mem_cons_self
    by_cases hnone : l = []
    · subst hnone
      simp [lines, addChar, hc]
    · rw [lines_cons, ih hnone fun d hd => hl d (List.mem_cons_of_mem c hd), addChar, hc]
      rfl

/-- A line that is open goes on up to the next line end. -/
theorem lines_open_append (hsome : l ≠ []) (hl : ∀ c ∈ l, isLineEnd c = false) :
    lines (l ++ ys) = (l ++ lineAfter ys) :: lines ((ys.dropWhile (!isLineEnd ·)).drop 1) := by
  have hline : ∀ c ∈ l ++ lineAfter ys, isLineEnd c = false := by
    intro c hc
    rcases List.mem_append.mp hc with hc | hc
    · exact hl c hc
    · simpa using List.mem_takeWhile_imp hc
  have hys : l ++ ys = (l ++ lineAfter ys) ++ ys.dropWhile (!isLineEnd ·) := by
    rw [List.append_assoc, lineAfter, List.takeWhile_append_dropWhile]
  rw [hys]
  cases hrest : ys.dropWhile (!isLineEnd ·) with
  | nil => rw [List.append_nil, lines_of_open (by simp [hsome]) hline]; rfl
  | cons e rest =>
    have he : isLineEnd e = true := by
      have hhead := List.head?_dropWhile_not (!isLineEnd ·) ys
      rw [hrest] at hhead
      simpa using hhead
    rw [lines_append_end he, lines_of_ended hline he]
    rfl

theorem countP_isLineEnd_le (cs : List Char) : cs.countP isLineEnd ≤ (lines cs).length := by
  induction cs with
  | nil => exact Nat.le_refl 0
  | cons c cs ih =>
    cases hc : isLineEnd c with
    | true =>
      rw [List.countP_cons_of_pos hc, lines_cons_end hc]
      exact Nat.succ_le_succ ih
    | false =>
      have hmore : (lines cs).length ≤ (addChar c (lines cs)).length := by
        cases hlines : lines cs <;> simp [addChar, hc]
      rw [List.countP_cons_of_neg (by simp [hc]), lines_cons]
      exact ih.trans hmore

/-- Which line end stands at a place makes no difference. -/
theorem lines_swap_end (he : isLineEnd e = true) (he' : isLineEnd e' = true) :
    lines (xs ++ e :: ys) = lines (xs ++ e' :: ys) := by
  induction xs with
  | nil => rw [List.nil_append, List.nil_append, lines_cons_end he, lines_cons_end he']
  | cons c xs ih => rw [List.cons_append, List.cons_append, lines_cons, lines_cons, ih]

end Lines

section Newlines

/-- Texts that are not put together inside a pair of carriage return and line feed keep their newlines. -/
theorem unifyNewlines_append (h : xs.getLast? = some '\r' → ys.head? ≠ some '\n') :
    unifyNewlines (xs ++ ys) = unifyNewlines xs ++ unifyNewlines ys := by
  fun_induction unifyNewlines xs with
  | case1 => rfl
  | case2 xs ih =>
    refine congrArg ('\n' :: ·) (ih fun hlast => h ?_)
    simp [List.getLast?_cons, hlast]
  | case3 c xs hpair ih =>
    have hrest : unifyNewlines (xs ++ ys) = unifyNewlines xs ++ unifyNewlines ys := by
      refine ih fun hlast => h ?_
      simp [List.getLast?_cons, hlast]
    rw [List.cons_append, unifyNewlines_cons, hrest, List.cons_append]
    intro hc
    subst hc
    cases xs with
    | nil => exact h rfl
    | cons d xs =>
      intro hd
      exact hpair xs rfl (congrArg (· :: xs) (Option.some.inj hd))

/-- A line end other than a carriage return stands by itself, if it is no line feed that completes a pair. -/
theorem unifyNewlines_append_cons (hreturn : e ≠ '\r') (hfeed : e = '\n' → xs.getLast? ≠ some '\r') :
    unifyNewlines (xs ++ e :: ys) = unifyNewlines xs ++ e :: unifyNewlines ys := by
  rw [unifyNewlines_append, unifyNewlines_cons (absurd · hreturn), if_neg hreturn]
  intro hlast hhead
  exact hfeed (Option.some.inj hhead) hlast

theorem lines_unifyNewlines_swap_end (he : isLineEnd e = true) (he' : isLineEnd e' = true)
    (hreturn : e ≠ '\r') (hreturn' : e' ≠ '\r') (hfeed : e = '\n' → xs.getLast? ≠ some '\r')
    (hfeed' : e' = '\n' → xs.getLast? ≠ some '\r') :
    lines (unifyNewlines (xs ++ e :: ys)) = lines (unifyNewlines (xs ++ e' :: ys)) := by
  rw [unifyNewlines_append_cons hreturn hfeed, unifyNewlines_append_cons hreturn' hfeed', lines_swap_end he he']

theorem exists_isLineEnd_unifyNewlines (h : ∃ e ∈ xs, isLineEnd e = true) :
    ∃ e ∈ unifyNewlines xs, isLineEnd e = true := by
  fun_induction unifyNewlines xs with
  | case1 => exact h
  | case2 xs ih => exact ⟨'\n', List.mem_cons_self, by decide⟩
  | case3 c xs hpair ih =>
    obtain ⟨e, _ | ⟨_, he⟩, hend⟩ := h
    · refine ⟨_, List.mem_cons_self, ?_⟩
      split
      · decide
      · exact hend
    · obtain ⟨e', he', hend'⟩ := ih ⟨e, he, hend⟩
      exact ⟨e', List.mem_cons_of_mem _ he', hend'⟩

theorem unifyNewlines_of_open (hl : ∀ c ∈ l, isLineEnd c = false) : unifyNewlines l = l := by
  apply unifyNewlines_of_not_mem
  intro hmem
  exact absurd (hl _ hmem) (by decide)

theorem lineAfter_unifyNewlines (cs : List Char) : lineAfter (unifyNewlines cs) = lineAfter cs := by
  fun_induction unifyNewlines cs with
  | case1 => rfl
  | case2 cs ih => rfl
  | case3 c cs hpair ih =>
    by_cases hc : c = '\r'
    · subst hc
      rfl
    rw [if_neg hc]
    change (c :: unifyNewlines cs).takeWhile _ = (c :: cs).takeWhile _
    rw [List.takeWhile_cons, List.takeWhile_cons, ← lineAfter, ← lineAfter, ih]

theorem Ended.unifyNewlines (h : Ended xs) : Ended (unifyNewlines xs) := by
  rcases xs.eq_nil_or_concat with rfl | ⟨front, e, rfl⟩
  · exact h
  rw [List.concat_eq_append] at h ⊢
  have he : isLineEnd e = true := h e List.getLast?_concat
  by_cases hfeed : e = '\n'
  · subst hfeed
    obtain ⟨zs, -, hclosed⟩ := exists_unifyNewlines_append front
    rw [hclosed]
    simp [Ended, Text.unifyNewlines, he]
  · have hlast : isLineEnd (if e = '\r' then '\n' else e) = true := by
      split
      · decide
      · exact he
    rw [unifyNewlines_append fun _ => by simpa using hfeed]
    simp [Ended, Text.unifyNewlines, hlast]

end Newlines

/-- The lines above the one on which a text leaves off. -/
def linesAbove (cs : List Char) : List (List Char) :=
  lines (unifyNewlines (cs.rdropWhile (!isLineEnd ·)))

/-- The lines below the one on which a text goes on. -/
def linesBelow (cs : List Char) : List (List Char) :=
  lines (((unifyNewlines cs).dropWhile (!isLineEnd ·)).drop 1)

/-- A passage without line ends stands on one line, between what the texts around it hold of this line. -/
theorem lines_around (xs ys : List Char) (hsome : mid ≠ []) (hmid : ∀ c ∈ mid, isLineEnd c = false) :
    lines (unifyNewlines (xs ++ mid ++ ys)) =
      linesAbove xs ++ (lineBefore xs ++ mid ++ lineAfter ys) :: linesBelow ys := by
  have hopen : ∀ c ∈ lineBefore xs ++ mid, isLineEnd c = false := by
    intro c hc
    rcases List.mem_append.mp hc with hc | hc
    · simpa using List.mem_rtakeWhile_imp hc
    · exact hmid c hc
  have hne : lineBefore xs ++ mid ≠ [] := by simp [hsome]
  have hended : Ended (xs.rdropWhile (!isLineEnd ·)) := by
    intro e he
    obtain ⟨hfront, rfl⟩ := List.mem_getLast?_eq_getLast he
    simpa using List.rdropWhile_last_not (!isLineEnd ·) xs hfront
  have hunify : unifyNewlines (xs ++ mid ++ ys) =
      unifyNewlines (xs.rdropWhile (!isLineEnd ·)) ++ (lineBefore xs ++ mid ++ unifyNewlines ys) := by
    have hxs : xs.rdropWhile (!isLineEnd ·) ++ lineBefore xs = xs := List.rdropWhile_append_rtakeWhile
    conv_lhs => rw [← hxs, List.append_assoc, List.append_assoc, ← List.append_assoc (lineBefore xs)]
    rw [unifyNewlines_append, unifyNewlines_append, unifyNewlines_of_open hopen]
    · intro hlast
      exact absurd (hopen _ (List.mem_of_getLast? hlast)) (by decide)
    · intro _ hhead
      rw [List.head?_append_of_ne_nil _ hne] at hhead
      exact absurd (hopen _ (List.mem_of_head? hhead)) (by decide)
  rw [hunify, lines_append hended.unifyNewlines, lines_open_append hne hopen,
    lineAfter_unifyNewlines]
  rfl

end PrimePaths.Text
