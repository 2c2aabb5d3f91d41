import PrimePaths.Text.Lines
import Mathlib.Data.List.Basic

namespace PrimePaths.Text

variable {c e : Char} {cs l xs ys : List Char} {ls ms : List (List Char)}

theorem addChar_ne_nil : addChar c ls ≠ [] := by
  unfold addChar
  split
  · exact List.cons_ne_nil _ _
  · split <;> exact List.cons_ne_nil _ _

theorem addChar_append (h : ls ≠ []) : addChar c (ls ++ ms) = addChar c ls ++ ms := by
  obtain ⟨l, ls, rfl⟩ := List.exists_cons_of_ne_nil h
  unfold addChar
  split <;> rfl

theorem lines_cons : lines (c :: cs) = addChar c (lines cs) :=
  rfl

theorem lines_ne_nil (h : cs ≠ []) : lines cs ≠ [] := by
  obtain ⟨c, cs, rfl⟩ := List.exists_cons_of_ne_nil h
  rw [lines_cons]
  exact addChar_ne_nil

theorem lines_cons_end (h : isLineEnd c = true) : lines (c :: cs) = [] :: lines cs :=
  if_pos h

theorem lines_append_end (h : isLineEnd e = true) :
    lines (xs ++ e :: ys) = lines (xs ++ [e]) ++ lines ys := by
  induction xs with
  | nil =>
    rw [List.nil_append, List.nil_append, lines_cons_end h, lines_cons_end h]
    rfl
  | cons c xs ih =>
    have hsome : lines (xs ++ [e]) ≠ [] := lines_ne_nil (by simp)
    rw [List.cons_append, List.cons_append, lines_cons, lines_cons, ih, addChar_append hsome]

theorem lines_of_ended (hl : ∀ c ∈ l, isLineEnd c = false) (h : isLineEnd e = true) :
    lines (l ++ [e]) = [l] := by
  induction l with
  | nil => exact lines_cons_end h
  | cons c l ih =>
    have hc := hl c List.mem_cons_self
    have hrest := ih fun d hd => hl d (List.mem_cons_of_mem c hd)
    rw [List.cons_append, lines_cons, hrest, addChar, hc]
    rfl

/-- Lines that are written with their ends read as these lines. -/
theorem lines_flatMap_newline (h : ∀ l ∈ ls, ∀ c ∈ l, isLineEnd c = false) :
    lines (ls.flatMap (· ++ ['\n'])) = ls := by
  induction ls with
  | nil => rfl
  | cons l ls ih =>
    have hfirst : lines (l ++ ['\n']) = [l] := lines_of_ended (h l List.mem_cons_self) (by decide)
    have hrest := ih fun m hm => h m (List.mem_cons_of_mem l hm)
    rw [List.flatMap_cons, List.append_assoc, List.singleton_append, lines_append_end (by decide),
      hfirst, hrest, List.singleton_append]

/-- A line feed at the close ends a line that is open, or it adds an empty one. -/
theorem lines_append_newline : lines (cs ++ ['\n']) = lines cs ∨ lines (cs ++ ['\n']) = lines cs ++ [[]] := by
  induction cs with
  | nil => exact Or.inr rfl
  | cons c cs ih =>
    rw [List.cons_append, lines_cons, lines_cons]
    rcases ih with hsame | hmore
    · exact Or.inl (congrArg (addChar c) hsame)
    rw [hmore]
    by_cases hnone : lines cs = []
    · rw [hnone]
      cases hend : isLineEnd c with
      | true => exact Or.inr (by simp [addChar, hend])
      | false => exact Or.inl (by simp [addChar, hend])
    · exact Or.inr (addChar_append hnone)

theorem unifyNewlines_of_not_mem (h : '\r' ∉ cs) : unifyNewlines cs = cs := by
  fun_induction unifyNewlines cs with
  | case1 => rfl
  | case2 cs => simp at h
  | case3 cs c hpair ih =>
    rw [List.mem_cons, not_or] at h
    rw [if_neg (Ne.symm h.1), ih h.2]

theorem unifyNewlines_cons (h : c = '\r' → cs.head? ≠ some '\n') :
    unifyNewlines (c :: cs) = (if c = '\r' then '\n' else c) :: unifyNewlines cs := by
  apply unifyNewlines.eq_3
  rintro ds hc rfl
  exact h hc rfl

/-- A line feed separates two texts; a carriage return before it stands for the same line end. -/
theorem exists_unifyNewlines_append (xs : List Char) :
    ∃ zs, (unifyNewlines xs = zs ∨ unifyNewlines xs = zs ++ ['\n']) ∧
      ∀ ys, unifyNewlines (xs ++ '\n' :: ys) = zs ++ '\n' :: unifyNewlines ys := by
  fun_induction unifyNewlines xs with
  | case1 => exact ⟨[], Or.inl rfl, fun ys => rfl⟩
  | case2 xs ih =>
    obtain ⟨zs, hclosed, happend⟩ := ih
    refine ⟨'\n' :: zs, ?_, fun ys => congrArg ('\n' :: ·) (happend ys)⟩
    exact hclosed.imp (congrArg ('\n' :: ·)) (congrArg ('\n' :: ·))
  | case3 c xs hpair ih =>
    by_cases hnone : xs = []
    · -- Only a carriage return at the very end can go together with the line feed.
      subst hnone
      by_cases hc : c = '\r'
      · subst hc
        exact ⟨[], Or.inr rfl, fun ys => rfl⟩
      · refine ⟨[c], Or.inl (by simp [hc, unifyNewlines]), fun ys => ?_⟩
        rw [List.singleton_append, unifyNewlines_cons (absurd · hc), if_neg hc]
        rfl
    · obtain ⟨zs, hclosed, happend⟩ := ih
      refine ⟨(if c = '\r' then '\n' else c) :: zs, ?_, fun ys => ?_⟩
      · exact hclosed.imp (congrArg (_ :: ·)) (congrArg (_ :: ·))
      · rw [List.cons_append, unifyNewlines_cons, happend ys, List.cons_append]
        intro hc hhead
        rw [List.head?_append_of_ne_nil _ hnone] at hhead
        obtain ⟨ws, rfl⟩ := List.head?_eq_some_iff.mp hhead
        exact hpair ws hc rfl

theorem lines_unifyNewlines_append (xs ys : List Char) :
    lines (unifyNewlines (xs ++ '\n' :: ys)) =
      lines (unifyNewlines (xs ++ ['\n'])) ++ lines (unifyNewlines ys) := by
  obtain ⟨zs, -, happend⟩ := exists_unifyNewlines_append xs
  have hclosed : unifyNewlines (xs ++ ['\n']) = zs ++ ['\n'] := happend []
  rw [happend ys, hclosed, lines_append_end (by decide)]

/-- A line feed at the close of a text adds at most an empty line. -/
theorem lines_unifyNewlines_append_newline (xs : List Char) :
    lines (unifyNewlines (xs ++ ['\n'])) = lines (unifyNewlines xs) ∨
      lines (unifyNewlines (xs ++ ['\n'])) = lines (unifyNewlines xs) ++ [[]] := by
  obtain ⟨zs, hopen, happend⟩ := exists_unifyNewlines_append xs
  have hclosed : unifyNewlines (xs ++ ['\n']) = zs ++ ['\n'] := happend []
  rw [hclosed]
  rcases hopen with hopen | hopen
  · rw [hopen]
    exact lines_append_newline
  · exact Or.inl (congrArg lines hopen.symm)

end PrimePaths.Text
