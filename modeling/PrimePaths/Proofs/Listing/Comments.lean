import PrimePaths.Proofs.Listing.Answer
import PrimePaths.Proofs.Text.Around

namespace PrimePaths.Listing

open PrimePaths.LineContent PrimePaths.Text

variable {path before comment other after : String} {l m r : List Char}

/-- What follows a line: nothing, or a carriage return or line feed first. -/
def FollowsLine (after : String) : Prop :=
  ∀ c ∈ after.toList.head?, c = '\n' ∨ c = '\r'

theorem takeWhile_comment : (l ++ '#' :: m).takeWhile (· != '#') = l.takeWhile (· != '#') := by
  induction l with
  | nil => rfl
  | cons c l ih => rw [List.cons_append, List.takeWhile_cons, List.takeWhile_cons, ih]

/-- Lines that differ only behind a number sign are alike. -/
theorem alike_comment : Alike (l ++ '#' :: m) (l ++ '#' :: r) where
  body := by rw [body, body, takeWhile_comment, takeWhile_comment]
  blank := by
    have hsign : isBlank '#' = false := by decide
    simp [hsign]

theorem textLines_comment (h : ∀ c ∈ comment.toList, isLineEnd c = false) :
    textLines (before ++ "#" ++ comment ++ after) =
      linesAbove before.toList ++
        (lineBefore before.toList ++ '#' :: (comment.toList ++ lineAfter after.toList)) ::
          linesBelow after.toList := by
  have hpassage : ∀ c ∈ '#' :: comment.toList, isLineEnd c = false := by
    rintro c (_ | ⟨_, hc⟩)
    · decide
    · exact h c hc
  have hlines := lines_around before.toList after.toList (List.cons_ne_nil _ _) hpassage
  have htext : (before ++ "#" ++ comment ++ after).toList =
      before.toList ++ '#' :: comment.toList ++ after.toList := by
    simp [String.toList_append]
  rw [textLines, htext, hlines]
  simp

theorem answer_comment (hcomment : ∀ c ∈ comment.toList, isLineEnd c = false)
    (hother : ∀ c ∈ other.toList, isLineEnd c = false) :
    answer path (before ++ "#" ++ comment ++ after) = answer path (before ++ "#" ++ other ++ after) :=
  answer_congr_line alike_comment (textLines_comment hcomment) (textLines_comment hother)

/-- A further line end in a comment is as good as a line feed. -/
theorem readText_spilled {shown spilled : String} {e : Char} (hshown : ∀ c ∈ shown.toList, isLineEnd c = false)
    (he : isLineEnd e = true) (hfeed : e ≠ '\n') (hreturn : e ≠ '\r') :
    readText path (before ++ "#" ++ (shown ++ String.singleton e ++ spilled) ++ after) =
      readText path (before ++ "#" ++ (shown ++ "\n" ++ spilled) ++ after) := by
  have htext (d : Char) : (before ++ "#" ++ (shown ++ String.singleton d ++ spilled) ++ after).toList =
      (before.toList ++ '#' :: shown.toList) ++ d :: (spilled.toList ++ after.toList) := by
    simp [String.toList_append]
  have hlast : (before.toList ++ '#' :: shown.toList).getLast? ≠ some '\r' := by
    rw [List.getLast?_append_of_ne_nil _ (List.cons_ne_nil _ _)]
    intro hlast
    rcases List.mem_cons.mp (List.mem_of_getLast? hlast) with hsign | hmem
    · exact absurd hsign (by decide)
    · exact absurd (hshown _ hmem) (by decide)
  have hlines : textLines (before ++ "#" ++ (shown ++ String.singleton e ++ spilled) ++ after) =
      textLines (before ++ "#" ++ (shown ++ String.singleton '\n' ++ spilled) ++ after) := by
    rw [textLines, textLines, htext, htext]
    exact lines_unifyNewlines_swap_end he (by decide) hreturn (by decide) (absurd · hfeed) fun _ => hlast
  exact congrArg (readLines path) hlines

theorem textLines_above_block (comment : String) :
    textLines ("" ++ "#" ++ comment ++ "\r0 live") =
      lines (unifyNewlines ('#' :: comment.toList) ++ ['\n']) ++ ["0 live".toList] := by
  have htext : ("" ++ "#" ++ comment ++ "\r0 live").toList =
      '#' :: comment.toList ++ '\r' :: "0 live".toList := by
    simp [String.toList_append]
  have hblock : unifyNewlines ('\r' :: "0 live".toList) = '\n' :: "0 live".toList := rfl
  rw [textLines, htext, unifyNewlines_append fun _ => by simp, hblock, lines_append_end (by decide)]
  rfl

/-- The block of the line that is put below a comment. -/
def blockBelow : BlockLine where
  index := ['0']
  live := true
  succs := []

theorem read_blockBelow : read "0 live".toList = .ok (.block blockBelow) := by
  decide +kernel

/-- Where a comment holds a line end, a block below it stands below the second line. -/
theorem exists_entry_below {us : List FlowUnit} (h : ∃ e ∈ comment.toList, isLineEnd e = true)
    (hread : readText path ("" ++ "#" ++ comment ++ "\r0 live") = .ok us) :
    ∃ number, 3 ≤ number ∧ entry number blockBelow ∈ us.flatMap FlowUnit.entries := by
  have hmore : 2 ≤ (lines (unifyNewlines ('#' :: comment.toList) ++ ['\n'])).length := by
    refine le_trans ?_ (countP_isLineEnd_le _)
    have hend : 0 < (unifyNewlines ('#' :: comment.toList)).countP isLineEnd := by
      obtain ⟨e, he, hend⟩ := h
      rw [List.countP_pos_iff]
      exact exists_isLineEnd_unifyNewlines ⟨e, List.mem_cons_of_mem _ he, hend⟩
    have hfeed : ['\n'].countP isLineEnd = 1 := by decide
    rw [List.countP_append, hfeed]
    omega
  refine ⟨(lines (unifyNewlines ('#' :: comment.toList) ++ ['\n'])).length + 1, by omega, ?_⟩
  apply entry_mem_of_block hread ?_ read_blockBelow
  rw [linesOf, textLines_above_block, numberFrom_append, Nat.add_comm 1]
  exact List.mem_append_right _ (List.mem_singleton_self _)

theorem exists_units_below (path : String) : ∃ us, readText path ("" ++ "#" ++ "" ++ "\r0 live") = .ok us ∧
    us.flatMap FlowUnit.entries = [entry 2 blockBelow] := by
  have hlines : linesOf ("" ++ "#" ++ "" ++ "\r0 live") = [(1, ['#']), (2, "0 live".toList)] := rfl
  have hreads : Reads path (linesOf ("" ++ "#" ++ "" ++ "\r0 live"))
      [(1, .nothing), (2, .block blockBelow)] := by
    rw [hlines]
    have hcomment : Spells (body ['#']) .nothing := .nothing rfl
    refine .snoc (.snoc .nil ⟨⟨hcomment, nofun⟩, nofun⟩) ⟨⟨read_eq_ok_iff.mp read_blockBelow, ?_⟩, nofun⟩
    rintro _ ⟨⟩
    decide
  refine ⟨_, readText_of_reads hreads ⟨2, _, List.mem_cons_of_mem _ List.mem_cons_self⟩, ?_⟩
  rw [entries_unitsOf]
  rfl

/-- Some text shows a comment with a line end: below it the numbers of the lines are different. -/
theorem answer_ne_of_lineEnd (path : String) (h : ∃ e ∈ comment.toList, isLineEnd e = true) :
    answer path ("" ++ "#" ++ comment ++ "\r0 live") ≠ answer path ("" ++ "#" ++ "" ++ "\r0 live") := by
  intro hsame
  obtain ⟨us, hread, hentries⟩ := exists_units_below path
  have hanswer : answer path ("" ++ "#" ++ "" ++ "\r0 live") = .ok us := Except.mapError_eq_ok_iff.mpr hread
  rw [hanswer] at hsame
  obtain ⟨number, hnumber, hentry⟩ := exists_entry_below h (Except.mapError_eq_ok_iff.mp hsame)
  rw [hentries] at hentry
  have hline : some (number : Int) = some ((2 : Nat) : Int) :=
    congrArg Entry.line (List.mem_singleton.mp hentry)
  have hnumberEq := Int.ofNat.inj (Option.some.inj hline)
  omega

/-- The comments whose text does not matter are those in which the reader finds no line end: in any text such
a comment may be replaced by any other one. A line end in a comment other than the newline, such as a vertical
tab, ends the comment: the rest of it is read as if it stood on a line by itself. -/
theorem comment_ignored_iff (path comment : String) :
    ((∀ before other after, (∀ c ∈ other.toList, isLineEnd c = false) → FollowsLine after →
        answer path (before ++ "#" ++ comment ++ after) = answer path (before ++ "#" ++ other ++ after)) ↔
      ∀ c ∈ comment.toList, isLineEnd c = false) ∧
    ∀ before shown e spilled after, comment = shown ++ String.singleton e ++ spilled →
      (∀ c ∈ shown.toList, isLineEnd c = false) → isLineEnd e = true → e ≠ '\n' → e ≠ '\r' →
      readText path (before ++ "#" ++ comment ++ after) =
        readText path (before ++ "#" ++ (shown ++ "\n" ++ spilled) ++ after) := by
  refine ⟨⟨?_, ?_⟩, ?_⟩
  · intro hignored
    by_contra hends
    have hend : ∃ e ∈ comment.toList, isLineEnd e = true := by simpa using hends
    refine answer_ne_of_lineEnd path hend (hignored "" "" "\r0 live" (by simp) ?_)
    rintro c ⟨⟩
    exact Or.inr rfl
  · intro hcomment before other after hother _
    exact answer_comment hcomment hother
  · rintro before shown e spilled after rfl hshown he hfeed hreturn
    exact readText_spilled hshown he hfeed hreturn

/-- A comment without line feed and carriage return, but with a vertical tab, brings a block to the unit. -/
theorem answer_comment_verticalTab :
    '\n' ∉ "\u000b1 live".toList ∧ '\r' ∉ "\u000b1 live".toList ∧ FollowsLine "\n" ∧
      answer "g.txt" ("FUNC f\n0 live " ++ "#" ++ "\u000b1 live" ++ "\n") = .ok [
        { name := "f", line := some 1,
          entries := [⟨0, ⟨true, []⟩, some 2⟩, ⟨1, ⟨true, []⟩, some 3⟩] }] ∧
      answer "g.txt" ("FUNC f\n0 live " ++ "#" ++ "" ++ "\n") = .ok [
        { name := "f", line := some 1, entries := [⟨0, ⟨true, []⟩, some 2⟩] }] := by
  refine ⟨by decide, by decide, ?_, by decide +kernel, by decide +kernel⟩
  rintro c ⟨⟩
  exact Or.inl rfl

end PrimePaths.Listing
