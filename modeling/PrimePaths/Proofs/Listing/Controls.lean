import PrimePaths.Proofs.Listing.Answer
import PrimePaths.Proofs.Text.Around

namespace PrimePaths.Listing

open PrimePaths.LineContent PrimePaths.Text

variable {path before after : String} {c d : Char} {l r : List Char}

/-- The reader finds a character between two texts: it ends no line, and if it is white space, something else
stands on both sides of it before the line ends or a comment starts. -/
structure Shown (before : String) (c : Char) (after : String) : Prop where
  not_end : isLineEnd c = false
  enclosed : isBlank c = true → (∃ d ∈ lineBefore before.toList, isBlank d = false) ∧
    ∃ d ∈ (lineAfter after.toList).takeWhile (· != '#'), isBlank d = false

/-- What is read in the place of a control character that gets lost. -/
def standIn (c : Char) : Char :=
  if isLineEnd c then '\u2028' else ' '

section Line

/-- The part of a line before its comment, around a character in front of it. -/
theorem takeWhile_around (hl : '#' ∉ l) (hc : c ≠ '#') :
    (l ++ c :: r).takeWhile (· != '#') = l ++ c :: r.takeWhile (· != '#') := by
  have hopen : ∀ d ∈ l, (d != '#') = true := by
    intro d hd
    rw [bne_iff_ne]
    rintro rfl
    exact hl hd
  rw [List.takeWhile_append_of_pos hopen, List.takeWhile_cons_of_pos (by simpa using hc)]

theorem isControl_ne_sign (h : isControl c = true) : c ≠ '#' := by
  rintro rfl
  exact absurd h (by decide)

theorem not_clean_of_control (hl : '#' ∉ l) (hcontrol : isControl c = true)
    (h : isBlank c = true →
      (∃ d ∈ l, isBlank d = false) ∧ ∃ d ∈ r.takeWhile (· != '#'), isBlank d = false) :
    ¬Clean (body (l ++ c :: r)) := by
  have hmem : c ∈ body (l ++ c :: r) := by
    rw [body, takeWhile_around hl (isControl_ne_sign hcontrol)]
    cases hblank : isBlank c with
    | false => exact mem_strip ⟨c, by simp, hblank⟩ ⟨c, by simp, hblank⟩
    | true =>
      obtain ⟨⟨d, hd, hsome⟩, d', hd', hsome'⟩ := h hblank
      exact mem_strip ⟨d, List.mem_append_left _ hd, hsome⟩ ⟨d', List.mem_cons_of_mem _ hd', hsome'⟩
  intro hclean
  simp [hclean c hmem] at hcontrol

/-- White space at an end of a line may be replaced by other white space. -/
theorem alike_blank (hl : '#' ∉ l) (hc : isBlank c = true) (hd : isBlank d = true)
    (h : (∀ b ∈ l, isBlank b = true) ∨ ∀ b ∈ r.takeWhile (· != '#'), isBlank b = true) :
    Alike (l ++ c :: r) (l ++ d :: r) where
  body := by
    have hsign {b : Char} (hb : isBlank b = true) : b ≠ '#' := by
      rintro rfl
      exact absurd hb (by decide)
    rw [body, body, takeWhile_around hl (hsign hc), takeWhile_around hl (hsign hd)]
    rcases h with hfront | hback
    · have hstrip {b : Char} (hb : isBlank b = true) :
          strip (l ++ b :: r.takeWhile (· != '#')) = strip (r.takeWhile (· != '#')) := by
        rw [← List.singleton_append, ← List.append_assoc]
        apply strip_append_of_blank_left
        simpa [or_imp, forall_and, hb] using hfront
      rw [hstrip hc, hstrip hd]
    · have hstrip {b : Char} (hb : isBlank b = true) :
          strip (l ++ b :: r.takeWhile (· != '#')) = strip l := by
        apply strip_append_of_blank_right
        simpa [or_imp, forall_and, hb] using hback
      rw [hstrip hc, hstrip hd]
  blank := by simp [hc, hd]

end Line

section Text

/-- The line of the reader on which a character stands between two texts. -/
def lineAround (before : String) (c : Char) (after : String) : List Char :=
  lineBefore before.toList ++ c :: lineAfter after.toList

theorem toList_around (before : String) (c : Char) (after : String) :
    (before ++ String.singleton c ++ after).toList = before.toList ++ c :: after.toList := by
  simp [String.toList_append]

theorem textLines_around (hc : isLineEnd c = false) : textLines (before ++ String.singleton c ++ after) =
    linesAbove before.toList ++ lineAround before c after :: linesBelow after.toList := by
  have hpassage : ∀ d ∈ [c], isLineEnd d = false := by simpa using hc
  have hlines := lines_around before.toList after.toList (List.cons_ne_nil c []) hpassage
  rw [List.append_assoc, List.append_assoc, List.singleton_append, List.singleton_append] at hlines
  rw [textLines, toList_around, hlines]
  rfl

theorem textLines_swap_end (hc : isLineEnd c = true) (hd : isLineEnd d = true) (hcfeed : c ≠ '\n')
    (hcreturn : c ≠ '\r') (hdfeed : d ≠ '\n') (hdreturn : d ≠ '\r') :
    textLines (before ++ String.singleton c ++ after) = textLines (before ++ String.singleton d ++ after) := by
  rw [textLines, textLines, toList_around, toList_around]
  exact lines_unifyNewlines_swap_end hc hd hcreturn hdreturn (absurd · hcfeed) (absurd · hdfeed)

/-- A line that is not clean is to blame, or one above it is. -/
theorem readText_of_not_clean {text : String} {above below : List (List Char)}
    (hlines : textLines text = above ++ l :: below) (h : ¬Clean (body l)) :
    readText path text =
        .error (.input (.badLine path (above.length + 1) (String.ofList l) .controlCharacter)) ∨
      ∃ before number line after cs f, linesOf text = before ++ (number, line) :: after ∧
        Reads path before cs ∧ Blames path cs number line f ∧ number < above.length + 1 ∧
        readText path text = .error f := by
  have hnumbered : linesOf text =
      numberFrom 1 above ++ (above.length + 1, l) :: numberFrom (above.length + 1 + 1) below := by
    rw [linesOf, hlines, numberFrom_append, numberFrom_cons, Nat.add_comm 1]
  rcases reads_or_blames path (numberFrom 1 above) with
    ⟨cs, hreads⟩ | ⟨before, number, line, after, cs, f, habove, hreads, hblames⟩
  · exact Or.inl (readText_of_blames hnumbered hreads (.faulty (.controlCharacter h)))
  · rw [habove, List.append_assoc, List.cons_append] at hnumbered
    have hmem : (number, line) ∈ numberFrom 1 above := by simp [habove]
    have hless : number < 1 + above.length := lt_of_mem_numberFrom hmem
    exact Or.inr ⟨before, number, line, _, cs, f, hnumbered, hreads, hblames, by omega,
      readText_of_blames hnumbered hreads hblames⟩

theorem answer_of_not_shown (hcomment : '#' ∉ lineBefore before.toList) (hfeed : c ≠ '\n')
    (hreturn : c ≠ '\r') (h : ¬Shown before c after) :
    answer path (before ++ String.singleton c ++ after) =
      answer path (before ++ String.singleton (standIn c) ++ after) := by
  cases hend : isLineEnd c with
  | true =>
    rw [standIn, if_pos hend]
    apply answer_congr
    rw [textLines_swap_end (d := '\u2028') hend (by decide) hfeed hreturn (by decide) (by decide)]
    exact List.forall₂_same.mpr fun _ _ => .rfl
  | false =>
    have hblank : isBlank c = true := by
      by_contra hsome
      exact h ⟨hend, fun hblank => absurd hblank hsome⟩
    have hlost : (∀ b ∈ lineBefore before.toList, isBlank b = true) ∨
        ∀ b ∈ (lineAfter after.toList).takeWhile (· != '#'), isBlank b = true := by
      by_contra hboth
      refine h ⟨hend, fun _ => ?_⟩
      simpa using hboth
    rw [standIn, if_neg (by simp [hend])]
    exact answer_congr_line (alike_blank hcomment hblank (by decide) hlost) (textLines_around hend)
      (textLines_around (by decide))

end Text

/-- A control character outside of comments that the reader finds on its line has the text rejected for this
line, or for one above it. Any other one leaves the answer as it is with a space in its place, or with a line
separator where it ends a line. -/
theorem control_rejected_or_lost (path before after : String) {c : Char} (hcontrol : isControl c = true)
    (hfeed : c ≠ '\n') (hreturn : c ≠ '\r') (hcomment : '#' ∉ lineBefore before.toList) :
    let text := before ++ String.singleton c ++ after
    let number := (linesAbove before.toList).length + 1
    (Shown before c after →
      readText path text = .error (.input
          (.badLine path number (String.ofList (lineAround before c after)) .controlCharacter)) ∨
        ∃ above earlier line below cs f, linesOf text = above ++ (earlier, line) :: below ∧
          Reads path above cs ∧ Blames path cs earlier line f ∧ earlier < number ∧
          readText path text = .error f) ∧
    (¬Shown before c after →
      answer path text = answer path (before ++ String.singleton (standIn c) ++ after)) := by
  intro text number
  refine ⟨fun h => ?_, answer_of_not_shown hcomment hfeed hreturn⟩
  exact readText_of_not_clean (textLines_around h.not_end) (not_clean_of_control hcomment hcontrol h.enclosed)

/-- A unit separator has a text rejected between two words, but not at the end of a line. -/
theorem control_rejected_or_lost_unitSeparator :
    isControl '\u001f' = true ∧ '#' ∉ lineBefore "0 live".toList ∧
      Shown "0 live" '\u001f' "1" ∧
        (∃ f, readText "g.txt" ("0 live" ++ String.singleton '\u001f' ++ "1") = .error f) ∧
      ¬Shown "0 live" '\u001f' "\n" ∧
        answer "g.txt" ("0 live" ++ String.singleton '\u001f' ++ "\n") =
          answer "g.txt" ("0 live" ++ String.singleton ' ' ++ "\n") := by
  have hcontrol : isControl '\u001f' = true := by decide
  have hcomment : '#' ∉ lineBefore "0 live".toList := by decide
  have hshown : Shown "0 live" '\u001f' "1" :=
    ⟨by decide, fun _ => ⟨⟨'e', by decide, by decide⟩, '1', by decide, by decide⟩⟩
  have hlost : ¬Shown "0 live" '\u001f' "\n" := by
    intro h
    obtain ⟨-, d, hd, -⟩ := h.enclosed (by decide)
    cases hd
  refine ⟨hcontrol, hcomment, hshown, ?_, hlost, ?_⟩
  · obtain ⟨hrejected, -⟩ :=
      control_rejected_or_lost "g.txt" "0 live" "1" hcontrol (by decide) (by decide) hcomment
    rcases hrejected hshown with hread | ⟨-, -, -, -, -, f, -, -, -, -, hread⟩
    · exact ⟨_, hread⟩
    · exact ⟨f, hread⟩
  · obtain ⟨-, hsame⟩ :=
      control_rejected_or_lost "g.txt" "0 live" "\n" hcontrol (by decide) (by decide) hcomment
    exact hsame hlost

/-- A unit separator at the end of a block does not keep the unit from being read. -/
theorem answer_unitSeparator :
    isControl '\u001f' = true ∧ '#' ∉ "FUNC f\n0 live".toList ∧
      answer "g.txt" ("FUNC f\n0 live" ++ String.singleton '\u001f' ++ "\n") = .ok [
        { name := "f", line := some 1, entries := [⟨0, ⟨true, []⟩, some 2⟩] }] :=
  ⟨by decide, by decide, by decide +kernel⟩

end PrimePaths.Listing
