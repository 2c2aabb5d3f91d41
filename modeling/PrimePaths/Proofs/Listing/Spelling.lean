import PrimePaths.Proofs.Listing.Line
import PrimePaths.Proofs.Number.Reading
import PrimePaths.Text.Lines

namespace PrimePaths.LineContent

open PrimePaths.Text

variable {c : Char} {w : List Char} {ws : List (List Char)} {n : Nat}

/-- The character separates no words and no lines, and starts no comment. -/
structure Plain (c : Char) : Prop where
  not_blank : isBlank c = false
  not_control : isControl c = false
  not_comment : c ≠ '#'

/-- The code points that cannot stand in a word. -/
def separators : List Nat := blanks ++ List.range 32 ++ ['#'.toNat, 127]

theorem isNameChar_separators : ∀ n ∈ separators, isNameChar (Char.ofNat n) = false := by
  decide +kernel

theorem not_mem_separators (h : isNameChar c = true) : c.toNat ∉ separators := by
  intro hmem
  have hnot := isNameChar_separators c.toNat hmem
  rw [Char.ofNat_toNat, h] at hnot
  contradiction

theorem plain_of_isNameChar (h : isNameChar c = true) : Plain c := by
  have hnot := not_mem_separators h
  simp only [separators, List.mem_append, not_or] at hnot
  obtain ⟨⟨hblank, hcontrol⟩, hother⟩ := hnot
  refine ⟨?_, ?_, ?_⟩
  · rwa [isBlank, List.contains_eq_mem, decide_eq_false_iff_not]
  · have hlarge : ¬c.toNat < 32 := by simpa using hcontrol
    have hdel : ¬c.toNat = 127 := by
      intro hc
      exact hother (by simp [hc])
    simp [isControl, hlarge, hdel]
  · rintro rfl
    exact hother List.mem_cons_self

theorem lineEnds_subset_blanks : lineEnds ⊆ blanks := by
  decide

theorem Plain.not_lineEnd (h : Plain c) : isLineEnd c = false := by
  have hblank := h.not_blank
  rw [isBlank, List.contains_eq_mem, decide_eq_false_iff_not] at hblank
  rw [isLineEnd, List.contains_eq_mem, decide_eq_false_iff_not]
  exact fun hend => hblank (lineEnds_subset_blanks hend)

theorem isWord_of_isName (h : isName w = true) : IsWord w := by
  rw [isName, Bool.and_eq_true, List.all_eq_true] at h
  obtain ⟨hne, hchars⟩ := h
  exact ⟨by simpa using hne, fun c hc => (plain_of_isNameChar (hchars c hc)).not_blank⟩

theorem plain_of_mem_name (h : isName w = true) (hc : c ∈ w) : Plain c := by
  rw [isName, Bool.and_eq_true, List.all_eq_true] at h
  exact plain_of_isNameChar (h.2 c hc)

theorem mem_intercalate_space (h : c ∈ [' '].intercalate ws) : c = ' ' ∨ ∃ w ∈ ws, c ∈ w := by
  induction ws with
  | nil => simp at h
  | cons w ws ih =>
    cases ws with
    | nil =>
      rw [List.intercalate_singleton] at h
      exact Or.inr ⟨w, List.mem_cons_self, h⟩
    | cons v ws =>
      rw [List.intercalate_cons_cons, List.mem_append, List.mem_append, List.mem_singleton] at h
      rcases h with (hw | hspace) | hrest
      · exact Or.inr ⟨w, List.mem_cons_self, hw⟩
      · exact Or.inl hspace
      · obtain hspace | ⟨u, hu, hc⟩ := ih hrest
        · exact Or.inl hspace
        · exact Or.inr ⟨u, List.mem_cons_of_mem w hu, hc⟩

/-- A space or a plain character. -/
theorem plain_of_mem_intercalate (h : ∀ w ∈ ws, isName w = true) (hc : c ∈ [' '].intercalate ws) :
    c = ' ' ∨ Plain c := by
  refine (mem_intercalate_space hc).imp id ?_
  rintro ⟨w, hw, hmem⟩
  exact plain_of_mem_name (h w hw) hmem

theorem clean_intercalate (h : ∀ w ∈ ws, isName w = true) : Clean ([' '].intercalate ws) := by
  intro c hc
  rcases plain_of_mem_intercalate h hc with rfl | hplain
  · decide
  · exact hplain.not_control

theorem not_lineEnd_intercalate (h : ∀ w ∈ ws, isName w = true) :
    ∀ c ∈ [' '].intercalate ws, isLineEnd c = false := by
  intro c hc
  rcases plain_of_mem_intercalate h hc with rfl | hplain
  · decide
  · exact hplain.not_lineEnd

theorem body_intercalate (h : ∀ w ∈ ws, isName w = true) :
    body ([' '].intercalate ws) = [' '].intercalate ws := by
  have hall : ([' '].intercalate ws).takeWhile (· != '#') = [' '].intercalate ws := by
    rw [List.takeWhile_eq_self_iff]
    intro c hc
    rcases plain_of_mem_intercalate h hc with rfl | hplain
    · decide
    · exact bne_iff_ne.mpr hplain.not_comment
  rw [body, hall, strip_intercalate fun w hw => isWord_of_isName (h w hw)]

theorem words_body_intercalate (h : ∀ w ∈ ws, isName w = true) :
    words (body ([' '].intercalate ws)) = ws := by
  rw [body_intercalate h, words_intercalate fun w hw => isWord_of_isName (h w hw)]

theorem isNameChar_of_isDigit (h : c.isDigit = true) : isNameChar c = true := by
  have hrange : 48 ≤ c.toNat ∧ c.toNat ≤ 57 := Char.isDigit_iff_toNat.mp h
  have hascii : c.toNat < 128 := by omega
  simp [isNameChar, isWordChar, hascii, Char.isAlphanum, h]

theorem isName_toDigits (n : Nat) : isName (Nat.toDigits 10 n) = true := by
  have hsome : (Nat.toDigits 10 n).isEmpty = false := by
    simp [Nat.toDigits_ne_nil]
  have hdigits : (Nat.toDigits 10 n).all isNameChar = true :=
    List.all_eq_true.mpr fun c hc =>
      isNameChar_of_isDigit (Nat.isDigit_of_mem_toDigits (by decide) (by decide) hc)
  rw [isName, hsome, hdigits]
  rfl

theorem isIndex_toDigits (n : Nat) : isIndex (Nat.toDigits 10 n) = true := by
  have hsome : (Nat.toDigits 10 n).isEmpty = false := by
    simp [Nat.toDigits_ne_nil]
  have hdigits : (Nat.toDigits 10 n).all isDigit = true :=
    List.all_eq_true.mpr fun c hc => isDigit_of_mem_toDigits hc
  rw [isIndex, hsome, hdigits]
  rfl

end PrimePaths.LineContent
