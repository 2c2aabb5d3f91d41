import PrimePaths.Text.Character
import Mathlib.Data.List.DropRight

namespace PrimePaths.Text

variable {cs w rest : List Char} {c : Char} {ws : List (List Char)}

theorem words_of_dropWhile_nil (h : cs.dropWhile isBlank = []) : words cs = [] := by
  rw [words]
  split
  · rfl
  · rename_i hcons
    rw [h] at hcons
    simp at hcons

theorem words_of_dropWhile_cons (h : cs.dropWhile isBlank = c :: rest) :
    words cs = (c :: rest.takeWhile (!isBlank ·)) :: words (rest.dropWhile (!isBlank ·)) := by
  rw [words]
  split
  · rename_i hnil
    rw [h] at hnil
    simp at hnil
  · rename_i hcons
    obtain ⟨rfl, rfl⟩ := List.cons.inj (hcons.symm.trans h)
    rfl

theorem words_nil : words [] = [] :=
  words_of_dropWhile_nil rfl

theorem words_cons_blank (h : isBlank c = true) : words (c :: rest) = words rest := by
  have hdrop : (c :: rest).dropWhile isBlank = rest.dropWhile isBlank := List.dropWhile_cons_of_pos h
  cases hrest : rest.dropWhile isBlank with
  | nil => rw [words_of_dropWhile_nil (hdrop.trans hrest), words_of_dropWhile_nil hrest]
  | cons d ds => rw [words_of_dropWhile_cons (hdrop.trans hrest), words_of_dropWhile_cons hrest]

theorem words_eq_nil_iff : words cs = [] ↔ ∀ c ∈ cs, isBlank c = true := by
  rw [← List.dropWhile_eq_nil_iff]
  constructor
  · intro h
    cases hcs : cs.dropWhile isBlank with
    | nil => rfl
    | cons c rest =>
      rw [words_of_dropWhile_cons hcs] at h
      simp at h
  · exact words_of_dropWhile_nil

theorem words_strip_ne_nil (h : strip cs ≠ []) : words (strip cs) ≠ [] := by
  intro hnone
  have hlast : ¬isBlank ((strip cs).getLast h) = true :=
    List.rdropWhile_last_not isBlank (cs.dropWhile isBlank) h
  exact hlast (words_eq_nil_iff.mp hnone _ (List.getLast_mem h))

theorem strip_eq_self (hfirst : ∀ c ∈ cs.head?, isBlank c = false)
    (hlast : ∀ c ∈ cs.getLast?, isBlank c = false) : strip cs = cs := by
  have hfront : cs.dropWhile isBlank = cs := by
    cases cs with
    | nil => rfl
    | cons c cs => exact List.dropWhile_cons_of_neg (by simp [hfirst c rfl])
  have hback : cs.rdropWhile isBlank = cs := by
    rw [List.rdropWhile_eq_self_iff]
    intro hne
    simp [hlast _ (List.getLast?_eq_some_getLast hne)]
  change (cs.dropWhile isBlank).rdropWhile isBlank = cs
  rw [hfront, hback]

theorem strip_append_of_blank_left (h : ∀ c ∈ cs, isBlank c = true) : strip (cs ++ rest) = strip rest := by
  rw [strip, stripOf, List.dropWhile_append_of_pos h]
  rfl

theorem strip_append_of_blank_right (h : ∀ c ∈ rest, isBlank c = true) : strip (cs ++ rest) = strip cs := by
  have hrest : rest.dropWhile isBlank = [] := List.dropWhile_eq_nil_iff.mpr h
  rw [strip, strip, stripOf, stripOf, List.dropWhile_append]
  split
  · rename_i hcs
    rw [hrest, List.isEmpty_iff.mp hcs]
  · rw [List.reverse_append, List.dropWhile_append_of_pos fun c hc => h c (List.mem_reverse.mp hc)]

theorem exists_dropWhile_append_cons (h : ∃ d ∈ cs ++ [c], isBlank d = false) (rest : List Char) :
    ∃ kept, (cs ++ c :: rest).dropWhile isBlank = kept ++ c :: rest := by
  induction cs with
  | nil =>
    have hc : isBlank c = false := by simpa using h
    exact ⟨[], List.dropWhile_cons_of_neg (by simp [hc])⟩
  | cons d cs ih =>
    cases hd : isBlank d with
    | true =>
      rw [List.cons_append, List.dropWhile_cons_of_pos hd]
      exact ih (by simpa [hd] using h)
    | false => exact ⟨d :: cs, List.dropWhile_cons_of_neg (by simp [hd])⟩

/-- A character stays if it is not white space, or if other characters than white space stand on both sides.
-/
theorem mem_strip (hfront : ∃ d ∈ cs ++ [c], isBlank d = false) (hback : ∃ d ∈ c :: rest, isBlank d = false) :
    c ∈ strip (cs ++ c :: rest) := by
  obtain ⟨kept, hkept⟩ := exists_dropWhile_append_cons hfront rest
  have hreverse : ∃ d ∈ rest.reverse ++ [c], isBlank d = false := by simpa [or_comm] using hback
  obtain ⟨left, hleft⟩ := exists_dropWhile_append_cons hreverse kept.reverse
  rw [strip, stripOf, hkept, List.reverse_append, List.reverse_cons, List.append_assoc,
    List.singleton_append, hleft]
  simp

/-- A word is not empty and holds no white space. -/
def IsWord (w : List Char) : Prop :=
  w ≠ [] ∧ ∀ c ∈ w, isBlank c = false

theorem words_append (hw : IsWord w) (hrest : ∀ c ∈ rest.head?, isBlank c = true) :
    words (w ++ rest) = w :: words rest := by
  obtain ⟨hne, hclean⟩ := hw
  obtain ⟨c, cs, rfl⟩ := List.exists_cons_of_ne_nil hne
  have hfirst : ¬isBlank c = true := by simp [hclean c List.mem_cons_self]
  have hkeep : ∀ d ∈ cs, (!isBlank d) = true := by
    intro d hd
    rw [hclean d (List.mem_cons_of_mem c hd)]
    rfl
  have hstop : rest.takeWhile (!isBlank ·) = [] ∧ rest.dropWhile (!isBlank ·) = rest := by
    cases rest with
    | nil => simp
    | cons d ds => simp [hrest d rfl]
  have hdrop : (c :: cs ++ rest).dropWhile isBlank = c :: (cs ++ rest) :=
    List.dropWhile_cons_of_neg hfirst
  rw [words_of_dropWhile_cons hdrop, List.takeWhile_append_of_pos hkeep,
    List.dropWhile_append_of_pos hkeep, hstop.1, hstop.2, List.append_nil]

theorem words_intercalate (h : ∀ w ∈ ws, IsWord w) : words ([' '].intercalate ws) = ws := by
  induction ws with
  | nil => exact words_nil
  | cons w ws ih =>
    have hw := h w List.mem_cons_self
    have hrest := ih fun v hv => h v (List.mem_cons_of_mem w hv)
    cases ws with
    | nil =>
      have hlast : words (w ++ []) = w :: words [] := words_append hw (by simp)
      rw [List.append_nil, words_nil] at hlast
      rw [List.intercalate_singleton, hlast]
    | cons v ws =>
      rw [List.intercalate_cons_cons, List.append_assoc, words_append hw (by simp; decide),
        List.singleton_append, words_cons_blank (by decide), hrest]

theorem strip_intercalate (h : ∀ w ∈ ws, IsWord w) :
    strip ([' '].intercalate ws) = [' '].intercalate ws := by
  apply strip_eq_self
  · cases ws with
    | nil => simp
    | cons w ws =>
      obtain ⟨hne, hclean⟩ := h w List.mem_cons_self
      obtain ⟨c, cs, rfl⟩ := List.exists_cons_of_ne_nil hne
      cases ws <;> simpa using hclean c List.mem_cons_self
  · induction ws with
    | nil => simp
    | cons w ws ih =>
      cases ws with
      | nil =>
        intro c hc
        rw [List.intercalate_singleton] at hc
        exact (h w List.mem_cons_self).2 c (List.mem_of_getLast? hc)
      | cons v ws =>
        intro c hc
        have hne : [' '].intercalate (v :: ws) ≠ [] := by
          intro hnil
          have hwords := words_intercalate fun u hu => h u (List.mem_cons_of_mem w hu)
          rw [hnil, words_nil] at hwords
          simp at hwords
        rw [List.intercalate_cons_cons, List.getLast?_append_of_ne_nil _ hne] at hc
        exact ih (fun u hu => h u (List.mem_cons_of_mem w hu)) c hc

end PrimePaths.Text
