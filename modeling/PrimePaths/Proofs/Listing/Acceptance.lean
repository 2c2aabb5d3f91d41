import PrimePaths.Proofs.Graph.FlowUnit
import PrimePaths.Proofs.Listing.Reads
import Mathlib.Data.List.Forall2

namespace PrimePaths.Listing

variable {α β : Type} {k m : Nat} {x : α} {xs ys : List α}

/-- The members of a list, numbered from a first number on. -/
def numberFrom (k : Nat) (xs : List α) : List (Nat × α) :=
  (xs.zipIdx k).map fun (x, number) => (number, x)

theorem numberFrom_cons : numberFrom k (x :: xs) = (k, x) :: numberFrom (k + 1) xs :=
  rfl

theorem numberFrom_append : numberFrom k (xs ++ ys) = numberFrom k xs ++ numberFrom (k + xs.length) ys := by
  rw [numberFrom, List.zipIdx_append, List.map_append]
  rfl

theorem map_snd_numberFrom (k : Nat) (xs : List α) : (numberFrom k xs).map Prod.snd = xs := by
  have hsnd : (Prod.snd ∘ fun x : α × Nat => (x.2, x.1)) = Prod.fst := rfl
  rw [numberFrom, List.map_map, hsnd, List.zipIdx_map_fst]

theorem lt_of_mem_numberFrom {number : Nat} (h : (number, x) ∈ numberFrom k xs) : number < k + xs.length := by
  obtain ⟨y, hy, hyx⟩ := List.mem_map.mp h
  cases hyx
  rw [Nat.add_comm]
  exact List.snd_lt_of_mem_zipIdx hy

theorem forall₂_numberFrom {r : α → β → Prop} {zs : List β} (h : List.Forall₂ r xs zs) :
    List.Forall₂ (fun x z => x.1 = z.1 ∧ r x.2 z.2) (numberFrom k xs) (numberFrom k zs) := by
  induction h generalizing k with
  | nil => exact .nil
  | cons hfirst _ ih => exact .cons ⟨rfl, hfirst⟩ ih

/-- The same things with numbers that are higher by `k`. -/
def shifted (k : Nat) (xs : List (Nat × α)) : List (Nat × α) :=
  xs.map (Prod.map (· + k) id)

theorem numberFrom_add (k m : Nat) (xs : List α) : numberFrom (m + k) xs = shifted k (numberFrom m xs) := by
  induction xs generalizing m with
  | nil => rfl
  | cons x xs ih =>
    have hrest := ih (m + 1)
    rw [Nat.add_right_comm] at hrest
    rw [numberFrom_cons, numberFrom_cons, hrest]
    rfl

theorem forall₂_shifted {r : Nat × α → Nat × β → Prop} {k : Nat} {xs : List (Nat × α)}
    {ys : List (Nat × β)} (hr : ∀ x y, r x y → r (Prod.map (· + k) id x) (Prod.map (· + k) id y))
    (h : List.Forall₂ r xs ys) : List.Forall₂ r (shifted k xs) (shifted k ys) := by
  rw [shifted, shifted, List.forall₂_map_left_iff, List.forall₂_map_right_iff]
  exact h.imp hr

end PrimePaths.Listing

namespace PrimePaths.Listing

open PrimePaths.LineContent

variable {path : String} {number : Nat} {line : List Char} {f : LoadFailure}
  {cs : List (Nat × LineContent)} {lines : List (Nat × List Char)}

/-- There is an entry if and only if some line is a block. -/
theorem any_entries_iff (path : String) :
    ((unitsOf path cs).all fun u => u.entries.isEmpty) = false ↔ ∃ number b, (number, .block b) ∈ cs := by
  have hentries : (unitsOf path cs).flatMap FlowUnit.entries = [] ↔
      ¬∃ number b, (number, LineContent.block b) ∈ cs := by
    rw [entries_unitsOf, List.filterMap_eq_nil_iff]
    constructor
    · rintro h ⟨number, b, hmem⟩
      exact Option.some_ne_none _ (h _ hmem)
    · rintro h ⟨number, nothing | name | b⟩ hmem
      · rfl
      · rfl
      · exact absurd ⟨number, b, hmem⟩ h
  rw [← not_iff_not, ← hentries]
  simp

def textLines (text : String) : List (List Char) :=
  Text.lines (Text.unifyNewlines text.toList)

/-- The lines of a text with their numbers, from one on. -/
def linesOf (text : String) : List (Nat × List Char) :=
  numberFrom 1 (textLines text)

def Blank (lines : List (Nat × List Char)) : Prop :=
  ∀ line ∈ lines, ∀ c ∈ line.2, Text.isBlank c = true

theorem body_of_blank (h : ∀ c ∈ line, Text.isBlank c = true) : body line = [] := by
  have hfront : (line.takeWhile (· != '#')).dropWhile Text.isBlank = [] := by
    rw [List.dropWhile_eq_nil_iff]
    intro c hc
    exact h c ((List.takeWhile_sublist _).mem hc)
  simp [body, Text.strip, Text.stripOf, hfront]

theorem foldlM_addLine_of_blank {units : List FlowUnit} (h : Blank lines) :
    lines.foldlM (addLine path) units = .ok units := by
  induction lines with
  | nil => rfl
  | cons line lines ih =>
    have hread := read_of_body_nil (body_of_blank (h line List.mem_cons_self))
    have hline : addLine path units line = .ok units := by simp only [addLine, hread]
    rw [List.foldlM_cons, hline]
    exact ih fun l hl => h l (List.mem_cons_of_mem line hl)

theorem all_isBlank_iff {lines : List (List Char)} :
    (lines.all fun line => line.all Text.isBlank) = true ↔ Blank (numberFrom 1 lines) := by
  conv_lhs => rw [← map_snd_numberFrom 1 lines]
  simp [Blank]

section Outcomes

variable {text : String}

theorem readText_of_blank (h : Blank (linesOf text)) :
    readText path text = .error (.input (.blank path)) := by
  rw [linesOf, textLines, ← all_isBlank_iff] at h
  rw [readText, readLines, if_pos h]

theorem readText_of_not_blank (h : ¬Blank (linesOf text)) :
    readText path text = ((linesOf text).foldlM (addLine path) [] >>= fun units =>
      if units.all fun u => u.entries.isEmpty then .error (.input (.noBlocks path)) else .ok units) := by
  rw [linesOf, textLines, ← all_isBlank_iff] at h
  rw [readText, readLines, if_neg h]
  rfl

theorem readText_of_blames {before after : List (Nat × List Char)}
    (hlines : linesOf text = before ++ (number, line) :: after) (h : Reads path before cs)
    (hblames : Blames path cs number line f) : readText path text = .error f := by
  have hfold : (linesOf text).foldlM (addLine path) [] = .error f := by
    rw [hlines]
    exact foldlM_addLine_of_blames h hblames
  have hblank : ¬Blank (linesOf text) := by
    intro hblank
    rw [foldlM_addLine_of_blank hblank] at hfold
    simp at hfold
  rw [readText_of_not_blank hblank, hfold]
  rfl

/-- Blank lines are no blocks. -/
theorem not_blank_of_reads (h : Reads path lines cs) (hblock : ∃ number b, (number, .block b) ∈ cs) :
    ¬Blank lines := by
  intro hblank
  have hunits : unitsOf path cs = [] := by
    have hfold := (foldlM_addLine_of_reads h).symm.trans (foldlM_addLine_of_blank hblank)
    exact Except.ok.inj hfold
  rw [← any_entries_iff path, hunits] at hblock
  simp at hblock

theorem readText_of_reads (h : Reads path (linesOf text) cs)
    (hblock : ∃ number b, (number, .block b) ∈ cs) : readText path text = .ok (unitsOf path cs) := by
  rw [readText_of_not_blank (not_blank_of_reads h hblock), foldlM_addLine_of_reads h]
  rw [← any_entries_iff path] at hblock
  change (if _ then _ else _) = _
  rw [hblock]
  rfl

theorem readText_of_no_block (hblank : ¬Blank (linesOf text)) (h : Reads path (linesOf text) cs)
    (hblock : ¬∃ number b, (number, .block b) ∈ cs) :
    readText path text = .error (.input (.noBlocks path)) := by
  rw [readText_of_not_blank hblank, foldlM_addLine_of_reads h]
  rw [← any_entries_iff path, Bool.not_eq_false] at hblock
  change (if _ then _ else _) = _
  rw [hblock]
  rfl

/-- How the reading of a text ends. -/
inductive Outcome (path text : String) : Except LoadFailure (List FlowUnit) → Prop
  | blank (hblank : Blank (linesOf text)) : Outcome path text (.error (.input (.blank path)))
  | noBlocks {cs : List (Nat × LineContent)} (hblank : ¬Blank (linesOf text))
    (hreads : Reads path (linesOf text) cs) (hblock : ¬∃ number b, (number, .block b) ∈ cs) :
    Outcome path text (.error (.input (.noBlocks path)))
  | badLine {before after : List (Nat × List Char)} {cs : List (Nat × LineContent)} {number : Nat}
    {line : List Char} {f : LoadFailure} (hlines : linesOf text = before ++ (number, line) :: after)
    (hreads : Reads path before cs) (hblames : Blames path cs number line f) :
    Outcome path text (.error f)
  | units {cs : List (Nat × LineContent)} (hreads : Reads path (linesOf text) cs)
    (hblock : ∃ number b, (number, .block b) ∈ cs) : Outcome path text (.ok (unitsOf path cs))

theorem Outcome.eq {r : Except LoadFailure (List FlowUnit)} (h : Outcome path text r) :
    readText path text = r := by
  cases h with
  | blank hblank => exact readText_of_blank hblank
  | noBlocks hblank hreads hblock => exact readText_of_no_block hblank hreads hblock
  | badLine hlines hreads hblames => exact readText_of_blames hlines hreads hblames
  | units hreads hblock => exact readText_of_reads hreads hblock

theorem outcome_readText (path text : String) : Outcome path text (readText path text) := by
  suffices h : ∃ r, Outcome path text r by
    obtain ⟨r, hr⟩ := h
    rwa [hr.eq]
  rcases reads_or_blames path (linesOf text) with
    ⟨cs, hreads⟩ | ⟨before, number, line, after, cs, f, hlines, hreads, hblames⟩
  swap
  · exact ⟨_, .badLine hlines hreads hblames⟩
  by_cases hblock : ∃ number b, (number, LineContent.block b) ∈ cs
  · exact ⟨_, .units hreads hblock⟩
  by_cases hblank : Blank (linesOf text)
  · exact ⟨_, .blank hblank⟩
  · exact ⟨_, .noBlocks hblank hreads hblock⟩

theorem exists_reads {units : List FlowUnit} (h : readText path text = .ok units) :
    ∃ cs, Reads path (linesOf text) cs ∧ (∃ number b, (number, .block b) ∈ cs) ∧
      units = unitsOf path cs := by
  have houtcome := outcome_readText path text
  rw [h] at houtcome
  cases houtcome with
  | units hreads hblock => exact ⟨_, hreads, hblock, rfl⟩

/-- In a listing each line that is a block has an entry with its number. -/
theorem entry_mem_of_block {units : List FlowUnit} {b : BlockLine} (h : readText path text = .ok units)
    (hmem : (number, line) ∈ linesOf text) (hblock : read line = .ok (.block b)) :
    entry number b ∈ units.flatMap FlowUnit.entries := by
  obtain ⟨cs, hreads, -, rfl⟩ := exists_reads h
  obtain ⟨c, hc, hsays⟩ := hreads.exists_says hmem
  obtain rfl : c = .block b := Except.ok.inj ((read_of_spells hsays.spells).symm.trans hblock)
  rw [entries_unitsOf]
  exact List.mem_filterMap.mpr ⟨_, hc, rfl⟩

/-- The numbers of a listing can be written again. -/
theorem writable_of_readText {units : List FlowUnit} (h : readText path text = .ok units) :
    ∀ u ∈ units, u.Writable := by
  obtain ⟨cs, hreads, -, rfl⟩ := exists_reads h
  have hentries : ∀ u ∈ unitsOf path cs, ∀ e ∈ u.entries, (Number.whole e.index).Writable ∧
      ∀ v ∈ e.block.succs, (Number.whole v).Writable := by
    intro u hu e he
    have hmem : e ∈ (unitsOf path cs).flatMap FlowUnit.entries := List.mem_flatMap.mpr ⟨u, hu, he⟩
    rw [entries_unitsOf] at hmem
    obtain ⟨⟨number, nothing | name | b⟩, hb, hentry⟩ := List.mem_filterMap.mp hmem
    · cases hentry
    · cases hentry
    · obtain rfl := Option.some.inj hentry
      have hshort := hreads.short hb
      refine ⟨writable_value (hshort _ List.mem_cons_self), fun v hv => ?_⟩
      obtain ⟨w, hw, rfl⟩ := List.mem_map.mp hv
      exact writable_value (hshort w (List.mem_cons_of_mem _ hw))
  intro u hu
  exact ⟨fun e he => (hentries u hu e he).1, fun e he => (hentries u hu e he).2⟩

theorem Blames.code_ne_blank {e : InputError} (h : Blames path cs number line (.input e)) :
    e.code ≠ "INPUT_EMPTY" := by
  cases h <;> simp [InputError.code]

theorem blank_iff (path text : String) :
    (∃ e, readText path text = .error (.input e) ∧ e.code = "INPUT_EMPTY") ↔ Blank (linesOf text) := by
  constructor
  · rintro ⟨e, hread, hcode⟩
    have houtcome := outcome_readText path text
    rw [hread] at houtcome
    cases houtcome with
    | blank hblank => exact hblank
    | noBlocks hblank hreads hblock => exact absurd hcode (by simp [InputError.code])
    | badLine hlines hreads hblames => exact absurd hcode hblames.code_ne_blank
  · intro hblank
    exact ⟨_, readText_of_blank hblank, rfl⟩

/-- A text that is not blank is a listing if and only if each line is good after those before it and one of
them is a block; its units are those of the lines, of different names, with an entry for each block. Any
other text is refused for its first line that is not good, or for having no block. -/
theorem readText_accepts_or_blames (path text : String) :
    ((∃ e, readText path text = .error (.input e) ∧ e.code = "INPUT_EMPTY") ↔ Blank (linesOf text)) ∧
      (∀ units, readText path text = .ok units ↔
        ∃ cs, Reads path (linesOf text) cs ∧ (∃ number b, (number, .block b) ∈ cs) ∧
          units = unitsOf path cs) ∧
      (∀ cs, Reads path (linesOf text) cs →
        ((unitsOf path cs).map FlowUnit.name).Nodup ∧
          (unitsOf path cs).flatMap FlowUnit.entries = cs.filterMap entry? ∧
          (unheaded path (leading cs) ≠ [] ↔
            ∃ number b, cs.find? (·.2 ≠ .nothing) = some (number, .block b))) ∧
      ∀ f, readText path text = .error f ↔
        Blank (linesOf text) ∧ f = .input (.blank path) ∨
          ¬Blank (linesOf text) ∧ f = .input (.noBlocks path) ∧
            (∃ cs, Reads path (linesOf text) cs ∧ ¬∃ number b, (number, .block b) ∈ cs) ∨
          ∃ before number line after cs, linesOf text = before ++ (number, line) :: after ∧
            Reads path before cs ∧ Blames path cs number line f := by
  refine ⟨blank_iff path text, fun units => ⟨?_, ?_⟩, fun cs hreads => ?_, fun f => ⟨?_, ?_⟩⟩
  · exact exists_reads
  · rintro ⟨cs, hreads, hblock, rfl⟩
    exact readText_of_reads hreads hblock
  · exact ⟨(reads_iff.mp hreads).2, entries_unitsOf, unheaded_ne_nil_iff⟩
  · intro hread
    have houtcome := outcome_readText path text
    rw [hread] at houtcome
    cases houtcome with
    | blank hblank => exact Or.inl ⟨hblank, rfl⟩
    | noBlocks hblank hreads hblock => exact Or.inr (Or.inl ⟨hblank, rfl, _, hreads, hblock⟩)
    | badLine hlines hreads hblames => exact Or.inr (Or.inr ⟨_, _, _, _, _, hlines, hreads, hblames⟩)
  · rintro (⟨hblank, rfl⟩ | ⟨hblank, rfl, cs, hreads, hblock⟩ |
      ⟨before, number, line, after, cs, hlines, hreads, hblames⟩)
    · exact readText_of_blank hblank
    · exact readText_of_no_block hblank hreads hblock
    · exact readText_of_blames hlines hreads hblames

end Outcomes

end PrimePaths.Listing
