import PrimePaths.Proofs.Listing.Line
import PrimePaths.Proofs.Listing.Units
import PrimePaths.Proofs.Number.Reading
import Mathlib.Data.List.Forall2
import Mathlib.Data.List.Nodup

namespace PrimePaths.Listing

open PrimePaths.LineContent

variable {path : String} {number : Nat} {line : List Char} {b : BlockLine} {f : LoadFailure}
  {c : LineContent} {cs : List (Nat × LineContent)} {lines : List (Nat × List Char)}

/-- What a line says by itself; the numbers of a block are not too long. -/
structure Says (line : List Char) (c : LineContent) : Prop where
  spells : Spells (body line) c
  short : ∀ b, c = .block b → ∀ w ∈ b.index :: b.succs, w.length ≤ Crash.maxDigits

/-- What a line says is good after the lines before it if a header has a name that no unit has so far. -/
structure Good (path : String) (before : List (Nat × LineContent)) (line : List Char)
    (c : LineContent) : Prop extends Says line c where
  fresh : ∀ name, c = .header name → name ∉ (unitsOf path before).map FlowUnit.name

/-- Why a line is not good after the lines before it, as the reading of the file reports it. -/
inductive Blames (path : String) (before : List (Nat × LineContent)) (number : Nat)
    (line : List Char) : LoadFailure → Prop
  | faulty {p : LineProblem} (hfaulty : Faulty (body line) p) :
    Blames path before number line (.input (.badLine path number (String.ofList line) p))
  | repeated {name : String} (hspells : Spells (body line) (.header name))
    (hused : name ∈ (unitsOf path before).map FlowUnit.name) :
    Blames path before number line
      (.input (.badLine path number (String.ofList line) (.repeatedName name)))
  | long {b : BlockLine} {shorter longer : List (List Char)} {w : List Char}
    (hspells : Spells (body line) (.block b)) (hwords : b.index :: b.succs = shorter ++ w :: longer)
    (hshort : ∀ v ∈ shorter, v.length ≤ Crash.maxDigits) (hlong : Crash.maxDigits < w.length) :
    Blames path before number line (.crash (.tooManyDigits w.length))

/-- The lines say these things, each of them good after those before it. -/
inductive Reads (path : String) : List (Nat × List Char) → List (Nat × LineContent) → Prop
  | nil : Reads path [] []
  | snoc {lines : List (Nat × List Char)} {cs : List (Nat × LineContent)} {number : Nat}
    {line : List Char} {c : LineContent} (hreads : Reads path lines cs) (hgood : Good path cs line c) :
    Reads path (lines ++ [(number, line)]) (cs ++ [(number, c)])

section Numbers

variable {w : List Char} {ws shorter longer : List (List Char)}

theorem indexValue_of_short (h : w.length ≤ Crash.maxDigits) : indexValue w = .ok (value w) :=
  if_neg (Nat.not_lt.mpr h)

theorem writable_value (h : w.length ≤ Crash.maxDigits) : (Number.whole (value w)).Writable := by
  rw [value, Number.writable_whole_iff]
  cases hdigits : Text.ofDigits? w with
  | none => exact Nat.pow_pos (by decide)
  | some n =>
    have hlt := Nat.lt_of_lt_of_le (Text.ofDigits?_lt hdigits) (Nat.pow_le_pow_right (by decide) h)
    simpa using hlt

theorem indexValue_of_long (h : Crash.maxDigits < w.length) :
    indexValue w = .error (.crash (.tooManyDigits w.length)) :=
  if_pos h

theorem mapM_indexValue_of_short (h : ∀ w ∈ ws, w.length ≤ Crash.maxDigits) :
    ws.mapM indexValue = .ok (ws.map value) := by
  induction ws with
  | nil => rfl
  | cons w ws ih =>
    have hrest := ih fun v hv => h v (List.mem_cons_of_mem w hv)
    rw [List.mapM_cons, indexValue_of_short (h w List.mem_cons_self), hrest]
    rfl

theorem mapM_indexValue_of_long (hshort : ∀ v ∈ shorter, v.length ≤ Crash.maxDigits)
    (hlong : Crash.maxDigits < w.length) :
    (shorter ++ w :: longer).mapM indexValue = .error (.crash (.tooManyDigits w.length)) := by
  rw [List.mapM_append, mapM_indexValue_of_short hshort, List.mapM_cons, indexValue_of_long hlong]
  rfl

theorem entryOf_of_short (h : ∀ w ∈ b.index :: b.succs, w.length ≤ Crash.maxDigits) :
    entryOf number b = .ok (entry number b) := by
  have hindex := indexValue_of_short (h b.index List.mem_cons_self)
  have hsuccs := mapM_indexValue_of_short fun w hw => h w (List.mem_cons_of_mem b.index hw)
  rw [entryOf, hindex, hsuccs]
  rfl

theorem entryOf_of_long (hwords : b.index :: b.succs = shorter ++ w :: longer)
    (hshort : ∀ v ∈ shorter, v.length ≤ Crash.maxDigits) (hlong : Crash.maxDigits < w.length) :
    entryOf number b = .error (.crash (.tooManyDigits w.length)) := by
  cases shorter with
  | nil =>
    obtain ⟨hindex, -⟩ := List.cons.inj hwords
    rw [entryOf, hindex, indexValue_of_long hlong]
    rfl
  | cons v shorter =>
    obtain ⟨rfl, hsuccs⟩ := List.cons.inj hwords
    have hrest : (shorter ++ w :: longer).mapM indexValue = .error (.crash (.tooManyDigits w.length)) :=
      mapM_indexValue_of_long (fun u hu => hshort u (List.mem_cons_of_mem _ hu)) hlong
    rw [← List.append_eq, ← hsuccs] at hrest
    rw [entryOf, indexValue_of_short (hshort _ List.mem_cons_self), hrest]
    rfl

end Numbers

theorem any_name_eq_true_iff {units : List FlowUnit} {name : String} :
    units.any (·.name == name) = true ↔ name ∈ units.map FlowUnit.name := by
  simp

theorem addLine_of_good (h : Good path cs line c) :
    addLine path (unitsOf path cs) (number, line) = .ok (unitsOf path (cs ++ [(number, c)])) := by
  have hread := read_of_spells h.spells
  cases c with
  | nothing => simp only [addLine, hread, unitsOf_append_nothing]
  | header name =>
    have hfresh := h.fresh name rfl
    rw [← any_name_eq_true_iff, Bool.not_eq_true] at hfresh
    simp [addLine, hread, hfresh, unitsOf_append_header]
  | block b =>
    simp only [addLine, hread, entryOf_of_short (h.short b rfl), unitsOf_append_block]
    rfl

theorem addLine_of_blames (h : Blames path cs number line f) :
    addLine path (unitsOf path cs) (number, line) = .error f := by
  cases h with
  | faulty hfaulty => simp only [addLine, read_of_faulty hfaulty]
  | repeated hspells hused =>
    simp only [addLine, read_of_spells hspells, if_pos (any_name_eq_true_iff.mpr hused)]
  | long hspells hwords hshort hlong =>
    simp only [addLine, read_of_spells hspells, entryOf_of_long hwords hshort hlong]
    rfl

theorem good_or_blames (path : String) (cs : List (Nat × LineContent)) (number : Nat)
    (line : List Char) : (∃ c, Good path cs line c) ∨ ∃ f, Blames path cs number line f := by
  rcases spells_or_faulty line with ⟨c, hspells⟩ | ⟨p, hfaulty⟩
  swap
  · exact Or.inr ⟨_, .faulty hfaulty⟩
  cases c with
  | nothing => exact Or.inl ⟨_, ⟨hspells, by simp⟩, by simp⟩
  | header name =>
    by_cases hused : name ∈ (unitsOf path cs).map FlowUnit.name
    · exact Or.inr ⟨_, .repeated hspells hused⟩
    · refine Or.inl ⟨_, ⟨hspells, by simp⟩, ?_⟩
      rintro _ ⟨⟩
      exact hused
  | block b =>
    cases hfind : (b.index :: b.succs).find? fun w => Crash.maxDigits < w.length with
    | some w =>
      obtain ⟨hlong, shorter, longer, hwords, hshort⟩ := List.find?_eq_some_iff_append.mp hfind
      refine Or.inr ⟨_, .long hspells hwords ?_ (by simpa using hlong)⟩
      intro v hv
      simpa using hshort v hv
    | none =>
      refine Or.inl ⟨_, ⟨hspells, ?_⟩, by simp⟩
      rintro _ ⟨⟩ w hw
      simpa using List.find?_eq_none.mp hfind w hw

theorem foldlM_addLine_of_reads (h : Reads path lines cs) :
    lines.foldlM (addLine path) [] = .ok (unitsOf path cs) := by
  induction h with
  | nil => rfl
  | snoc _ hgood ih =>
    rw [List.foldlM_append, ih]
    change (addLine path _ _ >>= pure) = _
    rw [bind_pure, addLine_of_good hgood]

theorem Reads.exists_says (h : Reads path lines cs) (hmem : (number, line) ∈ lines) :
    ∃ c, (number, c) ∈ cs ∧ Says line c := by
  induction h with
  | nil => cases hmem
  | snoc _ hgood ih =>
    rcases List.mem_append.mp hmem with hmem | hmem
    · obtain ⟨c, hc, hsays⟩ := ih hmem
      exact ⟨c, List.mem_append_left _ hc, hsays⟩
    · cases List.mem_singleton.mp hmem
      exact ⟨_, List.mem_append_right _ (List.mem_singleton_self _), hgood.toSays⟩

/-- The numbers of the blocks that are read are short. -/
theorem Reads.short (h : Reads path lines cs) (hmem : (number, .block b) ∈ cs) :
    ∀ w ∈ b.index :: b.succs, w.length ≤ Crash.maxDigits := by
  induction h with
  | nil => cases hmem
  | snoc _ hgood ih =>
    rcases List.mem_append.mp hmem with hmem | hmem
    · exact ih hmem
    · cases List.mem_singleton.mp hmem
      exact hgood.short b rfl

/-- The first bad line ends the reading, whatever follows it. -/
theorem foldlM_addLine_of_blames {after : List (Nat × List Char)} (h : Reads path lines cs)
    (hblames : Blames path cs number line f) :
    (lines ++ (number, line) :: after).foldlM (addLine path) [] = .error f := by
  rw [List.foldlM_append, foldlM_addLine_of_reads h]
  change (addLine path _ _ >>= _) = _
  rw [addLine_of_blames hblames]
  rfl

/-- All lines are good, or there is a first line that is not. -/
theorem reads_or_blames (path : String) (lines : List (Nat × List Char)) :
    (∃ cs, Reads path lines cs) ∨
      ∃ before number line after cs f, lines = before ++ (number, line) :: after ∧
        Reads path before cs ∧ Blames path cs number line f := by
  -- From the last line backwards: the first line to blame stays the first one whatever follows it.
  induction lines using List.reverseRecOn with
  | nil => exact Or.inl ⟨[], .nil⟩
  | append_singleton lines last ih =>
    rcases ih with ⟨cs, hreads⟩ | ⟨before, number, line, after, cs, f, rfl, hreads, hblames⟩
    · obtain ⟨number, line⟩ := last
      rcases good_or_blames path cs number line with ⟨c, hgood⟩ | ⟨f, hblames⟩
      · exact Or.inl ⟨_, hreads.snoc hgood⟩
      · exact Or.inr ⟨lines, number, line, [], cs, f, rfl, hreads, hblames⟩
    · exact Or.inr ⟨before, number, line, after ++ [last], cs, f, by simp, hreads, hblames⟩

theorem names_addEntry {units : List FlowUnit} {e : Entry} (h : units ≠ []) :
    (addEntry path number units e).map FlowUnit.name = units.map FlowUnit.name := by
  obtain ⟨us, u, rfl⟩ := units.eq_nil_or_concat.resolve_left h
  rw [List.concat_eq_append, addEntry_append (List.cons_ne_nil u []), List.map_append, List.map_append]
  rfl

theorem nodup_names_addEntry {units : List FlowUnit} {e : Entry} :
    ((addEntry path number units e).map FlowUnit.name).Nodup ↔ (units.map FlowUnit.name).Nodup := by
  by_cases h : units = []
  · subst h
    exact iff_of_true (List.nodup_singleton _) List.nodup_nil
  · rw [names_addEntry h]

/-- A further line leaves the names different if and only if it is no header of a name in use. -/
theorem nodup_names_append :
    ((unitsOf path (cs ++ [(number, c)])).map FlowUnit.name).Nodup ↔
      ((unitsOf path cs).map FlowUnit.name).Nodup ∧
        ∀ name, c = .header name → name ∉ (unitsOf path cs).map FlowUnit.name := by
  cases c with
  | nothing => simp [unitsOf_append_nothing]
  | header name =>
    rw [unitsOf_append_header, List.map_append, List.map_singleton, List.nodup_append_comm]
    simp [and_comm]
  | block b => simp [unitsOf_append_block, nodup_names_addEntry]

theorem forall₂_append_singleton {α β : Type} {r : α → β → Prop} {xs : List α} {ys : List β} {x : α}
    {y : β} : List.Forall₂ r (xs ++ [x]) (ys ++ [y]) ↔ List.Forall₂ r xs ys ∧ r x y := by
  rw [← List.forall₂_reverse_iff, List.reverse_concat, List.reverse_concat, List.forall₂_cons,
    List.forall₂_reverse_iff, and_comm]

/-- Lines are good one after the other if each of them says something by itself and the units have
different names. -/
theorem reads_iff :
    Reads path lines cs ↔
      List.Forall₂ (fun l c => l.1 = c.1 ∧ Says l.2 c.2) lines cs ∧
        ((unitsOf path cs).map FlowUnit.name).Nodup := by
  constructor
  · intro h
    induction h with
    | nil => exact ⟨.nil, List.nodup_nil⟩
    | snoc _ hgood ih =>
      obtain ⟨hlines, hnames⟩ := ih
      exact ⟨forall₂_append_singleton.mpr ⟨hlines, rfl, hgood.toSays⟩,
        nodup_names_append.mpr ⟨hnames, hgood.fresh⟩⟩
  · rintro ⟨hlines, hnames⟩
    -- A line is good or not by the lines before it, so the last one is taken off.
    induction lines using List.reverseRecOn generalizing cs with
    | nil =>
      cases hlines
      exact .nil
    | append_singleton lines line ih =>
      rcases cs.eq_nil_or_concat with rfl | ⟨cs, ⟨number, c⟩, rfl⟩
      · simpa using hlines.length_eq
      rw [List.concat_eq_append] at hlines hnames ⊢
      obtain ⟨hbefore, rfl, hline⟩ := forall₂_append_singleton.mp hlines
      obtain ⟨hdistinct, hfresh⟩ := nodup_names_append.mp hnames
      exact (ih hbefore hdistinct).snoc ⟨hline, hfresh⟩

end PrimePaths.Listing
