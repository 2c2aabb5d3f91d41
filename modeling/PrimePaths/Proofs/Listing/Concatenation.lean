import PrimePaths.Proofs.Graph.Shift
import PrimePaths.Proofs.Listing.Acceptance
import PrimePaths.Proofs.Text.Lines

namespace PrimePaths.Listing

open PrimePaths.LineContent

variable {path A B : String} {k number : Nat} {cs ds : List (Nat × LineContent)} {us vs : List FlowUnit}
  {ls ms : List (Nat × List Char)} {names : List String}

section Lines

def hasBody (line : List Char) : Bool :=
  !(body line).isEmpty

/-- The first line of a text that is not blank and not a comment is a header. -/
def OpensWithHeader (text : String) : Prop :=
  ∃ line, (textLines text).find? hasBody = some line ∧
    (Text.words (body line)).head? = some "FUNC".toList

theorem textLines_append :
    textLines (A ++ "\n" ++ B) = textLines (A ++ "\n") ++ textLines B := by
  have hnewline : "\n".toList = ['\n'] := rfl
  rw [textLines, textLines, textLines, String.toList_append, String.toList_append, hnewline,
    List.append_assoc, List.singleton_append, Text.lines_unifyNewlines_append]

theorem linesOf_append :
    linesOf (A ++ "\n" ++ B) =
      linesOf (A ++ "\n") ++ shifted (textLines (A ++ "\n")).length (linesOf B) := by
  rw [linesOf, textLines_append, numberFrom_append, numberFrom_add]
  rfl

/-- An end after the last line changes nothing but that an empty line may follow. -/
theorem linesOf_append_newline :
    linesOf (A ++ "\n") = linesOf A ∨ ∃ number, linesOf (A ++ "\n") = linesOf A ++ [(number, [])] := by
  have hnewline : "\n".toList = ['\n'] := rfl
  rw [linesOf, linesOf, textLines, textLines, String.toList_append, hnewline]
  rcases Text.lines_unifyNewlines_append_newline A.toList with hsame | hmore
  · exact Or.inl (congrArg (numberFrom 1) hsame)
  · rw [hmore, numberFrom_append]
    exact Or.inr ⟨_, rfl⟩

end Lines

section Contents

theorem leading_shifted : leading (shifted k cs) = (leading cs).map (Entry.shift k) := by
  induction cs with
  | nil => rfl
  | cons c cs ih =>
    obtain ⟨number, nothing | name | b⟩ := c
    · exact ih
    · rfl
    · exact congrArg (entry (number + k) b :: ·) ih

theorem headed_shifted : headed (shifted k cs) = (headed cs).map (FlowUnit.shift k) := by
  induction cs with
  | nil => rfl
  | cons c cs ih =>
    obtain ⟨number, nothing | name | b⟩ := c
    · exact ih
    · change { name, line := some ((number + k : Nat) : Int), entries := leading (shifted k cs) } ::
        headed (shifted k cs) = _
      rw [leading_shifted, ih]
      rfl
    · exact ih

/-- What follows a header on later lines adds its units at the end. -/
theorem unitsOf_append_shifted (h : leading ds = []) :
    unitsOf path (cs ++ shifted k ds) = unitsOf path cs ++ (unitsOf path ds).map (FlowUnit.shift k) := by
  have hleading : leading (shifted k ds) = [] := by
    rw [leading_shifted, h]
    rfl
  have hunits : unitsOf path ds = headed ds := by
    rw [unitsOf, h]
    rfl
  rw [unitsOf_append hleading, headed_shifted, hunits]

theorem map_name_shift (us : List FlowUnit) :
    (us.map (FlowUnit.shift k)).map FlowUnit.name = us.map FlowUnit.name := by
  rw [List.map_map]
  rfl

theorem reads_append (hA : Reads path ls cs) (hB : Reads path ms ds) (hopen : leading ds = [])
    (hnames : ∀ u ∈ unitsOf path cs, ∀ v ∈ unitsOf path ds, u.name ≠ v.name) :
    Reads path (ls ++ shifted k ms) (cs ++ shifted k ds) := by
  rw [reads_iff] at hA hB ⊢
  obtain ⟨hfirst, hfirstNames⟩ := hA
  obtain ⟨hsecond, hsecondNames⟩ := hB
  constructor
  · apply List.rel_append hfirst
    apply forall₂_shifted ?_ hsecond
    rintro x y ⟨hnumber, hline⟩
    exact ⟨congrArg (· + k) hnumber, hline⟩
  · rw [unitsOf_append_shifted hopen, List.map_append, map_name_shift]
    refine List.nodup_append.mpr ⟨hfirstNames, hsecondNames, ?_⟩
    intro m hm n hn
    obtain ⟨u, hu, rfl⟩ := List.mem_map.mp hm
    obtain ⟨v, hv, rfl⟩ := List.mem_map.mp hn
    exact hnames u hu v hv

/-- No block stands above the first header if the first line that says something is one. -/
theorem leading_eq_nil (hlines : List.Forall₂ (fun l c => l.1 = c.1 ∧ Says l.2 c.2) ls cs)
    (hopen : ∀ l ∈ (ls.map Prod.snd).find? hasBody,
      (Text.words (body l)).head? = some "FUNC".toList) : leading cs = [] := by
  induction hlines with
  | nil => rfl
  | @cons l c ls cs hfirst _ ih =>
    obtain ⟨number, line⟩ := l
    obtain ⟨number, content⟩ := c
    obtain ⟨hnumber, ⟨hspells, -⟩⟩ := hfirst
    cases hspells with
    | nothing hbody =>
      apply ih
      intro l hl
      apply hopen l
      have hskip : ¬hasBody line = true := by simp [hasBody, hbody]
      rwa [List.map_cons, List.find?_cons_of_neg hskip]
    | header => rfl
    | @block b status hclean hwords hindices hstatus =>
      have hsome : hasBody line = true := by
        rw [hasBody, Bool.not_eq_true', List.isEmpty_eq_false_iff]
        intro hnil
        rw [hnil, Text.words_nil] at hwords
        contradiction
      have hfunc := hopen line (by rw [List.map_cons, List.find?_cons_of_pos hsome]; rfl)
      rw [hwords] at hfunc
      -- The first word of a block is an index.
      exact absurd (Option.some.inj hfunc) (ne_func_of_isIndex (hindices _ List.mem_cons_self))

end Contents

theorem reads_append_newline (h : Reads path (linesOf A) cs) :
    ∃ ds, Reads path (linesOf (A ++ "\n")) (cs ++ ds) ∧ unitsOf path (cs ++ ds) = unitsOf path cs := by
  rcases linesOf_append_newline with hsame | ⟨number, hmore⟩
  · refine ⟨[], ?_, ?_⟩
    · rwa [hsame, List.append_nil]
    · rw [List.append_nil]
  · refine ⟨[(number, .nothing)], ?_, unitsOf_append_nothing⟩
    rw [hmore]
    exact h.snoc ⟨⟨.nothing rfl, nofun⟩, nofun⟩

/-- Units on the lines below a text. -/
def below (A : String) (vs : List FlowUnit) : List FlowUnit :=
  vs.map (FlowUnit.shift (textLines (A ++ "\n")).length)

/-- The units of two listings in one text. -/
theorem readText_append (hA : readText path A = .ok us) (hB : readText path B = .ok vs)
    (hopen : OpensWithHeader B) (hnames : ∀ u ∈ us, ∀ v ∈ vs, u.name ≠ v.name) :
    readText path (A ++ "\n" ++ B) = .ok (us ++ below A vs) := by
  obtain ⟨cs, hreads, hblock, rfl⟩ := exists_reads hA
  obtain ⟨ds, hsecond, -, rfl⟩ := exists_reads hB
  obtain ⟨es, hfirst, hunits⟩ := reads_append_newline hreads
  have hleading : leading ds = [] := by
    apply leading_eq_nil (reads_iff.mp hsecond).1
    obtain ⟨line, hline, hwords⟩ := hopen
    rw [linesOf, map_snd_numberFrom, hline]
    rintro _ ⟨⟩
    exact hwords
  -- The first listing may gain an empty line, which adds no unit.
  rw [← hunits] at hnames ⊢
  have hall := reads_append (k := (textLines (A ++ "\n")).length) hfirst hsecond hleading hnames
  rw [← linesOf_append] at hall
  rw [readText_of_reads hall, unitsOf_append_shifted hleading]
  · rfl
  · obtain ⟨number, b, hmem⟩ := hblock
    exact ⟨number, b, List.mem_append_left _ (List.mem_append_left _ hmem)⟩

theorem select_of_known (hsome : names ≠ []) (hknown : ∀ n ∈ names, n ∈ us.map FlowUnit.name) :
    select us names = .ok (us.filter fun u => names.contains u.name) := by
  have hgiven : names.isEmpty = false := List.isEmpty_eq_false_iff.mpr hsome
  have hmissing : names.filter (fun n => !(us.map FlowUnit.name).contains n) = [] := by
    rw [List.filter_eq_nil_iff]
    intro n hn
    simpa using hknown n hn
  simp only [select, hgiven, hmissing]
  rfl

/-- Units that are asked for by names of the second listing are selected as from the second alone. -/
theorem select_append (hsome : names ≠ []) (hknown : ∀ n ∈ names, n ∈ vs.map FlowUnit.name)
    (hnames : ∀ u ∈ us, ∀ v ∈ vs, u.name ≠ v.name) :
    select (us ++ below A vs) names =
      .ok (below A (vs.filter fun v => names.contains v.name)) := by
  have hall : ∀ n ∈ names, n ∈ (us ++ below A vs).map FlowUnit.name := by
    intro n hn
    rw [List.map_append, below, map_name_shift]
    exact List.mem_append_right _ (hknown n hn)
  have hnone : us.filter (fun u => names.contains u.name) = [] := by
    rw [List.filter_eq_nil_iff]
    intro u hu hasked
    obtain ⟨v, hv, hsame⟩ := List.mem_map.mp (hknown u.name (by simpa using hasked))
    exact hnames u hu v hv hsame.symm
  rw [select_of_known hsome hall, List.filter_append, hnone, below, List.filter_map]
  rfl

theorem nodup_names_of_readText (h : readText path A = .ok us) : (us.map FlowUnit.name).Nodup := by
  obtain ⟨cs, hreads, -, rfl⟩ := exists_reads h
  exact (reads_iff.mp hreads).2

end PrimePaths.Listing
