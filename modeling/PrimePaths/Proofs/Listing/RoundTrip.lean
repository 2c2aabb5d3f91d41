import PrimePaths.Listing.Line
import PrimePaths.Proofs.Graph.FlowUnit
import PrimePaths.Proofs.Listing.Acceptance
import PrimePaths.Proofs.Listing.Spelling
import PrimePaths.Proofs.Text.Lines

namespace PrimePaths.Listing

open PrimePaths.LineContent

variable {name path : String} {blocks : List Block} {b : Block} {u : String × List Block}
  {units : List (String × List Block)} {index k : Nat} {s : Int}

/-- A block as its line lists it. -/
def listed (index : Nat) (b : Block) : BlockLine :=
  { index := Nat.toDigits 10 index
    live := b.live
    succs := b.succs.map fun s => Nat.toDigits 10 s.toNat }

def blockContents (index : Nat) (blocks : List Block) : List LineContent :=
  (blocks.zipIdx index).map fun (b, i) => .block (listed i b)

/-- What the lines of a unit say. -/
def unitContents (u : String × List Block) : List LineContent :=
  .header u.1 :: blockContents 0 u.2

/-- The units can be written: distinct names of the characters that names have, and numbers that are not
too long to be read. A successor need not be a block. -/
structure Writable (units : List (String × List Block)) : Prop where
  distinct : (units.map Prod.fst).Nodup
  named : ∀ u ∈ units, isName u.1.toList = true
  successors : ∀ u ∈ units, ∀ b ∈ u.2, ∀ s ∈ b.succs, 0 ≤ s ∧ (toString s).length ≤ Crash.maxDigits
  -- The index of a block is longer only after ten to the power of `Crash.maxDigits` other blocks.
  indices : ∀ u ∈ units, ∀ index < u.2.length, (toString index).length ≤ Crash.maxDigits
  some_block : ∃ u ∈ units, u.2 ≠ []

section Numbers

theorem toList_toString_of_nonneg (h : 0 ≤ s) : (toString s).toList = Nat.toDigits 10 s.toNat := by
  obtain ⟨n, rfl⟩ := Int.eq_ofNat_of_zero_le h
  exact Nat.toList_repr

theorem value_toDigits (n : Nat) : value (Nat.toDigits 10 n) = n := by
  rw [value, Text.ofDigits?_toDigits]
  rfl

theorem length_toDigits (n : Nat) : (Nat.toDigits 10 n).length = (toString n).length := by
  rw [← Nat.toList_repr, String.length_toList]
  rfl

theorem length_toDigits_toNat (h : 0 ≤ s) :
    (Nat.toDigits 10 s.toNat).length = (toString s).length := by
  rw [← toList_toString_of_nonneg h, String.length_toList]

end Numbers

section Lines

/-- The words of the line of a block. -/
def blockWords (index : Nat) (b : Block) : List (List Char) :=
  (listed index b).index :: (if b.live then "live" else "dead").toList :: (listed index b).succs

theorem isName_of_mem_blockWords {w : List Char} (h : w ∈ blockWords index b) : isName w = true := by
  rw [blockWords, List.mem_cons, List.mem_cons] at h
  rcases h with rfl | rfl | h
  · exact isName_toDigits index
  · cases b.live <;> decide
  · obtain ⟨s, -, rfl⟩ := List.mem_map.mp h
    exact isName_toDigits _

theorem toList_blockLine (h : ∀ s ∈ b.succs, 0 ≤ s) :
    (blockLine index b).toList = [' '].intercalate (blockWords index b) := by
  have hsuccs : b.succs.map (String.toList ∘ toString) = (listed index b).succs :=
    List.map_congr_left fun s hs => toList_toString_of_nonneg (h s hs)
  have hindex : (toString index).toList = (listed index b).index := Nat.toList_repr
  rw [blockLine, String.toList_intercalate, List.map_append, List.map_cons, List.map_cons, List.map_nil,
    List.map_map, hsuccs, hindex]
  rfl

theorem toList_header : s!"FUNC {name}".toList = [' '].intercalate ["FUNC".toList, name.toList] := by
  rw [String.toList_append, List.intercalate_cons_cons, List.intercalate_singleton]
  rfl

theorem says_header (h : isName name.toList = true) :
    Says s!"FUNC {name}".toList (.header name) := by
  have hnames : ∀ w ∈ ["FUNC".toList, name.toList], isName w = true := by
    simp [h]
    decide
  have hspells : Spells (body s!"FUNC {name}".toList) (.header (String.ofList name.toList)) := by
    rw [toList_header]
    refine .header ?_ (words_body_intercalate hnames) h
    rw [body_intercalate hnames]
    exact clean_intercalate hnames
  rw [String.ofList_toList] at hspells
  exact ⟨hspells, by simp⟩

theorem isStatus_live (live : Bool) : IsStatus live (if live then "live" else "dead").toList := by
  cases live <;> rfl

theorem says_blockLine (hindex : (toString index).length ≤ Crash.maxDigits)
    (hsuccs : ∀ s ∈ b.succs, 0 ≤ s ∧ (toString s).length ≤ Crash.maxDigits) :
    Says (blockLine index b).toList (.block (listed index b)) := by
  have hnames : ∀ w ∈ blockWords index b, isName w = true := fun w hw => isName_of_mem_blockWords hw
  have hindices : ∀ w ∈ (listed index b).index :: (listed index b).succs,
      isIndex w = true ∧ w.length ≤ Crash.maxDigits := by
    intro w hw
    rcases List.mem_cons.mp hw with rfl | hw
    · exact ⟨isIndex_toDigits index, (length_toDigits index).trans_le hindex⟩
    · obtain ⟨s, hs, rfl⟩ := List.mem_map.mp hw
      obtain ⟨hnonneg, hshort⟩ := hsuccs s hs
      exact ⟨isIndex_toDigits s.toNat, (length_toDigits_toNat hnonneg).trans_le hshort⟩
  rw [toList_blockLine fun s hs => (hsuccs s hs).1]
  constructor
  · refine .block ?_ (words_body_intercalate hnames) (fun w hw => (hindices w hw).1)
      (isStatus_live b.live)
    rw [body_intercalate hnames]
    exact clean_intercalate hnames
  · rintro _ ⟨⟩ w hw
    exact (hindices w hw).2

end Lines

section Units

variable {cs : List (Nat × LineContent)} {us : List FlowUnit}

/-- The unit is one of these name and blocks, listed in order. -/
def Lists (w : String × List Block) (u : FlowUnit) : Prop :=
  u.name = w.1 ∧
    u.entries.map (fun e => (e.index, e.block)) = w.2.zipIdx.map fun (b, i) => ((i : Int), b)

theorem entry_listed (h : ∀ s ∈ b.succs, 0 ≤ s) :
    (entry k (listed index b)).index = index ∧ (entry k (listed index b)).block = b := by
  have hsuccs : (listed index b).succs.map value = b.succs := by
    rw [listed, List.map_map]
    conv_rhs => rw [← List.map_id b.succs]
    apply List.map_congr_left
    intro s hs
    change value (Nat.toDigits 10 s.toNat) = s
    rw [value_toDigits, Int.toNat_of_nonneg (h s hs)]
  refine ⟨value_toDigits index, ?_⟩
  rw [entry, hsuccs]
  rfl

theorem leading_blockContents (hsuccs : ∀ b ∈ blocks, ∀ s ∈ b.succs, 0 ≤ s) (hcs : leading cs = []) :
    (leading (numberFrom k (blockContents index blocks) ++ cs)).map (fun e => (e.index, e.block)) =
      (blocks.zipIdx index).map fun (b, i) => ((i : Int), b) := by
  induction blocks generalizing index k with
  | nil => exact congrArg (List.map _) hcs
  | cons b blocks ih =>
    obtain ⟨hindex, hblock⟩ := @entry_listed b index k (hsuccs b List.mem_cons_self)
    have hrest := @ih (index + 1) (k + 1) fun c hc => hsuccs c (List.mem_cons_of_mem b hc)
    change (_, _) :: _ = (_, _) :: _
    rw [hindex, hblock]
    exact congrArg _ hrest

theorem headed_blockContents :
    headed (numberFrom k (blockContents index blocks) ++ cs) = headed cs := by
  induction blocks generalizing index k with
  | nil => rfl
  | cons b blocks ih => exact ih

theorem leading_unitContents : leading (numberFrom k (units.flatMap unitContents)) = [] := by
  cases units <;> rfl

theorem lists_headed (h : ∀ u ∈ units, ∀ b ∈ u.2, ∀ s ∈ b.succs, 0 ≤ s) :
    List.Forall₂ Lists units (headed (numberFrom k (units.flatMap unitContents))) := by
  induction units generalizing k with
  | nil => exact .nil
  | cons u units ih =>
    have hblocks := h u List.mem_cons_self
    have hrest := fun m => @ih m fun v hv => h v (List.mem_cons_of_mem u hv)
    rw [List.flatMap_cons, unitContents, List.cons_append, numberFrom_cons, numberFrom_append, headed,
      headed_blockContents]
    exact .cons ⟨rfl, leading_blockContents hblocks leading_unitContents⟩ (hrest _)

theorem Lists.blockTable {w : String × List Block} {u : FlowUnit} (h : Lists w u) : u.blockTable = .ok w.2 :=
  FlowUnit.blockTable_of_listed h.2

theorem Lists.graph {w : String × List Block} {u : FlowUnit} (h : Lists w u) :
    u.graph = LiveGraph.ofBlocks w.2 := by
  rw [FlowUnit.graph, h.blockTable]
  rfl

theorem map_name_of_lists (h : List.Forall₂ Lists units us) :
    us.map FlowUnit.name = units.map Prod.fst := by
  induction h with
  | nil => rfl
  | cons hfirst _ ih => rw [List.map_cons, List.map_cons, hfirst.1, ih]

theorem says_unitLines (h : Writable units) (hu : u ∈ units) :
    List.Forall₂ (fun (l : String) c => Says l.toList c) (unitLines u.1 u.2) (unitContents u) := by
  refine .cons (says_header (h.named u hu)) ?_
  rw [blockContents, List.forall₂_map_left_iff, List.forall₂_map_right_iff, List.forall₂_same]
  rintro ⟨b, i⟩ hb
  have hindex : i < u.2.length := by
    have := List.snd_lt_of_mem_zipIdx hb
    simpa using this
  exact says_blockLine (h.indices u hu i hindex)
    (h.successors u hu b (List.fst_mem_of_mem_zipIdx hb))

end Units

section File

/-- The lines of the file for units. -/
def fileLines (units : List (String × List Block)) : List (List Char) :=
  (units.flatMap fun u => unitLines u.1 u.2).map String.toList

theorem toList_write : (write units).toList = (fileLines units).flatMap (· ++ ['\n']) := by
  rw [write, String.toList_join, fileLines, List.flatMap_map, List.flatMap_map]
  simp only [String.toList_append]
  rfl

theorem not_lineEnd_of_mem_fileLines (h : Writable units) :
    ∀ l ∈ fileLines units, ∀ c ∈ l, Text.isLineEnd c = false := by
  intro l hl
  obtain ⟨line, hline, rfl⟩ := List.mem_map.mp hl
  obtain ⟨u, hu, hline⟩ := List.mem_flatMap.mp hline
  rcases List.mem_cons.mp hline with rfl | hline
  · rw [toList_header]
    apply not_lineEnd_intercalate
    simp [h.named u hu]
    decide
  · obtain ⟨⟨b, i⟩, hb, rfl⟩ := List.mem_map.mp hline
    rw [toList_blockLine fun s hs => (h.successors u hu b (List.fst_mem_of_mem_zipIdx hb) s hs).1]
    exact not_lineEnd_intercalate fun w hw => isName_of_mem_blockWords hw

theorem linesOf_write (h : Writable units) : linesOf (write units) = numberFrom 1 (fileLines units) := by
  have hends := not_lineEnd_of_mem_fileLines h
  have hreturn : '\r' ∉ (write units).toList := by
    rw [toList_write, List.mem_flatMap]
    rintro ⟨l, hl, hmem⟩
    rcases List.mem_append.mp hmem with hmem | hmem
    · exact absurd (hends l hl _ hmem) (by decide)
    · exact absurd hmem (by decide)
  rw [linesOf, textLines, Text.unifyNewlines_of_not_mem hreturn, toList_write, Text.lines_flatMap_newline hends]

theorem forall₂_flatMap {α β γ : Type} {r : β → γ → Prop} {f : α → List β} {g : α → List γ} {xs : List α}
    (h : ∀ x ∈ xs, List.Forall₂ r (f x) (g x)) : List.Forall₂ r (xs.flatMap f) (xs.flatMap g) := by
  induction xs with
  | nil => exact .nil
  | cons x xs ih =>
    rw [List.flatMap_cons, List.flatMap_cons]
    exact List.rel_append (h x List.mem_cons_self) (ih fun y hy => h y (List.mem_cons_of_mem x hy))

theorem unitsOf_write : unitsOf path (numberFrom k (units.flatMap unitContents)) =
    headed (numberFrom k (units.flatMap unitContents)) := by
  rw [unitsOf, leading_unitContents]
  rfl

theorem reads_write (path : String) (h : Writable units) :
    Reads path (linesOf (write units)) (numberFrom 1 (units.flatMap unitContents)) := by
  have hunits := lists_headed (k := 1) fun u hu b hb s hs => (h.successors u hu b hb s hs).1
  -- The first line is a header, so there is no unit without one whose name could clash.
  rw [reads_iff, unitsOf_write, map_name_of_lists hunits, linesOf_write h]
  refine ⟨forall₂_numberFrom ?_, h.distinct⟩
  rw [fileLines, List.forall₂_map_left_iff]
  exact forall₂_flatMap fun u hu => says_unitLines h hu

theorem exists_block (h : Writable units) :
    ∃ number b, (number, LineContent.block b) ∈ numberFrom 1 (units.flatMap unitContents) := by
  obtain ⟨u, hu, hsome⟩ := h.some_block
  obtain ⟨b, blocks, hblocks⟩ := List.exists_cons_of_ne_nil hsome
  have hmem : LineContent.block (listed 0 b) ∈ units.flatMap unitContents := by
    refine List.mem_flatMap.mpr ⟨u, hu, ?_⟩
    rw [unitContents, hblocks]
    exact List.mem_cons_of_mem _ List.mem_cons_self
  rw [← map_snd_numberFrom 1 (units.flatMap unitContents)] at hmem
  obtain ⟨⟨number, c⟩, hnumber, rfl⟩ := List.mem_map.mp hmem
  exact ⟨number, _, hnumber⟩

theorem decode_toUTF8 (text : String) : Text.decode text.toUTF8 = .ok text := by
  have hvalid : String.fromUTF8? text.toUTF8 = some text := dif_pos text.isValidUTF8
  rw [Text.decode, hvalid]

theorem exists_load {read : String → Except Crash ByteArray} (h : Writable units)
    (hfile : read path = .ok (write units).toUTF8) :
    ∃ loaded, load read path = .ok loaded ∧ List.Forall₂ Lists units loaded := by
  refine ⟨_, ?_, lists_headed (k := 1) fun u hu b hb s hs => (h.successors u hu b hb s hs).1⟩
  rw [load, hfile]
  simp only [decode_toUTF8]
  rw [readText_of_reads (reads_write path h) (exists_block h), unitsOf_write]

/-- The file that is written for units is read as these units in their order, with their names, their
tables, and their graphs or what keeps them from having one. -/
theorem load_write {read : String → Except Crash ByteArray} (h : Writable units)
    (hfile : read path = .ok (write units).toUTF8) :
    ∃ loaded, load read path = .ok loaded ∧
      List.Forall₂ (fun w u => u.name = w.1 ∧ u.blockTable = .ok w.2 ∧ u.graph = LiveGraph.ofBlocks w.2)
        units loaded := by
  obtain ⟨loaded, hload, hunits⟩ := exists_load h hfile
  exact ⟨loaded, hload, hunits.imp fun w u hlists => ⟨hlists.1, hlists.blockTable, hlists.graph⟩⟩

/-- A unit with a stray successor and a dead block between units without blocks. -/
def sample : List (String × List Block) :=
  [("größe_1", []), ("a.b-c", [⟨true, [2, 1, 10]⟩, ⟨false, []⟩, ⟨true, [0]⟩]), ("-", [])]

theorem writable_sample : Writable sample where
  distinct := by decide
  named := by decide +kernel
  successors := by decide +kernel
  indices := by decide +kernel
  some_block := by decide

theorem load_write_sample :
    Writable sample ∧
      (fun _ => .ok (write sample).toUTF8 : String → Except Crash ByteArray) "in.txt" =
        .ok (write sample).toUTF8 ∧
      ∃ loaded, load (fun _ => .ok (write sample).toUTF8) "in.txt" = .ok loaded ∧
        List.Forall₂
          (fun w u => u.name = w.1 ∧ u.blockTable = .ok w.2 ∧ u.graph = LiveGraph.ofBlocks w.2)
          sample loaded :=
  ⟨writable_sample, rfl, load_write writable_sample rfl⟩

end File

end PrimePaths.Listing
