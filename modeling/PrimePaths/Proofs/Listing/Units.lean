import PrimePaths.Listing.Reader

namespace PrimePaths.Listing

/-- The number that digits write. -/
def value (digits : List Char) : Int :=
  (Text.ofDigits? digits).getD 0

/-- The entry for a block on the line of a number. -/
def entry (number : Nat) (b : BlockLine) : Entry :=
  { index := value b.index
    block := { live := b.live, succs := b.succs.map value }
    line := some (number : Int) }

/-- The entries of the blocks before the first header. -/
def leading : List (Nat × LineContent) → List Entry
  | (_, .nothing) :: cs => leading cs
  | (number, .block b) :: cs => entry number b :: leading cs
  | (_, .header _) :: _ | [] => []

/-- The units of the headers, each with the entries of the blocks up to the next header. -/
def headed : List (Nat × LineContent) → List FlowUnit
  | (number, .header name) :: cs =>
    { name, line := some (number : Int), entries := leading cs } :: headed cs
  | (_, .nothing) :: cs | (_, .block _) :: cs => headed cs
  | [] => []

/-- The unit without a header, named after the file; there is none without an entry. -/
def unheaded (path : String) : List Entry → List FlowUnit
  | [] => []
  | e :: es => [{ name := FileName.stem path, line := e.line, entries := e :: es }]

/-- The units of numbered lines in order. -/
def unitsOf (path : String) (cs : List (Nat × LineContent)) : List FlowUnit :=
  unheaded path (leading cs) ++ headed cs

variable {path : String} {cs ds : List (Nat × LineContent)} {number : Nat} {b : BlockLine}

theorem leading_append (h : leading ds = []) : leading (cs ++ ds) = leading cs := by
  induction cs with
  | nil => simpa [leading] using h
  | cons c cs ih =>
    obtain ⟨number, nothing | name | b⟩ := c
    · exact ih
    · rfl
    · exact congrArg (entry number b :: ·) ih

theorem headed_append (h : leading ds = []) : headed (cs ++ ds) = headed cs ++ headed ds := by
  induction cs with
  | nil => rfl
  | cons c cs ih =>
    obtain ⟨number, nothing | name | b⟩ := c
    · exact ih
    · simp only [List.cons_append, headed, leading_append h, ih]
    · exact ih

/-- Lines that no block leads add units of their own. -/
theorem unitsOf_append (h : leading ds = []) :
    unitsOf path (cs ++ ds) = unitsOf path cs ++ headed ds := by
  simp only [unitsOf, leading_append h, headed_append h, List.append_assoc]

theorem unitsOf_append_nothing : unitsOf path (cs ++ [(number, .nothing)]) = unitsOf path cs := by
  rw [unitsOf_append rfl, headed, headed, List.append_nil]

theorem unitsOf_append_header {name : String} :
    unitsOf path (cs ++ [(number, .header name)]) =
      unitsOf path cs ++ [{ name, line := some (number : Int) }] := by
  rw [unitsOf_append rfl]
  rfl

theorem addEntry_append {us vs : List FlowUnit} {e : Entry} (h : vs ≠ []) :
    addEntry path number (us ++ vs) e = us ++ addEntry path number vs e := by
  obtain ⟨vs, v, rfl⟩ := vs.eq_nil_or_concat.resolve_left h
  simp [addEntry, ← List.append_assoc]

theorem addEntry_cons {u : FlowUnit} {us : List FlowUnit} {e : Entry} (h : us ≠ []) :
    addEntry path number (u :: us) e = u :: addEntry path number us e := by
  rw [← List.singleton_append, addEntry_append h, List.singleton_append]

theorem leading_append_block :
    leading (cs ++ [(number, .block b)]) =
      if headed cs = [] then leading cs ++ [entry number b] else leading cs := by
  induction cs with
  | nil => rfl
  | cons c cs ih =>
    obtain ⟨m, nothing | name | b'⟩ := c
    · exact ih
    · rfl
    · by_cases hnone : headed cs = [] <;> simp [leading, headed, ih, hnone]

theorem headed_append_block_of_nil (h : headed cs = []) : headed (cs ++ [(number, .block b)]) = [] := by
  induction cs with
  | nil => rfl
  | cons c cs ih =>
    obtain ⟨m, nothing | name | b'⟩ := c
    · exact ih h
    · simp [headed] at h
    · exact ih h

/-- With a header above it, a block goes to the last unit of a header. -/
theorem headed_append_block (h : headed cs ≠ []) :
    headed (cs ++ [(number, .block b)]) = addEntry path number (headed cs) (entry number b) := by
  induction cs with
  | nil => exact absurd rfl h
  | cons c cs ih =>
    obtain ⟨m, nothing | name | b'⟩ := c
    · exact ih h
    · -- The block belongs to this header if no other one comes between.
      simp only [List.cons_append, headed, leading_append_block]
      by_cases hnone : headed cs = []
      · rw [if_pos hnone, hnone, headed_append_block_of_nil hnone]
        rfl
      · rw [if_neg hnone, ih hnone, addEntry_cons hnone]
    · exact ih h

theorem unitsOf_append_block :
    unitsOf path (cs ++ [(number, .block b)]) =
      addEntry path number (unitsOf path cs) (entry number b) := by
  rw [unitsOf, unitsOf, leading_append_block]
  by_cases hnone : headed cs = []
  · rw [if_pos hnone, hnone, headed_append_block_of_nil hnone, List.append_nil, List.append_nil]
    cases leading cs <;> rfl
  · rw [if_neg hnone, headed_append_block hnone, addEntry_append hnone]

def entry? : Nat × LineContent → Option Entry
  | (number, .block b) => some (entry number b)
  | (_, .nothing) | (_, .header _) => none

theorem entries_unheaded {es : List Entry} : (unheaded path es).flatMap FlowUnit.entries = es := by
  cases es <;> simp [unheaded]

/-- Each block has one entry, in one of the units. -/
theorem entries_unitsOf : (unitsOf path cs).flatMap FlowUnit.entries = cs.filterMap entry? := by
  rw [unitsOf, List.flatMap_append, entries_unheaded]
  induction cs with
  | nil => rfl
  | cons c cs ih =>
    obtain ⟨m, nothing | name | b⟩ := c
    · exact ih
    · rw [leading, headed, List.nil_append, List.flatMap_cons, ih]
      rfl
    · rw [leading, headed, List.cons_append, ih]
      rfl

/-- There is a unit without a header if and only if the first line that says something is a block. -/
theorem unheaded_ne_nil_iff :
    unheaded path (leading cs) ≠ [] ↔
      ∃ number b, cs.find? (·.2 ≠ .nothing) = some (number, .block b) := by
  induction cs with
  | nil => simp [leading, unheaded]
  | cons c cs ih =>
    obtain ⟨m, nothing | name | b⟩ := c
    · exact ih
    · simp [leading, unheaded]
    · simp [leading, unheaded]

end PrimePaths.Listing
