import PrimePaths.Json
import PrimePaths.Proofs.Number.Numeral

namespace PrimePaths.Json

section Strings

theorem isHexDigit_of_mem_toDigits {n : Nat} {c : Char} (hc : c ∈ Nat.toDigits 16 n) :
    isHexDigit c = true := by
  have hchars : ∀ d < 16, isHexDigit (Nat.digitChar d) = true := by decide
  induction n using Nat.strongRecOn with
  | ind n ih =>
    rcases Nat.lt_or_ge n 16 with hless | hmore
    · rw [Nat.toDigits_of_lt_base hless, List.mem_singleton] at hc
      rw [hc]
      exact hchars n hless
    · rw [Nat.toDigits_of_base_le (by decide) hmore, List.mem_append, List.mem_singleton] at hc
      rcases hc with hc | rfl
      · exact ih (n / 16) (by omega) hc
      · exact hchars _ (Nat.mod_lt n (by decide))

theorem isHexDigit_of_mem_hex {width n : Nat} {c : Char} (hc : c ∈ Text.hex width n) :
    isHexDigit c = true := by
  rcases List.mem_append.mp hc with hc | hc
  · obtain rfl := List.eq_of_mem_replicate hc
    rfl
  · exact isHexDigit_of_mem_toDigits hc

theorem length_hex {n : Nat} (h : n < 0x10000) : (Text.hex 4 n).length = 4 := by
  have hdigits : (Nat.toDigits 16 n).length ≤ 4 := (Nat.length_toDigits_le_iff (by decide) (by decide)).mpr h
  simp only [Text.hex, List.length_append, List.length_replicate]
  omega

variable {cs rest : List Char}

theorem Characters.unit {n : Nat} (hn : n < 0x10000) (h : Characters cs rest) :
    Characters ('\\' :: 'u' :: (Text.hex 4 n ++ cs)) rest :=
  .code (length_hex hn) (fun _ => isHexDigit_of_mem_hex) h

theorem surrogates_lt (c : Char) :
    0xd800 + (c.toNat - 0x10000) / 0x400 < 0x10000 ∧ 0xdc00 + (c.toNat - 0x10000) % 0x400 < 0x10000 := by
  have hvalid : c.toNat.isValidChar := c.valid
  unfold Nat.isValidChar at hvalid
  omega

theorem Characters.units {m n : Nat} (hm : m < 0x10000) (hn : n < 0x10000) (h : Characters cs rest) :
    Characters ('\\' :: 'u' :: Text.hex 4 m ++ '\\' :: 'u' :: Text.hex 4 n ++ cs) rest := by
  simp only [List.append_assoc, List.cons_append]
  exact .unit hm (.unit hn h)

theorem Characters.escaped (c : Char) (h : Characters cs rest) : Characters (Json.escaped c ++ cs) rest := by
  obtain ⟨hhigh, hlow⟩ := surrogates_lt c
  unfold Json.escaped
  split_ifs with hquote hfeed hreturn htab hback hform hprints hshort
  · rcases hquote with rfl | rfl <;> exact .escape (by decide) h
  · exact .escape (by decide) h
  · exact .escape (by decide) h
  · exact .escape (by decide) h
  · exact .escape (by decide) h
  · exact .escape (by decide) h
  · rw [Bool.and_eq_true, decide_eq_true_eq] at hprints
    exact .plain hprints.1 (fun h => hquote (.inl h)) (fun h => hquote (.inr h)) h
  · exact .unit hshort h
  · exact .units hhigh hlow h

theorem characters_stringText (s : String) (rest : List Char) :
    ∃ cs, (stringText s).toList ++ rest = '"' :: cs ∧ Characters cs rest := by
  refine ⟨s.toList.flatMap Json.escaped ++ '"' :: rest, by simp [stringText], ?_⟩
  induction s.toList with
  | nil => exact .close
  | cons c cs ih =>
    rw [List.flatMap_cons, List.append_assoc]
    exact .escaped c ih

end Strings

section Entries

/-- A text that is a value, whatever follows it. -/
def IsValue (cs : List Char) : Prop :=
  ∀ rest, Derives .value (cs ++ rest) rest

/-- A text that is an entry in brackets, with blanks before it. -/
def IsEntry (k : Bracket) (cs : List Char) : Prop :=
  ∀ a rest, Blanks a (cs ++ rest) → Derives (.entry k) a rest

/-- A text that holds a word for a number outside its strings, whatever follows it. -/
def IsWordy (cs : List Char) : Prop :=
  ∀ rest, ∃ c ∈ unquoted .outside (cs ++ rest), c = 'N' ∨ c = 'I'

theorem IsWordy.append {a b : List Char} (ha : ∀ rest, Wordless (a ++ rest) rest) (hb : IsWordy b) :
    IsWordy (a ++ b) := by
  intro rest
  obtain ⟨front, -, hfront⟩ := ha (b ++ rest)
  obtain ⟨c, hc, hword⟩ := hb rest
  rw [List.append_assoc, hfront]
  exact ⟨c, List.mem_append_right front hc, hword⟩

theorem IsWordy.before {a : List Char} (ha : IsWordy a) (b : List Char) : IsWordy (a ++ b) := by
  intro rest
  rw [List.append_assoc]
  exact ha (b ++ rest)

theorem fieldText_eq (key text : String) (rest : List Char) :
    (stringText key ++ ": " ++ text).toList ++ rest =
      (stringText key).toList ++ (':' :: ' ' :: (text.toList ++ rest)) := by
  simp

theorem isEntry_item {cs : List Char} (h : IsValue cs) : IsEntry .square cs :=
  fun _ rest ha => .item ha (h rest)

theorem isEntry_field (key : String) {text : String} (h : IsValue text.toList) :
    IsEntry .curly (stringText key ++ ": " ++ text).toList := by
  intro a rest ha
  obtain ⟨cs, hcs, hkey⟩ := characters_stringText key (':' :: ' ' :: (text.toList ++ rest))
  rw [fieldText_eq, hcs] at ha
  exact .field ha hkey .none (.more (by decide) .none) (h rest)

theorem isWordy_field (key : String) {text : String} (h : IsWordy text.toList) :
    IsWordy (stringText key ++ ": " ++ text).toList := by
  have hkey (rest : List Char) : Wordless ((stringText key).toList ++ [':', ' '] ++ rest) rest := by
    obtain ⟨cs, hcs, hkey⟩ := characters_stringText key (':' :: ' ' :: rest)
    rw [List.append_assoc]
    refine (hcs ▸ Wordless.string hkey).trans ?_
    exact .cons (by decide) (by decide) (.cons (by decide) (by decide) (.refl rest))
  rw [String.toList_append, String.toList_append]
  exact .append hkey h

variable {k : Bracket} {items : List String}

theorem blanks_newline (level : Nat) (rest : List Char) : Blanks ((newline level).toList ++ rest) rest := by
  have hspaces (k : Nat) : Blanks (List.replicate k ' ' ++ rest) rest := by
    induction k with
    | zero => exact .none
    | succ k ih => exact .more (by decide) ih
  rw [newline, String.toList_ofList]
  exact .more (by decide) (hspaces _)

/-- Entries, each on a line of its own, and a right bracket. -/
theorem derives_intercalate (level : Nat) (h : ∀ item ∈ items, IsEntry k item.toList) (hsome : items ≠ [])
    (below : Nat) (rest : List Char) :
    Derives (.entries k) ((newline level).toList ++ (("," ++ newline level).intercalate items).toList ++
      (newline below).toList ++ k.right :: rest) rest := by
  induction items with
  | nil => exact absurd rfl hsome
  | cons item items ih =>
    have hitem := h item List.mem_cons_self
    cases items with
    | nil =>
      simp only [String.intercalate_singleton, List.append_assoc]
      exact .last (hitem _ _ (blanks_newline level _)) (blanks_newline below _)
    | cons item' items =>
      have hrest := ih (fun t ht => h t (List.mem_cons_of_mem item ht)) (List.cons_ne_nil _ _)
      simp only [String.intercalate_cons_cons, String.toList_append, List.append_assoc] at hrest ⊢
      exact .more (hitem _ _ (blanks_newline level _)) .none hrest

theorem isValue_bracketed (k : Bracket) (level : Nat) {items : List String}
    (h : ∀ item ∈ items, IsEntry k item.toList) :
    IsValue (bracketed level (String.singleton k.left) (String.singleton k.right) items).toList := by
  intro rest
  unfold bracketed
  split
  · simp only [String.toList_append, String.toList_singleton, List.singleton_append]
    exact .empty .none
  · rename_i hsome
    have hne : items ≠ [] := by simpa using hsome
    have hentries := derives_intercalate (level + 1) h hne level rest
    simp only [String.toList_append, String.toList_singleton, List.append_assoc, List.singleton_append]
      at hentries ⊢
    exact .full hentries

/-- The first entry that holds a word stands behind entries that hold none. -/
theorem isWordy_intercalate (level : Nat) (h : ∀ item ∈ items, IsEntry k item.toList ∨ IsWordy item.toList)
    (hsome : ∃ item ∈ items, IsWordy item.toList) :
    IsWordy (("," ++ newline level).intercalate items).toList := by
  induction items with
  | nil => simp at hsome
  | cons item items ih =>
    by_cases hitem : IsWordy item.toList
    · cases items with
      | nil => rwa [String.intercalate_singleton]
      | cons item' items =>
        rw [String.intercalate_cons_cons, String.append_assoc, String.toList_append]
        exact hitem.before _
    · have hentry := (h item List.mem_cons_self).resolve_right hitem
      obtain ⟨t, ht, hword⟩ := hsome
      have hlater : t ∈ items := by
        rcases List.mem_cons.mp ht with rfl | ht
        · exact absurd hword hitem
        · exact ht
      have hrest := ih (fun t ht => h t (List.mem_cons_of_mem item ht)) ⟨t, hlater, hword⟩
      cases items with
      | nil => cases hlater
      | cons item' items =>
        rw [String.intercalate_cons_cons, String.toList_append]
        refine .append (fun rest => ?_) hrest
        rw [String.toList_append, String.toList_append, List.append_assoc, List.append_assoc]
        exact (hentry _ _ .none).wordless.trans
          (.cons (by decide) (by decide) (blanks_newline level rest).wordless)

theorem isWordy_bracketed (k : Bracket) (level : Nat) {items : List String}
    (h : ∀ item ∈ items, IsEntry k item.toList ∨ IsWordy item.toList)
    (hsome : ∃ item ∈ items, IsWordy item.toList) :
    IsWordy (bracketed level (String.singleton k.left) (String.singleton k.right) items).toList := by
  have hitems : ¬items.isEmpty = true := by
    rintro hnone
    simp [List.isEmpty_iff.mp hnone] at hsome
  have hleft (rest : List Char) :
      Wordless ((String.singleton k.left ++ newline (level + 1)).toList ++ rest) rest := by
    rw [String.toList_append, String.toList_singleton, List.append_assoc]
    refine .cons ?_ ?_ (blanks_newline (level + 1) rest).wordless <;> cases k <;> decide
  rw [bracketed, if_neg hitems, String.toList_append, String.toList_append, String.toList_append,
    List.append_assoc]
  exact .before (.append hleft (isWordy_intercalate (level + 1) h hsome)) _

end Entries

theorem numberText_of_finite {n : Number} (h : n.Finite) : numberText n = n.text := by
  match n with
  | .whole _ => rfl
  | .floating (.finite ..) => rfl

theorem isWordy_numberText {n : Number} (h : ¬n.Finite) : IsWordy (numberText n).toList := by
  intro rest
  match n with
  | .whole _ => exact absurd trivial h
  | .floating (.finite ..) => exact absurd trivial h
  | .floating .nan => exact ⟨'N', List.mem_cons_self, .inl rfl⟩
  | .floating (.infinite false) => exact ⟨'I', List.mem_cons_self, .inr rfl⟩
  | .floating (.infinite true) => exact ⟨'I', List.mem_cons_of_mem _ List.mem_cons_self, .inr rfl⟩

mutual

/-- All numbers of a document are finite. -/
def Strict : Json → Prop
  | number n => n.Finite
  | array items => ItemsStrict items
  | object fields => FieldsStrict fields
  | null | bool _ | string _ => True

def ItemsStrict : List Json → Prop
  | [] => True
  | j :: js => j.Strict ∧ ItemsStrict js

def FieldsStrict : List (String × Json) → Prop
  | [] => True
  | (_, j) :: fields => j.Strict ∧ FieldsStrict fields

end

mutual

theorem isValue_textAt (level : Nat) (j : Json) (h : j.Strict) : IsValue (textAt level j).toList := by
  match j with
  | null =>
    rw [textAt]
    exact fun rest => .word (by decide)
  | bool b =>
    rw [textAt]
    cases b <;> exact fun rest => .word (by decide)
  | number n =>
    rw [textAt, numberText_of_finite h]
    exact fun rest => .number (Number.numeral_text h rest)
  | string s =>
    intro rest
    obtain ⟨cs, hcs, hs⟩ := characters_stringText s rest
    rw [textAt, hcs]
    exact .string hs
  | array items =>
    rw [textAt]
    exact isValue_bracketed .square level (isEntry_itemTexts (level + 1) items h)
  | object fields =>
    rw [textAt]
    exact isValue_bracketed .curly level (isEntry_fieldTexts (level + 1) fields h)

theorem isEntry_itemTexts (level : Nat) (items : List Json) (h : ItemsStrict items) :
    ∀ item ∈ itemTexts level items, IsEntry .square item.toList := by
  match items with
  | [] => nofun
  | j :: js =>
    rw [itemTexts, List.forall_mem_cons]
    exact ⟨isEntry_item (isValue_textAt level j h.1), isEntry_itemTexts level js h.2⟩

theorem isEntry_fieldTexts (level : Nat) (fields : List (String × Json)) (h : FieldsStrict fields) :
    ∀ field ∈ fieldTexts level fields, IsEntry .curly field.toList := by
  match fields with
  | [] => nofun
  | (key, j) :: fields =>
    rw [fieldTexts, List.forall_mem_cons]
    exact ⟨isEntry_field key (isValue_textAt level j h.1), isEntry_fieldTexts level fields h.2⟩

end

mutual

theorem isWordy_textAt (level : Nat) (j : Json) (h : ¬j.Strict) : IsWordy (textAt level j).toList := by
  match j with
  | null | bool _ | string _ => exact absurd trivial h
  | number n =>
    rw [textAt]
    exact isWordy_numberText h
  | array items =>
    rw [textAt]
    obtain ⟨hitems, hsome⟩ := isWordy_itemTexts (level + 1) items
    exact isWordy_bracketed .square level hitems (hsome h)
  | object fields =>
    rw [textAt]
    obtain ⟨hfields, hsome⟩ := isWordy_fieldTexts (level + 1) fields
    exact isWordy_bracketed .curly level hfields (hsome h)

theorem isWordy_itemTexts (level : Nat) (items : List Json) :
    (∀ item ∈ itemTexts level items, IsEntry .square item.toList ∨ IsWordy item.toList) ∧
      (¬ItemsStrict items → ∃ item ∈ itemTexts level items, IsWordy item.toList) := by
  match items with
  | [] => exact ⟨nofun, fun h => absurd trivial h⟩
  | j :: js =>
    obtain ⟨hitems, hsome⟩ := isWordy_itemTexts level js
    rw [itemTexts, List.forall_mem_cons]
    by_cases hj : j.Strict
    · refine ⟨⟨.inl (isEntry_item (isValue_textAt level j hj)), hitems⟩, fun h => ?_⟩
      obtain ⟨item, hitem, hword⟩ := hsome fun hjs => h ⟨hj, hjs⟩
      exact ⟨item, List.mem_cons_of_mem _ hitem, hword⟩
    · have hword := isWordy_textAt level j hj
      exact ⟨⟨.inr hword, hitems⟩, fun _ => ⟨_, List.mem_cons_self, hword⟩⟩

theorem isWordy_fieldTexts (level : Nat) (fields : List (String × Json)) :
    (∀ field ∈ fieldTexts level fields, IsEntry .curly field.toList ∨ IsWordy field.toList) ∧
      (¬FieldsStrict fields → ∃ field ∈ fieldTexts level fields, IsWordy field.toList) := by
  match fields with
  | [] => exact ⟨nofun, fun h => absurd trivial h⟩
  | (key, j) :: fields =>
    obtain ⟨hfields, hsome⟩ := isWordy_fieldTexts level fields
    rw [fieldTexts, List.forall_mem_cons]
    by_cases hj : j.Strict
    · refine ⟨⟨.inl (isEntry_field key (isValue_textAt level j hj)), hfields⟩, fun h => ?_⟩
      obtain ⟨field, hfield, hword⟩ := hsome fun hrest => h ⟨hj, hrest⟩
      exact ⟨field, List.mem_cons_of_mem _ hfield, hword⟩
    · have hword := isWordy_field key (isWordy_textAt level j hj)
      exact ⟨⟨.inr hword, hfields⟩, fun _ => ⟨_, List.mem_cons_self, hword⟩⟩

end

theorem head?_text (fields : List (String × Json)) : (object fields).text.toList.head? = some '\x7b' := by
  have hbracketed (items : List String) : (bracketed 0 "\x7b" "\x7d" items).toList.head? = some '\x7b' := by
    unfold bracketed
    split
    · rfl
    · simp only [String.toList_append, List.append_assoc]
      rfl
  rw [text, textAt]
  exact hbracketed _

/-- The text of a document with fields is one object of the grammar if all its numbers are finite, and only
then. -/
theorem isObject_text_iff (fields : List (String × Json)) :
    IsObject (object fields).text ↔ (object fields).Strict := by
  constructor
  · rintro ⟨-, hvalue⟩
    by_contra hstrict
    obtain ⟨front, hfront, hunquoted⟩ := hvalue.wordless
    obtain ⟨c, hc, hword⟩ := isWordy_textAt 0 _ hstrict []
    have hends : unquoted .outside [] = [] := rfl
    rw [hends, List.append_nil] at hunquoted
    rw [List.append_nil, ← text, hunquoted] at hc
    rcases hword with rfl | rfl
    · exact (hfront _ hc).1 rfl
    · exact (hfront _ hc).2 rfl
  · intro hstrict
    have hvalue := isValue_textAt 0 _ hstrict []
    rw [List.append_nil] at hvalue
    exact ⟨head?_text fields, hvalue⟩

end PrimePaths.Json
