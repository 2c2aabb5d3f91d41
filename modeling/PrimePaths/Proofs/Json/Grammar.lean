namespace PrimePaths.Json

inductive Blanks : List Char → List Char → Prop
  | none {rest : List Char} : Blanks rest rest
  | more {c : Char} {cs rest : List Char} :
    c ∈ [' ', '\t', '\n', '\r'] → Blanks cs rest → Blanks (c :: cs) rest

inductive Digits : List Char → List Char → Prop
  | one {c : Char} {rest : List Char} : c.isDigit = true → Digits (c :: rest) rest
  | more {c : Char} {cs rest : List Char} : c.isDigit = true → Digits cs rest → Digits (c :: cs) rest

/-- The digits before a point; a zero begins no others. -/
inductive Whole : List Char → List Char → Prop
  | zero {rest : List Char} : Whole ('0' :: rest) rest
  | digits {c : Char} {cs rest : List Char} : c ≠ '0' → Digits (c :: cs) rest → Whole (c :: cs) rest

inductive Fraction : List Char → List Char → Prop
  | none {rest : List Char} : Fraction rest rest
  | some {cs rest : List Char} : Digits cs rest → Fraction ('.' :: cs) rest

inductive Exponent : List Char → List Char → Prop
  | none {rest : List Char} : Exponent rest rest
  | some {c : Char} {sign cs rest : List Char} :
    c ∈ ['e', 'E'] → sign ∈ [[], ['+'], ['-']] → Digits cs rest → Exponent (c :: (sign ++ cs)) rest

inductive Numeral : List Char → List Char → Prop
  | parts {sign a b c rest : List Char} :
    sign ∈ [[], ['-']] → Whole a b → Fraction b c → Exponent c rest → Numeral (sign ++ a) rest

def isHexDigit (c : Char) : Bool :=
  c.isDigit || ('a' ≤ c && c ≤ 'f') || ('A' ≤ c && c ≤ 'F')

/-- The inside of a string with the quotation mark behind it. -/
inductive Characters : List Char → List Char → Prop
  | close {rest : List Char} : Characters ('"' :: rest) rest
  | plain {c : Char} {cs rest : List Char} :
    0x20 ≤ c.toNat → c ≠ '"' → c ≠ '\\' → Characters cs rest → Characters (c :: cs) rest
  | escape {c : Char} {cs rest : List Char} :
    c ∈ ['"', '\\', '/', 'b', 'f', 'n', 'r', 't'] → Characters cs rest → Characters ('\\' :: c :: cs) rest
  | code {ds cs rest : List Char} :
    ds.length = 4 → (∀ d ∈ ds, isHexDigit d = true) → Characters cs rest →
      Characters ('\\' :: 'u' :: (ds ++ cs)) rest

inductive Bracket
  | square
  | curly

def Bracket.left : Bracket → Char
  | square => '['
  | curly => '\x7b'

def Bracket.right : Bracket → Char
  | square => ']'
  | curly => '\x7d'

inductive Part
  | value
  /-- One of the entries in brackets. -/
  | entry (k : Bracket)
  /-- The entries in brackets, from one of them up to the right bracket. -/
  | entries (k : Bracket)

inductive Derives : Part → List Char → List Char → Prop
  | word {w : String} {rest : List Char} :
    w ∈ ["null", "true", "false"] → Derives .value (w.toList ++ rest) rest
  | number {cs rest : List Char} : Numeral cs rest → Derives .value cs rest
  | string {cs rest : List Char} : Characters cs rest → Derives .value ('"' :: cs) rest
  | empty {k : Bracket} {cs rest : List Char} :
    Blanks cs (k.right :: rest) → Derives .value (k.left :: cs) rest
  | full {k : Bracket} {cs rest : List Char} :
    Derives (.entries k) cs rest → Derives .value (k.left :: cs) rest
  | item {a b rest : List Char} : Blanks a b → Derives .value b rest → Derives (.entry .square) a rest
  | field {a b c d e rest : List Char} :
    Blanks a ('"' :: b) → Characters b c → Blanks c (':' :: d) → Blanks d e → Derives .value e rest →
      Derives (.entry .curly) a rest
  | last {k : Bracket} {a b rest : List Char} :
    Derives (.entry k) a b → Blanks b (k.right :: rest) → Derives (.entries k) a rest
  | more {k : Bracket} {a b c rest : List Char} :
    Derives (.entry k) a b → Blanks b (',' :: c) → Derives (.entries k) c rest → Derives (.entries k) a rest

/-- The text is one object from its first character to its last. -/
def IsObject (text : String) : Prop :=
  text.toList.head? = some '\x7b' ∧ Derives .value text.toList []

section Unquoted

variable {c : Char} {a b cs rest : List Char}

/-- How a character stands to the strings of a text. -/
inductive Quotation
  | outside
  | inside
  | escaped

def Quotation.next : Quotation → Char → Quotation
  | outside, c => if c = '"' then inside else outside
  | inside, c => if c = '\\' then escaped else if c = '"' then outside else inside
  | escaped, _ => inside

/-- The characters of a text outside its strings. -/
def unquoted : Quotation → List Char → List Char
  | _, [] => []
  | .outside, c :: cs => if c = '"' then unquoted .inside cs else c :: unquoted .outside cs
  | q, c :: cs => unquoted (q.next c) cs

theorem unquoted_outside (h : c ≠ '"') (cs : List Char) :
    unquoted .outside (c :: cs) = c :: unquoted .outside cs := by
  rw [unquoted, if_neg h]

theorem unquoted_inside (hquote : c ≠ '"') (hslash : c ≠ '\\') (cs : List Char) :
    unquoted .inside (c :: cs) = unquoted .inside cs := by
  rw [unquoted, Quotation.next, if_neg hslash, if_neg hquote]
  exact Quotation.noConfusion

theorem unquoted_hexDigits {ds : List Char} (h : ∀ d ∈ ds, isHexDigit d = true) (cs : List Char) :
    unquoted .inside (ds ++ cs) = unquoted .inside cs := by
  induction ds with
  | nil => rfl
  | cons d ds ih =>
    have hd := h d List.mem_cons_self
    have hquote : d ≠ '"' := by
      rintro rfl
      revert hd
      decide
    have hslash : d ≠ '\\' := by
      rintro rfl
      revert hd
      decide
    rw [List.cons_append, unquoted_inside hquote hslash, ih fun d' hd' => h d' (List.mem_cons_of_mem d hd')]

theorem Characters.unquoted_eq (h : Characters cs rest) :
    unquoted .inside cs = unquoted .outside rest := by
  induction h with
  | close => rfl
  | plain _ hquote hslash _ ih => rw [unquoted_inside hquote hslash, ih]
  | escape _ _ ih => exact ih
  | @code ds cs rest _ hhex _ ih =>
    change unquoted .inside (ds ++ cs) = _
    rw [unquoted_hexDigits hhex, ih]

/-- A text from which the rest of it follows without a letter that begins a word for a number. -/
def Wordless (cs rest : List Char) : Prop :=
  ∃ front, (∀ c ∈ front, c ≠ 'N' ∧ c ≠ 'I') ∧ unquoted .outside cs = front ++ unquoted .outside rest

namespace Wordless

theorem refl (rest : List Char) : Wordless rest rest :=
  ⟨[], nofun, rfl⟩

theorem trans (hab : Wordless a b) (hb : Wordless b rest) : Wordless a rest := by
  obtain ⟨front, hfront, ha⟩ := hab
  obtain ⟨more, hmore, hb⟩ := hb
  exact ⟨front ++ more, List.forall_mem_append.mpr ⟨hfront, hmore⟩, by rw [ha, hb, List.append_assoc]⟩

theorem cons (hquote : c ≠ '"') (hc : c ≠ 'N' ∧ c ≠ 'I') (h : Wordless cs rest) :
    Wordless (c :: cs) rest := by
  refine trans ⟨[c], ?_, unquoted_outside hquote cs⟩ h
  intro d hd
  obtain rfl := List.mem_singleton.mp hd
  exact hc

/-- One of a few characters, none of which begins a string or a word. -/
theorem consOf {allowed : List Char} (hallowed : ∀ c ∈ allowed, c ≠ '"' ∧ c ≠ 'N' ∧ c ≠ 'I')
    (hc : c ∈ allowed) (h : Wordless cs rest) : Wordless (c :: cs) rest :=
  cons (hallowed c hc).1 (hallowed c hc).2 h

theorem digit (hc : c.isDigit = true) (h : Wordless cs rest) : Wordless (c :: cs) rest := by
  refine cons ?_ ⟨?_, ?_⟩ h <;> (rintro rfl; revert hc; decide)

theorem append {front : List Char} (h : ∀ c ∈ front, c ≠ '"' ∧ c ≠ 'N' ∧ c ≠ 'I') (rest : List Char) :
    Wordless (front ++ rest) rest := by
  induction front with
  | nil => exact refl rest
  | cons c cs ih => exact consOf h List.mem_cons_self (ih fun d hd => h d (List.mem_cons_of_mem c hd))

theorem string (h : Characters cs rest) : Wordless ('"' :: cs) rest := by
  refine ⟨[], nofun, ?_⟩
  rw [unquoted, if_pos rfl, h.unquoted_eq, List.nil_append]

end Wordless

theorem Blanks.wordless (h : Blanks cs rest) : Wordless cs rest := by
  induction h with
  | none => exact .refl _
  | more hc _ ih => exact .consOf (by simp) hc ih

theorem Digits.wordless (h : Digits cs rest) : Wordless cs rest := by
  induction h with
  | one hc => exact .digit hc (.refl _)
  | more hc _ ih => exact .digit hc ih

theorem Whole.wordless (h : Whole cs rest) : Wordless cs rest := by
  cases h with
  | zero => exact .digit rfl (.refl _)
  | digits _ h => exact h.wordless

theorem Fraction.wordless (h : Fraction cs rest) : Wordless cs rest := by
  cases h with
  | none => exact .refl _
  | some h => exact .cons (by decide) (by decide) h.wordless

theorem Wordless.sign {sign : List Char} (hsign : sign ∈ [[], ['+'], ['-']]) (h : Wordless cs rest) :
    Wordless (sign ++ cs) rest := by
  simp only [List.mem_cons, List.not_mem_nil, or_false] at hsign
  rcases hsign with rfl | rfl | rfl
  · exact h
  · exact .cons (by decide) (by decide) h
  · exact .cons (by decide) (by decide) h

theorem Exponent.wordless (h : Exponent cs rest) : Wordless cs rest := by
  cases h with
  | none => exact .refl _
  | some hc hsign h => exact .consOf (by simp) hc (.sign hsign h.wordless)

theorem Numeral.wordless (h : Numeral cs rest) : Wordless cs rest := by
  cases h with
  | @parts sign _ _ _ _ hsign ha hb hc =>
    have hsigns : ∀ s ∈ ([[], ['-']] : List (List Char)), s ∈ [[], ['+'], ['-']] := by decide
    exact .sign (hsigns sign hsign) (ha.wordless.trans (hb.wordless.trans hc.wordless))

/-- A text of the grammar holds no word for a number outside its strings. -/
theorem Derives.wordless {part : Part} (h : Derives part cs rest) : Wordless cs rest := by
  have hbracket (k : Bracket) :
      (k.left ≠ '"' ∧ k.left ≠ 'N' ∧ k.left ≠ 'I') ∧ k.right ≠ '"' ∧ k.right ≠ 'N' ∧ k.right ≠ 'I' := by
    cases k <;> decide
  have hright (k : Bracket) (rest : List Char) : Wordless (k.right :: rest) rest :=
    .cons (hbracket k).2.1 (hbracket k).2.2 (.refl rest)
  have hcomma (rest : List Char) : Wordless (',' :: rest) rest :=
    .cons (by decide) (by decide) (.refl rest)
  have hcolon (rest : List Char) : Wordless (':' :: rest) rest :=
    .cons (by decide) (by decide) (.refl rest)
  induction h with
  | @word w rest hw =>
    have hletters : ∀ w ∈ ["null", "true", "false"], ∀ c ∈ w.toList, c ≠ '"' ∧ c ≠ 'N' ∧ c ≠ 'I' := by
      simp
    exact .append (hletters w hw) rest
  | number h => exact h.wordless
  | string h => exact .string h
  | @empty k _ rest h => exact .cons (hbracket k).1.1 (hbracket k).1.2 (h.wordless.trans (hright k rest))
  | @full k _ _ _ ih => exact .cons (hbracket k).1.1 (hbracket k).1.2 ih
  | item ha _ ih => exact ha.wordless.trans ih
  | field ha hb hc hd _ ih =>
    exact ha.wordless.trans <| (Wordless.string hb).trans <| hc.wordless.trans <| (hcolon _).trans <|
      hd.wordless.trans ih
  | last _ hb ih => exact ih.trans (hb.wordless.trans (hright _ _))
  | more _ hb _ ih ih' => exact ih.trans (hb.wordless.trans ((hcomma _).trans ih'))

end Unquoted

end PrimePaths.Json
