import PrimePaths.Listing.Line
import PrimePaths.Proofs.Text.Words

namespace PrimePaths.LineContent

open PrimePaths.Text

/-- The word is `live` or `dead`, in letters of either case. -/
def IsStatus (live : Bool) (word : List Char) : Prop :=
  word.map Char.toLower = (if live then "live" else "dead").toList

def Clean (body : List Char) : Prop :=
  ∀ c ∈ body, isControl c = false

/-- A body is empty, or it has no control character and is a unit header or a block. -/
inductive Spells (body : List Char) : LineContent → Prop
  | nothing (hbody : body = []) : Spells body .nothing
  | header {name : List Char} (hclean : Clean body) (hwords : words body = ["FUNC".toList, name])
    (hname : isName name = true) : Spells body (.header (String.ofList name))
  | block {b : BlockLine} {status : List Char} (hclean : Clean body)
    (hwords : words body = b.index :: status :: b.succs)
    (hindices : ∀ w ∈ b.index :: b.succs, isIndex w = true) (hstatus : IsStatus b.live status) :
    Spells body (.block b)

/-- What is wrong with a body; the first thing that is wrong counts. -/
inductive Faulty (body : List Char) : LineProblem → Prop
  | controlCharacter (hcontrol : ¬Clean body) : Faulty body .controlCharacter
  | malformedHeader {rest : List (List Char)} (hclean : Clean body)
    (hwords : words body = "FUNC".toList :: rest) (hrest : rest.length ≠ 1) :
    Faulty body (.malformedHeader (String.ofList body))
  | invalidName {name : List Char} (hclean : Clean body)
    (hwords : words body = ["FUNC".toList, name]) (hname : isName name = false) :
    Faulty body (.invalidName (String.ofList name))
  | incompleteBlock {first : List Char} (hclean : Clean body) (hwords : words body = [first])
    (hfirst : first ≠ "FUNC".toList) : Faulty body (.incompleteBlock (String.ofList body))
  | invalidIndex {first status bad : List Char} {succs before after : List (List Char)}
    (hclean : Clean body) (hwords : words body = first :: status :: succs)
    (hfirst : first ≠ "FUNC".toList) (hindices : first :: succs = before ++ bad :: after)
    (hbefore : ∀ w ∈ before, isIndex w = true) (hbad : isIndex bad = false) :
    Faulty body (.invalidIndex (String.ofList bad))
  | invalidStatus {first status : List Char} {succs : List (List Char)}
    (hclean : Clean body) (hwords : words body = first :: status :: succs)
    (hindices : ∀ w ∈ first :: succs, isIndex w = true) (hstatus : ∀ live, ¬IsStatus live status) :
    Faulty body (.invalidStatus (String.ofList status))

theorem status?_eq_some_iff {word : List Char} {live : Bool} :
    status? word = some live ↔ IsStatus live word := by
  have hword (s : String) : String.ofList (word.map Char.toLower) = s ↔ word.map Char.toLower = s.toList := by
    rw [← String.toList_inj, String.toList_ofList]
  simp only [status?, IsStatus, hword]
  by_cases hlive : word.map Char.toLower = "live".toList
  · rw [if_pos hlive, hlive]
    cases live <;> simp
  · rw [if_neg hlive]
    cases live with
    | true => simpa using hlive
    | false => simp

theorem ne_func_of_isIndex {w : List Char} (h : isIndex w = true) : w ≠ "FUNC".toList := by
  rintro rfl
  exact absurd h (by decide)

variable {line : List Char} {c : LineContent} {p : LineProblem}

theorem read_of_body_nil (h : body line = []) : read line = .ok .nothing := by
  simp [read, h]

theorem clean_nil : Clean [] := by
  simp [Clean]

theorem read_of_not_clean (h : ¬Clean (body line)) : read line = .error .controlCharacter := by
  have hne : (body line).isEmpty = false := by
    rw [List.isEmpty_eq_false_iff]
    intro hnil
    exact h (hnil ▸ clean_nil)
  have hcontrol : (body line).any isControl = true := by
    simpa [Clean] using h
  simp [read, hne, hcontrol]

/-- The words of a clean line decide what is read, and there are some if its body is not empty. -/
theorem read_of_clean {first : List Char} {rest : List (List Char)} (h : Clean (body line))
    (hwords : words (body line) = first :: rest) :
    read line = ofWords (body line) (first :: rest) := by
  have hne : (body line).isEmpty = false := by
    rw [List.isEmpty_eq_false_iff]
    intro hnil
    rw [hnil, words_nil] at hwords
    simp at hwords
  have hcontrol : (body line).any isControl = false := by
    simpa [Clean] using h
  simp [read, hne, hcontrol, hwords]

section Words

variable {text first status : List Char} {succs : List (List Char)}

theorem ofWords_of_bad {bad : List Char} (hfirst : first ≠ "FUNC".toList)
    (hbad : (first :: succs).find? (!isIndex ·) = some bad) :
    ofWords text (first :: status :: succs) = .error (.invalidIndex (String.ofList bad)) := by
  simp only [ofWords, if_neg hfirst, hbad]

theorem ofWords_of_indices (h : ∀ w ∈ first :: succs, isIndex w = true) :
    ofWords text (first :: status :: succs) =
      match status? status with
      | none => .error (.invalidStatus (String.ofList status))
      | some live => .ok (.block { index := first, live, succs }) := by
  have hfirst := ne_func_of_isIndex (h first List.mem_cons_self)
  have hnone : (first :: succs).find? (!isIndex ·) = none := by
    rw [List.find?_eq_none]
    intro w hw
    simp [h w hw]
  cases hstatus : status? status <;> simp only [ofWords, if_neg hfirst, hnone, hstatus]

end Words

theorem read_of_spells (h : Spells (body line) c) : read line = .ok c := by
  cases h with
  | nothing hbody => exact read_of_body_nil hbody
  | header hclean hwords hname =>
    rw [read_of_clean hclean hwords, ofWords, if_pos rfl]
    simp only [if_pos hname]
  | block hclean hwords hindices hstatus =>
    rw [read_of_clean hclean hwords, ofWords_of_indices hindices, status?_eq_some_iff.mpr hstatus]

theorem read_of_faulty (h : Faulty (body line) p) : read line = .error p := by
  cases h with
  | controlCharacter hcontrol => exact read_of_not_clean hcontrol
  | @malformedHeader rest hclean hwords hrest =>
    rw [read_of_clean hclean hwords]
    rcases rest with _ | ⟨name, _ | ⟨_, _⟩⟩
    · rfl
    · exact absurd rfl hrest
    · rfl
  | invalidName hclean hwords hname =>
    rw [read_of_clean hclean hwords, ofWords, if_pos rfl]
    simp [hname]
  | incompleteBlock hclean hwords hfirst =>
    rw [read_of_clean hclean hwords, ofWords, if_neg hfirst]
  | @invalidIndex first status bad succs before after hclean hwords hfirst hindices hbefore hbad =>
    have hfind : (first :: succs).find? (!isIndex ·) = some bad := by
      rw [hindices, List.find?_eq_some_iff_append]
      refine ⟨by simp [hbad], before, after, rfl, ?_⟩
      intro w hw
      simp [hbefore w hw]
    rw [read_of_clean hclean hwords, ofWords_of_bad hfirst hfind]
  | @invalidStatus first status succs hclean hwords hindices hstatus =>
    have hnone : status? status = none := by
      rw [Option.eq_none_iff_forall_ne_some]
      intro live hlive
      exact hstatus live (status?_eq_some_iff.mp hlive)
    rw [read_of_clean hclean hwords, ofWords_of_indices hindices, hnone]

/-- Every body is good or bad. -/
theorem spells_or_faulty (line : List Char) :
    (∃ c, Spells (body line) c) ∨ ∃ p, Faulty (body line) p := by
  by_cases hbody : body line = []
  · exact Or.inl ⟨_, .nothing hbody⟩
  by_cases hclean : Clean (body line)
  swap
  · exact Or.inr ⟨_, .controlCharacter hclean⟩
  cases hwords : words (body line) with
  | nil => exact absurd hwords (words_strip_ne_nil hbody)
  | cons first rest =>
  by_cases hfirst : first = "FUNC".toList
  · subst hfirst
    by_cases hrest : rest.length = 1
    · obtain ⟨name, rfl⟩ := List.length_eq_one_iff.mp hrest
      cases hname : isName name with
      | true => exact Or.inl ⟨_, .header hclean hwords hname⟩
      | false => exact Or.inr ⟨_, .invalidName hclean hwords hname⟩
    · exact Or.inr ⟨_, .malformedHeader hclean hwords hrest⟩
  cases rest with
  | nil => exact Or.inr ⟨_, .incompleteBlock hclean hwords hfirst⟩
  | cons status succs =>
  cases hfind : (first :: succs).find? (!isIndex ·) with
  | some bad =>
    obtain ⟨hbad, before, after, hindices, hbefore⟩ := List.find?_eq_some_iff_append.mp hfind
    refine Or.inr ⟨_, .invalidIndex hclean hwords hfirst hindices ?_ (by simpa using hbad)⟩
    intro w hw
    simpa using hbefore w hw
  | none =>
    have hindices : ∀ w ∈ first :: succs, isIndex w = true := by
      intro w hw
      simpa using List.find?_eq_none.mp hfind w hw
    cases hstatus : status? status with
    | some live =>
      exact Or.inl ⟨_, .block (b := { index := first, live, succs }) hclean hwords hindices
        (status?_eq_some_iff.mp hstatus)⟩
    | none =>
      refine Or.inr ⟨_, .invalidStatus hclean hwords hindices fun live hlive => ?_⟩
      rw [status?_eq_some_iff.mpr hlive] at hstatus
      simp at hstatus

theorem read_eq_ok_iff : read line = .ok c ↔ Spells (body line) c := by
  refine ⟨?_, read_of_spells⟩
  intro h
  rcases spells_or_faulty line with ⟨c', hspells⟩ | ⟨p, hfaulty⟩
  · obtain rfl := Except.ok.inj ((read_of_spells hspells).symm.trans h)
    exact hspells
  · rw [read_of_faulty hfaulty] at h
    simp at h

end PrimePaths.LineContent
