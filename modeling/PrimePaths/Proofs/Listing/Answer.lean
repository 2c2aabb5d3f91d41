import PrimePaths.Proofs.Except
import PrimePaths.Proofs.Listing.Acceptance

namespace PrimePaths

/-- The code and the message of a failure, without its details. -/
def LoadFailure.notice : LoadFailure → String × Option String
  | .input e => (e.code, some e.message)
  | .crash c => (c.kind, c.message?)

namespace Listing

open PrimePaths.LineContent

/-- The units of a text, or the notice of what is wrong with it. -/
def answer (path text : String) : Except (String × Option String) (List FlowUnit) :=
  (readText path text).mapError LoadFailure.notice

/-- The reader takes two lines for the same: neither is blank or both are, and they have the same body. -/
structure Alike (l m : List Char) : Prop where
  body : body l = body m
  blank : l.all Text.isBlank = m.all Text.isBlank

theorem Alike.rfl {l : List Char} : Alike l l :=
  ⟨Eq.refl _, Eq.refl _⟩

variable {path : String} {number : Nat} {l m : List Char} {ls ms : List (List Char)}
  {units : List FlowUnit}

theorem Alike.read_eq (h : Alike l m) : read l = read m := by
  unfold LineContent.read
  rw [h.body]

theorem Alike.addLine_eq (h : Alike l m) :
    (addLine path units (number, l)).mapError LoadFailure.notice =
      (addLine path units (number, m)).mapError LoadFailure.notice := by
  simp only [addLine, h.read_eq]
  cases read m with
  | error problem => rfl
  | ok content =>
    cases content with
    | nothing => rfl
    | header name => by_cases hused : (units.any (·.name == name)) = true <;> simp only [hused] <;> rfl
    | block b => rfl

theorem foldlM_addLine_congr (h : List.Forall₂ Alike ls ms) :
    ((numberFrom number ls).foldlM (addLine path) units).mapError LoadFailure.notice =
      ((numberFrom number ms).foldlM (addLine path) units).mapError LoadFailure.notice := by
  induction h generalizing number units with
  | nil => rfl
  | cons hfirst _ ih =>
    rw [numberFrom_cons, numberFrom_cons, List.foldlM_cons, List.foldlM_cons]
    exact Except.mapError_bind_congr hfirst.addLine_eq fun _ => ih

theorem all_isBlank_congr (h : List.Forall₂ Alike ls ms) :
    (ls.all fun l => l.all Text.isBlank) = ms.all fun m => m.all Text.isBlank := by
  induction h with
  | nil => rfl
  | cons hfirst _ ih => rw [List.all_cons, List.all_cons, hfirst.blank, ih]

/-- Lines that are alike one by one have the same answer. -/
theorem answer_congr {A B : String} (h : List.Forall₂ Alike (textLines A) (textLines B)) :
    answer path A = answer path B := by
  change (readLines path (textLines A)).mapError _ = (readLines path (textLines B)).mapError _
  rw [readLines, readLines, all_isBlank_congr h]
  split
  · rfl
  · exact Except.mapError_bind_congr (foldlM_addLine_congr h) fun _ => Eq.refl _

/-- One line may be taken for another one that is alike. -/
theorem answer_congr_line {A B : String} {above below : List (List Char)} (h : Alike l m)
    (hA : textLines A = above ++ l :: below) (hB : textLines B = above ++ m :: below) :
    answer path A = answer path B := by
  have hrefl (ns : List (List Char)) : List.Forall₂ Alike ns ns := List.forall₂_same.mpr fun _ _ => .rfl
  apply answer_congr
  rw [hA, hB]
  exact List.rel_append (hrefl above) (.cons h (hrefl below))

end Listing

end PrimePaths
