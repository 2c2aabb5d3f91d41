import PrimePaths.Proofs.CommandLine.Documents

namespace PrimePaths.CommandLine

theorem RunFailure.exitCode_note (f : RunFailure) : f.note.exitCode = 1 ∨ f.note.exitCode = 130 := by
  cases f with
  | input e => exact Or.inl rfl
  | interrupted => exact Or.inr rfl
  | crash c => exact Or.inl rfl

/-- There is one document at most, and it tells the exit code and of all units that it lists. -/
structure Consistent (ending : Ending) (documents : List Json) : Prop where
  atMostOne : documents.length ≤ 1
  exit : ∀ j ∈ documents, ∃ code, ending = .exit code ∧ TellsExit j code
  units : ∀ j ∈ documents, ∀ value, j.at? ["results", "units"] = some value →
    ∃ units, value = .array units ∧ TellsUnits j units

namespace Consistent

theorem nil (ending : Ending) : Consistent ending [] where
  atMostOne := Nat.zero_le 1
  exit := nofun
  units := nofun

theorem single {code : Int} {j : Json} (hexit : TellsExit j code)
    (hunits : ∀ value, j.at? ["results", "units"] = some value →
      ∃ units, value = .array units ∧ TellsUnits j units) : Consistent (.exit code) [j] where
  atMostOne := Nat.le_refl 1
  exit := by
    intro j' hj'
    obtain rfl := List.mem_singleton.mp hj'
    exact ⟨code, rfl, hexit⟩
  units := by
    intro j' hj'
    obtain rfl := List.mem_singleton.mp hj'
    exact hunits

theorem errorDocument (argv : List String) (filename : Option String) {e : ErrorNote}
    (he : e.exitCode = 1 ∨ e.exitCode = 130) :
    Consistent (.exit e.exitCode) [CommandLine.errorDocument argv filename e] :=
  single (tellsExit_errorDocument argv filename he) nofun

theorem helpDocument (argv : List String) (version : Option Nat) :
    Consistent (.exit 0) [CommandLine.helpDocument argv version] :=
  single (tellsExit_helpDocument argv version) nofun

theorem resultDocument (place : Place) (sourceFile : String) (p : Particulars) {r : RunResult}
    (h : ∀ x ∈ r.analyses, ∃ u : FlowUnit, u.Analyzed x) :
    Consistent (.exit (overall r.analyses).exitCode)
      [CommandLine.resultDocument place sourceFile p r] := by
  refine single (tellsExit_resultDocument place sourceFile p r) ?_
  intro value hvalue
  exact ⟨_, (Option.some.inj hvalue).symm, tellsUnits_resultDocument place sourceFile p h⟩

end Consistent

def Transcript.Consistent (t : Transcript) : Prop :=
  CommandLine.Consistent t.ending t.documents

section Stages

variable {said : List Message}

theorem consistent_helped (argv : List String) (version : Except Crash (Option Nat)) :
    (helped argv version).Consistent := by
  cases version with
  | error c => exact .nil _
  | ok version => exact .helpDocument argv version

theorem consistent_refused (argv : List String) (r : Refusal) : (refused argv r).Consistent := by
  have hnote : r.note.exitCode = 1 ∨ r.note.exitCode = 130 := Or.inl rfl
  unfold refused
  split
  · cases r <;> exact .errorDocument argv none hnote
  · cases r <;> exact .nil _

theorem documents_failed (hsaid : Message.Plain said) (argv : List String) (filename : String)
    (json : Bool) (f : RunFailure) :
    (failed argv filename json said f).documents =
      if json then [errorDocument argv (some filename) f.note] else [] := by
  cases json
  · change (said ++ f.complaint.1).filterMap Transcript.document? = []
    rw [List.filterMap_append, hsaid.documents]
    cases f <;> rfl
  · change (said ++ f.trace ++ [Message.document _]).filterMap Transcript.document? = _
    rw [List.filterMap_append, List.filterMap_append, hsaid.documents]
    cases f <;> rfl

theorem documents_of_verdict {x : Account} (hsaid : Message.Plain x.said) {verdict : Int × Option Json}
    (h : x.outcome = .ok verdict) (argv : List String) (filename : String) (json : Bool) :
    (x.transcript argv filename json).documents = verdict.2.toList := by
  rw [Account.transcript, h]
  change (x.said ++ verdict.2.toList.map Message.document).filterMap Transcript.document? = _
  rw [List.filterMap_append, hsaid.documents]
  cases verdict.2 <;> rfl

theorem consistent_failed (hsaid : Message.Plain said) (argv : List String) (filename : String)
    (json : Bool) (f : RunFailure) : (failed argv filename json said f).Consistent := by
  rw [Transcript.Consistent, documents_failed hsaid]
  cases json
  · exact .nil _
  · exact .errorDocument argv (some filename) f.exitCode_note

theorem consistent_accountOf (c : Call) (a : Arguments) (began : Int) (filename : String) (json : Bool) :
    ((c.accountOf a began).transcript c.argv filename json).Consistent := by
  have hsaid := c.plain_accountOf a began
  cases houtcome : (c.accountOf a began).outcome with
  | error f =>
    rw [Account.transcript, houtcome]
    exact consistent_failed hsaid c.argv filename json f
  | ok verdict =>
    obtain ⟨code, document?⟩ := verdict
    obtain ⟨r, hr, rfl, -, hdocument⟩ := Call.accountOf_eq_ok houtcome
    rw [Transcript.Consistent, documents_of_verdict hsaid houtcome, Account.transcript, houtcome]
    cases document? with
    | none => exact .nil _
    | some j =>
      obtain ⟨p, rfl⟩ := hdocument j rfl
      exact .resultDocument c.place c.sourceFile p hr.analyses

theorem consistent_transcript (c : Call) : c.transcript.Consistent := by
  rw [Call.transcript_eq]
  split
  · exact .nil _
  · split
    · exact consistent_helped _ _
    · split
      · exact consistent_refused _ _
      · exact consistent_accountOf _ _ _ _ _

end Stages

/-- In a process each call writes one document at most, which tells its exit code and agrees with the units
that it lists, and each does what it would do if the flags said anything else before. -/
theorem session_consistent (traceText : Crash → String) (flags : JsonFlags) (calls : List Call) :
    List.Forall₂ (fun c upshot => Consistent upshot.ending upshot.output.documents ∧
        ∀ flags', (c.runFrom traceText flags').1 = upshot)
      calls (Call.session traceText flags calls) := by
  induction calls generalizing flags with
  | nil => exact .nil
  | cons c calls ih =>
    have hrun := c.runFrom_eq traceText
    rw [Call.session, hrun]
    refine .cons ⟨consistent_transcript c, ?_⟩ (ih _)
    intro flags'
    rw [hrun]

end PrimePaths.CommandLine
