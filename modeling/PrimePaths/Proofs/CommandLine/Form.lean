import PrimePaths.Proofs.CommandLine.Arguments
import PrimePaths.Proofs.CommandLine.StandardOutput
import PrimePaths.Proofs.Number.Elapsed

namespace PrimePaths.CommandLine

namespace Call

/-- The same call with a request for JSON in front of its arguments. -/
def withJson (c : Call) : Call :=
  { c with argv := "--json" :: c.argv }

variable {c : Call} {a : Arguments} {began : Int}

theorem sameRun_withJson (a : Arguments) : a.settled.SameRun a.withJson.settled := by
  unfold Arguments.settled
  split
  · exact ⟨rfl, rfl, rfl⟩
  · exact ⟨rfl, rfl, rfl⟩

/-- Both calls come to the same results or fail in the same way. -/
theorem pursued_withJson (c : Call) {a : Arguments} (h : a.settled.options.limits.Writable) (began : Int) :
    (c.withJson.pursued a.withJson.settled began).2 =
      (c.pursued a.settled began).2.map fun r =>
        { r with argv := c.withJson.argv, arguments := a.withJson.settled } :=
  (pursue_congr c (sameRun_withJson a) h c.argv c.withJson.argv began { nanoseconds := 1 }).1

/-- The clocks answer when they are asked for the time, in nanoseconds by numbers of 64 bits, with or without
a sign. -/
structure Reads64 (c : Call) : Prop where
  nanoseconds : ∀ k, ∃ i : Int, c.recording.nanoseconds k = .ok i ∧ i.natAbs < 2 ^ 64
  today : ∀ k, ∃ t, c.recording.today k = .ok t

theorem exists_timeLines (hclock : c.Reads64) {k : Nat} (hbegan : c.recording.nanoseconds k = .ok began)
    {argv : List String} {r : RunResult} (hr : r.IsOf c argv a began) (o : Options) :
    ∃ lines, timeLines r.elapsed o = .ok lines := by
  obtain ⟨n, ended, hended, helapsed⟩ := hr.elapsed
  have hspan : (ended - began).natAbs ≤ 2 ^ 65 := by
    obtain ⟨i, hi, hbefore⟩ := hclock.nanoseconds k
    obtain ⟨j, hj, hafter⟩ := hclock.nanoseconds n
    obtain rfl := Except.ok.inj (hbegan.symm.trans hi)
    obtain rfl := Except.ok.inj (hended.symm.trans hj)
    omega
  obtain ⟨whole, hwhole⟩ := Elapsed.exists_nanosecondsOfSeconds hspan helapsed
  unfold timeLines
  split
  · rw [hwhole]
    exact ⟨_, rfl⟩
  · exact ⟨[], rfl⟩

/-- What a document needs is there where the version can be read, the file of the arguments, and the time. -/
theorem exists_particularsOf (hclock : c.Reads64)
    (hversion : ∃ v, Version.ofFile (c.read c.sourceFile) = .ok v)
    (hbytes : ∃ bytes, c.read a.filename = .ok bytes) (began : Int) :
    ∃ p, c.particularsOf a began = .ok p := by
  obtain ⟨v, hv⟩ := hversion
  obtain ⟨bytes, hbytes⟩ := hbytes
  rw [particularsOf, particulars_run]
  generalize ((pursue c.surroundings c.argv a began).run { nanoseconds := 1 }).2 = t
  obtain ⟨named, hnamed⟩ := hclock.today t.today
  obtain ⟨dated, hdated⟩ := hclock.today (t.today + 1)
  exact ⟨{ version := v, named, dated, bytes }, by rw [hv, hnamed, hdated, hbytes]; rfl⟩

/-- What a call comes to is decided by its results, in either form of the answer. -/
theorem verdict_accountOf (hclock : c.Reads64) {k : Nat} (hbegan : c.recording.nanoseconds k = .ok began)
    (hversion : ∃ v, Version.ofFile (c.read c.sourceFile) = .ok v) (a : Arguments) :
    (c.accountOf a began).outcome.map Prod.fst =
      (c.pursued a began).2.map fun r => (overall r.analyses).exitCode := by
  rw [accountOf_eq]
  have hresult (r : RunResult) (hr : (c.pursued a began).2 = .ok r) : r.IsOf c c.argv a began :=
    isOf_of_pursue hr
  generalize c.pursued a began = pursued at hresult
  obtain ⟨said, _ | r⟩ := pursued
  · rfl
  · have hr := hresult r rfl
    obtain ⟨p, hp⟩ := exists_particularsOf hclock hversion hr.bytes began
    obtain ⟨lines, hlines⟩ := exists_timeLines hclock hbegan hr r.arguments.options
    dsimp only
    split
    · rw [documentOf, hp]
      rfl
    · rw [Account.ofReport, hlines]
      rfl

end Call

/-- The end that a verdict leads to, told by a document or not. -/
def Ending.ofVerdict (json : Bool) : Except RunFailure Int → Ending
  | .ok code => .exit code
  | .error f => if json then .exit f.note.exitCode else f.complaint.2

theorem ending_transcript (x : Account) (argv : List String) (filename : String) (json : Bool) :
    (x.transcript argv filename json).ending = .ofVerdict json (x.outcome.map Prod.fst) := by
  obtain ⟨said, _ | verdict⟩ := x
  · cases json <;> rfl
  · rfl

section Calls

variable {c : Call} {a : Arguments}

theorem asks_of_not_mem {argv : List String} (h : ∀ text ∈ ["--json", "-h", "--help"], text ∉ argv) :
    asksJson argv = false ∧ asksHelp argv = false ∧ asksHelp ("--json" :: argv) = false := by
  have hjson := h "--json" (by decide)
  have hshort := h "-h" (by decide)
  have hlong := h "--help" (by decide)
  simp [asksJson, asksHelp, hjson, hshort, hlong]

/-- Both calls end as the same verdict says, told in the form that is asked for. -/
theorem ending_withJson {began : Int} (hbegan : c.recording.nanoseconds 0 = .ok began)
    (haccepted : Arguments.ofCommandLine c.dialect c.argv = .ok a)
    (hplain : ∀ text ∈ ["--json", "-h", "--help"], text ∉ c.argv) (hclock : c.Reads64)
    (hversion : ∃ v, Version.ofFile (c.read c.sourceFile) = .ok v) :
    let x := c.withJson.accountOf a.withJson.settled began
    c.transcript.ending = .ofVerdict a.json (x.outcome.map Prod.fst) ∧
      c.withJson.transcript = x.transcript c.withJson.argv a.filename true := by
  obtain ⟨hjson, hhelp, hhelpful⟩ := asks_of_not_mem hplain
  have hbefore := c.verdict_accountOf hclock hbegan hversion a.settled
  have hclock' : c.withJson.Reads64 := ⟨hclock.nanoseconds, hclock.today⟩
  have hafter := c.withJson.verdict_accountOf hclock' hbegan hversion a.withJson.settled
  have hwritten : a.settled.options.limits.Writable := by
    rw [Arguments.settled]
    split <;> exact (Arguments.writable_of_accepted haccepted).limits
  have hsame : (c.withJson.accountOf a.withJson.settled began).outcome.map Prod.fst =
      (c.accountOf a.settled began).outcome.map Prod.fst := by
    rw [hbefore, hafter, Call.pursued_withJson c hwritten]
    cases (c.pursued a.settled began).2 <;> rfl
  constructor
  · rw [Call.transcript_of_accepted hbegan haccepted hhelp, ending_transcript, hsame, hjson, Bool.false_or]
  · exact Call.transcript_of_accepted hbegan (Arguments.ofCommandLine_json haccepted) hhelpful

/-- Where the version can be read, a request for JSON in front of the arguments leaves the exit code as it
is, and a run that would crash ends by an error that names the crash. -/
theorem verdict_withJson (c : Call) {a : Arguments}
    (haccepted : Arguments.ofCommandLine c.dialect c.argv = .ok a)
    (hplain : ∀ text ∈ ["--json", "-h", "--help"], text ∉ c.argv) (hclock : c.Reads64)
    (hversion : ∃ v, Version.ofFile (c.read c.sourceFile) = .ok v) :
    ∃ j, c.withJson.transcript.documents = [j] ∧
      ((∃ code, c.transcript.ending = .exit code ∧ c.withJson.transcript.ending = .exit code ∧
          j.at? ["results", "summary", "exit_code"] = some (.int code)) ∨
        ∃ x, c.transcript.ending = .crashed x ∧ c.withJson.transcript.ending = .exit 1 ∧
          j.at? ["results", "error", "code"] = some (.string "INTERNAL") ∧
          j.at? ["results", "error", "details", "exception_type"] = some (.string x.kind)) := by
  obtain ⟨began, hbegan, -⟩ := hclock.nanoseconds 0
  obtain ⟨hending, htranscript⟩ := ending_withJson hbegan haccepted hplain hclock hversion
  have hsaid := c.withJson.plain_accountOf a.withJson.settled began
  have hconsistent := consistent_transcript c.withJson
  have hending' : c.withJson.transcript.ending = .ofVerdict true
      ((c.withJson.accountOf a.withJson.settled began).outcome.map Prod.fst) := by
    rw [htranscript, ending_transcript]
  cases houtcome : (c.withJson.accountOf a.withJson.settled began).outcome with
  | ok verdict =>
    obtain ⟨r, -, -, hsome, -⟩ := Call.accountOf_eq_ok houtcome
    obtain ⟨j, hj⟩ := Option.isSome_iff_exists.mp (hsome.trans (show a.withJson.settled.json = true from rfl))
    rw [houtcome] at hending hending'
    have hdocuments : c.withJson.transcript.documents = [j] := by
      rw [htranscript, documents_of_verdict hsaid houtcome, hj]
      rfl
    refine ⟨j, hdocuments, Or.inl ⟨verdict.1, hending, hending', ?_⟩⟩
    obtain ⟨code, hcode, htells⟩ := hconsistent.exit j (by simp [hdocuments])
    obtain rfl := Ending.exit.inj (hcode.symm.trans hending')
    exact htells.exitCode
  | error f =>
    rw [houtcome] at hending hending'
    have hdocuments : c.withJson.transcript.documents =
        [errorDocument c.withJson.argv (some a.filename) f.note] := by
      rw [htranscript, Account.transcript, houtcome]
      exact documents_failed hsaid c.withJson.argv a.filename true f
    have hexit := (tellsExit_errorDocument c.withJson.argv (some a.filename) f.exitCode_note).exitCode
    refine ⟨_, hdocuments, ?_⟩
    cases hform : a.json with
    | true =>
      rw [hform] at hending
      exact Or.inl ⟨f.note.exitCode, hending, hending', hexit⟩
    | false =>
      rw [hform] at hending
      cases f with
      | input e => exact Or.inl ⟨_, hending, hending', hexit⟩
      | interrupted => exact Or.inl ⟨_, hending, hending', hexit⟩
      | crash x => exact Or.inr ⟨x, hending, hending', rfl, rfl⟩

/-- A listing is analyzed in both forms. -/
theorem verdict_withJson_listing :
    ∃ j, (Call.besideListing "# Version 1".toUTF8 ["listing"]).withJson.transcript.documents = [j] ∧
      ((∃ code, (Call.besideListing "# Version 1".toUTF8 ["listing"]).transcript.ending = .exit code ∧
          (Call.besideListing "# Version 1".toUTF8 ["listing"]).withJson.transcript.ending = .exit code ∧
          j.at? ["results", "summary", "exit_code"] = some (.int code)) ∨
        ∃ x, (Call.besideListing "# Version 1".toUTF8 ["listing"]).transcript.ending = .crashed x ∧
          (Call.besideListing "# Version 1".toUTF8 ["listing"]).withJson.transcript.ending = .exit 1 ∧
          j.at? ["results", "error", "code"] = some (.string "INTERNAL") ∧
          j.at? ["results", "error", "details", "exception_type"] = some (.string x.kind)) := by
  have haccepted : Arguments.ofCommandLine .later ["listing"] = .ok { filename := "listing" } := by
    decide +kernel
  have hversion : Version.ofFile (.ok "# Version 1".toUTF8) = .ok (some 1) := by decide +kernel
  exact verdict_withJson (Call.besideListing "# Version 1".toUTF8 ["listing"]) haccepted (by decide)
    ⟨fun _ => ⟨0, rfl, by decide⟩, fun _ => ⟨.epoch, rfl⟩⟩ ⟨some 1, hversion⟩

/-- A file for the version that is no text makes the answer in JSON an error, and leaves the other one. -/
theorem exit_withJson_unreadable :
    Arguments.ofCommandLine .later ["listing"] = .ok { filename := "listing" } ∧
      (∀ text ∈ ["--json", "-h", "--help"], text ∉ ["listing"]) ∧
      (Call.besideListing ⟨#[0xff]⟩ ["listing"]).Reads64 ∧
      (Call.besideListing ⟨#[0xff]⟩ ["listing"]).transcript.ending = .exit 0 ∧
      (Call.besideListing ⟨#[0xff]⟩ ["listing"]).withJson.transcript.ending = .exit 1 :=
  ⟨by decide +kernel, by decide, ⟨fun _ => ⟨0, rfl, by decide⟩, fun _ => ⟨.epoch, rfl⟩⟩,
    by decide +kernel, by decide +kernel⟩

end Calls

end PrimePaths.CommandLine
