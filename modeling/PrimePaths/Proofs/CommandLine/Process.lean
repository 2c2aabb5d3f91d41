import PrimePaths.Proofs.CommandLine.Account

namespace PrimePaths.CommandLine

theorem Transcript.isSome_document? (m : Message) : (document? m).isSome = isDocument m := by
  cases m <;> rfl

/-- What a transcript leaves on a console that was empty. -/
def Transcript.console (traceText : Crash → String) (t : Transcript) : Console where
  flags := { requested := t.jsonRequested, emitted := t.jsonEmitted }
  output := { streams := t.streams traceText, documents := t.documents }

variable (traceText : Crash → String)

theorem Console.foldl_add (ms : List Message) (c : Console) :
    ms.foldl (add traceText) c = {
      flags := { c.flags with emitted := c.flags.emitted || ms.any Transcript.isDocument }
      output := {
        streams := ms.foldl (Streams.add c.flags.requested traceText) c.output.streams
        documents := c.output.documents ++ ms.filterMap Transcript.document? } } := by
  induction ms generalizing c with
  | nil => simp
  | cons m ms ih =>
    rw [List.foldl_cons, ih]
    simp only [add, List.any_cons, List.foldl_cons, Transcript.isSome_document?, Bool.or_assoc]
    cases hm : Transcript.document? m <;> simp [hm]

/-- A call that says messages from the start on leaves the console of its transcript. -/
theorem Console.foldl_add_fresh (json : Bool) (ms : List Message) (e : Ending) :
    ms.foldl (add traceText) { flags := { requested := json } } =
      (Transcript.mk ms json e).console traceText := by
  rw [foldl_add]
  rfl

namespace Act

/-- A failure is told by a document on a console that is kept for one and has none. -/
theorem fail_run (argv : List String) (filename : String) (json : Bool) (f : RunFailure) {c : Console}
    (hc : c.flags = { requested := json }) (t : Readings) :
    ((fail traceText argv filename f).run c).run t =
      if json then
        ((.exit f.note.exitCode,
          (f.trace ++ [Message.document (errorDocument argv (some filename) f.note)]).foldl
            (Console.add traceText) c), t)
      else ((f.complaint.2, f.complaint.1.foldl (Console.add traceText) c), t) := by
  obtain ⟨flags, output⟩ := c
  obtain rfl := hc
  cases json <;> cases f <;> rfl

theorem fail_run_said {said : List Message} (hsaid : Message.Plain said) (argv : List String)
    (filename : String) (json : Bool) (f : RunFailure) (t : Readings) :
    ((fail traceText argv filename f).run
      (said.foldl (Console.add traceText) { flags := { requested := json } })).run t =
        (((failed argv filename json said f).ending,
          (failed argv filename json said f).console traceText), t) := by
  -- Nothing that was said is a document, so that a crash is told, too.
  have hflags : (said.foldl (Console.add traceText) { flags := { requested := json } }).flags =
      { requested := json } := by
    rw [Console.foldl_add]
    simp [hsaid.any_isDocument]
  rw [fail_run traceText argv filename json f hflags, ← List.foldl_append, ← List.foldl_append,
    ← List.append_assoc]
  cases json
  · exact congrArg (fun c => ((f.complaint.2, c), t)) (Console.foldl_add_fresh traceText false _ _)
  · exact congrArg (fun c => ((_, c), t)) (Console.foldl_add_fresh traceText true _ _)

theorem refuse_run (argv : List String) (r : Refusal) (t : Readings) :
    ((refuse traceText argv r).run { flags := { requested := asksJson argv } }).run t =
      (((refused argv r).ending, (refused argv r).console traceText), t) := by
  unfold refused
  cases hjson : asksJson argv <;> cases r <;> rfl

theorem conclude_run (argv : List String) (filename : String) (json : Bool) {x : Account}
    (hsaid : Message.Plain x.said) (t : Readings) :
    ((conclude traceText argv filename x).run { flags := { requested := json } }).run t =
      (((x.transcript argv filename json).ending, (x.transcript argv filename json).console traceText),
        t) := by
  obtain ⟨said, outcome⟩ := x
  cases outcome with
  | error f => exact fail_run_said traceText hsaid argv filename json f t
  | ok verdict =>
    have hconsole := Console.foldl_add_fresh traceText json
      (said ++ verdict.2.toList.map Message.document) (.exit verdict.1)
    rw [List.foldl_append] at hconsole
    exact congrArg (fun c => ((Ending.exit verdict.1, c), t)) hconsole

end Act

namespace Call

/-- The run of a call on its own, by its stages. -/
theorem transcript_eq (c : Call) :
    c.transcript =
      match c.recording.nanoseconds 0 with
      | .error i => { messages := [], jsonRequested := asksJson c.argv, ending := .ofInterruption i }
      | .ok began =>
        if asksJson c.argv && asksHelp c.argv then helped c.argv (Version.ofFile (c.read c.sourceFile))
        else
          match Arguments.ofCommandLine c.dialect c.argv with
          | .error r => refused c.argv r
          | .ok a =>
            (c.accountOf a.settled began).transcript c.argv a.filename (asksJson c.argv || a.json) := by
  rw [transcript, run, clocks_surroundings, dialect_surroundings, StateT.run_bind,
    Recording.nanoseconds_run]
  cases c.recording.nanoseconds 0 with
  | error i => rfl
  | ok began =>
    cases asksJson c.argv && asksHelp c.argv
    · cases Arguments.ofCommandLine c.dialect c.argv <;> rfl
    · rfl

theorem transcript_of_accepted {c : Call} {a : Arguments} {began : Int}
    (hbegan : c.recording.nanoseconds 0 = .ok began)
    (hread : Arguments.ofCommandLine c.dialect c.argv = .ok a) (hhelp : asksHelp c.argv = false) :
    c.transcript =
      (c.accountOf a.settled began).transcript c.argv a.filename (asksJson c.argv || a.json) := by
  rw [transcript_eq, hbegan, hread]
  simp only [hhelp, Bool.and_false, Bool.false_eq_true, if_false]

theorem transcript_of_refused {c : Call} {r : Refusal} {began : Int}
    (hbegan : c.recording.nanoseconds 0 = .ok began)
    (hread : Arguments.ofCommandLine c.dialect c.argv = .error r) (hhelp : asksHelp c.argv = false) :
    c.transcript = refused c.argv r := by
  rw [transcript_eq, hbegan, hread]
  simp only [hhelp, Bool.and_false, Bool.false_eq_true, if_false]

theorem carryOut_run (c : Call) (a : Arguments) (began : Int) :
    (((c.carryOut traceText a began).run { flags := { requested := asksJson c.argv } }).run
      { nanoseconds := 1 }).1 =
        let final := (c.accountOf a.settled began).transcript c.argv a.filename (asksJson c.argv || a.json)
        (final.ending, final.console traceText) := by
  have hsaid := c.plain_accountOf a.settled began
  have hconclude (json : Bool) (t : Readings) :=
    congrArg Prod.fst (Act.conclude_run traceText c.argv a.filename json hsaid t)
  rw [carryOut]
  cases a.json
  · rw [Bool.or_false]
    exact hconclude (asksJson c.argv) _
  · rw [Bool.or_true]
    exact hconclude true _

theorem proceed_run (c : Call) {began : Int} (hbegan : c.recording.nanoseconds 0 = .ok began) :
    (((c.proceed traceText began).run { flags := { requested := asksJson c.argv } }).run
      { nanoseconds := 1 }).1 = (c.transcript.ending, c.transcript.console traceText) := by
  rw [transcript_eq, hbegan]
  simp only [proceed, StateT.run_bind, StateT.run_get, pure_bind]
  split
  · rename_i hhelp
    have hjson : asksJson c.argv = true := (Bool.and_eq_true_iff.mp hhelp).1
    rw [hjson]
    cases Version.ofFile (c.read c.sourceFile) <;> rfl
  · cases Arguments.ofCommandLine c.dialect c.argv with
    | error r => exact congrArg Prod.fst (Act.refuse_run traceText c.argv r _)
    | ok a => exact carryOut_run traceText c a began

/-- A call does the same whatever the flags said before. -/
theorem act_run (c : Call) (flags : JsonFlags) :
    (((c.act traceText).run { flags }).run {}).1 =
      (c.transcript.ending, c.transcript.console traceText) := by
  simp only [act, clocks_surroundings, StateT.run_bind, StateT.run_modify, pure_bind, StateT.run_monadLift,
    monadLift_self, bind_assoc, Recording.nanoseconds_run]
  cases hbegan : c.recording.nanoseconds 0 with
  | error i =>
    rw [transcript_eq, hbegan]
    rfl
  | ok began => exact proceed_run traceText c hbegan

theorem runFrom_eq (c : Call) (flags : JsonFlags) :
    c.runFrom traceText flags =
      ({ ending := c.transcript.ending, output := (c.transcript.console traceText).output },
        (c.transcript.console traceText).flags) := by
  have hrun := c.act_run traceText flags
  unfold runFrom
  generalize ((c.act traceText).run { flags }).run {} = final at hrun
  obtain ⟨⟨ending, console⟩, t⟩ := final
  obtain ⟨rfl, rfl⟩ := Prod.mk.inj hrun
  rfl

end Call
end PrimePaths.CommandLine
