import PrimePaths.Proofs.CommandLine.Calls
import PrimePaths.Proofs.CommandLine.Strict

namespace PrimePaths

namespace Message

/-- The text of a message for a reader; a document has none. -/
def readable? (traceText : Crash → String) : Message → Option String
  | .line text | .complaint text => some (text ++ "\n")
  | .help text | .usage text => some text
  | .trace crash => some (traceText crash)
  | .document _ => none

/-- A message that goes aside when the standard output is kept for a document. -/
def isAside : Message → Bool
  | .help _ | .document _ => false
  | _ => true

def Aside (ms : List Message) : Prop :=
  ∀ m ∈ ms, m.isAside

variable {ms ns : List Message}

theorem Plain.aside (h : Plain ms) : Aside ms := by
  intro m hm
  have hplain := h m hm
  cases m <;> first | rfl | exact absurd hplain nofun

theorem Aside.append (hms : Aside ms) (hns : Aside ns) : Aside (ms ++ ns) :=
  List.forall_mem_append.mpr ⟨hms, hns⟩

theorem Aside.foldl_add (h : Aside ms) (traceText : Crash → String) (s : Streams) :
    ms.foldl (Streams.add true traceText) s =
      { s with err := s.err ++ String.join (ms.filterMap (readable? traceText)) } := by
  induction ms generalizing s with
  | nil => simp
  | cons m ms ih =>
    have hfirst : ∃ text, m.readable? traceText = some text ∧
        s.add true traceText m = { s with err := s.err ++ text } := by
      have haside := h m List.mem_cons_self
      cases m with
      | line text | complaint text =>
        refine ⟨text ++ "\n", rfl, ?_⟩
        rw [← String.append_assoc]
        rfl
      | usage text => exact ⟨text, rfl, rfl⟩
      | trace crash => exact ⟨traceText crash, rfl, rfl⟩
      | help _ | document _ => exact absurd haside nofun
    obtain ⟨text, htext, hadd⟩ := hfirst
    rw [List.foldl_cons, hadd, ih fun n hn => h n (List.mem_cons_of_mem m hn), List.filterMap_cons, htext,
      String.join_cons, String.append_assoc]

end Message

namespace CommandLine

/-- What a run that is asked for JSON is to leave: the standard output is the text of one object and a line
feed, and all that the run says to a reader is on the error output, in order. -/
structure Transcript.JsonFirst (traceText : Crash → String) (t : Transcript) : Prop where
  object : ∃ text, Json.IsObject text ∧ (t.streams traceText).out = text ++ "\n"
  aside : (t.streams traceText).err = String.join (t.messages.filterMap (Message.readable? traceText))

variable (traceText : Crash → String)

section Stages

variable {said : List Message}

theorem head?_helpText : helpText.toList.head? = some 'u' := by
  rw [helpText, usageText, String.toList_append, String.toList_append, String.toList_intercalate]
  simp only [List.map_cons, List.intercalate_cons_cons, List.append_assoc]
  rfl

theorem Transcript.JsonFirst.head? {t : Transcript} (h : t.JsonFirst traceText) :
    (t.streams traceText).out.toList.head? = some '\x7b' := by
  obtain ⟨text, ⟨hhead, -⟩, hout⟩ := h.object
  rw [hout, String.toList_append, List.head?_append, hhead]
  rfl

theorem not_jsonFirst_of_empty {t : Transcript} (h : (t.streams traceText).out = "") :
    ¬t.JsonFirst traceText := by
  intro ht
  have hhead := ht.head?
  rw [h] at hhead
  cases hhead

/-- A run whose last message is a document, and the only one for the standard output. -/
theorem jsonFirst_document_iff {ms : List Message} (hms : Message.Aside ms) (fields : List (String × Json))
    (ending : Ending) :
    (Transcript.mk (ms ++ [.document (.object fields)]) true ending).JsonFirst traceText ↔
      (Json.object fields).Strict := by
  have hstreams : Streams.ofMessages true traceText (ms ++ [.document (.object fields)]) =
      { out := (Json.object fields).text ++ "\n"
        err := String.join (ms.filterMap (Message.readable? traceText)) } := by
    rw [Streams.ofMessages, List.foldl_append, hms.foldl_add]
    simp [Streams.add]
  have hreadable : (ms ++ [Message.document (.object fields)]).filterMap (Message.readable? traceText) =
      ms.filterMap (Message.readable? traceText) := by
    simp [Message.readable?]
  rw [← Json.isObject_text_iff]
  constructor
  · rintro ⟨⟨text, htext, hout⟩, -⟩
    have hsame : (Json.object fields).text ++ "\n" = text ++ "\n" := by
      rw [← hout, Transcript.streams, hstreams]
    rwa [(String.append_left_inj _).mp hsame]
  · intro htext
    constructor
    · exact ⟨_, htext, congrArg Streams.out hstreams⟩
    · rw [Transcript.streams, hstreams, hreadable]

theorem jsonFirst_helped_iff (argv : List String) (version : Except Crash (Option Nat)) :
    (helped argv version).JsonFirst traceText ↔ ∃ v, version = .ok v := by
  cases version with
  | error c => exact iff_of_false (not_jsonFirst_of_empty traceText rfl) nofun
  | ok v =>
    have haside : Message.Aside [] := nofun
    have hdocument := (jsonFirst_document_iff traceText haside _ (.exit 0)).mpr (strict_helpDocument argv v)
    exact iff_of_true hdocument ⟨v, rfl⟩

/-- Of arguments that ask for no run, those that are in error are answered by a document alone; help that is
not asked for by its full name is shown as a text, too. -/
theorem jsonFirst_refused_iff {argv : List String} (hjson : asksJson argv = true) (r : Refusal) :
    (refused argv r).JsonFirst traceText ↔ r ≠ .help := by
  rw [refused, if_pos hjson]
  cases r with
  | usage e =>
    have haside : Message.Aside [(Refusal.usage e).saying.1] := by
      intro m hm
      obtain rfl := List.mem_singleton.mp hm
      rfl
    have hstrict := strict_errorDocument argv none (Refusal.usage e).strict_details
    exact iff_of_true ((jsonFirst_document_iff traceText haside _ _).mpr hstrict) nofun
  | help =>
    refine iff_of_false ?_ (fun h => h rfl)
    intro h
    have hhead := h.head?
    change ("" ++ helpText ++ (errorDocument argv none Refusal.help.note).text ++ "\n").toList.head? = _
      at hhead
    rw [String.empty_append, String.append_assoc, String.toList_append, List.head?_append, head?_helpText]
      at hhead
    cases hhead

theorem jsonFirst_failed (hsaid : Message.Plain said) (argv : List String) (filename : String)
    (f : RunFailure) : (failed argv filename true said f).JsonFirst traceText := by
  have htrace : Message.Aside f.trace := by
    cases f with
    | input e => exact nofun
    | interrupted => exact nofun
    | crash c =>
      intro m hm
      obtain rfl := List.mem_singleton.mp hm
      rfl
  have hstrict := strict_errorDocument argv (some filename) f.strict_details
  exact (jsonFirst_document_iff traceText (hsaid.aside.append htrace) _ _).mpr hstrict

theorem jsonFirst_accountOf_iff (c : Call) (a : Arguments) (began : Int) (filename : String) :
    ((c.accountOf a began).transcript c.argv filename true).JsonFirst traceText ↔
      a.json = true ∧ a.options.Finite ∨ ∃ f, (c.accountOf a began).outcome = .error f := by
  have hsaid := c.plain_accountOf a began
  cases houtcome : (c.accountOf a began).outcome with
  | error f =>
    rw [Account.transcript, houtcome]
    exact iff_of_true (jsonFirst_failed traceText hsaid c.argv filename f) (Or.inr ⟨f, rfl⟩)
  | ok verdict =>
    obtain ⟨code, document?⟩ := verdict
    obtain ⟨r, hr, -, hsome, hdocument⟩ := Call.accountOf_eq_ok houtcome
    rw [Account.transcript, houtcome, ← hsome]
    cases document? with
    | none =>
      refine iff_of_false (not_jsonFirst_of_empty traceText ?_) (by simp)
      change (Streams.ofMessages true traceText (_ ++ [])).out = ""
      rw [List.append_nil, Streams.ofMessages, hsaid.aside.foldl_add]
    | some j =>
      obtain ⟨p, rfl⟩ := hdocument j rfl
      have hstrict := hr.strict_resultDocument_iff p
      refine ((jsonFirst_document_iff traceText hsaid.aside _ _).trans hstrict).trans ?_
      simp

theorem Arguments.json_settled (a : Arguments) : a.settled.json = a.json := by
  unfold settled
  split <;> rfl

theorem Arguments.finite_settled (a : Arguments) : a.settled.options.Finite ↔ a.options.Finite := by
  unfold settled
  split
  · exact ⟨fun h => ⟨h.nodes, h.limits⟩, fun h => ⟨h.nodes, h.limits⟩⟩
  · rfl

end Stages

/-- A run that is asked for JSON leaves one object on the standard output and says all else aside, if the
clock can be read at its start and, where help is asked for, the version can be read; otherwise, if its
arguments do not ask for help by a part of its name, and lead to a failure or ask for JSON as an option and
set no bound that JSON cannot name. -/
theorem jsonFirst_iff (c : Call) (hjson : "--json" ∈ c.argv) :
    c.transcript.JsonFirst traceText ↔
      ∃ began, c.recording.nanoseconds 0 = .ok began ∧
        if asksHelp c.argv then ∃ v, Version.ofFile (c.read c.sourceFile) = .ok v
        else match Arguments.ofCommandLine c.dialect c.argv with
          | .error r => r ≠ .help
          | .ok a =>
            a.json = true ∧ a.options.Finite ∨ ∃ f, (c.accountOf a.settled began).outcome = .error f := by
  have hasks : asksJson c.argv = true := List.contains_iff_mem.mpr hjson
  rw [Call.transcript_eq]
  cases c.recording.nanoseconds 0 with
  | error i => exact iff_of_false (not_jsonFirst_of_empty traceText rfl) nofun
  | ok began =>
    simp only [Except.ok.injEq, exists_eq_left', hasks, Bool.true_and, Bool.true_or]
    split
    · exact jsonFirst_helped_iff traceText _ _
    · cases Arguments.ofCommandLine c.dialect c.argv with
      | error r => exact jsonFirst_refused_iff traceText hasks r
      | ok a =>
        dsimp only
        rw [jsonFirst_accountOf_iff, a.json_settled, a.finite_settled]

/-- A call beside a listing of one dead block, on clocks that answer; `version` is the file that states the
version. -/
def Call.besideListing (version : ByteArray) (argv : List String) : Call where
  argv := argv
  recording := .counting 0
  read := fun name =>
    if name = "listing" then .ok "0 dead".toUTF8
    else if name = "VERSION" then .ok version
    else .error .noFile
  place := { directory := [], process := 4242, host := "host", platform := "platform" }
  sourceFile := "VERSION"
  dialect := .later

/-- Arguments in error, in which the file is missing. -/
theorem jsonFirst_iff_usage :
    "--json" ∈ (Call.besideListing "# Version 1".toUTF8 ["--json"]).argv ∧
      (Call.besideListing "# Version 1".toUTF8 ["--json"]).transcript.JsonFirst fun _ => "" := by
  have hread : Arguments.ofCommandLine .later ["--json"] = .error (.usage .missingFile) := by decide +kernel
  have hjson : "--json" ∈ (Call.besideListing "# Version 1".toUTF8 ["--json"]).argv := by decide
  refine ⟨hjson, (jsonFirst_iff (fun _ => "") _ hjson).mpr ⟨0, rfl, ?_⟩⟩
  rw [if_neg (by decide)]
  change match Arguments.ofCommandLine .later ["--json"] with | .error r => r ≠ .help | .ok a => _
  rw [hread]
  nofun

/-- Help that is asked for by a part of its name is written to the standard output as well. -/
theorem not_jsonFirst_help :
    "--json" ∈ (Call.besideListing "# Version 1".toUTF8 ["--json", "--hel"]).argv ∧
      ¬(Call.besideListing "# Version 1".toUTF8 ["--json", "--hel"]).transcript.JsonFirst fun _ => "" := by
  have hread : Arguments.ofCommandLine .later ["--json", "--hel"] = .error .help := by decide +kernel
  have htranscript : (Call.besideListing "# Version 1".toUTF8 ["--json", "--hel"]).transcript =
      refused ["--json", "--hel"] .help := Call.transcript_of_refused rfl hread (by decide)
  refine ⟨by decide, ?_⟩
  rw [htranscript, jsonFirst_refused_iff _ (by decide)]
  exact fun h => h rfl

end CommandLine
end PrimePaths
