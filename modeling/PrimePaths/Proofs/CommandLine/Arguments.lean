import PrimePaths.CommandLine.Account
import PrimePaths.Proofs.Analysis.Examination
import PrimePaths.Proofs.Number.Reading

namespace PrimePaths.CommandLine

def Arguments.withJson (a : Arguments) : Arguments :=
  { a with json := true }

def Reading.withJson (r : Reading) : Reading :=
  { r with arguments := r.arguments.withJson }

namespace Arguments

variable (a : Arguments)

theorem setFlag_withJson (f : Flag) : a.withJson.setFlag f = (a.setFlag f).map withJson := by
  cases f <;> rfl

theorem foldlM_setFlag_withJson (flags : List Flag) :
    flags.foldlM setFlag a.withJson = (flags.foldlM setFlag a).map withJson := by
  induction flags generalizing a with
  | nil => rfl
  | cons f flags ih =>
    rw [List.foldlM_cons, List.foldlM_cons, setFlag_withJson]
    cases a.setFlag f with
    | error r => rfl
    | ok a' => exact ih a'

theorem setSetting_withJson (d : Dialect) (s : Setting) (text : String) :
    a.withJson.setSetting d s text = (a.setSetting d s text).map withJson := by
  unfold setSetting
  dsimp only
  cases s with
  | unit => rfl
  | maxSeconds => cases floatingBound .maxSeconds (valueOf d text) <;> rfl
  | maxCalls => cases wholeBound .maxCalls (valueOf d text) <;> rfl
  | maxPaths => cases wholeBound .maxPaths (valueOf d text) <;> rfl
  | maxNodes => cases wholeBound .maxNodes (valueOf d text) <;> rfl

end Arguments

theorem Reading.readTokens_withJson (d : Dialect) (r : Reading) (tokens : List Token) :
    readTokens d r.withJson tokens = (readTokens d r tokens).map withJson := by
  have hfile (r : Reading) : r.withJson.file? = r.file? := rfl
  fun_induction readTokens d r tokens with
  | case1 => rfl
  | case2 r text rest ih => exact ih
  | case3 r name f attached rest ih =>
    rw [readTokens]
    cases Arguments.flagsOf d name f attached with
    | error e => rfl
    | ok held =>
      obtain ⟨flags, left⟩ := held
      change (do
        let arguments ← flags.foldlM Arguments.setFlag r.arguments.withJson
        readTokens d { r with arguments, extras := r.extras ++ left } rest) = _
      rw [Arguments.foldlM_setFlag_withJson]
      change _ = Except.map Reading.withJson (do
        let arguments ← flags.foldlM Arguments.setFlag r.arguments
        readTokens d { r with arguments, extras := r.extras ++ left } rest)
      cases flags.foldlM Arguments.setFlag r.arguments with
      | error e => rfl
      | ok arguments => exact ih left arguments
  | case4 r name s value rest ih | case5 r name s value rest ih =>
    change (do
      let arguments ← r.arguments.withJson.setSetting d s (String.ofList value)
      readTokens d { r with arguments } rest) = _
    rw [Arguments.setSetting_withJson]
    cases r.arguments.setSetting d s (String.ofList value) with
    | error e => rfl
    | ok arguments => exact ih arguments
  | case6 r name s value rest ih =>
    change (do
      let arguments ← r.arguments.withJson.setSetting d s value
      readTokens d { r with arguments } rest) = _
    rw [Arguments.setSetting_withJson]
    cases r.arguments.setSetting d s value with
    | error e => rfl
    | ok arguments => exact ih arguments
  | case7 r name s rest hrest =>
    rw [readTokens]
    · rfl
    · exact hrest
  | case8 r text rest h ih =>
    rw [readTokens, hfile, if_pos h]
    exact ih
  | case9 r text rest h ih =>
    rw [readTokens, hfile, if_neg h]
    exact ih
  | case10 r text rest hrest h ih =>
    rw [readTokens, hfile, if_pos h]
    · exact ih
    · exact hrest
  | case11 r text rest hrest h ih =>
    rw [readTokens, hfile, if_neg h]
    · exact ih
    · exact hrest
  | case12 r text rest h ih =>
    rw [readTokens, hfile, if_pos h]
    exact ih
  | case13 r text rest h ih =>
    rw [readTokens, hfile, if_neg h]
    exact ih
  | case14 r rest hrest ih =>
    rw [readTokens]
    · exact ih
    · exact hrest

theorem Reading.arguments?_withJson (r : Reading) :
    r.withJson.arguments? = r.arguments?.map Arguments.withJson := by
  obtain ⟨arguments, file?, extras⟩ := r
  cases file? with
  | none => rfl
  | some file => cases extras <;> rfl

theorem Token.ofArgument_json : ofArgument "--json" = .ok (.option "--json" (.flag .json) .nothing) := by
  have hdashed : ¬(!"--json".startsWith "-" || "--json" == "-") = true := by decide +kernel
  have hnamed : Choice.ofName? "--json" = some (.flag .json) := by decide +kernel
  rw [ofArgument, if_neg hdashed, hnamed]

variable {d : Dialect} {argv : List String} {a : Arguments}

/-- What it takes for arguments to be accepted. -/
theorem Arguments.ofCommandLine_eq_ok_iff :
    ofCommandLine d argv = .ok a ↔ ∃ tokens r,
      Token.ofArguments argv = .ok tokens ∧ Reading.readTokens d {} tokens = .ok r ∧
        r.arguments? = .ok a := by
  unfold ofCommandLine
  cases Token.ofArguments argv <;> simp

/-- Arguments that are accepted are accepted with a request for JSON before them. -/
theorem Arguments.ofCommandLine_json (h : ofCommandLine d argv = .ok a) :
    ofCommandLine d ("--json" :: argv) = .ok a.withJson := by
  obtain ⟨tokens, r, htokens, hread, haccepted⟩ := ofCommandLine_eq_ok_iff.mp h
  have hread' : Reading.readTokens d {} (.option "--json" (.flag .json) .nothing :: tokens) =
      (Reading.readTokens d {} tokens).map Reading.withJson := Reading.readTokens_withJson d {} tokens
  refine ofCommandLine_eq_ok_iff.mpr
    ⟨.option "--json" (.flag .json) .nothing :: tokens, r.withJson, ?_, ?_, ?_⟩
  · rw [Token.ofArguments, if_neg (by decide), Token.ofArgument_json, htokens]
    rfl
  · rw [hread', hread]
    rfl
  · rw [Reading.arguments?_withJson, haccepted]
    rfl

section Writable

variable {a' : Arguments}

theorem Arguments.wholeBound_writable {s : Setting} {value? : Option String} {b : Bound}
    (h : wholeBound s value? = .ok b) : b.Writable := by
  cases value? with
  | none =>
    obtain rfl := Except.ok.inj h
    trivial
  | some value =>
    rw [wholeBound] at h
    cases hread : readInt? value with
    | none =>
      rw [hread] at h
      cases h
    | some i =>
      rw [hread] at h
      obtain rfl := Except.ok.inj h
      exact writable_of_readInt? hread

theorem Arguments.floatingBound_writable {s : Setting} {value? : Option String} {b : Bound}
    (h : floatingBound s value? = .ok b) : b.Writable := by
  cases value? with
  | none =>
    obtain rfl := Except.ok.inj h
    trivial
  | some value =>
    rw [floatingBound] at h
    cases hread : readFloat? value with
    | none =>
      rw [hread] at h
      cases h
    | some x =>
      rw [hread] at h
      obtain rfl := Except.ok.inj h
      trivial

theorem Arguments.setFlag_writable {f : Flag} (h : a.options.Writable) (hset : a.setFlag f = .ok a') :
    a'.options.Writable := by
  cases f <;> cases hset <;> exact ⟨h.nodes, h.limits⟩

theorem Arguments.foldlM_setFlag_writable {flags : List Flag} (h : a.options.Writable)
    (hset : flags.foldlM setFlag a = .ok a') : a'.options.Writable := by
  induction flags generalizing a with
  | nil =>
    obtain rfl := Except.ok.inj hset
    exact h
  | cons f flags ih =>
    rw [List.foldlM_cons] at hset
    obtain ⟨a₁, hfirst, hrest⟩ := Except.bind_eq_ok_iff.mp hset
    exact ih (setFlag_writable h hfirst) hrest

theorem Arguments.setSetting_writable {s : Setting} {text : String} (h : a.options.Writable)
    (hset : a.setSetting d s text = .ok a') : a'.options.Writable := by
  have hlimits : ∀ b ∈ a.options.limits.given, b.Writable := h.limits
  simp only [Limits.given, List.mem_append, Option.mem_toList] at hlimits
  cases s with
  | unit =>
    obtain rfl := Except.ok.inj hset
    exact ⟨h.nodes, h.limits⟩
  | maxNodes =>
    obtain ⟨b, hb, hset⟩ := Except.bind_eq_ok_iff.mp hset
    obtain rfl := Except.ok.inj hset
    refine ⟨fun b' hb' => ?_, h.limits⟩
    rw [← Option.some.inj hb']
    exact wholeBound_writable hb
  | maxSeconds =>
    obtain ⟨b, hb, hset⟩ := Except.bind_eq_ok_iff.mp hset
    obtain rfl := Except.ok.inj hset
    refine ⟨h.nodes, fun b' hb' => ?_⟩
    have hwritable := floatingBound_writable hb
    simp only [Arguments.setLimits, Limits.given, List.mem_append, Option.mem_toList] at hb'
    grind
  | maxCalls | maxPaths =>
    obtain ⟨b, hb, hset⟩ := Except.bind_eq_ok_iff.mp hset
    obtain rfl := Except.ok.inj hset
    refine ⟨h.nodes, fun b' hb' => ?_⟩
    have hwritable := wholeBound_writable hb
    simp only [Arguments.setLimits, Limits.given, List.mem_append, Option.mem_toList] at hb'
    grind

theorem Reading.readTokens_writable {r r' : Reading} {tokens : List Token}
    (h : r.arguments.options.Writable) (hread : readTokens d r tokens = .ok r') :
    r'.arguments.options.Writable := by
  fun_induction readTokens d r tokens with
  | case1 =>
    obtain rfl := Except.ok.inj hread
    exact h
  | case3 r name f attached rest ih =>
    obtain ⟨⟨flags, left⟩, -, hread⟩ := Except.bind_eq_ok_iff.mp hread
    obtain ⟨arguments, hset, hrest⟩ := Except.bind_eq_ok_iff.mp hread
    exact ih left arguments (Arguments.foldlM_setFlag_writable h hset) hrest
  | case4 r name s value rest ih | case5 r name s value rest ih | case6 r name s value rest ih =>
    obtain ⟨arguments, hset, hrest⟩ := Except.bind_eq_ok_iff.mp hread
    exact ih arguments (Arguments.setSetting_writable h hset) hrest
  | case7 => cases hread
  | case2 _ _ _ ih => exact ih h hread
  | case8 _ _ _ _ ih | case9 _ _ _ _ ih | case12 _ _ _ _ ih | case13 _ _ _ _ ih => exact ih h hread
  | case10 _ _ _ _ _ ih | case11 _ _ _ _ _ ih => exact ih h hread
  | case14 _ _ _ ih => exact ih h hread

/-- The bounds that a command line sets could be read, so they can be written. -/
theorem Arguments.writable_of_accepted (h : ofCommandLine d argv = .ok a) : a.options.Writable := by
  obtain ⟨tokens, r, -, hread, haccepted⟩ := ofCommandLine_eq_ok_iff.mp h
  have hr := Reading.readTokens_writable (r := {}) ⟨nofun, nofun⟩ hread
  unfold Reading.arguments? at haccepted
  split at haccepted
  · cases haccepted
  · split at haccepted
    · obtain rfl := Except.ok.inj haccepted
      exact hr
    · cases haccepted

end Writable

end PrimePaths.CommandLine
