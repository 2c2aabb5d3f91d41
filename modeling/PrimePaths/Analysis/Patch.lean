import PrimePaths.Report

namespace PrimePaths

/-- The text of a value that a record shows; a null counts as missing. -/
def Json.shown? : Json → Option String
  | string s => some s
  | number n => some n.text
  | bool b => some (if b then "True" else "False")
  | _ => none

/-- A field of a patch as it is read, or what was there before. -/
def Json.patched {α : Type} (patch : Json) (key : String) (read : Option Json → α) (old : α) : α :=
  if patch.hasField key then read (patch.field? key) else old

/-- What a patch of a field makes of a part. -/
def Json.patchedUnder {α : Type} (patch : Json) (key : String) (change : Json → α → α) (old : α) : α :=
  (patch.field? key).elim old fun part => change part old

def Path.ofJson (j : Json) : Path :=
  j.asList.filterMap Json.asInt?

def pathsOfJson (j? : Option Json) : List Path :=
  (j?.elim [] Json.asList).map Path.ofJson

def Status.ofLabel (label? : Option String) : Status :=
  if label? = some error.label then error
  else if label? = some inconclusive.label then inconclusive
  else ok

def Verdict.ofLabel (label : String) : Verdict :=
  ([pass, fail, inconclusive].find? fun v => v.label == label).getD (other label)

def PathList.patch (countKey : String) (patch : Json) (l : PathList) : PathList where
  count := patch.patched countKey (fun j? => (j?.bind Json.asInt?).getD 0) l.count
  paths := patch.patched "paths" pathsOfJson l.paths

def Findings.none : Findings where
  invented := []
  notMaximal := []
  uncovered := []

def Confirmation.patch (patch : Json) (c : Confirmation) : Confirmation :=
  let old := c.findings.getD .none
  { enabled := patch.patched "enabled" (fun j? => (j?.bind Json.asBool?).getD false) c.enabled
    pass := patch.patched "pass" (·.bind Json.asBool?) c.pass
    failureReason := patch.patched "failure_reason" (·.bind Json.shown?) c.failureReason
    findings := some {
      invented := patch.patched "invented" pathsOfJson old.invented
      notMaximal := patch.patched "not_maximal" pathsOfJson old.notMaximal
      uncovered := patch.patched "uncovered" pathsOfJson old.uncovered } }

def Validation.patch (v? : Option Validation) : Option Json → Option Validation
  | some (.object fields) =>
    let patch := Json.object fields
    if v?.isNone && fields.isEmpty then none
    else
      let v := v?.getD { verdict := .pass, reason := none, agreement := none }
      some { v with
        verdict :=
          patch.patched "status" (fun j? => .ofLabel (Report.textOrNone (j?.bind Json.shown?))) v.verdict
        reason := patch.patched "reason" (·.bind Json.shown?) v.reason }
  | _ => none

namespace Analysis

/-- A record in which a patch replaces what it holds; objects on both sides are joined. -/
def patch (patch : Json) (a : Analysis) : Analysis :=
  { a with
    status := patch.patched "status" (fun j? => .ofLabel (j?.bind Json.asText?)) a.status
    message := patch.patched "message" (·.bind Json.shown?) a.message
    paths := patch.patchedUnder "paths" (PathList.patch "path_count") a.paths
    primes := patch.patchedUnder "prime_paths" (PathList.patch "prime_count") a.primes
    confirmation := patch.patchedUnder "confirm_primes" Confirmation.patch a.confirmation
    validation := patch.patched "validation" (Validation.patch a.validation) a.validation }

theorem patch_nothing (a : Analysis) : a.patch (.object []) = a :=
  rfl

end Analysis

namespace Report

/-- Why paths of a record cannot be listed: the record of them, or its list, is blank. -/
def isUnlisted (patch : Json) (key : String) : Bool :=
  patch.isBlank key || (patch.field? key).any (·.isBlank "paths")

/-- What a report on a patched record comes upon first that it cannot show. -/
def fault? (o : Options) (patch : Json) (s : Study) : Option Crash :=
  let status := (s.analysis.patch patch).status
  let added := (patch.field? "validation").any fun v => s.analysis.validation.isNone && !v.asFields.isEmpty
  let shown := (patch.field? "validation").all fun v => v.hasField "status" && v.hasField "reason"
  let checks := o.confirmPrimes || o.validate
  let blankFindings := (patch.field? "confirm_primes").any fun c =>
    ["invented", "not_maximal", "uncovered"].any c.isBlank
  if status = .error then none
  else if s.searched?.isNone then some .noRecord
  else if status = .inconclusive then none
  else if isUnlisted patch "prime_paths" || patch.isBlank "paths" ||
      (o.allPaths && isUnlisted patch "paths") then
    some .blankValue
  else if checks && patch.isBlank "confirm_primes" then some .noRecord
  else if checks && blankFindings then some .blankValue
  else if added && !shown then some .noField
  else none

/-- The report on a record with a patch. -/
def ofPatched (u : FlowUnit) (s : Study) (o : Options) (patch : Json) : Except Crash (List Message) :=
  match fault? o patch s with
  | some c => .error c
  | none => .ok (ofUnit u s.searched? (s.analysis.patch patch) o)

/-- Without a patch there is nothing amiss with the record of a study. -/
theorem ofPatched_nothing (u : FlowUnit) {s : Study} (o : Options)
    (h : s.searched? = none → s.analysis.status = .error) :
    ofPatched u s o (.object []) = .ok (ofUnit u s.searched? s.analysis o) := by
  have hfault : fault? o (.object []) s = none := by
    unfold fault?
    rw [Analysis.patch_nothing]
    by_cases herror : s.analysis.status = .error
    · simp [herror]
    · cases hsearched : s.searched? with
      | none => exact absurd (h hsearched) herror
      | some _ => simp [Json.field?, Json.isBlank, Json.hasField, Json.asFields, isUnlisted]
  rw [ofPatched, hfault, Analysis.patch_nothing]

end Report

end PrimePaths
