import PrimePaths.Analysis.Basic

namespace PrimePaths

/-- How a run over several units ended. -/
inductive OverallStatus
  | ok
  | fail
  | error
  | inconclusive
  deriving DecidableEq, Repr

namespace OverallStatus

def label : OverallStatus → String
  | ok => "OK"
  | fail => "FAIL"
  | error => "ERROR"
  | inconclusive => "INCONCLUSIVE"

def exitCode : OverallStatus → Int
  | ok => 0
  | fail => 1
  | error => 1
  | inconclusive => 2

end OverallStatus

/-- The status of a run and the units that it is due to. -/
structure Overall where
  status : OverallStatus
  units : List String
  deriving DecidableEq, Repr

namespace Overall

def exitCode (o : Overall) : Int :=
  o.status.exitCode

def message (o : Overall) : String :=
  let names := ", ".intercalate o.units
  match o.status with
  | .ok => Analysis.successMessage
  | .fail => s!"Prime path checks failed: {names}"
  | .error => s!"Invalid unit graph: {names}"
  | .inconclusive => s!"Stopped early due to search limits: {names}"

end Overall

/-- A unit fails by an invalid graph, a failed check or a failed validation. -/
def Analysis.failed (a : Analysis) : Bool :=
  a.status == .error || a.confirmation.pass == some false ||
    a.validation.any fun v => v.verdict == .fail

/-- Errors come before failed checks, and these before limits. -/
def overall (analyses : List Analysis) : Overall :=
  let names (p : Analysis → Bool) : List String := (analyses.filter p).map Analysis.name
  let errors := names fun a => a.status == .error
  let failed := names fun a => a.status != .error && a.failed
  let stopped := names fun a => a.status == .inconclusive
  if !errors.isEmpty then { status := .error, units := errors }
  else if !failed.isEmpty then { status := .fail, units := failed }
  else if !stopped.isEmpty then { status := .inconclusive, units := stopped }
  else { status := .ok, units := [] }

end PrimePaths
