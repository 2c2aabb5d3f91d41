import PrimePaths.Proofs.CommandLine.Process

namespace PrimePaths

/-- The value at the end of keys, each in the object that the one before leads to. -/
def Json.at? : List String → Json → Option Json
  | [], j => some j
  | key :: keys, .object fields => (fields.lookup key).bind (at? keys)
  | _ :: _, _ => none

namespace CommandLine

/-- A number in the counters of a unit; it is nothing where there was no search. -/
def statistic (key : String) (u : Json) : Nat :=
  match u.at? ["enumeration_stats", key] with
  | some (.number (.whole i)) => i.toNat
  | _ => 0

def statusOf (j : Json) (label : String) : Prop :=
  j.at? ["results", "summary", "status"] = some (.string label)

/-- The summary of a document tells an exit code, and a status that goes with it. -/
structure TellsExit (j : Json) (code : Int) : Prop where
  exitCode : j.at? ["results", "summary", "exit_code"] = some (.int code)
  ok_iff : statusOf j "OK" ↔ code = 0
  inconclusive_iff : statusOf j "INCONCLUSIVE" ↔ code = 2
  otherwise : code ≠ 0 → code ≠ 2 → (statusOf j "ERROR" ∨ statusOf j "FAIL") ∧ (code = 1 ∨ code = 130)

/-- The summary and the diagnostics of a document agree with the units that it lists. -/
structure TellsUnits (j : Json) (units : List Json) : Prop where
  error_iff : statusOf j "ERROR" ↔ ∃ u ∈ units, u.at? ["status"] = some (.string "ERROR")
  inconclusive_iff : statusOf j "INCONCLUSIVE" ↔
    (¬∃ u ∈ units, u.at? ["status"] = some (.string "ERROR")) ∧
      ∃ u ∈ units, u.at? ["status"] = some (.string "INCONCLUSIVE")
  ok_iff : statusOf j "OK" ↔ ∀ u ∈ units, u.at? ["status"] = some (.string "OK")
  unitCount : j.at? ["results", "summary", "unit_count"] = some (.int units.length)
  pathCount : ∀ u ∈ units, ∃ paths, u.at? ["paths", "paths"] = some (.array paths) ∧
    u.at? ["paths", "path_count"] = some (.int paths.length)
  primeCount : ∀ u ∈ units, ∃ paths, u.at? ["prime_paths", "paths"] = some (.array paths) ∧
    u.at? ["prime_paths", "prime_count"] = some (.int paths.length)
  counters : ∀ u ∈ units, ∀ key ∈ ["dfs_calls", "paths_found", "max_depth"],
    u.at? ["enumeration_stats", key] = some .null ∨
      ∃ k : Nat, u.at? ["enumeration_stats", key] = some (.int k)
  calls : j.at? ["diagnostics", "enumeration_stats", "dfs_calls"] =
    some (.int (units.map (statistic "dfs_calls")).sum)
  paths : j.at? ["diagnostics", "enumeration_stats", "paths_found"] =
    some (.int (units.map (statistic "paths_found")).sum)
  depth : j.at? ["diagnostics", "enumeration_stats", "max_depth"] =
    some (.int ((units.map (statistic "max_depth")).foldl max 0 : Nat))

/-- A value under a value that keys lead to. -/
theorem at?_of_at? {ks : List String} {j j' : Json} (ls : List String) (h : j.at? ks = some j') :
    j.at? (ks ++ ls) = j'.at? ls := by
  induction ks generalizing j with
  | nil =>
    obtain rfl := Option.some.inj h
    rfl
  | cons key ks ih =>
    cases j with
    | object fields =>
      obtain ⟨value, hvalue, h⟩ := Option.bind_eq_some_iff.mp h
      rw [List.cons_append, Json.at?, hvalue]
      exact ih h
    | _ => cases h

section Exit

variable {j : Json} {code : Int} {status message : String} {more : List (String × Json)}

theorem at?_exitCode (h : j.at? ["results", "summary"] =
    some (.object (summaryFields code status message ++ more))) :
    j.at? ["results", "summary", "exit_code"] = some (.int code) :=
  at?_of_at? ["exit_code"] h

theorem statusOf_iff (h : j.at? ["results", "summary"] =
    some (.object (summaryFields code status message ++ more))) (label : String) :
    statusOf j label ↔ status = label := by
  have hstatus : j.at? ["results", "summary", "status"] = some (.string status) := at?_of_at? ["status"] h
  rw [statusOf, hstatus, Option.some.injEq, Json.string.injEq]

/-- An error has one of two codes and the status of an error. -/
theorem tellsExit_errorDocument (argv : List String) (filename : Option String) {e : ErrorNote}
    (he : e.exitCode = 1 ∨ e.exitCode = 130) : TellsExit (errorDocument argv filename e) e.exitCode := by
  have hsummary : (errorDocument argv filename e).at? ["results", "summary"] =
      some (.object (summaryFields e.exitCode "ERROR" e.message ++ [])) := rfl
  refine ⟨at?_exitCode hsummary, ?_, ?_, ?_⟩
  · rw [statusOf_iff hsummary]
    exact iff_of_false (by decide) (by omega)
  · rw [statusOf_iff hsummary]
    exact iff_of_false (by decide) (by omega)
  · intro _ _
    exact ⟨Or.inl ((statusOf_iff hsummary _).mpr rfl), he⟩

theorem tellsExit_helpDocument (argv : List String) (version : Option Nat) :
    TellsExit (helpDocument argv version) 0 := by
  have hsummary : (helpDocument argv version).at? ["results", "summary"] =
      some (.object (summaryFields 0 "OK" "Help text" ++ [])) := rfl
  refine ⟨at?_exitCode hsummary, ?_, ?_, ?_⟩
  · rw [statusOf_iff hsummary]
    exact iff_of_true rfl rfl
  · rw [statusOf_iff hsummary]
    exact iff_of_false (by decide) (by decide)
  · intro h _
    exact absurd rfl h

variable (place : Place) (sourceFile : String) (p : Particulars) (r : RunResult)

theorem at?_summary_resultDocument :
    (resultDocument place sourceFile p r).at? ["results", "summary"] =
      some (.object (summaryFields (overall r.analyses).exitCode (overall r.analyses).status.label
        (overall r.analyses).message ++ [
          ("unit_count", .int r.analyses.length),
          ("elapsed_seconds", .number (.floating r.elapsed.seconds))])) :=
  rfl

theorem tellsExit_resultDocument :
    TellsExit (resultDocument place sourceFile p r) (overall r.analyses).exitCode := by
  have hsummary := at?_summary_resultDocument place sourceFile p r
  refine ⟨at?_exitCode hsummary, ?_, ?_, ?_⟩
  · rw [statusOf_iff hsummary, Overall.exitCode]
    cases (overall r.analyses).status <;> decide
  · rw [statusOf_iff hsummary, Overall.exitCode]
    cases (overall r.analyses).status <;> decide
  · rw [statusOf_iff hsummary, statusOf_iff hsummary, Overall.exitCode]
    cases (overall r.analyses).status <;> decide

end Exit

section Units

/-- The counters of a search by the keys of their fields. -/
def counters : List (String × (SearchStats → Nat)) :=
  [("dfs_calls", SearchStats.calls), ("paths_found", SearchStats.pathsFound),
    ("max_depth", SearchStats.maxDepth)]

theorem at?_status_toJson (a : Analysis) : a.toJson.at? ["status"] = some (.string a.status.label) :=
  rfl

theorem at?_counter_toJson (a : Analysis) {key : String} {f : SearchStats → Nat}
    (h : (key, f) ∈ counters) :
    a.toJson.at? ["enumeration_stats", key] = some (.ofOption (fun s => .int (f s)) a.stats) := by
  simp only [counters, List.mem_cons, Prod.mk.injEq, List.not_mem_nil, or_false] at h
  rcases h with ⟨rfl, rfl⟩ | ⟨rfl, rfl⟩ | ⟨rfl, rfl⟩ <;> rfl

theorem statistic_toJson (a : Analysis) {key : String} {f : SearchStats → Nat}
    (h : (key, f) ∈ counters) : statistic key a.toJson = (a.stats.map f).getD 0 := by
  rw [statistic, at?_counter_toJson a h]
  cases a.stats <;> rfl

theorem counter_toJson (a : Analysis) {key : String} (h : key ∈ ["dfs_calls", "paths_found", "max_depth"]) :
    a.toJson.at? ["enumeration_stats", key] = some .null ∨
      ∃ k : Nat, a.toJson.at? ["enumeration_stats", key] = some (.int k) := by
  obtain ⟨⟨key, f⟩, hf, rfl⟩ := List.mem_map.mp (show key ∈ counters.map Prod.fst from h)
  rw [at?_counter_toJson a hf]
  cases a.stats with
  | none => exact Or.inl rfl
  | some s => exact Or.inr ⟨f s, rfl⟩

theorem pathCount_toJson {u : FlowUnit} {a : Analysis} (h : u.Analyzed a) :
    ∃ paths, a.toJson.at? ["paths", "paths"] = some (.array paths) ∧
      a.toJson.at? ["paths", "path_count"] = some (.int paths.length) := by
  refine ⟨_, rfl, ?_⟩
  rw [List.length_map, ← h.count_eq.1]
  rfl

theorem primeCount_toJson {u : FlowUnit} {a : Analysis} (h : u.Analyzed a) :
    ∃ paths, a.toJson.at? ["prime_paths", "paths"] = some (.array paths) ∧
      a.toJson.at? ["prime_paths", "prime_count"] = some (.int paths.length) := by
  refine ⟨_, rfl, ?_⟩
  rw [List.length_map, ← h.count_eq.2]
  rfl

/-- A total over the searches is one over all units, in which those without a search do not count. -/
theorem foldl_counter {op : Nat → Nat → Nat} (hop : ∀ k, op k 0 = k) (f : SearchStats → Nat)
    (analyses : List Analysis) (k : Nat) :
    ((analyses.filterMap Analysis.stats).map f).foldl op k =
      (analyses.map fun a => (a.stats.map f).getD 0).foldl op k := by
  induction analyses generalizing k with
  | nil => rfl
  | cons a analyses ih =>
    cases hstats : a.stats with
    | none => simp [hstats, hop, ih]
    | some s => simp [hstats, ih]

theorem foldl_statistic {op : Nat → Nat → Nat} (hop : ∀ k, op k 0 = k) {key : String}
    {f : SearchStats → Nat} (h : (key, f) ∈ counters) (analyses : List Analysis) :
    ((analyses.filterMap Analysis.stats).map f).foldl op 0 =
      ((analyses.map Analysis.toJson).map (statistic key)).foldl op 0 := by
  rw [foldl_counter hop, List.map_map]
  congr 2
  funext a
  exact (statistic_toJson a h).symm

theorem statusOf_resultDocument (place : Place) (sourceFile : String) (p : Particulars) (r : RunResult)
    (s : OverallStatus) :
    statusOf (resultDocument place sourceFile p r) s.label ↔ (overall r.analyses).status = s := by
  rw [statusOf_iff (at?_summary_resultDocument place sourceFile p r)]
  cases (overall r.analyses).status <;> cases s <;> decide

theorem at?_status_iff (a : Analysis) (s : Status) :
    a.toJson.at? ["status"] = some (.string s.label) ↔ a.status = s := by
  rw [at?_status_toJson, Option.some.injEq, Json.string.injEq]
  cases a.status <;> cases s <;> decide

theorem exists_status_iff (analyses : List Analysis) (s : Status) :
    (∃ u ∈ analyses.map Analysis.toJson, u.at? ["status"] = some (.string s.label)) ↔
      ∃ a ∈ analyses, a.status = s := by
  constructor
  · rintro ⟨u, hu, hstatus⟩
    obtain ⟨a, ha, rfl⟩ := List.mem_map.mp hu
    exact ⟨a, ha, (at?_status_iff a s).mp hstatus⟩
  · rintro ⟨a, ha, hstatus⟩
    exact ⟨a.toJson, List.mem_map_of_mem ha, (at?_status_iff a s).mpr hstatus⟩

theorem forall_status_iff (analyses : List Analysis) (s : Status) :
    (∀ u ∈ analyses.map Analysis.toJson, u.at? ["status"] = some (.string s.label)) ↔
      ∀ a ∈ analyses, a.status = s := by
  simp only [List.forall_mem_map, at?_status_iff]

/-- Where all checks hold, the verdict on a run follows from the states of its units. -/
theorem overall_status_iff {analyses : List Analysis} (h : ∀ a ∈ analyses, a.ChecksHold) :
    ((overall analyses).status = .error ↔ ∃ a ∈ analyses, a.status = .error) ∧
      ((overall analyses).status = .inconclusive ↔
        (¬∃ a ∈ analyses, a.status = .error) ∧ ∃ a ∈ analyses, a.status = .inconclusive) ∧
      ((overall analyses).status = .ok ↔ ∀ a ∈ analyses, a.status = .ok) := by
  have hok : (∀ a ∈ analyses, a.status = .ok) ↔
      (¬∃ a ∈ analyses, a.status = .error) ∧ ¬∃ a ∈ analyses, a.status = .inconclusive := by
    constructor
    · intro hall
      constructor
      · rintro ⟨a, ha, herror⟩
        simp [hall a ha] at herror
      · rintro ⟨a, ha, hinconclusive⟩
        simp [hall a ha] at hinconclusive
    · rintro ⟨herror, hinconclusive⟩ a ha
      cases hstatus : a.status with
      | ok => rfl
      | error => exact absurd ⟨a, ha, hstatus⟩ herror
      | inconclusive => exact absurd ⟨a, ha, hstatus⟩ hinconclusive
  rw [overall_status_eq h, hok]
  by_cases herror : ∃ a ∈ analyses, a.status = .error
  · simp [herror]
  · by_cases hinconclusive : ∃ a ∈ analyses, a.status = .inconclusive
    · simp [herror, hinconclusive]
    · simp [herror, hinconclusive]

theorem tellsUnits_resultDocument (place : Place) (sourceFile : String) (p : Particulars) {r : RunResult}
    (h : ∀ x ∈ r.analyses, ∃ u : FlowUnit, u.Analyzed x) :
    TellsUnits (resultDocument place sourceFile p r) (r.analyses.map Analysis.toJson) := by
  have hchecks : ∀ x ∈ r.analyses, x.ChecksHold := by
    intro x hx
    obtain ⟨u, hu⟩ := h x hx
    exact hu.checksHold
  obtain ⟨herror, hinconclusive, hok⟩ := overall_status_iff hchecks
  have hstatus := statusOf_resultDocument place sourceFile p r
  have hsome := exists_status_iff r.analyses
  have hsummary := at?_summary_resultDocument place sourceFile p r
  have hcounters : (resultDocument place sourceFile p r).at?
      ["diagnostics", "enumeration_stats"] = some (statsToJson (some (totalStats r.analyses))) := rfl
  have hcalls : ("dfs_calls", SearchStats.calls) ∈ counters := by simp [counters]
  have hpaths : ("paths_found", SearchStats.pathsFound) ∈ counters := by simp [counters]
  have hdepth : ("max_depth", SearchStats.maxDepth) ∈ counters := by simp [counters]
  constructor
  · exact (hstatus .error).trans (herror.trans (hsome .error).symm)
  · exact (hstatus .inconclusive).trans
      (hinconclusive.trans (and_congr (not_congr (hsome .error).symm) (hsome .inconclusive).symm))
  · exact (hstatus .ok).trans (hok.trans (forall_status_iff r.analyses .ok).symm)
  · rw [List.length_map]
    exact at?_of_at? ["unit_count"] hsummary
  · refine List.forall_mem_map.mpr ?_
    intro a ha
    obtain ⟨x, hx⟩ := h a ha
    exact pathCount_toJson hx
  · refine List.forall_mem_map.mpr ?_
    intro a ha
    obtain ⟨x, hx⟩ := h a ha
    exact primeCount_toJson hx
  · refine List.forall_mem_map.mpr ?_
    intro a ha key hkey
    exact counter_toJson a hkey
  · rw [List.sum_eq_foldl, ← foldl_statistic Nat.add_zero hcalls]
    exact at?_of_at? ["dfs_calls"] hcounters
  · rw [List.sum_eq_foldl, ← foldl_statistic Nat.add_zero hpaths]
    exact at?_of_at? ["paths_found"] hcounters
  · rw [← foldl_statistic Nat.max_zero hdepth]
    exact at?_of_at? ["max_depth"] hcounters

end Units

end CommandLine
end PrimePaths
