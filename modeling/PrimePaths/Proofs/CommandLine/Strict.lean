import PrimePaths.Proofs.CommandLine.Documents
import PrimePaths.Proofs.Json.Text
import PrimePaths.Proofs.Number.Elapsed

namespace PrimePaths

namespace Json

@[simp] theorem strict_null : null.Strict := trivial

@[simp] theorem strict_bool (b : Bool) : (bool b).Strict := trivial

@[simp] theorem strict_string (s : String) : (string s).Strict := trivial

@[simp] theorem strict_int (i : Int) : (int i).Strict := trivial

@[simp] theorem strict_number (n : Number) : (number n).Strict ↔ n.Finite := Iff.rfl

@[simp] theorem strict_array_nil : (array []).Strict := trivial

@[simp] theorem strict_array_map {α : Type} (f : α → Json) (as : List α) :
    (array (as.map f)).Strict ↔ ∀ a ∈ as, (f a).Strict := by
  rw [Strict]
  induction as with
  | nil => exact iff_of_true trivial nofun
  | cons a as ih => rw [List.map_cons, ItemsStrict, List.forall_mem_cons, ih]

@[simp] theorem strict_object (fields : List (String × Json)) :
    (object fields).Strict ↔ ∀ field ∈ fields, field.2.Strict := by
  rw [Strict]
  induction fields with
  | nil => exact iff_of_true trivial nofun
  | cons field fields ih => rw [FieldsStrict, List.forall_mem_cons, ih]

@[simp] theorem strict_strings (ss : List String) : (strings ss).Strict := by
  simp [strings]

@[simp] theorem strict_ints (is : List Int) : (ints is).Strict := by
  simp [ints]

@[simp] theorem strict_ofOption {α : Type} (f : α → Json) (a? : Option α) :
    (ofOption f a?).Strict ↔ ∀ a ∈ a?, (f a).Strict := by
  cases a? <;> simp [ofOption]

end Json

/-- A span of time whose seconds are finite, as those of all spans between two readings of a clock. -/
def Elapsed.Finite (e : Elapsed) : Prop :=
  (Number.floating e.seconds).Finite

theorem Elapsed.finite_ofNanoseconds {nanoseconds : Int} {span : Elapsed}
    (h : ofNanoseconds nanoseconds = .ok span) : span.Finite := by
  obtain ⟨negative, m, q, hseconds⟩ := exists_seconds h
  rw [Elapsed.Finite, hseconds]
  trivial

theorem FlowUnit.Analyzed.elapsed_finite {u : FlowUnit} {a : Analysis} (h : u.Analyzed a) :
    a.elapsed.Finite := by
  obtain ⟨r, t, o, s, hs, rfl⟩ := h
  obtain ⟨reported, span, -, hspan, rfl⟩ := Recording.study_eq_ok_iff.mp hs
  simp only [Recording.span, Except.bind_eq_ok_iff, Except.mapError_eq_ok_iff] at hspan
  obtain ⟨began, -, ended, -, hspan⟩ := hspan
  exact Elapsed.finite_ofNanoseconds hspan

/-- A bound that is none of the words for numbers. -/
def Bound.Finite : Bound → Prop
  | number n => n.Finite
  | blank => True

structure Options.Finite (o : Options) : Prop where
  nodes : ∀ b ∈ o.maxNodes, b.Finite
  limits : ∀ b ∈ o.limits.given, b.Finite

@[simp] theorem Bound.strict_toJson (b : Bound) : b.toJson.Strict ↔ b.Finite := by
  cases b with
  | number n => exact Iff.rfl
  | blank => exact iff_of_true trivial trivial

section Analysis

@[simp] theorem strict_pathsToJson (paths : List Path) : (pathsToJson paths).Strict := by
  simp [pathsToJson, Path.toJson]

@[simp] theorem strict_edgesToJson (edges : List (Int × Int)) : (edgesToJson edges).Strict := by
  simp [edgesToJson]

@[simp] theorem strict_statsToJson (s? : Option SearchStats) : (statsToJson s?).Strict := by
  simp [statsToJson]

@[simp] theorem GraphFacts.strict_toJson (g : GraphFacts) : g.toJson.Strict := by
  simp [toJson]

@[simp] theorem UnitFailure.strict_toJson (f : UnitFailure) : f.toJson.Strict := by
  cases f with
  | graph e => cases e <;> simp [toJson, GraphError.details]
  | limit reached => simp [toJson]

@[simp] theorem Confirmation.strict_toJson (c : Confirmation) : c.toJson.Strict := by
  cases hfindings : c.findings <;> simp [toJson, Findings.fields, hfindings]

@[simp] theorem Validation.strict_toJson (v : Validation) : v.toJson.Strict := by
  simp [toJson, Agreement.toJson]

theorem Analysis.strict_toJson {a : Analysis} (h : a.elapsed.Finite) : a.toJson.Strict := by
  have hseconds : (Number.floating a.elapsed.seconds).Finite := h
  simp [toJson, hseconds]

end Analysis

namespace CommandLine

theorem strict_errorDocument (argv : List String) (filename : Option String) {e : ErrorNote}
    (h : (Json.object e.details).Strict) : (errorDocument argv filename e).Strict := by
  simp only [errorDocument, summaryFields]
  simpa using h

theorem strict_helpDocument (argv : List String) (version : Option Nat) :
    (helpDocument argv version).Strict := by
  simp [helpDocument, summaryFields, versionToJson]

theorem LineProblem.strict_details (problem : LineProblem) (path : String) (number : Nat) (line : String) :
    (Json.object (problem.details path number line)).Strict := by
  cases problem <;> simp [LineProblem.details]

theorem RunFailure.strict_details (f : RunFailure) : (Json.object f.note.details).Strict := by
  cases f with
  | input e =>
    cases e with
    | badLine path number line problem => exact LineProblem.strict_details problem path number line
    | notFound _ | notText _ _ | blank _ | noBlocks _ | unknownUnits _ _ => simp [note, InputError.details]
  | interrupted => simp [note]
  | crash c => simp [note]

theorem Refusal.strict_details (r : Refusal) : (Json.object r.note.details).Strict := by
  simp [note]

theorem strict_limitsToJson (o : Options) : (limitsToJson o).Strict ↔ o.Finite := by
  simp only [limitsToJson, Json.strict_object, List.forall_mem_cons, Json.strict_ofOption,
    Bound.strict_toJson]
  constructor
  · rintro ⟨hseconds, hcalls, hpaths, hnodes, -⟩
    refine ⟨hnodes, ?_⟩
    simp only [Limits.given, List.mem_append, Option.mem_toList]
    rintro b ((hb | hb) | hb)
    · exact hseconds b hb
    · exact hcalls b hb
    · exact hpaths b hb
  · rintro ⟨hnodes, hlimits⟩
    simp only [Limits.given, List.mem_append, Option.mem_toList] at hlimits
    exact ⟨fun b hb => hlimits b (.inl (.inl hb)), fun b hb => hlimits b (.inl (.inr hb)),
      fun b hb => hlimits b (.inr hb), hnodes, List.forall_mem_nil _⟩

theorem strict_resultDocument_iff (place : Place) (sourceFile : String) (p : Particulars) {r : RunResult}
    (helapsed : r.elapsed.Finite) (h : ∀ a ∈ r.analyses, a.elapsed.Finite) :
    (resultDocument place sourceFile p r).Strict ↔ r.arguments.options.Finite := by
  have hunits : ∀ a ∈ r.analyses, a.toJson.Strict := fun a ha => Analysis.strict_toJson (h a ha)
  have hseconds : (Number.floating r.elapsed.seconds).Finite := helapsed
  rw [← strict_limitsToJson]
  simp only [resultDocument, summaryFields, versionToJson, optionsToJson]
  simpa [hseconds] using fun _ => hunits

/-- The document of a run holds finite numbers if the bounds of the run are finite. -/
theorem RunResult.IsOf.strict_resultDocument_iff {r : RunResult} {c : Call} {argv : List String}
    {a : Arguments} {began : Int} (h : r.IsOf c argv a began) (p : Particulars) :
    (resultDocument c.place c.sourceFile p r).Strict ↔ a.options.Finite := by
  obtain ⟨k, ended, -, helapsed⟩ := h.elapsed
  rw [← h.arguments]
  refine CommandLine.strict_resultDocument_iff _ _ p (Elapsed.finite_ofNanoseconds helapsed) ?_
  intro x hx
  obtain ⟨u, hu⟩ := h.analyses x hx
  exact hu.elapsed_finite

end CommandLine

end PrimePaths
