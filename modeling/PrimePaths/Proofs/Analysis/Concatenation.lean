import PrimePaths.Proofs.Analysis.Independence
import PrimePaths.Proofs.Listing.Concatenation

namespace PrimePaths

open CommandLine Listing

variable {path A B : String} {us vs : List FlowUnit}

/-- The units in the lower part of a file are analyzed as in a file of their own. -/
theorem Recording.analyses_append {r r₁ r₂ : Recording} (hr : r.Steady) (hr₁ : r₁.Steady)
    (hr₂ : r₂.Steady) {a : Arguments} (ha : a.options.limits.maxSeconds = none) (t t₁ t₂ : Readings) :
    List.map Analysis.essence <$> r.analyses t a (us ++ below A vs) = (do
      let first ← List.map Analysis.essence <$> r₁.analyses t₁ a us
      let second ← List.map Analysis.essence <$> r₂.analyses t₂ a vs
      return first ++ second) := by
  have hbelow : (below A vs).mapM (fun u => u.untimedReport a.options) =
      vs.mapM fun u => u.untimedReport a.options := by
    have hplace (k : Nat) : (fun u => u.untimedReport a.options) ∘ FlowUnit.shift k =
        fun u => u.untimedReport a.options := funext fun u => u.untimedReport_shift k a.options
    rw [below, List.mapM_map, hplace]
  rw [essence_analyses hr ha, essence_analyses hr₁ ha, essence_analyses hr₂ ha, List.mapM_append, hbelow]

theorem exitCode_overall_of_essence {first second all : List Analysis}
    (h : all.map Analysis.essence = first.map Analysis.essence ++ second.map Analysis.essence) :
    (overall all).exitCode =
      if (overall first).exitCode = 1 ∨ (overall second).exitCode = 1 then 1
      else if (overall first).exitCode = 2 ∨ (overall second).exitCode = 2 then 2
      else 0 := by
  rw [← exitCode_overall_essence all, h, ← List.map_append, exitCode_overall_essence,
    exitCode_overall_append]

theorem Recording.essence_append_of_ok {r r₁ r₂ : Recording} (hr : r.Steady) (hr₁ : r₁.Steady)
    (hr₂ : r₂.Steady) {a : Arguments} (ha : a.options.limits.maxSeconds = none) {t t₁ t₂ : Readings}
    {first second all : List Analysis} (hfirst : r₁.analyses t₁ a us = .ok first)
    (hsecond : r₂.analyses t₂ a vs = .ok second) (hall : r.analyses t a (us ++ below A vs) = .ok all) :
    all.map Analysis.essence = first.map Analysis.essence ++ second.map Analysis.essence := by
  have happend : List.map Analysis.essence <$> r.analyses t a (us ++ below A vs) = _ :=
    analyses_append hr hr₁ hr₂ ha t t₁ t₂
  rw [hfirst, hsecond, hall] at happend
  exact Except.ok.inj happend

/-- Two listings in one text are two listings: their units, the analyses of these, the units that are
selected from the second one, and the exit code are those of both apart. -/
theorem concatenation {path A B : String} {us vs : List FlowUnit} (hA : readText path A = .ok us)
    (hB : readText path B = .ok vs) (hopen : OpensWithHeader B)
    (hnames : ∀ u ∈ us, ∀ v ∈ vs, u.name ≠ v.name) :
    readText path (A ++ "\n" ++ B) = .ok (us ++ below A vs) ∧
      (∀ (a : Arguments) (r r₁ r₂ : Recording) (t t₁ t₂ : Readings),
        a.options.limits.maxSeconds = none → r.Steady → r₁.Steady → r₂.Steady →
          (List.map Analysis.essence <$> r.analyses t a (us ++ below A vs) = (do
            let first ← List.map Analysis.essence <$> r₁.analyses t₁ a us
            let second ← List.map Analysis.essence <$> r₂.analyses t₂ a vs
            return first ++ second)) ∧
          (a.options.Numeric → a.options.Writable → ∃ all, r.analyses t a (us ++ below A vs) = .ok all) ∧
          ∀ first second all, r₁.analyses t₁ a us = .ok first → r₂.analyses t₂ a vs = .ok second →
            r.analyses t a (us ++ below A vs) = .ok all →
              (overall all).exitCode =
                if (overall first).exitCode = 1 ∨ (overall second).exitCode = 1 then 1
                else if (overall first).exitCode = 2 ∨ (overall second).exitCode = 2 then 2
                else 0) ∧
      ∀ names : List String, names ≠ [] → (∀ n ∈ names, n ∈ vs.map FlowUnit.name) →
        ∃ chosen, select vs names = .ok chosen ∧ select (us ++ below A vs) names = .ok (below A chosen) ∧
          chosen.Sublist vs ∧ (chosen.map FlowUnit.name).Nodup := by
  have hread := readText_append hA hB hopen hnames
  refine ⟨hread, ?_, ?_⟩
  · intro a r r₁ r₂ t t₁ t₂ ha hr hr₁ hr₂
    refine ⟨Recording.analyses_append hr hr₁ hr₂ ha t t₁ t₂, ?_, ?_⟩
    · intro hnumeric hwritten
      exact Recording.exists_analyses hr hnumeric hwritten t (writable_of_readText hread)
    · intro first second all hfirst hsecond hall
      exact exitCode_overall_of_essence
        (Recording.essence_append_of_ok hr hr₁ hr₂ ha hfirst hsecond hall)
  · intro names hsome hknown
    have hchosen : (vs.filter fun v => names.contains v.name).Sublist vs := List.filter_sublist
    refine ⟨_, select_of_known hsome hknown, select_append hsome hknown hnames, hchosen, ?_⟩
    exact (nodup_names_of_readText hB).sublist (hchosen.map FlowUnit.name)

namespace Listing

/-- A listing whose last line is left open. -/
def upper : String := "FUNC a\n0 live 0"

/-- A listing with a block that is listed twice. -/
def lower : String := "#\nFUNC b\n0 live\n0 dead"

def upperUnits : List FlowUnit :=
  [{ name := "a", line := some 1, entries := [⟨0, ⟨true, [0]⟩, some 2⟩] }]

def lowerUnits : List FlowUnit :=
  [{ name := "b", line := some 2, entries := [⟨0, ⟨true, []⟩, some 3⟩, ⟨0, ⟨false, []⟩, some 4⟩] }]

theorem readText_upper : readText "in.txt" upper = .ok upperUnits := by decide +kernel

theorem readText_lower : readText "in.txt" lower = .ok lowerUnits := by decide +kernel

theorem opensWithHeader_lower : OpensWithHeader lower :=
  ⟨"FUNC b".toList, by decide +kernel, by decide +kernel⟩

end Listing

/-- A unit that can be analyzed above one that cannot; the lower one is asked for twice. -/
theorem concatenation_repeated_block :
    readText "in.txt" upper = .ok upperUnits ∧ readText "in.txt" lower = .ok lowerUnits ∧
      OpensWithHeader lower ∧ (∀ u ∈ upperUnits, ∀ v ∈ lowerUnits, u.name ≠ v.name) ∧
      readText "in.txt" (upper ++ "\n" ++ lower) = .ok (upperUnits ++ below upper lowerUnits) ∧
      (∃ first second all,
        (Recording.counting 7).analyses {} {} upperUnits = .ok first ∧
        (Recording.counting 8).analyses { seconds := 3 } {} lowerUnits = .ok second ∧
        (Recording.counting 9).analyses {} {} (upperUnits ++ below upper lowerUnits) = .ok all ∧
        all.map Analysis.essence = first.map Analysis.essence ++ second.map Analysis.essence ∧
        (overall all).exitCode =
          if (overall first).exitCode = 1 ∨ (overall second).exitCode = 1 then 1
          else if (overall first).exitCode = 2 ∨ (overall second).exitCode = 2 then 2
          else 0) ∧
      ∃ chosen, select lowerUnits ["b", "b"] = .ok chosen ∧
        select (upperUnits ++ below upper lowerUnits) ["b", "b"] = .ok (below upper chosen) ∧
        chosen.Sublist lowerUnits ∧ (chosen.map FlowUnit.name).Nodup := by
  have hnames : ∀ u ∈ upperUnits, ∀ v ∈ lowerUnits, u.name ≠ v.name := by decide
  have hsteady (i : Int) (hi : i.natAbs < 2 ^ 63) : (Recording.counting i).Steady :=
    Recording.steady_counting hi
  have hnumeric : Options.Numeric {} := ⟨by decide, by decide, by decide, by decide⟩
  have hwritten : Options.Writable {} := ⟨by decide, by decide⟩
  obtain ⟨hread, hanalyses, hselect⟩ :=
    concatenation readText_upper readText_lower opensWithHeader_lower hnames
  obtain ⟨happend, hexists, hexit⟩ := hanalyses {} (.counting 9) (.counting 7) (.counting 8) {} {}
    { seconds := 3 } rfl (hsteady 9 (by decide)) (hsteady 7 (by decide)) (hsteady 8 (by decide))
  obtain ⟨all, hall⟩ := hexists hnumeric hwritten
  obtain ⟨first, hfirst⟩ := Recording.exists_analyses (hsteady 7 (by decide)) (a := {}) hnumeric hwritten
    {} (writable_of_readText readText_upper)
  obtain ⟨second, hsecond⟩ := Recording.exists_analyses (hsteady 8 (by decide)) (a := {}) hnumeric
    hwritten { seconds := 3 } (writable_of_readText readText_lower)
  rw [hall, hfirst, hsecond] at happend
  exact ⟨readText_upper, readText_lower, opensWithHeader_lower, hnames, hread,
    ⟨first, second, all, hfirst, hsecond, hall, Except.ok.inj happend,
      hexit first second all hfirst hsecond hall⟩,
    hselect ["b", "b"] (by decide) (by decide)⟩

end PrimePaths
