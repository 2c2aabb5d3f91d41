import PrimePaths.Proofs.Search.Course
import PrimePaths.Proofs.Search.Tally
import Mathlib.Data.ENat.Lattice

namespace PrimePaths

open PrimePaths.Path

namespace Limits

def ofCounts (calls? paths? : Option Int) : Limits where
  maxCalls := calls?.map fun c => .number (.whole c)
  maxPaths := paths?.map fun c => .number (.whole c)

variable {calls? paths? : Option Int} {n : Nat} {e : Halt}

theorem callsHalt?_ofCounts :
    (ofCounts calls? paths?).callsHalt? n = some e ↔
      ∃ c ∈ calls?, c < n ∧ .limit (.calls (.whole c)) = e := by
  cases calls? <;> simp [ofCounts, callsHalt?, Bound.halt?, Number.lt]

theorem pathsHalt?_ofCounts :
    (ofCounts calls? paths?).pathsHalt? n = some e ↔
      ∃ c ∈ paths?, c ≤ n ∧ .limit (.paths (.whole c)) = e := by
  cases paths? <;> simp [ofCounts, pathsHalt?, Bound.halt?, Number.le, Number.lt, Number.isNaN]

theorem callsHalt?_ofCounts_none :
    (ofCounts calls? paths?).callsHalt? n = none ↔ ∀ c ∈ calls?, n ≤ c := by
  cases calls? <;> simp [ofCounts, callsHalt?, Bound.halt?, Number.lt]

theorem pathsHalt?_ofCounts_none :
    (ofCounts calls? paths?).pathsHalt? n = none ↔ ∀ c ∈ paths?, n < c := by
  cases paths? <;> simp [ofCounts, pathsHalt?, Bound.halt?, Number.le, Number.lt, Number.isNaN]

end Limits

/-- The counts of a search that was not stopped are within its limits, unless it counted nothing. -/
structure Progress.Within (calls? paths? : Option Int) (p : Progress) : Prop where
  calls : ∀ c ∈ calls?, p.calls = 0 ∨ p.calls ≤ c
  paths : ∀ c ∈ paths?, p.paths.size = 0 ∨ p.paths.size ≤ c

theorem Progress.Within.after {calls? paths? : Option Int} {p : Progress} {f : Finding}
    (h : p.Within calls? paths?) (hallows : (Limits.ofCounts calls? paths?).Allows p f) :
    (p.after f).Within calls? paths? := by
  cases f with
  | close path =>
    have hpaths := Limits.pathsHalt?_ofCounts_none.mp hallows
    refine ⟨h.calls, fun c hc => Or.inr ?_⟩
    have hless := hpaths c hc
    simp only [Progress.after, Array.size_push]
    omega
  | enter path =>
    have hcalls := Limits.callsHalt?_ofCounts_none.mp hallows.1
    have hpaths := Limits.pathsHalt?_ofCounts_none.mp hallows.2
    refine ⟨fun c hc => Or.inr ?_, fun c hc => Or.inr ?_⟩
    · exact hcalls c hc
    · have hless := hpaths c hc
      simp only [Progress.after, Array.size_push]
      omega
  | skip => exact h
  | back => exact h

theorem Course.within {calls? paths? : Option Int} {fails : Interruption → Prop} {p q : Progress}
    {fs : List Finding} (h : Course (.ofCounts calls? paths?) fails p fs none q) (hp : p.Within calls? paths?) :
    q.Within calls? paths? := by
  generalize hhalt : (none : Option Halt) = halt? at h
  induction h with
  | done => exact hp
  | step hallows _ ih => exact ih (hp.after hallows) hhalt
  | stop => simp at hhalt

theorem Stop.of_counts {calls? paths? : Option Int} {fails : Interruption → Prop} {p q : Progress}
    {f : Finding} {e : Halt} (h : Stop (.ofCounts calls? paths?) fails p f e q) (hf : f.Shaped) :
    ∃ path, f.path? = some path ∧
      ((∃ c ∈ calls?, c < p.calls + 1 ∧ ¬path.IsClosing ∧ e = .limit (.calls (.whole c))) ∨
      (∃ c ∈ paths?, c ≤ p.paths.size ∧ (∀ c ∈ calls?, path.IsClosing ∨ p.calls + 1 ≤ c) ∧
        e = .limit (.paths (.whole c)))) := by
  cases h with
  | @calls path _ h =>
    obtain ⟨c, hc, hless, rfl⟩ := Limits.callsHalt?_ofCounts.mp h
    refine ⟨path, rfl, Or.inl ⟨c, hc, by exact_mod_cast hless, ?_, rfl⟩⟩
    exact fun hclosing => hclosing.not_nodup hf.2
  | seconds _ _ h => simp [Limits.ofCounts, Limits.secondsHalt?] at h
  | clock _ htimed => simp [Limits.ofCounts] at htimed
  | @paths path _ hcalls h =>
    obtain ⟨c, hc, hle, rfl⟩ := Limits.pathsHalt?_ofCounts.mp h
    have hroom := Limits.callsHalt?_ofCounts_none.mp hcalls
    exact ⟨path, rfl, Or.inr ⟨c, hc, hle, fun c hc => Or.inr (by exact_mod_cast hroom c hc), rfl⟩⟩
  | @close path _ h =>
    obtain ⟨c, hc, hle, rfl⟩ := Limits.pathsHalt?_ofCounts.mp h
    exact ⟨path, rfl, Or.inr ⟨c, hc, hle, fun _ _ => Or.inl hf, rfl⟩⟩

namespace Recording

variable {r : Recording} {t : Readings} (g : Graph)

/-- A search that ends by itself records the list of the search without limits. -/
theorem search_complete {l : Limits} (h : (r.search t l g none).halt? = none) :
    (r.search t l g none).progress.paths.toList = g.paths ∧
      (r.search t l g none).progress.calls = openCount g.paths := by
  cases hfirst : r.seconds t.seconds with
  | error i =>
    rw [search_of_error hfirst] at h
    simp [Outcome.cut] at h
  | ok startedAt =>
    obtain ⟨q, hcourse, remarks, hq⟩ := course_search_nodes l g hfirst
    rw [h] at hcourse
    rw [hq, hcourse.eq_foldl]
    refine ⟨Progress.paths_foldl_after _ _, ?_⟩
    exact (Progress.calls_foldl_after (fun _ => Graph.shaped_of_mem_trees) _).trans (Nat.zero_add _)

/-- A search that is stopped after its first reading has taken in the findings before one that records a
path. -/
theorem search_stopped {l : Limits} {e : Halt} {startedAt : Number}
    (hfirst : r.seconds t.seconds = .ok startedAt) (h : (r.search t l g none).halt? = some e) :
    ∃ fails before f rest p q, g.nodes.flatMap g.tree = before ++ f :: rest ∧
      Course l fails { remarks := #[.started g.n l] } before none p ∧ Stop l fails p f e q ∧
      (r.search t l g none).progress.paths.toList = before.filterMap Finding.path? := by
  obtain ⟨q, hcourse, remarks, hq⟩ := course_search_nodes l g hfirst
  rw [h] at hcourse
  obtain ⟨before, f, rest, hfs, hbefore, hstop⟩ := hcourse.exists_stop
  refine ⟨_, before, f, rest, _, q, hfs, hbefore, hstop, ?_⟩
  rw [hq]
  refine (congrArg Array.toList hstop.paths_eq).trans ?_
  exact Progress.paths_foldl_after _ _

/-- A search that is stopped after its first reading keeps the beginning of the list, and not all of it. -/
theorem search_prefix {l : Limits} {e : Halt} {startedAt : Number}
    (hfirst : r.seconds t.seconds = .ok startedAt) (h : (r.search t l g none).halt? = some e) :
    ∃ path rest, g.paths = (r.search t l g none).progress.paths.toList ++ path :: rest := by
  obtain ⟨_, before, f, rest, p, q, hfs, -, hstop, hpaths⟩ := search_stopped g hfirst h
  obtain ⟨path, hpath⟩ := hstop.exists_path
  refine ⟨path, rest.filterMap Finding.path?, ?_⟩
  rw [hpaths, Graph.paths, hfs, List.filterMap_append, List.filterMap_cons_some hpath]

/-- Where limits of whole numbers cut the list, and which of them does. -/
theorem search_cut {calls? paths? : Option Int} {e : Halt} {startedAt : Number}
    (hfirst : r.seconds t.seconds = .ok startedAt)
    (h : (r.search t (.ofCounts calls? paths?) g none).halt? = some e) :
    ∃ before path rest, g.paths = before ++ path :: rest ∧
      (r.search t (.ofCounts calls? paths?) g none).progress.paths.toList = before ∧
      (∀ c ∈ calls?, openCount before = 0 ∨ openCount before ≤ c) ∧
      (∀ c ∈ paths?, before.length = 0 ∨ before.length ≤ c) ∧
      ((∃ c ∈ calls?, c < openCount before + 1 ∧ ¬path.IsClosing ∧ e = .limit (.calls (.whole c))) ∨
      (∃ c ∈ paths?, c ≤ before.length ∧ (∀ c ∈ calls?, path.IsClosing ∨ openCount before + 1 ≤ c) ∧
        e = .limit (.paths (.whole c)))) := by
  obtain ⟨_, before, f, rest, p, q, hfs, hbefore, hstop, hpaths⟩ := search_stopped g hfirst h
  have hshaped : ∀ found ∈ before ++ f :: rest, found.Shaped := by
    intro found hfound
    rw [← hfs] at hfound
    exact Graph.shaped_of_mem_trees hfound
  obtain ⟨path, hpath, hcause⟩ := hstop.of_counts (hshaped f (by simp))
  have hwithin := hbefore.within ⟨fun _ _ => Or.inl rfl, fun _ _ => Or.inl rfl⟩
  have hp := hbefore.eq_foldl
  have hcalls : p.calls = openCount (before.filterMap Finding.path?) := by
    rw [hp, Progress.calls_foldl_after fun f hf => hshaped f (List.mem_append_left _ hf)]
    exact Nat.zero_add _
  have hsize : p.paths.size = (before.filterMap Finding.path?).length := by
    rw [hp, ← Array.length_toList, Progress.paths_foldl_after]
    rfl
  rw [hcalls, hsize] at hcause
  refine ⟨before.filterMap Finding.path?, path, rest.filterMap Finding.path?, ?_, hpaths, ?_, ?_, hcause⟩
  · rw [Graph.paths, hfs, List.filterMap_append, List.filterMap_cons_some hpath]
  · rw [← hcalls]
    exact hwithin.calls
  · rw [← hsize]
    exact hwithin.paths

end Recording

theorem Graph.openCount_paths_pos {g : Graph} (h : g.paths ≠ []) : 0 < openCount g.paths := by
  obtain ⟨p, hp⟩ := List.exists_mem_of_ne_nil _ h
  rw [paths_eq] at hp ⊢
  obtain ⟨s, hs, -⟩ := List.mem_flatMap.mp hp
  refine List.countP_pos_iff.mpr ⟨[s], List.mem_flatMap.mpr ⟨s, hs, List.mem_cons_self⟩, ?_⟩
  simp [Path.IsClosing]

/-- How many paths come before the one that calls for more than the given number of calls. -/
def cutByCalls (paths : List Path) : Option Nat → ℕ∞
  | none => ⊤
  | some c => (paths.findIdxs fun p => decide ¬p.IsClosing)[c]?.elim ⊤ Nat.cast

def cutByPaths : Option Nat → ℕ∞
  | none => ⊤
  | some c => c

section Places

variable {before : List Path} {path : Path} {c : Nat}

theorem cutByCalls_eq (rest : List Path) (hcount : openCount before = c) (hopen : ¬path.IsClosing) :
    cutByCalls (before ++ path :: rest) (some c) = before.length := by
  have hplace : ((before ++ path :: rest).findIdxs fun p => decide ¬p.IsClosing)[c]? =
      some before.length := by
    rw [List.findIdxs_append, List.findIdxs_cons, if_pos (by simpa using hopen),
      List.getElem?_append_right (by rw [List.length_findIdxs]; exact hcount.le),
      List.length_findIdxs, ← hcount]
    simp [openCount]
  rw [cutByCalls, hplace]
  rfl

theorem le_cutByCalls (rest : List Path) (hcount : openCount before ≤ c) :
    (before.length : ℕ∞) ≤ cutByCalls (before ++ rest) (some c) := by
  rw [cutByCalls]
  cases hplace : ((before ++ rest).findIdxs fun p => decide ¬p.IsClosing)[c]? with
  | none => exact le_top
  | some i =>
    rw [List.findIdxs_append,
      List.getElem?_append_right (by rw [List.length_findIdxs]; exact hcount)] at hplace
    have hle := List.ge_of_mem_findIdxs i (List.mem_of_getElem? hplace)
    rw [Option.elim_some, Nat.cast_le]
    omega

theorem openCount_concat_le (hbefore : openCount before ≤ c)
    (hroom : path.IsClosing ∨ openCount before + 1 ≤ c) : openCount (before ++ [path]) ≤ c := by
  have happend : openCount (before ++ [path]) = openCount before + openCount [path] :=
    List.countP_append
  rcases hroom with hclosing | hless
  · have hnone : openCount [path] = 0 := by simp [openCount, hclosing]
    omega
  · have hone : openCount [path] ≤ 1 := List.countP_le_length
    omega

/-- A path that is within the calls comes before their cut. -/
theorem lt_cutByCalls (rest : List Path) (hbefore : openCount before ≤ c)
    (hroom : path.IsClosing ∨ openCount before + 1 ≤ c) :
    (before.length : ℕ∞) < cutByCalls (before ++ path :: rest) (some c) := by
  have hlater := le_cutByCalls rest (openCount_concat_le hbefore hroom)
  rw [List.append_assoc, List.singleton_append] at hlater
  refine lt_of_lt_of_le ?_ hlater
  rw [Nat.cast_lt, List.length_append]
  simp

end Places

namespace Recording

variable {r : Recording} {t : Readings} (g : Graph)

theorem search_halts_iff (calls? paths? : Option Int) {startedAt : Number}
    (hfirst : r.seconds t.seconds = .ok startedAt) :
    (r.search t (.ofCounts calls? paths?) g none).halt? ≠ none ↔ g.paths ≠ [] ∧
      ((∃ c ∈ calls?, c < openCount g.paths) ∨ (∃ c ∈ paths?, c < g.paths.length)) := by
  constructor
  · intro hhalt
    obtain ⟨e, he⟩ := Option.ne_none_iff_exists'.mp hhalt
    obtain ⟨before, path, rest, hlist, -, -, -, hcause⟩ := search_cut g hfirst he
    refine ⟨by simp [hlist], ?_⟩
    rcases hcause with ⟨c, hc, hless, hopen, -⟩ | ⟨c, hc, hle, -, -⟩
    · refine Or.inl ⟨c, hc, ?_⟩
      have hcount : openCount before + 1 ≤ openCount g.paths := by
        simp [hlist, openCount, hopen]
      omega
    · refine Or.inr ⟨c, hc, ?_⟩
      rw [hlist, List.length_append, List.length_cons]
      omega
  · intro h hhalt
    obtain ⟨hne, hexceeds⟩ := h
    obtain ⟨q, hcourse, remarks, hq⟩ :=
      course_search_nodes (.ofCounts calls? paths?) g hfirst
    rw [hhalt] at hcourse
    have hwithin := hcourse.within ⟨fun _ _ => Or.inl rfl, fun _ _ => Or.inl rfl⟩
    obtain ⟨hpaths, hcalls⟩ := search_complete g hhalt
    rw [hq] at hpaths hcalls
    have hpos := Graph.openCount_paths_pos hne
    rcases hexceeds with ⟨c, hc, hless⟩ | ⟨c, hc, hless⟩
    · have hroom := hwithin.calls c hc
      simp only at hcalls
      omega
    · have hroom := hwithin.paths c hc
      have hsize : q.paths.size = g.paths.length := congrArg List.length hpaths
      have hsome := List.length_pos_iff.mpr hne
      omega

theorem search_keeps (calls? paths? : Option Nat) {e : Halt} {startedAt : Number}
    (hfirst : r.seconds t.seconds = .ok startedAt)
    (h : (r.search t (.ofCounts (calls?.map Nat.cast) (paths?.map Nat.cast)) g none).halt? = some e) :
    let found := r.search t (.ofCounts (calls?.map Nat.cast) (paths?.map Nat.cast)) g none
    let k := cutByCalls g.paths calls?
    let m := cutByPaths paths?
    (found.progress.paths.size = k ∧ k ≤ m ∧ ∃ c ∈ calls?, e = .limit (.calls (.whole c))) ∨
      (found.progress.paths.size = m ∧ m < k ∧ ∃ c ∈ paths?, e = .limit (.paths (.whole c))) := by
  obtain ⟨before, path, rest, hlist, hkept, hcalls, hpaths, hcause⟩ := search_cut g hfirst h
  have hsize : (r.search t (.ofCounts (calls?.map Nat.cast) (paths?.map Nat.cast)) g
      none).progress.paths.size = before.length := by
    rw [← Array.length_toList, hkept]
  have hm : (before.length : ℕ∞) ≤ cutByPaths paths? := by
    cases paths? with
    | none => exact le_top
    | some m =>
      have hroom := hpaths m (by simp)
      rw [cutByPaths, Nat.cast_le]
      omega
  simp only [hsize]
  rcases hcause with ⟨c, hc, hless, hopen, rfl⟩ | ⟨m, hm', hle, hroom, rfl⟩
  · left
    obtain ⟨n, rfl, rfl⟩ := Option.map_eq_some_iff.mp hc
    have hcount : openCount before = n := by
      have := hcalls n (by simp)
      omega
    rw [hlist, cutByCalls_eq rest hcount hopen]
    exact ⟨rfl, hm, n, rfl, rfl⟩
  · right
    obtain ⟨n, rfl, rfl⟩ := Option.map_eq_some_iff.mp hm'
    have hn : before.length = n := by
      have := hpaths n (by simp)
      omega
    refine ⟨by rw [hn]; rfl, ?_, n, rfl, rfl⟩
    rw [cutByPaths, ← hn]
    cases calls? with
    | none => exact ENat.natCast_lt_top _
    | some c =>
      have hbefore : openCount before ≤ c := by
        have := hcalls c (by simp)
        omega
      rw [hlist]
      exact lt_cutByCalls rest hbefore ((hroom c (by simp)).imp_right (by exact_mod_cast ·))

end Recording

theorem Graph.calls_survey (g : Graph) : (g.survey g.nodes).calls = openCount g.paths := by
  exact (Progress.calls_foldl_after (fun _ => shaped_of_mem_trees) _).trans (Nat.zero_add _)

/-- Limits only cut the list of a search short. A search under numbers returns the list of the search
without limits, with as many calls, or is stopped before the end of it, at a limit or because its clock
fails. Once it has started, a search without a limit of time is stopped exactly if there is a path and the
calls or the paths of the full search exceed their limit; what it keeps then ends where the first of the two
limits cuts the list, the limit of calls if both do at once. A limit that can be written is what the caller
hears of, and a verbose search under such limits goes as a silent one. -/
theorem search_limited (g : Graph) :
    ∃ done, g.FullSearch done ∧
      (∀ (limits : Limits) (r : Recording) (t : Readings), limits.Numeric →
        let found := r.search t limits g none
        (found.halt? = none ∧ found.progress.paths = done.paths ∧
          found.progress.calls = done.calls) ∨
        (∃ reached, found.halt? = some (.limit reached) ∧
          found.progress.paths.toList <+: done.paths.toList ∧
          found.progress.paths ≠ done.paths) ∨
        (∃ i, r.Fails i ∧ found.halt? = some (.cut i) ∧
          found.progress.paths.toList <+: done.paths.toList)) ∧
      (∀ (calls? paths? : Option Int) (r : Recording) (t : Readings) (startedAt : Number),
        r.seconds t.seconds = .ok startedAt →
        let found := r.search t (.ofCounts calls? paths?) g none
        found.halt? ≠ none ↔ done.paths ≠ #[] ∧
          ((∃ c ∈ calls?, c < done.calls) ∨ (∃ c ∈ paths?, c < done.paths.size))) ∧
      (∀ (calls? paths? : Option Nat) (r : Recording) (t : Readings) (startedAt : Number),
        r.seconds t.seconds = .ok startedAt →
        let found := r.search t (.ofCounts (calls?.map Nat.cast) (paths?.map Nat.cast)) g none
        let k := cutByCalls done.paths.toList calls?
        let m := cutByPaths paths?
        found.halt? ≠ none →
          found.progress.paths.size = min m k ∧
          ((∃ c ∈ calls?, found.halt? = some (.limit (.calls (.whole c)))) ↔ k ≤ m ∧ k ≠ ⊤)) ∧
      (∀ (limits : Limits) (r : Recording) (t : Readings), limits.Writable →
        (∀ reached, (r.search t limits g none).halt? = some (.limit reached) →
          (Halt.limit reached).raised = .ok reached) ∧
        ((g.n < 0 → (Number.whole g.n).Writable) →
          enumerate r.clocks.seconds true limits g none =
            enumerate r.clocks.seconds false limits g none)) := by
  have hpaths : (g.survey g.nodes).paths.toList = g.paths := g.paths_survey_nodes
  have hsize : (g.survey g.nodes).paths.size = g.paths.length := congrArg List.length hpaths
  refine ⟨g.survey g.nodes, g.fullSearch_survey, ?_, ?_, ?_, ?_⟩
  · intro limits r t hl found
    cases hhalt : found.halt? with
    | none =>
      obtain ⟨hfull, hcalls⟩ := Recording.search_complete g hhalt
      refine Or.inl ⟨rfl, ?_, hcalls.trans g.calls_survey.symm⟩
      exact Array.toList_inj.mp (hfull.trans hpaths.symm)
    | some e =>
      cases hfirst : r.seconds t.seconds with
      | error i =>
        have hcut : found = .cut i := Recording.search_of_error hfirst
        obtain rfl : e = .cut i := by
          rw [hcut] at hhalt
          exact (Option.some.inj hhalt).symm
        refine Or.inr (Or.inr ⟨i, ⟨_, hfirst⟩, rfl, ?_⟩)
        rw [hcut]
        exact List.nil_prefix
      | ok startedAt =>
        obtain ⟨path, rest, hlist⟩ := Recording.search_prefix g hfirst hhalt
        have hprefix : found.progress.paths.toList <+: (g.survey g.nodes).paths.toList := by
          rw [hpaths, hlist]
          exact List.prefix_append _ _
        rcases Recording.isDue_of_search_nodes hl hhalt with ⟨reached, rfl⟩ | ⟨i, hfails, rfl⟩
        · refine Or.inr (Or.inl ⟨reached, rfl, hprefix, ?_⟩)
          intro hsame
          have hfull : found.progress.paths.toList = g.paths :=
            (congrArg Array.toList hsame).trans hpaths
          have hlength := congrArg List.length (hfull.trans hlist)
          simp [found] at hlength
        · exact Or.inr (Or.inr ⟨i, hfails, rfl, hprefix⟩)
  · intro calls? paths? r t startedAt hfirst found
    have hempty : (g.survey g.nodes).paths ≠ #[] ↔ g.paths ≠ [] := by
      rw [← hpaths, ne_eq, ne_eq, Array.toList_eq_nil_iff]
    rw [Recording.search_halts_iff g calls? paths? hfirst, hempty, hsize, g.calls_survey]
  · intro calls? paths? r t startedAt hfirst found k m hhalt
    obtain ⟨e, he⟩ := Option.ne_none_iff_exists'.mp hhalt
    have hkeeps := Recording.search_keeps g calls? paths? hfirst he
    rw [← hpaths] at hkeeps
    rcases hkeeps with ⟨hkept, hle, c, hc, rfl⟩ | ⟨hkept, hless, c, -, rfl⟩
    · refine ⟨hkept.trans (min_eq_right hle).symm, fun _ => ⟨hle, ?_⟩, fun _ => ⟨c, hc, he⟩⟩
      exact ne_of_eq_of_ne hkept.symm (ENat.natCast_ne_top _)
    · refine ⟨hkept.trans (min_eq_left hless.le).symm, ?_, ?_⟩
      · intro h
        obtain ⟨c', -, hcause⟩ := h
        simp [found, he] at hcause
      · intro h
        exact absurd h.1 (not_le.mpr hless)
  · intro limits r t hl
    refine ⟨fun reached hhalt => Recording.raised_of_search_nodes hl hhalt, fun hn => ?_⟩
    exact enumerate_verbose _ ⟨hn, hl⟩ none true

private theorem exists_cycle :
    ∃ g, (Graph.empty 2).addEdges [(0, 1), (1, 0)] = .ok g ∧
      g.paths = [[0], [0, 1], [0, 1, 0], [1], [1, 0], [1, 0, 1]] := by
  refine ⟨_, rfl, ?_⟩
  generalize hg : Graph.mk _ _ _ _ = g
  have hnodes : g.nodes = [0, 1] := by
    rw [← hg]
    rfl
  have hzero : g.succsOf 0 = [1] := by
    rw [← hg]
    rfl
  have hone : g.succsOf 1 = [0] := by
    rw [← hg]
    rfl
  simp [Graph.paths, Graph.tree, Graph.beyond_eq, Graph.branch, hnodes, hzero, hone]
  rfl

/-- On a cycle of two nodes the third call and the fourth path are due at the same step. -/
theorem search_limited_cycle :
    ∃ g done, (Graph.empty 2).addEdges [(0, 1), (1, 0)] = .ok g ∧ g.FullSearch done ∧
      done.paths = #[[0], [0, 1], [0, 1, 0], [1], [1, 0], [1, 0, 1]] ∧ done.calls = 4 ∧
      ((Recording.counting 0).search {} (.ofCounts (some 2) (some 3)) g none).progress.paths.size = 3 ∧
      ((Recording.counting 0).search {} (.ofCounts (some 2) (some 3)) g none).halt? =
        some (.limit (.calls (.whole 2))) ∧
      (Halt.limit (.calls (.whole 2))).raised = .ok (.calls (.whole 2)) := by
  obtain ⟨g, hg, hlist⟩ := exists_cycle
  obtain ⟨done, hfull, -, hstops, hkeeps, hraised⟩ := search_limited g
  have hpaths : done.paths = #[[0], [0, 1], [0, 1, 0], [1], [1, 0], [1, 0, 1]] := by
    rw [hfull.eq_survey]
    exact Array.toList_inj.mp (g.paths_survey_nodes.trans hlist)
  have hcalls : done.calls = 4 := by
    rw [hfull.eq_survey, g.calls_survey, hlist]
    decide
  have hstopped := (hstops (some 2) (some 3) (.counting 0) {} _ rfl).mpr
    ⟨by simp [hpaths], Or.inl ⟨2, rfl, by omega⟩⟩
  obtain ⟨hsize, hcause⟩ := hkeeps (some 2) (some 3) (.counting 0) {} _ rfl hstopped
  have hcut : cutByCalls done.paths.toList (some 2) = 3 := by
    rw [hpaths]
    rfl
  rw [hcut, cutByPaths] at hsize hcause
  have hcalled : ((Recording.counting 0).search {} (.ofCounts (some 2) (some 3)) g none).halt? =
      some (.limit (.calls (.whole 2))) := by
    obtain ⟨c, hc, hlimit⟩ := hcause.mpr ⟨le_refl _, ENat.natCast_ne_top 3⟩
    obtain rfl := Option.some.inj hc
    exact hlimit
  refine ⟨g, done, hg, hfull, hpaths, hcalls, ?_, hcalled, ?_⟩
  · exact_mod_cast hsize.trans (min_self _)
  · exact (hraised _ (.counting 0) {} (by decide +kernel)).1 _ hcalled

end PrimePaths
