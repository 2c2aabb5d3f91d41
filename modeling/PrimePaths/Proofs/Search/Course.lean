import PrimePaths.Clock
import PrimePaths.Proofs.Search.Unlimited

namespace PrimePaths

/-- Every bound that is set is a number. -/
structure Limits.Numeric (l : Limits) : Prop where
  seconds : l.maxSeconds ≠ some .blank
  calls : l.maxCalls ≠ some .blank
  paths : l.maxPaths ≠ some .blank

def Limits.Allows (l : Limits) (p : Progress) : Finding → Prop
  | .close _ => l.pathsHalt? p.paths.size = none
  | .enter _ => l.callsHalt? (p.calls + 1) = none ∧ l.pathsHalt? p.paths.size = none
  | .skip => True
  | .back => True

/-- A search stops at a finding for a reason and leaves a progress; `fails` says how its clock may fail. The
call of a path is counted before the clock is read, and its depth before there has to be room for it. -/
inductive Stop (l : Limits) (fails : Interruption → Prop) (p : Progress) : Finding → Halt → Progress → Prop
  | calls {path e} (h : l.callsHalt? (p.calls + 1) = some e) :
    Stop l fails p (.enter path) e { p with calls := p.calls + 1 }
  | seconds {path e} (elapsed : Number) (hcalls : l.callsHalt? (p.calls + 1) = none)
    (h : l.secondsHalt? elapsed = some e) :
    Stop l fails p (.enter path) e { p with calls := p.calls + 1 }
  | clock {path i} (hcalls : l.callsHalt? (p.calls + 1) = none) (htimed : l.maxSeconds.isSome)
    (h : fails i) : Stop l fails p (.enter path) (.cut i) { p with calls := p.calls + 1 }
  | paths {path e} (hcalls : l.callsHalt? (p.calls + 1) = none)
    (h : l.pathsHalt? p.paths.size = some e) :
    Stop l fails p (.enter path) e { p.after (.enter path) with paths := p.paths }
  | close {path e} (h : l.pathsHalt? p.paths.size = some e) : Stop l fails p (.close path) e p

/-- A search may go over findings from one progress to another and halt there, or not. -/
inductive Course (l : Limits) (fails : Interruption → Prop) :
    Progress → List Finding → Option Halt → Progress → Prop
  | done (p) : Course l fails p [] none p
  | step {p f fs halt? q} (hallows : l.Allows p f) (hrest : Course l fails (p.after f) fs halt? q) :
    Course l fails p (f :: fs) halt? q
  | stop {p f fs e q} (hstop : Stop l fails p f e q) : Course l fails p (f :: fs) (some e) q

section Courses

variable {l : Limits} {fails : Interruption → Prop} {p q : Progress} {f : Finding} {fs : List Finding}
  {e : Halt}

theorem Bound.isLimit_of_halt? {b? : Option Bound} {passes : Number → Bool}
    {reached : Number → LimitReached} (hb : b? ≠ some .blank)
    (h : (b?.bind fun b => b.halt? passes reached) = some e) : ∃ reached, e = .limit reached := by
  obtain ⟨b, rfl, h⟩ := Option.bind_eq_some_iff.mp h
  cases b with
  | blank => exact absurd rfl hb
  | number limit =>
    obtain ⟨-, h⟩ := Option.ite_none_right_eq_some.mp h
    exact ⟨reached limit, (Option.some.inj h).symm⟩

/-- The limit that a bound is reached at is the bound. -/
theorem Bound.eq_number_of_halt? {b? : Option Bound} {passes : Number → Bool}
    {reached : Number → LimitReached} {found : LimitReached}
    (h : (b?.bind fun b => b.halt? passes reached) = some (.limit found)) :
    ∃ limit, b? = some (.number limit) ∧ found = reached limit := by
  obtain ⟨b, rfl, h⟩ := Option.bind_eq_some_iff.mp h
  cases b with
  | blank => simp [Bound.halt?] at h
  | number limit =>
    obtain ⟨-, h⟩ := Option.ite_none_right_eq_some.mp h
    exact ⟨limit, rfl, (Halt.limit.inj (Option.some.inj h)).symm⟩

/-- A search stops at limits that are given. -/
theorem Stop.mem_given {reached : LimitReached} (h : Stop l fails p f (.limit reached) q) :
    Bound.number reached.limit ∈ l.given := by
  cases h with
  | calls h =>
    obtain ⟨limit, hl, rfl⟩ := Bound.eq_number_of_halt? h
    simp [Limits.given, hl, LimitReached.limit]
  | seconds _ _ h =>
    obtain ⟨limit, hl, rfl⟩ := Bound.eq_number_of_halt? h
    simp [Limits.given, hl, LimitReached.limit]
  | paths _ h =>
    obtain ⟨limit, hl, rfl⟩ := Bound.eq_number_of_halt? h
    simp [Limits.given, hl, LimitReached.limit]
  | close h =>
    obtain ⟨limit, hl, rfl⟩ := Bound.eq_number_of_halt? h
    simp [Limits.given, hl, LimitReached.limit]

/-- A search under numbers halts at a limit, or because its clock fails. -/
def Halt.IsDue (fails : Interruption → Prop) (e : Halt) : Prop :=
  (∃ reached, e = .limit reached) ∨ ∃ i, fails i ∧ e = .cut i

theorem Stop.isDue (h : Stop l fails p f e q) (hl : l.Numeric) : e.IsDue fails := by
  cases h with
  | calls h => exact Or.inl (Bound.isLimit_of_halt? hl.calls h)
  | seconds _ _ h => exact Or.inl (Bound.isLimit_of_halt? hl.seconds h)
  | clock _ _ h => exact Or.inr ⟨_, h, rfl⟩
  | paths _ h => exact Or.inl (Bound.isLimit_of_halt? hl.paths h)
  | close h => exact Or.inl (Bound.isLimit_of_halt? hl.paths h)

theorem Stop.paths_eq (h : Stop l fails p f e q) : q.paths = p.paths := by
  cases h <;> rfl

theorem Stop.exists_path (h : Stop l fails p f e q) : ∃ path, f.path? = some path := by
  cases h <;> exact ⟨_, rfl⟩

namespace Course

theorem isDue (h : Course l fails p fs (some e) q) (hl : l.Numeric) : e.IsDue fails := by
  generalize hhalt : some e = halt? at h
  induction h with
  | done => simp at hhalt
  | step _ _ ih => exact ih hhalt
  | stop hstop =>
    obtain rfl := Option.some.inj hhalt
    exact hstop.isDue hl

theorem mem_given {reached : LimitReached} (h : Course l fails p fs (some (.limit reached)) q) :
    Bound.number reached.limit ∈ l.given := by
  generalize hhalt : some (Halt.limit reached) = halt? at h
  induction h with
  | done => simp at hhalt
  | step _ _ ih => exact ih hhalt
  | stop hstop =>
    obtain rfl := Option.some.inj hhalt
    exact hstop.mem_given

theorem eq_foldl (h : Course l fails p fs none q) : q = fs.foldl Progress.after p := by
  generalize hhalt : (none : Option Halt) = halt? at h
  induction h with
  | done => rfl
  | step _ _ ih => exact ih hhalt
  | stop => simp at hhalt

/-- Before a search stops it takes in all findings up to the one where it stops. -/
theorem exists_stop (h : Course l fails p fs (some e) q) :
    ∃ before f rest, fs = before ++ f :: rest ∧
      Course l fails p before none (before.foldl Progress.after p) ∧
      Stop l fails (before.foldl Progress.after p) f e q := by
  generalize hhalt : some e = halt? at h
  induction h with
  | done => simp at hhalt
  | step hallows _ ih =>
    obtain ⟨before, f, rest, rfl, hbefore, hstop⟩ := ih hhalt
    exact ⟨_ :: before, f, rest, rfl, .step hallows hbefore, hstop⟩
  | stop hstop =>
    obtain rfl := Option.some.inj hhalt
    exact ⟨[], _, _, rfl, .done _, hstop⟩

end Course

end Courses

namespace Search

variable {σ α β : Type}

/-- How a search ends on a clock with states, with its progress and the state of the clock. -/
def replay (x : Search (StateM σ) α) (p : Progress) (s : σ) : (Except Halt α × Progress) × σ :=
  (x.run.run p).run s

theorem replay_bind (x : Search (StateM σ) α) (f : α → Search (StateM σ) β) (p : Progress) (s : σ) :
    (x >>= f).replay p s =
      match x.replay p s with
      | ((.ok a, p), s) => (f a).replay p s
      | ((.error e, p), s) => ((.error e, p), s) := by
  simp only [replay, run_bind, StateT.run_bind]
  generalize StateT.run (x.run.run p) s = r
  rcases r with ⟨⟨_ | _, _⟩, _⟩ <;> rfl

@[simp] theorem replay_get (p : Progress) (s : σ) :
    (get : Search (StateM σ) Progress).replay p s = ((.ok p, p), s) := rfl

@[simp] theorem replay_modify (f : Progress → Progress) (p : Progress) (s : σ) :
    (modify f : Search (StateM σ) Unit).replay p s = ((.ok (), f p), s) := rfl

@[simp] theorem replay_throw (e : Halt) (p : Progress) (s : σ) :
    (throw e : Search (StateM σ) α).replay p s = ((.error e, p), s) := rfl

@[simp] theorem replay_stopAt (halt? : Option Halt) (p : Progress) (s : σ) :
    (Budget.stopAt halt? : Search (StateM σ) Unit).replay p s =
      ((halt?.elim (.ok ()) .error, p), s) := by
  cases halt? <;> rfl

@[simp] theorem replay_liftM (x : StateM σ α) (p : Progress) (s : σ) :
    (liftM x : Search (StateM σ) α).replay p s = ((.ok (x.run s).1, p), (x.run s).2) := rfl

theorem replay_forM_cons_of_ok {f : α → Search (StateM σ) Unit} {a : α} {l : List α} {p p' : Progress}
    {s s' : σ} (h : (f a).replay p s = ((.ok (), p'), s')) :
    (forM (a :: l) f).replay p s = (forM l f).replay p' s' := by
  rw [List.forM_cons, replay_bind, h]

theorem replay_forM_cons_of_error {f : α → Search (StateM σ) Unit} {a : α} {l : List α}
    {p q : Progress} {s s' : σ} {e : Halt} (h : (f a).replay p s = ((.error e, q), s')) :
    (forM (a :: l) f).replay p s = ((.error e, q), s') := by
  rw [List.forM_cons, replay_bind, h]

/-- Work on a list halts at an element of it, after the work on those before it. -/
theorem replay_forM_eq_error_iff {f : α → Search (StateM σ) Unit} {l : List α} {p q : Progress}
    {s s'' : σ} {e : Halt} :
    (forM l f).replay p s = ((.error e, q), s'') ↔
      ∃ before a rest p' s', l = before ++ a :: rest ∧
        (forM before f).replay p s = ((.ok (), p'), s') ∧ (f a).replay p' s' = ((.error e, q), s'') := by
  constructor
  · intro h
    induction l generalizing p s with
    | nil => cases h
    | cons a l ih =>
      rcases hfirst : (f a).replay p s with ⟨⟨e' | u, p'⟩, s'⟩
      · rw [replay_forM_cons_of_error hfirst, ← hfirst] at h
        exact ⟨[], a, l, p, s, rfl, rfl, h⟩
      · rw [replay_forM_cons_of_ok hfirst] at h
        obtain ⟨before, x, rest, p'', s₂, rfl, hbefore, hx⟩ := ih h
        refine ⟨a :: before, x, rest, p'', s₂, rfl, ?_, hx⟩
        rw [replay_forM_cons_of_ok hfirst, hbefore]
  · rintro ⟨before, a, rest, p', s', rfl, hbefore, ha⟩
    rw [List.forM_append, replay_bind, hbefore]
    exact replay_forM_cons_of_error ha

theorem outcome_run (x : Search (StateM σ) Unit) (p : Progress) (s : σ) :
    (x.outcome p).run s =
      match x.replay p s with
      | ((.ok _, p), s) => ({ halt? := none, progress := p }, s)
      | ((.error e, p), s) => ({ halt? := some e, progress := p }, s) := by
  simp only [outcome, replay, StateT.run_bind]
  generalize StateT.run (x.run.run p) s = r
  rcases r with ⟨⟨_ | _, _⟩, _⟩ <;> rfl

end Search

namespace Budget

variable {σ : Type} (b : Budget (StateM σ))

/-- The clock of a search can fail so. -/
def Fails (i : Interruption) : Prop :=
  ∃ s, (b.now.run s).1 = .error i

theorem replay_record (path : Path) (p : Progress) (s : σ) :
    (b.record path).replay p s =
      ((b.limits.pathsHalt? p.paths.size).elim (.ok (), { p with paths := p.paths.push path })
        fun e => (.error e, p), s) := by
  cases h : b.limits.pathsHalt? p.paths.size <;> simp [record, h, Search.replay_bind]

theorem replay_check (p : Progress) (s : σ) :
    ∃ s', (b.check.replay p s = ((.ok (), p), s') ∧ b.limits.callsHalt? p.calls = none) ∨
      ∃ e, b.check.replay p s = ((.error e, p), s') ∧
        (b.limits.callsHalt? p.calls = some e ∨
          b.limits.callsHalt? p.calls = none ∧ (∃ elapsed, b.limits.secondsHalt? elapsed = some e) ∨
          b.limits.callsHalt? p.calls = none ∧ b.limits.maxSeconds.isSome ∧ ∃ i, b.Fails i ∧ e = .cut i) := by
  cases hcalls : b.limits.callsHalt? p.calls with
  | some e => exact ⟨s, Or.inr ⟨e, by simp [check, hcalls, Search.replay_bind], Or.inl rfl⟩⟩
  | none =>
    by_cases htimed : b.limits.maxSeconds.isSome
    · refine ⟨(b.now.run s).2, ?_⟩
      cases hreading : (b.now.run s).1 with
      | error i =>
        have hrun : b.check.replay p s = ((.error (.cut i), p), (b.now.run s).2) := by
          simp [check, hcalls, htimed, hreading, Search.replay_bind]
        exact Or.inr ⟨_, hrun, Or.inr (Or.inr ⟨rfl, htimed, i, ⟨s, hreading⟩, rfl⟩)⟩
      | ok time =>
        have hrun : b.check.replay p s =
            (((b.limits.secondsHalt? (time.sub b.startedAt)).elim (.ok ()) .error, p),
              (b.now.run s).2) := by
          simp [check, hcalls, htimed, hreading, Search.replay_bind]
        rw [hrun]
        cases hseconds : b.limits.secondsHalt? (time.sub b.startedAt) with
        | none => exact Or.inl ⟨rfl, rfl⟩
        | some e => exact Or.inr ⟨e, rfl, Or.inr (Or.inl ⟨rfl, _, hseconds⟩)⟩
    · refine ⟨s, Or.inl ⟨?_, rfl⟩⟩
      simp [check, hcalls, htimed, Search.replay_bind]

/-- All that a search can do at a finding. -/
theorem act_cases (f : Finding) (p : Progress) (s : σ) :
    ∃ s', (b.limits.Allows p f ∧ (b.act f).replay p s = ((.ok (), p.after f), s')) ∨
      ∃ e q, Stop b.limits b.Fails p f e q ∧ (b.act f).replay p s = ((.error e, q), s') := by
  cases f with
  | skip => exact ⟨s, Or.inl ⟨trivial, rfl⟩⟩
  | back => exact ⟨s, Or.inl ⟨trivial, rfl⟩⟩
  | close path =>
    refine ⟨s, ?_⟩
    rw [act, replay_record]
    cases hpaths : b.limits.pathsHalt? p.paths.size with
    | none => exact Or.inl ⟨hpaths, rfl⟩
    | some e => exact Or.inr ⟨e, p, .close hpaths, rfl⟩
  | enter path =>
    -- The call is counted before the check, and the depth before there has to be room for the path.
    simp only [act, expand, Search.replay_bind, Search.replay_modify, replay_record]
    obtain ⟨s', ⟨hs', hcalls⟩ | ⟨e, hs', hcalls | ⟨hcalls, elapsed, hseconds⟩ |
        ⟨hcalls, htimed, i, hfails, rfl⟩⟩⟩ :=
      b.replay_check { p with calls := p.calls + 1 } s
    · refine ⟨s', ?_⟩
      rw [hs']
      cases hpaths : b.limits.pathsHalt? p.paths.size with
      | none =>
        refine Or.inl ⟨⟨hcalls, hpaths⟩, ?_⟩
        by_cases hremark : (p.calls + 1) % remarkEvery = 0 <;>
          simp [Progress.after, hremark, hpaths]
      | some e =>
        refine Or.inr ⟨e, _, .paths hcalls hpaths, ?_⟩
        by_cases hremark : (p.calls + 1) % remarkEvery = 0 <;>
          simp [Progress.after, hremark, hpaths]
    · exact ⟨s', Or.inr ⟨e, _, .calls hcalls, by rw [hs']⟩⟩
    · exact ⟨s', Or.inr ⟨e, _, .seconds elapsed hcalls hseconds, by rw [hs']⟩⟩
    · exact ⟨s', Or.inr ⟨_, _, .clock hcalls htimed hfails, by rw [hs']⟩⟩

/-- A search that does not halt at a finding takes it in. -/
theorem eq_after_of_act {f : Finding} {p q : Progress} {s s' : σ}
    (h : (b.act f).replay p s = ((.ok (), q), s')) : q = p.after f := by
  obtain ⟨s'', ⟨-, hrun⟩ | ⟨e, q', -, hrun⟩⟩ := b.act_cases f p s
  · rw [hrun] at h
    cases h
    rfl
  · rw [hrun] at h
    cases h

theorem course_forM (fs : List Finding) (p : Progress) (s : σ) :
    ∃ halt? q s', Course b.limits b.Fails p fs halt? q ∧
      (forM fs b.act : Search (StateM σ) Unit).replay p s = ((halt?.elim (.ok ()) .error, q), s') := by
  induction fs generalizing p s with
  | nil => exact ⟨none, p, s, .done p, rfl⟩
  | cons f fs ih =>
    rw [List.forM_cons, Search.replay_bind]
    obtain ⟨s', ⟨hallows, hs'⟩ | ⟨e, q, hstop, hs'⟩⟩ := b.act_cases f p s
    · rw [hs']
      obtain ⟨halt?, q, s'', hcourse, hs''⟩ := ih (p.after f) s'
      exact ⟨halt?, q, s'', .step hallows hcourse, hs''⟩
    · rw [hs']
      exact ⟨some e, q, s', .stop hstop, rfl⟩

end Budget

/-- How a search ends that acted on its findings so; it remarks on it if it came to their end. -/
def Outcome.ofReplay : Except Halt Unit × Progress → Outcome
  | (.ok _, p) =>
    { halt? := none
      progress := { p with remarks := p.remarks.push (.complete p.calls p.paths.size) } }
  | (.error e, p) => { halt? := some e, progress := p }

theorem Budget.outcome_enumerate {σ : Type} (b : Budget (StateM σ)) {g : Graph} {starts : List Int}
    (h : ∀ s ∈ starts, s ∈ g.nodes) (s : σ) :
    (((b.enumerate g starts).outcome {}).run s).1 =
      .ofReplay ((forM (starts.flatMap g.tree) b.act : Search (StateM σ) Unit).replay
        { remarks := #[.started g.n b.limits] } s).1 := by
  have hfirst : ({ remarks := (#[] : Array Remark).push (.started g.n b.limits) } : Progress) =
      { remarks := #[.started g.n b.limits] } := rfl
  have hwalks := b.forM_walkFrom h
  rw [Search.outcome_run, Budget.enumerate, List.forM_eq_forM, hwalks]
  simp only [remark, Search.replay_bind, Search.replay_modify, Search.replay_get, hfirst]
  generalize (forM (starts.flatMap g.tree) b.act : Search (StateM σ) Unit).replay _ s = done
  rcases done with ⟨⟨e | u, p⟩, s'⟩ <;> rfl

theorem Budget.course_enumerate {σ : Type} (b : Budget (StateM σ)) {g : Graph} {starts : List Int}
    (h : ∀ s ∈ starts, s ∈ g.nodes) (s : σ) :
    ∃ q, Course b.limits b.Fails { remarks := #[.started g.n b.limits] } (starts.flatMap g.tree)
        (((b.enumerate g starts).outcome {}).run s).1.halt? q ∧
      ∃ remarks, (((b.enumerate g starts).outcome {}).run s).1.progress = { q with remarks } := by
  obtain ⟨halt?, q, s', hcourse, hrun⟩ := b.course_forM (starts.flatMap g.tree)
    { remarks := #[.started g.n b.limits] } s
  rw [b.outcome_enumerate h, hrun]
  cases halt? with
  | none => exact ⟨q, hcourse, _, rfl⟩
  | some e => exact ⟨q, hcourse, _, rfl⟩

namespace Recording

/-- What a search finds on a recording from where its readings stand. -/
def search (r : Recording) (t : Readings) (limits : Limits) (g : Graph) (starts? : Option (List Int)) :
    Outcome :=
  ((enumerate r.clocks.seconds false limits g starts?).run t).1.2

/-- The clock of seconds fails so at some time. -/
def Fails (r : Recording) (i : Interruption) : Prop :=
  ∃ k, r.seconds k = .error i

/-- What a search on a recording is held to that started at the given time. -/
def budget (r : Recording) (limits : Limits) (startedAt : Number) : Budget Replay where
  limits := limits
  now := r.clocks.seconds
  startedAt := startedAt

theorem fails_of_budget {r : Recording} {limits : Limits} {startedAt : Number} {i : Interruption}
    (h : (r.budget limits startedAt).Fails i) : r.Fails i := by
  obtain ⟨t, ht⟩ := h
  exact ⟨t.seconds, ht⟩

variable {r : Recording} {t : Readings} {limits : Limits} {g : Graph} {starts? : Option (List Int)}
  {startedAt : Number} {i : Interruption}

/-- A search whose first reading fails finds nothing. -/
theorem search_of_error (h : r.seconds t.seconds = .error i) : r.search t limits g starts? = .cut i := by
  have hreading : r.clocks.seconds.run t = (.error i, { t with seconds := t.seconds + 1 }) := by
    rw [← h]
    rfl
  rw [search, enumerate, StateT.run_bind, hreading]
  rfl

theorem search_of_ok (h : r.seconds t.seconds = .ok startedAt) :
    r.search t limits g starts? =
      ((((r.budget limits startedAt).enumerate g (starts?.getD g.nodes)).outcome {}).run
        { t with seconds := t.seconds + 1 }).1 := by
  have hreading : r.clocks.seconds.run t = (.ok startedAt, { t with seconds := t.seconds + 1 }) := by
    rw [← h]
    rfl
  rw [search, enumerate, StateT.run_bind, hreading]
  rfl

variable (limits) in
theorem course_search (hfirst : r.seconds t.seconds = .ok startedAt)
    (h : ∀ s ∈ starts?.getD g.nodes, s ∈ g.nodes) :
    ∃ q, Course limits (r.budget limits startedAt).Fails { remarks := #[.started g.n limits] }
        ((starts?.getD g.nodes).flatMap g.tree) (r.search t limits g starts?).halt? q ∧
      ∃ remarks, (r.search t limits g starts?).progress = { q with remarks } := by
  rw [search_of_ok hfirst]
  exact (r.budget limits startedAt).course_enumerate h _

variable (limits g) in
theorem course_search_nodes (hfirst : r.seconds t.seconds = .ok startedAt) :
    ∃ q, Course limits (r.budget limits startedAt).Fails { remarks := #[.started g.n limits] }
        (g.nodes.flatMap g.tree) (r.search t limits g none).halt? q ∧
      ∃ remarks, (r.search t limits g none).progress = { q with remarks } := by
  have hstarts : ∀ s ∈ (none : Option (List Int)).getD g.nodes, s ∈ g.nodes := fun _ hs => hs
  exact course_search limits hfirst hstarts

theorem isDue_of_search (hl : limits.Numeric) (h : ∀ s ∈ starts?.getD g.nodes, s ∈ g.nodes) {e : Halt}
    (hhalt : (r.search t limits g starts?).halt? = some e) : e.IsDue r.Fails := by
  cases hfirst : r.seconds t.seconds with
  | error i =>
    rw [search_of_error hfirst] at hhalt
    exact Or.inr ⟨i, ⟨_, hfirst⟩, (Option.some.inj hhalt).symm⟩
  | ok startedAt =>
    obtain ⟨q, hcourse, -⟩ := course_search limits hfirst h
    rw [hhalt] at hcourse
    rcases hcourse.isDue hl with hlimit | ⟨i, hfails, hcut⟩
    · exact Or.inl hlimit
    · exact Or.inr ⟨i, fails_of_budget hfails, hcut⟩

/-- The caller hears of the limit at which a search stops if the limits can be written. -/
theorem raised_of_search (hl : limits.Writable) (h : ∀ s ∈ starts?.getD g.nodes, s ∈ g.nodes)
    {reached : LimitReached} (hhalt : (r.search t limits g starts?).halt? = some (.limit reached)) :
    (Halt.limit reached).raised = .ok reached := by
  cases hfirst : r.seconds t.seconds with
  | error i =>
    rw [search_of_error hfirst] at hhalt
    cases hhalt
  | ok startedAt =>
    obtain ⟨q, hcourse, -⟩ := course_search limits hfirst h
    rw [hhalt] at hcourse
    exact Halt.raised_eq_ok_iff.mpr ⟨rfl, hl _ hcourse.mem_given⟩

theorem isDue_of_search_nodes (hl : limits.Numeric) {e : Halt}
    (hhalt : (r.search t limits g none).halt? = some e) : e.IsDue r.Fails := by
  have hstarts : ∀ s ∈ (none : Option (List Int)).getD g.nodes, s ∈ g.nodes := fun _ hs => hs
  exact isDue_of_search hl hstarts hhalt

theorem raised_of_search_nodes (hl : limits.Writable) {reached : LimitReached}
    (hhalt : (r.search t limits g none).halt? = some (.limit reached)) :
    (Halt.limit reached).raised = .ok reached := by
  have hstarts : ∀ s ∈ (none : Option (List Int)).getD g.nodes, s ∈ g.nodes := fun _ hs => hs
  exact raised_of_search hl hstarts hhalt

end Recording

end PrimePaths
