import PrimePaths.Proofs.Search.Course

namespace PrimePaths.Search

variable {σ α β : Type} {P : Progress → σ → Prop}

def Preserves (P : Progress → σ → Prop) (x : Search (StateM σ) α) : Prop :=
  ∀ p s, P p s → P (x.replay p s).1.2 (x.replay p s).2

theorem Preserves.bind {x : Search (StateM σ) α} {f : α → Search (StateM σ) β} (hx : Preserves P x)
    (hf : ∀ a, Preserves P (f a)) : Preserves P (x >>= f) := by
  intro p s hp
  have hfirst := hx p s hp
  rw [replay_bind]
  generalize x.replay p s = first at hfirst
  rcases first with ⟨⟨e | a, q⟩, s'⟩
  · exact hfirst
  · exact hf a q s' hfirst

theorem Preserves.outcome {x : Search (StateM σ) Unit} (hx : Preserves P x) {p : Progress} {s : σ}
    (hp : P p s) : P ((x.outcome p).run s).1.progress ((x.outcome p).run s).2 := by
  have hkept := hx p s hp
  rw [outcome_run]
  generalize x.replay p s = r at hkept
  rcases r with ⟨⟨_ | _, _⟩, _⟩ <;> exact hkept

theorem preserves_pure (a : α) : Preserves P (pure a : Search (StateM σ) α) :=
  fun _ _ hp => hp

theorem preserves_get : Preserves P (get : Search (StateM σ) Progress) :=
  fun _ _ hp => hp

theorem preserves_throw (e : Halt) : Preserves P (throw e : Search (StateM σ) α) :=
  fun _ _ hp => hp

theorem preserves_modify {f : Progress → Progress} (hf : ∀ p s, P p s → P (f p) s) :
    Preserves P (modify f : Search (StateM σ) Unit) :=
  hf

theorem preserves_stopAt (halt? : Option Halt) :
    Preserves P (Budget.stopAt halt? : Search (StateM σ) Unit) := by
  intro p s hp
  rwa [replay_stopAt]

theorem preserves_liftM {x : StateM σ α} (hx : ∀ p s, P p s → P p (x.run s).2) :
    Preserves P (liftM x : Search (StateM σ) α) :=
  hx

theorem preserves_forM {l : List α} {f : α → Search (StateM σ) Unit}
    (hf : ∀ a ∈ l, Preserves P (f a)) : Preserves P (forM l f) := by
  induction l with
  | nil => exact preserves_pure _
  | cons a l ih =>
    rw [List.forM_cons]
    exact (hf a List.mem_cons_self).bind fun _ => ih fun b hb => hf b (List.mem_cons_of_mem a hb)

end PrimePaths.Search

namespace PrimePaths

variable {σ τ : Type} {v : σ → τ}

namespace Budget

open Search

variable {b : Budget (StateM σ)} (hnow : ∀ s, v (b.now.run s).2 = v s) (t : τ)

theorem keeps_record (path : Path) : Preserves (fun _ s => v s = t) (b.record path) :=
  preserves_get.bind fun _ => (preserves_stopAt _).bind fun _ => preserves_modify fun _ _ hs => hs

include hnow

theorem keeps_check : Preserves (fun _ s => v s = t) b.check := by
  refine preserves_get.bind fun p => (preserves_stopAt _).bind fun _ => ?_
  split
  · refine (preserves_liftM fun _ s hs => (hnow s).trans hs).bind fun reading => ?_
    cases reading with
    | ok time => exact preserves_stopAt _
    | error i => exact preserves_throw _
  · exact preserves_pure _

theorem keeps_act (f : Finding) : Preserves (fun _ s => v s = t) (b.act f) := by
  have hmodify (g : Progress → Progress) :
      Preserves (fun _ s => v s = t) (modify g : Search (StateM σ) Unit) :=
    preserves_modify fun _ _ hs => hs
  cases f with
  | close path => exact keeps_record t path
  | enter path =>
    refine (hmodify _).bind fun _ => (keeps_check hnow t).bind fun _ => ?_
    exact (hmodify _).bind fun _ => (hmodify _).bind fun _ => keeps_record t path
  | skip => exact preserves_pure _
  | back => exact preserves_pure _

theorem keeps_enumerate (g : Graph) : Preserves (fun _ s => v s = t) (b.enumerate g g.nodes) := by
  have hmodify (f : Progress → Progress) :
      Preserves (fun _ s => v s = t) (modify f : Search (StateM σ) Unit) :=
    preserves_modify fun _ _ hs => hs
  have hwalks := b.forM_walkFrom (g := g) fun s hs => hs
  rw [enumerate, List.forM_eq_forM, hwalks]
  refine (hmodify _).bind fun _ => (preserves_forM fun f _ => keeps_act hnow t f).bind fun _ => ?_
  exact preserves_get.bind fun _ => hmodify _

end Budget

/-- What a reading of the clock keeps, a search on it keeps. -/
theorem keeps_search {now : StateM σ (Except Interruption Number)} (hnow : ∀ s, v (now.run s).2 = v s)
    (verbose : Bool) (limits : Limits) (g : Graph) (s : σ) :
    v ((enumerate now verbose limits g none).run s).2 = v s := by
  rw [enumerate, StateT.run_bind]
  have hfirst := hnow s
  generalize now.run s = first at hfirst
  rcases first with ⟨i | startedAt, s'⟩
  · exact hfirst
  · dsimp only
    split
    · exact hfirst
    · have hkeeps := Budget.keeps_enumerate (b := { limits, now, startedAt }) hnow (v s) g
      exact hkeeps.outcome (p := {}) hfirst

/-- A search reads the clock of seconds only. -/
theorem Recording.readings_enumerate (r : Recording) (t : Readings) (verbose : Bool) (limits : Limits)
    (g : Graph) :
    ((enumerate r.clocks.seconds verbose limits g none).run t).2.nanoseconds = t.nanoseconds ∧
      ((enumerate r.clocks.seconds verbose limits g none).run t).2.today = t.today :=
  ⟨keeps_search (v := Readings.nanoseconds) (fun _ => rfl) verbose limits g t,
    keeps_search (v := Readings.today) (fun _ => rfl) verbose limits g t⟩

end PrimePaths
