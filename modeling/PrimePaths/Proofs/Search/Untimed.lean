import PrimePaths.Proofs.Search.Course

namespace PrimePaths

variable {m : Type → Type} [Monad m] [LawfulMonad m] {α β : Type}

/-- A search on some clock goes as another one does without a clock. -/
def Search.GoesAs (x : Search m α) (y : Search Id α) : Prop :=
  ∀ p, x.run.run p = pure (y.run.run p).run

namespace Search

theorem GoesAs.bind {x : Search m α} {y : Search Id α} {f : α → Search m β} {g : α → Search Id β}
    (hx : GoesAs x y) (hf : ∀ a, GoesAs (f a) (g a)) : GoesAs (x >>= f) (y >>= g) := by
  intro p
  rw [run_bind, run_bind, hx p, pure_bind, Id.run_bind]
  generalize (y.run.run p).run = r
  rcases r with ⟨e | a, q⟩
  · rfl
  · exact hf a q

omit [LawfulMonad m] in
theorem goesAs_pure (a : α) : GoesAs (pure a : Search m α) (pure a) :=
  fun _ => rfl

theorem goesAs_get : GoesAs (get : Search m Progress) get :=
  fun p => run_get p

theorem goesAs_modify (f : Progress → Progress) : GoesAs (modify f : Search m Unit) (modify f) :=
  fun p => run_modify f p

omit [LawfulMonad m] in
theorem goesAs_stopAt (halt? : Option Halt) :
    GoesAs (Budget.stopAt halt? : Search m Unit) (Budget.stopAt halt?) := by
  intro p
  rw [run_stopAt, run_stopAt]
  rfl

theorem goesAs_forM {l : List α} {f : α → Search m Unit} {g : α → Search Id Unit}
    (h : ∀ a, GoesAs (f a) (g a)) : GoesAs (forM l f) (forM l g) := by
  induction l with
  | nil => exact goesAs_pure _
  | cons a l ih =>
    rw [List.forM_cons, List.forM_cons]
    exact (h a).bind fun _ => ih

theorem GoesAs.outcome {x : Search m Unit} {y : Search Id Unit} (h : GoesAs x y) (p : Progress) :
    x.outcome p = pure (y.outcome p).run := by
  rw [Search.outcome, Search.outcome, h p, pure_bind, Id.run_bind]
  generalize (y.run.run p).run = r
  rcases r with ⟨e | a, q⟩ <;> rfl

end Search

namespace Budget

open Search

variable {limits : Limits} {now : m (Except Interruption Number)} {clock : Id (Except Interruption Number)}
  {s t : Number}

theorem goesAs_check (h : limits.maxSeconds = none) :
    GoesAs (check { limits, now, startedAt := s }) (check { limits, now := clock, startedAt := t }) := by
  refine goesAs_get.bind fun p => (goesAs_stopAt _).bind fun _ => ?_
  simp only [h]
  exact goesAs_pure _

theorem goesAs_record (path : Path) :
    GoesAs (record { limits, now, startedAt := s } path)
      (record { limits, now := clock, startedAt := t } path) :=
  goesAs_get.bind fun _ => (goesAs_stopAt _).bind fun _ => goesAs_modify _

theorem goesAs_act (h : limits.maxSeconds = none) (f : Finding) :
    GoesAs (act { limits, now, startedAt := s } f) (act { limits, now := clock, startedAt := t } f) := by
  cases f with
  | close path => exact goesAs_record path
  | enter path =>
    refine (goesAs_modify _).bind fun _ => (goesAs_check h).bind fun _ => ?_
    exact (goesAs_modify _).bind fun _ => (goesAs_modify _).bind fun _ => goesAs_record path
  | skip => exact goesAs_pure _
  | back => exact goesAs_pure _

theorem goesAs_enumerate (h : limits.maxSeconds = none) (g : Graph) :
    GoesAs (enumerate { limits, now, startedAt := s } g g.nodes)
      (enumerate { limits, now := clock, startedAt := t } g g.nodes) := by
  have hwalks := fun b : Budget m => b.forM_walkFrom (g := g) fun s hs => hs
  have hclockless := fun b : Budget Id => b.forM_walkFrom (g := g) fun s hs => hs
  rw [enumerate, enumerate, List.forM_eq_forM, List.forM_eq_forM, hwalks, hclockless]
  refine (goesAs_modify _).bind fun _ => (goesAs_forM (goesAs_act h)).bind fun _ => ?_
  exact goesAs_get.bind fun _ => goesAs_modify _

end Budget

/-- How a search of all paths without a time limit ends. -/
def Graph.untimedOutcome (g : Graph) (verbose : Bool) (limits : Limits) : Outcome :=
  if verbose ∧ ¬(Remark.started g.n limits).Writable then .cut (.crash .unwritable)
  else (((Budget.mk limits (pure (.ok (.whole 0)) : Id _) (.whole 0)).enumerate g g.nodes).outcome {}).run

/-- Without a time limit the clock is read once, for the start, and what it says does not matter. -/
theorem enumerate_untimed (now : m (Except Interruption Number)) (verbose : Bool) {limits : Limits}
    (h : limits.maxSeconds = none) (g : Graph) :
    enumerate now verbose limits g none = (g.untimedOutcome verbose limits).since <$> now := by
  rw [enumerate, map_eq_pure_bind]
  congr 1
  funext reading
  cases reading with
  | error i => rfl
  | ok t =>
    have houtcome : (Budget.enumerate { limits, now, startedAt := t } g g.nodes).outcome {} =
        pure (((Budget.mk limits (pure (.ok (.whole 0)) : Id _) (.whole 0)).enumerate g g.nodes).outcome
          {}).run := (Budget.goesAs_enumerate h g).outcome {}
    simp only [Option.getD_none, houtcome, pure_bind, Graph.untimedOutcome, Outcome.since]
    split <;> rfl

end PrimePaths
