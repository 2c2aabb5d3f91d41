namespace PrimePaths.Except

variable {ε ε' α β : Type} {x : Except ε α}

@[simp] theorem bind_eq_ok_iff {f : α → Except ε β} {b : β} :
    x >>= f = .ok b ↔ ∃ a, x = .ok a ∧ f a = .ok b := by
  cases x <;> simp [bind, Except.bind]

@[simp] theorem pure_eq_ok_iff {a b : α} : (pure a : Except ε α) = .ok b ↔ a = b := by
  simp [pure, Except.pure]

@[simp] theorem map_eq_ok_iff {f : α → β} {b : β} : x.map f = .ok b ↔ ∃ a, x = .ok a ∧ f a = b := by
  cases x <;> simp [Except.map]

@[simp] theorem mapError_eq_ok_iff {f : ε → ε'} {a : α} : x.mapError f = .ok a ↔ x = .ok a := by
  cases x with
  | error e => exact iff_of_false nofun nofun
  | ok b =>
    have hsame : (Except.ok b : Except ε α).mapError f = .ok b := rfl
    rw [hsame, Except.ok.injEq, Except.ok.injEq]

/-- Computations that end alike but for what `g` leaves out of their failures still do so when they go on
alike. -/
theorem mapError_bind_congr {g : ε → ε'} {y : Except ε α} {f h : α → Except ε β}
    (hxy : x.mapError g = y.mapError g) (hfh : ∀ a, (f a).mapError g = (h a).mapError g) :
    (x >>= f).mapError g = (y >>= h).mapError g := by
  cases x with
  | error e =>
    cases y with
    | error e' => exact congrArg Except.error (Except.error.inj hxy)
    | ok b => cases hxy
  | ok a =>
    cases y with
    | error e' => cases hxy
    | ok b =>
      obtain rfl := Except.ok.inj hxy
      exact hfh a

end PrimePaths.Except
