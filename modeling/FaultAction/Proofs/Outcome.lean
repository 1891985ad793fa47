namespace FaultAction

/-!
# Outcomes — steps that may fail

When steps that may fail succeed, and which error they give when they do not:

* `bind_eq_ok_iff`     — a step after another succeeds;
* `map_eq_ok_iff`      — a function of what a step gives;
* `mapError_eq_ok_iff` — a step whose error is put in other words;
* `mapError_map`       — other words for the error do not depend on what is made of a value;
* `failure?`           — the error of a step that fails;
* `failure?_bind`      — of two steps the first that fails decides.
-/

variable {ε ε' α β : Type} {x : Except ε α}

/-- The step `f` after the step `x` gives `b` exactly if `x` gives a value from which `f` gives
    `b`. -/
theorem bind_eq_ok_iff {f : α → Except ε β} {b : β} :
    (x >>= f) = .ok b ↔ ∃ a, x = .ok a ∧ f a = .ok b := by
  constructor
  · intro h
    cases x with
    | error e => cases h
    | ok a => exact ⟨a, rfl, h⟩
  · rintro ⟨a, rfl, h⟩
    exact h

/-- The step `f <$> x` gives `b` exactly if `x` gives an argument at which `f` is `b`. -/
theorem map_eq_ok_iff {f : α → β} {b : β} : f <$> x = .ok b ↔ ∃ a, x = .ok a ∧ f a = b := by
  constructor
  · intro h
    cases x with
    | error e => cases h
    | ok a => exact ⟨a, rfl, Except.ok.inj h⟩
  · rintro ⟨a, rfl, rfl⟩
    rfl

/-- Other words `f` for the error of `x` do not change what `x` gives if it succeeds. -/
theorem mapError_eq_ok_iff {f : ε → ε'} {a : α} : x.mapError f = .ok a ↔ x = .ok a := by
  cases x with
  | error e => exact iff_of_false (fun h => by cases h) (fun h => by cases h)
  | ok b => exact ⟨fun h => congrArg Except.ok (Except.ok.inj h), fun h => by rw [h]; rfl⟩

/-- It does not matter whether the error of `x` is put in other words by `f` before or after `g` is
    applied to the value. -/
theorem mapError_map {f : ε → ε'} {g : α → β} :
    (g <$> x).mapError f = g <$> x.mapError f := by
  cases x <;> rfl

/-! ### Errors -/

/-- The error of a step, if it fails. -/
def failure? : Except ε α → Option ε
  | .ok _ => none
  | .error e => some e

/-- The step `x` has no error exactly if it gives a value. -/
theorem failure?_eq_none_iff : failure? x = none ↔ ∃ a, x = .ok a := by
  cases x <;> simp [failure?]

/-- The step `x` has the error `e` exactly if it fails with it. -/
theorem failure?_eq_some_iff {e : ε} : failure? x = some e ↔ x = .error e := by
  cases x <;> simp [failure?]

/-- Of the step `x` and a step `f` after it, whose error `o` does not depend on the value given, the
    first that fails decides. -/
theorem failure?_bind {f : α → Except ε β} {o : Option ε} (h : ∀ a, failure? (f a) = o) :
    failure? (x >>= f) = (failure? x).or o := by
  cases x with
  | error e => rfl
  | ok a => exact h a

/-- After the step `x` nothing can go wrong in `f`, so `x` decides alone. -/
theorem failure?_bind_of_none {f : α → Except ε β} (h : ∀ a, failure? (f a) = none) :
    failure? (x >>= f) = failure? x := by
  rw [failure?_bind h, Option.or_none]

end FaultAction
