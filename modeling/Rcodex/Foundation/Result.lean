import Mathlib.Data.List.Forall2

/-!
# Computations that may fail

What a sequence of fallible steps returns: `bind_eq_ok_iff` and `pure_eq_ok_iff` take a `do` block
apart, `context` turns a missing value into an error and `bailWhen` reports an error when a
condition holds.  `mapM_eq_ok_iff` describes a list of computations that all return.  `FailsOnly`
says with which errors a computation may fail.
-/

namespace Result

variable {ε α β : Type}

/-- A computation returns exactly when its first part returns and the rest does. -/
theorem bind_eq_ok_iff {x : Except ε α} {f : α → Except ε β} {b : β} :
    (x >>= f) = .ok b ↔ ∃ a, x = .ok a ∧ f a = .ok b := by
  cases x with
  | error e =>
    constructor
    · intro h
      contradiction
    · intro h
      obtain ⟨a, h, -⟩ := h
      simp at h
  | ok a =>
    constructor
    · exact fun h => ⟨a, rfl, h⟩
    · intro h
      obtain ⟨a', h, h'⟩ := h
      cases h
      exact h'

/-- A returned value is the value returned. -/
theorem pure_eq_ok_iff {a b : α} : (pure a : Except ε α) = .ok b ↔ a = b := by
  simp [pure, Except.pure]

/-- Turn a missing value into an error. -/
def context (error : ε) : Option α → Except ε α
  | some a => .ok a
  | none => .error error

/-- A value is found exactly when there is no error. -/
theorem context_eq_ok_iff {error : ε} {o : Option α} {a : α} :
    context error o = .ok a ↔ o = some a := by
  cases o <;> simp [context]

/-- Report an error when a condition holds. -/
def bailWhen (p : Prop) [Decidable p] (error : ε) : Except ε Unit :=
  if p then .error error else .ok ()

/-- A check is passed exactly when its condition fails. -/
theorem bailWhen_eq_ok_iff {p : Prop} [Decidable p] {error : ε} {u : Unit} :
    bailWhen p error = .ok u ↔ ¬p := by
  unfold bailWhen
  by_cases h : p <;> simp [h]

/-- A check and what comes after it. -/
theorem bailWhen_bind (p : Prop) [Decidable p] (error : ε) (f : Unit → Except ε α) :
    (bailWhen p error >>= f) = if p then .error error else f () := by
  unfold bailWhen
  split_ifs
  · rfl
  · rfl

/-- Another error changes nothing of what is returned. -/
theorem mapError_eq_ok_iff {ε' : Type} {f : ε → ε'} {x : Except ε α} {a : α} :
    x.mapError f = .ok a ↔ x = .ok a := by
  cases x <;> simp [Except.mapError]

/-- A list of computations returns exactly when each of them does. -/
theorem mapM_eq_ok_iff {f : α → Except ε β} {xs : List α} {ys : List β} :
    xs.mapM f = .ok ys ↔ List.Forall₂ (fun x y => f x = .ok y) xs ys := by
  induction xs generalizing ys with
  | nil =>
    rw [List.mapM_nil, pure_eq_ok_iff, List.forall₂_nil_left_iff, eq_comm]
  | cons x xs ih =>
    rw [List.mapM_cons, bind_eq_ok_iff, List.forall₂_cons_left_iff]
    simp only [bind_eq_ok_iff, pure_eq_ok_iff, ih]
    constructor
    · intro h
      obtain ⟨y, hy, ys, hys, rfl⟩ := h
      exact ⟨y, ys, hy, hys, rfl⟩
    · intro h
      obtain ⟨y, ys, hy, hys, rfl⟩ := h
      exact ⟨y, hy, ys, hys, rfl⟩

/-! ### Possible errors -/

/-- The computation fails only with errors that have a property. -/
def FailsOnly (P : ε → Prop) (x : Except ε α) : Prop := ∀ e, x = .error e → P e

namespace FailsOnly

variable {P : ε → Prop}

/-- A value that is returned. -/
theorem ok (a : α) : FailsOnly P (.ok a) := by
  intro e h
  contradiction

/-- A sequence. -/
theorem bind {x : Except ε α} {f : α → Except ε β} (hx : FailsOnly P x)
    (hf : ∀ a, FailsOnly P (f a)) : FailsOnly P (x >>= f) := by
  intro e h
  cases x with
  | error e' => exact hx e (congrArg Except.error (Except.error.inj h))
  | ok a => exact hf a e h

/-- A missing value. -/
theorem context {error : ε} (h : P error) (o : Option α) : FailsOnly P (context error o) := by
  intro e he
  cases o with
  | none =>
    obtain rfl := Except.error.inj he
    exact h
  | some a => contradiction

/-- A check. -/
theorem bailWhen {error : ε} (h : P error) (p : Prop) [Decidable p] :
    FailsOnly P (bailWhen p error) := by
  intro e he
  unfold Result.bailWhen at he
  split_ifs at he
  obtain rfl := Except.error.inj he
  exact h

/-- A list of computations. -/
theorem mapM {f : α → Except ε β} (hf : ∀ a, FailsOnly P (f a)) (xs : List α) :
    FailsOnly P (xs.mapM f) := by
  induction xs with
  | nil =>
    rw [List.mapM_nil]
    exact ok []
  | cons x xs ih =>
    rw [List.mapM_cons]
    exact bind (hf x) fun y => bind ih fun ys => ok (y :: ys)

end FailsOnly

end Result
