import Rcodex.Foundation.Audit

/-!
# Computations that agree

A computation may be described at two levels, on different states and with different errors.
`Agree R x y` says of the ends `x` and `y` of two runs that both return the same value or both fail,
and that they leave related states.  `Agree.bind` is the rule for two sequences, and `Agree.lift`
relates a computation to one that is given its outcome in advance.
-/

namespace Effect

variable {σ τ ε ε' α β : Type}

/-- A computation of which the value is looked at through a function. -/
def map (p : α → β) (m : Effect σ ε α) : Effect σ ε β := fun s => ((m s).1.map p, (m s).2)

/-- A sequence is looked at through its last part. -/
theorem map_bind {γ : Type} (p : β → γ) (m : Effect σ ε α) (f : α → Effect σ ε β) :
    map p (m >>= f) = m >>= fun a => map p (f a) := by
  funext s
  rw [map, bind_apply, bind_apply, andThen, andThen]
  rcases m s with ⟨r, s'⟩
  cases r with
  | ok a => rfl
  | error e => rfl

/-- A value that is returned as it is. -/
theorem bind_pure (m : Effect σ ε α) : (m >>= fun a => pure a) = m := by
  funext s
  rw [bind_apply, andThen]
  rcases m s with ⟨r, s'⟩
  cases r with
  | ok a => rfl
  | error e => rfl

/-- Two runs return the same, or both fail, and leave related states. -/
structure Agree (R : σ → τ → Prop) (x : Except ε α × σ) (y : Except ε' α × τ) : Prop where
  /-- What they return. -/
  value : x.1.toOption = y.1.toOption
  /-- What they leave. -/
  state : R x.2 y.2

namespace Agree

variable {R : σ → τ → Prop} {s : σ} {t : τ}

/-- Both return a value. -/
theorem ret (h : R s t) (a : α) :
    Agree R ((pure a : Effect σ ε α) s) ((pure a : Effect τ ε' α) t) :=
  ⟨rfl, h⟩

/-- Both fail. -/
theorem fail (h : R s t) (e : ε) (e' : ε') :
    Agree R ((Effect.fail e : Effect σ ε α) s) ((Effect.fail e' : Effect τ ε' α) t) :=
  ⟨rfl, h⟩

/-- Two sequences, the first parts of which return the same up to a function. -/
theorem bind_map {γ : Type} {p : α → γ} {m : Effect σ ε α} {n : Effect τ ε' γ}
    {f : α → Effect σ ε β} {g : γ → Effect τ ε' β} (h : Agree R (map p m s) (n t))
    (hf : ∀ a s' t', m s = (.ok a, s') → n t = (.ok (p a), t') → R s' t' →
      Agree R (f a s') (g (p a) t')) :
    Agree R ((m >>= f) s) ((n >>= g) t) := by
  rw [bind_apply, bind_apply, andThen, andThen]
  obtain ⟨hvalue, hstate⟩ := h
  rw [map] at hvalue hstate
  rcases hm : m s with ⟨r, s'⟩
  rcases hn : n t with ⟨r', t'⟩
  rw [hm, hn] at hvalue hstate
  cases r with
  | ok a =>
    cases r' with
    | ok a' =>
      obtain rfl : p a = a' := Option.some.inj hvalue
      exact hf a s' t' hm hn hstate
    | error e' => simp [Except.toOption, Except.map] at hvalue
  | error e =>
    cases r' with
    | ok a' => simp [Except.toOption, Except.map] at hvalue
    | error e' => exact ⟨rfl, hstate⟩

/-- Two sequences. -/
theorem bind {m : Effect σ ε α} {n : Effect τ ε' α} {f : α → Effect σ ε β}
    {g : α → Effect τ ε' β} (h : Agree R (m s) (n t))
    (hf : ∀ a s' t', m s = (.ok a, s') → n t = (.ok a, t') → R s' t' → Agree R (f a s') (g a t')) :
    Agree R ((m >>= f) s) ((n >>= g) t) := by
  refine bind_map (p := id) ⟨?_, h.state⟩ hf
  rw [← h.value, map]
  cases (m s).1 with
  | ok a => rfl
  | error e => rfl

/-- The outcome is given in advance. -/
theorem lift {m : Effect σ ε α} {r : Except ε' α} (hvalue : (m s).1.toOption = r.toOption)
    (hstate : R (m s).2 t) : Agree R (m s) ((Effect.lift r : Effect τ ε' α) t) :=
  ⟨hvalue, hstate⟩

/-- The same check. -/
theorem failWhen (h : R s t) {p q : Prop} [Decidable p] [Decidable q] (hiff : p ↔ q) (e : ε)
    (e' : ε') : Agree R ((Effect.failWhen p e : Effect σ ε Unit) s)
      ((Effect.failWhen q e' : Effect τ ε' Unit) t) := by
  refine ⟨?_, h⟩
  change (Result.bailWhen p e).toOption = (Result.bailWhen q e').toOption
  unfold Result.bailWhen
  by_cases hp : p
  · rw [if_pos hp, if_pos (hiff.mp hp)]
    rfl
  · rw [if_neg hp, if_neg (mt hiff.mpr hp)]
    rfl

/-- The same outcome with other errors. -/
theorem lift_mapError (h : R s t) {ε'' : Type} (r : Except ε'' α) (f : ε'' → ε) (f' : ε'' → ε') :
    Agree R ((Effect.lift (r.mapError f) : Effect σ ε α) s)
      ((Effect.lift (r.mapError f') : Effect τ ε' α) t) := by
  refine ⟨?_, h⟩
  cases r with
  | ok a => rfl
  | error e => rfl

/-- A computation on a part of the state agrees with itself. -/
theorem within (part : Part σ τ) {f : ε' → ε} (m : Effect τ ε' α) :
    Agree (fun s t => part.get s = t) (Effect.within part f m s) (m (part.get s)) := by
  refine ⟨?_, part.get_put _ _⟩
  rw [Effect.within]
  cases (m (part.get s)).1 with
  | ok a => rfl
  | error e => rfl

/-- The results are looked at. -/
theorem attempt {m : Effect σ ε α} {n : Effect τ ε' α} {f : Except ε α → Effect σ ε β}
    {g : Except ε' α → Effect τ ε' β} (h : Agree R (m s) (n t))
    (hok : ∀ a s' t', m s = (.ok a, s') → R s' t' → Agree R (f (.ok a) s') (g (.ok a) t'))
    (herror : ∀ e e' s' t', m s = (.error e, s') → R s' t' →
      Agree R (f (.error e) s') (g (.error e') t')) :
    Agree R ((m.attempt >>= f) s) ((n.attempt >>= g) t) := by
  change Agree R (f (m s).1 (m s).2) (g (n t).1 (n t).2)
  obtain ⟨hvalue, hstate⟩ := h
  rcases hm : m s with ⟨r, s'⟩
  rcases hn : n t with ⟨r', t'⟩
  rw [hm, hn] at hvalue hstate
  cases r with
  | ok a =>
    cases r' with
    | ok a' =>
      obtain rfl : a = a' := Option.some.inj hvalue
      exact hok a s' t' hm hstate
    | error e' => simp [Except.toOption] at hvalue
  | error e =>
    cases r' with
    | ok a' => simp [Except.toOption] at hvalue
    | error e' => exact herror e e' s' t' hm hstate

/-- One returns what the other returns. -/
theorem of_ok {x : Except ε α × σ} {y : Except ε' α × τ} (h : Agree R x y) {a : α} {t' : τ}
    (hy : y = (.ok a, t')) : ∃ s', x = (.ok a, s') ∧ R s' t' := by
  obtain ⟨hvalue, hstate⟩ := h
  obtain ⟨r, s'⟩ := x
  rw [hy] at hvalue hstate
  cases r with
  | ok a' =>
    obtain rfl : a' = a := Option.some.inj hvalue
    exact ⟨s', rfl, hstate⟩
  | error e => simp [Except.toOption] at hvalue

/-- One fails if the other does. -/
theorem of_error {x : Except ε α × σ} {y : Except ε' α × τ} (h : Agree R x y) {e' : ε'} {t' : τ}
    (hy : y = (.error e', t')) : ∃ e s', x = (.error e, s') ∧ R s' t' := by
  obtain ⟨hvalue, hstate⟩ := h
  obtain ⟨r, s'⟩ := x
  rw [hy] at hvalue hstate
  cases r with
  | ok a => simp [Except.toOption] at hvalue
  | error e => exact ⟨e, s', rfl, hstate⟩

end Agree

end Effect
