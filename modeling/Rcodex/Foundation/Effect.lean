import Rcodex.Foundation.Result

/-!
# Computations that change a state and may fail

An `Effect` takes a state and returns a result or an error, and the state it leaves in either case:
what was done before an error is not undone.

`Triple P m Q E` says that from a state with `P` the computation returns into `Q` or fails into
`E`.  `Triple.bind` is the rule for a sequence of computations, `Triple.conseq` the one for
stronger and weaker conditions, and `Triple.ends` says what a triple means at a state.
-/

/-- A computation over states `σ` with errors `ε`. -/
def Effect (σ ε α : Type) : Type := σ → Except ε α × σ

namespace Effect

variable {σ ε α β : Type}

/-- Return a value. -/
def ret (a : α) : Effect σ ε α := fun s => (.ok a, s)

/-- Go on with the value that is returned. -/
def andThen (m : Effect σ ε α) (f : α → Effect σ ε β) : Effect σ ε β := fun s =>
  match m s with
  | (.ok a, s') => f a s'
  | (.error e, s') => (.error e, s')

instance : Monad (Effect σ ε) where
  pure := ret
  bind := andThen

/-- A sequence from a state. -/
theorem bind_apply (m : Effect σ ε α) (f : α → Effect σ ε β) (s : σ) :
    (m >>= f) s = andThen m f s := rfl

/-- The outcome of a computation without a state. -/
def lift (r : Except ε α) : Effect σ ε α := fun s => (r, s)

/-- Fail. -/
def fail (e : ε) : Effect σ ε α := lift (.error e)

/-- Report an error when a condition holds. -/
def failWhen (p : Prop) [Decidable p] (e : ε) : Effect σ ε Unit := lift (Result.bailWhen p e)

/-- A value that depends on the state, which may change. -/
def ask (f : σ → α × σ) : Effect σ ε α := fun s => (.ok (f s).1, (f s).2)

/-- Read from the state. -/
def read (f : σ → α) : Effect σ ε α := ask fun s => (f s, s)

/-- Change the state. -/
def change (f : σ → σ) : Effect σ ε Unit := ask fun s => ((), f s)

/-- The result of a computation, an error included. -/
def attempt (m : Effect σ ε α) : Effect σ ε (Except ε α) := fun s => (.ok (m s).1, (m s).2)

/-- A query and what comes after it. -/
theorem ask_bind (g : σ → α × σ) (f : α → Effect σ ε β) (s : σ) :
    (ask g >>= f) s = f (g s).1 (g s).2 := rfl

/-- A look at the state and what comes after it. -/
theorem read_bind (g : σ → α) (f : α → Effect σ ε β) (s : σ) :
    (read g >>= f) s = f (g s) s := rfl

/-- A value and what comes after it. -/
theorem lift_ok_bind (a : α) (f : α → Effect σ ε β) (s : σ) : (lift (.ok a) >>= f) s = f a s := rfl

/-- A check and what comes after it. -/
theorem failWhen_bind (p : Prop) [Decidable p] (e : ε) (f : Unit → Effect σ ε β) (s : σ) :
    (failWhen p e >>= f) s = if p then (.error e, s) else f () s := by
  unfold failWhen Result.bailWhen
  split_ifs
  · rfl
  · rfl

/-- From a state with `P` the computation returns into `Q` or fails into `E`. -/
def Triple (P : σ → Prop) (m : Effect σ ε α) (Q : α → σ → Prop) (E : ε → σ → Prop) : Prop :=
  ∀ s, P s → match m s with
    | (.ok a, s') => Q a s'
    | (.error e, s') => E e s'

namespace Triple

variable {P P' : σ → Prop} {m : Effect σ ε α} {f : α → Effect σ ε β} {Q Q' : α → σ → Prop}
  {R : β → σ → Prop} {E E' : ε → σ → Prop}

/-- A returned value. -/
theorem ret {a : α} (h : ∀ s, P s → Q a s) : Triple P (pure a : Effect σ ε α) Q E := h

/-- A sequence. -/
theorem bind (hm : Triple P m Q E) (hf : ∀ a, Triple (Q a) (f a) R E) :
    Triple P (m >>= f) R E := by
  intro s hs
  have hfirst := hm s hs
  change match andThen m f s with
    | (.ok b, s') => R b s'
    | (.error e, s') => E e s'
  unfold andThen
  generalize m s = result at hfirst
  obtain ⟨r, s'⟩ := result
  cases r with
  | ok a => exact hf a s' hfirst
  | error e => exact hfirst

/-- Stronger conditions before, weaker ones after. -/
theorem conseq (h : Triple P m Q E) (hP : ∀ s, P' s → P s) (hQ : ∀ a s, Q a s → Q' a s)
    (hE : ∀ e s, E e s → E' e s) : Triple P' m Q' E' := by
  intro s hs
  have hresult := h s (hP s hs)
  generalize m s = result at hresult
  obtain ⟨r, s'⟩ := result
  cases r with
  | ok a => exact hQ a s' hresult
  | error e => exact hE e s' hresult

/-- An outcome without a state. -/
theorem lift {r : Except ε α} (hok : ∀ a, r = .ok a → ∀ s, P s → Q a s)
    (herror : ∀ e, r = .error e → ∀ s, P s → E e s) : Triple P (Effect.lift r) Q E := by
  intro s hs
  cases r with
  | ok a => exact hok a rfl s hs
  | error e => exact herror e rfl s hs

/-- An outcome that says nothing about what comes after it. -/
theorem lift_keeps {r : Except ε α} (h : ∀ e s, P s → E e s) :
    Triple P (Effect.lift r) (fun _ => P) E :=
  lift (fun _ _ _ hs => hs) fun e _ => h e

/-- A failure. -/
theorem fail {e : ε} (h : ∀ s, P s → E e s) : Triple P (Effect.fail e : Effect σ ε α) Q E := h

/-- A check that may fail; afterwards its condition is known to be false. -/
theorem failWhen_of {p : Prop} [Decidable p] {e : ε} {R : Unit → σ → Prop}
    (hok : ∀ s, P s → ¬p → R () s) (herror : ∀ s, P s → p → E e s) :
    Triple P (Effect.failWhen p e) R E := by
  refine lift (fun _ h s hs => hok s hs (Result.bailWhen_eq_ok_iff.mp h)) fun e' h s hs => ?_
  unfold Result.bailWhen at h
  split_ifs at h with hp
  obtain rfl := Except.error.inj h
  exact herror s hs hp

/-- A check after which its condition is false. -/
theorem failWhen {p : Prop} [Decidable p] {e : ε} (h : ∀ s, P s → E e s) :
    Triple P (Effect.failWhen p e) (fun _ s => P s ∧ ¬p) E :=
  failWhen_of (fun _ hs hp => ⟨hs, hp⟩) fun s hs _ => h s hs

/-- A check that says nothing about what comes after it. -/
theorem failWhen_keeps {p : Prop} [Decidable p] {e : ε} (h : ∀ s, P s → E e s) :
    Triple P (Effect.failWhen p e) (fun _ => P) E :=
  failWhen_of (fun _ hs _ => hs) fun s hs _ => h s hs

/-- A query. -/
theorem ask {g : σ → α × σ} (h : ∀ s, P s → Q (g s).1 (g s).2) :
    Triple P (Effect.ask g : Effect σ ε α) Q E := h

/-- A look at the state. -/
theorem read {g : σ → α} (h : ∀ s, P s → Q (g s) s) :
    Triple P (Effect.read g : Effect σ ε α) Q E := h

/-- A change of the state. -/
theorem change {g : σ → σ} {R : Unit → σ → Prop} (h : ∀ s, P s → R () (g s)) :
    Triple P (Effect.change g : Effect σ ε Unit) R E := h

/-- A result that is looked at. -/
theorem attempt (h : Triple P m Q E) :
    Triple P (Effect.attempt m) (fun r s => match r with
      | .ok a => Q a s
      | .error e => E e s) E' := by
  intro s hs
  have hresult := h s hs
  unfold Effect.attempt
  generalize m s = result at hresult
  obtain ⟨r, s'⟩ := result
  cases r <;> exact hresult

/-- A result that does not matter. -/
theorem attempt_keeps {S : σ → Prop} (h : Triple P m (fun _ => S) (fun _ => S)) :
    Triple P (Effect.attempt m) (fun _ => S) E' := by
  apply (attempt h).conseq (fun _ hs => hs) ?_ fun _ _ hs => hs
  intro r s hs
  cases r with
  | ok a => exact hs
  | error e => exact hs

/-- A condition on the state and on something unknown. -/
theorem of_exists {ι : Type} {P : ι → σ → Prop} (h : ∀ i, Triple (P i) m Q E) :
    Triple (fun s => ∃ i, P i s) m Q E := by
  intro s hs
  obtain ⟨i, hi⟩ := hs
  exact h i s hi

/-- A condition that does not depend on the state. -/
theorem of_fact {p : Prop} (h : p → Triple P m Q E) : Triple (fun s => p ∧ P s) m Q E :=
  fun s hs => h hs.1 s hs.2

/-- Nothing is said. -/
theorem trivial : Triple P m (fun _ _ => True) fun _ _ => True := by
  intro s _
  split <;> exact True.intro

/-- No state has the condition. -/
theorem of_false : Triple (fun _ => False) m Q E := fun _ h => h.elim

/-- What the computation ends with from a state. -/
theorem ends (h : Triple P m Q E) {s : σ} (hs : P s) :
    (∃ a s', m s = (.ok a, s') ∧ Q a s') ∨ ∃ e s', m s = (.error e, s') ∧ E e s' := by
  have hresult := h s hs
  generalize m s = result at hresult
  obtain ⟨r, s'⟩ := result
  cases r with
  | ok a => exact Or.inl ⟨a, s', rfl, hresult⟩
  | error e => exact Or.inr ⟨e, s', rfl, hresult⟩

/-- A triple state by state. -/
theorem of_each (h : ∀ s, P s → Triple (· = s) m Q E) : Triple P m Q E := fun s hs => h s hs s rfl

/-- A triple from what the computation ends with. -/
theorem of_ends (h : ∀ s, P s → (∃ a s', m s = (.ok a, s') ∧ Q a s') ∨
    ∃ e s', m s = (.error e, s') ∧ E e s') : Triple P m Q E := by
  intro s hs
  obtain ⟨a, s', hm, hQ⟩ | ⟨e, s', hm, hE⟩ := h s hs
  · rw [hm]
    exact hQ
  · rw [hm]
    exact hE

/-- What holds of a value that is returned. -/
theorem of_ok (h : Triple P m Q E) {s : σ} (hs : P s) {a : α} (ha : (m s).1 = .ok a) :
    Q a (m s).2 := by
  obtain ⟨a', s', hm, hQ⟩ | ⟨e, s', hm, -⟩ := h.ends hs
  · rw [hm] at ha ⊢
    obtain rfl := Except.ok.inj ha
    exact hQ
  · rw [hm] at ha
    contradiction

/-- What holds of an error. -/
theorem of_error (h : Triple P m Q E) {s : σ} (hs : P s) {e : ε} (he : (m s).1 = .error e) :
    E e (m s).2 := by
  obtain ⟨a, s', hm, -⟩ | ⟨e', s', hm, hE⟩ := h.ends hs
  · rw [hm] at he
    contradiction
  · rw [hm] at he ⊢
    obtain rfl := Except.error.inj he
    exact hE

/-- What holds of the state that is left whether the computation returns or fails. -/
theorem state {S : σ → Prop} (h : Triple P m (fun _ => S) fun _ => S) {s : σ} (hs : P s) :
    S (m s).2 := by
  obtain ⟨a, s', hm, hS⟩ | ⟨e, s', hm, hS⟩ := h.ends hs
  · rw [hm]
    exact hS
  · rw [hm]
    exact hS

end Triple

-- a triple is used by its rules
attribute [irreducible] Triple

end Effect
