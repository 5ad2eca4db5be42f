import Rcodex.Foundation.Effect
import Mathlib.Data.List.Induction

/-!
# Audited logs

A program that writes down what it does and sees leaves a log.  `Audited P log` says that every
entry has the property `P`, which may depend on the entries before it.  A log is extended by one
entry (`audited_concat_iff`) or by several (`Audited.append`); what is audited for a property is
audited for a weaker one (`Audited.mono`).

`Effect.note` asks a question whose answer may depend on the log, and writes the answer down.
`Effect.within` runs a computation on a part of the state; a condition on the rest of the state is
kept (`Triple.within`).

`Keeps log P J m R` says that the computation `m`, from an audited log with `J`, leaves an audited
log with `R`, and with every condition that it had before and that is kept when a log grows
(`Stable`).  `Keeps.bind` is the rule for a sequence and `Keeps.frame` the one for such a condition.
-/

namespace Audit

variable {α : Type}

/-- Every entry has the property, given the entries before it. -/
def Audited (P : List α → α → Prop) (log : List α) : Prop :=
  ∀ earlier entry later, log = earlier ++ entry :: later → P earlier entry

variable {P Q : List α → α → Prop}

/-- Nothing was written down. -/
theorem audited_nil : Audited P [] := by
  intro earlier entry later h
  simp at h

/-- One more entry. -/
theorem audited_concat_iff {log : List α} {entry : α} :
    Audited P (log ++ [entry]) ↔ Audited P log ∧ P log entry := by
  constructor
  · intro h
    refine ⟨fun earlier e later hlog => h earlier e (later ++ [entry]) ?_, h log entry [] rfl⟩
    rw [hlog, List.append_assoc, List.cons_append]
  · rintro ⟨h, hentry⟩ earlier e later hlog
    obtain rfl | ⟨later, last, rfl⟩ := List.eq_nil_or_concat later
    · obtain ⟨rfl, heq⟩ := List.append_inj' hlog rfl
      obtain rfl := List.singleton_inj.mp heq
      exact hentry
    · have hsplit : log ++ [entry] = (earlier ++ e :: later) ++ [last] := by
        rw [hlog, List.append_assoc, List.cons_append, List.concat_eq_append]
      exact h earlier e later (List.append_inj' hsplit rfl).1

/-- Entries that have the property whatever stands before them, and others that have it when they
come after the log. -/
theorem Audited.append {log entries : List α} (h : Audited P log)
    (hentries : ∀ earlier entry later, entries = earlier ++ entry :: later →
      P (log ++ earlier) entry) : Audited P (log ++ entries) := by
  induction entries using List.reverseRecOn with
  | nil =>
    rw [List.append_nil]
    exact h
  | append_singleton entries last ih =>
    rw [← List.append_assoc, audited_concat_iff]
    refine ⟨ih fun earlier entry later heq => ?_, hentries entries last [] rfl⟩
    refine hentries earlier entry (later ++ [last]) ?_
    rw [heq, List.append_assoc, List.cons_append]

/-- A weaker property. -/
theorem Audited.mono {log : List α} (h : Audited P log)
    (hmono : ∀ earlier entry, P earlier entry → Q earlier entry) : Audited Q log :=
  fun earlier entry later hlog => hmono earlier entry (h earlier entry later hlog)

end Audit

namespace Effect

variable {σ τ ε ε' α β : Type}

/-- A part of a state. -/
structure Part (σ τ : Type) where
  /-- The part. -/
  get : σ → τ
  /-- The state with another part. -/
  put : τ → σ → σ
  /-- The part is the one that was put there. -/
  get_put : ∀ t s, get (put t s) = t

/-- A computation on a part of the state. -/
def within (part : Part σ τ) (f : ε' → ε) (m : Effect τ ε' α) : Effect σ ε α := fun s =>
  (((m (part.get s)).1).mapError f, part.put (m (part.get s)).2 s)

/-- A computation whose errors are reported as others. -/
def mapError (f : ε' → ε) (m : Effect σ ε' α) : Effect σ ε α := fun s =>
  ((m s).1.mapError f, (m s).2)

/-- A question to which the answer may depend on the state; question and answer are written down. -/
def note (answer : σ → α) (write : α → σ → σ) : Effect σ ε α :=
  ask fun s => (answer s, write (answer s) s)

namespace Triple

/-- A question. -/
theorem note {P : σ → Prop} {Q : α → σ → Prop} {E : ε → σ → Prop} {answer : σ → α}
    {write : α → σ → σ} (h : ∀ s, P s → Q (answer s) (write (answer s) s)) :
    Triple P (Effect.note answer write : Effect σ ε α) Q E :=
  ask h

/-- A computation whose errors are reported as others. -/
theorem mapError {f : ε' → ε} {m : Effect σ ε' α} {P : σ → Prop} {Q : α → σ → Prop}
    {E : ε → σ → Prop} (h : Triple P m Q fun e => E (f e)) :
    Triple P (Effect.mapError f m) Q E := by
  refine of_ends fun s hs => ?_
  obtain ⟨a, s', hm, hQ⟩ | ⟨e, s', hm, hE⟩ := h.ends hs
  · refine Or.inl ⟨a, s', ?_, hQ⟩
    rw [Effect.mapError, hm]
    rfl
  · refine Or.inr ⟨f e, s', ?_, hE⟩
    rw [Effect.mapError, hm]
    rfl

/-- A computation on a part of the state, and a condition that does not depend on this part. -/
theorem within (part : Part σ τ) {f : ε' → ε} {m : Effect τ ε' α} {P : τ → Prop}
    {Q : α → τ → Prop} {E : ε' → τ → Prop} {F : σ → Prop} (h : Triple P m Q E)
    (hF : ∀ t s, F s → F (part.put t s)) :
    Triple (fun s => P (part.get s) ∧ F s) (Effect.within part f m)
      (fun a s => Q a (part.get s) ∧ F s)
      (fun e s => (∃ e', e = f e' ∧ E e' (part.get s)) ∧ F s) := by
  refine of_ends fun s hs => ?_
  obtain ⟨a, t, hm, hQ⟩ | ⟨e, t, hm, hE⟩ := h.ends hs.1
  · refine Or.inl ⟨a, part.put t s, ?_, ?_, hF t s hs.2⟩
    · rw [Effect.within, hm]
      rfl
    · rw [part.get_put]
      exact hQ
  · refine Or.inr ⟨f e, part.put t s, ?_, ⟨e, rfl, ?_⟩, hF t s hs.2⟩
    · rw [Effect.within, hm]
      rfl
    · rw [part.get_put]
      exact hE

end Triple

end Effect

namespace Audit

variable {α σ ε β γ : Type}

/-- A condition that is kept when the log grows. -/
def Stable (S : List α → Prop) : Prop := ∀ entries later, S entries → S (entries ++ later)

/-- An entry stays in the log. -/
theorem stable_mem (entry : α) : Stable (entry ∈ ·) := fun _ _ h => List.mem_append_left _ h

/-- Both conditions are kept. -/
theorem Stable.and {S T : List α → Prop} (hS : Stable S) (hT : Stable T) :
    Stable fun entries => S entries ∧ T entries :=
  fun entries later h => ⟨hS entries later h.1, hT entries later h.2⟩

/-- One of two conditions is kept. -/
theorem Stable.or {S T : List α → Prop} (hS : Stable S) (hT : Stable T) :
    Stable fun entries => S entries ∨ T entries :=
  fun entries later h => h.imp (hS entries later) (hT entries later)

/-- A condition with something unknown is kept. -/
theorem Stable.exists {ι : Type} {S : ι → List α → Prop} (h : ∀ i, Stable (S i)) :
    Stable fun entries => ∃ i, S i entries :=
  fun entries later hS => hS.imp fun i hi => h i entries later hi

/-- A fact is kept. -/
theorem stable_const (p : Prop) : Stable fun _ : List α => p := fun _ _ h => h

variable (log : σ → List α) (P : List α → α → Prop)

/-- From an audited log with `J`, the computation leaves an audited log with `R`, and with every
stable condition that it had before. -/
def Keeps (J : List α → Prop) (m : Effect σ ε β) (R : β → List α → Prop) : Prop :=
  ∀ S, Stable S → Effect.Triple (fun s => Audited P (log s) ∧ S (log s) ∧ J (log s)) m
    (fun b s => Audited P (log s) ∧ S (log s) ∧ R b (log s))
    (fun _ s => Audited P (log s) ∧ S (log s))

namespace Keeps

variable {log P} {J J' : List α → Prop} {m : Effect σ ε β} {f : β → Effect σ ε γ}
  {R R' : β → List α → Prop} {Q : γ → List α → Prop}

/-- A returned value. -/
theorem ret {b : β} (h : ∀ entries, J entries → R b entries) :
    Keeps log P J (pure b : Effect σ ε β) R :=
  fun _ _ => Effect.Triple.ret fun _ hs => ⟨hs.1, hs.2.1, h _ hs.2.2⟩

/-- A sequence. -/
theorem bind (hm : Keeps log P J m R) (hf : ∀ b, Keeps log P (R b) (f b) Q) :
    Keeps log P J (m >>= f) Q :=
  fun S hS => Effect.Triple.bind (hm S hS) fun b => hf b S hS

/-- Stronger conditions before, weaker ones after. -/
theorem conseq (h : Keeps log P J m R) (hJ : ∀ entries, J' entries → J entries)
    (hR : ∀ b entries, R b entries → R' b entries) : Keeps log P J' m R' :=
  fun S hS => (h S hS).conseq (fun _ hs => ⟨hs.1, hs.2.1, hJ _ hs.2.2⟩)
    (fun _ _ hs => ⟨hs.1, hs.2.1, hR _ _ hs.2.2⟩) fun _ _ hs => hs

/-- A stable condition holds afterwards as before. -/
theorem frame {T : List α → Prop} (h : Keeps log P J m R) (hT : Stable T) :
    Keeps log P (fun entries => J entries ∧ T entries) m
      (fun b entries => R b entries ∧ T entries) :=
  fun _ hS => (h _ (hS.and hT)).conseq (fun _ hs => ⟨hs.1, ⟨hs.2.1, hs.2.2.2⟩, hs.2.2.1⟩)
    (fun _ _ hs => ⟨hs.1, hs.2.1.1, hs.2.2, hs.2.1.2⟩) fun _ _ hs => ⟨hs.1, hs.2.1⟩

/-- An outcome without a state. -/
theorem lift {r : Except ε β} (h : ∀ b, r = .ok b → ∀ entries, J entries → R b entries) :
    Keeps log P J (Effect.lift r : Effect σ ε β) R :=
  fun _ _ => Effect.Triple.lift (fun b hb _ hs => ⟨hs.1, hs.2.1, h b hb _ hs.2.2⟩)
    fun _ _ _ hs => ⟨hs.1, hs.2.1⟩

/-- A check; afterwards its condition is false. -/
theorem failWhen {p : Prop} [Decidable p] {e : ε} :
    Keeps log P J (Effect.failWhen p e : Effect σ ε Unit) (fun _ entries => J entries ∧ ¬p) :=
  fun _ _ => Effect.Triple.failWhen_of (fun _ hs hp => ⟨hs.1, hs.2.1, hs.2.2, hp⟩)
    fun _ hs _ => ⟨hs.1, hs.2.1⟩

/-- A failure. -/
theorem fail {e : ε} : Keeps log P J (Effect.fail e : Effect σ ε β) R :=
  fun _ _ => Effect.Triple.fail fun _ hs => ⟨hs.1, hs.2.1⟩

/-- A look at the state. -/
theorem read {g : σ → β} (h : ∀ s, J (log s) → R (g s) (log s)) :
    Keeps log P J (Effect.read g : Effect σ ε β) R :=
  fun _ _ => Effect.Triple.read fun s hs => ⟨hs.1, hs.2.1, h s hs.2.2⟩

/-- One more entry, which has the property. -/
theorem note {answer : σ → β} {write : β → σ → σ} {entry : β → α}
    (hwrite : ∀ b s, log (write b s) = log s ++ [entry b])
    (hentry : ∀ b entries, J entries → P entries (entry b))
    (h : ∀ b entries, J entries → R b (entries ++ [entry b])) :
    Keeps log P J (Effect.note answer write : Effect σ ε β) R := by
  refine fun S hS => Effect.Triple.note fun s hs => ?_
  rw [hwrite]
  exact ⟨audited_concat_iff.mpr ⟨hs.1, hentry _ _ hs.2.2⟩, hS _ _ hs.2.1, h _ _ hs.2.2⟩

/-- One more entry that is known in advance. -/
theorem change {g : σ → σ} {entry : α} {R : Unit → List α → Prop}
    (hg : ∀ s, log (g s) = log s ++ [entry]) (hentry : ∀ entries, J entries → P entries entry)
    (h : ∀ entries, J entries → R () (entries ++ [entry])) :
    Keeps log P J (Effect.change g : Effect σ ε Unit) R := by
  refine fun S hS => Effect.Triple.change fun s hs => ?_
  rw [hg]
  exact ⟨audited_concat_iff.mpr ⟨hs.1, hentry _ hs.2.2⟩, hS _ _ hs.2.1, h _ hs.2.2⟩

/-- A change that leaves the log as it is. -/
theorem silent (h : ∀ b s, J (log s) → R b (log s))
    (hm : ∀ S : List α → Prop, Effect.Triple (fun s => S (log s)) m (fun _ s => S (log s))
      fun _ s => S (log s)) : Keeps log P J m R :=
  fun S _ => (hm fun entries => Audited P entries ∧ S entries ∧ J entries).conseq (fun _ hs => hs)
    (fun b s hs => ⟨hs.1, hs.2.1, h b s hs.2.2⟩) fun _ _ hs => ⟨hs.1, hs.2.1⟩

/-- A result that is looked at; after an error only stable conditions are left. -/
theorem attempt {T : List α → Prop} (hT : Stable T) (h : Keeps log P J m R)
    (hJ : ∀ entries, J entries → T entries) :
    Keeps log P J (Effect.attempt m : Effect σ ε (Except ε β)) fun r entries => match r with
      | .ok b => R b entries
      | .error _ => T entries := by
  intro S hS
  have hrun : Effect.Triple (fun s => Audited P (log s) ∧ S (log s) ∧ J (log s)) m
      (fun b s => Audited P (log s) ∧ (S (log s) ∧ T (log s)) ∧ R b (log s))
      fun _ s => Audited P (log s) ∧ S (log s) ∧ T (log s) :=
    (h _ (hS.and hT)).conseq (fun s hs => ⟨hs.1, ⟨hs.2.1, hJ _ hs.2.2⟩, hs.2.2⟩)
      (fun _ _ hs => hs) fun _ _ hs => hs
  refine (Effect.Triple.attempt hrun).conseq (fun _ hs => hs) (fun r s hs => ?_) fun _ _ hs => hs
  cases r with
  | ok b => exact ⟨hs.1, hs.2.1.1, hs.2.2⟩
  | error e => exact ⟨hs.1, hs.2.1, hs.2.2⟩

/-- Other errors. -/
theorem mapError {ε' : Type} {g : ε → ε'} (h : Keeps log P J m R) :
    Keeps log P J (Effect.mapError g m) R :=
  fun S hS => Effect.Triple.mapError (h S hS)

/-- A condition that does not depend on the log. -/
theorem of_fact {p : Prop} (h : p → Keeps log P J m R) :
    Keeps log P (fun entries => J entries ∧ p) m R :=
  fun S hS => (Effect.Triple.of_fact (p := p) fun hp => h hp S hS).conseq
    (fun _ hs => ⟨hs.2.2.2, hs.1, hs.2.1, hs.2.2.1⟩) (fun _ _ hs => hs) fun _ _ hs => hs

/-- An outcome without a state and what comes after it. -/
theorem lift_bind {r : Except ε β} (h : ∀ b, r = .ok b → Keeps log P J (f b) Q) :
    Keeps log P J (Effect.lift r >>= f) Q :=
  bind (lift fun _ hb _ hJ => ⟨hJ, hb⟩) fun b => of_fact (h b)

/-- A check and what comes after it, where its condition is false. -/
theorem failWhen_bind {p : Prop} [Decidable p] {e : ε} {f : Unit → Effect σ ε γ}
    (h : ¬p → Keeps log P J (f ()) Q) : Keeps log P J (Effect.failWhen p e >>= f) Q :=
  bind failWhen fun _ => of_fact h

end Keeps

end Audit
