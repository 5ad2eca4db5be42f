import Mathlib.Data.List.Induction

/-!
# Runs of a transducer

A transducer is a function `step : σ → ε → ο × σ` from a state and an event to an output and the
next state.  `final` and `outputs` run it over a list of events.  `final_induction`,
`history_induction` and `outputs_induction` are the induction rules: for a property of states, for
a property of states and of the events that led to them, and for a property of each output and of
those before it.  `Since` is the past of an output: one thing has been put out, and another has not
been put out after it.

The second half compares two runs of which one contains additional events.  A `Tagged` run marks
the additional events; `originals` is the run without them.  If each additional event is silent at
the state in which it occurs, both runs go through the same states
(`final_eq_of_silent`) and the original events have the same outputs
(`originalOutputs_eq_of_silent`).
-/

namespace Machine

variable {σ ε ο : Type*}

/-- The state after a run. -/
def final (step : σ → ε → ο × σ) (s : σ) (es : List ε) : σ :=
  es.foldl (fun s e => (step s e).2) s

/-- The outputs of a run, one for each event. -/
def outputs (step : σ → ε → ο × σ) : σ → List ε → List ο
  | _, [] => []
  | s, e :: es => (step s e).1 :: outputs step (step s e).2 es

variable (step : σ → ε → ο × σ)

@[simp] theorem final_nil (s : σ) : final step s [] = s := rfl

@[simp] theorem final_cons (s : σ) (e : ε) (es : List ε) :
    final step s (e :: es) = final step (step s e).2 es := rfl

/-- A run in two parts. -/
theorem final_append (s : σ) (es es' : List ε) :
    final step s (es ++ es') = final step (final step s es) es' :=
  List.foldl_append

/-- A run and one more event. -/
theorem final_concat (s : σ) (es : List ε) (e : ε) :
    final step s (es ++ [e]) = (step (final step s es) e).2 := by
  rw [final_append, final_cons, final_nil]

@[simp] theorem outputs_nil (s : σ) : outputs step s [] = [] := rfl

@[simp] theorem outputs_cons (s : σ) (e : ε) (es : List ε) :
    outputs step s (e :: es) = (step s e).1 :: outputs step (step s e).2 es := rfl

/-- The outputs of a run whose first step is known. -/
theorem outputs_cons_of_step {s s' : σ} {e : ε} {o : ο} (h : step s e = (o, s')) (es : List ε) :
    outputs step s (e :: es) = o :: outputs step s' es := by
  rw [outputs_cons, h]

/-- The state after a run whose first step is known. -/
theorem final_cons_of_step {s s' : σ} {e : ε} {o : ο} (h : step s e = (o, s')) (es : List ε) :
    final step s (e :: es) = final step s' es := by
  rw [final_cons, h]

/-- The outputs of a run in two parts. -/
theorem outputs_append (s : σ) (es es' : List ε) :
    outputs step s (es ++ es') = outputs step s es ++ outputs step (final step s es) es' := by
  induction es generalizing s with
  | nil => rfl
  | cons e es ih => simp [ih]

@[simp] theorem length_outputs (s : σ) (es : List ε) :
    (outputs step s es).length = es.length := by
  induction es generalizing s with
  | nil => rfl
  | cons e es ih => simp [ih]

/-- The output of an event is the one it gives at the state reached before it. -/
theorem getElem?_outputs (s : σ) (pre : List ε) (e : ε) (post : List ε) :
    (outputs step s (pre ++ e :: post))[pre.length]? = some (step (final step s pre) e).1 := by
  rw [outputs_append, List.getElem?_append_right (by simp)]
  simp

/-! ### Induction over runs -/

/-- A property that every event preserves at the states that have it holds after every run. -/
theorem final_induction {P : σ → Prop} (hstep : ∀ s e, P s → P (step s e).2) {s : σ} (hs : P s)
    (es : List ε) : P (final step s es) := by
  induction es generalizing s with
  | nil => exact hs
  | cons e es ih => exact ih (hstep s e hs)

/-- A property that every event of the run preserves holds after it. -/
theorem final_induction_mem {P : σ → Prop} {es : List ε}
    (hstep : ∀ s, ∀ e ∈ es, P s → P (step s e).2) {s : σ} (hs : P s) : P (final step s es) := by
  induction es generalizing s with
  | nil => exact hs
  | cons e es ih =>
    exact ih (fun s e he => hstep s e (List.mem_cons_of_mem _ he)) (hstep s e (by simp) hs)

/-- A property of the events so far and of the state they lead to: it holds initially, and every
event of the run preserves it. -/
theorem history_induction {P : List ε → σ → Prop} {s : σ} (hnil : P [] s) (es : List ε)
    (hstep : ∀ pre e post, es = pre ++ e :: post → P pre (final step s pre) →
      P (pre ++ [e]) (step (final step s pre) e).2) :
    P es (final step s es) := by
  induction es using List.reverseRecOn with
  | nil => exact hnil
  | append_singleton es e ih =>
    rw [final_concat]
    refine hstep es e [] rfl (ih fun pre e' post h hP => ?_)
    exact hstep pre e' (post ++ [e]) (by rw [h]; simp) hP

/-- A property of the outputs so far and of the state, and a property of each output and what was
put out before it: the first holds initially, and every event preserves it and gives the second. -/
theorem outputs_induction {J : List ο → σ → Prop} {P : List ο → ο → Prop} {s : σ} (hnil : J [] s)
    (es : List ε)
    (hstep : ∀ history s e, e ∈ es → J history s →
      J (history ++ [(step s e).1]) (step s e).2 ∧ P history (step s e).1) :
    J (outputs step s es) (final step s es) ∧
      ∀ pre o post, outputs step s es = pre ++ o :: post → P pre o := by
  refine history_induction step (P := fun pre state => J (outputs step s pre) state ∧
    ∀ history o post, outputs step s pre = history ++ o :: post → P history o)
    ⟨hnil, by simp⟩ es ?_
  intro pre e post hes h
  obtain ⟨hJ, hP⟩ := h
  have hnext := hstep _ _ e (by rw [hes]; simp) hJ
  rw [outputs_append, outputs_cons, outputs_nil]
  refine ⟨hnext.1, fun history o later heq => ?_⟩
  rcases List.eq_nil_or_concat later with rfl | ⟨init, last, rfl⟩
  · obtain ⟨rfl, hone⟩ := List.append_inj' heq rfl
    obtain rfl := List.singleton_inj.mp hone
    exact hnext.2
  · rw [List.concat_eq_append, ← List.cons_append, ← List.append_assoc] at heq
    obtain ⟨hinit, -⟩ := List.append_inj' heq rfl
    exact hP history o init hinit

/-! ### Past outputs -/

/-- `P` held of an output, and `R` of none after it. -/
def Since (P R : ο → Prop) (history : List ο) : Prop :=
  ∃ pre o post, history = pre ++ o :: post ∧ P o ∧ ∀ later ∈ post, ¬R later

section Since

variable {P R : ο → Prop} {history : List ο}

@[simp] theorem not_since_nil : ¬Since P R [] := by
  intro h
  obtain ⟨pre, o, post, heq, -⟩ := h
  simp at heq

/-- One more output. -/
theorem since_concat {o : ο} :
    Since P R (history ++ [o]) ↔ P o ∨ Since P R history ∧ ¬R o := by
  constructor
  · intro h
    obtain ⟨pre, o', post, heq, hP, hR⟩ := h
    rcases List.eq_nil_or_concat post with rfl | ⟨init, last, rfl⟩
    · obtain ⟨-, hone⟩ := List.append_inj' heq rfl
      obtain rfl := List.singleton_inj.mp hone
      exact Or.inl hP
    · rw [List.concat_eq_append, ← List.cons_append, ← List.append_assoc] at heq
      obtain ⟨rfl, hone⟩ := List.append_inj' heq rfl
      obtain rfl := List.singleton_inj.mp hone
      exact Or.inr ⟨⟨pre, o', init, rfl, hP, fun later h => hR later (by simp [h])⟩,
        hR o (by simp)⟩
  · intro h
    rcases h with hP | ⟨⟨pre, o', post, rfl, hP, hR⟩, ho⟩
    · exact ⟨history, o, [], rfl, hP, by simp⟩
    · refine ⟨pre, o', post ++ [o], by simp, hP, fun later h => ?_⟩
      rcases List.mem_append.mp h with h | h
      · exact hR later h
      · rwa [List.mem_singleton.mp h]

/-- One more output that changes nothing. -/
theorem Since.of_concat {o : ο} (h : Since P R (history ++ [o])) (hP : ¬P o) :
    Since P R history :=
  ((since_concat.mp h).resolve_left hP).1

end Since

/-! ### Two transducers in step -/

section Simulation

variable {step} {τ ω : Type*} {step' : τ → ε → ω × τ} {R : σ → τ → Prop} {Q : ο → ω → Prop}

/-- What every event preserves between the states of two transducers holds after every run. -/
theorem final_related (hstep : ∀ s t e, R s t → R (step s e).2 (step' t e).2) {s : σ} {t : τ}
    (h : R s t) (es : List ε) : R (final step s es) (final step' t es) := by
  induction es generalizing s t with
  | nil => exact h
  | cons e es ih => exact ih (hstep s t e h)

/-- Transducers that stay related give related outputs. -/
theorem outputs_related (hstep : ∀ s t e, R s t → R (step s e).2 (step' t e).2)
    (houtput : ∀ s t e, R s t → Q (step s e).1 (step' t e).1) {s : σ} {t : τ} (h : R s t)
    (es : List ε) : List.Forall₂ Q (outputs step s es) (outputs step' t es) := by
  induction es generalizing s t with
  | nil => exact .nil
  | cons e es ih => exact .cons (houtput s t e h) (ih (hstep s t e h))

end Simulation

/-! ### Additional events -/

/-- An event of a run, marked as an original or as an additional one. -/
inductive Tagged (ε : Type*) where
  | original (e : ε)
  | inserted (e : ε)
deriving DecidableEq

/-- The event without its mark. -/
def Tagged.event : Tagged ε → ε
  | .original e => e
  | .inserted e => e

/-- The run with the additional events, without the marks. -/
def events (ts : List (Tagged ε)) : List ε := ts.map Tagged.event

/-- The run without the additional events. -/
def originals : List (Tagged ε) → List ε
  | [] => []
  | .original e :: ts => e :: originals ts
  | .inserted _ :: ts => originals ts

/-- The outputs of the original events in the run with the additional ones. -/
def originalOutputs : σ → List (Tagged ε) → List ο
  | _, [] => []
  | s, .original e :: ts => (step s e).1 :: originalOutputs (step s e).2 ts
  | s, .inserted e :: ts => originalOutputs (step s e).2 ts

/-- Each additional event satisfies `C` at the state in which it occurs. -/
def InsertedSatisfy (C : σ → ε → Prop) : σ → List (Tagged ε) → Prop
  | _, [] => True
  | s, .original e :: ts => InsertedSatisfy C (step s e).2 ts
  | s, .inserted e :: ts => C s e ∧ InsertedSatisfy C (step s e).2 ts

@[simp] theorem events_nil : events ([] : List (Tagged ε)) = [] := rfl

@[simp] theorem events_cons (t : Tagged ε) (ts : List (Tagged ε)) :
    events (t :: ts) = t.event :: events ts := rfl

/-- The events of a run in two parts. -/
theorem events_append (ts ts' : List (Tagged ε)) : events (ts ++ ts') = events ts ++ events ts' :=
  List.map_append

/-- The original events of a run in two parts. -/
theorem originals_append (ts ts' : List (Tagged ε)) :
    originals (ts ++ ts') = originals ts ++ originals ts' := by
  induction ts with
  | nil => rfl
  | cons t ts ih => cases t <;> simp [originals, ih]

/-- What holds of the additional events under one condition holds under a weaker one. -/
theorem InsertedSatisfy.imp {C D : σ → ε → Prop} (h : ∀ s e, C s e → D s e) {s : σ}
    {ts : List (Tagged ε)} (hC : InsertedSatisfy step C s ts) : InsertedSatisfy step D s ts := by
  induction ts generalizing s with
  | nil => trivial
  | cons t ts ih =>
    cases t with
    | original e => exact ih hC
    | inserted e => exact ⟨h _ _ hC.1, ih hC.2⟩

instance decidableInsertedSatisfy {C : σ → ε → Prop} [∀ s e, Decidable (C s e)] :
    ∀ (s : σ) (ts : List (Tagged ε)), Decidable (InsertedSatisfy step C s ts)
  | _, [] => isTrue trivial
  | s, .original e :: ts => decidableInsertedSatisfy (step s e).2 ts
  | s, .inserted e :: ts =>
    @instDecidableAnd _ _ (inferInstanceAs (Decidable (C s e)))
      (decidableInsertedSatisfy (step s e).2 ts)

/-- The additional events are those at which the run splits. -/
theorem insertedSatisfy_iff {C : σ → ε → Prop} {s : σ} {ts : List (Tagged ε)} :
    InsertedSatisfy step C s ts ↔ ∀ pre e post, ts = pre ++ .inserted e :: post →
      C (final step s (events pre)) e := by
  induction ts generalizing s with
  | nil => simp [InsertedSatisfy]
  | cons t ts ih =>
    have hsplit : ∀ pre e post, t :: ts = pre ++ .inserted e :: post ↔
        pre = [] ∧ t = .inserted e ∧ ts = post ∨
          ∃ pre', pre = t :: pre' ∧ ts = pre' ++ .inserted e :: post := by
      intro pre e post
      cases pre <;> simp [and_assoc, eq_comm]
    cases t with
    | original e =>
      rw [InsertedSatisfy, ih]
      simp only [hsplit]
      constructor
      · intro h pre e' post h'
        rcases h' with ⟨-, hne, -⟩ | ⟨pre, rfl, hts⟩
        · simp at hne
        · exact h pre e' post hts
      · exact fun h pre e' post hts => h _ e' post (Or.inr ⟨pre, rfl, hts⟩)
    | inserted e =>
      rw [InsertedSatisfy, ih]
      simp only [hsplit]
      constructor
      · intro h pre e' post h'
        obtain ⟨he, h⟩ := h
        rcases h' with ⟨rfl, heq, -⟩ | ⟨pre, rfl, hts⟩
        · cases heq
          exact he
        · exact h pre e' post hts
      · intro h
        refine ⟨h [] e ts (Or.inl ⟨rfl, rfl, rfl⟩), fun pre e' post hts => ?_⟩
        exact h _ e' post (Or.inr ⟨pre, rfl, hts⟩)

variable {step}

/-- Silent additional events do not change the state a run leads to. -/
theorem final_eq_of_silent {s : σ} {ts : List (Tagged ε)}
    (h : InsertedSatisfy step (fun s e => (step s e).2 = s) s ts) :
    final step s (events ts) = final step s (originals ts) := by
  induction ts generalizing s with
  | nil => rfl
  | cons t ts ih =>
    cases t with
    | original e => exact ih h
    | inserted e =>
      obtain ⟨hsilent, hrest⟩ := h
      rw [hsilent] at hrest
      rw [events_cons, final_cons, Tagged.event, hsilent]
      exact ih hrest

/-- Silent additional events do not change the outputs of the original ones. -/
theorem originalOutputs_eq_of_silent {s : σ} {ts : List (Tagged ε)}
    (h : InsertedSatisfy step (fun s e => (step s e).2 = s) s ts) :
    originalOutputs step s ts = outputs step s (originals ts) := by
  induction ts generalizing s with
  | nil => rfl
  | cons t ts ih =>
    cases t with
    | original e => exact congrArg _ (ih h)
    | inserted e =>
      obtain ⟨hsilent, hrest⟩ := h
      rw [hsilent] at hrest
      rw [originalOutputs, hsilent]
      exact ih hrest

end Machine
