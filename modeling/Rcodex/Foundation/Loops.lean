import Rcodex.Foundation.Audit

/-!
# Loops over inputs

`Effect.handle` takes one input after another; each pass says whether the loop goes on, and it may
fail.  Its rule `Triple.handle` needs an invariant that knows which inputs were taken, and what a
pass makes of it.  A loop that does not wait was stopped by one of its inputs, and the later ones do
not matter (`handle_cases`, `handle_append_cons`).  `Effect.handleAll` is a loop that every pass
continues.
-/

namespace Effect

variable {σ ε ι : Type}

/-- Take one input after another while the passes go on; whether the loop still waits for inputs. -/
def handle (pass : ι → Effect σ ε Bool) : List ι → Effect σ ε Bool
  | [] => pure true
  | input :: inputs => do
    let goes ← pass input
    if goes then handle pass inputs else pure false

section Stops

variable {pass : ι → Effect σ ε Bool} {s s' : σ}

/-- A pass after which the loop goes on. -/
theorem handle_cons_of_goes {input : ι} (h : pass input s = (.ok true, s')) (inputs : List ι) :
    handle pass (input :: inputs) s = handle pass inputs s' := by
  rw [handle, bind_apply, andThen, h]
  exact congrFun (if_pos rfl) s'

/-- A pass that stops the loop. -/
theorem handle_cons_of_stops {input : ι} (h : (pass input s).1 ≠ .ok true) (inputs : List ι) :
    handle pass (input :: inputs) s = pass input s := by
  rw [handle, bind_apply, andThen]
  rcases hrun : pass input s with ⟨r, after⟩
  rw [hrun] at h
  rcases r with error | goes
  · rfl
  · obtain rfl : goes = false := by
      cases goes with
      | false => rfl
      | true => exact absurd rfl h
    rfl

/-- A loop that is stopped ends as the pass that stops it. -/
theorem handle_append_cons {taken : List ι} {last : ι}
    (hwaits : handle pass taken s = (.ok true, s'))
    (hstops : (pass last s').1 ≠ .ok true) (left : List ι) :
    handle pass (taken ++ last :: left) s = pass last s' := by
  induction taken generalizing s with
  | nil =>
    obtain rfl : s = s' := (Prod.mk.inj hwaits).2
    exact handle_cons_of_stops hstops left
  | cons input taken ih =>
    by_cases hgoes : (pass input s).1 = .ok true
    · have hrun : pass input s = (.ok true, (pass input s).2) := by rw [← hgoes]
      rw [handle_cons_of_goes hrun] at hwaits
      rw [List.cons_append, handle_cons_of_goes hrun]
      exact ih hwaits
    · rw [handle_cons_of_stops hgoes] at hwaits
      exact absurd (congrArg Prod.fst hwaits) hgoes

/-- A loop waits, or the first input at which it does not go on stops it. -/
theorem handle_cases (pass : ι → Effect σ ε Bool) (inputs : List ι) (s : σ) :
    (∃ s', handle pass inputs s = (.ok true, s')) ∨
      ∃ taken last left s', inputs = taken ++ last :: left ∧
        handle pass taken s = (.ok true, s') ∧ (pass last s').1 ≠ .ok true := by
  induction inputs generalizing s with
  | nil => exact Or.inl ⟨s, rfl⟩
  | cons input inputs ih =>
    by_cases hgoes : (pass input s).1 = .ok true
    · have hrun : pass input s = (.ok true, (pass input s).2) := by rw [← hgoes]
      obtain ⟨s', hwaits⟩ | ⟨taken, last, left, s', rfl, hwaits, hstops⟩ := ih (pass input s).2
      · exact Or.inl ⟨s', by rw [handle_cons_of_goes hrun, hwaits]⟩
      · exact Or.inr ⟨input :: taken, last, left, s', rfl,
          by rw [handle_cons_of_goes hrun, hwaits], hstops⟩
    · exact Or.inr ⟨[], input, inputs, s, rfl, rfl, hgoes⟩

end Stops

/-- Take all inputs. -/
def handleAll (pass : ι → Effect σ ε Unit) (inputs : List ι) : Effect σ ε Unit := do
  let _ ← handle (fun input => do pass input; pure true) inputs

namespace Triple

/-- A loop. The invariant `I` holds of the inputs taken so far while the loop goes on, `J` when a
pass has ended it, and `E` when a pass has failed. -/
theorem handle {pass : ι → Effect σ ε Bool} {I J : List ι → σ → Prop} {E : List ι → ε → σ → Prop}
    (h : ∀ taken input, Triple (I taken) (pass input)
      (fun goes s => if goes = true then I (taken ++ [input]) s else J (taken ++ [input]) s)
      (E (taken ++ [input])))
    (taken inputs : List ι) : Triple (I taken) (Effect.handle pass inputs)
      (fun waits s => if waits = true then I (taken ++ inputs) s else
        ∃ more left, inputs = more ++ left ∧ J (taken ++ more) s)
      fun e s => ∃ more left, inputs = more ++ left ∧ E (taken ++ more) e s := by
  induction inputs generalizing taken with
  | nil =>
    refine Triple.ret fun s hs => ?_
    rw [if_pos rfl, List.append_nil]
    exact hs
  | cons input inputs ih =>
    have hsplit : ∀ {more left : List ι}, inputs = more ++ left →
        input :: inputs = (input :: more) ++ left := fun heq => congrArg (input :: ·) heq
    have hfails : ∀ e s, E (taken ++ [input]) e s →
        ∃ more left, input :: inputs = more ++ left ∧ E (taken ++ more) e s := by
      intro e s hs
      exact ⟨[input], inputs, rfl, hs⟩
    have hfirst := (h taken input).conseq (fun _ hs => hs) (fun _ _ hs => hs) hfails
    refine Triple.bind hfirst fun goes => ?_
    cases goes with
    | false => exact Triple.ret fun s hs => ⟨[input], inputs, rfl, hs⟩
    | true =>
      refine (ih (taken ++ [input])).conseq (fun s hs => hs) (fun waits s hs => ?_)
        fun e s hs => ?_
      · cases waits with
        | true =>
          rw [if_pos rfl, List.append_assoc, List.singleton_append] at hs
          exact hs
        | false =>
          rw [if_neg Bool.false_ne_true] at hs ⊢
          obtain ⟨more, left, heq, hJ⟩ := hs
          refine ⟨input :: more, left, hsplit heq, ?_⟩
          rw [List.append_assoc, List.singleton_append] at hJ
          exact hJ
      · obtain ⟨more, left, heq, hE⟩ := hs
        refine ⟨input :: more, left, hsplit heq, ?_⟩
        rw [List.append_assoc, List.singleton_append] at hE
        exact hE

/-- A loop that every pass continues. -/
theorem handleAll {pass : ι → Effect σ ε Unit} {I : List ι → σ → Prop}
    {E : List ι → ε → σ → Prop}
    (h : ∀ taken input, Triple (I taken) (pass input) (fun _ s => I (taken ++ [input]) s)
      (E (taken ++ [input])))
    (taken inputs : List ι) : Triple (I taken) (Effect.handleAll pass inputs)
      (fun _ s => I (taken ++ inputs) s)
      fun e s => ∃ more left, inputs = more ++ left ∧ E (taken ++ more) e s := by
  have hloop := @handle _ _ _ (fun input => do pass input; pure true) I (fun _ _ => False) E
    (fun taken input => Triple.bind (h taken input) fun _ => Triple.ret fun _ hs => hs) taken inputs
  refine Triple.bind hloop fun waits => Triple.ret fun s hs => ?_
  cases waits with
  | true => exact hs
  | false =>
    obtain ⟨more, left, -, hfalse⟩ := hs
    exact hfalse.elim

end Triple

end Effect
