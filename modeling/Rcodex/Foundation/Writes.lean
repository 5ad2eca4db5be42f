import Rcodex.Foundation.Loops

/-!
# Writes that may fail

`Effect.write` appends an item to a part of the state, a list of what has arrived somewhere.  A
write that fails is reported, and its item may have arrived or not.  `Triple.writeAll` says what a
sequence of writes leaves: all items when it returns, and the first of them when it fails.
-/

namespace Effect

/-- How a write ends. -/
inductive Write where
  | done
  | failed (arrived : Bool)
deriving DecidableEq

/-- What was written arrives. -/
def Write.arrives : Write → Bool
  | .done => true
  | .failed arrived => arrived

variable {σ ε α : Type}

/-- Write an item; the outcome may depend on what was written before. -/
def write (part : Part σ (List α)) (ending : List α → α → Write) (error : ε) (item : α) :
    Effect σ ε Unit := do
  let ended ← note (fun s => ending (part.get s) item) fun ended s =>
    if ended.arrives then part.put (part.get s ++ [item]) s else s
  failWhen (ended ≠ .done) error

/-- Write items, each with its own error. -/
def writeAll (part : Part σ (List α)) (ending : List α → α → Write) (items : List (α × ε)) :
    Effect σ ε Unit :=
  handleAll (fun item => write part ending item.2 item.1) items

namespace Triple

variable {part : Part σ (List α)} {ending : List α → α → Write} {F : σ → Prop}

/-- A write, and a condition on the rest of the state. -/
theorem write (hF : ∀ items s, F s → F (part.put items s)) (before : List α) (error : ε)
    (item : α) :
    Triple (fun s => part.get s = before ∧ F s) (Effect.write part ending error item)
      (fun _ s => part.get s = before ++ [item] ∧ F s)
      fun _ s => (∃ written, written <+: [item] ∧ part.get s = before ++ written) ∧ F s := by
  refine Triple.bind (Q := fun ended s =>
    part.get s = before ++ (if ended.arrives = true then [item] else []) ∧ F s)
    (Triple.note fun s hs => ?_) fun ended => ?_
  · obtain ⟨hget, hrest⟩ := hs
    generalize ending (part.get s) item = ended
    cases ended.arrives with
    | true => exact ⟨by rw [if_pos rfl, if_pos rfl, part.get_put, hget], hF _ s hrest⟩
    | false => exact ⟨hget.trans (List.append_nil _).symm, hrest⟩
  · refine Triple.failWhen_of (fun s hs hdone => ?_) fun s hs _ => ?_
    · rw [not_not.mp hdone] at hs
      exact hs
    · refine ⟨⟨_, ?_, hs.1⟩, hs.2⟩
      split_ifs
      · exact List.prefix_rfl
      · exact List.nil_prefix

/-- A sequence of writes. -/
theorem writeAll (hF : ∀ items s, F s → F (part.put items s)) (before : List α)
    (items : List (α × ε)) :
    Triple (fun s => part.get s = before ∧ F s) (Effect.writeAll part ending items)
      (fun _ s => part.get s = before ++ items.map Prod.fst ∧ F s)
      fun _ s => (∃ written, written <+: items.map Prod.fst ∧ part.get s = before ++ written) ∧
        F s := by
  have hpass : ∀ (taken : List (α × ε)) item,
      Triple (fun s => part.get s = before ++ taken.map Prod.fst ∧ F s)
        (Effect.write part ending item.2 item.1)
        (fun _ s => part.get s = before ++ (taken ++ [item]).map Prod.fst ∧ F s)
        fun _ s => (∃ written, written <+: (taken ++ [item]).map Prod.fst ∧
          part.get s = before ++ written) ∧ F s := by
    intro taken item
    rw [List.map_append, ← List.append_assoc]
    refine (Triple.write hF (before ++ taken.map Prod.fst) item.2 item.1).conseq
      (fun _ hs => hs) (fun _ _ hs => hs) fun e s hs => ?_
    obtain ⟨⟨written, hprefix, hget⟩, hrest⟩ := hs
    refine ⟨⟨taken.map Prod.fst ++ written, List.prefix_append_right_inj _ |>.mpr hprefix, ?_⟩,
      hrest⟩
    rw [hget, List.append_assoc]
  have hloop := Triple.handleAll (I := fun taken s =>
      part.get s = before ++ taken.map Prod.fst ∧ F s)
    (E := fun taken _ s => (∃ written, written <+: taken.map Prod.fst ∧
      part.get s = before ++ written) ∧ F s) hpass [] items
  refine hloop.conseq (fun s hs => ?_) (fun _ s hs => hs) fun e s hs => ?_
  · rw [List.map_nil, List.append_nil]
    exact hs
  · obtain ⟨more, left, rfl, ⟨written, hprefix, hget⟩, hrest⟩ := hs
    exact ⟨⟨written, hprefix.trans ((List.prefix_append more left).map Prod.fst), hget⟩, hrest⟩

end Triple

end Effect
