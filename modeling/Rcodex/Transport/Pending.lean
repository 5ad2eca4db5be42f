import Rcodex.Transport.Delivery

/-!
# Pending requests

`unanswered` follows a run by its meaning: a request of the client, a message with a method and an
id, waits for an answer; a response of the server answers the request with its id; an error without
an id answers the oldest request; `initialize` starts over.  `TracksRequests` says of a run that
`pending_request_ids` is that list at every point, and that an error without an id becomes the
answer to its head.

The source looks at ids alone.  It also queues the id of a response of the client, and removes an id
when the server sends a request of its own with an equal one.  `tracksRequests_iff` shows that
a run tracks the requests exactly when neither happens (`Regular`).
-/

namespace Rcodex

open Json

namespace RelayTransport

/-! ### The unanswered requests -/

/-- The message of a server message that the transport accepts. -/
def acceptedMessage (C : Codec) (t : RelayTransport) (envelope : Value) : Option Value :=
  if (t.acceptedSequence C (.incoming envelope)).isSome then
    (t.completed C envelope).bind fun out => out.get "message"
  else none

/-- The id a message asks an answer for: that of a request. -/
def requestId (message : Value) : Option Value :=
  if (message.get "method").isSome then messageId message else none

/-- What a message of the server answers: an error without an id the oldest request, a response the
first one with its id, a request or a notification none. -/
def answer (waiting : List Value) (message : Value) : List Value :=
  if isRelayError message then waiting.tail
  else if (message.get "method").isSome then waiting
  else
    match message.get "id" with
    | some id => waiting.eraseP fun request => request.eq id
    | none => waiting

/-- The unanswered requests after an event. -/
def unansweredStep (C : Codec) (t : RelayTransport) (waiting : List Value) : Event → List Value
  | .outgoing _ message =>
    (if method message = some "initialize" then [] else waiting) ++ (requestId message).toList
  | .incoming envelope =>
    match t.acceptedMessage C envelope with
    | some message => answer waiting message
    | none => waiting

/-- The unanswered requests after a run. -/
def unanswered (C : Codec) : RelayTransport → List Value → List Event → List Value
  | _, waiting, [] => waiting
  | t, waiting, e :: es => unanswered C (step C t e).2 (unansweredStep C t waiting e) es

/-- A run and one more event. -/
theorem unanswered_concat (C : Codec) (t : RelayTransport) (waiting : List Value)
    (es : List Event) (e : Event) : unanswered C t waiting (es ++ [e]) =
      unansweredStep C (Machine.final (step C) t es) (unanswered C t waiting es) e := by
  induction es generalizing t waiting with
  | nil => rfl
  | cons e' es ih => rw [List.cons_append, unanswered, ih]; rfl

/-- The pending ids are the unanswered requests, and an error without an id answers the oldest. -/
structure TracksRequests (C : Codec) (t : RelayTransport) (es : List Event) : Prop where
  /-- At every point the pending ids are the unanswered requests. -/
  pending : ∀ pre post, es = pre ++ post →
    (Machine.final (step C) t pre).pendingRequestIds = unanswered C t t.pendingRequestIds pre
  /-- An error without an id is handed to the app as the answer to the oldest of them. -/
  relayError : ∀ pre envelope post message id waiting, es = pre ++ .incoming envelope :: post →
    (Machine.final (step C) t pre).acceptedMessage C envelope = some message →
    isRelayError message = true → unanswered C t t.pendingRequestIds pre = id :: waiting →
    ∃ object, message = .object object ∧
      ((Machine.final (step C) t pre).observeServerEnvelope C envelope).1 =
        .ok (some (.ofMembers [("id", id), ("error", .object (Map.remove object "type"))]))

/-- An event after which the pending ids are still the unanswered requests: the app sends an id that
asks for an answer only with a method, and the server sends a method only with an id that no
request waits for. -/
def Regular (C : Codec) (t : RelayTransport) : Event → Prop
  | .outgoing _ message => (messageId message).isSome → (message.get "method").isSome
  | .incoming envelope => ∀ message, t.acceptedMessage C envelope = some message →
      ∀ id, message.get "id" = some id → (message.get "method").isSome →
        ∀ request ∈ t.pendingRequestIds, request.eq id = false

/-! ### One event -/

/-- What is handed to the app for a message, and which ids remain. -/
theorem settle_eq (pending : List Value) (message : Value) :
    (settle pending message).2 =
      if isRelayError message then pending.tail
      else match message.get "id" with
        | some id => pending.eraseP fun request => request.eq id
        | none => pending := by
  unfold settle
  split_ifs with herror
  · cases pending with
    | nil => rfl
    | cons id pending => cases message.asObject <;> rfl
  · cases message.get "id" with
    | none => rfl
    | some id =>
      simp only [List.eraseP_eq_eraseIdx]
      cases pending.findIdx? fun waiting => waiting.eq id <;> rfl

/-- An error without an id answers the oldest request. -/
theorem settle_relayError {message : Value} (h : isRelayError message = true) (id : Value)
    (pending : List Value) : ∃ object, message = .object object ∧
      (settle (id :: pending) message).1 =
        .ok (.ofMembers [("id", id), ("error", .object (Map.remove object "type"))]) := by
  have hkind : kind message = some "error" := by
    simp only [isRelayError, Bool.and_eq_true, decide_eq_true_eq] at h
    exact h.1
  obtain ⟨v, hv, -⟩ := Option.bind_eq_some_iff.mp hkind
  obtain ⟨object, rfl, -⟩ := Value.exists_object_of_get hv
  refine ⟨object, rfl, ?_⟩
  unfold settle
  rw [if_pos h]
  rfl

/-- What an envelope does to the pending ids: an accepted message is settled, and otherwise they
stay. -/
theorem message_cases (C : Codec) (t : RelayTransport) (envelope : Value) :
    (∃ message, t.acceptedMessage C envelope = some message ∧
      (t.observeServerEnvelope C envelope).1 =
        (settle t.pendingRequestIds message).1.map some ∧
      (t.observeServerEnvelope C envelope).2.pendingRequestIds =
        (settle t.pendingRequestIds message).2) ∨
    t.acceptedMessage C envelope = none ∧
      (t.observeServerEnvelope C envelope).2.pendingRequestIds = t.pendingRequestIds := by
  have hnone : t.acceptedSequence C (.incoming envelope) = none →
      t.acceptedMessage C envelope = none := by
    intro h
    rw [acceptedMessage, h]
    rfl
  rcases completed_cases C t envelope with ⟨hcompleted, -, hpending, -⟩ |
    ⟨out, -, -, hcompleted, hdeliver⟩
  · exact Or.inr ⟨hnone (acceptedSequence_of_completed_eq_none hcompleted), hpending⟩
  revert hdeliver
  generalize t.observeServerEnvelope C envelope = res
  intro hdeliver
  cases hdeliver with
  | noSequence hseq =>
    exact Or.inr ⟨hnone (acceptedSequence_of_noSequence hcompleted hseq), rfl⟩
  | duplicate sequence seen hseq hseen hle =>
    exact Or.inr ⟨hnone (acceptedSequence_of_ne hcompleted hseq hseen (by omega)), rfl⟩
  | gap sequence seen hseq hseen hlt =>
    exact Or.inr ⟨hnone (acceptedSequence_of_ne hcompleted hseq hseen (by omega)), rfl⟩
  | noPayload sequence hseq hnext hmessage =>
    refine Or.inr ⟨?_, rfl⟩
    rw [acceptedMessage, acceptedSequence_of_next hcompleted hseq hnext, hcompleted]
    exact hmessage
  | settled sequence message hseq hnext hmessage =>
    refine Or.inl ⟨message, ?_, rfl, rfl⟩
    rw [acceptedMessage, acceptedSequence_of_next hcompleted hseq hnext, hcompleted]
    exact hmessage

/-- Erasing the first match changes a list exactly when there is one. -/
theorem eraseP_eq_self_iff {p : Value → Bool} {l : List Value} :
    l.eraseP p = l ↔ ∀ a ∈ l, p a = false := by
  constructor
  · intro h a ha
    by_contra hp
    have hlength := List.length_eraseP_of_mem ha (by simpa using hp)
    rw [h] at hlength
    have hpos := List.length_pos_of_mem ha
    omega
  · intro h
    exact List.eraseP_of_forall_not fun a ha => by simp [h a ha]

/-- A message is settled as it answers exactly when it is no request with the id of one that
waits. -/
theorem settle_eq_answer_iff {pending : List Value} {message : Value} :
    (settle pending message).2 = answer pending message ↔
      ∀ id, message.get "id" = some id → (message.get "method").isSome →
        ∀ request ∈ pending, request.eq id = false := by
  rw [settle_eq, answer]
  split_ifs with herror hmethod
  · have hid : message.get "id" = none := by
      simp only [isRelayError, Bool.and_eq_true, Option.isNone_iff_eq_none] at herror
      exact herror.2
    simp [hid]
  · cases hid : message.get "id" with
    | none => simp
    | some id =>
      simp only [Option.some.injEq, forall_eq', hmethod, true_implies]
      exact eraseP_eq_self_iff
  · simp [hmethod]

/-- From pending ids that are the unanswered requests, an event leads to such ones exactly when it
is regular. -/
theorem pending_step_iff (C : Codec) (t : RelayTransport) (e : Event) :
    (step C t e).2.pendingRequestIds = unansweredStep C t t.pendingRequestIds e ↔
      Regular C t e := by
  cases e with
  | outgoing fresh message =>
    have hstep : (step C t (.outgoing fresh message)).2.pendingRequestIds =
        (t.prepare fresh message).pendingRequestIds := rfl
    rw [hstep, prepare_pendingRequestIds, unansweredStep, List.append_cancel_left_eq, Regular,
      requestId]
    by_cases hmethod : (message.get "method").isSome
    · simp [hmethod]
    · cases messageId message <;> simp [hmethod]
  | incoming envelope =>
    have hstep : (step C t (.incoming envelope)).2.pendingRequestIds =
        (t.observeServerEnvelope C envelope).2.pendingRequestIds := rfl
    rw [hstep, unansweredStep, Regular]
    rcases message_cases C t envelope with ⟨message, hmessage, -, hpending⟩ | ⟨hmessage, hpending⟩
    · simp only [hmessage, hpending, Option.some.injEq, forall_eq']
      exact settle_eq_answer_iff
    · simp [hmessage, hpending]

/-! ### Whole runs -/

/-- A run tracks the requests exactly when all its events are regular. -/
theorem tracksRequests_iff (C : Codec) (t : RelayTransport) (es : List Event) :
    TracksRequests C t es ↔
      ∀ pre e post, es = pre ++ e :: post → Regular C (Machine.final (step C) t pre) e := by
  constructor
  · intro h pre e post hsplit
    have hbefore := h.pending pre (e :: post) hsplit
    have hafter := h.pending (pre ++ [e]) post (by rw [hsplit, List.append_assoc]; rfl)
    rw [Machine.final_concat, unanswered_concat, ← hbefore] at hafter
    exact (pending_step_iff C _ e).mp hafter
  · intro h
    have hpending : ∀ pre post, es = pre ++ post →
        (Machine.final (step C) t pre).pendingRequestIds =
          unanswered C t t.pendingRequestIds pre := by
      intro pre
      induction pre using List.reverseRecOn with
      | nil => exact fun _ _ => rfl
      | append_singleton pre e ih =>
        intro post hsplit
        rw [List.append_assoc] at hsplit
        rw [Machine.final_concat, unanswered_concat, ← ih _ hsplit]
        exact (pending_step_iff C _ e).mpr (h pre e post hsplit)
    refine ⟨hpending, fun pre envelope post message id waiting hsplit hmessage herror hhead => ?_⟩
    have hbefore := hpending pre _ hsplit
    rw [hhead] at hbefore
    obtain ⟨object, hobject, hsettle⟩ := settle_relayError herror id waiting
    refine ⟨object, hobject, ?_⟩
    rcases message_cases C (Machine.final (step C) t pre) envelope with
      ⟨message', hmessage', hresult, -⟩ | ⟨hmessage', -⟩
    · rw [hmessage] at hmessage'
      obtain rfl := Option.some.inj hmessage'
      rw [hresult, hbefore, hsettle]
      rfl
    · rw [hmessage] at hmessage'
      simp at hmessage'

/-- The app answers request 7 of the server, then sends its own request 8; an error of the relay
without an id is handed to the app as the answer to 7. -/
theorem not_tracksRequests_response :
    unanswered emptyObjectCodec newTransport []
      [.outgoing "" (.ofMembers [("id", .ofU64 7), ("result", .null)]),
        .outgoing "" (.ofMembers [("id", .ofU64 8), ("method", .string "turn/start")])] =
      [.ofU64 8] ∧
    Machine.outputs (step emptyObjectCodec)
      (Machine.final (step emptyObjectCodec) newTransport
        [.outgoing "" (.ofMembers [("id", .ofU64 7), ("result", .null)]),
          .outgoing "" (.ofMembers [("id", .ofU64 8), ("method", .string "turn/start")])])
      [.incoming (.ofMembers [("type", .string "server_message"), ("client_id", .string "client"),
        ("env_id", .string "env"), ("stream_id", .string "stream"), ("seq_id", .ofU64 1),
        ("message", .ofMembers [("type", .string "error")])])] =
      [.received (.ok (some (.ofMembers [("id", .ofU64 7), ("error", .object [])])))] ∧
    ¬ TracksRequests emptyObjectCodec newTransport
      [.outgoing "" (.ofMembers [("id", .ofU64 7), ("result", .null)])] := by
  refine ⟨by decide +kernel, by decide +kernel, fun h => ?_⟩
  exact absurd (h.pending _ [] (List.append_nil _).symm) (by decide +kernel)

end RelayTransport

end Rcodex
