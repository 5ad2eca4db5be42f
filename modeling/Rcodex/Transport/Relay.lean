import Rcodex.Transport.Segment

/-!
# The relay transport

The part of `RelayTransport` that decides what is sent and what is handed to the app; the socket is
left out.  `outgoingAppSegments` turns an app message into envelopes, `observeServerEnvelope` turns
an envelope of the server into an app message, an error, or nothing.  The fresh identifier that
`Uuid::new_v4` would give is an argument.

`observeServerEnvelope_outcome` lists everything one envelope can do, one constructor of
`ObserveOutcome` for each exit of the source up to the reassembler and one of `DeliverOutcome` for
each exit after it.  `streamsOf` lists the streams of a run.
-/

namespace Rcodex

open Json

/-- The state of a relay transport. -/
structure RelayTransport where
  /-- The client of the enrollment. -/
  clientId : String
  /-- The host the client talks to. -/
  environmentId : String
  /-- The sequence number of the next client message. -/
  nextClientSequence : UInt64
  /-- The ids of the requests that wait for an answer, oldest first. -/
  pendingRequestIds : List Value
  /-- The server messages being collected. -/
  reassembler : ServerMessageReassembler
  /-- The sequence number of the last server message. -/
  seenServerSequence : Option UInt64
  /-- The active stream. -/
  streamId : String

/-- The text of the `method` member of a message. -/
def method (message : Value) : Option String := (message.get "method").bind Value.asStr

/-- The id of a message, if it is a string or a number. -/
def messageId (message : Value) : Option Value :=
  (message.get "id").filter fun id => id.isString || id.isNumber

namespace RelayTransport

/-- The transport that `connect` returns. -/
def connect (clientId environmentId streamId : String) : RelayTransport where
  clientId := clientId
  environmentId := environmentId
  nextClientSequence := 1
  pendingRequestIds := []
  reassembler := .empty
  seenServerSequence := none
  streamId := streamId

/-! ### Outgoing messages -/

/-- What an outgoing `initialize` does before it is sent. -/
def reset (t : RelayTransport) (fresh : String) : RelayTransport :=
  { t with
    streamId := fresh
    nextClientSequence := 1
    seenServerSequence := none
    pendingRequestIds := []
    reassembler := .empty }

/-- The transport when the envelope of an outgoing message is built: reset by `initialize`, and
waiting for an answer to the id of the message. -/
def prepare (t : RelayTransport) (fresh : String) (message : Value) : RelayTransport :=
  let t := if method message = some "initialize" then t.reset fresh else t
  match messageId message with
  | some id => { t with pendingRequestIds := t.pendingRequestIds ++ [id] }
  | none => t

/-- The envelope around a message with the next sequence number of the stream. -/
def envelope (t : RelayTransport) (message : Value) : Value :=
  clientMessageEnvelope t.clientId t.environmentId t.streamId t.nextClientSequence message

/-- `outgoing_app_segments` -/
def outgoingAppSegments (C : Codec) (fresh : String) (t : RelayTransport) (message : Value) :
    Option (Except RelayError (List Value)) × RelayTransport :=
  let t := t.prepare fresh message
  (segmentClientMessage C (t.envelope message),
    { t with nextClientSequence := saturatingSucc t.nextClientSequence })

/-- The `client_closed` envelope with which `bridge_local` ends. -/
def closing (t : RelayTransport) : Value :=
  clientClosed t.clientId t.environmentId t.streamId t.nextClientSequence

/-! ### Incoming envelopes -/

/-- The first checks of `observe_server_envelope`: whether an envelope is one of the active stream
that carries a server message. -/
def admits (t : RelayTransport) (envelope : Value) : Except RelayError Bool :=
  if kind envelope = some "ack" ∨ kind envelope = some "pong" then .ok false
  else if kind envelope ≠ some "server_message" ∧ kind envelope ≠ some "server_message_chunk" then
    .ok false
  else serverEnvelopeTargetsActiveStream envelope t.clientId t.environmentId t.streamId

/-- Whether a message is an error without an id. -/
def isRelayError (message : Value) : Bool :=
  decide (kind message = some "error") && (message.get "id").isNone

/-- The message handed to the app and the ids that still wait: an error without an id answers the
oldest one, any other message with an id answers the first equal one. -/
def settle (pending : List Value) (message : Value) : Except RelayError Value × List Value :=
  if isRelayError message then
    match pending with
    | [] => (.error .noPendingRequest, [])
    | id :: pending =>
      match message.asObject with
      | none => (.error .errorNotObject, pending)
      | some object =>
        (.ok (.ofMembers [("id", id), ("error", .object (Map.remove object "type"))]), pending)
  else
    match message.get "id" with
    | none => (.ok message, pending)
    | some id =>
      match pending.findIdx? fun waiting => waiting.eq id with
      | some position => (.ok message, pending.eraseIdx position)
      | none => (.ok message, pending)

/-- The last part of `observe_server_envelope`: a complete server message is in sequence, or a
duplicate, or an error. -/
def deliver (t : RelayTransport) (envelope : Value) :
    Except RelayError (Option Value) × RelayTransport :=
  match (envelope.get "seq_id").bind Value.asU64 with
  | none => (.error .noSequence, t)
  | some sequence =>
    if t.seenServerSequence.any fun seen => sequence ≤ seen then (.ok none, t)
    else if t.seenServerSequence.any fun seen => sequence ≠ saturatingSucc seen then
      (.error .sequenceGap, t)
    else
      let t := { t with seenServerSequence := some sequence }
      match envelope.get "message" with
      | none => (.error .noPayload, t)
      | some message =>
        let (result, pending) := settle t.pendingRequestIds message
        (result.map some, { t with pendingRequestIds := pending })

/-- `observe_server_envelope` -/
def observeServerEnvelope (C : Codec) (t : RelayTransport) (envelope : Value) :
    Except RelayError (Option Value) × RelayTransport :=
  match t.admits envelope with
  | .error error => (.error error, t)
  | .ok false => (.ok none, t)
  | .ok true =>
    let (result, reassembler) := t.reassembler.observe C envelope
    let t := { t with reassembler }
    match result with
    | .error error => (.error error, t)
    | .ok none => (.ok none, t)
    | .ok (some envelope) => t.deliver envelope

/-! ### Events -/

/-- What happens to a transport. -/
inductive Event where
  /-- The app sends a message; an `initialize` takes the fresh identifier for its stream. -/
  | outgoing (fresh : String) (message : Value)
  /-- The server sends an envelope. -/
  | incoming (envelope : Value)

/-- What comes of it. -/
inductive Output where
  /-- The envelopes for the server. -/
  | emitted (result : Option (Except RelayError (List Value)))
  /-- The message for the app. -/
  | received (result : Except RelayError (Option Value))
deriving DecidableEq

/-- The transport as a transducer. -/
def step (C : Codec) (t : RelayTransport) : Event → Output × RelayTransport
  | .outgoing fresh message =>
    let (result, t) := t.outgoingAppSegments C fresh message
    (.emitted result, t)
  | .incoming envelope =>
    let (result, t) := t.observeServerEnvelope C envelope
    (.received result, t)

/-- An outgoing `initialize`. -/
def Event.IsInitialize : Event → Prop
  | .outgoing _ message => method message = some "initialize"
  | .incoming _ => False

/-- A transport that has seen nothing of its active stream: a new one, and one just reset. -/
structure Fresh (t : RelayTransport) : Prop where
  /-- No server message. -/
  seen_eq : t.seenServerSequence = none
  /-- No chunk. -/
  reassembler_eq : t.reassembler = .empty

theorem fresh_connect (clientId environmentId streamId : String) :
    (connect clientId environmentId streamId).Fresh := ⟨rfl, rfl⟩

/-- A new transport of the client `client`. -/
def newTransport : RelayTransport := connect "client" "env" "stream"

theorem fresh_newTransport : newTransport.Fresh := fresh_connect _ _ _

/-! ### What one message and one envelope can do -/

section Prepare

variable (t : RelayTransport) (fresh : String) (message : Value)

/-- Preparing a message keeps the client. -/
@[simp] theorem prepare_clientId : (t.prepare fresh message).clientId = t.clientId := by
  unfold prepare
  split_ifs <;> cases messageId message <;> rfl

/-- Preparing a message keeps the host. -/
@[simp] theorem prepare_environmentId :
    (t.prepare fresh message).environmentId = t.environmentId := by
  unfold prepare
  split_ifs <;> cases messageId message <;> rfl

/-- Only `initialize` opens a stream. -/
theorem prepare_streamId : (t.prepare fresh message).streamId =
    if method message = some "initialize" then fresh else t.streamId := by
  unfold prepare
  split_ifs <;> cases messageId message <;> rfl

/-- Only `initialize` starts the numbering anew. -/
theorem prepare_nextClientSequence : (t.prepare fresh message).nextClientSequence =
    if method message = some "initialize" then 1 else t.nextClientSequence := by
  unfold prepare
  split_ifs <;> cases messageId message <;> rfl

/-- Only `initialize` forgets the server messages. -/
theorem prepare_seenServerSequence : (t.prepare fresh message).seenServerSequence =
    if method message = some "initialize" then none else t.seenServerSequence := by
  unfold prepare
  split_ifs <;> cases messageId message <;> rfl

/-- Only `initialize` forgets the chunks. -/
theorem prepare_reassembler : (t.prepare fresh message).reassembler =
    if method message = some "initialize" then .empty else t.reassembler := by
  unfold prepare
  split_ifs <;> cases messageId message <;> rfl

/-- The id of the message joins those that wait; `initialize` forgets the others. -/
theorem prepare_pendingRequestIds : (t.prepare fresh message).pendingRequestIds =
    (if method message = some "initialize" then [] else t.pendingRequestIds) ++
      (messageId message).toList := by
  unfold prepare
  split_ifs <;> cases messageId message <;> simp [reset]

/-- After `initialize` nothing of the earlier state is left. -/
theorem prepare_eq_prepare_connect (h : method message = some "initialize") :
    t.prepare fresh message = (connect t.clientId t.environmentId fresh).prepare fresh message := by
  unfold prepare
  rw [if_pos h, if_pos h]
  rfl

end Prepare

/-- An envelope is admitted when it carries a server message of the active stream of this client
and host. -/
theorem admits_eq_ok_true_iff {t : RelayTransport} {envelope : Value} :
    t.admits envelope = .ok true ↔
      (kind envelope = some "server_message" ∨ kind envelope = some "server_message_chunk") ∧
      envelope.get "client_id" = some (.string t.clientId) ∧
      envelope.get "env_id" = some (.string t.environmentId) ∧
      envelope.get "stream_id" = some (.string t.streamId) := by
  have htarget : serverEnvelopeTargetsActiveStream envelope t.clientId t.environmentId t.streamId =
      .ok true ↔ envelope.get "client_id" = some (.string t.clientId) ∧
        envelope.get "env_id" = some (.string t.environmentId) ∧
        envelope.get "stream_id" = some (.string t.streamId) := by
    rw [serverEnvelopeTargetsActiveStream_eq_ok_iff]
    refine and_congr_right fun _ => and_congr_right fun _ => ?_
    constructor
    · intro h
      obtain ⟨s, hs, htrue⟩ := h
      rw [hs, of_decide_eq_true htrue.symm]
    · intro hs
      exact ⟨t.streamId, hs, by simp⟩
  unfold admits
  split_ifs with hack hkind
  · apply iff_of_false (by simp)
    intro h
    obtain ⟨hkind, -⟩ := h
    rcases hack with hack | hack <;> rcases hkind with hkind | hkind <;> simp [hack] at hkind
  · apply iff_of_false (by simp)
    intro h
    obtain ⟨hkind', -⟩ := h
    rcases hkind' with hkind' | hkind'
    · exact hkind.1 hkind'
    · exact hkind.2 hkind'
  · have hkind' : kind envelope = some "server_message" ∨
        kind envelope = some "server_message_chunk" := by
      by_contra hne
      exact hkind (not_or.mp hne)
    rw [htarget, and_iff_right hkind']

/-- A sequence number that the transport takes: any when it has seen none, else the next one. -/
def Next (t : RelayTransport) (sequence : UInt64) : Prop :=
  ∀ seen, t.seenServerSequence = some seen → sequence.toNat = seen.toNat + 1

/-- Everything a complete server message can do. -/
inductive DeliverOutcome (t : RelayTransport) (envelope : Value) :
    Except RelayError (Option Value) × RelayTransport → Prop
  /-- It has no sequence number. -/
  | noSequence (hsequence : (envelope.get "seq_id").bind Value.asU64 = none) :
      DeliverOutcome t envelope (.error .noSequence, t)
  /-- It was seen before. -/
  | duplicate (sequence seen : UInt64) (hsequence : envelope.get "seq_id" = some (.ofU64 sequence))
      (hseen : t.seenServerSequence = some seen) (hle : sequence.toNat ≤ seen.toNat) :
      DeliverOutcome t envelope (.ok none, t)
  /-- One before it is missing. -/
  | gap (sequence seen : UInt64) (hsequence : envelope.get "seq_id" = some (.ofU64 sequence))
      (hseen : t.seenServerSequence = some seen) (hlt : seen.toNat + 1 < sequence.toNat) :
      DeliverOutcome t envelope (.error .sequenceGap, t)
  /-- It is the next one and carries nothing. -/
  | noPayload (sequence : UInt64) (hsequence : envelope.get "seq_id" = some (.ofU64 sequence))
      (hnext : t.Next sequence) (hmessage : envelope.get "message" = none) :
      DeliverOutcome t envelope (.error .noPayload, { t with seenServerSequence := some sequence })
  /-- It is the next one. -/
  | settled (sequence : UInt64) (message : Value)
      (hsequence : envelope.get "seq_id" = some (.ofU64 sequence))
      (hnext : t.Next sequence) (hmessage : envelope.get "message" = some message) :
      DeliverOutcome t envelope ((settle t.pendingRequestIds message).1.map some,
        { t with
          seenServerSequence := some sequence
          pendingRequestIds := (settle t.pendingRequestIds message).2 })

/-- What a complete server message does. -/
theorem deliver_outcome (t : RelayTransport) (envelope : Value) :
    DeliverOutcome t envelope (t.deliver envelope) := by
  unfold deliver
  cases hbind : (envelope.get "seq_id").bind Value.asU64 with
  | none => exact .noSequence hbind
  | some sequence =>
    have hsequence : envelope.get "seq_id" = some (.ofU64 sequence) := by
      obtain ⟨v, hv, hasU64⟩ := Option.bind_eq_some_iff.mp hbind
      rw [hv, Value.asU64_eq_some_iff.mp hasU64]
    simp only
    split_ifs with hduplicate hgap
    · obtain ⟨seen, hseen, hle⟩ := Option.any_eq_true _ _ |>.mp hduplicate
      exact .duplicate sequence seen hsequence hseen
        (UInt64.le_iff_toNat_le.mp (of_decide_eq_true hle))
    · obtain ⟨seen, hseen, hne⟩ := Option.any_eq_true _ _ |>.mp hgap
      have hlt : seen.toNat < sequence.toNat := by
        by_contra hle
        refine hduplicate (Option.any_eq_true _ _ |>.mpr ⟨seen, hseen, decide_eq_true ?_⟩)
        exact UInt64.le_iff_toNat_le.mpr (Nat.le_of_not_lt hle)
      have hbound : sequence.toNat < 2 ^ 64 := sequence.toNat_lt
      refine .gap sequence seen hsequence hseen (lt_of_le_of_ne hlt fun heq => ?_)
      refine of_decide_eq_true hne (UInt64.toNat_inj.mp ?_)
      rw [toNat_saturatingSucc (by omega)]
      exact heq.symm
    · have hnext : t.Next sequence := by
        intro seen hseen
        rw [hseen] at hduplicate hgap
        have hlt : ¬ sequence ≤ seen := by simpa using hduplicate
        have heq : sequence = saturatingSucc seen := by simpa using hgap
        exact eq_saturatingSucc_of_lt (UInt64.not_le.mp hlt) heq
      cases hmessage : envelope.get "message" with
      | none => exact .noPayload sequence hsequence hnext hmessage
      | some message => exact .settled sequence message hsequence hnext hmessage

/-- Everything an envelope of the server can do, one constructor for each way out of the filter and
of the reassembler. -/
inductive ObserveOutcome (C : Codec) (t : RelayTransport) (envelope : Value) :
    Except RelayError (Option Value) × RelayTransport → Prop
  /-- It is not for the app, or not of the active stream. -/
  | ignored (hadmits : t.admits envelope = .ok false) : ObserveOutcome C t envelope (.ok none, t)
  /-- It is for another client or host, or malformed. -/
  | refused (error : RelayError) (hadmits : t.admits envelope = .error error) :
      ObserveOutcome C t envelope (.error error, t)
  /-- It is a chunk of a message that is not complete. -/
  | collected (hadmits : t.admits envelope = .ok true)
      (hresult : (t.reassembler.observe C envelope).1 = .ok none) :
      ObserveOutcome C t envelope
        (.ok none, { t with reassembler := (t.reassembler.observe C envelope).2 })
  /-- The reassembler reports an error. -/
  | broken (hadmits : t.admits envelope = .ok true) (error : RelayError)
      (hresult : (t.reassembler.observe C envelope).1 = .error error) :
      ObserveOutcome C t envelope
        (.error error, { t with reassembler := (t.reassembler.observe C envelope).2 })
  /-- It completes a message. -/
  | complete (hadmits : t.admits envelope = .ok true) (out : Value)
      (hresult : (t.reassembler.observe C envelope).1 = .ok (some out))
      (res : Except RelayError (Option Value) × RelayTransport)
      (hres : DeliverOutcome { t with reassembler := (t.reassembler.observe C envelope).2 } out
        res) : ObserveOutcome C t envelope res

/-- What an envelope does. -/
theorem observeServerEnvelope_outcome (C : Codec) (t : RelayTransport) (envelope : Value) :
    ObserveOutcome C t envelope (t.observeServerEnvelope C envelope) := by
  unfold observeServerEnvelope
  cases hadmits : t.admits envelope with
  | error error => exact .refused error hadmits
  | ok admitted =>
    cases admitted with
    | false => exact .ignored hadmits
    | true =>
      simp only
      cases hresult : (t.reassembler.observe C envelope).1 with
      | error error => exact .broken hadmits error hresult
      | ok result =>
        cases result with
        | none => exact .collected hadmits hresult
        | some out => exact .complete hadmits out hresult _ (deliver_outcome _ out)

/-- A complete message leaves everything but the counter and the pending ids alone. -/
theorem DeliverOutcome.frame {t : RelayTransport} {envelope : Value}
    {res : Except RelayError (Option Value) × RelayTransport}
    (h : DeliverOutcome t envelope res) :
    ∃ seen pending, res.2 =
      { t with
        seenServerSequence := seen
        pendingRequestIds := pending } := by
  cases h with
  | noSequence => exact ⟨_, _, rfl⟩
  | duplicate => exact ⟨_, _, rfl⟩
  | gap => exact ⟨_, _, rfl⟩
  | noPayload => exact ⟨_, _, rfl⟩
  | settled => exact ⟨_, _, rfl⟩

/-- An envelope leaves the client, the host, the stream and the numbering alone, and its chunk goes
to the reassembler exactly when it is admitted. -/
theorem ObserveOutcome.frame {C : Codec} {t : RelayTransport} {envelope : Value}
    {res : Except RelayError (Option Value) × RelayTransport}
    (h : ObserveOutcome C t envelope res) :
    ∃ seen pending, res.2 =
      { t with
        seenServerSequence := seen
        pendingRequestIds := pending
        reassembler := if t.admits envelope = .ok true then (t.reassembler.observe C envelope).2
          else t.reassembler } := by
  cases h with
  | ignored hadmits => exact ⟨_, _, by rw [hadmits, if_neg (by simp)]⟩
  | refused error hadmits => exact ⟨_, _, by rw [hadmits, if_neg (by simp)]⟩
  | collected hadmits => exact ⟨_, _, by rw [hadmits, if_pos rfl]⟩
  | broken hadmits => exact ⟨_, _, by rw [hadmits, if_pos rfl]⟩
  | complete hadmits out hresult res hres =>
    obtain ⟨seen, pending, heq⟩ := hres.frame
    exact ⟨seen, pending, by rw [heq, hadmits, if_pos rfl]⟩

/-! ### The stream of a transport -/

section OneEvent

variable (C : Codec) (t : RelayTransport)

/-- An incoming envelope leaves the client, the host, the stream and the numbering alone. -/
theorem step_incoming_frame (envelope : Value) :
    ∃ seen pending, (step C t (.incoming envelope)).2 =
      { t with
        seenServerSequence := seen
        pendingRequestIds := pending
        reassembler := if t.admits envelope = .ok true then (t.reassembler.observe C envelope).2
          else t.reassembler } :=
  (observeServerEnvelope_outcome C t envelope).frame

variable (e : Event)

/-- No event changes the client and the host. -/
theorem step_target :
    (step C t e).2.clientId = t.clientId ∧ (step C t e).2.environmentId = t.environmentId := by
  cases e with
  | outgoing fresh message =>
    exact ⟨prepare_clientId t fresh message, prepare_environmentId t fresh message⟩
  | incoming envelope =>
    obtain ⟨seen, pending, hframe⟩ := step_incoming_frame C t envelope
    rw [hframe]
    exact ⟨rfl, rfl⟩

/-- The stream an event opens. -/
def Event.opened : Event → Option String
  | .outgoing fresh message => if method message = some "initialize" then some fresh else none
  | .incoming _ => none

/-- Only `initialize` opens a stream. -/
theorem Event.opened_eq_none {e : Event} (he : ¬ e.IsInitialize) : e.opened = none := by
  cases e with
  | outgoing fresh message => exact if_neg he
  | incoming envelope => rfl

/-- An event opens its stream or stays on the active one. -/
theorem step_streamId : (step C t e).2.streamId = e.opened.getD t.streamId := by
  cases e with
  | outgoing fresh message =>
    have hstream : (step C t (.outgoing fresh message)).2.streamId =
        (t.prepare fresh message).streamId := rfl
    rw [hstream, prepare_streamId, Event.opened]
    split_ifs <;> rfl
  | incoming envelope =>
    obtain ⟨seen, pending, hframe⟩ := step_incoming_frame C t envelope
    rw [hframe]
    rfl

end OneEvent

/-- The streams of a run, the active one last. -/
def streamsOf (streamId : String) (es : List Event) : List String :=
  streamId :: es.filterMap Event.opened

/-- The streams of a run in two parts. -/
theorem streamsOf_append (streamId : String) (es es' : List Event) :
    streamsOf streamId (es ++ es') = streamsOf streamId es ++ es'.filterMap Event.opened := by
  simp [streamsOf]

/-- No run changes the client and the host. -/
theorem final_target (C : Codec) (t : RelayTransport) (es : List Event) :
    (Machine.final (step C) t es).clientId = t.clientId ∧
      (Machine.final (step C) t es).environmentId = t.environmentId := by
  refine Machine.final_induction (step C)
    (P := fun t' => t'.clientId = t.clientId ∧ t'.environmentId = t.environmentId)
    (fun t' e h => ?_) ⟨rfl, rfl⟩ es
  obtain ⟨hclient, henv⟩ := step_target C t' e
  exact ⟨hclient.trans h.1, henv.trans h.2⟩

/-- The active stream is the last one of the run. -/
theorem streamsOf_eq_dropLast_append (C : Codec) (t : RelayTransport) (es : List Event) :
    streamsOf t.streamId es =
      (streamsOf t.streamId es).dropLast ++ [(Machine.final (step C) t es).streamId] := by
  induction es using List.reverseRecOn with
  | nil => rfl
  | append_singleton es e ih =>
    rw [streamsOf_append, Machine.final_concat, step_streamId]
    cases hopened : e.opened with
    | none =>
      simp only [List.filterMap_cons, hopened, List.filterMap_nil, List.append_nil,
        Option.getD_none]
      exact ih
    | some stream =>
      simp only [List.filterMap_cons, hopened, List.filterMap_nil, Option.getD_some]
      rw [List.dropLast_concat]

end RelayTransport

end Rcodex
