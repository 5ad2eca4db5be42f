import Rcodex.Transport.Relay
import Rcodex.Transport.Integrity

/-!
# Which messages reach the app

From a new transport, or one just reset by `initialize`, the counter of server messages starts with
the first complete message and then moves by one (`acceptedSequences_consecutive`).  Two laws
follow.  Up to the first error the messages handed to the app have consecutive sequence numbers and
come from frames of the active stream (`delivered_consecutive`).  A complete message that is
dropped without an error was accepted before, or lies before the start of the stream
(`lossOnlyBeforeStart`).
-/

namespace Rcodex

open Json ServerMessageReassembler

namespace RelayTransport

/-! ### The active stream -/

/-- The envelope names this client and host and the active stream. -/
structure FromActiveStream (t : RelayTransport) (envelope : Value) : Prop where
  /-- The client. -/
  client_id : envelope.get "client_id" = some (.string t.clientId)
  /-- The host. -/
  env_id : envelope.get "env_id" = some (.string t.environmentId)
  /-- The stream. -/
  stream_id : envelope.get "stream_id" = some (.string t.streamId)

/-- Two transports with the same client, host and stream. -/
structure SameStream (t t' : RelayTransport) : Prop where
  /-- The client. -/
  clientId_eq : t'.clientId = t.clientId
  /-- The host. -/
  environmentId_eq : t'.environmentId = t.environmentId
  /-- The stream. -/
  streamId_eq : t'.streamId = t.streamId

/-- Whether an envelope is admitted depends on the client, the host and the stream only. -/
theorem SameStream.admits_eq {t t' : RelayTransport} (h : SameStream t t') (envelope : Value) :
    t'.admits envelope = t.admits envelope := by
  unfold admits
  rw [h.clientId_eq, h.environmentId_eq, h.streamId_eq]

/-- An event other than `initialize` stays on the stream. -/
theorem sameStream_step (C : Codec) (t : RelayTransport) {e : Event} (he : ¬ e.IsInitialize) :
    SameStream t (step C t e).2 := by
  obtain ⟨hclient, henv⟩ := step_target C t e
  refine ⟨hclient, henv, ?_⟩
  rw [step_streamId, Event.opened_eq_none he]
  rfl

/-- A run without `initialize` stays on the stream. -/
theorem sameStream_final (C : Codec) (t : RelayTransport) {es : List Event}
    (hes : ∀ e ∈ es, ¬ e.IsInitialize) : SameStream t (Machine.final (step C) t es) := by
  induction es generalizing t with
  | nil => exact ⟨rfl, rfl, rfl⟩
  | cons e es ih =>
    have hfirst := sameStream_step C t (hes e List.mem_cons_self)
    have hrest := ih (step C t e).2 fun e' he' => hes e' (List.mem_cons_of_mem _ he')
    exact ⟨hrest.clientId_eq.trans hfirst.clientId_eq,
      hrest.environmentId_eq.trans hfirst.environmentId_eq,
      hrest.streamId_eq.trans hfirst.streamId_eq⟩

/-- The frames of a run on one stream that reach the reassembler. -/
def admittedFrames (t : RelayTransport) (es : List Event) : List Value :=
  es.filterMap fun
    | .incoming envelope => if t.admits envelope = .ok true then some envelope else none
    | .outgoing _ _ => none

/-- They name this client and host and the active stream. -/
theorem fromActiveStream_of_mem {t : RelayTransport} {es : List Event} {envelope : Value}
    (h : envelope ∈ admittedFrames t es) : FromActiveStream t envelope := by
  obtain ⟨e, -, heq⟩ := List.mem_filterMap.mp h
  cases e with
  | outgoing fresh message => simp at heq
  | incoming envelope' =>
    simp only [Option.ite_none_right_eq_some, Option.some.injEq] at heq
    obtain ⟨hadmits, rfl⟩ := heq
    obtain ⟨-, hclient, henv, hstream⟩ := admits_eq_ok_true_iff.mp hadmits
    exact ⟨hclient, henv, hstream⟩

/-- The reassembler of the transport runs over the admitted frames. -/
theorem reassembler_final (C : Codec) (t : RelayTransport) {es : List Event}
    (hes : ∀ e ∈ es, ¬ e.IsInitialize) : (Machine.final (step C) t es).reassembler =
      Machine.final (observe C) t.reassembler (admittedFrames t es) := by
  induction es using List.reverseRecOn with
  | nil => rfl
  | append_singleton es e ih =>
    have hbefore : ∀ e' ∈ es, ¬ e'.IsInitialize := fun e' he' =>
      hes e' (List.mem_append_left _ he')
    have hlast : ¬ e.IsInitialize := hes e (List.mem_append_right _ List.mem_cons_self)
    rw [Machine.final_concat, admittedFrames, List.filterMap_append, Machine.final_append]
    rw [← admittedFrames, ← ih hbefore]
    generalize hlater : Machine.final (step C) t es = t'
    have hsame : SameStream t t' := hlater ▸ sameStream_final C t hbefore
    cases e with
    | outgoing fresh message =>
      have hmethod : method message ≠ some "initialize" := hlast
      have hreassembler := prepare_reassembler t' fresh message
      rwa [if_neg hmethod] at hreassembler
    | incoming envelope =>
      obtain ⟨seen, pending, hframe⟩ := step_incoming_frame C t' envelope
      rw [hframe, hsame.admits_eq]
      by_cases hadmits : t.admits envelope = .ok true
      · simp [hadmits]
      · simp [hadmits]

/-! ### Accepted messages -/

/-- The server message that an envelope completes. -/
def completed (C : Codec) (t : RelayTransport) (envelope : Value) : Option Value :=
  if t.admits envelope = .ok true then
    match (t.reassembler.observe C envelope).1 with
    | .ok out => out
    | .error _ => none
  else none

/-- The sequence number of the server message that an envelope completes. -/
def completedSequence (C : Codec) (t : RelayTransport) (envelope : Value) : Option UInt64 :=
  (t.completed C envelope).bind fun out => (out.get "seq_id").bind Value.asU64

/-- The sequence number of the server message that an envelope completes, if the transport has
seen none or the one before it. -/
def acceptedSequence (C : Codec) (t : RelayTransport) : Event → Option UInt64
  | .outgoing _ _ => none
  | .incoming envelope => (t.completedSequence C envelope).filter fun sequence =>
      t.seenServerSequence.all fun seen => sequence.toNat = seen.toNat + 1

/-- The sequence number of the message that is handed to the app. -/
def deliveredSequence (C : Codec) (t : RelayTransport) : Event → Option UInt64
  | .outgoing _ _ => none
  | .incoming envelope =>
    match (t.observeServerEnvelope C envelope).1 with
    | .ok (some _) => t.completedSequence C envelope
    | _ => none

/-- What a run gathers from its events. -/
def gather (C : Codec) (f : RelayTransport → Event → Option UInt64) :
    RelayTransport → List Event → List UInt64
  | _, [] => []
  | t, e :: es => (f t e).toList ++ gather C f (step C t e).2 es

/-- The sequence numbers a run accepts. -/
def acceptedSequences (C : Codec) : RelayTransport → List Event → List UInt64 :=
  gather C (acceptedSequence C)

/-- The sequence numbers of the messages a run hands to the app. -/
def deliveredSequences (C : Codec) : RelayTransport → List Event → List UInt64 :=
  gather C (deliveredSequence C)

/-- A run and one more event. -/
theorem gather_concat (C : Codec) (f : RelayTransport → Event → Option UInt64)
    (t : RelayTransport) (es : List Event) (e : Event) :
    gather C f t (es ++ [e]) = gather C f t es ++ (f (Machine.final (step C) t es) e).toList := by
  induction es generalizing t with
  | nil => simp [gather]
  | cons e' es ih => rw [List.cons_append, gather, ih, gather, List.append_assoc]; rfl

/-- A new transport accepts any sequence number, a later one the next. -/
theorem next_iff {t : RelayTransport} {sequence : UInt64} :
    (t.seenServerSequence.all fun seen => sequence.toNat = seen.toNat + 1) = true ↔
      t.Next sequence := by
  unfold Next
  cases t.seenServerSequence <;> simp

/-- What an envelope does: it completes nothing, and neither the counter nor the pending ids change
and nothing is handed to the app; or it completes a message, which is delivered. -/
theorem completed_cases (C : Codec) (t : RelayTransport) (envelope : Value) :
    (t.completed C envelope = none ∧
      (t.observeServerEnvelope C envelope).2.seenServerSequence = t.seenServerSequence ∧
      (t.observeServerEnvelope C envelope).2.pendingRequestIds = t.pendingRequestIds ∧
      ∀ message, (t.observeServerEnvelope C envelope).1 ≠ .ok (some message)) ∨
    ∃ out, t.admits envelope = .ok true ∧
      (t.reassembler.observe C envelope).1 = .ok (some out) ∧ t.completed C envelope = some out ∧
      DeliverOutcome { t with reassembler := (t.reassembler.observe C envelope).2 } out
        (t.observeServerEnvelope C envelope) := by
  have houtcome := observeServerEnvelope_outcome C t envelope
  revert houtcome
  generalize t.observeServerEnvelope C envelope = res
  intro houtcome
  unfold completed
  cases houtcome with
  | ignored hadmits => exact Or.inl ⟨by simp [hadmits], rfl, rfl, by simp⟩
  | refused error hadmits => exact Or.inl ⟨by simp [hadmits], rfl, rfl, by simp⟩
  | collected hadmits hresult =>
    exact Or.inl ⟨by simp [hadmits, hresult], rfl, rfl, by simp⟩
  | broken hadmits error hresult =>
    exact Or.inl ⟨by simp [hadmits, hresult], rfl, rfl, by simp⟩
  | complete hadmits out hresult _ hdeliver =>
    exact Or.inr ⟨out, hadmits, hresult, by simp [hadmits, hresult], hdeliver⟩

section Accepted

variable {C : Codec} {t : RelayTransport} {envelope : Value}

/-- Nothing is accepted when nothing is completed. -/
theorem acceptedSequence_of_completed_eq_none (h : t.completed C envelope = none) :
    t.acceptedSequence C (.incoming envelope) = none := by
  simp [acceptedSequence, completedSequence, h]

variable {out : Value} (hcompleted : t.completed C envelope = some out)
include hcompleted

/-- The sequence number is that of the envelope the reassembler returns. -/
theorem completedSequence_of_completed :
    t.completedSequence C envelope = (out.get "seq_id").bind Value.asU64 := by
  rw [completedSequence, hcompleted]
  rfl

/-- Without a sequence number nothing is accepted. -/
theorem acceptedSequence_of_noSequence (h : (out.get "seq_id").bind Value.asU64 = none) :
    t.acceptedSequence C (.incoming envelope) = none := by
  simp [acceptedSequence, completedSequence_of_completed hcompleted, h]

variable {sequence : UInt64} (hsequence : out.get "seq_id" = some (.ofU64 sequence))
include hsequence

/-- The next sequence number is accepted. -/
theorem acceptedSequence_of_next (hnext : t.Next sequence) :
    t.acceptedSequence C (.incoming envelope) = some sequence := by
  rw [acceptedSequence, completedSequence_of_completed hcompleted, hsequence]
  simpa [Option.filter, next_iff] using hnext

/-- One that was seen, and one after a gap, is not. -/
theorem acceptedSequence_of_ne {seen : UInt64} (hseen : t.seenServerSequence = some seen)
    (hne : sequence.toNat ≠ seen.toNat + 1) : t.acceptedSequence C (.incoming envelope) = none := by
  have hnext : ¬ t.Next sequence := fun hnext => hne (hnext seen hseen)
  rw [acceptedSequence, completedSequence_of_completed hcompleted, hsequence]
  simpa [Option.filter, next_iff] using hnext

end Accepted

/-- What an envelope does to the counter: it is accepted, and its message handed to the app or an
error reported, or the counter stays and nothing is handed to the app. -/
theorem accepted_cases (C : Codec) (t : RelayTransport) (envelope : Value) :
    (∃ sequence, t.acceptedSequence C (.incoming envelope) = some sequence ∧ t.Next sequence ∧
      (t.observeServerEnvelope C envelope).2.seenServerSequence = some sequence ∧
      t.completedSequence C envelope = some sequence ∧
      (t.observeServerEnvelope C envelope).1 ≠ .ok none) ∨
    t.acceptedSequence C (.incoming envelope) = none ∧
      (t.observeServerEnvelope C envelope).2.seenServerSequence = t.seenServerSequence ∧
      ∀ message, (t.observeServerEnvelope C envelope).1 ≠ .ok (some message) := by
  rcases completed_cases C t envelope with ⟨hnone, hseen, -, hresult⟩ |
    ⟨out, -, -, hcompleted, hdeliver⟩
  · exact Or.inr ⟨acceptedSequence_of_completed_eq_none hnone, hseen, hresult⟩
  have hsequence := completedSequence_of_completed hcompleted
  revert hdeliver
  generalize t.observeServerEnvelope C envelope = res
  intro hdeliver
  cases hdeliver with
  | noSequence hnone =>
    exact Or.inr ⟨acceptedSequence_of_noSequence hcompleted hnone, rfl, by simp⟩
  | duplicate sequence seen hseq hseen hle =>
    exact Or.inr ⟨acceptedSequence_of_ne hcompleted hseq hseen (by omega), rfl,
      by simp⟩
  | gap sequence seen hseq hseen hlt =>
    exact Or.inr ⟨acceptedSequence_of_ne hcompleted hseq hseen (by omega), rfl,
      by simp⟩
  | noPayload sequence hseq hnext =>
    rw [hseq] at hsequence
    exact Or.inl ⟨sequence, acceptedSequence_of_next hcompleted hseq hnext, hnext, rfl, hsequence,
      by simp⟩
  | settled sequence message hseq hnext =>
    rw [hseq] at hsequence
    refine Or.inl ⟨sequence, acceptedSequence_of_next hcompleted hseq hnext, hnext, rfl, hsequence,
      ?_⟩
    cases (settle t.pendingRequestIds message).1 <;> simp [Except.map]

/-- The counter after the given sequence numbers were accepted: they are consecutive, and the
counter holds the last one. -/
def CountsTo (accepted : List UInt64) (seen : Option UInt64) : Prop :=
  ∃ s n, accepted.map UInt64.toNat = List.range' s n ∧
    (seen = none ∧ n = 0 ∨ ∃ last : UInt64, seen = some last ∧ 0 < n ∧ last.toNat + 1 = s + n)

/-- Accepting the next sequence number counts on. -/
theorem CountsTo.concat {accepted : List UInt64} {t : RelayTransport} {sequence : UInt64}
    (h : CountsTo accepted t.seenServerSequence) (hnext : t.Next sequence) :
    CountsTo (accepted ++ [sequence]) (some sequence) := by
  obtain ⟨s, n, hrange, ⟨-, rfl⟩ | ⟨last, hlast, hpos, hsum⟩⟩ := h
  · refine ⟨sequence.toNat, 1, ?_, Or.inr ⟨sequence, rfl, one_pos, rfl⟩⟩
    rw [List.map_append, hrange]
    rfl
  · have hsucc := hnext last hlast
    refine ⟨s, n + 1, ?_, Or.inr ⟨sequence, rfl, Nat.succ_pos n, by omega⟩⟩
    rw [List.map_append, hrange, List.range'_concat, Nat.one_mul, List.map_singleton, hsucc, hsum]

/-- One event counts on or leaves the counter alone. -/
theorem CountsTo.step {C : Codec} {accepted : List UInt64} {t : RelayTransport} {e : Event}
    (h : CountsTo accepted t.seenServerSequence) (he : ¬ e.IsInitialize) :
    CountsTo (accepted ++ (acceptedSequence C t e).toList) (step C t e).2.seenServerSequence := by
  cases e with
  | outgoing fresh message =>
    have hmethod : method message ≠ some "initialize" := he
    have hseen := prepare_seenServerSequence t fresh message
    rw [if_neg hmethod] at hseen
    change CountsTo (accepted ++ []) (t.prepare fresh message).seenServerSequence
    rwa [hseen, List.append_nil]
  | incoming envelope =>
    have hstep : (RelayTransport.step C t (.incoming envelope)).2 =
        (t.observeServerEnvelope C envelope).2 := rfl
    rw [hstep]
    rcases accepted_cases C t envelope with ⟨sequence, haccepted, hnext, hseen, -, -⟩ |
      ⟨haccepted, hseen, -⟩
    · rw [haccepted, hseen]
      exact h.concat hnext
    · rw [haccepted, hseen, Option.toList_none, List.append_nil]
      exact h

/-- From a transport that has seen nothing, the accepted sequence numbers are consecutive and the
counter holds the last one. -/
theorem acceptedSequences_consecutive (C : Codec) {t : RelayTransport} (ht : t.Fresh)
    {es : List Event} (hes : ∀ e ∈ es, ¬ e.IsInitialize) :
    CountsTo (acceptedSequences C t es) (Machine.final (step C) t es).seenServerSequence := by
  induction es using List.reverseRecOn with
  | nil => exact ⟨0, 0, rfl, Or.inl ⟨ht.seen_eq, rfl⟩⟩
  | append_singleton es e ih =>
    have hbefore := ih fun e' he' => hes e' (List.mem_append_left _ he')
    have hlast : ¬ e.IsInitialize := hes e (List.mem_append_right _ List.mem_cons_self)
    rw [acceptedSequences, gather_concat, Machine.final_concat]
    exact hbefore.step hlast

/-! ### Delivery in order -/

/-- Without errors what is accepted is what is handed to the app. -/
theorem deliveredSequence_eq {C : Codec} {t : RelayTransport} {e : Event}
    (hok : ∀ error, (step C t e).1 ≠ .received (.error error)) :
    deliveredSequence C t e = acceptedSequence C t e := by
  cases e with
  | outgoing fresh message => rfl
  | incoming envelope =>
    have hok' : ∀ error, (t.observeServerEnvelope C envelope).1 ≠ .error error := by
      intro error herror
      exact hok error (congrArg Output.received herror)
    rcases accepted_cases C t envelope with ⟨sequence, haccepted, -, -, hcompleted, hsome⟩ |
      ⟨haccepted, -, hnone⟩
    · rw [haccepted, deliveredSequence]
      rcases hresult : (t.observeServerEnvelope C envelope).1 with error | _ | message
      · exact absurd hresult (hok' error)
      · exact absurd hresult hsome
      · exact hcompleted
    · rw [haccepted, deliveredSequence]
      rcases hresult : (t.observeServerEnvelope C envelope).1 with error | _ | message
      · rfl
      · rfl
      · exact absurd hresult (hnone message)

/-- In a run without errors what is accepted is what is handed to the app. -/
theorem deliveredSequences_eq {C : Codec} {t : RelayTransport} {es : List Event}
    (hok : ∀ error, .received (.error error) ∉ Machine.outputs (step C) t es) :
    deliveredSequences C t es = acceptedSequences C t es := by
  induction es generalizing t with
  | nil => rfl
  | cons e es ih =>
    have hfirst : ∀ error, (step C t e).1 ≠ .received (.error error) := fun error heq =>
      hok error (heq ▸ List.mem_cons_self)
    have hrest := ih fun error herror => hok error (List.mem_cons_of_mem _ herror)
    rw [deliveredSequences, acceptedSequences, gather, gather, deliveredSequence_eq hfirst]
    exact congrArg _ hrest

/-- What is handed to the app: an envelope of the active stream as it is, or a message put together
from chunks of such envelopes of the run. -/
def ComesFromActiveStream (C : Codec) (t : RelayTransport) (history : List Event) (out : Value) :
    Prop :=
  ∃ frames, (∀ frame ∈ frames, .incoming frame ∈ history ∧ t.FromActiveStream frame) ∧
    (out ∈ frames ∨ Genuine C frames out)

/-- A chunk of the active stream has the key of its sequence number. -/
theorem FromActiveStream.key_eq {C : Codec} {t : RelayTransport} {envelope : Value}
    (h : t.FromActiveStream envelope) {s : Segment} (hread : IsSegment C envelope s) :
    ∃ sequence : UInt64, Identifies s.object t.environmentId t.streamId sequence ∧
      s.key = assemblyKey t.environmentId t.streamId sequence.toNat := by
  obtain ⟨env, stream, sequence, hident, hkey⟩ := hread.key_eq
  have henv := hread.get_eq "env_id" ▸ h.env_id
  have hstream := hread.get_eq "stream_id" ▸ h.stream_id
  rw [hident.env_id] at henv
  rw [hident.stream_id] at hstream
  obtain rfl : env = t.environmentId := by simpa using henv
  obtain rfl : stream = t.streamId := by simpa using hstream
  exact ⟨sequence, hident, hkey⟩

/-- On one stream no chunk is stored in an assembly of another message. -/
theorem segregated_admittedFrames (C : Codec) (t : RelayTransport) (es : List Event)
    {pre : List Value} {frame : Value} {post : List Value}
    (h : admittedFrames t es = pre ++ frame :: post) :
    Segregated C (Machine.final (observe C) .empty pre) frame := by
  refine segregated_of_injective ?_ h
  intro e he e' he' s s' hs hs' hkey env stream sequence hident
  obtain ⟨n, hn, hkeyn⟩ := (fromActiveStream_of_mem he).key_eq hs
  obtain ⟨n', hn', hkeyn'⟩ := (fromActiveStream_of_mem he').key_eq hs'
  have heq : n = n' := by
    rw [hkeyn, hkeyn'] at hkey
    exact UInt64.toNat_inj.mp (eq_of_assemblyKey_eq hkey)
  obtain ⟨rfl, rfl, rfl⟩ := hident.unique hn
  exact heq ▸ hn'

/-- The admitted frames are envelopes of the run. -/
theorem mem_of_mem_admittedFrames {t : RelayTransport} {es : List Event} {envelope : Value}
    (h : envelope ∈ admittedFrames t es) : .incoming envelope ∈ es := by
  obtain ⟨e, he, heq⟩ := List.mem_filterMap.mp h
  cases e with
  | outgoing fresh message => simp at heq
  | incoming envelope' =>
    simp only [Option.ite_none_right_eq_some, Option.some.injEq] at heq
    obtain ⟨-, rfl⟩ := heq
    exact he

/-- A message that an envelope completes comes from the active stream. -/
theorem comesFromActiveStream_of_completed (C : Codec) {t : RelayTransport} (ht : t.Fresh)
    {es : List Event} (hes : ∀ e ∈ es, ¬ e.IsInitialize) {envelope out : Value}
    (hadmits : (Machine.final (step C) t es).admits envelope = .ok true)
    (hresult : ((Machine.final (step C) t es).reassembler.observe C envelope).1 = .ok (some out)) :
    ComesFromActiveStream C t (es ++ [.incoming envelope]) out := by
  have hadmits' : t.admits envelope = .ok true := by
    rw [← (sameStream_final C t hes).admits_eq envelope, hadmits]
  have hframes : admittedFrames t (es ++ [.incoming envelope]) =
      admittedFrames t es ++ [envelope] := by
    simp [admittedFrames, hadmits']
  refine ⟨admittedFrames t (es ++ [.incoming envelope]), fun frame hframe =>
    ⟨mem_of_mem_admittedFrames hframe, fromActiveStream_of_mem hframe⟩, ?_⟩
  rw [hframes]
  rw [reassembler_final C t hes, ht.reassembler_eq] at hresult
  by_cases hchunk : kind envelope = some "server_message_chunk"
  · have htraced := traced_final fun pre frame post h => segregated_admittedFrames C t es h
    exact Or.inr ((observe_outcome (invariant_final C _) envelope).genuine htraced
      (segregated_admittedFrames C t _ hframes) hchunk hresult)
  · unfold observe observeWith at hresult
    rw [if_pos hchunk] at hresult
    cases hresult
    exact Or.inl (List.mem_append_right _ List.mem_cons_self)

/-- Up to the first error, the messages handed to the app since the stream began have consecutive
sequence numbers, and each comes from frames of the active stream. -/
theorem delivered_consecutive (C : Codec) {t : RelayTransport} (ht : t.Fresh) {es : List Event}
    (hes : ∀ e ∈ es, ¬ e.IsInitialize)
    (hok : ∀ error, .received (.error error) ∉ Machine.outputs (step C) t es) :
    (∃ s n, (deliveredSequences C t es).map UInt64.toNat = List.range' s n) ∧
    ∀ pre envelope post message, es = pre ++ .incoming envelope :: post →
      ((Machine.final (step C) t pre).observeServerEnvelope C envelope).1 = .ok (some message) →
      ∃ out sequence, (Machine.final (step C) t pre).completed C envelope = some out ∧
        out.get "seq_id" = some (.ofU64 sequence) ∧
        ComesFromActiveStream C t (pre ++ [.incoming envelope]) out := by
  refine ⟨?_, fun pre envelope post message hsplit hmessage => ?_⟩
  · obtain ⟨s, n, hrange, -⟩ := acceptedSequences_consecutive C ht hes
    exact ⟨s, n, by rw [deliveredSequences_eq hok, hrange]⟩
  · have hbefore : ∀ e ∈ pre, ¬ e.IsInitialize := fun e he =>
      hes e (hsplit ▸ List.mem_append_left _ he)
    rcases completed_cases C (Machine.final (step C) t pre) envelope with ⟨-, -, -, hnone⟩ |
      ⟨out, hadmits, hresult, hcompleted, -⟩
    · exact absurd hmessage (hnone message)
    rcases accepted_cases C (Machine.final (step C) t pre) envelope with
      ⟨sequence, -, -, -, hsequence, -⟩ | ⟨-, -, hnone⟩
    · rw [completedSequence_of_completed hcompleted] at hsequence
      obtain ⟨v, hv, hasU64⟩ := Option.bind_eq_some_iff.mp hsequence
      rw [Value.asU64_eq_some_iff.mp hasU64] at hv
      exact ⟨out, sequence, hcompleted, hv,
        comesFromActiveStream_of_completed C ht hbefore hadmits hresult⟩
    · exact absurd hmessage (hnone message)

/-! ### Dropped messages -/

/-- No silent loss: when a message is complete and gives nothing, one with the same sequence number
was handed to the app before. -/
def NoSilentLoss (C : Codec) (t : RelayTransport) (es : List Event) : Prop :=
  ∀ pre envelope post sequence, es = pre ++ .incoming envelope :: post →
    (Machine.final (step C) t pre).completedSequence C envelope = some sequence →
    ((Machine.final (step C) t pre).observeServerEnvelope C envelope).1 = .ok none →
    sequence ∈ deliveredSequences C t pre

/-- A message of the run that was accepted, but not handed to the app: an error was reported. -/
def ReportedIn (C : Codec) (t : RelayTransport) (es : List Event) (sequence : UInt64) : Prop :=
  ∃ pre envelope post error, es = pre ++ .incoming envelope :: post ∧
    (Machine.final (step C) t pre).acceptedSequence C (.incoming envelope) = some sequence ∧
    ((Machine.final (step C) t pre).observeServerEnvelope C envelope).1 = .error error

/-- An accepted message was handed to the app, or an error was reported for it. -/
theorem delivered_or_reported {C : Codec} {t : RelayTransport} {es : List Event}
    {sequence : UInt64} (h : sequence ∈ acceptedSequences C t es) :
    sequence ∈ deliveredSequences C t es ∨ ReportedIn C t es sequence := by
  induction es using List.reverseRecOn with
  | nil => contradiction
  | append_singleton es e ih =>
    rw [acceptedSequences, gather_concat] at h
    rw [deliveredSequences, gather_concat]
    rcases List.mem_append.mp h with h | h
    · rcases ih h with h | ⟨pre, envelope, post, error, rfl, haccepted, herror⟩
      · exact Or.inl (List.mem_append_left _ h)
      · exact Or.inr ⟨pre, envelope, post ++ [e], error, by simp, haccepted, herror⟩
    · cases e with
      | outgoing fresh message => simp [acceptedSequence] at h
      | incoming envelope =>
        rcases accepted_cases C (Machine.final (step C) t es) envelope with
          ⟨sequence', haccepted, -, -, hcompleted, hsome⟩ | ⟨haccepted, -, -⟩
        · rw [haccepted, Option.mem_toList] at h
          obtain rfl := Option.some.inj h
          rcases hresult : ((Machine.final (step C) t es).observeServerEnvelope C envelope).1 with
            error | _ | message
          · exact Or.inr ⟨es, envelope, [], error, rfl, haccepted, hresult⟩
          · exact absurd hresult hsome
          · refine Or.inl (List.mem_append_right _ (Option.mem_toList.mpr ?_))
            rw [deliveredSequence, hresult]
            exact hcompleted
        · rw [haccepted] at h
          simp at h

/-- A message that is complete and gives nothing has a sequence number that was seen. -/
theorem seen_of_dropped {C : Codec} {t : RelayTransport} {envelope : Value} {sequence : UInt64}
    (hsequence : t.completedSequence C envelope = some sequence)
    (hnone : (t.observeServerEnvelope C envelope).1 = .ok none) :
    ∃ seen, t.seenServerSequence = some seen ∧ sequence.toNat ≤ seen.toNat := by
  rcases completed_cases C t envelope with ⟨hcompleted, -⟩ | ⟨out, -, -, hcompleted, hdeliver⟩
  · rw [completedSequence, hcompleted] at hsequence
    simp at hsequence
  rw [completedSequence_of_completed hcompleted] at hsequence
  revert hdeliver hnone
  generalize t.observeServerEnvelope C envelope = res
  intro hnone hdeliver
  cases hdeliver with
  | noSequence => simp at hnone
  | duplicate sequence' seen hsequence' hseen hle =>
    rw [hsequence', Option.bind_some, Value.asU64_ofU64] at hsequence
    obtain rfl := Option.some.inj hsequence
    exact ⟨seen, hseen, hle⟩
  | gap => simp at hnone
  | noPayload => simp at hnone
  | settled _ message =>
    cases hsettle : (settle t.pendingRequestIds message).1 <;>
      simp [hsettle, Except.map] at hnone

/-- No loss but before the start: when a message is complete and gives nothing, one with the same
sequence number was handed to the app before, or was accepted and reported by an error, or the
sequence number lies before the first one that the transport accepted. -/
def LossOnlyBeforeStart (C : Codec) (t : RelayTransport) (es : List Event) : Prop :=
  ∀ pre envelope post sequence, es = pre ++ .incoming envelope :: post →
    (Machine.final (step C) t pre).completedSequence C envelope = some sequence →
    ((Machine.final (step C) t pre).observeServerEnvelope C envelope).1 = .ok none →
    sequence ∈ deliveredSequences C t pre ∨ ReportedIn C t pre sequence ∨
      ∃ first, (acceptedSequences C t pre).head? = some first ∧ sequence.toNat < first.toNat

/-- On one stream a complete message is lost only before the first one that was accepted. -/
theorem lossOnlyBeforeStart (C : Codec) {t : RelayTransport} (ht : t.Fresh) {es : List Event}
    (hes : ∀ e ∈ es, ¬ e.IsInitialize) : LossOnlyBeforeStart C t es := by
  intro pre envelope post sequence hsplit hsequence hnone
  obtain ⟨seen, hseen, hle⟩ := seen_of_dropped hsequence hnone
  obtain ⟨s, n, hrange, hcounter⟩ := acceptedSequences_consecutive C ht fun e he =>
    hes e (hsplit ▸ List.mem_append_left _ he)
  rcases hcounter with ⟨hzero, -⟩ | ⟨last, hlast, hpos, hsum⟩
  · rw [hseen] at hzero
    simp at hzero
  rw [hseen] at hlast
  obtain rfl := Option.some.inj hlast
  by_cases hstart : s ≤ sequence.toNat
  · have hmem : sequence.toNat ∈ (acceptedSequences C t pre).map UInt64.toNat := by
      rw [hrange, List.mem_range'_1]
      omega
    obtain ⟨sequence', haccepted, heq⟩ := List.mem_map.mp hmem
    obtain rfl := UInt64.toNat_inj.mp heq
    exact (delivered_or_reported haccepted).imp_right Or.inl
  · obtain ⟨m, rfl⟩ := Nat.exists_eq_succ_of_ne_zero hpos.ne'
    rw [List.range'_succ] at hrange
    obtain ⟨first, rest, hcons, hfirst, -⟩ := List.map_eq_cons_iff.mp hrange
    exact Or.inr (Or.inr ⟨first, by rw [hcons]; rfl, by omega⟩)

/-- Message 7 is handed to the app, message 6 comes later and is dropped. -/
theorem not_noSilentLoss_wholeObject :
    ¬ NoSilentLoss emptyObjectCodec newTransport
      [.incoming (wholeObject "env" "stream" 7), .incoming (wholeObject "env" "stream" 6)] := by
  intro h
  have hdelivered := h [.incoming (wholeObject "env" "stream" 7)] (wholeObject "env" "stream" 6) []
    6 rfl (by decide +kernel) (by decide +kernel)
  exact absurd hdelivered (by decide +kernel)

/-- Message 7 arrives twice and is dropped the second time. -/
theorem lossOnlyBeforeStart_wholeObject :
    LossOnlyBeforeStart emptyObjectCodec newTransport
      [.incoming (wholeObject "env" "stream" 7), .incoming (wholeObject "env" "stream" 7)] :=
  lossOnlyBeforeStart emptyObjectCodec fresh_newTransport (by simp [Event.IsInitialize])

/-- Message 1 arrives whole and message 2 in halves: both are handed to the app. -/
theorem delivered_consecutive_halves :
    deliveredSequences emptyObjectCodec newTransport
      [.incoming (wholeObject "env" "stream" 1), .incoming (halfObject "env" "stream" 2 1),
        .incoming (halfObject "env" "stream" 2 0)] = [1, 2] ∧
    ∃ s n, (deliveredSequences emptyObjectCodec newTransport
      [.incoming (wholeObject "env" "stream" 1), .incoming (halfObject "env" "stream" 2 1),
        .incoming (halfObject "env" "stream" 2 0)]).map UInt64.toNat = List.range' s n := by
  have houtputs : Machine.outputs (step emptyObjectCodec) newTransport
      [.incoming (wholeObject "env" "stream" 1), .incoming (halfObject "env" "stream" 2 1),
        .incoming (halfObject "env" "stream" 2 0)] =
      [.received (.ok (some (.object []))), .received (.ok none),
        .received (.ok (some (.object [])))] := by decide +kernel
  refine ⟨by decide +kernel, (delivered_consecutive emptyObjectCodec fresh_newTransport
    (by simp [Event.IsInitialize]) ?_).1⟩
  intro error
  rw [houtputs]
  simp

end RelayTransport

end Rcodex
