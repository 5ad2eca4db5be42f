import Rcodex.Transport.Relay
import Rcodex.Foundation.CompactJson

/-!
# An outgoing `initialize` is a full reset

Two transports of one client and host, whatever happened to them, agree after the same `initialize`
with the same fresh stream: in what it emits, in everything later, and in the state they end in
(`initialize_resets`).  This holds even if one of them receives delayed frames of earlier streams:
`streamsOf` lists the streams of a run, fresh identifiers make them distinct, and a frame of any but
the last of them changes nothing (`Delayed.silent`).
-/

namespace Rcodex

open Json

namespace RelayTransport

/-! ### Delayed frames -/

/-- A frame for this client and host that belongs to one of the given streams. -/
structure Delayed (clientId environmentId : String) (streams : List String) (envelope : Value) :
    Prop where
  /-- The client. -/
  client_id : envelope.get "client_id" = some (.string clientId)
  /-- The host. -/
  env_id : envelope.get "env_id" = some (.string environmentId)
  /-- One of the streams. -/
  stream_id : ∃ streamId ∈ streams, envelope.get "stream_id" = some (.string streamId)

/-- A delayed frame of other streams than the active one gives nothing and changes nothing. -/
theorem Delayed.silent {C : Codec} {t : RelayTransport} {streams : List String} {envelope : Value}
    (h : Delayed t.clientId t.environmentId streams envelope) (hactive : t.streamId ∉ streams) :
    t.observeServerEnvelope C envelope = (.ok none, t) := by
  obtain ⟨hclient, henv, streamId, hmem, hstream⟩ := h
  have hne : streamId ≠ t.streamId := by
    rintro rfl
    exact hactive hmem
  have htarget : serverEnvelopeTargetsActiveStream envelope t.clientId t.environmentId t.streamId =
      .ok false :=
    serverEnvelopeTargetsActiveStream_eq_ok_iff.mpr
      ⟨hclient, henv, streamId, hstream, (decide_eq_false hne).symm⟩
  have hadmits : t.admits envelope = .ok false := by
    unfold admits
    split_ifs
    · rfl
    · rfl
    · exact htarget
  rw [observeServerEnvelope, hadmits]

/-- In a run on fresh streams the active stream is none of the earlier ones. -/
theorem streamId_notMem_of_nodup (C : Codec) (t : RelayTransport) {old : List String}
    {es later : List Event} (hfresh : (old ++ streamsOf t.streamId (es ++ later)).Nodup) :
    (Machine.final (step C) t es).streamId ∉ old ++ (streamsOf t.streamId es).dropLast := by
  intro hmem
  rw [streamsOf_append, streamsOf_eq_dropLast_append C t es, List.append_assoc,
    ← List.append_assoc old, List.nodup_append] at hfresh
  exact hfresh.2.2 _ hmem _ (List.mem_append_left _ (List.mem_singleton_self _)) rfl

/-! ### The reset -/

/-- After `initialize` transports of one client and host are equal, and it emits the same. -/
theorem initialize_step_eq {C : Codec} {t t' : RelayTransport} (hclient : t.clientId = t'.clientId)
    (henv : t.environmentId = t'.environmentId) {fresh : String} {message : Value}
    (h : method message = some "initialize") :
    step C t (.outgoing fresh message) = step C t' (.outgoing fresh message) := by
  have hprepare : t.prepare fresh message = t'.prepare fresh message := by
    rw [prepare_eq_prepare_connect t fresh message h,
      prepare_eq_prepare_connect t' fresh message h, hclient, henv]
  simp only [step, outgoingAppSegments, hprepare]

/-- Two histories of one client and host, the same `initialize` with the same fresh stream, and then
the same events, in the second run together with delayed frames of earlier streams: the results of
the events and the final states are the same, and the delayed frames give nothing. -/
theorem initialize_resets (C : Codec) {clientId environmentId stream₁ stream₂ fresh : String}
    {es₁ es₂ : List Event} {message : Value} (hmethod : method message = some "initialize")
    {old : List String} {ts : List (Machine.Tagged Event)}
    (hfresh : (old ++ streamsOf stream₂
      (es₂ ++ .outgoing fresh message :: Machine.events ts)).Nodup)
    (hdelayed : ∀ pre e post, ts = pre ++ .inserted e :: post → ∃ envelope, e = .incoming envelope ∧
      Delayed clientId environmentId (old ++ (streamsOf stream₂
        (es₂ ++ .outgoing fresh message :: Machine.events pre)).dropLast) envelope) :
    let t₁ := Machine.final (step C) (connect clientId environmentId stream₁) es₁
    let t₂ := Machine.final (step C) (connect clientId environmentId stream₂) es₂
    let init : Event := .outgoing fresh message
    (step C t₁ init).1 = (step C t₂ init).1 ∧
    Machine.originalOutputs (step C) (step C t₂ init).2 ts =
      Machine.outputs (step C) (step C t₁ init).2 (Machine.originals ts) ∧
    Machine.final (step C) (step C t₂ init).2 (Machine.events ts) =
      Machine.final (step C) (step C t₁ init).2 (Machine.originals ts) ∧
    Machine.InsertedSatisfy (step C) (fun t e => (step C t e).1 = .received (.ok none))
      (step C t₂ init).2 ts := by
  intro t₁ t₂ init
  have htarget₁ := final_target C (connect clientId environmentId stream₁) es₁
  have htarget₂ := final_target C (connect clientId environmentId stream₂) es₂
  have hinit : step C t₁ init = step C t₂ init :=
    initialize_step_eq (htarget₁.1.trans htarget₂.1.symm) (htarget₁.2.trans htarget₂.2.symm)
      hmethod
  have hsilent : Machine.InsertedSatisfy (step C)
      (fun t e => step C t e = (.received (.ok none), t)) (step C t₂ init).2 ts := by
    rw [Machine.insertedSatisfy_iff]
    intro pre e post hts
    obtain ⟨envelope, rfl, hframe⟩ := hdelayed pre e post hts
    -- the state before the delayed frame is the one after the whole history
    have hstate : Machine.final (step C) (step C t₂ init).2 (Machine.events pre) =
        Machine.final (step C) (connect clientId environmentId stream₂)
          (es₂ ++ init :: Machine.events pre) := by
      rw [Machine.final_append, Machine.final_cons]
    have hsplit : es₂ ++ init :: Machine.events ts = (es₂ ++ init :: Machine.events pre) ++
        Machine.events (.inserted (.incoming envelope) :: post) := by
      rw [hts, Machine.events_append, List.append_assoc, List.cons_append]
    rw [hsplit] at hfresh
    have hactive := streamId_notMem_of_nodup C (connect clientId environmentId stream₂) hfresh
    obtain ⟨hclient, henv⟩ := final_target C (connect clientId environmentId stream₂)
      (es₂ ++ init :: Machine.events pre)
    rw [← hstate] at hactive hclient henv
    generalize Machine.final (step C) (step C t₂ init).2 (Machine.events pre) = t
      at hactive hclient henv
    have hframe' : Delayed t.clientId t.environmentId (old ++ (streamsOf stream₂
        (es₂ ++ init :: Machine.events pre)).dropLast) envelope := by
      rw [hclient, henv]
      exact hframe
    simp only [step, hframe'.silent (C := C) hactive]
  have hstate := hsilent.imp _ fun _ _ h => congrArg Prod.snd h
  refine ⟨congrArg Prod.fst hinit, ?_, ?_, hsilent.imp _ fun _ _ h => congrArg Prod.fst h⟩
  · rw [hinit]
    exact Machine.originalOutputs_eq_of_silent hstate
  · rw [hinit]
    exact Machine.final_eq_of_silent hstate

/-- The half message left from the stream `old` and its other half, delayed into the stream `new`,
do not disturb the two halves of a message of that stream. -/
theorem initialize_resets_halves :
    Machine.originalOutputs (step emptyObjectCodec)
      (step emptyObjectCodec
        (Machine.final (step emptyObjectCodec) (connect "client" "env" "old")
          [.incoming (halfObject "env" "old" 1 0)])
        (.outgoing "new" (.ofMembers [("method", .string "initialize")]))).2
      [.original (.incoming (halfObject "env" "new" 1 0)),
        .inserted (.incoming (halfObject "env" "old" 1 1)),
        .original (.incoming (halfObject "env" "new" 1 1))] =
    [.received (.ok none), .received (.ok (some (.object [])))] := by
  have hreset := @initialize_resets emptyObjectCodec "client" "env" "other" "old" "new" []
    [.incoming (halfObject "env" "old" 1 0)] (.ofMembers [("method", .string "initialize")])
    (by decide +kernel) []
    [.original (.incoming (halfObject "env" "new" 1 0)),
      .inserted (.incoming (halfObject "env" "old" 1 1)),
      .original (.incoming (halfObject "env" "new" 1 1))]
    (by decide +kernel) (fun pre e post hts => by
      -- the only delayed frame stands behind one event
      obtain ⟨rfl, rfl⟩ : pre = [.original (.incoming (halfObject "env" "new" 1 0))] ∧
          e = .incoming (halfObject "env" "old" 1 1) := by
        rcases pre with _ | ⟨first, _ | ⟨second, _ | ⟨third, pre⟩⟩⟩ <;> simp at hts
        exact ⟨by rw [hts.1], hts.2.1.symm⟩
      exact ⟨_, rfl, by decide +kernel, by decide +kernel, "old", by decide +kernel,
        by decide +kernel⟩)
  exact hreset.2.1.trans (by decide +kernel)

end RelayTransport

end Rcodex
