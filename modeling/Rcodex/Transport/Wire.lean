import Rcodex.Transport.Relay
import Rcodex.Transport.RoundTrip
import Rcodex.Foundation.Grouping

/-!
# The outgoing wire stream

What a run sends is lossless (`wire_lossless`).  `Numbering` is the purpose of the counter of the
transport: on each stream the messages are numbered 1, 2, 3, ... without bound.  The transport goes
in step with it (`Represents`) up to the largest `u64`.  `Framed` says which envelopes may carry a
message, `frames` of a run are those the transport emits, and `readWire` is the reader of the other
side: it groups the envelopes by stream and number and glues the chunks of a group.
-/

namespace Rcodex

open Json

/-! ### Numbering -/

/-- A message with the stream and the number it is sent under. -/
structure Sending where
  /-- The stream. -/
  streamId : String
  /-- The number on the stream. -/
  seqId : ℕ
  /-- The message. -/
  message : Value

/-- The stream and the number. -/
def Sending.key (s : Sending) : String × ℕ := (s.streamId, s.seqId)

/-- The active stream and the number of messages it carries. -/
structure Numbering where
  /-- The active stream. -/
  streamId : String
  /-- The number of its messages. -/
  sent : ℕ

namespace Numbering

open RelayTransport (Event)

/-- An `initialize` opens a stream. -/
def prepare (a : Numbering) (fresh : String) (message : Value) : Numbering :=
  if method message = some "initialize" then ⟨fresh, 0⟩ else a

/-- A message takes the next number of the stream. -/
def next (a : Numbering) : Event → Option Sending × Numbering
  | .outgoing fresh message =>
    let a := a.prepare fresh message
    (some ⟨a.streamId, a.sent + 1, message⟩, ⟨a.streamId, a.sent + 1⟩)
  | .incoming _ => (none, a)

end Numbering

namespace RelayTransport

/-- The messages of a run that begins on a stream, with their numbers. -/
def sendings (streamId : String) (es : List Event) : List Sending :=
  (Machine.outputs Numbering.next ⟨streamId, 0⟩ es).filterMap id

/-- The messages of a stream. -/
def onStream (streamId : String) (sent : List Sending) : List Sending :=
  sent.filter fun s => s.streamId = streamId

/-- The message an event sends. -/
def Event.message : Event → Option Value
  | .outgoing _ message => some message
  | .incoming _ => none

/-- The messages of the app in a run. -/
def messagesOf (es : List Event) : List Value := es.filterMap Event.message

/-- The messages of a run in two parts. -/
theorem sendings_append (streamId : String) (es es' : List Event) :
    sendings streamId (es ++ es') = sendings streamId es ++
      (Machine.outputs Numbering.next (Machine.final Numbering.next ⟨streamId, 0⟩ es) es').filterMap
        id := by
  rw [sendings, Machine.outputs_append, List.filterMap_append]
  rfl

/-- The messages of a run and one more event. -/
theorem sendings_concat (streamId : String) (es : List Event) (e : Event) :
    sendings streamId (es ++ [e]) = sendings streamId es ++
      ((Machine.final Numbering.next ⟨streamId, 0⟩ es).next e).1.toList := by
  rw [sendings_append]
  cases h : ((Machine.final Numbering.next ⟨streamId, 0⟩ es).next e).1 with
  | none => simp [h]
  | some s => simp [h]

/-- The numbered messages are the messages of the app. -/
theorem map_message_sendings (streamId : String) (es : List Event) :
    (sendings streamId es).map Sending.message = messagesOf es := by
  induction es using List.reverseRecOn with
  | nil => rfl
  | append_singleton es e ih =>
    rw [sendings_concat, List.map_append, ih, messagesOf, messagesOf, List.filterMap_append]
    cases e <;> rfl

/-- The messages of one stream, and one more. -/
theorem onStream_concat (streamId : String) (sent : List Sending) (s : Sending) :
    onStream streamId (sent ++ [s]) =
      onStream streamId sent ++ if s.streamId = streamId then [s] else [] := by
  rw [onStream, List.filter_append, List.filter_singleton]
  simp [onStream]

/-- Messages with the numbers 1, 2, 3, ... on each stream. -/
structure Numbered (sent : List Sending) (a : Numbering) : Prop where
  /-- The numbers of each stream. -/
  consecutive : ∀ stream, (onStream stream sent).map Sending.seqId =
    List.range' 1 (onStream stream sent).length
  /-- The active stream carries as many messages as are counted. -/
  sent_eq : a.sent = (onStream a.streamId sent).length
  /-- No stream uses a number twice. -/
  nodup : (sent.map Sending.key).Nodup

/-- Nothing is sent yet. -/
theorem numbered_nil (streamId : String) : Numbered [] ⟨streamId, 0⟩ :=
  ⟨fun _ => rfl, rfl, List.nodup_nil⟩

namespace Numbered

variable {sent : List Sending} {a : Numbering}

/-- A number in use is at most the number of messages of its stream. -/
theorem seqId_le (h : Numbered sent a) {s : Sending} (hs : s ∈ sent) :
    s.seqId ≤ (onStream s.streamId sent).length := by
  have hmem : s.seqId ∈ (onStream s.streamId sent).map Sending.seqId :=
    List.mem_map_of_mem (List.mem_filter.mpr ⟨hs, by simp⟩)
  rw [h.consecutive, List.mem_range'_1] at hmem
  omega

/-- A stream without messages may be opened. -/
theorem openStream (h : Numbered sent a) {fresh : String}
    (hfresh : ∀ s ∈ sent, s.streamId ≠ fresh) : Numbered sent ⟨fresh, 0⟩ := by
  refine ⟨h.consecutive, ?_, h.nodup⟩
  have hnil : onStream fresh sent = [] :=
    List.filter_eq_nil_iff.mpr fun s hs => by simpa using hfresh s hs
  rw [hnil]
  rfl

/-- The next message of the active stream. -/
theorem send (h : Numbered sent a) (message : Value) :
    Numbered (sent ++ [⟨a.streamId, a.sent + 1, message⟩]) ⟨a.streamId, a.sent + 1⟩ := by
  refine ⟨fun stream => ?_, ?_, ?_⟩
  · rw [onStream_concat, List.map_append, h.consecutive]
    split_ifs with hstream
    · change a.streamId = stream at hstream
      rw [List.length_append, List.length_singleton, List.range'_concat, List.map_singleton,
        h.sent_eq, hstream, Nat.one_mul, Nat.add_comm 1]
    · rw [List.map_nil, List.append_nil, List.append_nil]
  · rw [onStream_concat, if_pos rfl, List.length_append, ← h.sent_eq, List.length_singleton]
  · rw [List.map_append, List.map_singleton, List.nodup_append]
    refine ⟨h.nodup, List.nodup_singleton _, ?_⟩
    intro k hk k' hk' heq
    obtain ⟨s, hs, rfl⟩ := List.mem_map.mp hk
    obtain rfl := List.mem_singleton.mp hk'
    obtain ⟨hstream, hseq⟩ := Prod.mk.inj heq
    have hle := h.seqId_le hs
    change s.streamId = a.streamId at hstream
    change s.seqId = a.sent + 1 at hseq
    rw [hstream, ← h.sent_eq, hseq] at hle
    omega

end Numbered

/-- Messages are sent on the streams of the run. -/
theorem streamId_mem_streamsOf (streamId : String) (es : List Event) :
    (∀ s ∈ sendings streamId es, s.streamId ∈ streamsOf streamId es) ∧
      (Machine.final Numbering.next ⟨streamId, 0⟩ es).streamId ∈ streamsOf streamId es := by
  refine Machine.history_induction Numbering.next
    (P := fun es a => (∀ s ∈ sendings streamId es, s.streamId ∈ streamsOf streamId es) ∧
      a.streamId ∈ streamsOf streamId es) ⟨fun s hs => (by cases hs), List.mem_cons_self⟩ es ?_
  intro pre e post _ h
  obtain ⟨hsent, hactive⟩ := h
  have hkeep : ∀ stream, stream ∈ streamsOf streamId pre →
      stream ∈ streamsOf streamId (pre ++ [e]) := by
    intro stream hmem
    rw [streamsOf_append]
    exact List.mem_append_left _ hmem
  cases e with
  | incoming envelope =>
    refine ⟨fun s hs => hkeep _ (hsent s ?_), hkeep _ hactive⟩
    rw [sendings_concat] at hs
    simpa [Numbering.next] using hs
  | outgoing fresh message =>
    have hstream : ((Machine.final Numbering.next ⟨streamId, 0⟩ pre).prepare fresh message).streamId
        ∈ streamsOf streamId (pre ++ [.outgoing fresh message]) := by
      unfold Numbering.prepare
      split_ifs with hmethod
      · rw [streamsOf_append]
        simp [Event.opened, hmethod]
      · exact hkeep _ hactive
    refine ⟨fun s hs => ?_, hstream⟩
    rw [sendings_concat, List.mem_append] at hs
    rcases hs with hs | hs
    · exact hkeep _ (hsent s hs)
    · obtain rfl := List.mem_singleton.mp hs
      exact hstream

/-- A fresh stream carries no message yet. -/
theorem streamId_ne_fresh {streamId fresh : String} {message : Value} {pre post : List Event}
    (hfresh : (streamsOf streamId (pre ++ .outgoing fresh message :: post)).Nodup)
    (hmethod : method message = some "initialize") :
    ∀ s ∈ sendings streamId pre, s.streamId ≠ fresh := by
  intro s hs
  have hmem := (streamId_mem_streamsOf streamId pre).1 s hs
  rw [streamsOf_append, List.nodup_append] at hfresh
  apply hfresh.2.2 _ hmem fresh
  simp [Event.opened, hmethod]

/-- An `initialize` is the first message of its stream. -/
theorem exists_sendings_eq (streamId : String) {fresh : String} {message : Value}
    (pre post : List Event) (hmethod : method message = some "initialize") :
    ∃ later, sendings streamId (pre ++ .outgoing fresh message :: post) =
      sendings streamId pre ++ ⟨fresh, 1, message⟩ :: later := by
  refine ⟨(Machine.outputs Numbering.next ⟨fresh, 1⟩ post).filterMap id, ?_⟩
  rw [sendings_append, Machine.outputs_cons, Numbering.next, Numbering.prepare, if_pos hmethod]
  rfl

/-- With fresh streams the messages of a run are numbered on each stream. -/
theorem numbered_sendings {streamId : String} {es : List Event}
    (hfresh : (streamsOf streamId es).Nodup) :
    Numbered (sendings streamId es) (Machine.final Numbering.next ⟨streamId, 0⟩ es) := by
  refine Machine.history_induction Numbering.next
    (P := fun es a => Numbered (sendings streamId es) a) (numbered_nil streamId) es ?_
  intro pre e post heq h
  obtain rfl := heq
  rw [sendings_concat]
  cases e with
  | incoming envelope =>
    simpa [Numbering.next] using h
  | outgoing fresh message =>
    refine Numbered.send ?_ message
    unfold Numbering.prepare
    split_ifs with hmethod
    · exact h.openStream (streamId_ne_fresh hfresh hmethod)
    · exact h

/-! ### Envelopes -/

/-- The envelopes that carry a message in chunks. -/
def chunkFrames (C : Codec) (clientId envId streamId : String) (seqId : UInt64) (messageSize : ℕ)
    (chunks : List Bytes) : List Value :=
  chunks.mapIdx fun segmentId chunk =>
    .object (segmentMembers "client_message_chunk" clientId envId streamId seqId messageSize
      chunks.length segmentId (C.encode chunk))

/-- The envelopes that may carry a message: a single one of at most `SEGMENT_TARGET_BYTES`, or one
of at most `MAX_FRAME_BYTES` for each of the nonempty chunks that make up its text. -/
inductive Framed (C : Codec) (clientId envId : String) (s : Sending) : List Value → Prop
  /-- The message as it is. -/
  | whole (hsize : (C.toVec (clientMessageEnvelope clientId envId s.streamId (.ofNat s.seqId)
      s.message)).length ≤ segmentTargetBytes) :
      Framed C clientId envId s
        [clientMessageEnvelope clientId envId s.streamId (.ofNat s.seqId) s.message]
  /-- The chunks of its text. -/
  | chunked (chunks : List Bytes) (hflatten : chunks.flatten = C.toVec s.message)
      (hne : ∀ c ∈ chunks, c ≠ []) (hlength : (C.toVec s.message).length ≤ maxMessageBytes)
      (hframe : ∀ frame ∈ chunkFrames C clientId envId s.streamId (.ofNat s.seqId)
        (C.toVec s.message).length chunks, (C.toVec frame).length ≤ maxFrameBytes) :
      Framed C clientId envId s (chunkFrames C clientId envId s.streamId (.ofNat s.seqId)
        (C.toVec s.message).length chunks)

/-- The envelopes of a split are those of its chunks. -/
theorem clientSegments_eq (C : Codec) (clientId envId streamId : String) (seqId : UInt64)
    (message : Value) (bytes : Bytes) (size : ℕ) :
    clientSegments C (clientMessageEnvelope clientId envId streamId seqId message) bytes size =
      chunkFrames C clientId envId streamId seqId bytes.length (Slots.chunksOf size bytes) := by
  simp only [clientSegments, chunkFrames, clientSegment_eq]

/-- What the splitter returns carries the message. -/
theorem framed_of_segmentClientMessage {C : Codec} (hne : ∀ v, C.toVec v ≠ [])
    {clientId envId : String} {s : Sending} {frames : List Value}
    (h : segmentClientMessage C
      (clientMessageEnvelope clientId envId s.streamId (.ofNat s.seqId) s.message) =
        some (.ok frames)) : Framed C clientId envId s frames := by
  by_cases hsize : (C.toVec (clientMessageEnvelope clientId envId s.streamId (.ofNat s.seqId)
      s.message)).length ≤ segmentTargetBytes
  · rw [segmentClientMessage, if_pos hsize] at h
    obtain rfl := Except.ok.inj (Option.some.inj h)
    exact .whole hsize
  · have hpos : 0 < (C.toVec s.message).length := List.length_pos_iff.mpr (hne s.message)
    obtain ⟨hlength, m, hfirst, rfl⟩ := (segmentClientMessage_eq_ok_iff (Nat.lt_of_not_le hsize)
      (kind_clientMessageEnvelope _ _ _ _ _) (message_clientMessageEnvelope _ _ _ _ _) hpos).mp h
    have hpiece := Slots.pieceSize_pos (C.toVec s.message).length m
    have hfits := hfirst.fits
    rw [SplitFits, clientSegments_eq] at hfits
    rw [clientSegments_eq]
    exact .chunked _ (Slots.flatten_chunksOf hpiece _)
      (fun c hc => Slots.ne_nil_of_mem_chunksOf hpiece hc) hlength hfits

/-! ### The reader -/

/-- The stream and the number of an envelope. -/
def frameKey (frame : Value) : Option (String × ℕ) := do
  let streamId ← (frame.get "stream_id").bind Value.asStr
  let seqId ← (frame.get "seq_id").bind Value.asU64
  return (streamId, seqId.toNat)

/-- The chunk with a given position among the envelopes of a message. -/
def chunkAt (C : Codec) (frames : List Value) (segmentId : ℕ) : Option Bytes := do
  let frame ← frames.find? fun frame =>
    ((frame.get "segment_id").bind Value.asU64).map UInt64.toNat = some segmentId
  let text ← (frame.get "message_chunk_base64").bind Value.asStr
  C.decode text

/-- The message of a group of envelopes. -/
def readMessage (C : Codec) (frames : List Value) : Option Value :=
  match frames.find? fun frame => kind frame = some "client_message" with
  | some frame => frame.get "message"
  | none => do
    let chunks ← (List.range frames.length).mapM (chunkAt C frames)
    C.fromSlice chunks.flatten

/-- The messages of a list of envelopes, in the order in which they begin. -/
def readWire (C : Codec) (frames : List Value) : Option (List Value) :=
  (Grouping.groupBy frameKey frames).mapM (readMessage C)

section Reader

variable {C : Codec} {clientId envId : String} {s : Sending} {frames : List Value}

/-- Each envelope of a message has the client, the host, the stream and the number. -/
theorem Framed.members (h : Framed C clientId envId s frames) {frame : Value}
    (hframe : frame ∈ frames) :
    frame.get "client_id" = some (.string clientId) ∧
    frame.get "env_id" = some (.string envId) ∧
    frame.get "stream_id" = some (.string s.streamId) ∧
    frame.get "seq_id" = some (.ofU64 (.ofNat s.seqId)) := by
  cases h with
  | whole hsize =>
    obtain rfl := List.mem_singleton.mp hframe
    simp [clientMessageEnvelope_eq, Map.get_cons]
  | chunked chunks =>
    obtain ⟨j, hj, rfl⟩ := List.mem_mapIdx.mp hframe
    simp [segmentMembers, Map.get_cons]

/-- There is at least one envelope. -/
theorem Framed.ne_nil (hne : ∀ v, C.toVec v ≠ []) (h : Framed C clientId envId s frames) :
    frames ≠ [] := by
  cases h with
  | whole => exact List.cons_ne_nil _ _
  | chunked chunks hflatten =>
    intro hnil
    have hchunks : chunks = [] := by simpa [chunkFrames] using hnil
    rw [hchunks] at hflatten
    exact hne s.message hflatten.symm

/-- The envelopes of a message are a block under its stream and number. -/
theorem Framed.isBlock (hne : ∀ v, C.toVec v ≠ []) (hseq : s.seqId < 2 ^ 64)
    (h : Framed C clientId envId s frames) :
    Grouping.IsBlock frameKey (some s.key) frames := by
  refine ⟨h.ne_nil hne, fun frame hframe => ?_⟩
  obtain ⟨-, -, hstream, hnumber⟩ := h.members hframe
  have hnat : (UInt64.ofNat s.seqId).toNat = s.seqId := UInt64.toNat_ofNat_of_lt' hseq
  simp [frameKey, hstream, hnumber, hnat, Sending.key]

/-- The reader finds the chunk at each position. -/
theorem chunkAt_chunkFrames (hdecode : ∀ bytes, C.decode (C.encode bytes) = some bytes)
    {streamId : String} {seqId : UInt64} {messageSize : ℕ} {chunks : List Bytes}
    (hlength : chunks.length < 2 ^ 64) (i : ℕ) (hi : i < chunks.length) :
    chunkAt C (chunkFrames C clientId envId streamId seqId messageSize chunks) i =
      some chunks[i] := by
  have hid : ∀ j (hj : j < (chunkFrames C clientId envId streamId seqId messageSize chunks).length),
      (((chunkFrames C clientId envId streamId seqId messageSize chunks)[j].get "segment_id").bind
        Value.asU64).map UInt64.toNat = some j := by
    intro j hj
    have hj' : j < chunks.length := by simpa [chunkFrames] using hj
    have hnat : (UInt64.ofNat j).toNat = j := UInt64.toNat_ofNat_of_lt' (hj'.trans hlength)
    simp [chunkFrames, segmentMembers, Map.get_cons, hnat]
  have hi' : i < (chunkFrames C clientId envId streamId seqId messageSize chunks).length := by
    simpa [chunkFrames] using hi
  have hfind : (chunkFrames C clientId envId streamId seqId messageSize chunks).find? (fun frame =>
      ((frame.get "segment_id").bind Value.asU64).map UInt64.toNat = some i) =
        some (chunkFrames C clientId envId streamId seqId messageSize chunks)[i] := by
    rw [List.find?_eq_some_iff_getElem]
    refine ⟨decide_eq_true (hid i hi'), i, hi', rfl, fun j hj => ?_⟩
    have hne : j ≠ i := Nat.ne_of_lt hj
    rw [hid j (hj.trans hi')]
    simpa using hne
  rw [chunkAt, hfind]
  simp [chunkFrames, segmentMembers, Map.get_cons, hdecode]

/-- The reader recovers the message from its envelopes. -/
theorem Framed.read (hdecode : ∀ bytes, C.decode (C.encode bytes) = some bytes)
    (hparse : C.fromSlice (C.toVec s.message) = some s.message)
    (h : Framed C clientId envId s frames) : readMessage C frames = some s.message := by
  cases h with
  | whole =>
    simp [readMessage, kind_clientMessageEnvelope, message_clientMessageEnvelope]
  | chunked chunks hflatten hne hlength =>
    have hnone : (chunkFrames C clientId envId s.streamId (.ofNat s.seqId)
        (C.toVec s.message).length chunks).find? (fun frame =>
          kind frame = some "client_message") = none := by
      refine List.find?_eq_none.mpr fun frame hframe => ?_
      obtain ⟨j, hj, rfl⟩ := List.mem_mapIdx.mp hframe
      simp [kind, segmentMembers, Map.get_cons]
    have hcount : chunks.length < 2 ^ 64 := by
      have hle := Slots.length_le_length_flatten hne
      rw [hflatten] at hle
      unfold maxMessageBytes at hlength
      omega
    rw [readMessage, hnone]
    have hlen : (chunkFrames C clientId envId s.streamId (.ofNat s.seqId)
        (C.toVec s.message).length chunks).length = chunks.length := by
      simp [chunkFrames]
    rw [hlen, Grouping.mapM_range_eq_some (chunkAt_chunkFrames hdecode hcount)]
    simpa [hflatten] using hparse

end Reader

/-! ### The transport and the numbering -/

/-- The envelopes that come of an event. -/
def Output.frames : Output → Option (List Value)
  | .emitted (some (.ok frames)) => some frames
  | _ => none

/-- Sending did not fail. -/
def Output.isSent : Output → Bool
  | .emitted (some (.ok _)) => true
  | .emitted _ => false
  | .received _ => true

/-- The envelopes of a run, message by message. -/
def emittedFrames (C : Codec) (t : RelayTransport) (es : List Event) : List (List Value) :=
  (Machine.outputs (step C) t es).filterMap Output.frames

/-- The envelopes of a run. -/
def wire (C : Codec) (t : RelayTransport) (es : List Event) : List Value :=
  (emittedFrames C t es).flatten

section Simulation

variable {C : Codec} {clientId environmentId : String}

/-- The transport is at the same stream and the same number, up to the largest `u64`. -/
structure Represents (clientId environmentId : String) (a : Numbering) (t : RelayTransport) :
    Prop where
  /-- The client. -/
  clientId_eq : t.clientId = clientId
  /-- The host. -/
  environmentId_eq : t.environmentId = environmentId
  /-- The stream. -/
  streamId_eq : t.streamId = a.streamId
  /-- The number. -/
  next_eq : t.nextClientSequence.toNat = min (a.sent + 1) (2 ^ 64 - 1)

/-- A message is sent in envelopes that carry it, as long as its number is a `u64`. -/
inductive Carries (C : Codec) (clientId environmentId : String) : Option Sending → Output → Prop
  | received (result : Except RelayError (Option Value)) :
      Carries C clientId environmentId none (.received result)
  | emitted (s : Sending) (result : Option (Except RelayError (List Value)))
      (hframed : ∀ frames, result = some (.ok frames) → s.seqId < 2 ^ 64 →
        Framed C clientId environmentId s frames) :
      Carries C clientId environmentId (some s) (.emitted result)

/-- A message is prepared on the stream it is numbered on. -/
theorem Represents.prepare {a : Numbering} {t : RelayTransport}
    (h : Represents clientId environmentId a t) (fresh : String) (message : Value) :
    Represents clientId environmentId (a.prepare fresh message) (t.prepare fresh message) := by
  obtain ⟨hclient, henv, hstream, hnext⟩ := h
  refine ⟨(prepare_clientId t fresh message).trans hclient,
    (prepare_environmentId t fresh message).trans henv, ?_, ?_⟩
  · rw [prepare_streamId, Numbering.prepare]
    split_ifs
    · rfl
    · exact hstream
  · rw [prepare_nextClientSequence, Numbering.prepare]
    split_ifs
    · rfl
    · exact hnext

/-- Every event keeps them in step. -/
theorem Represents.step {a : Numbering} {t : RelayTransport}
    (h : Represents clientId environmentId a t) (e : Event) :
    Represents clientId environmentId (a.next e).2 (RelayTransport.step C t e).2 := by
  cases e with
  | outgoing fresh message =>
    obtain ⟨hclient, henv, hstream, hnext⟩ := h.prepare fresh message
    refine ⟨hclient, henv, hstream, ?_⟩
    change (saturatingSucc (t.prepare fresh message).nextClientSequence).toNat = _
    rw [toNat_saturatingSucc_eq_min, hnext]
    simp only [Numbering.next]
    omega
  | incoming envelope =>
    obtain ⟨seen, pending, hframe⟩ := step_incoming_frame C t envelope
    rw [hframe]
    exact ⟨h.clientId_eq, h.environmentId_eq, h.streamId_eq, h.next_eq⟩

/-- Every event sends its message in envelopes that carry it. -/
theorem Represents.carries (hne : ∀ v, C.toVec v ≠ []) {a : Numbering} {t : RelayTransport}
    (h : Represents clientId environmentId a t) (e : Event) :
    Carries C clientId environmentId (a.next e).1 (RelayTransport.step C t e).1 := by
  cases e with
  | incoming envelope => exact .received _
  | outgoing fresh message =>
    refine .emitted _ _ fun frames hframes hseq => ?_
    obtain ⟨hclient, henv, hstream, hnext⟩ := h.prepare fresh message
    have hnumber : (t.prepare fresh message).nextClientSequence =
        .ofNat ((a.prepare fresh message).sent + 1) := by
      apply UInt64.toNat_inj.mp
      have hlt : (a.prepare fresh message).sent + 1 < 2 ^ 64 := hseq
      rw [hnext, UInt64.toNat_ofNat_of_lt' hlt]
      omega
    apply framed_of_segmentClientMessage hne
    rw [envelope, hclient, henv, hstream, hnumber] at hframes
    exact hframes

/-- A run that sends everything sends each message in envelopes that carry it. -/
theorem forall₂_framed {sent : List (Option Sending)} {outputs : List Output}
    (h : List.Forall₂ (Carries C clientId environmentId) sent outputs)
    (hsent : ∀ o ∈ outputs, o.isSent = true) (hseq : ∀ s ∈ sent.filterMap id, s.seqId < 2 ^ 64) :
    List.Forall₂ (Framed C clientId environmentId) (sent.filterMap id)
      (outputs.filterMap Output.frames) := by
  induction h with
  | nil => exact .nil
  | cons hcarries _ ih =>
    have ih := ih fun o ho => hsent o (List.mem_cons_of_mem _ ho)
    cases hcarries with
    | received result => exact ih hseq
    | emitted s result hframed =>
      have hresult := hsent _ List.mem_cons_self
      obtain ⟨frames, rfl⟩ : ∃ frames, result = some (.ok frames) := by
        rcases result with _ | _ | frames
        · contradiction
        · contradiction
        · exact ⟨frames, rfl⟩
      exact .cons (hframed frames rfl (hseq s (by simp)))
        (ih fun s' hs' => hseq s' (by simpa using Or.inr (by simpa using hs')))

end Simulation

/-! ### Losslessness -/

/-- The wire stream of a run of a client and a host that begins on a stream. -/
structure LosslessWire (C : Codec) (clientId environmentId streamId : String) (es : List Event) :
    Prop where
  /-- The reader recovers the messages in order. -/
  read_eq : readWire C (wire C (connect clientId environmentId streamId) es) =
    some (messagesOf es)
  /-- Every envelope has the client and the host. -/
  target : ∀ frame ∈ wire C (connect clientId environmentId streamId) es,
    frame.get "client_id" = some (.string clientId) ∧
      frame.get "env_id" = some (.string environmentId)
  /-- The envelopes of each message. -/
  framed : List.Forall₂ (Framed C clientId environmentId) (sendings streamId es)
    (emittedFrames C (connect clientId environmentId streamId) es)
  /-- The numbers of each stream are 1, 2, 3, ... -/
  numbered : ∀ stream, (onStream stream (sendings streamId es)).map Sending.seqId =
    List.range' 1 (onStream stream (sendings streamId es)).length
  /-- Each `initialize` is the first message of a stream that was not used before. -/
  restarts : ∀ pre fresh message post, es = pre ++ .outgoing fresh message :: post →
    method message = some "initialize" →
    (∃ later, sendings streamId es = sendings streamId pre ++ ⟨fresh, 1, message⟩ :: later) ∧
      ∀ s ∈ sendings streamId pre, s.streamId ≠ fresh
  /-- The closing envelope has the active stream and its next number, -/
  closing_eq : ∀ stream,
    (Machine.final (step C) (connect clientId environmentId streamId) es).streamId = stream →
    (onStream stream (sendings streamId es)).length < 2 ^ 64 - 1 →
    (Machine.final (step C) (connect clientId environmentId streamId) es).closing =
      clientClosed clientId environmentId stream
        (.ofNat ((onStream stream (sendings streamId es)).length + 1))
  /-- which no other envelope of the stream has. -/
  closing_unused : ∀ frame ∈ wire C (connect clientId environmentId streamId) es, ∀ stream,
    frameKey frame ≠ some (stream, (onStream stream (sendings streamId es)).length + 1)

/-- The reader recovers the messages of envelopes that carry them under different numbers. -/
theorem readWire_flatten {C : Codec} (hC : C.Lawful) {clientId environmentId : String}
    {sent : List Sending} {groups : List (List Value)}
    (hframed : List.Forall₂ (Framed C clientId environmentId) sent groups)
    (hparse : ∀ s ∈ sent, C.fromSlice (C.toVec s.message) = some s.message)
    (hseq : ∀ s ∈ sent, s.seqId < 2 ^ 64) (hnodup : (sent.map Sending.key).Nodup) :
    readWire C groups.flatten = some (sent.map Sending.message) := by
  have hblocks : List.Forall₂ (Grouping.IsBlock frameKey)
      (sent.map fun s => some s.key) groups := by
    rw [List.forall₂_map_left_iff]
    refine ((List.forall₂_and_left (p := fun s : Sending => s.seqId < 2 ^ 64) sent groups).mpr
      ⟨hseq, hframed⟩).imp fun s frames h => ?_
    exact h.2.isBlock hC.toVec_ne_nil h.1
  have hkeys : (sent.map fun s => some s.key).Nodup := by
    have hmap := hnodup.map (Option.some_injective (String × ℕ))
    rwa [List.map_map] at hmap
  rw [readWire, Grouping.groupBy_flatten hblocks hkeys, Grouping.mapM_eq_some_iff, List.map_map]
  have hread : List.Forall₂ (fun s frames => some s.message = readMessage C frames) sent groups :=
    ((List.forall₂_and_left (p := fun s : Sending =>
      C.fromSlice (C.toVec s.message) = some s.message) sent groups).mpr
        ⟨hparse, hframed⟩).imp fun s frames h => (h.2.read hC.decode_encode h.1).symm
  have heq : List.Forall₂ Eq (sent.map fun s => some s.message) (groups.map (readMessage C)) := by
    rw [List.forall₂_map_left_iff, List.forall₂_map_right_iff]
    exact hread
  rw [List.forall₂_eq_eq_eq] at heq
  exact heq.symm

/-- Every envelope carries one of the messages. -/
theorem exists_framed_of_mem_flatten {C : Codec} {clientId environmentId : String}
    {sent : List Sending} {groups : List (List Value)}
    (hframed : List.Forall₂ (Framed C clientId environmentId) sent groups) {frame : Value}
    (hframe : frame ∈ groups.flatten) :
    ∃ s ∈ sent, ∃ frames, Framed C clientId environmentId s frames ∧ frame ∈ frames := by
  obtain ⟨frames, hframes, hframe⟩ := List.mem_flatten.mp hframe
  obtain ⟨j, hj, rfl⟩ := List.getElem_of_mem hframes
  have hj' : j < sent.length := hframed.length_eq ▸ hj
  exact ⟨_, List.getElem_mem hj', _, hframed.get hj' hj, hframe⟩

/-- The closing envelope of a transport that is in step. -/
theorem Represents.closing_eq {clientId environmentId : String} {a : Numbering} {t : RelayTransport}
    (h : Represents clientId environmentId a t) (hlt : a.sent < 2 ^ 64 - 1) :
    t.closing = clientClosed clientId environmentId a.streamId (.ofNat (a.sent + 1)) := by
  have hnumber : t.nextClientSequence = .ofNat (a.sent + 1) := by
    have hlt' : a.sent + 1 < 2 ^ 64 := by omega
    apply UInt64.toNat_inj.mp
    rw [h.next_eq, UInt64.toNat_ofNat_of_lt' hlt']
    omega
  rw [closing, h.clientId_eq, h.environmentId_eq, h.streamId_eq, hnumber]

/-- A run that sends everything, on fresh streams with fewer than `2 ^ 64` messages each, has a
lossless wire stream. -/
theorem wire_lossless {C : Codec} (hC : C.Lawful) {clientId environmentId streamId : String}
    {es : List Event}
    (hsent : ∀ o ∈ Machine.outputs (step C) (connect clientId environmentId streamId) es,
      o.isSent = true)
    (hparse : ∀ message ∈ messagesOf es, C.fromSlice (C.toVec message) = some message)
    (hfresh : (streamsOf streamId es).Nodup)
    (hcount : ∀ stream, (onStream stream (sendings streamId es)).length < 2 ^ 64) :
    LosslessWire C clientId environmentId streamId es := by
  have hnumbered := numbered_sendings hfresh
  have hseq : ∀ s ∈ sendings streamId es, s.seqId < 2 ^ 64 :=
    fun s hs => lt_of_le_of_lt (hnumbered.seqId_le hs) (hcount _)
  have hinit : Represents clientId environmentId ⟨streamId, 0⟩
      (connect clientId environmentId streamId) := ⟨rfl, rfl, rfl, rfl⟩
  have hfinal : Represents clientId environmentId (Machine.final Numbering.next ⟨streamId, 0⟩ es)
      (Machine.final (step C) (connect clientId environmentId streamId) es) :=
    Machine.final_related (fun _ _ e h => h.step e) hinit es
  have hframed : List.Forall₂ (Framed C clientId environmentId) (sendings streamId es)
      (emittedFrames C (connect clientId environmentId streamId) es) :=
    forall₂_framed (Machine.outputs_related (fun _ _ e h => h.step e)
      (fun _ _ e h => h.carries hC.toVec_ne_nil e) hinit es) hsent hseq
  refine ⟨?_, ?_, hframed, hnumbered.consecutive, ?_, ?_, ?_⟩
  · rw [wire, readWire_flatten hC hframed (fun s hs => hparse _ ?_) hseq hnumbered.nodup,
      map_message_sendings]
    rw [← map_message_sendings streamId es]
    exact List.mem_map_of_mem hs
  · intro frame hframe
    obtain ⟨s, -, frames, hs, hframe⟩ := exists_framed_of_mem_flatten hframed hframe
    obtain ⟨hclient, henv, -⟩ := hs.members hframe
    exact ⟨hclient, henv⟩
  · intro pre fresh message post heq hmethod
    obtain rfl := heq
    exact ⟨exists_sendings_eq streamId pre post hmethod, streamId_ne_fresh hfresh hmethod⟩
  · intro stream heq hlt
    obtain rfl := heq
    rw [hfinal.streamId_eq, ← hnumbered.sent_eq] at hlt ⊢
    exact hfinal.closing_eq hlt
  · intro frame hframe stream hkey
    obtain ⟨s, hs, frames, hframes, hframe⟩ := exists_framed_of_mem_flatten hframed hframe
    rw [(hframes.isBlock hC.toVec_ne_nil (hseq s hs)).2 frame hframe] at hkey
    obtain ⟨rfl, hnumber⟩ := Prod.mk.inj (Option.some.inj hkey)
    have hle := hnumbered.seqId_le hs
    omega

/-- A message of the first stream, an `initialize`, and an answer. -/
def twoStreams : List Event :=
  [.outgoing "" (.object []), .outgoing "new" (.ofMembers [("method", .string "initialize")]),
    .incoming (wholeObject "env" "new" 1)]

/-- A message that is sent in two chunks. -/
def longMessage : Value := .object (letters 120000)

/-- A codec whose parser knows the messages. -/
def twoStreamsCodec : Codec :=
  plainCodec [longMessage, .object [], .ofMembers [("method", .string "initialize")]]

/-- The long message is sent. -/
theorem segmentClientMessage_longMessage :
    ∃ segments, segmentClientMessage twoStreamsCodec
      (clientMessageEnvelope "client" "env" "new" 2 longMessage) = some (.ok segments) := by
  have hC : twoStreamsCodec.Lawful := lawful_plainCodec _
  have hlength : (twoStreamsCodec.toVec longMessage).length = 120008 := length_toVec_letters 120000
  have hlarge : ¬(twoStreamsCodec.toVec
      (clientMessageEnvelope "client" "env" "new" 2 longMessage)).length ≤ segmentTargetBytes := by
    have henvelope := length_toVec_clientMessageEnvelope hC "client" "env" "new" 2 longMessage
    have hnull : (twoStreamsCodec.toVec .null).length = 4 := rfl
    rw [segmentTargetBytes]
    omega
  have hfirst : firstCount 120008 = 2 := by decide +kernel
  have hfits : SplitFits twoStreamsCodec (clientMessageEnvelope "client" "env" "new" 2 longMessage)
      (twoStreamsCodec.toVec longMessage) 2 := by
    refine splitFits_of_le hC rfl ?_
    rw [hlength]
    decide +kernel
  unfold segmentClientMessage
  rw [if_neg hlarge, if_neg (not_not.mpr (kind_clientMessageEnvelope _ _ _ _ _)),
    message_clientMessageEnvelope]
  simp only [hlength, hfirst]
  rw [if_neg (by decide), segmentLoop_succ (by rw [hlength]; decide),
    if_pos (all_withinFrame_iff.mpr hfits)]
  exact ⟨_, rfl⟩

/-- The wire stream of the two streams, with the long message at the end, is lossless. -/
theorem wire_lossless_twoStreams :
    LosslessWire twoStreamsCodec "client" "env" "old"
      (twoStreams ++ [.outgoing "" longMessage]) := by
  refine wire_lossless (C := twoStreamsCodec) (lawful_plainCodec _) ?_ ?_ (by decide +kernel)
    fun stream => lt_of_le_of_lt (List.length_filter_le _ _) (by decide +kernel)
  · obtain ⟨segments, hsegments⟩ := segmentClientMessage_longMessage
    have hprepare : let t := (Machine.final (step twoStreamsCodec) (connect "client" "env" "old")
        twoStreams).prepare "" longMessage
        t.clientId = "client" ∧ t.environmentId = "env" ∧ t.streamId = "new" ∧
          t.nextClientSequence = 2 := by
      decide +kernel
    obtain ⟨hclient, henv, hstream, hnext⟩ := hprepare
    have hshort : ∀ o ∈ Machine.outputs (step twoStreamsCodec) (connect "client" "env" "old")
        twoStreams, o.isSent = true := by
      decide +kernel
    intro o ho
    rw [Machine.outputs_append] at ho
    rcases List.mem_append.mp ho with ho | ho
    · exact hshort o ho
    · obtain rfl := List.mem_singleton.mp ho
      rw [step, outgoingAppSegments, envelope, hclient, henv, hstream, hnext, hsegments]
      rfl
  · intro message hmessage
    have hmessages : messagesOf (twoStreams ++ [.outgoing "" longMessage]) =
        [.object [], .ofMembers [("method", .string "initialize")], longMessage] := rfl
    rw [hmessages] at hmessage
    simp only [List.mem_cons, List.not_mem_nil, or_false] at hmessage
    rcases hmessage with rfl | rfl | rfl
    · decide +kernel
    · decide +kernel
    · simp [twoStreamsCodec, plainCodec, compactCodec]

end RelayTransport

end Rcodex
