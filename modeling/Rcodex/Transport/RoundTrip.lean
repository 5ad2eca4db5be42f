import Rcodex.Transport.Segment
import Rcodex.Transport.Completeness

/-!
# The splitter and the reassembler

The chunks of a client message, with their type changed to the one of server chunks, are fed in
order to an empty reassembler.  Both sides meet at `CutMessage`: a split into at least two and at
most `MAX_SEGMENTS` chunks is a cut message, and `Completeness.lean` says what becomes of it.

The splitter also makes splits the reassembler refuses.  It splits when the envelope is larger than
`SEGMENT_TARGET_BYTES` but counts the chunks by the length of the message, so that a message just
below the target is sent as a single chunk (`SendsOneChunk`); and it asks for more chunks until
they fit, without regard to `MAX_SEGMENTS` (`SendsTooManyChunks`).  `roundTrips_iff` shows that
these are the only messages that do not come back.
-/

namespace Rcodex

open Json ServerMessageReassembler

/-! ### The envelopes of the chunks -/

/-- The members of the envelope of a chunk. -/
def segmentMembers (type clientId envId streamId : String) (seqId : UInt64)
    (messageSize segmentCount segmentId : ℕ) (text : String) : Map :=
  [("client_id", .string clientId), ("env_id", .string envId),
    ("message_chunk_base64", .string text), ("message_size_bytes", .ofU64 (.ofNat messageSize)),
    ("segment_count", .ofU64 (.ofNat segmentCount)), ("segment_id", .ofU64 (.ofNat segmentId)),
    ("seq_id", .ofU64 seqId), ("skip_history", .bool false), ("stream_id", .string streamId),
    ("type", .string type)]

/-- The `server_message` envelope around a message. -/
def serverMessage (clientId envId streamId : String) (seqId : UInt64) (message : Value) : Value :=
  .ofMembers [("type", .string "server_message"), ("client_id", .string clientId),
    ("seq_id", .ofU64 seqId), ("stream_id", .string streamId), ("env_id", .string envId),
    ("skip_history", .bool false), ("message", message)]

/-- Change a client chunk into a server chunk. -/
def retype (segment : Value) : Value :=
  .object (Map.insert (segment.asObject.getD []) "type" (.string "server_message_chunk"))

section Members

variable (C : Codec) (clientId envId streamId : String) (seqId : UInt64) (message : Value)
  (messageSize segmentCount segmentId : ℕ) (chunk : Bytes)

/-- The envelope of a chunk, member by member. -/
theorem clientSegment_eq :
    clientSegment C (clientMessageEnvelope clientId envId streamId seqId message) messageSize
      segmentCount segmentId chunk =
    .object (segmentMembers "client_message_chunk" clientId envId streamId seqId messageSize
      segmentCount segmentId (C.encode chunk)) := by
  rw [clientSegment, clientMessageEnvelope_eq]
  simp only [Value.asObject_object, Option.getD_some, Map.insert, Map.remove, segmentMembers,
    String.reduceEq, String.reduceLT, ↓reduceIte, ne_eq, not_true_eq_false, not_false_eq_true,
    decide_true, decide_false, List.filter_cons, List.filter_nil, Bool.false_eq_true]

/-- The envelope of a chunk as one of a server chunk. -/
theorem retype_clientSegment :
    retype (clientSegment C (clientMessageEnvelope clientId envId streamId seqId message)
      messageSize segmentCount segmentId chunk) =
    .object (segmentMembers "server_message_chunk" clientId envId streamId seqId messageSize
      segmentCount segmentId (C.encode chunk)) := by
  rw [clientSegment_eq]
  simp only [retype, Value.asObject_object, Option.getD_some, segmentMembers, Map.insert,
    String.reduceEq, String.reduceLT, ↓reduceIte]

/-- The type of the envelope of a client message. -/
theorem kind_clientMessageEnvelope :
    kind (clientMessageEnvelope clientId envId streamId seqId message) =
      some "client_message" := by
  simp [kind, clientMessageEnvelope_eq, Map.get_cons]

/-- The message of the envelope of a client message. -/
theorem message_clientMessageEnvelope :
    (clientMessageEnvelope clientId envId streamId seqId message).get "message" = some message := by
  simp [clientMessageEnvelope_eq, Map.get_cons]

/-- The envelope the reassembler returns for the chunks of a client message. -/
theorem completeEnvelope_segmentMembers (text : String) :
    completeEnvelope (segmentMembers "server_message_chunk" clientId envId streamId seqId
      messageSize segmentCount segmentId text) message =
    serverMessage clientId envId streamId seqId message := by
  simp only [completeEnvelope, completeFields, copyMember, segmentMembers, serverMessage,
    Value.ofMembers, Map.insert, Map.get_cons, Map.get_nil, List.foldl_cons, List.foldl_nil,
    String.reduceEq, String.reduceLT, ↓reduceIte]

variable {C}

/-- The two types of chunks are equally long. -/
theorem length_toVec_segmentMembers (hC : C.Lawful) (text : String) :
    (C.toVec (.object (segmentMembers "server_message_chunk" clientId envId streamId seqId
      messageSize segmentCount segmentId text))).length =
    (C.toVec (.object (segmentMembers "client_message_chunk" clientId envId streamId seqId
      messageSize segmentCount segmentId text))).length := by
  have hlength : "server_message_chunk".length = "client_message_chunk".length := by
    decide +kernel
  have htype : (C.toVec (.string "server_message_chunk")).length =
      (C.toVec (.string "client_message_chunk")).length := by
    rw [hC.length_toVec_string _ (Codec.isPlain_of_all (by decide +kernel)),
      hC.length_toVec_string _ (Codec.isPlain_of_all (by decide +kernel)), hlength]
  rw [hC.length_toVec_object (by simp [segmentMembers]),
    hC.length_toVec_object (by simp [segmentMembers])]
  simp only [segmentMembers, List.map_cons, htype]

end Members

/-! ### Chunks in order -/

section InOrder

variable {C : Codec} {clientId envId streamId : String}
  (hdecode : ∀ bytes, C.decode (C.encode bytes) = some bytes)
  (m : CutMessage C clientId envId streamId) (hsize : m.size ≤ maxMessageBytes)

/-- The first chunks of a message, in order. -/
def CutMessage.firstChunks (n : ℕ) : List (CutMessage C clientId envId streamId × ℕ) :=
  (List.range n).map fun j => (m, j)

/-- One chunk more. -/
theorem CutMessage.firstChunks_succ (n : ℕ) :
    m.firstChunks (n + 1) = m.firstChunks n ++ [(m, n)] := by
  simp [CutMessage.firstChunks, List.range_succ]

/-- One envelope more. -/
theorem CutMessage.envelopesOf_firstChunks_succ (n : ℕ) :
    envelopesOf (m.firstChunks (n + 1)) = envelopesOf (m.firstChunks n) ++ [m.envelope n] := by
  rw [m.firstChunks_succ]
  simp [envelopesOf]

/-- The chunks among the first ones. -/
theorem CutMessage.mem_firstChunks {n i : ℕ} : (m, i) ∈ m.firstChunks n ↔ i < n := by
  simp [CutMessage.firstChunks]

include hdecode hsize

/-- The next chunk in order. -/
theorem answers_next {n : ℕ} (hn : n < m.chunks.length) {r : ServerMessageReassembler}
    (h : Tracks [m] (m.firstChunks n) r) :
    Tracks [m] (m.firstChunks (n + 1)) (r.observe C (m.envelope n)).2 ∧
      m.Answers (m.firstChunks (n + 1)) (r.observe C (m.envelope n)).1 := by
  have hfamily : Family [m] := by
    refine ⟨?_, ?_, ?_⟩
    · rw [List.length_singleton]
      decide
    · simp
    · rw [List.map_singleton, List.sum_singleton]
      exact hsize
  have hmissing : ∃ i < m.chunks.length, (m, i) ∉ m.firstChunks n :=
    ⟨n, hn, fun hmem => lt_irrefl n (m.mem_firstChunks.mp hmem)⟩
  rw [m.firstChunks_succ]
  exact h.arrival hdecode hfamily (List.mem_singleton_self m) hmissing hn
    (observe_outcome h.invariant _)

/-- Before the last chunk nothing is returned. -/
theorem outputs_firstChunks {n : ℕ} (hn : n < m.chunks.length) :
    Tracks [m] (m.firstChunks n)
        (Machine.final (observe C) .empty (envelopesOf (m.firstChunks n))) ∧
      Machine.outputs (observe C) .empty (envelopesOf (m.firstChunks n)) =
        List.replicate n (.ok none) := by
  induction n with
  | zero => exact ⟨tracks_nil [m], rfl⟩
  | succ n ih =>
    obtain ⟨htracks, houtputs⟩ := ih (Nat.lt_of_succ_lt hn)
    obtain ⟨hnext, hanswers⟩ := answers_next hdecode m hsize (Nat.lt_of_succ_lt hn) htracks
    have hresult : ((Machine.final (observe C) .empty
        (envelopesOf (m.firstChunks n))).observe C (m.envelope n)).1 = .ok none := by
      rcases hanswers with ⟨hall, -⟩ | ⟨-, hnone⟩
      · exact absurd (m.mem_firstChunks.mp (hall (n + 1) hn)) (lt_irrefl _)
      · exact hnone
    rw [m.envelopesOf_firstChunks_succ]
    refine ⟨?_, ?_⟩
    · rw [Machine.final_concat]
      exact hnext
    · rw [Machine.outputs_append, houtputs, Machine.outputs_cons, hresult,
        Machine.outputs_nil, List.replicate_succ']

/-- The chunks of a message in order: it is returned with the last one. -/
theorem outputs_inOrder :
    Machine.outputs (observe C) .empty (envelopesOf (m.firstChunks m.chunks.length)) =
      List.replicate (m.chunks.length - 1) (.ok none) ++ [.ok (some m.complete)] := by
  obtain ⟨n, hn⟩ : ∃ n, m.chunks.length = n + 1 := by
    have htwo := m.two_le_count
    exact ⟨m.chunks.length - 1, by omega⟩
  have hlt : n < m.chunks.length := by omega
  obtain ⟨htracks, houtputs⟩ := outputs_firstChunks hdecode m hsize hlt
  obtain ⟨-, hanswers⟩ := answers_next hdecode m hsize hlt htracks
  have hresult : ((Machine.final (observe C) .empty
      (envelopesOf (m.firstChunks n))).observe C (m.envelope n)).1 = .ok (some m.complete) := by
    rcases hanswers with ⟨-, hsome⟩ | ⟨⟨i, hi, hnot⟩, -⟩
    · exact hsome
    · exact absurd (m.mem_firstChunks.mpr (by omega)) hnot
  rw [hn, m.envelopesOf_firstChunks_succ, Machine.outputs_append, houtputs, Machine.outputs_cons,
    hresult, Machine.outputs_nil, Nat.add_sub_cancel]

end InOrder

/-! ### The round trip -/

section Split

variable {C : Codec} {clientId envId streamId : String} {seqId : UInt64} {body : Map}

/-- A split of a client message into at least two and at most `MAX_SEGMENTS` chunks is a cut
message. -/
def CutMessage.ofSplit (hC : C.Lawful)
    (hparse : C.fromSlice (C.toVec (.object body)) = some (.object body)) {count : ℕ}
    (htwo : 2 ≤ count) (hle : count ≤ maxSegments)
    (hpieces : Slots.pieces (C.toVec (.object body)).length count = count)
    (hfits : SplitFits C (clientMessageEnvelope clientId envId streamId seqId (.object body))
      (C.toVec (.object body)) count) : CutMessage C clientId envId streamId :=
  let bytes := C.toVec (.object body)
  let size := Slots.pieceSize bytes.length count
  have hsize : 0 < size := Slots.pieceSize_pos _ _
  have hlength : (Slots.chunksOf size bytes).length = count := by
    rw [Slots.length_chunksOf]
    exact hpieces
  have hflatten : (Slots.chunksOf size bytes).flatten = bytes := Slots.flatten_chunksOf hsize bytes
  { seqId
    chunks := Slots.chunksOf size bytes
    body
    shared := segmentMembers "server_message_chunk" clientId envId streamId seqId bytes.length
      count 0 ""
    frame := fun j => segmentMembers "server_message_chunk" clientId envId streamId seqId
      bytes.length count j (C.encode ((Slots.chunksOf size bytes).getD j []))
    two_le_count := by rwa [hlength]
    count_le := by rwa [hlength]
    chunk_ne_nil := fun c hc => Slots.ne_nil_of_mem_chunksOf hsize hc
    parse := by rwa [hflatten]
    type_eq := by simp [segmentMembers, Map.get_cons]
    client_id_eq := by simp [segmentMembers, Map.get_cons]
    identifies := ⟨by simp [segmentMembers, Map.get_cons], by simp [segmentMembers, Map.get_cons],
      by simp [segmentMembers, Map.get_cons]⟩
    segment_count_eq := by simp [segmentMembers, Map.get_cons, hlength]
    message_size_eq := by simp [segmentMembers, Map.get_cons, hflatten]
    frame_eq := fun j field hid hchunk => by simp [segmentMembers, Map.get_cons, hid, hchunk]
    segment_id_eq := fun j _ => by simp [segmentMembers, Map.get_cons]
    chunk_eq := fun j c hc => by simp [segmentMembers, Map.get_cons, hc]
    frame_le := fun j hj => by
      rw [length_toVec_segmentMembers _ _ _ _ _ _ _ hC, ← clientSegment_eq _ _ _ _ _ (.object body)]
      refine hfits _ (List.mem_mapIdx.mpr ⟨j, hj, ?_⟩)
      rw [hlength, List.getD_eq_getElem?_getD, List.getElem?_eq_getElem hj, Option.getD_some] }

/-- The envelopes of the cut message are those of the split, with their type changed. -/
theorem CutMessage.envelopesOf_ofSplit (hC : C.Lawful)
    (hparse : C.fromSlice (C.toVec (.object body)) = some (.object body)) {count : ℕ}
    (htwo : 2 ≤ count) (hle : count ≤ maxSegments)
    (hpieces : Slots.pieces (C.toVec (.object body)).length count = count)
    (hfits : SplitFits C (clientMessageEnvelope clientId envId streamId seqId (.object body))
      (C.toVec (.object body)) count) :
    let m := CutMessage.ofSplit hC hparse htwo hle hpieces hfits
    envelopesOf (m.firstChunks m.chunks.length) =
      (clientSegments C (clientMessageEnvelope clientId envId streamId seqId (.object body))
        (C.toVec (.object body)) (Slots.pieceSize (C.toVec (.object body)).length count)).map
          retype := by
  intro m
  have hlength : (Slots.chunksOf (Slots.pieceSize (C.toVec (.object body)).length count)
      (C.toVec (.object body))).length = count := by
    rw [Slots.length_chunksOf]
    exact hpieces
  refine List.ext_getElem ?_ fun j hj hj' => ?_
  · simp [envelopesOf, CutMessage.firstChunks, clientSegments, m, CutMessage.ofSplit]
  · have hchunk : j < (Slots.chunksOf (Slots.pieceSize (C.toVec (.object body)).length count)
        (C.toVec (.object body))).length := by
      simpa [clientSegments] using hj'
    simp only [envelopesOf, CutMessage.firstChunks, List.getElem_map, List.getElem_range,
      clientSegments, List.getElem_mapIdx, retype_clientSegment]
    simp [m, CutMessage.envelope, CutMessage.ofSplit, hlength, List.getElem?_eq_getElem hchunk]

/-- The message comes back: if the splitter returns chunks, the reassembler takes them in order
without an error, returns nothing before the last one, and then the message in a `server_message`
with the members of the envelope. -/
def RoundTrips (C : Codec) (clientId envId streamId : String) (seqId : UInt64) (body : Map) :
    Prop :=
  ∀ segments,
    segmentClientMessage C (clientMessageEnvelope clientId envId streamId seqId (.object body)) =
      some (.ok segments) →
    (∀ segment ∈ segments, kind segment = some "client_message_chunk") →
    Machine.outputs (observe C) .empty (segments.map retype) =
      List.replicate (segments.length - 1) (.ok none) ++
        [.ok (some (serverMessage clientId envId streamId seqId (.object body)))]

/-- The envelope is larger than `SEGMENT_TARGET_BYTES`, the message is not, and it fits a single
frame as a chunk. -/
def SendsOneChunk (C : Codec) (clientId envId streamId : String) (seqId : UInt64) (body : Map) :
    Prop :=
  let envelope := clientMessageEnvelope clientId envId streamId seqId (.object body)
  let messageBytes := C.toVec (.object body)
  segmentTargetBytes < (C.toVec envelope).length ∧ messageBytes.length ≤ segmentTargetBytes ∧
    SplitFits C envelope messageBytes 1

/-- The message does not fit the frames in `MAX_SEGMENTS` chunks or fewer, and it does in some
larger number of chunks that the loop reaches. -/
def SendsTooManyChunks (C : Codec) (clientId envId streamId : String) (seqId : UInt64)
    (body : Map) : Prop :=
  let envelope := clientMessageEnvelope clientId envId streamId seqId (.object body)
  let messageBytes := C.toVec (.object body)
  let first := firstCount messageBytes.length
  segmentTargetBytes < (C.toVec envelope).length ∧ messageBytes.length ≤ maxMessageBytes ∧
    (∀ n, first ≤ n → n ≤ maxSegments → ¬ SplitFits C envelope messageBytes n) ∧
    ∃ n, maxSegments < n ∧ SplitFits C envelope messageBytes n ∧
      ∀ j, first ≤ j → j ≤ n → Slots.pieces messageBytes.length j = j

/-- The envelope of a chunk of a client message has the type of one. -/
theorem kind_of_mem_clientSegments {message : Value} {bytes : Bytes} {size : ℕ} {segment : Value}
    (h : segment ∈ clientSegments C (clientMessageEnvelope clientId envId streamId seqId message)
      bytes size) : kind segment = some "client_message_chunk" := by
  obtain ⟨j, hj, rfl⟩ := List.mem_mapIdx.mp h
  rw [clientSegment_eq]
  simp [kind, segmentMembers, Map.get_cons]

/-- The reassembler refuses a chunk of a message with fewer than two or more than `MAX_SEGMENTS`
chunks. -/
theorem observe_eq_error_of_count {r : ServerMessageReassembler} (hr : r.Invariant)
    {messageSize count segmentId : ℕ} {text : String} (hsmall : count < 2 ^ 64)
    (hcount : count ≤ 1 ∨ maxSegments < count) :
    ∃ error, (r.observe C (.object (segmentMembers "server_message_chunk" clientId envId streamId
      seqId messageSize count segmentId text))).1 = .error error := by
  have hkind : kind (.object (segmentMembers "server_message_chunk" clientId envId streamId
      seqId messageSize count segmentId text)) = some "server_message_chunk" := by
    simp [kind, segmentMembers, Map.get_cons]
  have houtcome := observe_outcome (C := C) hr (.object (segmentMembers "server_message_chunk"
    clientId envId streamId seqId messageSize count segmentId text))
  revert houtcome
  generalize r.observe C _ = res
  intro houtcome
  cases houtcome with
  | passed hne => exact absurd hkind hne
  | malformed _ error => exact ⟨error, rfl⟩
  | segment _ s hread =>
    obtain ⟨k, hk, hks⟩ := hread.segment_count
    rw [← hread.get_eq] at hk
    have hcount' : (Value.ofU64 (.ofNat count)) = .ofU64 k := by
      simpa [segmentMembers, Map.get_cons] using hk
    have hk' : UInt64.ofNat count = k := by simpa [Value.ofU64] using hcount'
    have hnat : count = s.segmentCount := by
      rw [← hks, ← hk', UInt64.toNat_ofNat_of_lt' hsmall]
    have htwo := s.two_le_count
    have hle := s.count_le
    omega

/-- The text of an object is not empty. -/
theorem length_toVec_pos (hC : C.Lawful) (v : Value) : 0 < (C.toVec v).length :=
  List.length_pos_iff.mpr (hC.toVec_ne_nil v)

/-- The loop starts with at least one chunk. -/
theorem firstCount_pos (length : ℕ) : 0 < firstCount length :=
  Nat.lt_of_lt_of_le one_pos (le_max_left _ _)

/-- The loop starts with at most `n` chunks when `n` chunks of the target size suffice. -/
theorem firstCount_le_iff {length n : ℕ} (hn : 0 < n) :
    firstCount length ≤ n ↔ length ≤ segmentTargetBytes * n := by
  rw [firstCount, max_le_iff, and_iff_right (show 1 ≤ n from hn), ceilDiv_le_iff_le_mul (by decide)]

/-- A message split into one chunk or more than `MAX_SEGMENTS` does not come back. -/
theorem not_roundTrips_of_firstFit (hC : C.Lawful)
    (hlarge : segmentTargetBytes <
      (C.toVec (clientMessageEnvelope clientId envId streamId seqId (.object body))).length)
    (hle : (C.toVec (.object body)).length ≤ maxMessageBytes) {n : ℕ}
    (hfirst : FirstFit C (clientMessageEnvelope clientId envId streamId seqId (.object body))
      (C.toVec (.object body)) (firstCount (C.toVec (.object body)).length) n)
    (hcount : n ≤ 1 ∨ maxSegments < n) : ¬ RoundTrips C clientId envId streamId seqId body := by
  intro h
  have hpos := length_toVec_pos hC (.object body)
  have hpieces := hfirst.attained n hfirst.le le_rfl
  have hn : 0 < n := Nat.lt_of_lt_of_le (firstCount_pos _) hfirst.le
  have hsmall : n < 2 ^ 64 := by
    have hle' := Slots.pieces_le_length (C.toVec (.object body)).length n
    unfold maxMessageBytes at hle
    omega
  have hsegments := (segmentClientMessage_eq_ok_iff hlarge
    (kind_clientMessageEnvelope clientId envId streamId seqId _)
    (message_clientMessageEnvelope clientId envId streamId seqId _) hpos).mpr
      ⟨hle, n, hfirst, rfl⟩
  have houtputs := h _ hsegments fun segment => kind_of_mem_clientSegments
  -- the first chunk is refused
  have hchunks : (Slots.chunksOf (Slots.pieceSize (C.toVec (.object body)).length n)
      (C.toVec (.object body))).length = n := by
    rw [Slots.length_chunksOf]
    exact hpieces
  obtain ⟨chunk, chunks, hcons⟩ := List.exists_cons_of_ne_nil (List.ne_nil_of_length_pos
    (hchunks ▸ hn))
  have hhead : ∃ rest, (clientSegments C
      (clientMessageEnvelope clientId envId streamId seqId (.object body))
      (C.toVec (.object body)) (Slots.pieceSize (C.toVec (.object body)).length n)).map retype =
      .object (segmentMembers "server_message_chunk" clientId envId streamId seqId
        (C.toVec (.object body)).length n 0 (C.encode chunk)) :: rest := by
    simp only [clientSegments, hchunks]
    rw [hcons, List.mapIdx_cons, List.map_cons, retype_clientSegment]
    exact ⟨_, rfl⟩
  obtain ⟨rest, hrest⟩ := hhead
  have hrefused : ∃ error, (observe C .empty (.object (segmentMembers "server_message_chunk"
      clientId envId streamId seqId (C.toVec (.object body)).length n 0 (C.encode chunk)))).1 =
        .error error :=
    observe_eq_error_of_count invariant_empty hsmall hcount
  obtain ⟨error, herror⟩ := hrefused
  rw [hrest, Machine.outputs_cons, herror] at houtputs
  have hmem : Except.error error ∈ List.replicate _ (Except.ok none) ++ [Except.ok (some
      (serverMessage clientId envId streamId seqId (.object body)))] :=
    houtputs ▸ List.mem_cons_self
  simp at hmem

/-- A message that is not sent as one chunk or as too many comes back. -/
theorem roundTrips_of_not (hC : C.Lawful)
    (hparse : C.fromSlice (C.toVec (.object body)) = some (.object body))
    (hone : ¬ SendsOneChunk C clientId envId streamId seqId body)
    (hmany : ¬ SendsTooManyChunks C clientId envId streamId seqId body) :
    RoundTrips C clientId envId streamId seqId body := by
  intro segments hsegments hkinds
  have hlarge : segmentTargetBytes <
      (C.toVec (clientMessageEnvelope clientId envId streamId seqId (.object body))).length := by
    by_contra hsmall
    unfold segmentClientMessage at hsegments
    rw [if_pos (Nat.le_of_not_lt hsmall)] at hsegments
    cases hsegments
    have hkind := hkinds _ (List.mem_singleton_self _)
    rw [kind_clientMessageEnvelope] at hkind
    exact absurd hkind (by decide)
  obtain ⟨hle, n, hfirst, rfl⟩ := (segmentClientMessage_eq_ok_iff hlarge
    (kind_clientMessageEnvelope clientId envId streamId seqId _)
    (message_clientMessageEnvelope clientId envId streamId seqId _)
    (length_toVec_pos hC _)).mp hsegments
  have hpieces := hfirst.attained n hfirst.le le_rfl
  have hpos : 0 < n := Nat.lt_of_lt_of_le (firstCount_pos _) hfirst.le
  have htwo : 2 ≤ n := by
    by_contra hlt
    obtain rfl : n = 1 := by omega
    have hmessage := (firstCount_le_iff one_pos).mp hfirst.le
    rw [Nat.mul_one] at hmessage
    exact hone ⟨hlarge, hmessage, hfirst.fits⟩
  have hmax : n ≤ maxSegments := by
    by_contra hlt
    have hlt := Nat.lt_of_not_le hlt
    refine hmany ⟨hlarge, hle, fun j hj hj' => hfirst.before j hj (Nat.lt_of_le_of_lt hj' hlt), n,
      hlt, hfirst.fits, hfirst.attained⟩
  have hflatten : (Slots.chunksOf (Slots.pieceSize (C.toVec (.object body)).length n)
      (C.toVec (.object body))).flatten = C.toVec (.object body) :=
    Slots.flatten_chunksOf (Slots.pieceSize_pos _ _) _
  have hsize : (CutMessage.ofSplit hC hparse htwo hmax hpieces hfirst.fits).size ≤
      maxMessageBytes := by
    rwa [CutMessage.size, CutMessage.ofSplit, hflatten]
  have houtputs := outputs_inOrder hC.decode_encode _ hsize
  have hlength :
      (CutMessage.ofSplit hC hparse htwo hmax hpieces hfirst.fits).chunks.length = n := by
    rw [CutMessage.ofSplit, Slots.length_chunksOf]
    exact hpieces
  rw [CutMessage.envelopesOf_ofSplit, hlength] at houtputs
  rw [houtputs, length_clientSegments, hpieces]
  exact congrArg (fun v => _ ++ [Except.ok (some v)])
    (completeEnvelope_segmentMembers _ _ _ _ _ _ _ _ _)

/-- A message sent as one chunk does not come back. -/
theorem not_roundTrips_of_sendsOneChunk (hC : C.Lawful)
    (h : SendsOneChunk C clientId envId streamId seqId body) :
    ¬ RoundTrips C clientId envId streamId seqId body := by
  obtain ⟨hlarge, hmessage, hfits⟩ := h
  have hfirst : firstCount (C.toVec (.object body)).length = 1 := by
    refine le_antisymm ((firstCount_le_iff one_pos).mpr ?_) (firstCount_pos _)
    rwa [Nat.mul_one]
  have hpieces := pieces_firstCount (length_toVec_pos hC (.object body))
  rw [hfirst] at hpieces
  refine not_roundTrips_of_firstFit hC hlarge (hmessage.trans (by decide)) (n := 1) ?_
    (Or.inl le_rfl)
  rw [hfirst]
  exact (firstFit_iff_of_fits hpieces hfits).mpr rfl

/-- A message sent as too many chunks does not come back. -/
theorem not_roundTrips_of_sendsTooManyChunks (hC : C.Lawful)
    (h : SendsTooManyChunks C clientId envId streamId seqId body) :
    ¬ RoundTrips C clientId envId streamId seqId body := by
  classical
  obtain ⟨hlarge, hle, hnone, n, hn, hfits, hattained⟩ := h
  have hfirst : firstCount (C.toVec (.object body)).length ≤ maxSegments := by
    rw [firstCount_le_iff (by decide)]
    exact hle.trans (by decide)
  -- the loop stops at the first number of chunks that fits
  have hex : ∃ m, firstCount (C.toVec (.object body)).length ≤ m ∧ SplitFits C
      (clientMessageEnvelope clientId envId streamId seqId (.object body))
      (C.toVec (.object body)) m := ⟨n, hfirst.trans hn.le, hfits⟩
  obtain ⟨hmin, hminfits⟩ := Nat.find_spec hex
  have hminle : Nat.find hex ≤ n := Nat.find_min' hex ⟨hfirst.trans hn.le, hfits⟩
  have hlarger : maxSegments < Nat.find hex := by
    by_contra hle
    exact hnone _ hmin (Nat.le_of_not_lt hle) hminfits
  refine not_roundTrips_of_firstFit hC hlarge hle ⟨hmin, fun j hj hj' => ?_, fun j hj hj' => ?_,
    hminfits⟩ (Or.inr hlarger)
  · exact hattained j hj (hj'.trans hminle)
  · exact fun hfits => Nat.find_min hex hj' ⟨hj, hfits⟩

/-- A client message comes back from its chunks exactly when it is not sent as a single chunk and
not as more than `MAX_SEGMENTS`. -/
theorem roundTrips_iff (hC : C.Lawful)
    (hparse : C.fromSlice (C.toVec (.object body)) = some (.object body)) :
    RoundTrips C clientId envId streamId seqId body ↔
      ¬ (SendsOneChunk C clientId envId streamId seqId body ∨
        SendsTooManyChunks C clientId envId streamId seqId body) := by
  constructor
  · intro h h'
    rcases h' with hone | hmany
    · exact not_roundTrips_of_sendsOneChunk hC hone h
    · exact not_roundTrips_of_sendsTooManyChunks hC hmany h
  · intro h
    exact roundTrips_of_not hC hparse (fun hone => h (Or.inl hone)) fun hmany => h (Or.inr hmany)

end Split

/-! ### Messages of a given length -/

section Letters

/-- The message with a text of `n` letters. -/
def letters (n : ℕ) : Map := [("a", .string (String.ofList (List.replicate n 'x')))]

/-- A codec whose parser knows that message. -/
def lettersCodec (n : ℕ) : Codec := plainCodec [.object (letters n)]

/-- It keeps its promises. -/
theorem lawful_lettersCodec (n : ℕ) : (lettersCodec n).Lawful := lawful_plainCodec _

/-- The parser knows it. -/
theorem fromSlice_letters (n : ℕ) :
    (lettersCodec n).fromSlice ((lettersCodec n).toVec (.object (letters n))) =
      some (.object (letters n)) := by
  simp [lettersCodec, plainCodec, compactCodec]

/-- A text of plain characters makes the envelope of a chunk longer by its length. -/
theorem length_toVec_segmentMembers_text {C : Codec} (hC : C.Lawful)
    (type clientId envId streamId : String) (seqId : UInt64)
    (messageSize segmentCount segmentId : ℕ) {text : String}
    (htext : ∀ c ∈ text.toList, Codec.IsPlain c) :
    (C.toVec (.object (segmentMembers type clientId envId streamId seqId messageSize segmentCount
      segmentId text))).length =
    (C.toVec (.object (segmentMembers type clientId envId streamId seqId messageSize segmentCount
      segmentId ""))).length + text.length := by
  have hempty : (C.toVec (.string "")).length = 2 := by
    rw [hC.length_toVec_string "" (by simp)]
    rfl
  rw [hC.length_toVec_object (by simp [segmentMembers]),
    hC.length_toVec_object (by simp [segmentMembers])]
  simp only [segmentMembers, List.map_cons, List.sum_cons, hC.length_toVec_string text htext,
    hempty]
  omega

/-- So does a client id. -/
theorem length_toVec_segmentMembers_clientId {C : Codec} (hC : C.Lawful)
    (type envId streamId : String) (seqId : UInt64) (messageSize segmentCount segmentId : ℕ)
    (text : String) {clientId : String} (hid : ∀ c ∈ clientId.toList, Codec.IsPlain c) :
    (C.toVec (.object (segmentMembers type clientId envId streamId seqId messageSize segmentCount
      segmentId text))).length =
    (C.toVec (.object (segmentMembers type "" envId streamId seqId messageSize segmentCount
      segmentId text))).length + clientId.length := by
  have hempty : (C.toVec (.string "")).length = 2 := by
    rw [hC.length_toVec_string "" (by simp)]
    rfl
  rw [hC.length_toVec_object (by simp [segmentMembers]),
    hC.length_toVec_object (by simp [segmentMembers])]
  simp only [segmentMembers, List.map_cons, List.sum_cons, hC.length_toVec_string clientId hid,
    hempty]
  omega

/-- The length of a client envelope is that of the rest of it and of its message. -/
theorem length_toVec_clientMessageEnvelope {C : Codec} (hC : C.Lawful)
    (clientId envId streamId : String) (seqId : UInt64) (message : Value) :
    (C.toVec (clientMessageEnvelope clientId envId streamId seqId message)).length +
        (C.toVec .null).length =
      (C.toVec (clientMessageEnvelope clientId envId streamId seqId .null)).length +
        (C.toVec message).length := by
  rw [clientMessageEnvelope_eq, clientMessageEnvelope_eq,
    hC.length_toVec_object (List.cons_ne_nil _ _), hC.length_toVec_object (List.cons_ne_nil _ _)]
  simp only [List.map_cons, List.sum_cons]
  omega

/-- Repeated letters are plain. -/
theorem isPlain_replicate (n : ℕ) :
    ∀ c ∈ (String.ofList (List.replicate n 'x')).toList, Codec.IsPlain c := by
  intro c hc
  rw [String.toList_ofList] at hc
  rw [List.eq_of_mem_replicate hc]
  decide

/-- The length of the message. -/
theorem length_toVec_letters (n : ℕ) :
    ((lettersCodec n).toVec (.object (letters n))).length = n + 8 := by
  have hC := lawful_lettersCodec n
  have hkey : ((lettersCodec n).toVec (.string "a")).length = 3 := by
    rw [hC.length_toVec_string "a" (Codec.isPlain_of_all (by decide +kernel))]
    rfl
  rw [letters, hC.length_toVec_object (List.cons_ne_nil _ _)]
  simp only [List.map_cons, List.map_nil, List.sum_cons, List.sum_nil, hkey,
    hC.length_toVec_string _ (isPlain_replicate n), String.length_ofList, List.length_replicate]
  omega

/-- A split fits when the longest of its chunks would fit with each of the positions. -/
theorem splitFits_of_le {C : Codec} (hC : C.Lawful) (hencode : C.encode = Base64.encode)
    {clientId envId streamId : String} {seqId : UInt64} {message : Value} {bytes : Bytes} {n : ℕ}
    (h : ∀ j < Slots.pieces bytes.length n,
      (C.toVec (.object (segmentMembers "client_message_chunk" clientId envId streamId seqId
        bytes.length (Slots.pieces bytes.length n) j ""))).length +
        (Slots.pieceSize bytes.length n + 2) / 3 * 4 ≤ maxFrameBytes) :
    SplitFits C (clientMessageEnvelope clientId envId streamId seqId message) bytes n := by
  intro segment hsegment
  obtain ⟨j, hj, rfl⟩ := List.mem_mapIdx.mp hsegment
  have hchunk := Slots.length_le_of_mem_chunksOf (List.getElem_mem hj)
  have hplain : ∀ c ∈ (C.encode
      (Slots.chunksOf (Slots.pieceSize bytes.length n) bytes)[j]).toList, Codec.IsPlain c := by
    rw [hencode]
    exact fun c hc => isPlain_of_mem_encode hc
  rw [clientSegment_eq, length_toVec_segmentMembers_text hC _ _ _ _ _ _ _ _ hplain]
  rw [Slots.length_chunksOf] at hj ⊢
  refine le_trans (Nat.add_le_add_left ?_ _) (h j hj)
  rw [hencode, Base64.length_encode]
  exact Nat.mul_le_mul_right 4 (Nat.div_le_div_right (Nat.add_le_add_right hchunk 2))

/-- A message of 150000 letters is split into two chunks and comes back. -/
theorem roundTrips_letters :
    RoundTrips (lettersCodec 150000) "client" "env" "stream" 1 (letters 150000) := by
  have hlength := length_toVec_letters 150000
  refine (roundTrips_iff (lawful_lettersCodec _) (fromSlice_letters _)).mpr ?_
  intro h
  rcases h with ⟨-, hsmall, -⟩ | ⟨-, -, hnone, -⟩
  · rw [hlength] at hsmall
    exact absurd hsmall (by decide)
  · refine hnone 2 ?_ (by decide) (splitFits_of_le (lawful_lettersCodec _) rfl ?_)
    · rw [hlength]
      decide
    · rw [hlength]
      decide +kernel

/-- A message of 102390 letters is sent as a single chunk, which the reassembler refuses. -/
theorem not_roundTrips_letters :
    ¬ RoundTrips (lettersCodec 102390) "client" "env" "stream" 1 (letters 102390) := by
  have hlength := length_toVec_letters 102390
  have hC := lawful_lettersCodec 102390
  refine not_roundTrips_of_sendsOneChunk hC ⟨?_, ?_, splitFits_of_le hC rfl ?_⟩
  · have henvelope := length_toVec_clientMessageEnvelope hC "client" "env" "stream" 1
      (.object (letters 102390))
    have hnull : ((lettersCodec 102390).toVec .null).length = 4 := rfl
    have hrest : ((lettersCodec 102390).toVec
        (clientMessageEnvelope "client" "env" "stream" 1 .null)).length = 129 := by
      decide +kernel
    rw [hlength, hnull, hrest] at henvelope
    rw [segmentTargetBytes]
    omega
  · rw [hlength]
    decide
  · rw [hlength]
    decide +kernel

end Letters

end Rcodex
