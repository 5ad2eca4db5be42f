import Rcodex.Transport.Representation
import Rcodex.Foundation.CompactJson
import Mathlib.Algebra.Order.BigOperators.Group.List

/-!
# Reassembly in any order

A `CutMessage` is a server message cut into chunks, one envelope a chunk.  The envelopes of a family
of at most eight such messages on one host and stream arrive in any order, repeated any number of
times before their message is complete (`Arrives`).  Then no envelope is refused, each message is
returned with the arrival of its last missing chunk and not again, and the table ends empty
(`reassembly_complete`).

The invariant `Tracks` ties the table to the arrivals: there is an assembly for each message that
has begun and is not complete, and its filled slots are those of the chunks that arrived.
-/

namespace Rcodex

open Json ServerMessageReassembler

/-- A server message cut into chunks for a client, host and stream: the chunks, and the envelopes
that carry them, which agree on everything but the position and the chunk. -/
structure CutMessage (C : Codec) (clientId envId streamId : String) where
  /-- The sequence number. -/
  seqId : UInt64
  /-- The chunks. -/
  chunks : List Bytes
  /-- The message. -/
  body : Map
  /-- What the envelopes agree on. -/
  shared : Map
  /-- The envelope of the chunk at a position. -/
  frame : ℕ → Map
  /-- At least two chunks. -/
  two_le_count : 2 ≤ chunks.length
  /-- At most `MAX_SEGMENTS` chunks. -/
  count_le : chunks.length ≤ maxSegments
  /-- No chunk is empty. -/
  chunk_ne_nil : ∀ c ∈ chunks, c ≠ []
  /-- The chunks are the text of the message. -/
  parse : C.fromSlice chunks.flatten = some (.object body)
  /-- The type of the envelopes. -/
  type_eq : Map.get shared "type" = some (.string "server_message_chunk")
  /-- Their client. -/
  client_id_eq : Map.get shared "client_id" = some (.string clientId)
  /-- Their message. -/
  identifies : Identifies shared envId streamId seqId
  /-- The number of chunks they announce. -/
  segment_count_eq : Map.get shared "segment_count" = some (.ofU64 (.ofNat chunks.length))
  /-- The length of the message they announce. -/
  message_size_eq :
    Map.get shared "message_size_bytes" = some (.ofU64 (.ofNat chunks.flatten.length))
  /-- Other members than the position and the chunk are shared. -/
  frame_eq : ∀ j field, field ≠ "segment_id" → field ≠ "message_chunk_base64" →
    Map.get (frame j) field = Map.get shared field
  /-- The position. -/
  segment_id_eq : ∀ j < chunks.length, Map.get (frame j) "segment_id" = some (.ofU64 (.ofNat j))
  /-- The chunk. -/
  chunk_eq : ∀ (j : ℕ) (c : Bytes), chunks[j]? = some c →
    Map.get (frame j) "message_chunk_base64" = some (.string (C.encode c))
  /-- The envelopes are within the frame limit. -/
  frame_le : ∀ j < chunks.length, (C.toVec (.object (frame j))).length ≤ maxFrameBytes

namespace CutMessage

variable {C : Codec} {clientId envId streamId : String}

/-- The length of the message. -/
def size (m : CutMessage C clientId envId streamId) : ℕ := m.chunks.flatten.length

/-- The key of the message in the table. -/
def key (m : CutMessage C clientId envId streamId) : String :=
  assemblyKey envId streamId m.seqId.toNat

/-- The envelope of the chunk at a position. -/
def envelope (m : CutMessage C clientId envId streamId) (j : ℕ) : Value := .object (m.frame j)

/-- The envelope the reassembler returns for the message. -/
def complete (m : CutMessage C clientId envId streamId) : Value :=
  completeEnvelope m.shared (.object m.body)

/-- What the reassembler returns for a message: its type, its body, and the members that its chunks
agree on. -/
theorem get_complete (m : CutMessage C clientId envId streamId) :
    m.complete.get "type" = some (.string "server_message") ∧
    m.complete.get "message" = some (.object m.body) ∧
    ∀ field ∈ completeFields, m.complete.get field = Map.get m.shared field := by
  refine ⟨by simp [complete, get_completeEnvelope], by simp [complete, get_completeEnvelope], ?_⟩
  intro field hfield
  have htype : field ≠ "type" := by
    rintro rfl
    exact absurd hfield (by decide)
  have hmessage : field ≠ "message" := by
    rintro rfl
    exact absurd hfield (by decide)
  rw [complete, get_completeEnvelope, if_neg hmessage, if_neg htype, if_pos hfield]

end CutMessage

/-- The arrivals of the envelopes of a family of messages: each envelope arrives, and none arrives
after its message is complete. -/
structure Arrives {C : Codec} {clientId envId streamId : String}
    (messages : List (CutMessage C clientId envId streamId))
    (arrivals : List (CutMessage C clientId envId streamId × ℕ)) : Prop where
  /-- Only envelopes of the family arrive. -/
  known : ∀ m j, (m, j) ∈ arrivals → m ∈ messages ∧ j < m.chunks.length
  /-- All of them arrive. -/
  all : ∀ m ∈ messages, ∀ j < m.chunks.length, (m, j) ∈ arrivals
  /-- A chunk of the message is missing when an envelope arrives. -/
  missing : ∀ pre m j post, arrivals = pre ++ (m, j) :: post →
    ∃ i < m.chunks.length, (m, i) ∉ pre

/-- A family the reassembler can hold: at most eight messages with different sequence numbers, of
at most 64 MiB together. -/
structure Family {C : Codec} {clientId envId streamId : String}
    (messages : List (CutMessage C clientId envId streamId)) : Prop where
  /-- At most eight messages. -/
  length_le : messages.length ≤ maxConcurrentAssemblies
  /-- Different sequence numbers. -/
  nodup : (messages.map CutMessage.seqId).Nodup
  /-- At most 64 MiB. -/
  size_le : (messages.map CutMessage.size).sum ≤ maxBufferedAssemblyBytes

section Tracking

variable {C : Codec} {clientId envId streamId : String}
  {messages : List (CutMessage C clientId envId streamId)}

/-- A message of the family is no longer than all of them. -/
theorem Family.size_le_of_mem (hfamily : Family messages)
    {m : CutMessage C clientId envId streamId} (hm : m ∈ messages) :
    m.size ≤ maxBufferedAssemblyBytes :=
  (List.le_sum_of_mem (List.mem_map_of_mem hm)).trans hfamily.size_le

/-- On one host and stream the key determines the message of a family. -/
theorem Family.eq_of_key_eq (hfamily : Family messages)
    {m m' : CutMessage C clientId envId streamId} (hm : m ∈ messages) (hm' : m' ∈ messages)
    (h : m.key = m'.key) : m = m' := by
  have hseq : m.seqId = m'.seqId := UInt64.toNat_inj.mp (eq_of_assemblyKey_eq h)
  exact List.inj_on_of_nodup_map hfamily.nodup hm hm' hseq

/-- An assembly of a message with the chunks that arrived. -/
structure CutMessage.Collects (m : CutMessage C clientId envId streamId)
    (seen : List (CutMessage C clientId envId streamId × ℕ)) (a : Assembly) : Prop where
  /-- The announced length is that of the message. -/
  size_eq : a.messageSize = m.size
  /-- There is a slot for each chunk. -/
  length_eq : a.chunks.length = m.chunks.length
  /-- The assembly was opened by one of the envelopes of the message. -/
  first_eq : ∃ j, a.first = m.frame j
  /-- The slots of the chunks that arrived are filled, the others are empty. -/
  slot_eq : ∀ (j : ℕ) (c : Bytes), m.chunks[j]? = some c →
    a.chunks[j]? = some (some c) ∧ (m, j) ∈ seen ∨ a.chunks[j]? = some none ∧ (m, j) ∉ seen

/-- The table after the given arrivals. -/
structure Tracks (messages : List (CutMessage C clientId envId streamId))
    (seen : List (CutMessage C clientId envId streamId × ℕ)) (r : ServerMessageReassembler) :
    Prop where
  /-- The table has the representation invariant. -/
  invariant : r.Invariant
  /-- Every assembly is one of a message. -/
  entry : ∀ key a, r.assemblies.lookup key = some a →
    ∃ m ∈ messages, m.key = key ∧ m.Collects seen a
  /-- A message that has begun and has no assembly is complete. -/
  gone : ∀ m ∈ messages, r.assemblies.lookup m.key = none → ∀ j, (m, j) ∈ seen →
    ∀ i < m.chunks.length, (m, i) ∈ seen

/-- Only the arrivals of the message itself matter. -/
theorem CutMessage.Collects.congr {m : CutMessage C clientId envId streamId}
    {seen seen' : List (CutMessage C clientId envId streamId × ℕ)} {a : Assembly}
    (h : m.Collects seen a) (hseen : ∀ j, (m, j) ∈ seen' ↔ (m, j) ∈ seen) : m.Collects seen' a where
  size_eq := h.size_eq
  length_eq := h.length_eq
  first_eq := h.first_eq
  slot_eq := fun j c hc => by rw [hseen j]; exact h.slot_eq j c hc

/-- The filled slots hold chunks of the message. -/
theorem CutMessage.Collects.holds {m : CutMessage C clientId envId streamId}
    {seen : List (CutMessage C clientId envId streamId × ℕ)} {a : Assembly}
    (h : m.Collects seen a) : Slots.Holds a.chunks m.chunks where
  length_eq := h.length_eq
  piece_eq := fun j c hc => by
    have hj : j < m.chunks.length := by
      rw [← h.length_eq]
      exact (List.getElem?_eq_some_iff.mp hc).1
    rcases h.slot_eq j _ (List.getElem?_eq_getElem hj) with ⟨hslot, -⟩ | ⟨hslot, -⟩
    · rw [hslot] at hc
      rw [List.getElem?_eq_getElem hj]
      simpa using hc
    · rw [hslot] at hc
      simp at hc

/-- A message without an assembly that is not complete has not begun. -/
theorem Tracks.not_mem {seen : List (CutMessage C clientId envId streamId × ℕ)}
    {r : ServerMessageReassembler} (h : Tracks messages seen r)
    {m : CutMessage C clientId envId streamId} (hm : m ∈ messages)
    (hmissing : ∃ i < m.chunks.length, (m, i) ∉ seen)
    (hlookup : r.assemblies.lookup m.key = none) (j : ℕ) : (m, j) ∉ seen := by
  obtain ⟨i, hi, hnot⟩ := hmissing
  exact fun hj => hnot (h.gone m hm hlookup j hj i hi)

/-- A message with an assembly is not complete. -/
theorem Tracks.missing {seen : List (CutMessage C clientId envId streamId × ℕ)}
    {r : ServerMessageReassembler} (h : Tracks messages seen r)
    {m : CutMessage C clientId envId streamId} {a : Assembly} (ha : m.Collects seen a)
    (hlookup : r.assemblies.lookup m.key = some a) : ∃ i < m.chunks.length, (m, i) ∉ seen := by
  obtain ⟨i, hi, hnone⟩ := List.getElem_of_mem (h.invariant.wellFormed _ _ hlookup).empty
  have hi' : i < m.chunks.length := ha.length_eq ▸ hi
  rcases ha.slot_eq i _ (List.getElem?_eq_getElem hi') with ⟨hslot, -⟩ | ⟨-, hnot⟩
  · rw [List.getElem?_eq_getElem hi, hnone] at hslot
    simp at hslot
  · exact ⟨i, hi', hnot⟩

/-- The assembly of a message under its own key. -/
theorem Tracks.collects (hfamily : Family messages)
    {seen : List (CutMessage C clientId envId streamId × ℕ)} {r : ServerMessageReassembler}
    (h : Tracks messages seen r) {m : CutMessage C clientId envId streamId} (hm : m ∈ messages)
    {a : Assembly} (hlookup : r.assemblies.lookup m.key = some a) : m.Collects seen a := by
  obtain ⟨m', hm', hkey, ha⟩ := h.entry _ _ hlookup
  obtain rfl := hfamily.eq_of_key_eq hm' hm hkey
  exact ha

end Tracking

/-! ### One arrival -/

section Arrival

variable {C : Codec} {clientId envId streamId : String}
  {messages : List (CutMessage C clientId envId streamId)}

/-- What the reassembler reads from the envelope of a chunk. -/
structure CutMessage.Reads (m : CutMessage C clientId envId streamId) (j : ℕ) (c : Bytes)
    (s : Segment) : Prop where
  /-- The members. -/
  object_eq : s.object = m.frame j
  /-- The position. -/
  segmentId_eq : s.segmentId = j
  /-- The number of chunks. -/
  segmentCount_eq : s.segmentCount = m.chunks.length
  /-- The length of the message. -/
  messageSize_eq : s.messageSize = m.size
  /-- The key. -/
  key_eq : s.key = m.key
  /-- The chunk. -/
  chunk_eq : s.chunk = c

/-- The envelope of a chunk is a chunk for the reassembler. -/
theorem CutMessage.kind_envelope (m : CutMessage C clientId envId streamId) (j : ℕ) :
    kind (m.envelope j) = some "server_message_chunk" := by
  have htype : Map.get (m.frame j) "type" = some (.string "server_message_chunk") := by
    rw [m.frame_eq j "type" (by decide) (by decide)]
    exact m.type_eq
  simp [kind, CutMessage.envelope, htype]

/-- The reassembler reads the position and the chunk from the envelope of a chunk. -/
theorem CutMessage.exists_reads (hdecode : ∀ bytes, C.decode (C.encode bytes) = some bytes)
    (m : CutMessage C clientId envId streamId) (hsize : m.size ≤ maxMessageBytes) {j : ℕ}
    {c : Bytes} (hc : m.chunks[j]? = some c) :
    ∃ s, IsSegment C (m.envelope j) s ∧ m.Reads j c s := by
  obtain ⟨hj, hget⟩ := List.getElem?_eq_some_iff.mp hc
  have hmem : c ∈ m.chunks := hget ▸ List.getElem_mem hj
  have hne : c ≠ [] := m.chunk_ne_nil c hmem
  have hle : c.length ≤ m.size := Slots.length_le_of_mem_flatten hmem
  have hpos : 0 < c.length := List.length_pos_iff.mpr hne
  have hcount : m.chunks.length < 2 ^ 64 := by
    have hle := m.count_le
    rw [maxSegments_eq] at hle
    omega
  have hsmall : m.size < 2 ^ 64 := by
    unfold maxMessageBytes at hsize
    omega
  have hident : Identifies (m.frame j) envId streamId m.seqId :=
    ⟨(m.frame_eq j _ (by decide) (by decide)).trans m.identifies.env_id,
      (m.frame_eq j _ (by decide) (by decide)).trans m.identifies.stream_id,
      (m.frame_eq j _ (by decide) (by decide)).trans m.identifies.seq_id⟩
  refine ⟨⟨m.frame j, j, m.chunks.length, m.size, m.key, c, m.two_le_count, m.count_le, hj,
    by omega, hsize, hne, hle⟩, ⟨m.frame_le j hj, rfl, ⟨_, m.segment_id_eq j hj, ?_⟩,
    ⟨_, (m.frame_eq j _ (by decide) (by decide)).trans m.segment_count_eq, ?_⟩,
    ⟨_, (m.frame_eq j _ (by decide) (by decide)).trans m.message_size_eq, ?_⟩,
    ⟨envId, streamId, m.seqId, hident, rfl⟩, ⟨_, m.chunk_eq j c hc, hdecode c⟩⟩,
    ⟨rfl, rfl, rfl, rfl, rfl, rfl⟩⟩
  · exact UInt64.toNat_ofNat_of_lt' (hj.trans hcount)
  · exact UInt64.toNat_ofNat_of_lt' hcount
  · exact UInt64.toNat_ofNat_of_lt' hsmall

variable {seen : List (CutMessage C clientId envId streamId × ℕ)} {r : ServerMessageReassembler}
  {m : CutMessage C clientId envId streamId} {j : ℕ} {c : Bytes} {s : Segment} {a : Assembly}

/-- The assembly a chunk goes to collects its message, whether it is new or not. -/
theorem Tracks.collects_of_targets (hfamily : Family messages) (h : Tracks messages seen r)
    (hm : m ∈ messages) (hmissing : ∃ i < m.chunks.length, (m, i) ∉ seen) (hs : m.Reads j c s)
    (ha : r.Targets s a) : m.Collects seen a := by
  rcases ha with hlookup | ⟨hlookup, -, rfl⟩
  · rw [hs.key_eq] at hlookup
    exact h.collects hfamily hm hlookup
  · rw [hs.key_eq] at hlookup
    refine ⟨hs.messageSize_eq, ?_, ⟨j, hs.object_eq⟩, fun i d hd => Or.inr ⟨?_, ?_⟩⟩
    · rw [Assembly.opened, List.length_replicate, hs.segmentCount_eq]
    · have hi : i < m.chunks.length := (List.getElem?_eq_some_iff.mp hd).1
      rw [Assembly.opened, List.getElem?_replicate, if_pos (hs.segmentCount_eq ▸ hi)]
    · exact h.not_mem hm hmissing hlookup i

/-- Storing a chunk makes the assembly one with that chunk. -/
theorem CutMessage.Collects.store (h : m.Collects seen a) (hs : m.Reads j c s)
    (hc : m.chunks[j]? = some c) : m.Collects (seen ++ [(m, j)]) (a.store s) := by
  obtain ⟨hj, -⟩ := List.getElem?_eq_some_iff.mp hc
  refine ⟨h.size_eq, ?_, h.first_eq, fun i d hd => ?_⟩
  · rw [Assembly.store, List.length_set, h.length_eq]
  · simp only [Assembly.store, hs.segmentId_eq, hs.chunk_eq]
    by_cases hij : j = i
    · subst hij
      rw [hc] at hd
      cases hd
      refine Or.inl ⟨?_, by simp⟩
      rw [List.getElem?_set_self (h.length_eq ▸ hj)]
    · have hmem : (m, i) ∈ seen ++ [(m, j)] ↔ (m, i) ∈ seen := by
        simp [Ne.symm hij]
      rw [List.getElem?_set_ne hij, hmem]
      exact h.slot_eq i d hd

/-- An arrival changes nothing for the other messages. -/
theorem mem_concat_iff_of_ne {m' : CutMessage C clientId envId streamId} (hne : m' ≠ m) (i : ℕ) :
    (m', i) ∈ seen ++ [(m, j)] ↔ (m', i) ∈ seen := by
  simp [hne]

/-- The other assemblies of the table are as they were. -/
theorem Tracks.entry_of_ne (h : Tracks messages seen r) {key : String} (hne : key ≠ m.key)
    {e : Assembly} (he : r.assemblies.lookup key = some e) :
    ∃ m' ∈ messages, m'.key = key ∧ m'.Collects (seen ++ [(m, j)]) e := by
  obtain ⟨m', hm', hkey, hcollects⟩ := h.entry _ _ he
  refine ⟨m', hm', hkey, hcollects.congr fun i => mem_concat_iff_of_ne ?_ i⟩
  rintro rfl
  exact hne hkey.symm

/-- The table with an assembly that got a chunk holds assemblies of the family only. -/
theorem Tracks.entry_insert (h : Tracks messages seen r)
    (hm : m ∈ messages) {b : Assembly} (hb : m.Collects (seen ++ [(m, j)]) b) {key : String}
    {e : Assembly} (he : (r.assemblies.insert m.key b).lookup key = some e) :
    ∃ m' ∈ messages, m'.key = key ∧ m'.Collects (seen ++ [(m, j)]) e := by
  rcases Table.lookup_insert_eq_some_iff.mp he with ⟨rfl, rfl⟩ | ⟨hne, he⟩
  · exact ⟨m, hm, rfl, hb⟩
  · exact h.entry_of_ne hne he

/-- Another message that has begun and has no assembly is still complete. -/
theorem Tracks.gone_of_ne (h : Tracks messages seen r)
    {m' : CutMessage C clientId envId streamId} (hm' : m' ∈ messages) (hne : m' ≠ m)
    (hlookup : r.assemblies.lookup m'.key = none) {i : ℕ} (hi : (m', i) ∈ seen ++ [(m, j)]) :
    ∀ k < m'.chunks.length, (m', k) ∈ seen ++ [(m, j)] := by
  have hgone := h.gone m' hm' hlookup i ((mem_concat_iff_of_ne hne i).mp hi)
  exact fun k hk => (mem_concat_iff_of_ne hne k).mpr (hgone k hk)

/-- The bytes of the table with a further chunk are bytes of the family. -/
theorem Tracks.fits (hfamily : Family messages) (h : Tracks messages seen r) (hm : m ∈ messages)
    (hs : m.Reads j c s) (hc : m.chunks[j]? = some c) (ha : r.Targets s a)
    (hcollects : m.Collects seen a) (hslot : a.chunks[s.segmentId]? = some none) : s.Fits r a := by
  have hstore := hcollects.store hs hc
  have hreceived := ha.received_eq h.invariant
  have hweight : a.receivedBytes + s.chunk.length = Slots.weight (a.store s).chunks := by
    rw [Assembly.store, Slots.weight_set hslot, hreceived]
  constructor
  · rw [hweight, hcollects.size_eq]
    exact hstore.holds.weight_le
  · have hbuffered := ha.buffered_eq h.invariant
    have htotal : Table.total Assembly.receivedBytes (r.assemblies.insert s.key (a.store s)) ≤
        (messages.map CutMessage.size).sum := by
      refine Table.total_le_sum _ CutMessage.key _ fun key e he => ?_
      rw [hs.key_eq] at he
      obtain ⟨m', hm', hkey, he'⟩ := h.entry_insert hm hstore he
      refine ⟨m', hm', hkey, ?_⟩
      rcases Table.lookup_insert_eq_some_iff.mp he with ⟨-, rfl⟩ | ⟨-, he⟩
      · change a.receivedBytes + s.chunk.length ≤ m'.size
        rw [hweight]
        exact he'.holds.weight_le
      · rw [(h.invariant.wellFormed _ _ he).received_eq]
        exact he'.holds.weight_le
    rw [Table.total_insert] at htotal
    have hsize := hfamily.size_le
    change a.receivedBytes + s.chunk.length + _ ≤ _ at htotal
    omega

/-- There is room for a message that has not begun. -/
theorem Tracks.size_lt (h : Tracks messages seen r) (hfamily : Family messages) (hm : m ∈ messages)
    (hlookup : r.assemblies.lookup m.key = none) :
    Table.size r.assemblies < maxConcurrentAssemblies := by
  have hkeys : ∀ k e, r.assemblies.lookup k = some e →
      k ∈ (messages.map CutMessage.key).erase m.key := by
    intro k e he
    obtain ⟨m', hm', rfl, -⟩ := h.entry _ _ he
    refine (List.mem_erase_of_ne ?_).mpr (List.mem_map_of_mem hm')
    intro heq
    rw [heq, hlookup] at he
    simp at he
  have hsize := Table.size_le_of_keys_subset hkeys
  rw [List.length_erase_of_mem (List.mem_map_of_mem hm), List.length_map] at hsize
  have hpos : 0 < messages.length := List.length_pos_of_mem hm
  have hle := hfamily.length_le
  omega

/-- The message is returned when all its slots are filled. -/
theorem CutMessage.Collects.completeMessage_eq (h : m.Collects seen a) (hnone : none ∉ a.chunks) :
    completeMessage C a = .ok (some m.complete) := by
  have hchunks := h.holds.eq_map_some hnone
  refine completeMessage_eq_ok_iff.mpr ⟨?_, m.body, ?_, ?_⟩
  · rw [hchunks, Slots.contents_map_some, h.size_eq]
    rfl
  · rw [hchunks, Slots.contents_map_some]
    exact m.parse
  · obtain ⟨i, hfirst⟩ := h.first_eq
    rw [hfirst]
    refine congrArg some (completeEnvelope_congr fun field hfield => ?_)
    refine (m.frame_eq i field ?_ ?_).symm
    · rintro rfl
      exact absurd hfield (by decide)
    · rintro rfl
      exact absurd hfield (by decide)

/-- The slots of an assembly are filled exactly when all chunks of its message arrived. -/
theorem CutMessage.Collects.none_notMem_iff (h : m.Collects seen a) :
    none ∉ a.chunks ↔ ∀ i < m.chunks.length, (m, i) ∈ seen := by
  constructor
  · intro hnone i hi
    rcases h.slot_eq i _ (List.getElem?_eq_getElem hi) with ⟨-, hmem⟩ | ⟨hslot, -⟩
    · exact hmem
    · exact absurd (List.mem_of_getElem? hslot) hnone
  · intro hall hnone
    obtain ⟨i, hi, heq⟩ := List.getElem_of_mem hnone
    have hi' : i < m.chunks.length := h.length_eq ▸ hi
    rcases h.slot_eq i _ (List.getElem?_eq_getElem hi') with ⟨hslot, -⟩ | ⟨-, hnot⟩
    · rw [List.getElem?_eq_getElem hi, heq] at hslot
      simp at hslot
    · exact hnot (hall i hi')

/-- What the arrival of a chunk gives: the message, if it was the last missing one, else nothing. -/
def CutMessage.Answers (m : CutMessage C clientId envId streamId)
    (seen : List (CutMessage C clientId envId streamId × ℕ))
    (result : Except RelayError (Option Value)) : Prop :=
  (∀ i < m.chunks.length, (m, i) ∈ seen) ∧ result = .ok (some m.complete) ∨
    (∃ i < m.chunks.length, (m, i) ∉ seen) ∧ result = .ok none

/-- A repeated chunk changes nothing. -/
theorem Tracks.repeat (h : Tracks messages seen r) (hmem : (m, j) ∈ seen) :
    Tracks messages (seen ++ [(m, j)]) r := by
  have hseen : ∀ m' i, (m', i) ∈ seen ++ [(m, j)] ↔ (m', i) ∈ seen := by
    intro m' i
    rw [List.mem_append, List.mem_singleton, or_iff_left_of_imp]
    rintro ⟨⟩
    exact hmem
  refine ⟨h.invariant, fun key a ha => ?_, fun m' hm' hlookup i hi => ?_⟩
  · obtain ⟨m', hm', hkey, hcollects⟩ := h.entry key a ha
    exact ⟨m', hm', hkey, hcollects.congr fun i => hseen m' i⟩
  · have hgone := h.gone m' hm' hlookup i ((hseen m' i).mp hi)
    exact fun k hk => (hseen m' k).mpr (hgone k hk)

/-- A segment with a chunk of the family is stored, or completes its message, or is a repetition. -/
theorem SegmentOutcome.tracks (hfamily : Family messages) (h : Tracks messages seen r)
    (hm : m ∈ messages) (hmissing : ∃ i < m.chunks.length, (m, i) ∉ seen)
    (hs : m.Reads j c s) (hc : m.chunks[j]? = some c)
    {res : Except RelayError (Option Value) × ServerMessageReassembler}
    (hres : SegmentOutcome C r s res) :
    Tracks messages (seen ++ [(m, j)]) res.2 ∧ m.Answers (seen ++ [(m, j)]) res.1 := by
  have hinvariant := hres.invariant h.invariant
  have htargets := fun {a} (ha : r.Targets s a) =>
    h.collects_of_targets hfamily hm hmissing hs ha
  cases hres with
  | full hlookup hsize =>
    rw [hs.key_eq] at hlookup
    exact absurd (h.size_lt hfamily hm hlookup) (Nat.not_lt_of_le hsize)
  | changedMetadata a ha hmatch =>
    have hcollects := htargets (Or.inl ha)
    refine absurd ⟨?_, ?_⟩ hmatch
    · rw [hcollects.length_eq, hs.segmentCount_eq]
    · rw [hcollects.size_eq, hs.messageSize_eq]
  | changedChunk a ha existing hslot hne =>
    rw [hs.segmentId_eq] at hslot
    rcases (htargets (Or.inl ha)).slot_eq j c hc with ⟨hslot', -⟩ | ⟨hslot', -⟩
    · rw [hslot] at hslot'
      exact absurd (by simpa [hs.chunk_eq] using hslot') hne
    · rw [hslot] at hslot'
      simp at hslot'
  | overLimit a ha hslot hfits =>
    exact absurd (h.fits hfamily hm hs hc ha (htargets ha) hslot) hfits
  | repeated a ha _ hslot =>
    have hcollects := htargets (Or.inl ha)
    rw [hs.segmentId_eq] at hslot
    rcases hcollects.slot_eq j c hc with ⟨-, hmem⟩ | ⟨hslot', -⟩
    · have hrepeat := h.repeat hmem
      rw [hs.key_eq] at ha
      exact ⟨hrepeat, Or.inr ⟨hrepeat.missing (hrepeat.collects hfamily hm ha) ha, rfl⟩⟩
    · rw [hslot] at hslot'
      simp at hslot'
  | stored a ha _ _ _ hnone =>
    have hstore := (htargets ha).store hs hc
    rw [hs.key_eq] at hinvariant ⊢
    refine ⟨⟨hinvariant, fun key e he => h.entry_insert hm hstore he, ?_⟩, Or.inr ⟨?_, rfl⟩⟩
    · intro m' hm' hlookup i hi
      have hne : m' ≠ m := by
        rintro rfl
        simp at hlookup
      have hkey : m'.key ≠ m.key := fun heq => hne (hfamily.eq_of_key_eq hm' hm heq)
      rw [AList.lookup_insert_ne hkey] at hlookup
      exact h.gone_of_ne hm' hne hlookup hi
    · by_contra hall
      refine absurd hnone (hstore.none_notMem_iff.mpr fun i hi => ?_)
      by_contra hnot
      exact hall ⟨i, hi, hnot⟩
  | completed a ha _ _ _ hnone =>
    have hstore := (htargets ha).store hs hc
    have hall := hstore.none_notMem_iff.mp hnone
    rw [hs.key_eq] at hinvariant ⊢
    refine ⟨⟨hinvariant, fun key e he => ?_, fun m' hm' hlookup i hi => ?_⟩,
      Or.inl ⟨hall, hstore.completeMessage_eq hnone⟩⟩
    · obtain ⟨hne, he⟩ := Table.lookup_erase_eq_some_iff.mp he
      exact h.entry_of_ne hne he
    · by_cases hne : m' = m
      · subst hne
        exact hall
      · have hkey : m'.key ≠ m.key := fun heq => hne (hfamily.eq_of_key_eq hm' hm heq)
        rw [AList.lookup_erase_ne hkey] at hlookup
        exact h.gone_of_ne hm' hne hlookup hi

/-- One arrival. -/
theorem Tracks.arrival (hdecode : ∀ bytes, C.decode (C.encode bytes) = some bytes)
    (hfamily : Family messages) (h : Tracks messages seen r) (hm : m ∈ messages)
    (hmissing : ∃ i < m.chunks.length, (m, i) ∉ seen) (hj : j < m.chunks.length)
    {res : Except RelayError (Option Value) × ServerMessageReassembler}
    (hres : EnvelopeOutcome C r (m.envelope j) res) :
    Tracks messages (seen ++ [(m, j)]) res.2 ∧ m.Answers (seen ++ [(m, j)]) res.1 := by
  have hc := List.getElem?_eq_getElem hj
  obtain ⟨s, hread, hs⟩ := m.exists_reads hdecode (hfamily.size_le_of_mem hm) hc
  cases hres with
  | passed hkind => exact absurd (m.kind_envelope j) hkind
  | malformed _ error herror =>
    rw [readSegment_eq_ok_iff.mpr hread] at herror
    simp at herror
  | segment _ s' hread' _ hres =>
    obtain rfl := hread.unique hread'
    exact SegmentOutcome.tracks hfamily h hm hmissing hs hc hres

end Arrival

/-! ### All arrivals -/

section Arrivals

variable {C : Codec} {clientId envId streamId : String}
  {messages : List (CutMessage C clientId envId streamId)}
  {arrivals : List (CutMessage C clientId envId streamId × ℕ)}

/-- The envelopes that arrive. -/
def envelopesOf (arrivals : List (CutMessage C clientId envId streamId × ℕ)) : List Value :=
  arrivals.map fun p => p.1.envelope p.2

/-- The empty table tracks the arrivals before the first. -/
theorem tracks_nil (messages : List (CutMessage C clientId envId streamId)) :
    Tracks messages [] .empty where
  invariant := invariant_empty
  entry := fun key a ha => by
    rw [empty, AList.lookup_empty] at ha
    simp at ha
  gone := fun m _ _ j hj => by simp at hj

/-- After the first arrivals the table tracks them. -/
theorem tracks_final (hdecode : ∀ bytes, C.decode (C.encode bytes) = some bytes)
    (hfamily : Family messages) (harrives : Arrives messages arrivals)
    (pre post : List (CutMessage C clientId envId streamId × ℕ)) (hpre : arrivals = pre ++ post) :
    Tracks messages pre (Machine.final (observe C) .empty (envelopesOf pre)) := by
  induction pre using List.reverseRecOn generalizing post with
  | nil => exact tracks_nil messages
  | append_singleton pre p ih =>
    obtain ⟨m, j⟩ := p
    have hsplit : arrivals = pre ++ (m, j) :: post := by rw [hpre, List.append_assoc]; rfl
    have htracks := ih ((m, j) :: post) hsplit
    have hmem : (m, j) ∈ arrivals := by
      rw [hsplit]
      exact List.mem_append_right _ List.mem_cons_self
    obtain ⟨hm, hj⟩ := harrives.known m j hmem
    have hmissing := harrives.missing pre m j post hsplit
    rw [envelopesOf, List.map_append, List.map_cons, List.map_nil, Machine.final_concat]
    exact (htracks.arrival hdecode hfamily hm hmissing hj
      (observe_outcome htracks.invariant _)).1

/-- Each arrival is answered. -/
theorem answers_of_arrives (hdecode : ∀ bytes, C.decode (C.encode bytes) = some bytes)
    (hfamily : Family messages) (harrives : Arrives messages arrivals)
    {pre post : List (CutMessage C clientId envId streamId × ℕ)}
    {m : CutMessage C clientId envId streamId} {j : ℕ} (hsplit : arrivals = pre ++ (m, j) :: post) :
    m.Answers (pre ++ [(m, j)])
      ((Machine.final (observe C) .empty (envelopesOf pre)).observe C (m.envelope j)).1 := by
  have htracks := tracks_final hdecode hfamily harrives pre _ hsplit
  have hmem : (m, j) ∈ arrivals := by
    rw [hsplit]
    exact List.mem_append_right _ List.mem_cons_self
  obtain ⟨hm, hj⟩ := harrives.known m j hmem
  have hmissing := harrives.missing pre m j post hsplit
  exact (htracks.arrival hdecode hfamily hm hmissing hj (observe_outcome htracks.invariant _)).2

/-- When everything arrived the table is empty. -/
theorem final_eq_empty (hdecode : ∀ bytes, C.decode (C.encode bytes) = some bytes)
    (hfamily : Family messages) (harrives : Arrives messages arrivals) :
    Machine.final (observe C) .empty (envelopesOf arrivals) = .empty := by
  have htracks := tracks_final hdecode hfamily harrives arrivals [] (List.append_nil _).symm
  have hassemblies : (Machine.final (observe C) .empty (envelopesOf arrivals)).assemblies = ∅ := by
    refine Table.eq_empty_of_lookup_eq_none fun key => Option.eq_none_iff_forall_not_mem.mpr ?_
    intro a ha
    obtain ⟨m, hm, rfl, hcollects⟩ := htracks.entry key a ha
    obtain ⟨i, hi, hnot⟩ := htracks.missing hcollects ha
    exact hnot (harrives.all m hm i hi)
  ext1
  · exact hassemblies
  · rw [htracks.invariant.buffered_eq, hassemblies]
    rfl

/-- Some arrival is that of the last missing chunk of a message. -/
theorem exists_last_missing {m : CutMessage C clientId envId streamId}
    (hall : ∀ i < m.chunks.length, (m, i) ∈ arrivals) :
    ∃ pre j post, arrivals = pre ++ (m, j) :: post ∧
      ∀ i < m.chunks.length, (m, i) ∈ pre ++ [(m, j)] := by
  induction arrivals using List.reverseRecOn with
  | nil =>
    have hpos : 0 < m.chunks.length := by
      have htwo := m.two_le_count
      omega
    exact absurd (hall 0 hpos) List.not_mem_nil
  | append_singleton es p ih =>
    by_cases hbefore : ∀ i < m.chunks.length, (m, i) ∈ es
    · obtain ⟨pre, j, post, rfl, hcomplete⟩ := ih hbefore
      exact ⟨pre, j, post ++ [p], by simp, hcomplete⟩
    · obtain ⟨i, hi⟩ := not_forall.mp hbefore
      obtain ⟨hi, hnot⟩ := Classical.not_imp.mp hi
      -- the chunk that was missing before is the one that arrived
      have hp : p = (m, i) := by
        rcases List.mem_append.mp (hall i hi) with hmem | hmem
        · exact absurd hmem hnot
        · exact (List.mem_singleton.mp hmem).symm
      subst hp
      exact ⟨es, i, [], rfl, hall⟩

/-- What arrived before an arrival and with it arrived before any later one. -/
theorem mem_of_length_lt {ε : Type*} {es pre post pre' post' : List ε} {e e' : ε}
    (h : es = pre ++ e :: post) (h' : es = pre' ++ e' :: post')
    (hlt : pre.length < pre'.length) {x : ε} (hx : x ∈ pre ++ [e]) : x ∈ pre' := by
  have hlength : (pre ++ [e]).length = pre.length + 1 := by simp
  have htake : pre ++ [e] = es.take (pre.length + 1) := by
    rw [h, List.append_cons pre e post, ← hlength, List.take_left]
  have htake' : pre' = es.take pre'.length := by
    rw [h', List.take_left]
  rw [htake']
  exact List.take_subset_take_left es hlt (htake ▸ hx)

/-- A message is complete at one arrival only. -/
theorem Arrives.complete_once (harrives : Arrives messages arrivals)
    {m : CutMessage C clientId envId streamId}
    {pre post pre' post' : List (CutMessage C clientId envId streamId × ℕ)} {j j' : ℕ}
    (h : arrivals = pre ++ (m, j) :: post) (h' : arrivals = pre' ++ (m, j') :: post')
    (hall : ∀ i < m.chunks.length, (m, i) ∈ pre ++ [(m, j)])
    (hall' : ∀ i < m.chunks.length, (m, i) ∈ pre' ++ [(m, j')]) : pre.length = pre'.length := by
  rcases Nat.lt_trichotomy pre.length pre'.length with hlt | heq | hlt
  · obtain ⟨i, hi, hnot⟩ := harrives.missing pre' m j' post' h'
    exact absurd (mem_of_length_lt h h' hlt (hall i hi)) hnot
  · exact heq
  · obtain ⟨i, hi, hnot⟩ := harrives.missing pre m j post h
    exact absurd (mem_of_length_lt h' h hlt (hall' i hi)) hnot

/-- The envelopes of a family arrive in any order, repeated any number of times before their message
is complete: each arrival returns the message if it was its last missing chunk and nothing
otherwise, each message is returned exactly once, with its body and the members its envelopes agree
on, and the table ends empty. -/
theorem reassembly_complete (hdecode : ∀ bytes, C.decode (C.encode bytes) = some bytes)
    (hfamily : Family messages) (harrives : Arrives messages arrivals) :
    (∀ pre m j post, arrivals = pre ++ (m, j) :: post →
      ∃ result, (Machine.outputs (observe C) .empty (envelopesOf arrivals))[pre.length]? =
        some result ∧ m.Answers (pre ++ [(m, j)]) result) ∧
    (∀ m ∈ messages, ∃! n : ℕ, ∃ j : ℕ, arrivals[n]? = some (m, j) ∧
      (Machine.outputs (observe C) .empty (envelopesOf arrivals))[n]? =
        some (Except.ok (some m.complete))) ∧
    (∀ m ∈ messages, m.complete.get "type" = some (.string "server_message") ∧
      m.complete.get "message" = some (.object m.body) ∧
      ∀ field ∈ completeFields, m.complete.get field = Map.get m.shared field) ∧
    Machine.final (observe C) .empty (envelopesOf arrivals) = .empty := by
  have hanswers : ∀ pre m j post, arrivals = pre ++ (m, j) :: post →
      ∃ result, (Machine.outputs (observe C) .empty (envelopesOf arrivals))[pre.length]? =
        some result ∧ m.Answers (pre ++ [(m, j)]) result := by
    intro pre m j post hsplit
    refine ⟨_, ?_, answers_of_arrives hdecode hfamily harrives hsplit⟩
    have houtput := Machine.getElem?_outputs (observe C) .empty (envelopesOf pre) (m.envelope j)
      (envelopesOf post)
    rw [hsplit]
    simpa [envelopesOf] using houtput
  refine ⟨hanswers, fun m hm => ?_, fun m _ => m.get_complete,
    final_eq_empty hdecode hfamily harrives⟩
  obtain ⟨pre, j, post, hsplit, hall⟩ := exists_last_missing (harrives.all m hm)
  obtain ⟨result, houtput, hresult⟩ := hanswers pre m j post hsplit
  refine ⟨pre.length, ⟨j, ?_, ?_⟩, ?_⟩
  · rw [hsplit, List.getElem?_append_right le_rfl, Nat.sub_self, List.getElem?_cons_zero]
  · rcases hresult with ⟨-, rfl⟩ | ⟨⟨i, hi, hnot⟩, -⟩
    · exact houtput
    · exact absurd (hall i hi) hnot
  · intro n h
    obtain ⟨j', harrival, houtput'⟩ := h
    obtain ⟨hn, hget⟩ := List.getElem?_eq_some_iff.mp harrival
    have hsplit' : arrivals = arrivals.take n ++ (m, j') :: arrivals.drop (n + 1) := by
      rw [← hget, List.getElem_cons_drop, List.take_append_drop]
    have hlength : (arrivals.take n).length = n := List.length_take_of_le hn.le
    obtain ⟨result', houtput'', hresult'⟩ := hanswers _ m j' _ hsplit'
    rw [hlength, houtput'] at houtput''
    cases houtput''
    rcases hresult' with ⟨hall', -⟩ | ⟨-, hnone⟩
    · rw [← hlength]
      exact harrives.complete_once hsplit' hsplit hall' hall
    · cases hnone

end Arrivals

/-- What the two chunks of the first or the second message agree on. -/
def halvesShared (second : Bool) : Map :=
  [("client_id", .string "client"), ("cursor", .string "next"), ("env_id", .string "env"),
    ("message_size_bytes", .ofU64 2), ("segment_count", .ofU64 2),
    ("seq_id", .ofU64 (if second then 2 else 1)), ("skip_history", .bool false),
    ("stream_id", .string "stream"), ("type", .string "server_message_chunk")]

/-- The first or the second message: `{}` in two chunks of one byte. -/
def halves (second : Bool) : CutMessage emptyObjectCodec "client" "env" "stream" where
  seqId := if second then 2 else 1
  chunks := [[123], [125]]
  body := []
  shared := halvesShared second
  frame := fun j => Map.insert (Map.insert (halvesShared second) "segment_id" (.ofU64 (.ofNat j)))
    "message_chunk_base64" (.string (Base64.encode (([[123], [125]] : List Bytes).getD j [])))
  two_le_count := by decide
  count_le := by decide
  chunk_ne_nil := by decide
  parse := by decide +kernel
  type_eq := by cases second <;> decide +kernel
  client_id_eq := by cases second <;> decide +kernel
  identifies := by
    cases second
    · exact ⟨by decide +kernel, by decide +kernel, by decide +kernel⟩
    · exact ⟨by decide +kernel, by decide +kernel, by decide +kernel⟩
  segment_count_eq := by cases second <;> decide +kernel
  message_size_eq := by cases second <;> decide +kernel
  frame_eq := fun j field hid hchunk => by
    rw [Map.get_insert_of_ne _ _ hchunk, Map.get_insert_of_ne _ _ hid]
  segment_id_eq := fun j _ => by
    rw [Map.get_insert_of_ne _ _ (by decide), Map.get_insert_self]
  chunk_eq := fun j c hc => by
    rw [Map.get_insert_self, List.getD_eq_getElem?_getD, hc]
    rfl
  frame_le := by cases second <;> decide +kernel

/-- The two messages are told apart by their sequence numbers. -/
theorem halves_injective : Function.Injective halves := by
  intro second second' h
  have hseq := congrArg CutMessage.seqId h
  cases second <;> cases second' <;> simp_all [halves]

/-- There are no others. -/
theorem mem_halves (second : Bool) : halves second ∈ [halves false, halves true] := by
  cases second <;> simp

/-- Their halves arrive in turn, some of them twice. -/
def inTurn : List (Bool × ℕ) :=
  [(false, 1), (true, 0), (false, 1), (true, 0), (true, 1), (false, 0)]

/-- They may arrive so. -/
theorem arrives_inTurn : Arrives [halves false, halves true] (inTurn.map (Prod.map halves id)) := by
  have hmem : ∀ {l : List (Bool × ℕ)} {second j},
      (halves second, j) ∈ l.map (Prod.map halves id) → (second, j) ∈ l := by
    intro l second j hj
    obtain ⟨⟨second', j'⟩, hl, heq⟩ := List.mem_map.mp hj
    obtain ⟨hsecond, rfl⟩ := Prod.mk.inj heq
    rwa [← halves_injective hsecond]
  refine ⟨fun m j hj => ?_, fun m hm j hj => ?_, fun pre m j post hsplit => ?_⟩
  · obtain ⟨⟨second, j'⟩, hl, heq⟩ := List.mem_map.mp hj
    obtain ⟨rfl, rfl⟩ := Prod.mk.inj heq
    have htwo : ∀ arrival ∈ inTurn, arrival.2 < 2 := by decide
    exact ⟨mem_halves second, htwo _ hl⟩
  · have hall : ∀ second : Bool, ∀ j < 2, (second, j) ∈ inTurn := by decide
    obtain ⟨second, rfl⟩ : ∃ second, m = halves second := by
      rcases List.mem_cons.mp hm with rfl | hm
      · exact ⟨false, rfl⟩
      · exact ⟨true, List.mem_singleton.mp hm⟩
    exact List.mem_map_of_mem (f := Prod.map halves id) (hall second j hj)
  · obtain ⟨pre, rest, hlist, rfl, hrest⟩ := List.map_eq_append_iff.mp hsplit
    obtain ⟨⟨second, j'⟩, post, rfl, heq, rfl⟩ := List.map_eq_cons_iff.mp hrest
    obtain ⟨rfl, rfl⟩ := Prod.mk.inj heq
    have hmissing : ∀ n < inTurn.length, ∃ i < 2, ∀ arrival ∈ inTurn[n]?,
        (arrival.1, i) ∉ inTurn.take n := by decide
    have hlt : pre.length < inTurn.length := by
      rw [hlist, List.length_append, List.length_cons]
      omega
    obtain ⟨i, hi, hnot⟩ := hmissing pre.length hlt
    rw [hlist, List.getElem?_append_right le_rfl, Nat.sub_self, List.take_left] at hnot
    exact ⟨i, hi, fun h => hnot (second, j') (by simp) (hmem h)⟩

/-- Each message is returned once, and the table ends empty. -/
theorem reassembly_complete_halves :
    (∀ second, ∃! n : ℕ, ∃ j : ℕ,
      (inTurn.map (Prod.map halves id))[n]? = some (halves second, j) ∧
      (Machine.outputs (observe emptyObjectCodec) .empty
        (envelopesOf (inTurn.map (Prod.map halves id))))[n]? =
          some (Except.ok (some (halves second).complete))) ∧
    Machine.final (observe emptyObjectCodec) .empty
      (envelopesOf (inTurn.map (Prod.map halves id))) = .empty := by
  have hfamily : Family [halves false, halves true] := ⟨by decide, by decide, by decide⟩
  obtain ⟨-, honce, -, hempty⟩ := reassembly_complete (C := emptyObjectCodec)
    (lawful_plainCodec _).decode_encode hfamily arrives_inTurn
  exact ⟨fun second => honce _ (mem_halves second), hempty⟩

end Rcodex
