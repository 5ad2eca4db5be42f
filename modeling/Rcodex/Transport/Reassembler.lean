import Rcodex.Transport.Envelope
import Rcodex.Foundation.Slots
import Rcodex.Foundation.Table
import Rcodex.Foundation.Machine

/-!
# The reassembler of server messages

`ServerMessageReassembler.observe` collects the chunks of server messages.  It is modelled in the
three stages of the source: `readSegment` reads and checks the members of an envelope and touches
no state; `observeSegment` finds or opens the assembly of the segment and fills its slot;
`takeComplete` removes an assembly whose last slot was filled and `completeMessage` turns it into
a `server_message` envelope.

The saturating subtraction of the byte budget is an argument of `observeWith`, so that
`Representation.lean` can show that it never saturates.
The list of everything one segment can do to the table is `SegmentOutcome` there.
-/

namespace Rcodex

open Json Result

/-- A byte string. -/
abbrev Bytes := List UInt8

/-- A well-formed `server_message_chunk`: what the reassembler reads from its envelope before it
touches the table. -/
structure Segment where
  /-- The members of the envelope. -/
  object : Map
  /-- The position of the chunk. -/
  segmentId : ℕ
  /-- The number of chunks of the message. -/
  segmentCount : ℕ
  /-- The length of the message. -/
  messageSize : ℕ
  /-- The key of the assembly the chunk belongs to. -/
  key : String
  /-- The decoded chunk. -/
  chunk : Bytes
  /-- A message has at least two chunks. -/
  two_le_count : 2 ≤ segmentCount
  /-- A message has at most `MAX_SEGMENTS` chunks. -/
  count_le : segmentCount ≤ maxSegments
  /-- The position is one of the message. -/
  id_lt : segmentId < segmentCount
  /-- The message is not empty. -/
  size_pos : 0 < messageSize
  /-- The message has at most `MAX_MESSAGE_BYTES`. -/
  size_le : messageSize ≤ maxMessageBytes
  /-- The chunk is not empty. -/
  chunk_ne_nil : chunk ≠ []
  /-- The chunk fits the message. -/
  chunk_le : chunk.length ≤ messageSize

/-- A message being collected. -/
structure Assembly where
  /-- The chunks received so far. -/
  chunks : List (Option Bytes)
  /-- The members of the envelope that opened the assembly. -/
  first : Map
  /-- The announced length of the message. -/
  messageSize : ℕ
  /-- The bytes received so far. -/
  receivedBytes : ℕ

/-- The table of messages being collected and the bytes it holds. -/
@[ext] structure ServerMessageReassembler where
  /-- The assemblies by key. -/
  assemblies : Table.Of String Assembly
  /-- The bytes in all assemblies. -/
  bufferedBytes : ℕ

/-- `ServerMessageReassembler::default()` -/
def ServerMessageReassembler.empty : ServerMessageReassembler := ⟨∅, 0⟩

/-! ### Reading an envelope -/

/-- The key of an assembly: `format!("{}:{}:{}", env_id, stream_id, seq_id)`. -/
def assemblyKey (envId streamId : String) (seqId : ℕ) : String :=
  envId ++ ":" ++ streamId ++ ":" ++ toString seqId

/-- On one host and stream the key determines the sequence number. -/
theorem eq_of_assemblyKey_eq {envId streamId : String} {m n : ℕ}
    (h : assemblyKey envId streamId m = assemblyKey envId streamId n) : m = n := by
  have hlists := congrArg String.toList h
  simp only [assemblyKey, String.toList_append, List.append_cancel_left_eq] at hlists
  have hdigits : Nat.toDigits 10 m = Nat.toDigits 10 n := by
    simpa [toString, Nat.repr] using hlists
  rw [← Nat.ofDigitChars_ten_toDigits (n := m), hdigits, Nat.ofDigitChars_ten_toDigits]

/-- The checks of `observe` before it touches the table. -/
def readSegment (C : Codec) (envelope : Value) : Except RelayError Segment := do
  let _ ← bailIf (maxFrameBytes < (C.toVec envelope).length) .segmentTooLarge
  let object ← orThrow .segmentNotObject envelope.asObject
  let segmentId ← usizeField object "segment_id"
  let segmentCount ← usizeField object "segment_count"
  let messageSize ← usizeField object "message_size_bytes"
  let ⟨hmeta⟩ ← bailIf (segmentCount ≤ 1 ∨ maxSegments < segmentCount ∨
    segmentCount ≤ segmentId ∨ messageSize = 0 ∨ maxMessageBytes < messageSize)
    .segmentMetadataInvalid
  let envId ← stringField object "env_id"
  let streamId ← stringField object "stream_id"
  let seqId ← usizeField object "seq_id"
  let text ← stringField object "message_chunk_base64"
  let chunk ← orThrow .segmentNotBase64 (C.decode text)
  let ⟨hchunk⟩ ← bailIf (chunk = [] ∨ messageSize < chunk.length) .decodedSizeInvalid
  return { object, segmentId, segmentCount, messageSize, key := assemblyKey envId streamId seqId,
           chunk,
           two_le_count := by omega, count_le := by omega, id_lt := by omega,
           size_pos := by omega, size_le := by omega,
           chunk_ne_nil := fun h => hchunk (Or.inl h), chunk_le := by omega }

/-- The members of an envelope that name its message: host, stream and sequence number. -/
structure Identifies (object : Map) (envId streamId : String) (seqId : UInt64) : Prop where
  /-- The host. -/
  env_id : Map.get object "env_id" = some (.string envId)
  /-- The stream. -/
  stream_id : Map.get object "stream_id" = some (.string streamId)
  /-- The sequence number. -/
  seq_id : Map.get object "seq_id" = some (.ofU64 seqId)

/-- An envelope names at most one message. -/
theorem Identifies.unique {object : Map} {env env' stream stream' : String} {seq seq' : UInt64}
    (h : Identifies object env stream seq) (h' : Identifies object env' stream' seq') :
    env = env' ∧ stream = stream' ∧ seq = seq' := by
  have henv := h.env_id.symm.trans h'.env_id
  have hstream := h.stream_id.symm.trans h'.stream_id
  have hseq := h.seq_id.symm.trans h'.seq_id
  simp only [Option.some.injEq, Value.string.injEq, Value.ofU64, Value.number.injEq,
    Number.posInt.injEq] at henv hstream hseq
  exact ⟨henv, hstream, hseq⟩

/-- The envelope of a segment: where each part of the segment is read from. -/
structure IsSegment (C : Codec) (envelope : Value) (s : Segment) : Prop where
  /-- The frame is within the limit. -/
  frame_le : (C.toVec envelope).length ≤ maxFrameBytes
  /-- The envelope is an object. -/
  envelope_eq : envelope = .object s.object
  /-- The position. -/
  segment_id : ∃ n : UInt64, Map.get s.object "segment_id" = some (.ofU64 n) ∧
    n.toNat = s.segmentId
  /-- The number of chunks. -/
  segment_count : ∃ n : UInt64, Map.get s.object "segment_count" = some (.ofU64 n) ∧
    n.toNat = s.segmentCount
  /-- The length of the message. -/
  message_size : ∃ n : UInt64, Map.get s.object "message_size_bytes" = some (.ofU64 n) ∧
    n.toNat = s.messageSize
  /-- The key names the message of the envelope. -/
  key_eq : ∃ env stream seq, Identifies s.object env stream seq ∧
    s.key = assemblyKey env stream seq.toNat
  /-- The chunk. -/
  chunk_eq : ∃ text, Map.get s.object "message_chunk_base64" = some (.string text) ∧
    C.decode text = some s.chunk

/-- The members of the segment are those of its envelope. -/
theorem IsSegment.get_eq {C : Codec} {envelope : Value} {s : Segment}
    (h : IsSegment C envelope s) (field : String) :
    envelope.get field = Map.get s.object field := by
  rw [h.envelope_eq, Value.get_object]

/-- Reading an envelope returns the segment it describes. -/
theorem readSegment_eq_ok_iff {C : Codec} {envelope : Value} {s : Segment} :
    readSegment C envelope = .ok s ↔ IsSegment C envelope s := by
  unfold readSegment
  simp only [bind_eq_ok_iff, exists_bailIf_iff, orThrow_eq_ok_iff, stringField_eq_ok_iff,
    usizeField_eq_ok_iff, Value.asObject_eq_some_iff, pure_eq_ok_iff]
  constructor
  · rintro ⟨hframe, object, rfl, _, ⟨id, hid, rfl⟩, _, ⟨count, hcount, rfl⟩, _,
      ⟨size, hsize, rfl⟩, hmeta, env, henv, stream, hstream, _, ⟨seq, hseq, rfl⟩, text, htext,
      chunk, hchunk, hlen, rfl⟩
    exact ⟨Nat.le_of_not_lt hframe, rfl, ⟨id, hid, rfl⟩, ⟨count, hcount, rfl⟩,
      ⟨size, hsize, rfl⟩, ⟨env, stream, seq, ⟨henv, hstream, hseq⟩, rfl⟩,
      ⟨text, htext, hchunk⟩⟩
  · rintro ⟨hframe, rfl, hid, hcount, hsize, ⟨env, stream, seq, hident, hkey⟩, text, htext,
      hchunk⟩
    obtain ⟨object, segmentId, segmentCount, messageSize, key, chunk, h₁, h₂, h₃, h₄, h₅, h₆,
      h₇⟩ := s
    obtain rfl : key = _ := hkey
    exact ⟨Nat.not_lt_of_le hframe, object, rfl, segmentId, hid, segmentCount, hcount,
      messageSize, hsize, by omega, env, hident.env_id, stream, hident.stream_id, seq.toNat,
      ⟨seq, hident.seq_id, rfl⟩, text, htext, chunk, hchunk,
      by rintro (h | h) <;> [exact h₆ h; omega], rfl⟩

/-- An envelope leads to one segment. -/
theorem IsSegment.unique {C : Codec} {envelope : Value} {s s' : Segment}
    (h : IsSegment C envelope s) (h' : IsSegment C envelope s') : s = s' := by
  have hread := readSegment_eq_ok_iff.mpr h
  rw [readSegment_eq_ok_iff.mpr h'] at hread
  exact (Except.ok.inj hread).symm

/-! ### Completing a message -/

/-- The members of the first chunk that the complete envelope keeps. -/
def completeFields : List String :=
  ["client_id", "seq_id", "stream_id", "cursor", "env_id", "skip_history"]

/-- Copy a member of the first chunk, if it has it. -/
def copyMember (first complete : Map) (field : String) : Map :=
  match Map.get first field with
  | some value => Map.insert complete field value
  | none => complete

/-- The `server_message` envelope around a reassembled message. -/
def completeEnvelope (first : Map) (message : Value) : Value :=
  let complete := completeFields.foldl (copyMember first) []
  .object (Map.insert (Map.insert complete "type" (.string "server_message")) "message" message)

/-- The last part of `observe`: check and parse the bytes of an assembly taken out of the
table. -/
def completeMessage (C : Codec) (assembly : Assembly) : Except RelayError (Option Value) := do
  let bytes := Slots.contents assembly.chunks
  let _ ← bailIf (bytes.length ≠ assembly.messageSize) .wrongSize
  let message ← orThrow .messageNotJson (C.fromSlice bytes)
  let _ ← bailIf (message.isObject = false) .messageNotObject
  return some (completeEnvelope assembly.first message)

/-- Copying members replaces the copied ones and leaves the others alone. -/
theorem get_foldl_copyMember (first : Map) (fields : List String) (m : Map) (field : String) :
    Map.get (fields.foldl (copyMember first) m) field =
      if field ∈ fields then (Map.get first field).or (Map.get m field) else Map.get m field := by
  induction fields generalizing m with
  | nil => simp
  | cons name fields ih =>
    have hcopy : Map.get (copyMember first m name) field =
        if field = name then (Map.get first field).or (Map.get m field) else Map.get m field := by
      unfold copyMember
      by_cases hname : field = name
      · subst hname
        cases Map.get first field <;> simp
      · cases h : Map.get first name <;> simp [Map.get_insert_of_ne, hname]
    rw [List.foldl_cons, ih, hcopy]
    by_cases hname : field = name
    · subst hname
      cases Map.get first field <;> simp
    · simp [hname]

/-- The members kept from the first chunk are its own; the others are the type and the
message. -/
theorem get_completeEnvelope {first : Map} {message : Value} {field : String} :
    (completeEnvelope first message).get field =
      if field = "message" then some message
      else if field = "type" then some (.string "server_message")
      else if field ∈ completeFields then Map.get first field
      else none := by
  unfold completeEnvelope
  rw [Value.get_object]
  by_cases hmessage : field = "message"
  · simp [hmessage]
  rw [Map.get_insert_of_ne _ _ hmessage, if_neg hmessage]
  by_cases htype : field = "type"
  · simp [htype]
  rw [Map.get_insert_of_ne _ _ htype, if_neg htype, get_foldl_copyMember]
  simp

/-- Two first chunks with the same kept members give the same envelope. -/
theorem completeEnvelope_congr {first first' : Map} {message : Value}
    (h : ∀ field ∈ completeFields, Map.get first field = Map.get first' field) :
    completeEnvelope first message = completeEnvelope first' message := by
  have hcopy : ∀ fields : List String, (∀ field ∈ fields, field ∈ completeFields) → ∀ m,
      fields.foldl (copyMember first) m = fields.foldl (copyMember first') m := by
    intro fields
    induction fields with
    | nil => exact fun _ _ => rfl
    | cons name fields ih =>
      intro hmem m
      have hname : copyMember first m name = copyMember first' m name := by
        unfold copyMember
        rw [h name (hmem name List.mem_cons_self)]
      rw [List.foldl_cons, List.foldl_cons, hname,
        ih fun field hfield => hmem field (List.mem_cons_of_mem _ hfield)]
  unfold completeEnvelope
  rw [hcopy completeFields fun _ hfield => hfield]

/-- What a completed message is: its bytes have the announced length and parse to an object. -/
theorem completeMessage_eq_ok_iff {C : Codec} {a : Assembly} {o : Option Value} :
    completeMessage C a = .ok o ↔
      (Slots.contents a.chunks).length = a.messageSize ∧
      ∃ body, C.fromSlice (Slots.contents a.chunks) = some (.object body) ∧
        o = some (completeEnvelope a.first (.object body)) := by
  unfold completeMessage
  simp only [bind_eq_ok_iff, exists_bailIf_iff, orThrow_eq_ok_iff, pure_eq_ok_iff, ne_eq,
    not_not, exists_prop, Bool.not_eq_false]
  constructor
  · intro h
    obtain ⟨hlen, message, hparse, hobject, rfl⟩ := h
    cases message with
    | object body => exact ⟨hlen, body, hparse, rfl⟩
    | _ => simp [Value.isObject] at hobject
  · intro h
    obtain ⟨hlen, body, hparse, rfl⟩ := h
    exact ⟨hlen, .object body, hparse, rfl, rfl⟩

/-! ### The table -/

/-- The assembly a segment opens. -/
def Assembly.opened (s : Segment) : Assembly where
  chunks := List.replicate s.segmentCount none
  first := s.object
  messageSize := s.messageSize
  receivedBytes := 0

/-- The assembly with a further slot filled. -/
def Assembly.store (a : Assembly) (s : Segment) : Assembly :=
  { a with
    chunks := a.chunks.set s.segmentId (some s.chunk)
    receivedBytes := a.receivedBytes + s.chunk.length }

namespace ServerMessageReassembler

/-- `remove_assembly`, with the given saturating subtraction. -/
def removeAssembly (sub : ℕ → ℕ → ℕ) (r : ServerMessageReassembler) (key : String) :
    ServerMessageReassembler :=
  match r.assemblies.lookup key with
  | some assembly => ⟨r.assemblies.erase key, sub r.bufferedBytes assembly.receivedBytes⟩
  | none => r

/-- Take a complete assembly out of the table; `expect("assembly exists")` panics when there is
none. -/
def takeComplete (sub : ℕ → ℕ → ℕ) (C : Codec) (r : ServerMessageReassembler) (key : String) :
    Except RelayError (Option Value) × ServerMessageReassembler :=
  match r.assemblies.lookup key with
  | some assembly =>
    (completeMessage C assembly,
      ⟨r.assemblies.erase key, sub r.bufferedBytes assembly.receivedBytes⟩)
  | none => (.error .assemblyMissing, r)

/-- Wait for more chunks, or take the assembly out when it has them all. -/
def takeIfComplete (sub : ℕ → ℕ → ℕ) (C : Codec) (r : ServerMessageReassembler) (key : String)
    (assembly : Assembly) : Except RelayError (Option Value) × ServerMessageReassembler :=
  if none ∈ assembly.chunks then (.ok none, r) else r.takeComplete sub C key

/-- The part of `observe` that works on the table. -/
def observeSegment (sub : ℕ → ℕ → ℕ) (C : Codec) (r : ServerMessageReassembler) (s : Segment) :
    Except RelayError (Option Value) × ServerMessageReassembler :=
  if s.key ∉ r.assemblies ∧ maxConcurrentAssemblies ≤ Table.size r.assemblies then
    (.error .tooManyIncomplete, r)
  else
    -- `entry(key).or_insert_with(..)`
    let assembly := (r.assemblies.lookup s.key).getD (Assembly.opened s)
    let r := if s.key ∈ r.assemblies then r
      else ⟨r.assemblies.insert s.key assembly, r.bufferedBytes⟩
    if assembly.chunks.length ≠ s.segmentCount ∨ assembly.messageSize ≠ s.messageSize then
      (.error .metadataChanged, r.removeAssembly sub s.key)
    else
      match assembly.chunks[s.segmentId]? with
      | none => (.error .slotOutOfRange, r)
      | some (some existing) =>
        if existing ≠ s.chunk then (.error .segmentChanged, r.removeAssembly sub s.key)
        else r.takeIfComplete sub C s.key assembly
      | some none =>
        if assembly.messageSize < saturatingAdd assembly.receivedBytes s.chunk.length ∨
            maxBufferedAssemblyBytes < saturatingAdd r.bufferedBytes s.chunk.length then
          (.error .reassemblyLimit, r.removeAssembly sub s.key)
        else
          let assembly := assembly.store s
          let r : ServerMessageReassembler :=
            ⟨r.assemblies.insert s.key assembly, r.bufferedBytes + s.chunk.length⟩
          r.takeIfComplete sub C s.key assembly

/-- `ServerMessageReassembler::observe`, with the given saturating subtraction. -/
def observeWith (sub : ℕ → ℕ → ℕ) (C : Codec) (r : ServerMessageReassembler) (envelope : Value) :
    Except RelayError (Option Value) × ServerMessageReassembler :=
  if kind envelope ≠ some "server_message_chunk" then (.ok (some envelope), r)
  else
    match readSegment C envelope with
    | .error error => (.error error, r)
    | .ok s => r.observeSegment sub C s

/-- `ServerMessageReassembler::observe`; `usize::saturating_sub` is the subtraction of natural
numbers. -/
def observe (C : Codec) (r : ServerMessageReassembler) (envelope : Value) :
    Except RelayError (Option Value) × ServerMessageReassembler :=
  r.observeWith Nat.sub C envelope

end ServerMessageReassembler

end Rcodex
