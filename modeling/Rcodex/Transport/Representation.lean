import Rcodex.Transport.Reassembler

/-!
# The representation invariant of the reassembler

`ServerMessageReassembler.Invariant` bounds the table and ties the two byte counters to the filled
slots.  `observeSegment_outcome` lists what a segment does to a table with the invariant, one
constructor of `SegmentOutcome` for each exit of the source; the later modules reason from that
list and never unfold `observe`.  The invariant holds after every sequence of envelopes
(`invariant_final`), and on such tables the panics of the source are unreachable and its
saturating subtraction is exact.
-/

namespace Rcodex

open Json

/-- An assembly in the table: its counters describe its slots, and it is neither empty nor
complete. -/
structure Assembly.WellFormed (a : Assembly) : Prop where
  /-- At least two slots. -/
  two_le : 2 ≤ a.chunks.length
  /-- At most `MAX_SEGMENTS` slots. -/
  length_le : a.chunks.length ≤ maxSegments
  /-- `received_bytes` counts the filled slots. -/
  received_eq : a.receivedBytes = Slots.weight a.chunks
  /-- No more bytes than announced. -/
  received_le : a.receivedBytes ≤ a.messageSize
  /-- Some slot is filled. -/
  filled : ∃ c, some c ∈ a.chunks
  /-- Some slot is empty. -/
  empty : none ∈ a.chunks

/-- The representation invariant of the table. -/
structure ServerMessageReassembler.Invariant (r : ServerMessageReassembler) : Prop where
  /-- At most eight assemblies. -/
  size_le : Table.size r.assemblies ≤ maxConcurrentAssemblies
  /-- `buffered_bytes` is the sum over the assemblies. -/
  buffered_eq : r.bufferedBytes = Table.total Assembly.receivedBytes r.assemblies
  /-- The byte budget is kept. -/
  buffered_le : r.bufferedBytes ≤ maxBufferedAssemblyBytes
  /-- Every assembly is well formed. -/
  wellFormed : ∀ key a, r.assemblies.lookup key = some a → a.WellFormed

namespace ServerMessageReassembler

/-- The table without an assembly and without its bytes. -/
def dropped (r : ServerMessageReassembler) (key : String) : ServerMessageReassembler :=
  r.removeAssembly Nat.sub key

/-- The assembly a segment goes to: the one under its key or, when the table has room, a new
one. -/
def Targets (r : ServerMessageReassembler) (s : Segment) (a : Assembly) : Prop :=
  r.assemblies.lookup s.key = some a ∨
    r.assemblies.lookup s.key = none ∧ Table.size r.assemblies < maxConcurrentAssemblies ∧
      a = Assembly.opened s

end ServerMessageReassembler

/-- A segment agrees with an assembly on the number of chunks and the length of the message. -/
def Segment.Matches (s : Segment) (a : Assembly) : Prop :=
  a.chunks.length = s.segmentCount ∧ a.messageSize = s.messageSize

instance (s : Segment) (a : Assembly) : Decidable (s.Matches a) :=
  inferInstanceAs (Decidable (_ ∧ _))

/-- A chunk fits an assembly and the byte budget. -/
def Segment.Fits (s : Segment) (r : ServerMessageReassembler) (a : Assembly) : Prop :=
  a.receivedBytes + s.chunk.length ≤ a.messageSize ∧
    r.bufferedBytes + s.chunk.length ≤ maxBufferedAssemblyBytes

/-- Everything a segment can do to the table, one constructor for each exit of the source. -/
inductive SegmentOutcome (C : Codec) (r : ServerMessageReassembler) (s : Segment) :
    Except RelayError (Option Value) × ServerMessageReassembler → Prop
  /-- There is no room for a new assembly. -/
  | full (hkey : r.assemblies.lookup s.key = none)
      (hsize : maxConcurrentAssemblies ≤ Table.size r.assemblies) :
      SegmentOutcome C r s (.error .tooManyIncomplete, r)
  /-- The number of chunks or the length of the message changed. -/
  | changedMetadata (a : Assembly) (ha : r.assemblies.lookup s.key = some a)
      (hmatch : ¬ s.Matches a) :
      SegmentOutcome C r s (.error .metadataChanged, r.dropped s.key)
  /-- The slot holds other bytes. -/
  | changedChunk (a : Assembly) (ha : r.assemblies.lookup s.key = some a)
      (existing : Bytes) (hslot : a.chunks[s.segmentId]? = some (some existing))
      (hne : existing ≠ s.chunk) :
      SegmentOutcome C r s (.error .segmentChanged, r.dropped s.key)
  /-- The chunk exceeds the announced length or the byte budget. -/
  | overLimit (a : Assembly) (ha : r.Targets s a) (hslot : a.chunks[s.segmentId]? = some none)
      (hfits : ¬ s.Fits r a) :
      SegmentOutcome C r s (.error .reassemblyLimit, r.dropped s.key)
  /-- The slot already holds the chunk. -/
  | repeated (a : Assembly) (ha : r.assemblies.lookup s.key = some a) (hmatch : s.Matches a)
      (hslot : a.chunks[s.segmentId]? = some (some s.chunk)) :
      SegmentOutcome C r s (.ok none, r)
  /-- The chunk is stored and others are missing. -/
  | stored (a : Assembly) (ha : r.Targets s a) (hmatch : s.Matches a)
      (hslot : a.chunks[s.segmentId]? = some none) (hfits : s.Fits r a)
      (hnone : none ∈ (a.store s).chunks) :
      SegmentOutcome C r s (.ok none,
        ⟨r.assemblies.insert s.key (a.store s), r.bufferedBytes + s.chunk.length⟩)
  /-- The chunk was the last one. -/
  | completed (a : Assembly) (ha : r.Targets s a) (hmatch : s.Matches a)
      (hslot : a.chunks[s.segmentId]? = some none) (hfits : s.Fits r a)
      (hnone : none ∉ (a.store s).chunks) :
      SegmentOutcome C r s (completeMessage C (a.store s),
        ⟨r.assemblies.erase s.key, r.bufferedBytes - a.receivedBytes⟩)

/-- The slot of a matching segment is in range. -/
theorem Segment.Matches.id_lt {s : Segment} {a : Assembly} (h : s.Matches a) :
    s.segmentId < a.chunks.length :=
  h.1 ▸ s.id_lt

/-- Storing the chunk does not change what it is compared with. -/
theorem Segment.Matches.store {s : Segment} {a : Assembly} (h : s.Matches a) :
    s.Matches (a.store s) :=
  ⟨by rw [Assembly.store, List.length_set, h.1], h.2⟩

/-- A new assembly matches the segment that opens it. -/
theorem Segment.matches_opened (s : Segment) : s.Matches (Assembly.opened s) := by
  simp [Segment.Matches, Assembly.opened]

/-- Every slot of a new assembly is empty. -/
theorem Assembly.getElem?_opened (s : Segment) :
    (Assembly.opened s).chunks[s.segmentId]? = some none := by
  simp [Assembly.opened, s.id_lt]

/-- For a matching assembly the saturating comparisons of the source are exact. -/
theorem Segment.fits_iff {s : Segment} {r : ServerMessageReassembler} {a : Assembly}
    (hmatch : s.Matches a) :
    s.Fits r a ↔ ¬ (a.messageSize < saturatingAdd a.receivedBytes s.chunk.length ∨
      maxBufferedAssemblyBytes < saturatingAdd r.bufferedBytes s.chunk.length) := by
  have hsize : a.messageSize < 2 ^ 64 - 1 := by
    have := s.size_le
    rw [hmatch.2]
    unfold maxMessageBytes at this
    omega
  have hbuffer : maxBufferedAssemblyBytes < 2 ^ 64 - 1 := by decide
  rw [not_or, Nat.not_lt, Nat.not_lt, saturatingAdd_le_iff hsize, saturatingAdd_le_iff hbuffer]
  rfl

namespace ServerMessageReassembler

/-- Dropping an assembly that is not there changes nothing. -/
theorem dropped_of_lookup_eq_none {r : ServerMessageReassembler} {key : String}
    (h : r.assemblies.lookup key = none) : r.dropped key = r := by
  simp [dropped, removeAssembly, h]

/-- What is found after dropping an assembly. -/
theorem lookup_dropped_eq_some_iff {r : ServerMessageReassembler} {key k : String} {a : Assembly} :
    (r.dropped key).assemblies.lookup k = some a ↔ k ≠ key ∧ r.assemblies.lookup k = some a := by
  unfold dropped removeAssembly
  cases hlookup : r.assemblies.lookup key with
  | none =>
    refine ⟨fun h => ⟨?_, h⟩, fun h => h.2⟩
    rintro rfl
    simp [hlookup] at h
  | some b => exact Table.lookup_erase_eq_some_iff

/-- Dropping a new assembly that holds nothing gives the table before it was opened. -/
theorem removeAssembly_insert_opened {r : ServerMessageReassembler} {s : Segment}
    (h : r.assemblies.lookup s.key = none) :
    removeAssembly Nat.sub ⟨r.assemblies.insert s.key (Assembly.opened s), r.bufferedBytes⟩ s.key =
      r.dropped s.key := by
  rw [dropped_of_lookup_eq_none h]
  simp only [removeAssembly, AList.lookup_insert]
  ext1
  · rw [Table.erase_insert, Table.erase_of_lookup_eq_none h]
  · rfl

/-- The last part of `observe` after a chunk was stored. -/
theorem outcome_of_store {C : Codec} {r : ServerMessageReassembler} {s : Segment} {a : Assembly}
    (ha : r.Targets s a) (hmatch : s.Matches a) (hslot : a.chunks[s.segmentId]? = some none)
    (hfits : s.Fits r a) :
    SegmentOutcome C r s (takeIfComplete Nat.sub C
      ⟨r.assemblies.insert s.key (a.store s), r.bufferedBytes + s.chunk.length⟩ s.key
      (a.store s)) := by
  unfold takeIfComplete
  split_ifs with hnone
  · exact .stored a ha hmatch hslot hfits hnone
  · have hbytes : Nat.sub (r.bufferedBytes + s.chunk.length) (a.store s).receivedBytes =
        r.bufferedBytes - a.receivedBytes :=
      Nat.add_sub_add_right _ _ _
    simp only [takeComplete, AList.lookup_insert, Table.erase_insert, hbytes]
    exact .completed a ha hmatch hslot hfits hnone

/-- What a segment does to a table whose assemblies are well formed. -/
theorem observeSegment_outcome {C : Codec} {r : ServerMessageReassembler} (hr : r.Invariant)
    (s : Segment) : SegmentOutcome C r s (r.observeSegment Nat.sub C s) := by
  unfold observeSegment
  cases hlookup : r.assemblies.lookup s.key with
  | none =>
    have hkey : s.key ∉ r.assemblies := AList.lookup_eq_none.mp hlookup
    by_cases hsize : maxConcurrentAssemblies ≤ Table.size r.assemblies
    · rw [if_pos ⟨hkey, hsize⟩]
      exact .full hlookup hsize
    · have ha : r.Targets s (Assembly.opened s) :=
        Or.inr ⟨hlookup, Nat.lt_of_not_le hsize, rfl⟩
      have hmatch := s.matches_opened
      have hslot := Assembly.getElem?_opened s
      rw [if_neg fun h => hsize h.2]
      simp only [Option.getD_none, hkey, if_false]
      rw [if_neg (by simp [hmatch.1, hmatch.2]), hslot]
      by_cases hfits : s.Fits r (Assembly.opened s)
      · simp only [if_neg ((Segment.fits_iff hmatch).mp hfits), AList.insert_insert]
        exact outcome_of_store ha hmatch hslot hfits
      · simp only [if_pos (not_not.mp (mt (Segment.fits_iff hmatch).mpr hfits)),
          removeAssembly_insert_opened hlookup]
        exact .overLimit _ ha hslot hfits
  | some a =>
    have hkey : s.key ∈ r.assemblies := by
      rw [← AList.lookup_isSome, hlookup]
      rfl
    rw [if_neg fun h => h.1 hkey]
    simp only [Option.getD_some, hkey, if_true]
    by_cases hmatch : s.Matches a
    · rw [if_neg (by simp [hmatch.1, hmatch.2])]
      cases hslot : a.chunks[s.segmentId]? with
      | none => exact absurd hmatch.id_lt (by simpa using hslot)
      | some slot =>
        cases slot with
        | none =>
          by_cases hfits : s.Fits r a
          · simp only [if_neg ((Segment.fits_iff hmatch).mp hfits)]
            exact outcome_of_store (Or.inl hlookup) hmatch hslot hfits
          · simp only [if_pos (not_not.mp (mt (Segment.fits_iff hmatch).mpr hfits))]
            exact .overLimit a (Or.inl hlookup) hslot hfits
        | some existing =>
          by_cases hchunk : existing = s.chunk
          · subst hchunk
            have hnone : none ∈ a.chunks := (hr.wellFormed _ _ hlookup).empty
            simp only [ne_eq, not_true_eq_false, if_false, takeIfComplete, if_pos hnone]
            exact .repeated a hlookup hmatch hslot
          · simp only [ne_eq, hchunk, not_false_eq_true, if_true]
            exact .changedChunk a hlookup existing hslot hchunk
    · rw [if_pos (by simpa [Segment.Matches, imp_iff_not_or] using hmatch)]
      exact .changedMetadata a hlookup hmatch

/-! ### Preservation -/

/-- Under the invariant the buffered bytes are those of the segment's assembly and those of the
others. -/
theorem Targets.buffered_eq {r : ServerMessageReassembler} (hr : r.Invariant) {s : Segment}
    {a : Assembly} (ha : r.Targets s a) :
    r.bufferedBytes =
      a.receivedBytes + Table.total Assembly.receivedBytes (r.assemblies.erase s.key) := by
  rcases ha with hlookup | ⟨hlookup, -, rfl⟩
  · rw [hr.buffered_eq, Table.total_eq_add_erase _ hlookup]
  · rw [hr.buffered_eq, Table.erase_of_lookup_eq_none hlookup]
    simp [Assembly.opened]

/-- Removing an assembly together with its bytes keeps the invariant. -/
theorem Invariant.erase {r : ServerMessageReassembler} (hr : r.Invariant) {key : String} {n : ℕ}
    (hn : r.bufferedBytes = n + Table.total Assembly.receivedBytes (r.assemblies.erase key)) :
    Invariant ⟨r.assemblies.erase key, r.bufferedBytes - n⟩ where
  size_le := (Table.size_erase_le _ _).trans hr.size_le
  buffered_eq := by
    change r.bufferedBytes - n = Table.total Assembly.receivedBytes (r.assemblies.erase key)
    omega
  buffered_le := (Nat.sub_le _ _).trans hr.buffered_le
  wellFormed := fun k a h => hr.wellFormed k a (Table.lookup_erase_eq_some_iff.mp h).2

/-- Dropping an assembly keeps the invariant. -/
theorem Invariant.dropped {r : ServerMessageReassembler} (hr : r.Invariant) (key : String) :
    (r.dropped key).Invariant := by
  cases hlookup : r.assemblies.lookup key with
  | none => rwa [dropped_of_lookup_eq_none hlookup]
  | some a =>
    have hbytes := hr.buffered_eq
    rw [Table.total_eq_add_erase _ hlookup] at hbytes
    simpa [ServerMessageReassembler.dropped, removeAssembly, hlookup] using hr.erase hbytes

/-- The counters of the assembly a segment goes to are right, whether it is new or not. -/
theorem Targets.received_eq {r : ServerMessageReassembler} (hr : r.Invariant) {s : Segment}
    {a : Assembly} (ha : r.Targets s a) : a.receivedBytes = Slots.weight a.chunks := by
  rcases ha with hlookup | ⟨-, -, rfl⟩
  · exact (hr.wellFormed _ _ hlookup).received_eq
  · simp [Assembly.opened]

/-- An assembly that got a chunk and still waits for others is well formed. -/
theorem Targets.store_wellFormed {r : ServerMessageReassembler} (hr : r.Invariant) {s : Segment}
    {a : Assembly} (ha : r.Targets s a) (hmatch : s.Matches a)
    (hslot : a.chunks[s.segmentId]? = some none) (hfits : s.Fits r a)
    (hnone : none ∈ (a.store s).chunks) : (a.store s).WellFormed where
  two_le := by
    rw [Assembly.store, List.length_set, hmatch.1]
    exact s.two_le_count
  length_le := by
    rw [Assembly.store, List.length_set, hmatch.1]
    exact s.count_le
  received_eq := by
    simp only [Assembly.store]
    rw [Slots.weight_set hslot, ← ha.received_eq hr]
  received_le := hfits.1
  filled := ⟨s.chunk, List.mem_set hmatch.id_lt _⟩
  empty := hnone

/-- Storing a chunk keeps the number of assemblies within the limit. -/
theorem Targets.size_insert_le {r : ServerMessageReassembler} (hr : r.Invariant) {s : Segment}
    {a : Assembly} (ha : r.Targets s a) (b : Assembly) :
    Table.size (r.assemblies.insert s.key b) ≤ maxConcurrentAssemblies := by
  rcases ha with hlookup | ⟨hlookup, hsize, -⟩
  · rw [Table.size_insert_of_lookup_eq_some hlookup]
    exact hr.size_le
  · rw [Table.size_insert_of_lookup_eq_none hlookup]
    exact hsize

end ServerMessageReassembler

open ServerMessageReassembler

/-- A segment keeps the invariant, whatever becomes of it. -/
theorem SegmentOutcome.invariant {C : Codec} {r : ServerMessageReassembler} (hr : r.Invariant)
    {s : Segment} {res : Except RelayError (Option Value) × ServerMessageReassembler}
    (h : SegmentOutcome C r s res) : res.2.Invariant := by
  cases h with
  | full => exact hr
  | changedMetadata => exact hr.dropped s.key
  | changedChunk => exact hr.dropped s.key
  | overLimit => exact hr.dropped s.key
  | repeated => exact hr
  | stored a ha hmatch hslot hfits hnone =>
    refine ⟨ha.size_insert_le hr _, ?_, hfits.2, fun key b hb => ?_⟩
    · have hbytes := ha.buffered_eq hr
      rw [Table.total_insert]
      simp only [Assembly.store]
      omega
    · rcases Table.lookup_insert_eq_some_iff.mp hb with ⟨-, rfl⟩ | ⟨-, hb⟩
      · exact ha.store_wellFormed hr hmatch hslot hfits hnone
      · exact hr.wellFormed key b hb
  | completed a ha => exact hr.erase (ha.buffered_eq hr)

/-- A segment touches no assembly but the one under its key. -/
theorem SegmentOutcome.lookup_of_ne {C : Codec} {r : ServerMessageReassembler} {s : Segment}
    {res : Except RelayError (Option Value) × ServerMessageReassembler}
    (h : SegmentOutcome C r s res) {key : String} (hkey : key ≠ s.key) :
    res.2.assemblies.lookup key = r.assemblies.lookup key := by
  have hdropped : (r.dropped s.key).assemblies.lookup key = r.assemblies.lookup key := by
    ext a
    simp [lookup_dropped_eq_some_iff, hkey]
  cases h with
  | full => rfl
  | changedMetadata => exact hdropped
  | changedChunk => exact hdropped
  | overLimit => exact hdropped
  | repeated => rfl
  | stored => exact AList.lookup_insert_ne hkey
  | completed => exact AList.lookup_erase_ne hkey

/-- Completing a message does not panic. -/
theorem noPanic_completeMessage (C : Codec) (a : Assembly) : NoPanic (completeMessage C a) :=
  (noPanic_bailIf rfl).bind fun _ => (noPanic_orThrow rfl _).bind fun _ =>
    (noPanic_bailIf rfl).bind fun _ => noPanic_pure _

/-- Reading an envelope does not panic. -/
theorem noPanic_readSegment (C : Codec) (envelope : Value) : NoPanic (readSegment C envelope) :=
  (noPanic_bailIf rfl).bind fun _ => (noPanic_orThrow rfl _).bind fun _ =>
    (noPanic_usizeField _ _).bind fun _ => (noPanic_usizeField _ _).bind fun _ =>
    (noPanic_usizeField _ _).bind fun _ => (noPanic_bailIf rfl).bind fun _ =>
    (noPanic_stringField _ _).bind fun _ => (noPanic_stringField _ _).bind fun _ =>
    (noPanic_usizeField _ _).bind fun _ => (noPanic_stringField _ _).bind fun _ =>
    (noPanic_orThrow rfl _).bind fun _ => (noPanic_bailIf rfl).bind fun _ => noPanic_pure _

/-- No exit is a panic: the slot is in range and the complete assembly is there. -/
theorem SegmentOutcome.noPanic {C : Codec} {r : ServerMessageReassembler} {s : Segment}
    {res : Except RelayError (Option Value) × ServerMessageReassembler}
    (h : SegmentOutcome C r s res) : NoPanic res.1 := by
  intro error herror
  cases h with
  | full => cases herror; rfl
  | changedMetadata => cases herror; rfl
  | changedChunk => cases herror; rfl
  | overLimit => cases herror; rfl
  | repeated => simp at herror
  | stored => simp at herror
  | completed => exact noPanic_completeMessage _ _ _ herror

/-! ### Exact subtraction -/

section ExactSubtraction

variable {sub : ℕ → ℕ → ℕ} (hsub : ∀ m n, n ≤ m → sub m n = m - n)
include hsub

/-- On a table that holds the bytes of the assembly, removing it subtracts exactly. -/
theorem removeAssembly_eq {r : ServerMessageReassembler} {key : String}
    (hcover : ∀ a, r.assemblies.lookup key = some a → a.receivedBytes ≤ r.bufferedBytes) :
    r.removeAssembly sub key = r.removeAssembly Nat.sub key := by
  unfold removeAssembly
  cases hlookup : r.assemblies.lookup key with
  | none => rfl
  | some a =>
    simp only [hsub _ _ (hcover a hlookup)]
    rfl

/-- On a table that holds the bytes of the assembly, completing it subtracts exactly. -/
theorem takeIfComplete_eq {C : Codec} {r : ServerMessageReassembler} {key : String} {b : Assembly}
    (hcover : ∀ a, r.assemblies.lookup key = some a → a.receivedBytes ≤ r.bufferedBytes) :
    r.takeIfComplete sub C key b = r.takeIfComplete Nat.sub C key b := by
  unfold takeIfComplete takeComplete
  cases hlookup : r.assemblies.lookup key with
  | none => rfl
  | some a =>
    simp only [hsub _ _ (hcover a hlookup)]
    rfl

/-- Under the invariant no subtraction made for a segment saturates. -/
theorem observeSegment_eq {C : Codec} {r : ServerMessageReassembler} (hr : r.Invariant)
    (s : Segment) : r.observeSegment sub C s = r.observeSegment Nat.sub C s := by
  have hcover : ∀ a, r.assemblies.lookup s.key = some a → a.receivedBytes ≤ r.bufferedBytes := by
    intro a ha
    rw [hr.buffered_eq]
    exact Table.weight_le_total _ ha
  have hinsert : ∀ (t : Table.Of String Assembly) (b : Assembly) (n : ℕ), b.receivedBytes ≤ n →
      ∀ a, (t.insert s.key b).lookup s.key = some a → a.receivedBytes ≤ n := by
    intro t b n hb a ha
    rw [AList.lookup_insert] at ha
    cases ha
    exact hb
  unfold observeSegment
  cases hlookup : r.assemblies.lookup s.key with
  | none =>
    have hkey : s.key ∉ r.assemblies := AList.lookup_eq_none.mp hlookup
    have hopened := hinsert r.assemblies (Assembly.opened s) r.bufferedBytes (Nat.zero_le _)
    have hstored := hinsert (r.assemblies.insert s.key (Assembly.opened s))
      ((Assembly.opened s).store s) (r.bufferedBytes + s.chunk.length)
      (Nat.add_le_add_right (Nat.zero_le _) _)
    simp only [Option.getD_none, hkey, if_false]
    rw [removeAssembly_eq hsub hopened, takeIfComplete_eq hsub hopened,
      takeIfComplete_eq hsub hstored]
  | some a =>
    have hkey : s.key ∈ r.assemblies := by
      rw [← AList.lookup_isSome, hlookup]
      rfl
    have hstored := hinsert r.assemblies (a.store s) (r.bufferedBytes + s.chunk.length)
      (Nat.add_le_add_right (hcover a hlookup) _)
    simp only [Option.getD_some, hkey, if_true]
    rw [removeAssembly_eq hsub hcover, takeIfComplete_eq hsub hcover,
      takeIfComplete_eq hsub hstored]

/-- Under the invariant no subtraction of `observe` saturates. -/
theorem observeWith_eq_observe {C : Codec} {r : ServerMessageReassembler} (hr : r.Invariant)
    (envelope : Value) : r.observeWith sub C envelope = r.observe C envelope := by
  unfold observe observeWith
  split_ifs
  · rfl
  cases readSegment C envelope with
  | error error => rfl
  | ok s => exact observeSegment_eq hsub hr s

end ExactSubtraction

/-! ### One envelope -/

/-- The key an envelope names, when it has the three members. -/
def envelopeKey (envelope : Value) : Option String := do
  let envId ← (envelope.get "env_id").bind Value.asStr
  let streamId ← (envelope.get "stream_id").bind Value.asStr
  let seqId ← (envelope.get "seq_id").bind Value.asU64
  return assemblyKey envId streamId seqId.toNat

/-- A segment has the key its envelope names. -/
theorem IsSegment.envelopeKey_eq {C : Codec} {envelope : Value} {s : Segment}
    (h : IsSegment C envelope s) : envelopeKey envelope = some s.key := by
  obtain ⟨env, stream, seq, hident, hkey⟩ := h.key_eq
  rw [h.envelope_eq, hkey]
  simp [envelopeKey, hident.env_id, hident.stream_id, hident.seq_id]

/-- What an envelope does: it is passed on, it is refused before it reaches the table, or it is a
segment for the table. -/
inductive EnvelopeOutcome (C : Codec) (r : ServerMessageReassembler) (envelope : Value) :
    Except RelayError (Option Value) × ServerMessageReassembler → Prop
  /-- Not a chunk. -/
  | passed (hkind : kind envelope ≠ some "server_message_chunk") :
      EnvelopeOutcome C r envelope (.ok (some envelope), r)
  /-- A malformed chunk. -/
  | malformed (hkind : kind envelope = some "server_message_chunk") (error : RelayError)
      (hread : readSegment C envelope = .error error) :
      EnvelopeOutcome C r envelope (.error error, r)
  /-- A chunk. -/
  | segment (hkind : kind envelope = some "server_message_chunk") (s : Segment)
      (hread : IsSegment C envelope s)
      (res : Except RelayError (Option Value) × ServerMessageReassembler)
      (hres : SegmentOutcome C r s res) : EnvelopeOutcome C r envelope res

/-- What `observe` does to a table with the invariant. -/
theorem observe_outcome {C : Codec} {r : ServerMessageReassembler} (hr : r.Invariant)
    (envelope : Value) : EnvelopeOutcome C r envelope (r.observe C envelope) := by
  unfold observe observeWith
  split_ifs with hkind
  · exact .passed hkind
  · cases hread : readSegment C envelope with
    | error error => exact .malformed (not_not.mp hkind) error hread
    | ok s =>
      exact .segment (not_not.mp hkind) s (readSegment_eq_ok_iff.mp hread) _
        (observeSegment_outcome hr s)

section EnvelopeOutcome

variable {C : Codec} {r : ServerMessageReassembler} {envelope : Value}
  {res : Except RelayError (Option Value) × ServerMessageReassembler}

/-- An envelope keeps the invariant. -/
theorem EnvelopeOutcome.invariant (hr : r.Invariant) (h : EnvelopeOutcome C r envelope res) :
    res.2.Invariant := by
  cases h with
  | passed => exact hr
  | malformed => exact hr
  | segment _ _ _ _ hres => exact hres.invariant hr

/-- An envelope touches no assembly but the one it names. -/
theorem EnvelopeOutcome.lookup_of_ne (h : EnvelopeOutcome C r envelope res) {key : String}
    (hkey : envelopeKey envelope ≠ some key) :
    res.2.assemblies.lookup key = r.assemblies.lookup key := by
  cases h with
  | passed => rfl
  | malformed => rfl
  | segment _ s hread _ hres =>
    refine hres.lookup_of_ne fun h => hkey ?_
    rw [hread.envelopeKey_eq, h]

/-- An envelope does not panic. -/
theorem EnvelopeOutcome.noPanic (h : EnvelopeOutcome C r envelope res) : NoPanic res.1 := by
  cases h with
  | passed => exact noPanic_pure _
  | malformed _ error hread =>
    intro e he
    cases he
    exact noPanic_readSegment C envelope _ hread
  | segment _ _ _ _ hres => exact hres.noPanic

end EnvelopeOutcome

/-! ### Whole runs -/

/-- The empty table has the invariant. -/
theorem invariant_empty : ServerMessageReassembler.empty.Invariant where
  size_le := by decide
  buffered_eq := rfl
  buffered_le := Nat.zero_le _
  wellFormed := fun key a h => by
    rw [empty, AList.lookup_empty] at h
    simp at h

/-- The invariant holds after every sequence of envelopes. -/
theorem invariant_final (C : Codec) (es : List Value) :
    (Machine.final (observe C) .empty es).Invariant :=
  Machine.final_induction (observe C) (P := ServerMessageReassembler.Invariant)
    (fun _ envelope hr => (observe_outcome hr envelope).invariant hr) invariant_empty es

/-- After every sequence of envelopes the table has the invariant; the next envelope touches no
assembly but the one it names, does not panic, and every subtraction it makes is exact, so that
the result is that of any subtraction which is right when there is something to subtract from. -/
theorem observe_representation (C : Codec) (es : List Value) :
    (Machine.final (observe C) .empty es).Invariant ∧
    ∀ envelope,
      (∀ key, envelopeKey envelope ≠ some key →
        ((Machine.final (observe C) .empty es).observe C envelope).2.assemblies.lookup key =
          (Machine.final (observe C) .empty es).assemblies.lookup key) ∧
      NoPanic ((Machine.final (observe C) .empty es).observe C envelope).1 ∧
      ∀ sub : ℕ → ℕ → ℕ, (∀ m n, n ≤ m → sub m n = m - n) →
        (Machine.final (observe C) .empty es).observeWith sub C envelope =
          (Machine.final (observe C) .empty es).observe C envelope := by
  have hr := invariant_final C es
  refine ⟨hr, fun envelope => ?_⟩
  have houtcome := observe_outcome (C := C) hr envelope
  exact ⟨fun key hkey => houtcome.lookup_of_ne hkey, houtcome.noPanic,
    fun sub hsub => observeWith_eq_observe hsub hr envelope⟩

end Rcodex
