import Rcodex.Transport.Representation
import Rcodex.Transport.Relay
import Rcodex.Foundation.CompactJson

/-!
# Replayed frames

A relay may send a frame again after its message was delivered.  `ReplayTolerant` says of a run with
additional frames that they are ignored: each of them gives nothing, the other frames give what
they give without them, and the table of the reassembler is at every point what it is without them.

The duplicate filter of the source sits behind the reassembler.  A whole message is filtered, but a
chunk of a message that was delivered opens an assembly that nobody completes; it occupies one of
the eight places until the stream ends.  `replayTolerant_iff` shows that a run tolerates replays
exactly when each of them is a whole message or a chunk that the table already holds.
-/

namespace Rcodex

open Json ServerMessageReassembler RelayTransport

/-- A frame of the active stream whose sequence number was already seen. -/
structure Replays (t : RelayTransport) (envelope : Value) : Prop where
  /-- It belongs to the active stream. -/
  admitted : t.admits envelope = .ok true
  /-- Its sequence number is not larger than the last one. -/
  seen : ((envelope.get "seq_id").bind Value.asU64).any (fun sequence =>
    t.seenServerSequence.any fun seen => sequence ≤ seen) = true

instance (t : RelayTransport) (envelope : Value) : Decidable (Replays t envelope) :=
  decidable_of_iff (t.admits envelope = .ok true ∧
    ((envelope.get "seq_id").bind Value.asU64).any (fun sequence =>
      t.seenServerSequence.any fun seen => sequence ≤ seen) = true)
    ⟨fun h => ⟨h.1, h.2⟩, fun h => ⟨h.1, h.2⟩⟩

/-- The additional frames of a run are ignored. -/
structure ReplayTolerant (C : Codec) (t : RelayTransport) (ts : List (Machine.Tagged Value)) :
    Prop where
  /-- Each of them gives nothing. -/
  inserted : Machine.InsertedSatisfy (observeServerEnvelope C)
    (fun t envelope => (t.observeServerEnvelope C envelope).1 = .ok none) t ts
  /-- The other frames give what they give without them. -/
  original : Machine.originalOutputs (observeServerEnvelope C) t ts =
    Machine.outputs (observeServerEnvelope C) t (Machine.originals ts)
  /-- At every point the table is what it is without them. -/
  table : ∀ pre post, ts = pre ++ post →
    (Machine.final (observeServerEnvelope C) t (Machine.events pre)).reassembler =
      (Machine.final (observeServerEnvelope C) t (Machine.originals pre)).reassembler

/-- A frame that leaves no trace: a whole message, or a chunk that the table already holds. -/
def Absorbed (C : Codec) (t : RelayTransport) (envelope : Value) : Prop :=
  kind envelope = some "server_message" ∨
    ∃ s a, IsSegment C envelope s ∧ t.reassembler.assemblies.lookup s.key = some a ∧
      s.Matches a ∧ a.chunks[s.segmentId]? = some (some s.chunk)

instance (C : Codec) (t : RelayTransport) (envelope : Value) : Decidable (Absorbed C t envelope) :=
  decidable_of_iff (kind envelope = some "server_message" ∨
      (readSegment C envelope).toOption.any (fun s =>
        (t.reassembler.assemblies.lookup s.key).any fun a =>
          decide (s.Matches a ∧ a.chunks[s.segmentId]? = some (some s.chunk))) = true) <| by
    refine or_congr Iff.rfl ?_
    have hread : ∀ s, (readSegment C envelope).toOption = some s ↔ IsSegment C envelope s := by
      intro s
      rw [← readSegment_eq_ok_iff]
      cases readSegment C envelope <;> simp [Except.toOption]
    simp only [Option.any_eq_true, decide_eq_true_eq, hread]
    constructor
    · rintro ⟨s, hs, a, ha, habsorbed⟩
      exact ⟨s, a, hs, ha, habsorbed⟩
    · rintro ⟨s, a, hs, ha, habsorbed⟩
      exact ⟨s, hs, a, ha, habsorbed⟩

section Step

variable {C : Codec} {t : RelayTransport} {envelope : Value}

/-- An envelope keeps the invariant of the reassembler. -/
theorem invariant_observeServerEnvelope (ht : t.reassembler.Invariant) :
    (t.observeServerEnvelope C envelope).2.reassembler.Invariant := by
  obtain ⟨seen, pending, hframe⟩ := (observeServerEnvelope_outcome C t envelope).frame
  rw [hframe]
  change (if t.admits envelope = .ok true then _ else _ : ServerMessageReassembler).Invariant
  split_ifs
  · exact (observe_outcome ht envelope).invariant ht
  · exact ht

/-- What a replayed frame carries was seen before. -/
theorem Replays.exists_seen (h : Replays t envelope) :
    ∃ sequence seen, envelope.get "seq_id" = some (.ofU64 sequence) ∧
      t.seenServerSequence = some seen ∧ sequence.toNat ≤ seen.toNat := by
  obtain ⟨sequence, hsequence, hany⟩ := Option.any_eq_true _ _ |>.mp h.seen
  obtain ⟨seen, hseen, hle⟩ := Option.any_eq_true _ _ |>.mp hany
  obtain ⟨v, hv, hasU64⟩ := Option.bind_eq_some_iff.mp hsequence
  rw [Value.asU64_eq_some_iff.mp hasU64] at hv
  exact ⟨sequence, seen, hv, hseen, UInt64.le_iff_toNat_le.mp (of_decide_eq_true hle)⟩

/-- A complete message that was seen before gives nothing and changes nothing. -/
theorem deliver_of_seen {sequence seen : UInt64}
    (hsequence : envelope.get "seq_id" = some (.ofU64 sequence))
    (hseen : t.seenServerSequence = some seen) (hle : sequence.toNat ≤ seen.toNat) :
    t.deliver envelope = (.ok none, t) := by
  have hbind : (envelope.get "seq_id").bind Value.asU64 = some sequence := by
    rw [hsequence]
    rfl
  have hany : (t.seenServerSequence.any fun seen => sequence ≤ seen) = true := by
    rw [hseen]
    simpa using UInt64.le_iff_toNat_le.mpr hle
  unfold deliver
  rw [hbind]
  simp only [hany, if_true]

/-- A chunk that the table holds changes nothing. -/
theorem SegmentOutcome.eq_of_held {r : ServerMessageReassembler} {s : Segment} {a : Assembly}
    {res : Except RelayError (Option Value) × ServerMessageReassembler}
    (h : SegmentOutcome C r s res) (ha : r.assemblies.lookup s.key = some a) (hmatch : s.Matches a)
    (hslot : a.chunks[s.segmentId]? = some (some s.chunk)) : res = (.ok none, r) := by
  have htargets : ∀ b, r.Targets s b → b = a := by
    intro b htarget
    rcases htarget with hb | ⟨hb, -⟩
    · rw [ha] at hb
      exact (Option.some.inj hb).symm
    · rw [ha] at hb
      simp at hb
  cases h with
  | full hkey =>
    rw [ha] at hkey
    simp at hkey
  | changedMetadata b hb hmatch' =>
    obtain rfl := htargets b (Or.inl hb)
    exact absurd hmatch hmatch'
  | changedChunk b hb existing hslot' hne =>
    obtain rfl := htargets b (Or.inl hb)
    rw [hslot] at hslot'
    exact absurd (by simpa using hslot'.symm) hne
  | overLimit b hb hslot' =>
    obtain rfl := htargets b hb
    rw [hslot] at hslot'
    simp at hslot'
  | repeated => rfl
  | stored b hb _ hslot' =>
    obtain rfl := htargets b hb
    rw [hslot] at hslot'
    simp at hslot'
  | completed b hb _ hslot' =>
    obtain rfl := htargets b hb
    rw [hslot] at hslot'
    simp at hslot'

/-- An envelope with a chunk that the table holds changes nothing. -/
theorem observe_of_held {r : ServerMessageReassembler} (hr : r.Invariant) {s : Segment}
    {a : Assembly} (hkind : kind envelope = some "server_message_chunk")
    (hread : IsSegment C envelope s) (ha : r.assemblies.lookup s.key = some a)
    (hmatch : s.Matches a) (hslot : a.chunks[s.segmentId]? = some (some s.chunk)) :
    r.observe C envelope = (.ok none, r) := by
  have houtcome := observe_outcome (C := C) hr envelope
  revert houtcome
  generalize r.observe C envelope = res
  intro houtcome
  cases houtcome with
  | passed hne => exact absurd hkind hne
  | malformed _ error herror =>
    rw [readSegment_eq_ok_iff.mpr hread] at herror
    simp at herror
  | segment _ s' hread' _ hres =>
    obtain rfl := hread.unique hread'
    exact hres.eq_of_held ha hmatch hslot

/-- A replayed frame that is absorbed gives nothing and changes nothing. -/
theorem Absorbed.silent (h : Absorbed C t envelope) (ht : t.reassembler.Invariant)
    (hreplays : Replays t envelope) : t.observeServerEnvelope C envelope = (.ok none, t) := by
  obtain ⟨hkind, -⟩ := admits_eq_ok_true_iff.mp hreplays.admitted
  unfold observeServerEnvelope
  rw [hreplays.admitted]
  simp only
  by_cases hwhole : kind envelope = some "server_message"
  · have hpassed : t.reassembler.observe C envelope = (.ok (some envelope), t.reassembler) := by
      unfold observe observeWith
      rw [if_pos (by rw [hwhole]; decide)]
    obtain ⟨sequence, seen, hsequence, hseen, hle⟩ := hreplays.exists_seen
    rw [hpassed]
    exact deliver_of_seen hsequence hseen hle
  · obtain ⟨s, a, hread, ha, hmatch, hslot⟩ := h.resolve_left hwhole
    rw [observe_of_held ht (hkind.resolve_left hwhole) hread ha hmatch hslot]

/-- A message of one chunk is not complete. -/
theorem none_mem_store_opened (s : Segment) : none ∈ ((Assembly.opened s).store s).chunks := by
  have htwo := s.two_le_count
  -- some position is not the one of the chunk
  obtain ⟨i, hi, hne⟩ : ∃ i, i < s.segmentCount ∧ s.segmentId ≠ i := by
    by_cases hzero : s.segmentId = 0
    · exact ⟨1, htwo, by omega⟩
    · exact ⟨0, by omega, hzero⟩
  apply List.mem_of_getElem? (i := i)
  rw [Assembly.store, Assembly.opened, List.getElem?_set_ne hne, List.getElem?_replicate,
    if_pos hi]

/-- A segment that is accepted and leaves the table as it was is one that the table holds. -/
theorem SegmentOutcome.held {r : ServerMessageReassembler} {s : Segment}
    {res : Except RelayError (Option Value) × ServerMessageReassembler}
    (h : SegmentOutcome C r s res) (hok : ∀ error, res.1 ≠ .error error) (hsame : res.2 = r) :
    ∃ a, r.assemblies.lookup s.key = some a ∧ s.Matches a ∧
      a.chunks[s.segmentId]? = some (some s.chunk) := by
  cases h with
  | full => exact absurd rfl (hok _)
  | changedMetadata => exact absurd rfl (hok _)
  | changedChunk => exact absurd rfl (hok _)
  | overLimit => exact absurd rfl (hok _)
  | repeated a ha hmatch hslot => exact ⟨a, ha, hmatch, hslot⟩
  | stored a ha hmatch hslot hfits hnone =>
    have hlookup : r.assemblies.lookup s.key = some (a.store s) := by
      have hinsert : r.assemblies.insert s.key (a.store s) = r.assemblies :=
        congrArg ServerMessageReassembler.assemblies hsame
      rw [← hinsert]
      exact AList.lookup_insert _
    refine ⟨a.store s, hlookup, hmatch.store, ?_⟩
    rw [Assembly.store, List.getElem?_set_self hmatch.id_lt]
  | completed a ha hmatch hslot hfits hnone =>
    have hlookup : r.assemblies.lookup s.key = none := by
      have herase : r.assemblies.erase s.key = r.assemblies :=
        congrArg ServerMessageReassembler.assemblies hsame
      rw [← herase]
      exact AList.lookup_erase _ _
    rcases ha with ha | ⟨-, -, rfl⟩
    · rw [hlookup] at ha
      simp at ha
    · exact absurd (none_mem_store_opened s) hnone

/-- A replayed frame that gives nothing and leaves the table as it was is absorbed. -/
theorem absorbed_of_unchanged (ht : t.reassembler.Invariant) (hreplays : Replays t envelope)
    (hnone : (t.observeServerEnvelope C envelope).1 = .ok none)
    (hsame : (t.observeServerEnvelope C envelope).2.reassembler = t.reassembler) :
    Absorbed C t envelope := by
  obtain ⟨hkind, -⟩ := admits_eq_ok_true_iff.mp hreplays.admitted
  obtain ⟨seen, pending, hframe⟩ := (observeServerEnvelope_outcome C t envelope).frame
  rw [hframe] at hsame
  simp only [hreplays.admitted, if_true] at hsame
  have hok : ∀ error, (t.reassembler.observe C envelope).1 ≠ .error error := by
    intro error herror
    unfold observeServerEnvelope at hnone
    rw [hreplays.admitted] at hnone
    simp only [herror] at hnone
    simp at hnone
  refine hkind.imp_right fun hchunk => ?_
  have houtcome := observe_outcome (C := C) ht envelope
  revert houtcome hok hsame
  generalize t.reassembler.observe C envelope = res
  intro hsame hok houtcome
  cases houtcome with
  | passed hne => exact absurd hchunk hne
  | malformed => exact absurd rfl (hok _)
  | segment _ s hread _ hres =>
    obtain ⟨a, ha, hmatch, hslot⟩ := hres.held hok hsame
    exact ⟨s, a, hread, ha, hmatch, hslot⟩

end Step

/-! ### Whole runs -/

section Runs

variable {C : Codec} {t : RelayTransport} {ts : List (Machine.Tagged Value)}

/-- The invariant of the reassembler holds after every run. -/
theorem invariant_final_transport (ht : t.reassembler.Invariant) (es : List Value) :
    (Machine.final (observeServerEnvelope C) t es).reassembler.Invariant :=
  Machine.final_induction (observeServerEnvelope C)
    (P := fun t => t.reassembler.Invariant)
    (fun _ _ ht => invariant_observeServerEnvelope ht) ht es

/-- Absorbed replays are silent at the point where they occur. -/
theorem silent_of_absorbed (ht : t.reassembler.Invariant)
    (hreplays : Machine.InsertedSatisfy (observeServerEnvelope C) Replays t ts)
    (habsorbed : Machine.InsertedSatisfy (observeServerEnvelope C) (Absorbed C) t ts) :
    Machine.InsertedSatisfy (observeServerEnvelope C)
      (fun t envelope => t.observeServerEnvelope C envelope = (.ok none, t)) t ts := by
  rw [Machine.insertedSatisfy_iff] at hreplays habsorbed ⊢
  intro pre e post hts
  exact (habsorbed pre e post hts).silent (invariant_final_transport ht _)
    (hreplays pre e post hts)

/-- A run tolerates the replays it contains exactly when each of them is a whole message or a chunk
that the table holds when it arrives. -/
theorem replayTolerant_iff (ht : t.reassembler.Invariant)
    (hreplays : Machine.InsertedSatisfy (observeServerEnvelope C) Replays t ts) :
    ReplayTolerant C t ts ↔
      Machine.InsertedSatisfy (observeServerEnvelope C) (Absorbed C) t ts := by
  constructor
  · intro h
    obtain ⟨hinserted, -, htable⟩ := h
    rw [Machine.insertedSatisfy_iff] at hinserted hreplays ⊢
    intro pre e post hts
    refine absorbed_of_unchanged (invariant_final_transport ht _) (hreplays pre e post hts)
      (hinserted pre e post hts) ?_
    -- the table after the replay and the one before it are both the one without replays
    have hbefore := htable pre (.inserted e :: post) hts
    have hafter := htable (pre ++ [.inserted e]) post (by rw [hts, List.append_assoc]; rfl)
    rw [Machine.events_append, Machine.originals_append] at hafter
    rw [hbefore, ← Machine.final_concat]
    exact hafter.trans (by rw [Machine.originals, Machine.originals, List.append_nil])
  · intro habsorbed
    have hsilent := silent_of_absorbed ht hreplays habsorbed
    have hstate := hsilent.imp _ fun _ _ h => congrArg Prod.snd h
    refine ⟨hsilent.imp _ fun _ _ h => congrArg Prod.fst h,
      Machine.originalOutputs_eq_of_silent hstate, fun pre post hts => ?_⟩
    have hpre : Machine.InsertedSatisfy (observeServerEnvelope C)
        (fun t envelope => (t.observeServerEnvelope C envelope).2 = t) t pre := by
      rw [Machine.insertedSatisfy_iff] at hstate ⊢
      exact fun pre' e post' h => hstate pre' e (post' ++ post) (by rw [hts, h]; simp)
    rw [Machine.final_eq_of_silent hpre]

end Runs

/-! ### Runs with replays -/

/-- A whole message that arrives twice is tolerated, and so is the first half of a message that the
table still holds. -/
theorem replayTolerant_wholeObject :
    ReplayTolerant emptyObjectCodec newTransport
      [.original (halfObject "env" "stream" 1 0), .original (wholeObject "env" "stream" 2),
        .inserted (wholeObject "env" "stream" 2), .inserted (halfObject "env" "stream" 1 0),
        .original (wholeObject "env" "stream" 3)] := by
  apply (replayTolerant_iff invariant_empty (by decide +kernel)).mpr
  decide +kernel

/-- Eight messages in halves, then the first half of each of them again, then the first half of a
ninth. -/
def replayedHalves : List (Machine.Tagged Value) :=
  [1, 2, 3, 4, 5, 6, 7, 8].flatMap (fun n =>
    [.original (halfObject "env" "stream" n 0), .original (halfObject "env" "stream" n 1)]) ++
  [1, 2, 3, 4, 5, 6, 7, 8].map (fun n => .inserted (halfObject "env" "stream" n 0)) ++
  [.original (halfObject "env" "stream" 9 0)]

/-- The eight replayed halves occupy all places, and the ninth message is refused. -/
theorem not_replayTolerant_halves :
    (∀ result ∈ Machine.outputs (observeServerEnvelope emptyObjectCodec) newTransport
      (Machine.originals replayedHalves), result.isOk = true) ∧
    (∀ tagged ∈ replayedHalves, .original tagged.event ∈ replayedHalves) ∧
    Machine.InsertedSatisfy (observeServerEnvelope emptyObjectCodec) Replays newTransport
      replayedHalves ∧
    ¬ ReplayTolerant emptyObjectCodec newTransport replayedHalves := by
  refine ⟨by decide +kernel, by decide +kernel, by decide +kernel, fun h => ?_⟩
  exact absurd h.original (by decide +kernel)

end Rcodex
