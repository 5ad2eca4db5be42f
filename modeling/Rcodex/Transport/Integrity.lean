import Rcodex.Transport.Representation
import Rcodex.Foundation.CompactJson

/-!
# Where the bytes of a reassembled message come from

`Genuine` says of a reassembled envelope that its message is the concatenation of one chunk per
position, each read from an envelope of the history that names the same host, stream and sequence
number and announces the same number of chunks and the same length.

The key of an assembly joins host, stream and sequence number with colons and does not quote them,
so two different hosts and streams can share a key.  A run is `Segregated` when no chunk is stored
in an assembly that an envelope with another name opened; then every reassembled message is
genuine (`integrity_of_segregated`).  In particular this holds when all envelopes with one key
have one name (`segregated_of_injective`).
-/

namespace Rcodex

open Json ServerMessageReassembler

/-- The envelope carries chunk `c` at position `j` of the named message, announcing `count` chunks
and `size` bytes. -/
def Carries (C : Codec) (envId streamId : String) (seqId : UInt64) (count size j : ℕ) (c : Bytes)
    (envelope : Value) : Prop :=
  ∃ s, IsSegment C envelope s ∧ Identifies s.object envId streamId seqId ∧
    s.segmentCount = count ∧ s.messageSize = size ∧ s.segmentId = j ∧ s.chunk = c

/-- A reassembled envelope whose message consists of chunks of the history, all of the message
the envelope names. -/
def Genuine (C : Codec) (history : List Value) (out : Value) : Prop :=
  ∃ envId streamId seqId size body, ∃ parts : List Bytes,
    out.get "env_id" = some (.string envId) ∧
    out.get "stream_id" = some (.string streamId) ∧
    out.get "seq_id" = some (.ofU64 seqId) ∧
    out.get "message" = some (.object body) ∧
    C.fromSlice parts.flatten = some (.object body) ∧
    parts.flatten.length = size ∧
    ∀ j c, parts[j]? = some c →
      ∃ e ∈ history, Carries C envId streamId seqId parts.length size j c e

/-- Every message reassembled in a run is genuine. -/
def Integrity (C : Codec) (es : List Value) : Prop :=
  ∀ pre e post, es = pre ++ e :: post → kind e = some "server_message_chunk" →
    ∀ out, ((Machine.final (observe C) .empty pre).observe C e).1 = .ok (some out) →
      Genuine C (pre ++ [e]) out

/-- If the chunk of an envelope is stored in an assembly that is already there, that assembly was
opened by an envelope with the same host, stream and sequence number. -/
def Segregated (C : Codec) (r : ServerMessageReassembler) (envelope : Value) : Prop :=
  ∀ s a, IsSegment C envelope s → r.assemblies.lookup s.key = some a →
    s.Matches a → a.chunks[s.segmentId]? = some none → s.Fits r a →
    ∀ envId streamId seqId, Identifies s.object envId streamId seqId →
      Identifies a.first envId streamId seqId

/-- The filled slots of an assembly come from envelopes of the history with the name of its first
chunk. -/
def Assembly.Traced (C : Codec) (history : List Value) (a : Assembly) : Prop :=
  ∃ envId streamId seqId, Identifies a.first envId streamId seqId ∧
    ∀ j c, a.chunks[j]? = some (some c) →
      ∃ e ∈ history, Carries C envId streamId seqId a.chunks.length a.messageSize j c e

/-- A longer history explains what a shorter one does. -/
theorem Assembly.Traced.mono {C : Codec} {history history' : List Value} {a : Assembly}
    (hsub : history ⊆ history') (h : a.Traced C history) : a.Traced C history' := by
  obtain ⟨env, stream, seq, hident, hslots⟩ := h
  refine ⟨env, stream, seq, hident, fun j c hjc => ?_⟩
  obtain ⟨e, he, hcarries⟩ := hslots j c hjc
  exact ⟨e, hsub he, hcarries⟩

/-- An assembly stays traced when a chunk with its name is stored. -/
theorem Assembly.Traced.store {C : Codec} {r : ServerMessageReassembler} {history : List Value}
    {envelope : Value} {s : Segment} {a : Assembly}
    (hr : ∀ key a, r.assemblies.lookup key = some a → a.Traced C history)
    (hsegregated : Segregated C r envelope) (hread : IsSegment C envelope s)
    (ha : r.Targets s a) (hmatch : s.Matches a) (hslot : a.chunks[s.segmentId]? = some none)
    (hfits : s.Fits r a) : (a.store s).Traced C (history ++ [envelope]) := by
  obtain ⟨env, stream, seq, hident, -⟩ := hread.key_eq
  have hcarries : Carries C env stream seq a.chunks.length a.messageSize s.segmentId s.chunk
      envelope := ⟨s, hread, hident, hmatch.1.symm, hmatch.2.symm, rfl, rfl⟩
  -- the first chunk has the name of the segment: it is the segment itself or agrees with it
  have hfirst : Identifies a.first env stream seq := by
    rcases ha with hlookup | ⟨-, -, rfl⟩
    · exact hsegregated s a hread hlookup hmatch hslot hfits env stream seq hident
    · exact hident
  refine ⟨env, stream, seq, hfirst, fun j c hjc => ?_⟩
  simp only [Assembly.store, List.length_set] at hjc ⊢
  by_cases hj : s.segmentId = j
  · subst hj
    rw [List.getElem?_set_self hmatch.id_lt] at hjc
    cases hjc
    exact ⟨envelope, List.mem_append_right _ List.mem_cons_self, hcarries⟩
  · rw [List.getElem?_set_ne hj] at hjc
    rcases ha with hlookup | ⟨-, -, rfl⟩
    · obtain ⟨env', stream', seq', hident', hslots⟩ := hr _ _ hlookup
      obtain ⟨rfl, rfl, rfl⟩ := hident'.unique hfirst
      obtain ⟨e, he, hcarries⟩ := hslots j c hjc
      exact ⟨e, List.mem_append_left _ he, hcarries⟩
    · simp [Assembly.opened, List.getElem?_replicate] at hjc

/-- A segment leaves every assembly traced. -/
theorem SegmentOutcome.traced {C : Codec} {r : ServerMessageReassembler} {history : List Value}
    {envelope : Value} {s : Segment}
    {res : Except RelayError (Option Value) × ServerMessageReassembler}
    (h : SegmentOutcome C r s res)
    (hr : ∀ key a, r.assemblies.lookup key = some a → a.Traced C history)
    (hsegregated : Segregated C r envelope) (hread : IsSegment C envelope s) :
    ∀ key a, res.2.assemblies.lookup key = some a → a.Traced C (history ++ [envelope]) := by
  have hmono : ∀ key a, r.assemblies.lookup key = some a → a.Traced C (history ++ [envelope]) :=
    fun key a ha => (hr key a ha).mono (List.subset_append_left _ _)
  have hdropped : ∀ key a, (r.dropped s.key).assemblies.lookup key = some a →
      a.Traced C (history ++ [envelope]) :=
    fun key a ha => hmono key a (lookup_dropped_eq_some_iff.mp ha).2
  cases h with
  | full => exact hmono
  | changedMetadata => exact hdropped
  | changedChunk => exact hdropped
  | overLimit => exact hdropped
  | repeated => exact hmono
  | stored b hb hmatch hslot hfits =>
    intro key a ha
    rcases Table.lookup_insert_eq_some_iff.mp ha with ⟨-, rfl⟩ | ⟨-, ha⟩
    · exact Assembly.Traced.store hr hsegregated hread hb hmatch hslot hfits
    · exact hmono key a ha
  | completed =>
    exact fun key a ha => hmono key a (Table.lookup_erase_eq_some_iff.mp ha).2

/-- A message completed from a traced assembly is genuine. -/
theorem Assembly.Traced.genuine {C : Codec} {history : List Value} {a : Assembly}
    (h : a.Traced C history) (hnone : none ∉ a.chunks) {out : Value}
    (hout : completeMessage C a = .ok (some out)) : Genuine C history out := by
  obtain ⟨env, stream, seq, hident, hslots⟩ := h
  obtain ⟨hlen, body, hparse, hout⟩ := completeMessage_eq_ok_iff.mp hout
  obtain ⟨parts, hparts⟩ := Slots.exists_eq_map_some hnone
  cases hout
  rw [hparts, Slots.contents_map_some] at hlen hparse
  refine ⟨env, stream, seq, a.messageSize, body, parts, ?_, ?_, ?_, ?_, hparse, hlen,
    fun j c hjc => ?_⟩
  · simpa [get_completeEnvelope, completeFields] using hident.env_id
  · simpa [get_completeEnvelope, completeFields] using hident.stream_id
  · simpa [get_completeEnvelope, completeFields] using hident.seq_id
  · simp [get_completeEnvelope]
  · have hlength : parts.length = a.chunks.length := by rw [hparts, List.length_map]
    rw [hlength]
    exact hslots j c (by rw [hparts, List.getElem?_map, hjc]; rfl)

/-- An envelope leaves every assembly traced. -/
theorem EnvelopeOutcome.traced {C : Codec} {r : ServerMessageReassembler} {history : List Value}
    {envelope : Value} {res : Except RelayError (Option Value) × ServerMessageReassembler}
    (h : EnvelopeOutcome C r envelope res)
    (hr : ∀ key a, r.assemblies.lookup key = some a → a.Traced C history)
    (hsegregated : Segregated C r envelope) :
    ∀ key a, res.2.assemblies.lookup key = some a → a.Traced C (history ++ [envelope]) := by
  have hmono : ∀ key a, r.assemblies.lookup key = some a → a.Traced C (history ++ [envelope]) :=
    fun key a ha => (hr key a ha).mono (List.subset_append_left _ _)
  cases h with
  | passed => exact hmono
  | malformed => exact hmono
  | segment _ s hread _ hres => exact hres.traced hr hsegregated hread

/-- A chunk that completes a message completes a genuine one. -/
theorem EnvelopeOutcome.genuine {C : Codec} {r : ServerMessageReassembler} {history : List Value}
    {envelope : Value} {res : Except RelayError (Option Value) × ServerMessageReassembler}
    (h : EnvelopeOutcome C r envelope res)
    (hr : ∀ key a, r.assemblies.lookup key = some a → a.Traced C history)
    (hsegregated : Segregated C r envelope) (hkind : kind envelope = some "server_message_chunk")
    {out : Value} (hout : res.1 = .ok (some out)) : Genuine C (history ++ [envelope]) out := by
  cases h with
  | passed hne => exact absurd hkind hne
  | malformed => contradiction
  | segment _ s hread _ hres =>
    cases hres with
    | full => contradiction
    | changedMetadata => contradiction
    | changedChunk => contradiction
    | overLimit => contradiction
    | repeated => cases hout
    | stored => cases hout
    | completed a ha hmatch hslot hfits hnone =>
      have htraced := Assembly.Traced.store hr hsegregated hread ha hmatch hslot hfits
      exact htraced.genuine hnone hout

/-- An envelope opens assemblies under its own key. -/
theorem EnvelopeOutcome.opened {C : Codec} {r : ServerMessageReassembler} {history : List Value}
    {envelope : Value} {res : Except RelayError (Option Value) × ServerMessageReassembler}
    (h : EnvelopeOutcome C r envelope res)
    (hr : ∀ key a, r.assemblies.lookup key = some a →
      ∃ e ∈ history, ∃ s, IsSegment C e s ∧ s.key = key ∧ a.first = s.object) :
    ∀ key a, res.2.assemblies.lookup key = some a →
      ∃ e ∈ history ++ [envelope], ∃ s, IsSegment C e s ∧ s.key = key ∧ a.first = s.object := by
  have hmono : ∀ key a, r.assemblies.lookup key = some a →
      ∃ e ∈ history ++ [envelope], ∃ s, IsSegment C e s ∧ s.key = key ∧ a.first = s.object := by
    intro key a ha
    obtain ⟨e, he, hs⟩ := hr key a ha
    exact ⟨e, List.mem_append_left _ he, hs⟩
  cases h with
  | passed => exact hmono
  | malformed => exact hmono
  | segment _ s hread _ hres =>
    have hdropped : ∀ key a, (r.dropped s.key).assemblies.lookup key = some a →
        ∃ e ∈ history ++ [envelope], ∃ s, IsSegment C e s ∧ s.key = key ∧ a.first = s.object :=
      fun key a ha => hmono key a (lookup_dropped_eq_some_iff.mp ha).2
    cases hres with
    | full => exact hmono
    | changedMetadata => exact hdropped
    | changedChunk => exact hdropped
    | overLimit => exact hdropped
    | repeated => exact hmono
    | stored b hb =>
      intro key a ha
      rcases Table.lookup_insert_eq_some_iff.mp ha with ⟨rfl, rfl⟩ | ⟨-, ha⟩
      · rcases hb with hlookup | ⟨-, -, rfl⟩
        · exact hmono s.key b hlookup
        · exact ⟨envelope, List.mem_append_right _ List.mem_cons_self, s, hread, rfl, rfl⟩
      · exact hmono key a ha
    | completed =>
      exact fun key a ha => hmono key a (Table.lookup_erase_eq_some_iff.mp ha).2

/-- After a segregated run every assembly is traced. -/
theorem traced_final {C : Codec} {es : List Value}
    (h : ∀ pre e post, es = pre ++ e :: post →
      Segregated C (Machine.final (observe C) .empty pre) e) :
    ∀ key a, (Machine.final (observe C) .empty es).assemblies.lookup key = some a →
      a.Traced C es := by
  refine Machine.history_induction (observe C)
    (P := fun history r => ∀ key a, r.assemblies.lookup key = some a → a.Traced C history)
    ?_ es ?_
  · intro key a ha
    rw [empty, AList.lookup_empty] at ha
    simp at ha
  · intro pre e post hes hpre
    exact (observe_outcome (invariant_final C pre) e).traced hpre (h pre e post hes)

/-- Every assembly was opened by an envelope of the run that names its key. -/
theorem opened_final (C : Codec) (es : List Value) :
    ∀ key a, (Machine.final (observe C) .empty es).assemblies.lookup key = some a →
      ∃ e ∈ es, ∃ s, IsSegment C e s ∧ s.key = key ∧ a.first = s.object := by
  refine Machine.history_induction (observe C)
    (P := fun history r => ∀ key a, r.assemblies.lookup key = some a →
      ∃ e ∈ history, ∃ s, IsSegment C e s ∧ s.key = key ∧ a.first = s.object) ?_ es ?_
  · intro key a ha
    rw [empty, AList.lookup_empty] at ha
    simp at ha
  · intro pre e post _ hpre
    exact (observe_outcome (invariant_final C pre) e).opened hpre

/-- When all envelopes of a run that share a key share a name, the run is segregated. -/
theorem segregated_of_injective {C : Codec} {es : List Value}
    (h : ∀ e ∈ es, ∀ e' ∈ es, ∀ s s', IsSegment C e s → IsSegment C e' s' → s.key = s'.key →
      ∀ envId streamId seqId, Identifies s.object envId streamId seqId →
        Identifies s'.object envId streamId seqId)
    {pre : List Value} {e : Value} {post : List Value} (hes : es = pre ++ e :: post) :
    Segregated C (Machine.final (observe C) .empty pre) e := by
  intro s a hread ha _ _ _ envId streamId seqId hident
  obtain ⟨e', he', s', hread', hkey, hfirst⟩ := opened_final C pre _ _ ha
  have he : e ∈ es := by
    rw [hes]
    exact List.mem_append_right _ List.mem_cons_self
  have hmem : e' ∈ es := by
    rw [hes]
    exact List.mem_append_left _ he'
  rw [hfirst]
  exact h e he e' hmem s s' hread hread' hkey.symm envId streamId seqId hident

/-- In a run in which no chunk is stored in an assembly with another name, every reassembled
message is genuine. -/
theorem integrity_of_segregated (C : Codec) (es : List Value)
    (h : ∀ pre e post, es = pre ++ e :: post →
      Segregated C (Machine.final (observe C) .empty pre) e) : Integrity C es := by
  intro pre e post hes hkind out hout
  have hpre : ∀ key a, (Machine.final (observe C) .empty pre).assemblies.lookup key = some a →
      a.Traced C pre := by
    refine traced_final fun pre' e' post' hpre' => h pre' e' (post' ++ e :: post) ?_
    rw [hes, hpre', List.append_assoc, List.cons_append]
  exact (observe_outcome (invariant_final C pre) e).genuine hpre (h pre e post hes) hkind hout

/-! ### Two names with one key -/

/-- Both chunks come from the same host and stream: the message is genuine. -/
theorem integrity_halfObject :
    Integrity emptyObjectCodec [halfObject "env" "stream" 1 0, halfObject "env" "stream" 1 1] ∧
    Machine.outputs (observe emptyObjectCodec) .empty
      [halfObject "env" "stream" 1 0, halfObject "env" "stream" 1 1] =
        [.ok none, .ok (some (wholeObject "env" "stream" 1))] := by
  refine ⟨integrity_of_segregated _ _ fun pre e post hes => segregated_of_injective ?_ hes,
    by decide +kernel⟩
  have hname : ∀ e ∈ [halfObject "env" "stream" 1 0, halfObject "env" "stream" 1 1],
      ∀ s, IsSegment emptyObjectCodec e s → Identifies s.object "env" "stream" 1 := by
    intro e he s hs
    simp only [List.mem_cons, List.not_mem_nil, or_false] at he
    refine ⟨?_, ?_, ?_⟩ <;> rw [← hs.get_eq] <;> rcases he with rfl | rfl <;> decide +kernel
  intro e he e' he' s s' hs hs' _ envId streamId seqId hident
  obtain ⟨rfl, rfl, rfl⟩ := hident.unique (hname e he s hs)
  exact hname e' he' s' hs'

/-- A chunk of host `a:b` and stream `c` and one of host `a` and stream `b:c` are joined into one
message. -/
theorem not_integrity_of_shared_key :
    ¬ Integrity emptyObjectCodec [halfObject "a:b" "c" 1 0, halfObject "a" "b:c" 1 1] := by
  intro h
  obtain ⟨envId, streamId, seqId, size, body, parts, henv, -, -, -, hparse, -, hparts⟩ :=
    h [halfObject "a:b" "c" 1 0] (halfObject "a" "b:c" 1 1) [] rfl (by decide +kernel)
      (wholeObject "a:b" "c" 1) (by decide +kernel)
  have hget : (wholeObject "a:b" "c" 1).get "env_id" = some (.string "a:b") := by decide +kernel
  rw [hget] at henv
  obtain rfl : "a:b" = envId := by simpa using henv
  -- only the first envelope names host `a:b`, and it carries the first of two chunks
  have hfirst : ∀ j c, parts[j]? = some c → j = 0 ∧ parts.length = 2 := by
    intro j c hjc
    obtain ⟨e, he, s, hs, hident, hcount, -, hid, -⟩ := hparts j c hjc
    simp only [List.cons_append, List.nil_append, List.mem_cons, List.not_mem_nil, or_false] at he
    rcases he with rfl | rfl
    · obtain ⟨id, hid', hn⟩ := hs.segment_id
      obtain ⟨count, hcount', hm⟩ := hs.segment_count
      rw [← hs.get_eq] at hid' hcount'
      have hgetId : (halfObject "a:b" "c" 1 0).get "segment_id" = some (.ofU64 0) := by
        decide +kernel
      have hgetCount : (halfObject "a:b" "c" 1 0).get "segment_count" = some (.ofU64 2) := by
        decide +kernel
      rw [hgetId] at hid'
      rw [hgetCount] at hcount'
      obtain rfl : 0 = id := by simpa [Value.ofU64] using hid'
      obtain rfl : 2 = count := by simpa [Value.ofU64] using hcount'
      exact ⟨by rw [← hid, ← hn]; rfl, by rw [← hcount, ← hm]; rfl⟩
    · have henv := hident.env_id
      rw [← hs.get_eq] at henv
      exact absurd henv (by decide +kernel)
  cases parts with
  | nil =>
    have hnone : emptyObjectCodec.fromSlice [] = none := by decide +kernel
    rw [List.flatten_nil, hnone] at hparse
    simp at hparse
  | cons c parts =>
    obtain ⟨-, hlength⟩ := hfirst 0 c rfl
    have hsecond : (c :: parts)[1]? = some ((c :: parts)[1]) := List.getElem?_eq_getElem (by omega)
    exact absurd (hfirst 1 _ hsecond).1 (by decide)

end Rcodex
