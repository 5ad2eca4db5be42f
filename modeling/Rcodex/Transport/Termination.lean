import Rcodex.Transport.RoundTrip

/-!
# When the splitter returns

The loop of `segment_client_message` is meant to go on to chunks of one byte and to fail there.  A
message of four bytes or more never gets so far: before that, one chunk more gives as many as
before, and the loop repeats the same split (`segmentLoop_ne_error`).  So it returns only if one of
the splits that it tries before is within the frame limit, as `segmentation_returns_iff` says.
-/

namespace Rcodex

open Json

section Loop

variable {C : Codec} {envelope message : Value} {bytes : Bytes}

/-- The loop gets to a number of chunks for which the envelopes fit: each number from the first to
it comes out when it is asked for. -/
def ReachesFit (C : Codec) (envelope : Value) (bytes : Bytes) : Prop :=
  ∃ m, firstCount bytes.length ≤ m ∧
    (∀ j, firstCount bytes.length ≤ j → j ≤ m → Slots.pieces bytes.length j = j) ∧
    SplitFits C envelope bytes m

/-- The loop then stops at the first such number. -/
theorem reachesFit_iff :
    ReachesFit C envelope bytes ↔ ∃ m, FirstFit C envelope bytes (firstCount bytes.length) m := by
  classical
  constructor
  · intro h
    refine ⟨Nat.find h, ?_, ?_, ?_, ?_⟩
    · exact (Nat.find_spec h).1
    · exact (Nat.find_spec h).2.1
    · intro j hj hlt hfits
      refine Nat.find_min h hlt ⟨hj, fun i hi hij => ?_, hfits⟩
      exact (Nat.find_spec h).2.1 i hi (hij.trans hlt.le)
    · exact (Nat.find_spec h).2.2
  · rintro ⟨m, hfirst⟩
    exact ⟨m, hfirst.le, hfirst.attained, hfirst.fits⟩

/-- What the loop should do: return envelopes within the limit, or fail when not even chunks of one
byte fit. -/
def ReturnsOrFails (C : Codec) (envelope : Value) (bytes : Bytes)
    (result : Except RelayError (List Value)) : Prop :=
  (∃ segments, result = .ok segments ∧
      ∀ segment ∈ segments, (C.toVec segment).length ≤ maxFrameBytes) ∨
    result = .error .metadataTooLarge ∧
      ¬∀ segment ∈ clientSegments C envelope bytes 1, (C.toVec segment).length ≤ maxFrameBytes

/-- If every number of chunks comes out, the loop does what it should. -/
theorem segmentLoop_of_attained (hlen : bytes.length ≤ maxMessageBytes) {fuel count : ℕ}
    (hcount : 0 < count) (hle : count ≤ bytes.length) (hfuel : bytes.length < count + fuel)
    (hattained : ∀ j, count ≤ j → j ≤ bytes.length → Slots.pieces bytes.length j = j) :
    ∃ result, segmentLoop C envelope bytes fuel count = some result ∧
      ReturnsOrFails C envelope bytes result := by
  induction fuel generalizing count with
  | zero => omega
  | succ fuel ih =>
    rw [segmentLoop_succ hlen, hattained count le_rfl hle]
    by_cases hfits : SplitFits C envelope bytes count
    · rw [if_pos (all_withinFrame_iff.mpr hfits)]
      exact ⟨_, rfl, Or.inl ⟨_, rfl, hfits⟩⟩
    rw [if_neg (mt all_withinFrame_iff.mp hfits)]
    by_cases hsize : Slots.pieceSize bytes.length count = 1
    · rw [if_pos hsize]
      refine ⟨_, rfl, Or.inr ⟨rfl, ?_⟩⟩
      rw [← hsize]
      exact hfits
    · rw [if_neg hsize]
      have hlt : count < bytes.length := by
        refine lt_of_le_of_ne hle fun heq => hsize ?_
        have hone : Slots.pieceSize bytes.length count ≤ 1 :=
          (Slots.pieceSize_le_iff hcount one_pos).mpr (by omega)
        exact le_antisymm hone (Slots.pieceSize_pos _ _)
      exact ih (Nat.succ_pos count) hlt (by omega) fun j hj => hattained j (by omega)

/-- A message of four bytes or more is never cut into chunks of one byte. -/
theorem segmentLoop_ne_error (hlen : bytes.length ≤ maxMessageBytes) (hfour : 4 ≤ bytes.length)
    {fuel count : ℕ} (hcount : 0 < count) (hlt : count < bytes.length)
    (hattained : Slots.pieces bytes.length count = count) (error : RelayError) :
    segmentLoop C envelope bytes fuel count ≠ some (.error error) := by
  induction fuel generalizing count with
  | zero => simp [segmentLoop]
  | succ fuel ih =>
    have hsize : Slots.pieceSize bytes.length count ≠ 1 := by
      intro hone
      have hall := Slots.pieces_of_pieceSize_eq_one hone
      omega
    rw [segmentLoop_succ hlen, hattained]
    by_cases hfits : SplitFits C envelope bytes count
    · rw [if_pos (all_withinFrame_iff.mpr hfits)]
      simp
    rw [if_neg (mt all_withinFrame_iff.mp hfits), if_neg hsize]
    rcases Slots.pieces_succ hcount hattained with hstall | hnext
    · rw [segmentLoop_of_stall hlen hcount hstall hsize hfits]
      simp
    · refine ih (Nat.succ_pos count) (lt_of_le_of_ne hlt fun heq => ?_) hnext
      -- the number before the last one would have come out
      have hpred : count = bytes.length - 1 := by omega
      exact Slots.pieces_pred_ne hfour (hpred ▸ hattained)

/-- The loop starts below the number of bytes. -/
theorem firstCount_lt (hfour : 4 ≤ bytes.length) : firstCount bytes.length < bytes.length := by
  have hle : firstCount bytes.length ≤ bytes.length - 1 := by
    rw [firstCount_le_iff (by omega)]
    have htarget : 2 ≤ segmentTargetBytes := by decide
    have htwice : bytes.length ≤ 2 * (bytes.length - 1) := by omega
    exact htwice.trans (Nat.mul_le_mul_right _ htarget)
  omega

/-- A longer message on which the loop returns is one for which it gets to a split that fits. -/
theorem reachesFit_of_segmentLoop (hlen : bytes.length ≤ maxMessageBytes)
    (hfour : 4 ≤ bytes.length) {passes : ℕ} {result : Except RelayError (List Value)}
    (h : segmentLoop C envelope bytes passes (firstCount bytes.length) = some result) :
    ReachesFit C envelope bytes := by
  have hattained : Slots.pieces bytes.length (firstCount bytes.length) =
      firstCount bytes.length := pieces_firstCount (by omega)
  cases result with
  | error e =>
    exact absurd h (segmentLoop_ne_error hlen hfour (firstCount_pos _) (firstCount_lt hfour)
      hattained e)
  | ok segments =>
    obtain ⟨m, -, hfirst, -⟩ := (segmentLoop_eq_ok_iff hlen (firstCount_pos _) hattained).mp h
    exact reachesFit_iff.mpr ⟨m, hfirst⟩

/-- On a message of at most three bytes the loop does what it should. -/
theorem segmentLoop_of_le_three (hthree : bytes.length ≤ 3) :
    ∃ result, segmentLoop C envelope bytes (bytes.length + 1) (firstCount bytes.length) =
      some result ∧ ReturnsOrFails C envelope bytes result := by
  have hlen : bytes.length ≤ maxMessageBytes := hthree.trans (by decide)
  have hfirst : firstCount bytes.length = 1 :=
    le_antisymm ((firstCount_le_iff one_pos).mpr (hthree.trans (by decide))) (firstCount_pos _)
  rw [hfirst]
  rcases Nat.eq_zero_or_pos bytes.length with hzero | hpos
  · have hnil := List.length_eq_zero_iff.mp hzero
    subst hnil
    exact ⟨.ok [], rfl, Or.inl ⟨[], rfl, by simp⟩⟩
  · refine segmentLoop_of_attained hlen one_pos hpos (by omega) ?_
    have hsmall : ∀ n ≤ 3, ∀ j ≤ n, 1 ≤ j → Slots.pieces n j = j := by decide
    exact fun j hj hle => hsmall _ hthree j hle hj

/-- On a longer message for which it gets to a split that fits the loop returns it. -/
theorem segmentLoop_of_reachesFit (hlen : bytes.length ≤ maxMessageBytes)
    (hpos : 0 < bytes.length) (h : ReachesFit C envelope bytes) :
    ∃ result, segmentLoop C envelope bytes (bytes.length + 1) (firstCount bytes.length) =
      some result ∧ ReturnsOrFails C envelope bytes result := by
  obtain ⟨m, hfirst⟩ := reachesFit_iff.mp h
  have hm : m ≤ bytes.length := by
    rw [← hfirst.attained m hfirst.le le_rfl]
    exact Slots.pieces_le_length _ _
  refine ⟨_, (segmentLoop_eq_ok_iff hlen (firstCount_pos _) (pieces_firstCount hpos)).mpr
    ⟨m, by omega, hfirst, rfl⟩, Or.inl ⟨_, rfl, hfirst.fits⟩⟩

end Loop

/-- The splitter returns or fails as it should exactly if the envelope is within the target, the
message has at most three bytes, or the loop gets to a split that fits. Otherwise no number of
passes of the loop suffices. -/
theorem segmentation_returns_iff {C : Codec} {envelope message : Value}
    (hkind : kind envelope = some "client_message")
    (hmessage : envelope.get "message" = some message)
    (hsize : (C.toVec message).length ≤ maxMessageBytes) :
    ((∃ result, segmentClientMessage C envelope = some result ∧
        ReturnsOrFails C envelope (C.toVec message) result) ↔
      (C.toVec envelope).length ≤ segmentTargetBytes ∨ (C.toVec message).length ≤ 3 ∨
        ReachesFit C envelope (C.toVec message)) ∧
    (¬((C.toVec envelope).length ≤ segmentTargetBytes ∨ (C.toVec message).length ≤ 3 ∨
        ReachesFit C envelope (C.toVec message)) →
      ∀ passes, segmentLoop C envelope (C.toVec message) passes
        (firstCount (C.toVec message).length) = none) := by
  constructor
  · unfold segmentClientMessage
    by_cases hsmall : (C.toVec envelope).length ≤ segmentTargetBytes
    · rw [if_pos hsmall]
      refine iff_of_true ⟨_, rfl, Or.inl ⟨_, rfl, fun segment hmem => ?_⟩⟩ (Or.inl hsmall)
      obtain rfl := List.mem_singleton.mp hmem
      exact hsmall.trans (by decide)
    rw [if_neg hsmall, if_neg (not_not.mpr hkind), hmessage]
    simp only [if_neg (Nat.not_lt_of_le hsize), hsmall, false_or]
    constructor
    · rintro ⟨result, hresult, -⟩
      rcases Nat.lt_or_ge 3 (C.toVec message).length with hfour | hthree
      · exact Or.inr (reachesFit_of_segmentLoop hsize hfour hresult)
      · exact Or.inl hthree
    · intro h
      rcases Nat.lt_or_ge 3 (C.toVec message).length with hfour | hthree
      · exact segmentLoop_of_reachesFit hsize (by omega) (h.resolve_left (by omega))
      · exact segmentLoop_of_le_three hthree
  · intro h passes
    obtain ⟨-, hfour, hreaches⟩ := by simpa only [not_or] using h
    cases hloop : segmentLoop C envelope (C.toVec message) passes
        (firstCount (C.toVec message).length) with
    | none => rfl
    | some result =>
      exact absurd (reachesFit_of_segmentLoop hsize (by omega) hloop) hreaches

section SecondSplit

variable {clientId : String} (hplain : ∀ c ∈ clientId.toList, Codec.IsPlain c)
  (hid : clientId.length = 102000)

/-- The length of the envelope of a chunk of 45000 letters, without its client id and its text. -/
theorem length_toVec_letters_rest {count id : ℕ} (hcount : count < 10) (hlt : id < 10) :
    ((lettersCodec 45000).toVec (.object (segmentMembers "client_message_chunk" "" "env" "stream" 1
      45008 count id ""))).length = 200 := by
  have hrest : ∀ count < 10, ∀ id < 10, ((lettersCodec 45000).toVec (.object (segmentMembers
      "client_message_chunk" "" "env" "stream" 1 45008 count id ""))).length = 200 := by
    decide +kernel
  exact hrest _ hcount _ hlt

include hplain hid

/-- With a client id of 102000 letters they do not fit in one chunk. -/
theorem not_splitFits_one :
    ¬SplitFits (lettersCodec 45000)
      (clientMessageEnvelope clientId "env" "stream" 1 (.object (letters 45000)))
      ((lettersCodec 45000).toVec (.object (letters 45000))) 1 := by
  have hlength := length_toVec_letters 45000
  have hsize : Slots.pieceSize 45008 1 = 45008 := by decide +kernel
  have hone : (Slots.chunksOf 45008 ((lettersCodec 45000).toVec (.object (letters 45000)))).length =
      1 := by
    rw [Slots.length_chunksOf, hlength]
    decide +kernel
  obtain ⟨chunk, hchunk⟩ := List.length_eq_one_iff.mp hone
  have hflatten := Slots.flatten_chunksOf (by decide : 0 < 45008)
    ((lettersCodec 45000).toVec (.object (letters 45000)))
  rw [hchunk, List.flatten_singleton] at hflatten
  have htext : ∀ c ∈ ((lettersCodec 45000).encode chunk).toList, Codec.IsPlain c :=
    fun c hc => isPlain_of_mem_encode hc
  have hencode : ((lettersCodec 45000).encode chunk).length = (chunk.length + 2) / 3 * 4 :=
    Base64.length_encode chunk
  intro h
  rw [SplitFits, hlength, hsize] at h
  have hle := h _ (List.mem_mapIdx.mpr ⟨0, by rw [hone]; exact one_pos, rfl⟩)
  simp only [hchunk, List.getElem_cons_zero, List.length_singleton] at hle
  rw [clientSegment_eq, hlength, length_toVec_segmentMembers_text (lawful_lettersCodec _) _ _ _ _ _
      _ _ _ htext, length_toVec_segmentMembers_clientId (lawful_lettersCodec _) _ _ _ _ _ _ _ _
      hplain, hencode, hflatten, hlength, hid, length_toVec_letters_rest (by decide) (by decide),
    maxFrameBytes] at hle
  omega

/-- In two chunks they do. -/
theorem splitFits_two :
    SplitFits (lettersCodec 45000)
      (clientMessageEnvelope clientId "env" "stream" 1 (.object (letters 45000)))
      ((lettersCodec 45000).toVec (.object (letters 45000))) 2 := by
  have hsize : Slots.pieceSize 45008 2 = 22504 := by decide +kernel
  have hpieces : Slots.pieces 45008 2 = 2 := by decide +kernel
  refine splitFits_of_le (lawful_lettersCodec _) rfl ?_
  rw [length_toVec_letters, hsize, hpieces]
  intro id hlt
  rw [length_toVec_segmentMembers_clientId (lawful_lettersCodec _) _ _ _ _ _ _ _ _ hplain, hid,
    length_toVec_letters_rest (by decide) (by omega), maxFrameBytes]
  decide

end SecondSplit

/-- A message of 45000 letters and a client id of 102000 letters: the loop splits twice. -/
theorem segmentation_returns_second :
    let clientId := String.ofList (List.replicate 102000 'x')
    let envelope := clientMessageEnvelope clientId "env" "stream" 1 (.object (letters 45000))
    let bytes := (lettersCodec 45000).toVec (.object (letters 45000))
    ¬SplitFits (lettersCodec 45000) envelope bytes (firstCount bytes.length) ∧
      ∃ result, segmentClientMessage (lettersCodec 45000) envelope = some result ∧
        ReturnsOrFails (lettersCodec 45000) envelope bytes result := by
  intro clientId envelope bytes
  have hplain : ∀ c ∈ clientId.toList, Codec.IsPlain c := isPlain_replicate _
  have hid : clientId.length = 102000 := by
    rw [String.length_ofList, List.length_replicate]
  have hlength : bytes.length = 45008 := length_toVec_letters 45000
  have hfirst : firstCount 45008 = 1 := by decide +kernel
  have hpieces : ∀ j ≤ 2, 1 ≤ j → Slots.pieces 45008 j = j := by decide +kernel
  have hreaches : ReachesFit (lettersCodec 45000) envelope bytes := by
    refine ⟨2, ?_, ?_, splitFits_two hplain hid⟩
    · rw [hlength, hfirst]
      decide
    · rw [hlength, hfirst]
      exact fun j hj hle => hpieces j hle hj
  constructor
  · rw [hlength, hfirst]
    exact not_splitFits_one hplain hid
  · exact (segmentation_returns_iff (kind_clientMessageEnvelope _ _ _ _ _)
      (message_clientMessageEnvelope _ _ _ _ _) (by rw [hlength]; decide)).1.mpr
        (Or.inr (Or.inr hreaches))

section LongClientId

variable {C : Codec} {clientId envId streamId : String} {seqId : UInt64} {message : Value}

/-- An object is longer than a string of plain characters in it. -/
theorem length_lt_toVec_object (hC : C.Lawful) {members : Map} {key value : String}
    (hmem : (key, .string value) ∈ members) (hvalue : ∀ c ∈ value.toList, Codec.IsPlain c) :
    value.length < (C.toVec (.object members)).length := by
  rw [hC.length_toVec_object (List.ne_nil_of_mem hmem)]
  have hle := List.single_le_sum (l := members.map fun kv =>
      (C.toVec (.string kv.1)).length + (C.toVec kv.2).length + 2) (fun _ _ => Nat.zero_le _) _
    (List.mem_map_of_mem hmem)
  rw [hC.length_toVec_string value hvalue] at hle
  omega

variable (hC : C.Lawful) (hplain : ∀ c ∈ clientId.toList, Codec.IsPlain c)
  (hlong : maxFrameBytes ≤ clientId.length)

include hC hplain hlong

/-- With a client id as long as a frame no split fits. -/
theorem not_fits_of_long {bytes : Bytes} (hpos : 0 < bytes.length) {size : ℕ} (hsize : 0 < size) :
    ¬∀ segment ∈ clientSegments C (clientMessageEnvelope clientId envId streamId seqId message)
      bytes size, (C.toVec segment).length ≤ maxFrameBytes := by
  intro h
  have hchunk : 0 < (Slots.chunksOf size bytes).length := by
    rw [List.length_pos_iff]
    intro hnil
    have hflatten := Slots.flatten_chunksOf hsize bytes
    rw [hnil, List.flatten_nil] at hflatten
    rw [← hflatten] at hpos
    exact absurd hpos (lt_irrefl 0)
  have hle := h _ (List.mem_mapIdx.mpr ⟨0, hchunk, rfl⟩)
  rw [clientSegment_eq] at hle
  have hmem : ("client_id", .string clientId) ∈ segmentMembers "client_message_chunk" clientId
      envId streamId seqId bytes.length (Slots.chunksOf size bytes).length 0
      (C.encode (Slots.chunksOf size bytes)[0]) := List.mem_cons_self
  have hlt := length_lt_toVec_object hC hmem hplain
  omega

/-- With such a client id and a message of four bytes or more the loop never returns. -/
theorem segmentClientMessage_of_long (hfour : 4 ≤ (C.toVec message).length)
    (hsize : (C.toVec message).length ≤ maxMessageBytes) :
    segmentClientMessage C (clientMessageEnvelope clientId envId streamId seqId message) =
      none := by
  have hlarge : segmentTargetBytes <
      (C.toVec (clientMessageEnvelope clientId envId streamId seqId message)).length := by
    have htarget : segmentTargetBytes < maxFrameBytes := by decide
    rw [clientMessageEnvelope_eq]
    exact htarget.trans (hlong.trans_lt
      (length_lt_toVec_object hC List.mem_cons_self hplain))
  unfold segmentClientMessage
  rw [if_neg (Nat.not_le_of_lt hlarge), if_neg (not_not.mpr (kind_clientMessageEnvelope _ _ _ _ _)),
    message_clientMessageEnvelope]
  simp only [if_neg (Nat.not_lt_of_le hsize)]
  cases hloop : segmentLoop C (clientMessageEnvelope clientId envId streamId seqId message)
      (C.toVec message) ((C.toVec message).length + 1) (firstCount (C.toVec message).length) with
  | none => rfl
  | some result =>
    obtain ⟨m, -, -, hfits⟩ := reachesFit_of_segmentLoop hsize hfour hloop
    exact absurd hfits (not_fits_of_long hC hplain hlong (by omega) (Slots.pieceSize_pos _ _))

end LongClientId

/-- For the message `null` and a client id of 160000 letters the loop never returns. -/
theorem segmentation_never_returns :
    ¬∃ result, segmentClientMessage (plainCodec []) (clientMessageEnvelope
        (String.ofList (List.replicate 160000 'x')) "env" "stream" 1 .null) = some result ∧
      ReturnsOrFails (plainCodec []) (clientMessageEnvelope
          (String.ofList (List.replicate 160000 'x')) "env" "stream" 1 .null)
        ((plainCodec []).toVec .null) result := by
  have hlong : maxFrameBytes ≤ (String.ofList (List.replicate 160000 'x')).length := by
    rw [String.length_ofList, List.length_replicate]
    decide
  rintro ⟨result, hresult, -⟩
  rw [segmentClientMessage_of_long (lawful_plainCodec []) (isPlain_replicate _) hlong (by decide)
    (by decide)] at hresult
  exact absurd hresult.symm (Option.some_ne_none result)

end Rcodex
