import Rcodex.Transport.Reassembler

/-!
# Splitting a client message

`segmentClientMessage` sends an envelope of at most `SEGMENT_TARGET_BYTES` as it is and splits the
message of a larger one into chunks, one envelope a chunk.  The loop of the source asks for more
chunks until every envelope is within `MAX_FRAME_BYTES`; asking for one chunk more can give as many
as before, and then the loop never returns.  It is modelled by recursion on a number of passes, with
the answer `none` when they do not suffice; `segmentLoop_eq_ok_iff` describes its result, and for
that as many passes suffice as the message has bytes.
-/

namespace Rcodex

open Json

/-- The envelope of one chunk. -/
def clientSegment (C : Codec) (envelope : Value) (messageSize segmentCount segmentId : ℕ)
    (chunk : Bytes) : Value :=
  let segment := envelope.asObject.getD []
  let segment := Map.insert segment "type" (.string "client_message_chunk")
  let segment := Map.remove segment "message"
  let segment := Map.insert segment "segment_id" (.ofU64 (.ofNat segmentId))
  let segment := Map.insert segment "segment_count" (.ofU64 (.ofNat segmentCount))
  let segment := Map.insert segment "message_size_bytes" (.ofU64 (.ofNat messageSize))
  let segment := Map.insert segment "message_chunk_base64" (.string (C.encode chunk))
  .object segment

/-- The envelopes of the chunks of `chunkSize` bytes. -/
def clientSegments (C : Codec) (envelope : Value) (messageBytes : Bytes) (chunkSize : ℕ) :
    List Value :=
  let chunks := Slots.chunksOf chunkSize messageBytes
  chunks.mapIdx fun segmentId chunk =>
    clientSegment C envelope messageBytes.length chunks.length segmentId chunk

/-- An envelope is within the frame limit. -/
def withinFrame (C : Codec) (segment : Value) : Bool :=
  decide ((C.toVec segment).length ≤ maxFrameBytes)

/-- The loop of `segment_client_message`, with a bound on the number of passes. -/
def segmentLoop (C : Codec) (envelope : Value) (messageBytes : Bytes) :
    ℕ → ℕ → Option (Except RelayError (List Value))
  | 0, _ => none
  | fuel + 1, segmentCount =>
    let chunkSize := Slots.pieceSize messageBytes.length segmentCount
    let segments := clientSegments C envelope messageBytes chunkSize
    if segments.all (withinFrame C) then some (.ok segments)
    else if chunkSize = 1 then some (.error .metadataTooLarge)
    else segmentLoop C envelope messageBytes fuel (saturatingAdd segments.length 1)

/-- The number of chunks the loop starts with. -/
def firstCount (length : ℕ) : ℕ := max 1 (length ⌈/⌉ segmentTargetBytes)

/-- `segment_client_message`; the answer is `none` when its loop never returns. -/
def segmentClientMessage (C : Codec) (envelope : Value) :
    Option (Except RelayError (List Value)) :=
  if (C.toVec envelope).length ≤ segmentTargetBytes then some (.ok [envelope])
  else if kind envelope ≠ some "client_message" then some (.error .onlyClientMessages)
  else
    match envelope.get "message" with
    | none => some (.error .envelopeWithoutMessage)
    | some message =>
      let messageBytes := C.toVec message
      if maxMessageBytes < messageBytes.length then some (.error .messageTooLarge)
      else segmentLoop C envelope messageBytes (messageBytes.length + 1)
        (firstCount messageBytes.length)

/-! ### The loop -/

/-- All envelopes are within the frame limit when the message is split into `count` chunks. -/
def SplitFits (C : Codec) (envelope : Value) (messageBytes : Bytes) (count : ℕ) : Prop :=
  ∀ segment ∈ clientSegments C envelope messageBytes (Slots.pieceSize messageBytes.length count),
    (C.toVec segment).length ≤ maxFrameBytes

/-- The check of the loop. -/
theorem all_withinFrame_iff {C : Codec} {envelope : Value} {bytes : Bytes} {count : ℕ} :
    (clientSegments C envelope bytes (Slots.pieceSize bytes.length count)).all (withinFrame C) =
      true ↔ SplitFits C envelope bytes count := by
  simp only [List.all_eq_true, withinFrame, decide_eq_true_eq]
  exact Iff.rfl

/-- There is one envelope a chunk. -/
@[simp] theorem length_clientSegments (C : Codec) (envelope : Value) (bytes : Bytes) (count : ℕ) :
    (clientSegments C envelope bytes (Slots.pieceSize bytes.length count)).length =
      Slots.pieces bytes.length count := by
  simp only [clientSegments, List.length_mapIdx, Slots.length_chunksOf]
  rfl

/-- Asking for a number of chunks that gives as many as one less is asking for one less. -/
theorem splitFits_succ_iff {C : Codec} {envelope : Value} {bytes : Bytes} {count : ℕ}
    (hcount : 0 < count) (h : Slots.pieces bytes.length (count + 1) = count) :
    SplitFits C envelope bytes (count + 1) ↔ SplitFits C envelope bytes count := by
  unfold SplitFits
  rw [Slots.pieceSize_eq_of_pieces_eq hcount h]

section Loop

variable {C : Codec} {envelope : Value} {bytes : Bytes}

/-- One pass: the split is returned, the loop fails, or it goes on with one chunk more. -/
theorem segmentLoop_succ (hlen : bytes.length ≤ maxMessageBytes) (fuel count : ℕ) :
    segmentLoop C envelope bytes (fuel + 1) count =
      if (clientSegments C envelope bytes (Slots.pieceSize bytes.length count)).all
          (withinFrame C) then
        some (.ok (clientSegments C envelope bytes (Slots.pieceSize bytes.length count)))
      else if Slots.pieceSize bytes.length count = 1 then some (.error .metadataTooLarge)
      else segmentLoop C envelope bytes fuel (Slots.pieces bytes.length count + 1) := by
  have hpieces : Slots.pieces bytes.length count + 1 < 2 ^ 64 := by
    have hle := Slots.pieces_le_length bytes.length count
    unfold maxMessageBytes at hlen
    omega
  rw [segmentLoop, length_clientSegments, saturatingAdd_of_lt hpieces]

/-- When one chunk more gives as many as before, the loop never returns. -/
theorem segmentLoop_of_stall (hlen : bytes.length ≤ maxMessageBytes) {count : ℕ}
    (hcount : 0 < count) (hstall : Slots.pieces bytes.length (count + 1) = count)
    (hsize : Slots.pieceSize bytes.length count ≠ 1) (hfits : ¬ SplitFits C envelope bytes count)
    (fuel : ℕ) : segmentLoop C envelope bytes fuel (count + 1) = none := by
  induction fuel with
  | zero => rfl
  | succ fuel ih =>
    have hfits' := mt (splitFits_succ_iff hcount hstall).mp hfits
    have hsize' : Slots.pieceSize bytes.length (count + 1) ≠ 1 := by
      rwa [Slots.pieceSize_eq_of_pieces_eq hcount hstall]
    rw [segmentLoop_succ hlen, if_neg (mt all_withinFrame_iff.mp hfits'), if_neg hsize', hstall]
    exact ih

/-- A number of chunks at which the loop stops from `count` on: each number from `count` to it comes
out when it is asked for, and it is the first one for which the envelopes fit. -/
structure FirstFit (C : Codec) (envelope : Value) (bytes : Bytes) (count m : ℕ) : Prop where
  /-- The loop only asks for more. -/
  le : count ≤ m
  /-- Every number on the way comes out. -/
  attained : ∀ j, count ≤ j → j ≤ m → Slots.pieces bytes.length j = j
  /-- No number before fits. -/
  before : ∀ j, count ≤ j → j < m → ¬ SplitFits C envelope bytes j
  /-- This one does. -/
  fits : SplitFits C envelope bytes m

/-- The number the loop starts with comes out. -/
theorem FirstFit.pieces_eq {count m : ℕ} (h : FirstFit C envelope bytes count m) :
    Slots.pieces bytes.length count = count :=
  h.attained count le_rfl h.le

/-- The loop stops at a number that fits. -/
theorem firstFit_iff_of_fits {count m : ℕ} (hattained : Slots.pieces bytes.length count = count)
    (hfits : SplitFits C envelope bytes count) :
    FirstFit C envelope bytes count m ↔ m = count := by
  constructor
  · intro h
    by_contra hne
    exact h.before count le_rfl (lt_of_le_of_ne h.le (Ne.symm hne)) hfits
  · rintro rfl
    refine ⟨le_rfl, fun j hj hj' => ?_, fun j hj hj' => by omega, hfits⟩
    rwa [le_antisymm hj' hj]

/-- The loop goes on from a number that does not fit. -/
theorem firstFit_iff_of_not_fits {count m : ℕ}
    (hattained : Slots.pieces bytes.length count = count)
    (hfits : ¬ SplitFits C envelope bytes count) :
    FirstFit C envelope bytes count m ↔ FirstFit C envelope bytes (count + 1) m := by
  constructor
  · intro h
    have hne : count ≠ m := by
      rintro rfl
      exact hfits h.fits
    exact ⟨lt_of_le_of_ne h.le hne, fun j hj => h.attained j (by omega),
      fun j hj => h.before j (by omega), h.fits⟩
  · intro h
    refine ⟨by have := h.le; omega, fun j hj hj' => ?_, fun j hj hj' => ?_, h.fits⟩
    · rcases Nat.eq_or_lt_of_le hj with rfl | hj
      · exact hattained
      · exact h.attained j hj hj'
    · rcases Nat.eq_or_lt_of_le hj with rfl | hj
      · exact hfits
      · exact h.before j hj hj'

/-- The loop returns the first split that fits, if every number of chunks up to it comes out and
the passes suffice. -/
theorem segmentLoop_eq_ok_iff (hlen : bytes.length ≤ maxMessageBytes) {fuel count : ℕ}
    (hcount : 0 < count) (hattained : Slots.pieces bytes.length count = count)
    {segments : List Value} :
    segmentLoop C envelope bytes fuel count = some (.ok segments) ↔
      ∃ m, m < count + fuel ∧ FirstFit C envelope bytes count m ∧
        segments = clientSegments C envelope bytes (Slots.pieceSize bytes.length m) := by
  induction fuel generalizing count with
  | zero =>
    apply iff_of_false (by simp [segmentLoop])
    intro h
    obtain ⟨m, hlt, hfirst, -⟩ := h
    exact absurd hfirst.le (by omega)
  | succ fuel ih =>
    rw [segmentLoop_succ hlen, hattained]
    by_cases hfits : SplitFits C envelope bytes count
    · rw [if_pos (all_withinFrame_iff.mpr hfits)]
      simp only [firstFit_iff_of_fits hattained hfits]
      constructor
      · intro h
        cases h
        exact ⟨count, by omega, rfl, rfl⟩
      · intro h
        obtain ⟨m, -, rfl, rfl⟩ := h
        rfl
    rw [if_neg (mt all_withinFrame_iff.mp hfits)]
    simp only [firstFit_iff_of_not_fits hattained hfits]
    by_cases hsize : Slots.pieceSize bytes.length count = 1
    · rw [if_pos hsize]
      apply iff_of_false (by simp)
      intro h
      obtain ⟨m, -, hfirst, -⟩ := h
      -- there are no more chunks than bytes
      have hall := Slots.pieces_of_pieceSize_eq_one hsize
      have hle := Slots.pieces_le_length bytes.length (count + 1)
      rw [hfirst.pieces_eq] at hle
      omega
    rw [if_neg hsize]
    rcases Slots.pieces_succ hcount hattained with hstall | hnext
    · rw [segmentLoop_of_stall hlen hcount hstall hsize hfits]
      apply iff_of_false (by simp)
      intro h
      obtain ⟨m, -, hfirst, -⟩ := h
      have hsucc := hfirst.pieces_eq
      omega
    · rw [ih (Nat.succ_pos count) hnext, Nat.succ_add_eq_add_succ]

/-- The loop starts with a number of chunks that comes out. -/
theorem pieces_firstCount (hpos : 0 < bytes.length) :
    Slots.pieces bytes.length (firstCount bytes.length) = firstCount bytes.length := by
  have htarget : 0 < segmentTargetBytes := by decide
  have hone : 1 ≤ bytes.length ⌈/⌉ segmentTargetBytes := by
    by_contra hzero
    have hcover := (ceilDiv_le_iff_le_mul htarget).mp (Nat.le_of_not_lt hzero)
    omega
  rw [firstCount, max_eq_right hone]
  exact Slots.pieces_ceilDiv hpos htarget

end Loop

/-- What is returned for an envelope that has to be split: its message split into the first number
of chunks that fits. -/
theorem segmentClientMessage_eq_ok_iff {C : Codec} {envelope message : Value}
    (hlarge : segmentTargetBytes < (C.toVec envelope).length)
    (hkind : kind envelope = some "client_message")
    (hmessage : envelope.get "message" = some message)
    (hpos : 0 < (C.toVec message).length) {segments : List Value} :
    segmentClientMessage C envelope = some (.ok segments) ↔
      (C.toVec message).length ≤ maxMessageBytes ∧
      ∃ m, FirstFit C envelope (C.toVec message) (firstCount (C.toVec message).length) m ∧
        segments = clientSegments C envelope (C.toVec message)
          (Slots.pieceSize (C.toVec message).length m) := by
  unfold segmentClientMessage
  rw [if_neg (Nat.not_le_of_lt hlarge), if_neg (not_not.mpr hkind), hmessage]
  simp only
  have hfirst : 0 < firstCount (C.toVec message).length :=
    Nat.lt_of_lt_of_le one_pos (le_max_left _ _)
  split_ifs with hlen
  · constructor
    · intro h
      cases h
    · intro h
      obtain ⟨hle, -⟩ := h
      omega
  · rw [segmentLoop_eq_ok_iff (Nat.le_of_not_lt hlen) hfirst (pieces_firstCount hpos)]
    rw [and_iff_right (Nat.le_of_not_lt hlen)]
    refine exists_congr fun m => and_iff_right_of_imp ?_
    intro h
    obtain ⟨hfit, -⟩ := h
    have hattained := hfit.attained m hfit.le le_rfl
    have hle := Slots.pieces_le_length (C.toVec message).length m
    omega

end Rcodex
