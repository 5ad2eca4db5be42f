import Rcodex.Foundation.Codec
import Rcodex.Foundation.Result
import Mathlib.Algebra.Order.Floor.Div
import Mathlib.Data.Nat.Basic

/-!
# Relay envelopes

The constants of `transport.rs`, the errors its functions report with their texts, the accessors
`stringField` and `usizeField`, the filter `serverEnvelopeTargetsActiveStream` and the envelopes
the client builds: `clientMessageEnvelope` of `protocol.rs` and the closing `clientClosed`.
-/

namespace Rcodex

open Json Result

/-! ### Limits -/

/-- `SEGMENT_TARGET_BYTES` -/
def segmentTargetBytes : ℕ := 100 * 1024

/-- `MAX_FRAME_BYTES` -/
def maxFrameBytes : ℕ := 150 * 1024

/-- `MAX_MESSAGE_BYTES` -/
def maxMessageBytes : ℕ := 64 * 1024 * 1024

/-- `MAX_SEGMENTS` -/
def maxSegments : ℕ := maxMessageBytes ⌈/⌉ segmentTargetBytes

/-- `MAX_CONCURRENT_ASSEMBLIES` -/
def maxConcurrentAssemblies : ℕ := 8

/-- `MAX_BUFFERED_ASSEMBLY_BYTES` -/
def maxBufferedAssemblyBytes : ℕ := maxMessageBytes

/-- At most 656 segments make up a message. -/
theorem maxSegments_eq : maxSegments = 656 := rfl

/-- `usize::saturating_add` -/
def saturatingAdd (a b : ℕ) : ℕ := min (a + b) (2 ^ 64 - 1)

/-- Below the largest `usize` the saturating sum is the sum. -/
theorem saturatingAdd_of_lt {a b : ℕ} (h : a + b < 2 ^ 64) : saturatingAdd a b = a + b :=
  Nat.min_eq_left (by omega)

/-- A saturating sum below a bound that fits `usize` is the sum. -/
theorem saturatingAdd_le_iff {a b n : ℕ} (hn : n < 2 ^ 64 - 1) :
    saturatingAdd a b ≤ n ↔ a + b ≤ n := by
  unfold saturatingAdd
  omega

/-- `u64::saturating_add(1)` -/
def saturatingSucc (n : UInt64) : UInt64 := if n = 18446744073709551615 then n else n + 1

/-- Short of the largest `u64` the saturating successor is the successor. -/
theorem toNat_saturatingSucc {n : UInt64} (h : n.toNat < 2 ^ 64 - 1) :
    (saturatingSucc n).toNat = n.toNat + 1 := by
  have hne : n ≠ 18446744073709551615 := by
    rintro rfl
    exact absurd h (by decide)
  rw [saturatingSucc, if_neg hne, UInt64.toNat_add]
  simp only [UInt64.reduceToNat]
  omega

/-- The saturating successor stops at the largest `u64`. -/
theorem toNat_saturatingSucc_eq_min (n : UInt64) :
    (saturatingSucc n).toNat = min (n.toNat + 1) (2 ^ 64 - 1) := by
  have hlt : n.toNat < 2 ^ 64 := n.toNat_lt
  by_cases h : n.toNat < 2 ^ 64 - 1
  · rw [toNat_saturatingSucc h]
    omega
  · have hmax : n = 18446744073709551615 := by
      apply UInt64.toNat_inj.mp
      simp only [UInt64.reduceToNat]
      omega
    rw [hmax]
    decide

/-- Beyond a number there is no number but those from its saturating successor on. -/
theorem eq_saturatingSucc_of_lt {n m : UInt64} (hlt : n < m) (heq : m = saturatingSucc n) :
    m.toNat = n.toNat + 1 := by
  have hnat : n.toNat < m.toNat := UInt64.lt_iff_toNat_lt.mp hlt
  have hm : m.toNat < 2 ^ 64 := m.toNat_lt
  rw [heq, toNat_saturatingSucc (by omega)]

/-! ### Errors -/

/-- The errors of the transport. The last two are panics of the source: an index out of range and
a failed `expect`. -/
inductive RelayError where
  | onlyClientMessages
  | envelopeWithoutMessage
  | messageTooLarge
  | metadataTooLarge
  | segmentTooLarge
  | segmentNotObject
  | noField (name : String)
  | noValidField (name : String)
  | segmentMetadataInvalid
  | segmentNotBase64
  | decodedSizeInvalid
  | tooManyIncomplete
  | metadataChanged
  | segmentChanged
  | reassemblyLimit
  | wrongSize
  | messageNotJson
  | messageNotObject
  | envelopeNotObject
  | differentTarget
  | noSequence
  | sequenceGap
  | noPayload
  | noPendingRequest
  | errorNotObject
  | slotOutOfRange
  | assemblyMissing
deriving DecidableEq

/-- The text of an error, as the source reports it. -/
def RelayError.text : RelayError → String
  | .onlyClientMessages => "only client_message envelopes can be segmented"
  | .envelopeWithoutMessage => "client message envelope has no message"
  | .messageTooLarge => "app-server message exceeds the relay size limit"
  | .metadataTooLarge => "relay segment metadata exceeds the frame size limit"
  | .segmentTooLarge => "remote-control server segment exceeds the frame limit"
  | .segmentNotObject => "remote-control server segment is not an object"
  | .noField name => "relay envelope has no " ++ name
  | .noValidField name => "relay envelope has no valid " ++ name
  | .segmentMetadataInvalid => "remote-control server segment metadata is invalid"
  | .segmentNotBase64 => "remote-control server segment is not base64"
  | .decodedSizeInvalid => "remote-control server segment has an invalid decoded size"
  | .tooManyIncomplete => "too many incomplete remote-control server messages"
  | .metadataChanged => "remote-control server segment metadata changed mid-message"
  | .segmentChanged => "remote-control server segment changed when repeated"
  | .reassemblyLimit => "remote-control server segments exceed the reassembly size limit"
  | .wrongSize => "reassembled remote-control message has the wrong size"
  | .messageNotJson => "reassembled app-server message is invalid"
  | .messageNotObject => "reassembled app-server message is not an object"
  | .envelopeNotObject => "remote-control server envelope is not an object"
  | .differentTarget => "remote-control server envelope targets a different client or host"
  | .noSequence => "server message has no sequence ID"
  | .sequenceGap => "remote-control server message sequence gap"
  | .noPayload => "server message has no app-server payload"
  | .noPendingRequest => "remote-control error has no pending request"
  | .errorNotObject => "remote-control error payload is not an object"
  | .slotOutOfRange => "index out of bounds"
  | .assemblyMissing => "assembly exists"

/-- Whether the source panics instead of returning an error. -/
def RelayError.isPanic : RelayError → Bool
  | .slotOutOfRange | .assemblyMissing => true
  | _ => false

/-- Turn a missing value into an error. -/
def orThrow {α : Type} (error : RelayError) : Option α → Except RelayError α
  | some a => .ok a
  | none => .error error

@[simp] theorem orThrow_some {α : Type} (error : RelayError) (a : α) :
    orThrow error (some a) = .ok a := rfl

@[simp] theorem orThrow_none {α : Type} (error : RelayError) :
    orThrow (α := α) error none = .error error := rfl

/-- A value is found exactly when there is no error. -/
theorem orThrow_eq_ok_iff {α : Type} {error : RelayError} {o : Option α} {a : α} :
    orThrow error o = .ok a ↔ o = some a := by
  cases o <;> simp

/-- `if p { bail!(error) }`; what follows may rely on the failed condition. -/
def bailIf (p : Prop) [Decidable p] (error : RelayError) : Except RelayError (PLift ¬p) :=
  if h : p then .error error else .ok ⟨h⟩

/-- A check is passed exactly when its condition fails. -/
theorem exists_bailIf_iff {p : Prop} [Decidable p] {error : RelayError} {Q : PLift ¬p → Prop} :
    (∃ x, bailIf p error = .ok x ∧ Q x) ↔ ∃ h : ¬p, Q ⟨h⟩ := by
  unfold bailIf
  split_ifs with h
  · simp [h]
  · simp [h]

/-- A computation of the source that may fail but does not panic. -/
def NoPanic {α : Type} (x : Except RelayError α) : Prop :=
  ∀ error, x = .error error → error.isPanic = false

/-- A sequence of computations without a panic does not panic. -/
theorem NoPanic.bind {α β : Type} {x : Except RelayError α} {f : α → Except RelayError β}
    (hx : NoPanic x) (hf : ∀ a, NoPanic (f a)) : NoPanic (x >>= f) := by
  intro error h
  cases x with
  | error e =>
    cases h
    exact hx _ rfl
  | ok a => exact hf a error h

theorem noPanic_pure {α : Type} (a : α) : NoPanic (pure a) :=
  fun _ h => by cases h

theorem noPanic_orThrow {α : Type} {error : RelayError} (h : error.isPanic = false)
    (o : Option α) : NoPanic (orThrow error o) := by
  intro e he
  cases o with
  | none =>
    cases he
    exact h
  | some a => cases he

theorem noPanic_bailIf {p : Prop} [Decidable p] {error : RelayError}
    (h : error.isPanic = false) : NoPanic (bailIf p error) := by
  intro e he
  unfold bailIf at he
  split_ifs at he
  cases he
  exact h

/-! ### Fields -/

/-- The text of the `type` member of an envelope or a message. -/
def kind (v : Value) : Option String := (v.get "type").bind Value.asStr

/-- `string_field` -/
def stringField (object : Map) (name : String) : Except RelayError String :=
  orThrow (.noField name) ((Map.get object name).bind Value.asStr)

/-- `usize_field`; every `u64` is a `usize`. -/
def usizeField (object : Map) (name : String) : Except RelayError ℕ :=
  orThrow (.noValidField name) (((Map.get object name).bind Value.asU64).map UInt64.toNat)

/-- A string field is read exactly when the member is a string. -/
theorem stringField_eq_ok_iff {object : Map} {name s : String} :
    stringField object name = .ok s ↔ Map.get object name = some (.string s) := by
  rw [stringField, orThrow_eq_ok_iff]
  cases Map.get object name <;> simp [Value.asStr_eq_some_iff]

/-- A numeric field is read exactly when the member is an unsigned integer. -/
theorem usizeField_eq_ok_iff {object : Map} {name : String} {k : ℕ} :
    usizeField object name = .ok k ↔
      ∃ n : UInt64, Map.get object name = some (.ofU64 n) ∧ n.toNat = k := by
  rw [usizeField, orThrow_eq_ok_iff]
  cases Map.get object name <;> simp [Value.asU64_eq_some_iff]

theorem noPanic_stringField (object : Map) (name : String) : NoPanic (stringField object name) :=
  noPanic_orThrow rfl _

theorem noPanic_usizeField (object : Map) (name : String) : NoPanic (usizeField object name) :=
  noPanic_orThrow rfl _

/-- `server_envelope_targets_active_stream`. The host is read only when the client agrees. -/
def serverEnvelopeTargetsActiveStream (envelope : Value)
    (clientId environmentId streamId : String) : Except RelayError Bool := do
  let object ← orThrow .envelopeNotObject envelope.asObject
  let client ← stringField object "client_id"
  let _ ← bailIf (client ≠ clientId) .differentTarget
  let env ← stringField object "env_id"
  let _ ← bailIf (env ≠ environmentId) .differentTarget
  let stream ← stringField object "stream_id"
  return decide (stream = streamId)

/-- `client_message_envelope` -/
def clientMessageEnvelope (clientId envId streamId : String) (seqId : UInt64) (message : Value) :
    Value :=
  .ofMembers [("type", .string "client_message"), ("client_id", .string clientId),
    ("seq_id", .ofU64 seqId), ("stream_id", .string streamId), ("env_id", .string envId),
    ("skip_history", .bool false), ("message", message)]

/-- The `client_closed` envelope that ends a stream. -/
def clientClosed (clientId envId streamId : String) (seqId : UInt64) : Value :=
  .ofMembers [("type", .string "client_closed"), ("client_id", .string clientId),
    ("seq_id", .ofU64 seqId), ("stream_id", .string streamId), ("env_id", .string envId)]

/-- The members of the envelope of a client message, in order. -/
theorem clientMessageEnvelope_eq (clientId envId streamId : String) (seqId : UInt64)
    (message : Value) : clientMessageEnvelope clientId envId streamId seqId message =
      .object [("client_id", .string clientId), ("env_id", .string envId), ("message", message),
        ("seq_id", .ofU64 seqId), ("skip_history", .bool false), ("stream_id", .string streamId),
        ("type", .string "client_message")] := by
  simp only [clientMessageEnvelope, Value.ofMembers, Map.insert, List.foldl_cons, List.foldl_nil,
    String.reduceEq, String.reduceLT, ↓reduceIte]

/-- An envelope passes the filter exactly when its client and host are the transport's own; the
answer tells whether its stream is the active one. -/
theorem serverEnvelopeTargetsActiveStream_eq_ok_iff {envelope : Value}
    {clientId environmentId streamId : String} {b : Bool} :
    serverEnvelopeTargetsActiveStream envelope clientId environmentId streamId = .ok b ↔
      envelope.get "client_id" = some (.string clientId) ∧
      envelope.get "env_id" = some (.string environmentId) ∧
      ∃ s, envelope.get "stream_id" = some (.string s) ∧ b = decide (s = streamId) := by
  unfold serverEnvelopeTargetsActiveStream
  simp only [bind_eq_ok_iff, exists_bailIf_iff, orThrow_eq_ok_iff, stringField_eq_ok_iff,
    Value.asObject_eq_some_iff, pure_eq_ok_iff, ne_eq, not_not, exists_prop]
  constructor
  · intro h
    obtain ⟨object, rfl, _, hclient, rfl, _, henv, rfl, stream, hstream, hb⟩ := h
    exact ⟨hclient, henv, stream, hstream, hb.symm⟩
  · intro h
    obtain ⟨hclient, henv, stream, hstream, rfl⟩ := h
    obtain ⟨object, rfl, hclient⟩ := Value.exists_object_of_get hclient
    exact ⟨object, rfl, clientId, hclient, rfl, environmentId, henv, rfl, stream, hstream, rfl⟩

/-! ### Envelopes around the message `{}` -/

/-- One of the two chunks of the message, for the client `client`. -/
def halfObject (envId streamId : String) (seqId segmentId : UInt64) : Value :=
  .ofMembers [("type", .string "server_message_chunk"), ("client_id", .string "client"),
    ("seq_id", .ofU64 seqId), ("stream_id", .string streamId), ("env_id", .string envId),
    ("segment_id", .ofU64 segmentId), ("segment_count", .ofU64 2),
    ("message_size_bytes", .ofU64 2),
    ("message_chunk_base64", .string (if segmentId = 0 then "ew==" else "fQ=="))]

/-- The whole message, for the client `client`. -/
def wholeObject (envId streamId : String) (seqId : UInt64) : Value :=
  .ofMembers [("type", .string "server_message"), ("client_id", .string "client"),
    ("seq_id", .ofU64 seqId), ("stream_id", .string streamId), ("env_id", .string envId),
    ("message", .object [])]

end Rcodex
