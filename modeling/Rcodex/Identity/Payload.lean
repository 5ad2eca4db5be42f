import Rcodex.Foundation.JsonText
import Rcodex.Foundation.Decode
import Rcodex.Foundation.Result
import Mathlib.Data.List.Forall2

/-!
# What the device key signs

`buildEnrollmentSigningPayload` and `buildConnectionSigningPayload` check a challenge of the relay
and write the text that the device key signs; `validateRemoteSession` and
`validateAndBuildConnectionSigningPayload` check the session and bind the challenge to it.
`EnrollmentMatches` and `ConnectionMatches` say what is accepted.

What the code takes from its libraries is given by a `SigningLibrary`.
-/

namespace Rcodex

open Json Result

/-- Why a payload is refused. -/
inductive SigningError where
  | target
  | nonceEncoding
  | shortNonce
  | digestEncoding
  | digestLength
  | enrollmentMismatch
  | missingIdentity
  | identityMismatch
  | contractMismatch
  | sessionMismatch
  | sessionScopes
  | sessionToken
  | sessionExpiration
  | sessionExpired
  | challengeMismatch
  | tokenDigest
  | otherToken
deriving DecidableEq

/-- The text of an error, as the source reports it; the texts of the libraries are left out. -/
def SigningError.text : SigningError → String
  | .target => ""
  | .nonceEncoding => "remote-control nonce is not base64url"
  | .shortNonce => "remote-control nonce is too short"
  | .digestEncoding => "remote-control digest is not base64url"
  | .digestLength => "remote-control digest is not a SHA-256 value"
  | .enrollmentMismatch =>
    "remote-control enrollment challenge does not match the local enrollment"
  | .missingIdentity => "remote-control enrollment challenge is missing device identity hash"
  | .identityMismatch =>
    "remote-control enrollment challenge does not match local device identity"
  | .contractMismatch =>
    "remote-control websocket challenge does not match the expected relay contract"
  | .sessionMismatch => "remote-control session does not match the local enrollment"
  | .sessionScopes => "remote-control session has unexpected scopes"
  | .sessionToken => "remote-control session token is empty or malformed"
  | .sessionExpiration => "remote-control session expiration is not RFC 3339"
  | .sessionExpired => "remote-control session is already expired"
  | .challengeMismatch => "remote-control websocket challenge does not match the active session"
  | .tokenDigest => "remote-control websocket challenge token digest is invalid"
  | .otherToken => "remote-control websocket challenge is bound to a different session token"

/-- The functions of the libraries. -/
structure SigningLibrary where
  /-- `Url::parse` of the first text and `Url::join` with the second: the ASCII serialization of
  the origin and the path of the result. -/
  join : String → String → Option (String × String)
  /-- `Sha256::digest` -/
  sha256 : List UInt8 → List UInt8
  /-- `URL_SAFE_NO_PAD.encode` -/
  encode : List UInt8 → String
  /-- `URL_SAFE_NO_PAD.decode` -/
  decode : String → Option (List UInt8)
  /-- The second of an RFC 3339 text. -/
  timestamp : String → Option Int64
  /-- The text of a double; no payload has one. -/
  floatText : F64 → List UInt8

/-- `API_BASE` -/
def apiBase : String := "https://chatgpt.com/backend-api"

/-- `SESSION_SCOPE` -/
def sessionScope : String := "remote_control_controller_websocket"

/-- `SIGNING_DOMAIN` -/
def signingDomain : String := "codex-device-key-sign-payload/v1"

/-- `EnrollmentRecord` -/
structure EnrollmentRecord where
  /-- The user of the account. -/
  accountUserId : String
  /-- The signature algorithm. -/
  algorithm : String
  /-- The client. -/
  clientId : String
  /-- The device key. -/
  keyId : String
  /-- How the key is protected. -/
  protectionClass : String
  /-- The public key. -/
  publicKeySpkiDerBase64 : String
deriving DecidableEq

/-- `EnrollmentChallenge` -/
structure EnrollmentChallenge where
  /-- The user of the account. -/
  accountUserId : String
  /-- Whom the payload is for. -/
  audience : String
  /-- When the challenge expires. -/
  challengeExpiresAt : Int64
  /-- The challenge. -/
  challengeId : String
  /-- The token of the challenge. -/
  challengeToken : String
  /-- The client. -/
  clientId : String
  /-- The hash of the device identity. -/
  deviceIdentityHash : Option String
  /-- A nonce. -/
  nonce : String
  /-- What the challenge is for. -/
  purpose : String
  /-- The origin of the request it is for. -/
  targetOrigin : String
  /-- The path of the request it is for. -/
  targetPath : String
deriving DecidableEq

/-- `ConnectionChallenge` -/
structure ConnectionChallenge where
  /-- The user of the account. -/
  accountUserId : String
  /-- Whom the payload is for. -/
  audience : String
  /-- The client. -/
  clientId : String
  /-- A nonce. -/
  nonce : String
  /-- What the challenge is for. -/
  purpose : String
  /-- What the session may do. -/
  scopes : List String
  /-- The session. -/
  sessionId : String
  /-- The origin of the request it is for. -/
  targetOrigin : String
  /-- The path of the request it is for. -/
  targetPath : String
  /-- When the session token expires. -/
  tokenExpiresAt : Int64
  /-- The hash of the session token. -/
  tokenSha256Base64url : String
deriving DecidableEq

/-- `RemoteControlSession` -/
structure RemoteControlSession where
  /-- The user of the account. -/
  accountUserId : String
  /-- The client. -/
  clientId : String
  /-- When the session expires. -/
  expiresAt : String
  /-- The session token. -/
  remoteControlToken : String
  /-- What the session may do. -/
  scopes : List String
deriving DecidableEq

/-! ### The texts -/

section Payloads

variable (library : SigningLibrary)

/-- `serde_json::to_vec` -/
def SigningLibrary.toVec (document : Value) : List UInt8 := compact library.floatText document

/-- `SigningEnvelope` -/
def signingEnvelope (payload : Value) : Value :=
  .object [("domain", .string signingDomain), ("payload", payload)]

/-- `EnrollmentSigningPayload` -/
def enrollmentSigningPayload (challenge : EnrollmentChallenge) (challengeHash : String) : Value :=
  .object [("accountUserId", .string challenge.accountUserId),
    ("audience", .string "remote_control_client_enrollment"),
    ("challengeExpiresAt", .ofI64 challenge.challengeExpiresAt),
    ("challengeId", .string challenge.challengeId),
    ("clientId", .string challenge.clientId),
    ("deviceIdentitySha256Base64url", .string challengeHash),
    ("nonce", .string challenge.nonce),
    ("targetOrigin", .string challenge.targetOrigin),
    ("targetPath", .string challenge.targetPath),
    ("type", .string "remoteControlClientEnrollment")]

/-- `ConnectionSigningPayload` -/
def connectionSigningPayload (challenge : ConnectionChallenge) : Value :=
  .object [("accountUserId", .string challenge.accountUserId),
    ("audience", .string challenge.audience),
    ("clientId", .string challenge.clientId),
    ("nonce", .string challenge.nonce),
    ("scopes", .array (challenge.scopes.map .string)),
    ("sessionId", .string challenge.sessionId),
    ("targetOrigin", .string challenge.targetOrigin),
    ("targetPath", .string challenge.targetPath),
    ("tokenExpiresAt", .ofI64 challenge.tokenExpiresAt),
    ("tokenSha256Base64url", .string challenge.tokenSha256Base64url),
    ("type", .string "remoteControlClientConnection")]

/-- `device_identity_hash` -/
def deviceIdentityHash (record : EnrollmentRecord) : String :=
  library.encode (library.sha256 (library.toVec (.object [
    ("algorithm", .string record.algorithm), ("keyId", .string record.keyId),
    ("protectionClass", .string record.protectionClass),
    ("publicKeySpkiDerBase64", .string record.publicKeySpkiDerBase64)])))

/-- `relay_target` -/
def relayTarget (relativePath : String) : Except SigningError (String × String) :=
  context .target
    (library.join (apiBase ++ "/") (.ofList (relativePath.toList.dropWhile (· = '/'))))

/-- `validate_nonce` -/
def validateNonce (value : String) : Except SigningError Unit := do
  let decoded ← context .nonceEncoding (library.decode value)
  bailWhen (decoded.length < 32) .shortNonce

/-- `validate_sha256` -/
def validateSha256 (value : String) : Except SigningError Unit := do
  let decoded ← context .digestEncoding (library.decode value)
  bailWhen (decoded.length ≠ 32) .digestLength

/-- `build_enrollment_signing_payload` -/
def buildEnrollmentSigningPayload (record : EnrollmentRecord) (challenge : EnrollmentChallenge)
    (expectedRelativePath : String) (requireDeviceIdentityHash : Bool) :
    Except SigningError (List UInt8) := do
  validateNonce library challenge.nonce
  let expected ← relayTarget library expectedRelativePath
  bailWhen (challenge.purpose ≠ "remote_control_client_enrollment" ∨
    challenge.audience ≠ "remote_control_client_enrollment" ∨
    challenge.accountUserId ≠ record.accountUserId ∨ challenge.clientId ≠ record.clientId ∨
    challenge.targetOrigin ≠ expected.1 ∨ challenge.targetPath ≠ expected.2) .enrollmentMismatch
  bailWhen (requireDeviceIdentityHash = true ∧ challenge.deviceIdentityHash = none)
    .missingIdentity
  let localHash := deviceIdentityHash library record
  let challengeHash := challenge.deviceIdentityHash.getD localHash
  bailWhen (challengeHash ≠ localHash) .identityMismatch
  return library.toVec (signingEnvelope (enrollmentSigningPayload challenge challengeHash))

/-- `build_connection_signing_payload` -/
def buildConnectionSigningPayload (challenge : ConnectionChallenge) :
    Except SigningError (List UInt8) := do
  validateNonce library challenge.nonce
  validateSha256 library challenge.tokenSha256Base64url
  let expected ← relayTarget library "/codex/remote/control/client"
  bailWhen (challenge.purpose ≠ "remote_control_client_websocket" ∨
    challenge.audience ≠ "remote_control_client_websocket" ∨
    challenge.targetOrigin ≠ expected.1 ∨ challenge.targetPath ≠ expected.2 ∨
    challenge.scopes ≠ [sessionScope]) .contractMismatch
  return library.toVec (signingEnvelope (connectionSigningPayload challenge))

/-! ### The session -/

/-- `validate_session_secret` -/
def validateSessionSecret (value : String) : Except SigningError Unit :=
  bailWhen (value = "" ∨ Text.trim value ≠ value ∨ value.toList.any Text.isWhitespace = true)
    .sessionToken

/-- `validate_remote_session` -/
def validateRemoteSession (enrollment : EnrollmentRecord) (session : RemoteControlSession)
    (nowEpoch : Int64) : Except SigningError Int64 := do
  bailWhen (session.clientId ≠ enrollment.clientId ∨
    session.accountUserId ≠ enrollment.accountUserId) .sessionMismatch
  bailWhen (session.scopes ≠ [sessionScope]) .sessionScopes
  validateSessionSecret session.remoteControlToken
  let expiresAt ← context .sessionExpiration (library.timestamp session.expiresAt)
  bailWhen (expiresAt ≤ nowEpoch) .sessionExpired
  return expiresAt

/-- `constant_time_equal` -/
def constantTimeEqual (left right : List UInt8) : Bool :=
  if left.length ≠ right.length then false
  else (left.zip right).foldl (fun difference pair => difference ||| (pair.1 ^^^ pair.2)) 0 == 0

/-- `validate_and_build_connection_signing_payload` -/
def validateAndBuildConnectionSigningPayload (enrollment : EnrollmentRecord)
    (session : RemoteControlSession) (challenge : ConnectionChallenge) (nowEpoch : Int64) :
    Except SigningError (List UInt8) := do
  let sessionExpiration ← validateRemoteSession library enrollment session nowEpoch
  bailWhen (challenge.clientId ≠ enrollment.clientId ∨
    challenge.accountUserId ≠ enrollment.accountUserId ∨
    challenge.tokenExpiresAt ≠ sessionExpiration ∨ challenge.tokenExpiresAt ≤ nowEpoch)
    .challengeMismatch
  let expected := library.sha256 (Text.utf8 session.remoteControlToken)
  let supplied ← context .tokenDigest (library.decode challenge.tokenSha256Base64url)
  bailWhen (constantTimeEqual expected supplied ≠ true) .otherToken
  buildConnectionSigningPayload library challenge

end Payloads

/-! ### What is accepted -/

/-- No bit differs exactly when all bytes are equal. -/
theorem foldl_difference_eq_zero {pairs : List (UInt8 × UInt8)} {difference : UInt8} :
    pairs.foldl (fun difference pair => difference ||| (pair.1 ^^^ pair.2)) difference = 0 ↔
      difference = 0 ∧ ∀ pair ∈ pairs, pair.1 = pair.2 := by
  induction pairs generalizing difference with
  | nil => simp
  | cons pair pairs ih =>
    rw [List.foldl_cons, ih, UInt8.or_eq_zero_iff, UInt8.xor_eq_zero_iff, List.forall_mem_cons,
      and_assoc]

/-- The comparison in constant time is equality. -/
theorem constantTimeEqual_iff {left right : List UInt8} :
    constantTimeEqual left right = true ↔ left = right := by
  unfold constantTimeEqual
  by_cases hlength : left.length = right.length
  · rw [if_neg (not_not.mpr hlength), beq_iff_eq, foldl_difference_eq_zero,
      ← List.forall₂_eq_eq_eq, List.forall₂_iff_zip]
    simp [hlength]
  · rw [if_pos hlength]
    exact iff_of_false Bool.false_ne_true fun heq => hlength (congrArg List.length heq)

section Accepted

variable {library : SigningLibrary}

/-- What an enrollment challenge must be for its payload to be built. -/
structure EnrollmentMatches (library : SigningLibrary) (record : EnrollmentRecord)
    (challenge : EnrollmentChallenge) (relativePath : String) (requireHash : Bool) : Prop where
  /-- The nonce is long enough. -/
  nonce : ∃ decoded, library.decode challenge.nonce = some decoded ∧ 32 ≤ decoded.length
  /-- It is for this request. -/
  target : relayTarget library relativePath = .ok (challenge.targetOrigin, challenge.targetPath)
  /-- It is an enrollment challenge. -/
  purpose : challenge.purpose = "remote_control_client_enrollment"
  /-- It is for the enrollment. -/
  audience : challenge.audience = "remote_control_client_enrollment"
  /-- It is for the user. -/
  accountUserId : challenge.accountUserId = record.accountUserId
  /-- It is for the client. -/
  clientId : challenge.clientId = record.clientId
  /-- It has the hash if it must. -/
  present : requireHash = true → challenge.deviceIdentityHash ≠ none
  /-- It has no other hash. -/
  identity : ∀ hash ∈ challenge.deviceIdentityHash, hash = deviceIdentityHash library record

/-- A nonce is accepted when it decodes to at least 32 bytes. -/
theorem validateNonce_eq_ok_iff {value : String} {u : Unit} :
    validateNonce library value = .ok u ↔
      ∃ decoded, library.decode value = some decoded ∧ 32 ≤ decoded.length := by
  simp only [validateNonce, bind_eq_ok_iff, context_eq_ok_iff, bailWhen_eq_ok_iff, not_lt]

/-- A digest is accepted when it decodes to 32 bytes. -/
theorem validateSha256_eq_ok_iff {value : String} {u : Unit} :
    validateSha256 library value = .ok u ↔
      ∃ decoded, library.decode value = some decoded ∧ decoded.length = 32 := by
  simp only [validateSha256, bind_eq_ok_iff, context_eq_ok_iff, bailWhen_eq_ok_iff, not_not]

/-- Which enrollment payloads are built. -/
theorem buildEnrollmentSigningPayload_eq_ok_iff {record : EnrollmentRecord}
    {challenge : EnrollmentChallenge} {relativePath : String} {requireHash : Bool}
    {bytes : List UInt8} :
    buildEnrollmentSigningPayload library record challenge relativePath requireHash = .ok bytes ↔
      EnrollmentMatches library record challenge relativePath requireHash ∧
        library.toVec (signingEnvelope
          (enrollmentSigningPayload challenge (deviceIdentityHash library record))) = bytes := by
  have hidentity : challenge.deviceIdentityHash.getD (deviceIdentityHash library record) =
      deviceIdentityHash library record ↔
        ∀ hash ∈ challenge.deviceIdentityHash, hash = deviceIdentityHash library record := by
    cases challenge.deviceIdentityHash <;> simp
  simp only [buildEnrollmentSigningPayload, bind_eq_ok_iff, validateNonce_eq_ok_iff,
    bailWhen_eq_ok_iff, pure_eq_ok_iff, not_or, not_not, not_and]
  constructor
  · rintro ⟨-, hnonce, expected, htarget, -, ⟨hpurpose, haudience, haccount, hclient, horigin,
      hpath⟩, -, hpresent, -, hhash, hbytes⟩
    rw [hhash] at hbytes
    exact ⟨⟨hnonce, by rw [htarget, horigin, hpath], hpurpose, haudience, haccount, hclient,
      hpresent, hidentity.mp hhash⟩, hbytes⟩
  · intro h
    obtain ⟨h, hbytes⟩ := h
    have hhash := hidentity.mpr h.identity
    exact ⟨(), h.nonce, _, h.target, (), ⟨h.purpose, h.audience, h.accountUserId, h.clientId, rfl,
      rfl⟩, (), h.present, (), hhash, by rw [hhash, hbytes]⟩

/-- What a connection challenge must be for its payload to be built. -/
structure ConnectionMatches (library : SigningLibrary) (challenge : ConnectionChallenge) :
    Prop where
  /-- The nonce is long enough. -/
  nonce : ∃ decoded, library.decode challenge.nonce = some decoded ∧ 32 ≤ decoded.length
  /-- The hash of the token is a digest. -/
  digest : ∃ decoded, library.decode challenge.tokenSha256Base64url = some decoded ∧
    decoded.length = 32
  /-- It is for the websocket. -/
  target : relayTarget library "/codex/remote/control/client" =
    .ok (challenge.targetOrigin, challenge.targetPath)
  /-- It is a websocket challenge. -/
  purpose : challenge.purpose = "remote_control_client_websocket"
  /-- It is for the websocket. -/
  audience : challenge.audience = "remote_control_client_websocket"
  /-- It allows what a controller does. -/
  scopes : challenge.scopes = [sessionScope]

/-- Which connection payloads are built. -/
theorem buildConnectionSigningPayload_eq_ok_iff {challenge : ConnectionChallenge}
    {bytes : List UInt8} :
    buildConnectionSigningPayload library challenge = .ok bytes ↔
      ConnectionMatches library challenge ∧
        library.toVec (signingEnvelope (connectionSigningPayload challenge)) = bytes := by
  simp only [buildConnectionSigningPayload, bind_eq_ok_iff, validateNonce_eq_ok_iff,
    validateSha256_eq_ok_iff, bailWhen_eq_ok_iff, pure_eq_ok_iff, not_or, not_not]
  constructor
  · rintro ⟨-, hnonce, -, hdigest, expected, htarget, -, ⟨hpurpose, haudience, horigin, hpath,
      hscopes⟩, hbytes⟩
    exact ⟨⟨hnonce, hdigest, by rw [htarget, horigin, hpath], hpurpose, haudience, hscopes⟩,
      hbytes⟩
  · intro h
    obtain ⟨h, hbytes⟩ := h
    exact ⟨(), h.nonce, (), h.digest, _, h.target, (), ⟨h.purpose, h.audience, rfl, rfl,
      h.scopes⟩, hbytes⟩

/-- What a session of an enrollment must be. -/
structure SessionMatches (enrollment : EnrollmentRecord) (session : RemoteControlSession) :
    Prop where
  /-- It is for the client. -/
  clientId : session.clientId = enrollment.clientId
  /-- It is for the user. -/
  accountUserId : session.accountUserId = enrollment.accountUserId
  /-- It allows what a controller does. -/
  scopes : session.scopes = [sessionScope]
  /-- Its token is well formed. -/
  token : validateSessionSecret session.remoteControlToken = .ok ()

/-- Which sessions are accepted. -/
theorem validateRemoteSession_eq_ok_iff {enrollment : EnrollmentRecord}
    {session : RemoteControlSession} {nowEpoch expiresAt : Int64} :
    validateRemoteSession library enrollment session nowEpoch = .ok expiresAt ↔
      SessionMatches enrollment session ∧ library.timestamp session.expiresAt = some expiresAt ∧
        nowEpoch < expiresAt := by
  simp only [validateRemoteSession, bind_eq_ok_iff, context_eq_ok_iff, bailWhen_eq_ok_iff,
    pure_eq_ok_iff, not_or, not_not, Int64.not_le]
  constructor
  · intro h
    obtain ⟨-, ⟨hclient, haccount⟩, -, hscopes, _, htoken, expires, htimestamp, -, hlt, rfl⟩ := h
    exact ⟨⟨hclient, haccount, hscopes, htoken⟩, htimestamp, hlt⟩
  · intro h
    obtain ⟨h, htimestamp, hlt⟩ := h
    exact ⟨(), ⟨h.clientId, h.accountUserId⟩, (), h.scopes, (), h.token, expiresAt, htimestamp, (),
      hlt, rfl⟩

/-- The challenge is bound to an unexpired session of the enrollment. -/
structure BoundToSession (library : SigningLibrary) (enrollment : EnrollmentRecord)
    (session : RemoteControlSession) (challenge : ConnectionChallenge) (nowEpoch : Int64) :
    Prop where
  /-- The session is one of the enrollment. -/
  ofEnrollment : SessionMatches enrollment session
  /-- The challenge is for the client. -/
  clientId : challenge.clientId = enrollment.clientId
  /-- The challenge is for the user. -/
  accountUserId : challenge.accountUserId = enrollment.accountUserId
  /-- The challenge names the second in which the session expires. -/
  expiresAt : library.timestamp session.expiresAt = some challenge.tokenExpiresAt
  /-- The session has not expired. -/
  unexpired : nowEpoch < challenge.tokenExpiresAt
  /-- The challenge names the hash of the session token. -/
  token : library.decode challenge.tokenSha256Base64url =
    some (library.sha256 (Text.utf8 session.remoteControlToken))

/-- Which payloads of a session are built. -/
theorem validateAndBuildConnectionSigningPayload_eq_ok_iff {enrollment : EnrollmentRecord}
    {session : RemoteControlSession} {challenge : ConnectionChallenge} {nowEpoch : Int64}
    {bytes : List UInt8} :
    validateAndBuildConnectionSigningPayload library enrollment session challenge nowEpoch =
        .ok bytes ↔
      BoundToSession library enrollment session challenge nowEpoch ∧
        ConnectionMatches library challenge ∧
          library.toVec (signingEnvelope (connectionSigningPayload challenge)) = bytes := by
  simp only [validateAndBuildConnectionSigningPayload, bind_eq_ok_iff, context_eq_ok_iff,
    validateRemoteSession_eq_ok_iff, bailWhen_eq_ok_iff, not_or, not_not, Int64.not_le,
    constantTimeEqual_iff, buildConnectionSigningPayload_eq_ok_iff]
  constructor
  · rintro ⟨expiration, ⟨hsession, htimestamp, -⟩, -, ⟨hclient, haccount, rfl, hlt⟩, supplied,
      hdecode, -, rfl, hmatches⟩
    exact ⟨⟨hsession, hclient, haccount, htimestamp, hlt, hdecode⟩, hmatches⟩
  · intro h
    obtain ⟨h, hmatches⟩ := h
    exact ⟨_, ⟨h.ofEnrollment, h.expiresAt, h.unexpired⟩, (), ⟨h.clientId, h.accountUserId, rfl,
      h.unexpired⟩, _, h.token, (), rfl, hmatches⟩

end Accepted

end Rcodex
