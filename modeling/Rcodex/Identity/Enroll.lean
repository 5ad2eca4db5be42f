import Rcodex.Identity.Payload
import Rcodex.Auth.Document
import Rcodex.Foundation.Effect
import Rcodex.Foundation.Base64

/-!
# Enrolling a device key

`enroll` creates a key pair in the Keychain, signs the challenge of the relay with it, has the user
authorize the enrollment, finishes it at the relay and saves the state; if anything fails after the
key was created, it deletes the key.  It acts on a `Device`: the Keychain and the state file.  What
the steps end with is given by an `EnrollOutside`.
-/

namespace Rcodex

open Json Result

/-- Why an enrollment fails. -/
inductive EnrollError where
  | alreadyEnrolled
  | auth
  | start
  | startMismatch
  | challengeExpired
  | trustBinary
  | trustedList
  | accessPolicy
  | createPair
  | incompletePair
  | exportable (length : ℕ)
  | label
  | publicKey
  | point
  | signing (error : SigningError)
  | keyFormat
  | keyEncoding
  | keyLabel
  | search (keyId : String)
  | unexpectedItem (keyId : String)
  | notFound (keyId : String)
  | signature (keyId : String)
  | stepUp
  | finish
  | deletion (keyId : String)
  | stateParent
  | stateDirectory
  | openTemporary
  | writeTemporary
  | finishTemporary
  | flushTemporary
  | protectTemporary
  | installState
deriving DecidableEq

/-- The text of an error, as the source reports it; paths and the texts of the libraries and of the
other modules are left out. -/
def EnrollError.text : EnrollError → String
  | .alreadyEnrolled =>
    "rcodex is already enrolled; remove its state explicitly before re-enrolling"
  | .startMismatch =>
    "remote-control enrollment start does not match the current ChatGPT account"
  | .challengeExpired => "remote-control enrollment challenge is already expired"
  | .trustBinary => "trust the current rcodex binary for Keychain signing"
  | .trustedList => "create rcodex Keychain trusted-application list"
  | .accessPolicy => "create prompt-free rcodex Keychain access policy"
  | .createPair => "create non-exportable P-256 key in the macOS login Keychain"
  | .incompletePair => "Security.framework created an incomplete P-256 key pair"
  | .exportable length => "Security.framework created an exportable private key (" ++
      toString length ++ " bytes); refusing enrollment"
  | .label => "read rcodex device key application label"
  | .publicKey => "export public half of rcodex device key"
  | .point => "expected a 65-byte uncompressed P-256 public key"
  | .signing error => error.text
  | .keyFormat => "rcodex device key ID has an unexpected format"
  | .keyEncoding => "rcodex device key ID is not base64url"
  | .keyLabel => "rcodex device key ID has an invalid application label"
  | .search keyId => "find rcodex device key " ++ keyId
  | .unexpectedItem keyId => "keychain returned an unexpected item for rcodex key " ++ keyId
  | .notFound keyId => "rcodex device key " ++ keyId ++ " was not found in the login keychain"
  | .signature keyId => "sign with rcodex device key " ++ keyId
  | .deletion keyId => "delete rcodex device key " ++ keyId
  | .stateParent => "rcodex state path has no parent directory"
  | .stateDirectory => "create rcodex state directory"
  | .openTemporary => "create temporary rcodex state"
  | .writeTemporary => "write rcodex state"
  | .finishTemporary => "finish rcodex state"
  | .flushTemporary => "flush rcodex state"
  | .protectTemporary => "protect rcodex state"
  | .installState => "install rcodex state"
  | .auth | .start | .stepUp | .finish => ""

/-- A step that succeeds or fails. -/
inductive EnrollStep where
  | trustBinary
  | trustedList
  | accessPolicy
  | publicRef
  | privateRef
  | deleteCreatedPrivate
  | deleteCreatedPublic
  | readLabel
  | search
  | keyItem
  | deletePrivate
  | deletePublic
  | stateParent
  | stateDirectory
  | openTemporary
  | writeTemporary
  | finishTemporary
  | flushTemporary
  | protectTemporary
  | installState
  | removeTemporary
deriving DecidableEq

/-- `EnrollmentStartResponse` -/
structure EnrollmentStartResponse where
  /-- The user of the account. -/
  accountUserId : String
  /-- The client. -/
  clientId : String
  /-- The challenge for the device key. -/
  deviceKeyChallenge : EnrollmentChallenge

/-- `DeviceKeyProof` -/
structure DeviceKeyProof where
  /-- The signature algorithm. -/
  algorithm : String
  /-- The token of the challenge. -/
  challengeToken : String
  /-- The device key. -/
  keyId : String
  /-- The signature. -/
  signatureDerBase64 : String
  /-- What was signed. -/
  signedPayloadBase64 : String

/-- `DeviceKeyIdentity` -/
structure DeviceKeyIdentity where
  /-- The signature algorithm. -/
  algorithm : String
  /-- The device key. -/
  keyId : String
  /-- How the key is protected. -/
  protectionClass : String
  /-- The public key. -/
  publicKeySpkiDerBase64 : String

/-- `ControllerState` -/
structure ControllerState where
  /-- The enrollment. -/
  enrollment : EnrollmentRecord
deriving DecidableEq

/-- What the steps of an enrollment end with. -/
structure EnrollOutside where
  /-- Whether a step succeeds. -/
  succeeds : EnrollStep → Bool
  /-- The authentication of the user. -/
  auth : Option CodexAuth
  /-- What the relay answers to the start of an enrollment. -/
  start : Option EnrollmentStartResponse
  /-- The time before the key is created. -/
  startedAt : Int64
  /-- The application label of the key pair that is created; none if it is not. -/
  createdLabel : Option (List UInt8)
  /-- The private key, if it can be exported. -/
  exported : Option (List UInt8)
  /-- The public key, if it can be exported. -/
  publicPoint : Option (List UInt8)
  /-- The signature of a text. -/
  signature : List UInt8 → Option (List UInt8)
  /-- The token of the step-up authorization. -/
  stepUp : Option String
  /-- What the relay answers to the end of an enrollment. -/
  finish : Value → Option RemoteControlSession
  /-- The time after that. -/
  finishedAt : Int64

/-- `KeyClass` -/
inductive KeyClass where
  | privateKey
  | publicKey
deriving DecidableEq

/-- A key in the Keychain. -/
structure KeyItem where
  /-- Which half of a pair it is. -/
  keyClass : KeyClass
  /-- Its application label. -/
  label : List UInt8
deriving DecidableEq

/-- The Keychain and the state file. -/
structure Device where
  /-- The keys that were in the Keychain before. -/
  keychain : List KeyItem
  /-- The keys in it that were created by this call. -/
  created : List KeyItem
  /-- Whether a Keychain deletion has reported a failure. -/
  deletionFailed : Bool
  /-- The state file. -/
  stateFile : Option ControllerState
  /-- The temporary file. -/
  temporary : Option ControllerState
deriving DecidableEq

/-- A device before the call. -/
def Device.start (keychain : List KeyItem) (stateFile : Option ControllerState) : Device where
  keychain := keychain
  created := []
  deletionFailed := false
  stateFile := stateFile
  temporary := none

/-- The keys of a pair that has been created. -/
def Device.withPair (device : Device) (label : List UInt8) : Device :=
  { device with created := [⟨.privateKey, label⟩, ⟨.publicKey, label⟩] }

/-- The created key of a class is deleted. -/
def Device.removeCreated (device : Device) (keyClass : KeyClass) : Device :=
  { device with created := device.created.filter fun item => item.keyClass ≠ keyClass }

/-- All keys of a class and a label are deleted. -/
def Device.removeLabel (device : Device) (keyClass : KeyClass) (label : List UInt8) : Device :=
  { device with
    keychain := device.keychain.filter (· ≠ ⟨keyClass, label⟩)
    created := device.created.filter (· ≠ ⟨keyClass, label⟩) }

/-- A computation of the enrollment. -/
abbrev Enroll := Effect Device EnrollError

/-- `matches_relay_account_user_id` -/
def CodexAuth.MatchesRelayAccountUserId (auth : CodexAuth) (candidate : String) : Prop :=
  candidate = auth.accountUserId ∨ ∃ id ∈ auth.authUserId, candidate = id

instance (auth : CodexAuth) (candidate : String) :
    Decidable (auth.MatchesRelayAccountUserId candidate) := by
  unfold CodexAuth.MatchesRelayAccountUserId
  infer_instance

/-- `P256_SPKI_PREFIX` -/
def p256SpkiPrefix : List UInt8 :=
  [0x30, 0x59, 0x30, 0x13, 0x06, 0x07, 0x2a, 0x86, 0x48, 0xce, 0x3d, 0x02, 0x01, 0x06, 0x08, 0x2a,
    0x86, 0x48, 0xce, 0x3d, 0x03, 0x01, 0x07, 0x03, 0x42, 0x00]

/-- `p256_x963_to_spki_der` -/
def p256X963ToSpkiDer (point : List UInt8) : Except EnrollError (List UInt8) := do
  bailWhen (point.length ≠ 65 ∨ point.head? ≠ some 0x04) .point
  return p256SpkiPrefix ++ point

/-- `device_key_proof` -/
def deviceKeyProof (challengeToken keyId : String) (signedPayload signatureDer : List UInt8) :
    DeviceKeyProof where
  algorithm := "ecdsa_p256_sha256"
  challengeToken := challengeToken
  keyId := keyId
  signatureDerBase64 := Base64.encode signatureDer
  signedPayloadBase64 := Base64.encode signedPayload

/-- The document of a proof. -/
def DeviceKeyProof.serialize (proof : DeviceKeyProof) : Value :=
  .ofMembers [("algorithm", .string proof.algorithm),
    ("challenge_token", .string proof.challengeToken), ("key_id", .string proof.keyId),
    ("signature_der_base64", .string proof.signatureDerBase64),
    ("signed_payload_base64", .string proof.signedPayloadBase64)]

/-- `build_enroll_finish_body` -/
def buildEnrollFinishBody (enrollment : EnrollmentRecord) (stepUpToken : String)
    (proof : DeviceKeyProof) : Value :=
  .ofMembers [("client_id", .string enrollment.clientId), ("step_up_token", .string stepUpToken),
    ("device_identity", .ofMembers [("key_id", .string enrollment.keyId),
      ("public_key_spki_der_base64", .string enrollment.publicKeySpkiDerBase64),
      ("algorithm", .string enrollment.algorithm),
      ("protection_class", .string enrollment.protectionClass)]),
    ("device_key_proof", proof.serialize)]

section Enroll

variable (library : SigningLibrary) (outside : EnrollOutside)

/-- A step that may fail. -/
def enrollStep (step : EnrollStep) (error : EnrollError) : Enroll Unit :=
  Effect.failWhen (outside.succeeds step = false) error

/-- A Keychain deletion, which may report a failure. -/
def keychainDelete (step : EnrollStep) (remove : Device → Device) (error : EnrollError) :
    Enroll Unit := do
  Effect.change fun device =>
    if outside.succeeds step = true then remove device else { device with deletionFailed := true }
  enrollStep outside step error

/-- `prompt_free_access_for_current_binary` -/
def promptFreeAccessForCurrentBinary : Enroll Unit := do
  enrollStep outside .trustBinary .trustBinary
  enrollStep outside .trustedList .trustedList
  enrollStep outside .accessPolicy .accessPolicy

/-- The ID of the key with this application label. -/
def keyIdOf (label : List UInt8) : String := "rcodex_osn_" ++ library.encode label

/-- `application_label` -/
def applicationLabel (keyId : String) : Except EnrollError (List UInt8) := do
  let encoded ← context .keyFormat (Text.stripPrefix "rcodex_osn_" keyId)
  let label ← context .keyEncoding (library.decode encoded)
  bailWhen (label.length ≠ 20) .keyLabel
  return label

/-- What `macos::create` does with a pair whose private key cannot be exported. -/
def describePair (label : List UInt8) : Enroll DeviceKeyIdentity := do
  enrollStep outside .readLabel .label
  let keyId := keyIdOf library label
  let publicX963 ← Effect.lift (context .publicKey outside.publicPoint)
  let der ← Effect.lift (p256X963ToSpkiDer publicX963)
  return { algorithm := "ecdsa_p256_sha256", keyId := keyId,
           protectionClass := "os_protected_nonextractable",
           publicKeySpkiDerBase64 := Base64.encode der }

/-- What `macos::create` does with a pair whose private key can be exported. -/
def refusePair (exported : List UInt8) : Enroll DeviceKeyIdentity := do
  let error := EnrollError.exportable exported.length
  let _ ← (keychainDelete outside .deleteCreatedPrivate (·.removeCreated .privateKey) error).attempt
  let _ ← (keychainDelete outside .deleteCreatedPublic (·.removeCreated .publicKey) error).attempt
  Effect.fail error

/-- `macos::create` -/
def createKey : Enroll DeviceKeyIdentity := do
  promptFreeAccessForCurrentBinary outside
  let label ← Effect.lift (context .createPair outside.createdLabel)
  Effect.change fun device => device.withPair label
  Effect.failWhen (outside.succeeds .publicRef = false ∨ outside.succeeds .privateRef = false)
    .incompletePair
  match outside.exported with
  | some exported => refusePair outside exported
  | none => describePair library outside label

/-- `find_private_key` -/
def findPrivateKey (keyId : String) : Enroll Unit := do
  let label ← Effect.lift (applicationLabel library keyId)
  enrollStep outside .search (.search keyId)
  let found ← Effect.read fun device =>
    decide (⟨.privateKey, label⟩ ∈ device.keychain ++ device.created)
  Effect.failWhen (found = false) (.notFound keyId)
  enrollStep outside .keyItem (.unexpectedItem keyId)

/-- `macos::sign` -/
def signWithKey (keyId : String) (payload : List UInt8) : Enroll (List UInt8) := do
  findPrivateKey library outside keyId
  Effect.lift (context (.signature keyId) (outside.signature payload))

/-- `macos::delete` -/
def deleteKey (keyId : String) : Enroll Unit := do
  let label ← Effect.lift (applicationLabel library keyId)
  keychainDelete outside .deletePrivate (·.removeLabel .privateKey label) (.deletion keyId)
  keychainDelete outside .deletePublic (·.removeLabel .publicKey label) (.deletion keyId)

/-- The steps of `save_controller_state` on the temporary file. -/
def installControllerState (state : ControllerState) : Enroll Unit := do
  enrollStep outside .openTemporary .openTemporary
  Effect.change fun device => { device with temporary := some state }
  enrollStep outside .writeTemporary .writeTemporary
  enrollStep outside .finishTemporary .finishTemporary
  enrollStep outside .flushTemporary .flushTemporary
  enrollStep outside .protectTemporary .protectTemporary
  enrollStep outside .installState .installState
  Effect.change fun device => { device with stateFile := some state, temporary := none }

/-- `save_controller_state` -/
def saveControllerState (state : ControllerState) : Enroll Unit := do
  enrollStep outside .stateParent .stateParent
  enrollStep outside .stateDirectory .stateDirectory
  let result ← (installControllerState outside state).attempt
  match result with
  | .ok () => return ()
  | .error error =>
    Effect.change fun device =>
      if outside.succeeds .removeTemporary = true then { device with temporary := none } else device
    Effect.fail error

/-- The part of `enroll` after which it deletes the key if it has failed. -/
def enrollKey (start : EnrollmentStartResponse) (identity : DeviceKeyIdentity) :
    Enroll (ControllerState × RemoteControlSession) := do
  let enrollment : EnrollmentRecord :=
    { accountUserId := start.accountUserId, algorithm := identity.algorithm,
      clientId := start.clientId, keyId := identity.keyId,
      protectionClass := identity.protectionClass,
      publicKeySpkiDerBase64 := identity.publicKeySpkiDerBase64 }
  let signedPayload ← Effect.lift ((buildEnrollmentSigningPayload library enrollment
    start.deviceKeyChallenge "/codex/remote/control/client/enroll/finish" false).mapError .signing)
  let signature ← signWithKey library outside enrollment.keyId signedPayload
  let proof := deviceKeyProof start.deviceKeyChallenge.challengeToken enrollment.keyId signedPayload
    signature
  let stepUpToken ← Effect.lift (context .stepUp outside.stepUp)
  let session ← Effect.lift (context .finish
    (outside.finish (buildEnrollFinishBody enrollment stepUpToken proof)))
  let _ ← Effect.lift
    ((validateRemoteSession library enrollment session outside.finishedAt).mapError .signing)
  let state : ControllerState := ⟨enrollment⟩
  saveControllerState outside state
  return (state, session)

/-- The part of `enroll` before it creates the key. -/
def startEnrollment : Enroll EnrollmentStartResponse := do
  let enrolled ← Effect.read fun device => device.stateFile.isSome
  Effect.failWhen (enrolled = true) .alreadyEnrolled
  let auth ← Effect.lift (context .auth outside.auth)
  let start ← Effect.lift (context .start outside.start)
  Effect.failWhen (¬auth.MatchesRelayAccountUserId start.accountUserId ∨
    start.deviceKeyChallenge.accountUserId ≠ start.accountUserId ∨
    start.deviceKeyChallenge.clientId ≠ start.clientId) .startMismatch
  Effect.failWhen (start.deviceKeyChallenge.challengeExpiresAt ≤ outside.startedAt)
    .challengeExpired
  return start

/-- `enroll` -/
def enroll : Enroll (ControllerState × RemoteControlSession) := do
  let start ← startEnrollment outside
  let identity ← createKey library outside
  let result ← (enrollKey library outside start identity).attempt
  match result with
  | .ok enrolled => return enrolled
  | .error error =>
    let _ ← (deleteKey library outside identity.keyId).attempt
    Effect.fail error

end Enroll

end Rcodex
