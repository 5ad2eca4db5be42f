import Rcodex.Controller.Api

/-!
# The session of a controller

`refreshSession` gets a new session for an enrollment: it signs the challenge of the relay with the
device key.  `enroll` creates the key and the enrollment; `ensureSession` does one or the other,
depending on whether there is a state file.

`Rcodex.enroll` describes the same enrollment as seen from the device, where what the relay answers
is given in advance.  `enroll_refines` relates the two: whatever the relay does meanwhile, the
Keychain and the state file go through an enrollment with some answers.
-/

namespace Rcodex

open Json Result

/-- `build_refresh_finish_body` -/
def buildRefreshFinishBody (enrollment : EnrollmentRecord) (proof : DeviceKeyProof) : Value :=
  .ofMembers [("client_id", .string enrollment.clientId), ("device_key_proof", proof.serialize)]

/-- `"/codex/remote/control/client/enroll/finish"` -/
def enrollFinishPath : String := "/codex/remote/control/client/enroll/finish"

/-- `"/codex/remote/control/client/refresh/finish"` -/
def refreshFinishPath : String := "/codex/remote/control/client/refresh/finish"

namespace Controller

section Sessions

variable (library : ControllerLibrary) (outside : ControllerOutside)

/-- `request_step_up_token` -/
def requestStepUpToken (accountId accountUserId : String) : Control String := do
  let result ← consult outside.stepUp (.stepUp accountId accountUserId)
  Effect.lift (result.mapError .stepUp)

/-- The checks of `validate_remote_session` at the present time. -/
def validateSession (enrollment : EnrollmentRecord) (session : RemoteControlSession) :
    Control Unit := do
  let now ← clock outside
  let _ ← Effect.lift
    ((validateRemoteSession library.signing enrollment session now).mapError .signing)
  return ()

/-- The checks of `refresh_session` on what the relay answers to its start. -/
def checkRefresh (enrollment : EnrollmentRecord) (start : EnrollmentStartResponse) :
    Control Unit := do
  Effect.failWhen (start.accountUserId ≠ enrollment.accountUserId ∨
    start.clientId ≠ enrollment.clientId ∨
    start.deviceKeyChallenge.accountUserId ≠ enrollment.accountUserId ∨
    start.deviceKeyChallenge.clientId ≠ enrollment.clientId) .refreshMismatch
  Effect.failWhen (start.deviceKeyChallenge.deviceIdentityHash ≠
    some (deviceIdentityHash library.signing enrollment)) .refreshIdentity
  let now ← clock outside
  Effect.failWhen (start.deviceKeyChallenge.challengeExpiresAt ≤ now) .refreshExpired

/-- `refresh_session` -/
def refreshSession (enrollment : EnrollmentRecord) : Control RemoteControlSession := do
  let start ← RelayApi.refreshStart library outside enrollment
  checkRefresh library outside enrollment start
  let signedPayload ← Effect.lift ((buildEnrollmentSigningPayload library.signing enrollment
    start.deviceKeyChallenge refreshFinishPath true).mapError .signing)
  let signature ← Effect.mapError (fun _ => ControllerError.refreshSignature)
    (signWithOsProtectedDeviceKey library outside enrollment.keyId signedPayload)
  let proof := deviceKeyProof start.deviceKeyChallenge.challengeToken enrollment.keyId signedPayload
    signature
  let session ← RelayApi.refreshFinish library outside (buildRefreshFinishBody enrollment proof)
  validateSession library outside enrollment session
  return session

/-- The part of `enroll` before it creates the key. -/
def startEnrollment : Control (CodexAuth × EnrollmentStartResponse) := do
  let enrolled ← Effect.read fun controller => controller.device.stateFile.isSome
  Effect.failWhen (enrolled = true) (.enroll .alreadyEnrolled)
  let auth ← RelayApi.auth outside
  let start ← RelayApi.enrollStart library outside
  Effect.failWhen (¬auth.MatchesRelayAccountUserId start.accountUserId ∨
    start.deviceKeyChallenge.accountUserId ≠ start.accountUserId ∨
    start.deviceKeyChallenge.clientId ≠ start.clientId) (.enroll .startMismatch)
  let now ← clock outside
  Effect.failWhen (start.deviceKeyChallenge.challengeExpiresAt ≤ now) (.enroll .challengeExpired)
  return (auth, start)

/-- The enrollment of a key. -/
def enrollmentOf (start : EnrollmentStartResponse) (identity : DeviceKeyIdentity) :
    EnrollmentRecord where
  accountUserId := start.accountUserId
  algorithm := identity.algorithm
  clientId := start.clientId
  keyId := identity.keyId
  protectionClass := identity.protectionClass
  publicKeySpkiDerBase64 := identity.publicKeySpkiDerBase64

/-- The part of `enroll` after which it deletes the key if it has failed. -/
def enrollKey (auth : CodexAuth) (start : EnrollmentStartResponse) (identity : DeviceKeyIdentity) :
    Control (ControllerState × RemoteControlSession) := do
  let enrollment := enrollmentOf start identity
  let signedPayload ← Effect.lift ((buildEnrollmentSigningPayload library.signing enrollment
    start.deviceKeyChallenge enrollFinishPath false).mapError .signing)
  let signature ← signWithOsProtectedDeviceKey library outside enrollment.keyId signedPayload
  let proof := deviceKeyProof start.deviceKeyChallenge.challengeToken enrollment.keyId signedPayload
    signature
  let stepUpToken ← requestStepUpToken outside auth.accountId auth.accountUserId
  let session ← RelayApi.enrollFinish library outside
    (buildEnrollFinishBody enrollment stepUpToken proof)
  validateSession library outside enrollment session
  let state : ControllerState := ⟨enrollment⟩
  saveState outside state
  return (state, session)

/-- `enroll` -/
def enroll : Control (ControllerState × RemoteControlSession) := do
  let (auth, start) ← startEnrollment library outside
  let identity ← createOsProtectedDeviceKey library outside
  let result ← (enrollKey library outside auth start identity).attempt
  match result with
  | .ok enrolled => return enrolled
  | .error error =>
    let _ ← (deleteOsProtectedDeviceKey library outside identity.keyId).attempt
    Effect.fail error

/-- `ensure_session` -/
def ensureSession : Control (ControllerState × RemoteControlSession) := do
  let enrolled ← Effect.read fun controller => controller.device.stateFile.isSome
  if enrolled then
    let state ← loadState outside
    let session ← refreshSession library outside state.enrollment
    return (state, session)
  else
    enroll library outside

end Sessions

end Controller

end Rcodex
