import Rcodex.Controller.Acts
import Rcodex.Foundation.Saturating

/-!
# The requests of the controller

`RelayApi.sendWithStatusPolicy` sends a request until its response is final: after a first `401` it
refreshes the authentication, and after a `429` or a failure of the server it waits, at most three
times.  The other functions of the API send one request through it, or, for a list of environments,
one for each page.
-/

namespace Rcodex

open Json Result

/-! ### Parts of a request -/

/-- `needs_refresh` -/
def CodexAuth.NeedsRefresh (auth : CodexAuth) (nowEpoch : Int64) : Prop :=
  auth.expiresAt ≤ (Saturating.add nowEpoch 300).toInt

instance (auth : CodexAuth) (nowEpoch : Int64) : Decidable (auth.NeedsRefresh nowEpoch) :=
  inferInstanceAs (Decidable (_ ≤ _))

/-- The byte may stand in a header. -/
def isHeaderByte (b : UInt8) : Bool := (32 ≤ b && b != 127) || b == 9

/-- `HeaderValue::from_str` accepts the text. -/
def IsHeaderValue (value : String) : Prop := (Text.utf8 value).all isHeaderByte = true

instance (value : String) : Decidable (IsHeaderValue value) := inferInstanceAs (Decidable (_ = _))

/-- The digits of a number that may start with a plus sign. -/
def unsignedDigits : List Char → List Char
  | '+' :: digits => digits
  | digits => digits

/-- `u64::from_str` -/
def parseU64 (text : List Char) : Option ℕ :=
  let digits := unsignedDigits text
  let value := digits.foldl (fun n c => 10 * n + (c.toNat - 48)) 0
  if digits ≠ [] ∧ digits.all Char.isDigit = true ∧ value < 2 ^ 64 then some value else none

/-- `parse_retry_after`, in seconds -/
def parseRetryAfter (value : String) : Option ℕ :=
  (parseU64 (Text.trim value).toList).map fun seconds => min seconds 30

/-- The pause before a request is repeated, in milliseconds. -/
def retryDelay (response : HttpResponse) (retryCount : ℕ) : ℕ :=
  match response.retryAfter.bind parseRetryAfter with
  | some seconds => 1000 * seconds
  | none => 250 * 2 ^ retryCount

/-- `is_success` -/
def HttpResponse.IsSuccess (response : HttpResponse) : Prop :=
  200 ≤ response.status ∧ response.status < 300

/-- The relay asks to come back later, or has failed. -/
def HttpResponse.IsRetryable (response : HttpResponse) : Prop :=
  response.status = 429 ∨ 500 ≤ response.status ∧ response.status < 600

instance (response : HttpResponse) : Decidable response.IsSuccess :=
  inferInstanceAs (Decidable (_ ∧ _))

instance (response : HttpResponse) : Decidable response.IsRetryable :=
  inferInstanceAs (Decidable (_ ∨ _))

/-! ### Documents of the relay -/

/-- The challenge a document denotes. -/
def EnrollmentChallenge.deserialize (document : Value) : Option EnrollmentChallenge := do
  match ← openFields ["account_user_id", "audience", "challenge_expires_at", "challenge_id",
    "challenge_token", "client_id", "device_identity_hash", "nonce", "purpose", "target_origin",
    "target_path"] document with
  | [accountUserId, audience, challengeExpiresAt, challengeId, challengeToken, clientId,
      deviceIdentityHash, nonce, purpose, targetOrigin, targetPath] =>
    return { accountUserId := ← (← accountUserId).asStr,
             audience := ← (← audience).asStr,
             challengeExpiresAt := .ofInt (← (← challengeExpiresAt).asI64),
             challengeId := ← (← challengeId).asStr,
             challengeToken := ← (← challengeToken).asStr,
             clientId := ← (← clientId).asStr,
             deviceIdentityHash := ← optionalField Value.asStr deviceIdentityHash,
             nonce := ← (← nonce).asStr,
             purpose := ← (← purpose).asStr,
             targetOrigin := ← (← targetOrigin).asStr,
             targetPath := ← (← targetPath).asStr }
  | _ => none

/-- The start of an enrollment or of a refresh a document denotes. -/
def EnrollmentStartResponse.deserialize (document : Value) : Option EnrollmentStartResponse := do
  match ← openFields ["account_user_id", "client_id", "device_key_challenge"] document with
  | [accountUserId, clientId, deviceKeyChallenge] =>
    return { accountUserId := ← (← accountUserId).asStr,
             clientId := ← (← clientId).asStr,
             deviceKeyChallenge := ← EnrollmentChallenge.deserialize (← deviceKeyChallenge) }
  | _ => none

/-- The session a document denotes. -/
def RemoteControlSession.deserialize (document : Value) : Option RemoteControlSession := do
  match ← openFields ["account_user_id", "client_id", "expires_at", "remote_control_token",
    "scopes"] document with
  | [accountUserId, clientId, expiresAt, remoteControlToken, scopes] =>
    return { accountUserId := ← (← accountUserId).asStr,
             clientId := ← (← clientId).asStr,
             expiresAt := ← (← expiresAt).asStr,
             remoteControlToken := ← (← remoteControlToken).asStr,
             scopes := ← (← scopes).asListOf Value.asStr }
  | _ => none

/-- The environment a document denotes; the fields that are not read must have their types, too. -/
def RemoteEnvironment.deserialize (document : Value) : Option RemoteEnvironment := do
  match ← openFields ["app_server_version", "arch", "busy", "client_type", "display_name", "env_id",
    "host_name", "installation_id", "kind", "last_seen_at", "name", "online", "os"] document with
  | [appServerVersion, arch, busy, clientType, displayName, envId, hostName, installationId, kind,
      lastSeenAt, name, online, os] =>
    let _ ← optionalField Value.asStr clientType
    let _ ← optionalField Value.asStr installationId
    let _ ← optionalField Value.asStr kind
    let _ ← optionalField Value.asStr lastSeenAt
    return { envId := ← (← envId).asStr,
             displayName := ← optionalField Value.asStr displayName,
             name := ← optionalField Value.asStr name,
             hostName := ← optionalField Value.asStr hostName,
             online := ← (← online).asBool,
             busy := ← (← busy).asBool,
             appServerVersion := ← optionalField Value.asStr appServerVersion,
             os := ← optionalField Value.asStr os,
             arch := ← optionalField Value.asStr arch }
  | _ => none

/-- The page a document denotes. -/
def EnvironmentList.deserialize (document : Value) : Option EnvironmentList := do
  match ← openFields ["cursor", "items"] document with
  | [cursor, items] =>
    return { cursor := ← optionalField Value.asStr cursor,
             items := ← (← items).asListOf RemoteEnvironment.deserialize }
  | _ => none

/-- An accepted cursor is one more of those remembered, which stay within the limit. -/
theorem card_of_accepted {listing after : Listing} {page : EnvironmentList} {cursor : String}
    (h : acceptEnvironmentPage listing page = .ok (some cursor, after))
    (hlisting : listing.seenCursors.card ≤ maxEnvironmentPages) :
    after.seenCursors.card = listing.seenCursors.card + 1 ∧
      after.seenCursors.card ≤ maxEnvironmentPages := by
  obtain ⟨-, -, -, -, hcursor⟩ := acceptEnvironmentPage_cases h
  obtain ⟨hvalid, hseen⟩ := hcursor cursor rfl
  unfold IsInvalidCursor at hvalid
  push Not at hvalid
  rw [hseen, Finset.card_insert_of_notMem hvalid.2.2.2.2]
  have hne := hvalid.2.2.2.1
  omega

namespace RelayApi

section Requests

variable (library : ControllerLibrary) (outside : ControllerOutside)

/-- `RelayApi::auth` -/
def auth : Control CodexAuth := do
  let auth ← loadAuth outside
  let now ← clock outside
  if auth.NeedsRefresh now then refreshAuth outside else return auth

/-- A request with the authentication of the user, sent once. -/
def sendOnce (method : Method) (path : String) (body : Option Value) (auth : CodexAuth) :
    Control HttpResponse := do
  Effect.failWhen (¬(IsHeaderValue ("Bearer " ++ auth.accessToken) ∧ IsHeaderValue auth.accountId))
    .send
  exchange outside { method, url := apiBase ++ path, accessToken := auth.accessToken,
                     accountId := auth.accountId, body }

/-- The loop of `send_with_status_policy`. -/
def sendLoop (method : Method) (path : String) (body : Option Value) (allowNotFound : Bool)
    (auth : CodexAuth) (refreshedAfterUnauthorized : Bool) (retryCount : ℕ) :
    Control HttpResponse := do
  let response ← sendOnce outside method path body auth
  if h : response.status = 401 ∧ refreshedAfterUnauthorized = false then
    let auth ← refreshAuth outside
    sendLoop method path body allowNotFound auth true retryCount
  else if h : response.IsRetryable ∧ retryCount < 3 then
    record (.sleep (retryDelay response retryCount))
    sendLoop method path body allowNotFound auth refreshedAfterUnauthorized (retryCount + 1)
  else
    Effect.failWhen (¬(response.IsSuccess ∨ allowNotFound = true ∧ response.status = 404))
      (.status response.status)
    return response
termination_by (3 - retryCount, if refreshedAfterUnauthorized then 0 else 1)
decreasing_by
  · exact Prod.Lex.right _ (by simp [h.2])
  · exact Prod.Lex.left _ _ (by omega)

/-- `send_with_status_policy` -/
def sendWithStatusPolicy (method : Method) (path : String) (body : Option Value)
    (allowNotFound : Bool) : Control HttpResponse := do
  let auth ← RelayApi.auth outside
  sendLoop outside method path body allowNotFound auth false 0

/-- `RelayApi::send` -/
def send (method : Method) (path : String) (body : Option Value) : Control HttpResponse :=
  sendWithStatusPolicy outside method path body false

/-- `send_allowing_not_found` -/
def sendAllowingNotFound (method : Method) (path : String) (body : Option Value) :
    Control HttpResponse :=
  sendWithStatusPolicy outside method path body true

/-- The value of a type in the body of a response. -/
def readBody {α : Type} (deserialize : Value → Option α) (response : HttpResponse) : Option α :=
  response.body.bind fun bytes => (library.fromSlice bytes).bind deserialize

/-- `request_json` -/
def requestJson {α : Type} (deserialize : Value → Option α) (method : Method) (path : String)
    (body : Option Value) : Control α := do
  let response ← send outside method path body
  Effect.lift (context .parse (readBody library deserialize response))

/-- `RelayApi::enroll_start` -/
def enrollStart : Control EnrollmentStartResponse :=
  requestJson library outside EnrollmentStartResponse.deserialize .post
    "/codex/remote/control/client/enroll/start" (some (.object []))

/-- `RelayApi::enroll_finish` -/
def enrollFinish (body : Value) : Control RemoteControlSession :=
  requestJson library outside RemoteControlSession.deserialize .post
    "/codex/remote/control/client/enroll/finish" (some body)

/-- `RelayApi::refresh_start` -/
def refreshStart (enrollment : EnrollmentRecord) : Control EnrollmentStartResponse :=
  requestJson library outside EnrollmentStartResponse.deserialize .post
    "/codex/remote/control/client/refresh/start"
    (some (.object [("client_id", .string enrollment.clientId)]))

/-- `RelayApi::refresh_finish` -/
def refreshFinish (body : Value) : Control RemoteControlSession :=
  requestJson library outside RemoteControlSession.deserialize .post
    "/codex/remote/control/client/refresh/finish" (some body)

/-- `RelayApi::pair_client` -/
def pairClient (clientId manualPairingCode : String) : Control Unit := do
  let body ← Effect.lift ((buildManualPairingBody clientId manualPairingCode).mapError .pairing)
  let _ ← send outside .post "/wham/remote/control/client/pair" (some body)
  return ()

/-- `RelayApi::revoke_client` -/
def revokeClient (clientId : String) : Control Unit := do
  let path ← Effect.lift ((library.urls.revocationPath clientId).mapError fun _ => .emptyClientId)
  let _ ← sendAllowingNotFound outside .delete path none
  return ()

/-- The request for a page of environments. -/
def requestPage (clientId cursor : Option String) : Control EnvironmentList :=
  requestJson library outside EnvironmentList.deserialize .get
    (library.urls.environmentsPath clientId cursor) none

/-- The loop of `list_environments`; the cursors it remembers are no more than the pages it may
follow. -/
def listLoop (clientId cursor : Option String)
    (listing : {listing : Listing // listing.seenCursors.card ≤ maxEnvironmentPages}) :
    Control (List RemoteEnvironment) := do
  let page ← requestPage library outside clientId cursor
  match h : acceptEnvironmentPage listing.val page with
  | .error error => Effect.fail (.page error)
  | .ok (none, after) => return after.environments
  | .ok (some next, after) =>
    listLoop clientId (some next) ⟨after, (card_of_accepted h listing.2).2⟩
termination_by maxEnvironmentPages - listing.val.seenCursors.card
decreasing_by
  have hcard := card_of_accepted h listing.2
  omega

/-- `RelayApi::list_environments` -/
def listEnvironments (clientId : Option String) : Control (List RemoteEnvironment) :=
  listLoop library outside clientId none ⟨⟨[], ∅⟩, Nat.zero_le _⟩

end Requests

end RelayApi

end Rcodex
