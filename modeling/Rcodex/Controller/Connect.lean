import Rcodex.Controller.Session
import Rcodex.Transport.Relay

/-!
# Connections to a host

`connect` opens the websocket of the relay and proves with the device key that the session is in the
hands of the enrolled device.  `openRemoteAppServer`, `probe` and `runRemoteTui` connect to a host
that is among those listed for the client and online; the broker and the terminal connect only if it
runs the version of the local Codex.
-/

namespace Rcodex

open Json Result

/-- `RELAY_PROTOCOL_VERSION` -/
def relayProtocolVersion : ℕ := 3

/-- `relay_websocket_url` -/
def relayWebsocketUrl : String := "wss://chatgpt.com/backend-api/codex/remote/control/client"

/-- The challenge a document denotes. -/
def ConnectionChallenge.deserialize (document : Value) : Option ConnectionChallenge := do
  match ← openFields ["accountUserId", "audience", "clientId", "nonce", "purpose", "scopes",
    "sessionId", "targetOrigin", "targetPath", "tokenExpiresAt", "tokenSha256Base64url"]
    document with
  | [accountUserId, audience, clientId, nonce, purpose, scopes, sessionId, targetOrigin, targetPath,
      tokenExpiresAt, tokenSha256Base64url] =>
    return { accountUserId := ← (← accountUserId).asStr,
             audience := ← (← audience).asStr,
             clientId := ← (← clientId).asStr,
             nonce := ← (← nonce).asStr,
             purpose := ← (← purpose).asStr,
             scopes := ← (← scopes).asListOf Value.asStr,
             sessionId := ← (← sessionId).asStr,
             targetOrigin := ← (← targetOrigin).asStr,
             targetPath := ← (← targetPath).asStr,
             tokenExpiresAt := .ofInt (← (← tokenExpiresAt).asI64),
             tokenSha256Base64url := ← (← tokenSha256Base64url).asStr }
  | _ => none

/-- The message with which the device key proves itself. -/
def proofMessage (enrollment : EnrollmentRecord) (signature signedPayload : List UInt8) : Value :=
  .ofMembers [("type", .string "device_key_proof"), ("keyId", .string enrollment.keyId),
    ("signatureDerBase64", .string (Base64.encode signature)),
    ("signedPayloadBase64", .string (Base64.encode signedPayload)),
    ("algorithm", .string enrollment.algorithm)]

/-- `REQUIRED_REMOTE_OPTIONS` -/
def requiredRemoteOptions : List String := ["--remote", "--remote-auth-token-env"]

/-- `help_has_option`; a line break separates words as a blank does. -/
def helpHasOption (helpOutput expected : String) : Bool :=
  (Splitting.words Text.isAsciiWhitespace helpOutput.toList).any fun token =>
    String.ofList token = expected

/-- `verify_stock_codex_capabilities` -/
def verifyStockCodexCapabilities (helpOutput : String) : Except CodexError Unit :=
  let missing := requiredRemoteOptions.filter fun option => !helpHasOption helpOutput option
  bailWhen (missing ≠ []) (.missingOptions missing)

/-- The host with this identifier, if it is online. -/
def onlineEnvironment (environments : List RemoteEnvironment) (environmentId : String) :
    Except ControllerError RemoteEnvironment := do
  let environment ← context (.environmentNotFound environmentId)
    (environments.find? fun environment => environment.envId = environmentId)
  bailWhen (environment.online = false) (.environmentOffline environmentId)
  return environment

/-- `select_environment` -/
def selectEnvironment (environments : List RemoteEnvironment) :
    Option String → Except ControllerError RemoteEnvironment
  | some requested => onlineEnvironment environments requested
  | none => do
    let online := environments.filter fun environment => environment.online
    let environment ← context .noneOnline online.head?
    bailWhen (online.tail ≠ []) .severalOnline
    return environment

namespace Controller

section Connections

variable (library : ControllerLibrary) (outside : ControllerOutside)

/-- `parse_text_message` -/
def parseTextMessage : Frame → Except ControllerError Value
  | .text bytes | .binary bytes =>
    context .challengeNotJson ((library.fromSlice bytes).map Value.ofWritten)
  | _ => .error .challengeFrame

/-- The headers of the websocket. -/
def upgradeOf (auth : CodexAuth) (enrollment : EnrollmentRecord) (session : RemoteControlSession) :
    Upgrade where
  url := relayWebsocketUrl
  accessToken := auth.accessToken
  accountId := auth.accountId
  clientId := enrollment.clientId
  protocolVersion := relayProtocolVersion
  sessionToken := session.remoteControlToken

/-- The websocket is opened with its headers. -/
def openWebsocket (upgrade : Upgrade) : Control Unit := do
  Effect.failWhen (¬IsHeaderValue ("Bearer " ++ upgrade.accessToken)) (.header .authorization)
  Effect.failWhen (¬IsHeaderValue upgrade.accountId) (.header .accountId)
  Effect.failWhen (¬IsHeaderValue upgrade.clientId) (.header .clientId)
  Effect.failWhen (¬IsHeaderValue ("Bearer " ++ upgrade.sessionToken)) (.header .sessionToken)
  let opening ← consult (outside.opening · upgrade) (.upgrade upgrade)
  Effect.failWhen (opening = .timedOut) .handshakeTimedOut
  Effect.failWhen (opening = .failed) .handshakeFailed

/-- The challenge in the first frame. -/
def readChallenge (frame : Frame) : Except ControllerError ConnectionChallenge := do
  let value ← parseTextMessage library frame
  bailWhen (kind value ≠ some "device_key_challenge") .noChallenge
  context .challengeMalformed (ConnectionChallenge.deserialize value)

/-- The frame that arrives. -/
def Arrival.toFrame : Arrival → Except ControllerError Frame
  | .frame frame => .ok frame
  | .timedOut => .error .challengeTimedOut
  | .closed => .error .challengeClosed
  | .failed => .error .challengeUnread

/-- `RelayTransport::connect` -/
def connect (auth : CodexAuth) (enrollment : EnrollmentRecord) (session : RemoteControlSession)
    (environmentId : String) : Control RelayTransport := do
  openWebsocket outside (upgradeOf auth enrollment session)
  let arrival ← consult outside.arrival .receive
  let frame ← Effect.lift (Arrival.toFrame arrival)
  let challenge ← Effect.lift (readChallenge library frame)
  let now ← clock outside
  let signedPayload ← Effect.lift ((validateAndBuildConnectionSigningPayload library.signing
    enrollment session challenge now).mapError .signing)
  let signature ← signWithOsProtectedDeviceKey library outside enrollment.keyId signedPayload
  let sent ← consult outside.sends (.send (proofMessage enrollment signature signedPayload))
  Effect.failWhen (sent = false) .sendProof
  let streamId ← Effect.read fun controller => outside.uuid controller.log
  return RelayTransport.connect enrollment.clientId environmentId streamId

/-- What a program has written, if it succeeded. -/
def programText (output : Option ProgramOutput) (unavailable failed notUtf8 : CodexError) :
    Except CodexError String := do
  let output ← context unavailable output
  bailWhen (output.success = false) failed
  context notUtf8 (Text.fromUtf8 output.stdout)

/-- `inspect_stock_codex` -/
def inspectStockCodex : Control String := do
  let output ← consult outside.codexVersion .codexVersion
  let text ← Effect.lift
    ((programText output .versionUnavailable .versionFailed .versionNotUtf8).mapError .codex)
  let version ← Effect.lift
    ((parseStockCodexVersion text).mapError fun error => .codex (.version error))
  let help ← consult outside.codexHelp .codexHelp
  let text ← Effect.lift
    ((programText help .helpUnavailable .helpFailed .helpNotUtf8).mapError .codex)
  Effect.lift ((verifyStockCodexCapabilities text).mapError .codex)
  return version

/-- The part of a connection that is the same everywhere: the session, the authentication and the
hosts of the client. -/
def openSession : Control (ControllerState × RemoteControlSession × CodexAuth ×
    List RemoteEnvironment) := do
  let (state, session) ← ensureSession library outside
  let auth ← RelayApi.auth outside
  let environments ← RelayApi.listEnvironments library outside (some state.enrollment.clientId)
  return (state, session, auth, environments)

/-- `Command::Probe`, up to the connection -/
def probe (device : String) : Control RelayTransport := do
  let (state, session, auth, environments) ← openSession library outside
  let _ ← Effect.lift (onlineEnvironment environments device)
  connect library outside auth state.enrollment session device

/-- `open_remote_app_server`; which error code an error becomes is decided by its place. -/
def openRemoteAppServer (environmentId : String) : Control RelayTransport := do
  let localVersion ← inspectStockCodex outside
  let (state, session, auth, environments) ← openSession library outside
  let environment ← Effect.lift (onlineEnvironment environments environmentId)
  Effect.lift ((verifyRemoteCodexVersion localVersion environment).mapError .version)
  connect library outside auth state.enrollment session environmentId

/-- `run_remote_tui`, up to the connection; nothing if the program starts again after an update. -/
def runRemoteTui (requestedDevice : Option String) : Control (Option RelayTransport) := do
  let (state, session, auth, environments) ← openSession library outside
  let environment ← Effect.lift (selectEnvironment environments requestedDevice)
  let localVersion ← inspectStockCodex outside
  let restarts ← consult outside.updates .automaticUpdate
  if restarts then return none
  else
    let locked ← consult outside.locks .lock
    Effect.failWhen (locked = false) .lock
    Effect.lift ((verifyRemoteCodexVersion localVersion environment).mapError .version)
    let transport ← connect library outside auth state.enrollment session environment.envId
    return some transport

end Connections

end Controller

end Rcodex
