import Rcodex.Identity.ClientPath
import Rcodex.Broker.Pagination
import Rcodex.Broker.Pairing
import Rcodex.Update.Parity
import Rcodex.Foundation.Audit

/-!
# What a controller does and sees

A process of the controller loads and refreshes the authentication of the user, sends requests to
the relay, opens a websocket, looks at the clock and has the Keychain sign.  Each of these acts is
written down with its outcome (`Act`), so that what a process does can be judged by its log.  The
outcomes are chosen by a `ControllerOutside`, which knows everything that was done before; the
relay, other processes and the user may behave in any way.

`Controller` is the device on which the process runs, with the log; `Control` is a computation on
it.  What `enroll` does with the Keychain and the state file is done on the device.
-/

namespace Rcodex

open Json Result

/-- The method of a request. -/
inductive Method where
  | get
  | post
  | delete
deriving DecidableEq

/-- A request to the relay. -/
structure HttpRequest where
  /-- The method. -/
  method : Method
  /-- The address. -/
  url : String
  /-- The access token of the user. -/
  accessToken : String
  /-- The account of the user. -/
  accountId : String
  /-- The body. -/
  body : Option Value

/-- A response of the relay. -/
structure HttpResponse where
  /-- The status. -/
  status : ℕ
  /-- The text of the `Retry-After` header, if there is one that is a text. -/
  retryAfter : Option String
  /-- The body, if it can be read. -/
  body : Option (List UInt8)

/-- The address of the websocket of the relay and the headers with which it is opened. -/
structure Upgrade where
  /-- The address. -/
  url : String
  /-- The access token of the user. -/
  accessToken : String
  /-- The account of the user. -/
  accountId : String
  /-- The client. -/
  clientId : String
  /-- The version of the protocol. -/
  protocolVersion : ℕ
  /-- The token of the session. -/
  sessionToken : String
deriving DecidableEq

/-- `Message`, a frame of a websocket. -/
inductive Frame where
  | text (bytes : List UInt8)
  | binary (bytes : List UInt8)
  | ping (payload : List UInt8)
  | pong (payload : List UInt8)
  | close
  | raw
deriving DecidableEq

/-- How the opening of a websocket ends. -/
inductive Opening where
  | opened
  | timedOut
  | failed
deriving DecidableEq

/-- How the wait for a frame ends. -/
inductive Arrival where
  | frame (frame : Frame)
  | timedOut
  | closed
  | failed
deriving DecidableEq

/-- What a program that was run has written, and whether it succeeded. -/
structure ProgramOutput where
  /-- Whether it succeeded. -/
  success : Bool
  /-- What it wrote. -/
  stdout : List UInt8

/-- What a process does, and with which outcome. -/
inductive Act where
  /-- The authentication of the user is read. -/
  | loadAuth (result : Except String CodexAuth)
  /-- The authentication of the user is refreshed. -/
  | refreshAuth (result : Except String CodexAuth)
  /-- The clock is read. -/
  | clock (now : Int64)
  /-- The process waits. -/
  | sleep (milliseconds : ℕ)
  /-- A request is sent. -/
  | exchange (request : HttpRequest) (response : Option HttpResponse)
  /-- A key is created in the Keychain. -/
  | createKey (identity : DeviceKeyIdentity)
  /-- The Keychain is asked to sign. -/
  | sign (keyId : String) (payload : List UInt8) (signature : Option (List UInt8))
  /-- The user authorizes an enrollment in the browser. -/
  | stepUp (accountId accountUserId : String) (result : Except String String)
  /-- The state file is read. -/
  | loadState (state : ControllerState)
  /-- The websocket of the relay is opened. -/
  | upgrade (upgrade : Upgrade) (opening : Opening)
  /-- The first frame of the websocket is awaited. -/
  | receive (arrival : Arrival)
  /-- A text is sent over the websocket. -/
  | send (message : Value) (sent : Bool)
  /-- An update was looked for; the process starts again if one was installed. -/
  | automaticUpdate (restarts : Bool)
  /-- The installation is locked. -/
  | lock (locked : Bool)
  /-- The version of the local Codex is asked for. -/
  | codexVersion (output : Option ProgramOutput)
  /-- The options of the local Codex are asked for. -/
  | codexHelp (output : Option ProgramOutput)

/-- The outcomes of the acts, by what was done before. -/
structure ControllerOutside where
  /-- `load_codex_auth` -/
  loadAuth : List Act → Except String CodexAuth
  /-- `refresh_codex_auth` -/
  refreshAuth : List Act → Except String CodexAuth
  /-- The clock. -/
  now : List Act → Int64
  /-- The relay. -/
  respond : List Act → HttpRequest → Option HttpResponse
  /-- What the steps of the Keychain and of the file system end with. -/
  steps : List Act → EnrollOutside
  /-- `request_step_up_token` -/
  stepUp : List Act → Except String String
  /-- Whether the state file can be read and is a regular file of the user alone. -/
  loadsState : List Act → Except String Unit
  /-- Whether the state file can be removed. -/
  removesState : List Act → Bool
  /-- The opening of the websocket. -/
  opening : List Act → Upgrade → Opening
  /-- The first frame. -/
  arrival : List Act → Arrival
  /-- Whether a text is sent. -/
  sends : List Act → Bool
  /-- `Uuid::new_v4` -/
  uuid : List Act → String
  /-- `automatic_update` -/
  updates : List Act → Bool
  /-- `Installation::lock` -/
  locks : List Act → Bool
  /-- `codex --version` -/
  codexVersion : List Act → Option ProgramOutput
  /-- `codex --help` -/
  codexHelp : List Act → Option ProgramOutput

/-- A header of the websocket that cannot be built. -/
inductive HeaderName where
  | authorization
  | accountId
  | clientId
  | sessionToken
deriving DecidableEq

/-- Why the local Codex cannot be used. -/
inductive CodexError where
  | versionUnavailable
  | versionFailed
  | versionNotUtf8
  | version (error : CompatibilityError)
  | helpUnavailable
  | helpFailed
  | helpNotUtf8
  | missingOptions (options : List String)
deriving DecidableEq

/-- The text of an error, as the source reports it; the texts of the libraries are left out. -/
def CodexError.text : CodexError → String
  | .versionUnavailable | .helpUnavailable => ""
  | .versionFailed => "stock Codex CLI could not report its version"
  | .versionNotUtf8 => "Codex version is not UTF-8"
  | .version error => error.text
  | .helpFailed => "stock Codex CLI could not report its supported options"
  | .helpNotUtf8 => "Codex help is not UTF-8"
  | .missingOptions options =>
    "stock Codex CLI does not expose the required remote terminal options: " ++
      ", ".intercalate options

/-- Why a function of the controller fails. -/
inductive ControllerError where
  | auth (text : String)
  | send
  | status (code : ℕ)
  | parse
  | page (error : PageError)
  | pairing (error : PairingBodyError)
  | emptyClientId
  | enroll (error : EnrollError)
  | stepUp (text : String)
  | signing (error : SigningError)
  | loadState (text : String)
  | removeState
  | deleteKey
  | refreshMismatch
  | refreshIdentity
  | refreshExpired
  | refreshSignature
  | header (name : HeaderName)
  | handshakeTimedOut
  | handshakeFailed
  | challengeTimedOut
  | challengeClosed
  | challengeUnread
  | challengeFrame
  | challengeNotJson
  | noChallenge
  | challengeMalformed
  | sendProof
  | environmentNotFound (environmentId : String)
  | environmentOffline (environmentId : String)
  | noneOnline
  | severalOnline
  | codex (error : CodexError)
  | version (error : CompatibilityError)
  | versionUnknown
  | lock
deriving DecidableEq

/-- The name of a header that cannot be built, as the source reports it. -/
def HeaderName.text : HeaderName → String
  | .authorization => "Codex access token cannot be used as a header"
  | .accountId => "ChatGPT account ID cannot be used as a header"
  | .clientId => "rcodex client ID cannot be used as a header"
  | .sessionToken => "relay session token cannot be used as a header"

/-- The text of an error, as the source reports it; `display` is how a status is shown. The texts of
the libraries are left out, and so are the paths in the texts of an enrollment. -/
def ControllerError.text (display : ℕ → String) : ControllerError → String
  | .auth text | .stepUp text | .loadState text => text
  | .send => "send remote-control request"
  | .status code => "remote-control request failed (" ++ display code ++ ")"
  | .parse => "parse remote-control response"
  | .page error => error.text
  | .pairing error => error.text
  | .emptyClientId => "rcodex client ID is empty"
  | .enroll error => error.text
  | .signing error => error.text
  | .removeState => "delete rcodex state"
  | .deleteKey => "delete the rcodex Keychain key after revocation"
  | .refreshMismatch => "remote-control refresh challenge does not match the local enrollment"
  | .refreshIdentity => "remote-control refresh challenge has the wrong device identity"
  | .refreshExpired => "remote-control refresh challenge is already expired"
  | .refreshSignature => "authorize remote-control session refresh"
  | .header name => name.text
  | .handshakeTimedOut => "remote-control websocket handshake timed out"
  | .handshakeFailed => "open remote-control websocket"
  | .challengeTimedOut => "remote-control device-key challenge timed out"
  | .challengeClosed => "remote-control websocket closed before device-key challenge"
  | .challengeUnread => "read remote-control device-key challenge"
  | .challengeFrame => "remote-control websocket sent a non-data challenge frame"
  | .challengeNotJson => "remote-control websocket frame is not JSON"
  | .noChallenge => "remote-control websocket did not send a device-key challenge"
  | .challengeMalformed => "parse remote-control device-key challenge"
  | .sendProof => "send websocket device-key proof"
  | .environmentNotFound environmentId =>
    "remote-control environment " ++ environmentId ++ " was not found"
  | .environmentOffline environmentId =>
    "remote-control environment " ++ environmentId ++ " is offline"
  | .noneOnline => "no paired Codex remote-control host is online"
  | .severalOnline => "multiple Codex hosts are online; choose one with --device <ENV_ID>"
  | .codex error => error.text
  | .version error => error.text
  | .versionUnknown => "remote Codex version is unknown"
  | .lock => ""

/-- A process: the device on which it runs, and what it has done. -/
structure Controller where
  /-- The Keychain and the state file. -/
  device : Device
  /-- The acts so far. -/
  log : List Act

/-- A computation of a process. -/
abbrev Control := Effect Controller ControllerError

/-- The functions of the libraries. -/
structure ControllerLibrary where
  /-- Those that the signed payloads need. -/
  signing : SigningLibrary
  /-- Those that the addresses need. -/
  urls : UrlLibrary
  /-- The JSON document of a text. -/
  fromSlice : List UInt8 → Option Value

/-- One more act. -/
def Controller.did (controller : Controller) (act : Act) : Controller :=
  { controller with log := controller.log ++ [act] }

@[simp] theorem Controller.did_log (controller : Controller) (act : Act) :
    (controller.did act).log = controller.log ++ [act] := rfl

@[simp] theorem Controller.did_device (controller : Controller) (act : Act) :
    (controller.did act).device = controller.device := rfl

/-- The process has gone on with acts like these, and nothing has changed on the device. -/
def Controller.Continues (start : Controller) (S : List Act → Prop) (controller : Controller) :
    Prop :=
  ∃ acts, controller.log = start.log ++ acts ∧ controller.device = start.device ∧ S acts

/-- One more act. -/
theorem Controller.Continues.did {start controller : Controller} {S T : List Act → Prop} {act : Act}
    (h : start.Continues S controller) (hact : ∀ acts, S acts → T (acts ++ [act])) :
    start.Continues T (controller.did act) := by
  obtain ⟨acts, hlog, hdevice, hS⟩ := h
  refine ⟨acts ++ [act], ?_, hdevice, hact acts hS⟩
  rw [Controller.did_log, hlog, List.append_assoc]

/-- The acts satisfy something weaker. -/
theorem Controller.Continues.mono {start controller : Controller} {S T : List Act → Prop}
    (h : start.Continues S controller) (hmono : ∀ acts, S acts → T acts) :
    start.Continues T controller := by
  obtain ⟨acts, hlog, hdevice, hS⟩ := h
  exact ⟨acts, hlog, hdevice, hmono acts hS⟩

/-- Nothing was done yet. -/
theorem Controller.Continues.refl {start : Controller} {S : List Act → Prop} (h : S []) :
    start.Continues S start :=
  ⟨[], (List.append_nil _).symm, rfl, h⟩

/-- The device of a process. -/
def devicePart : Effect.Part Controller Device where
  get := Controller.device
  put device controller := { controller with device }
  get_put _ _ := rfl

/-- Do something of which the outside decides the outcome. -/
def consult {α : Type} (answer : List Act → α) (act : α → Act) : Control α :=
  Effect.note (fun controller => answer controller.log) fun a controller => controller.did (act a)

/-- The outcome of an act is written down. -/
theorem consult_triple {α : Type} {answer : List Act → α} {act : α → Act} {start : Controller}
    {S : List Act → Prop} {T : α → List Act → Prop} {E : ControllerError → Controller → Prop}
    (h : ∀ a acts, S acts → T a (acts ++ [act a])) :
    Effect.Triple (start.Continues S) (consult answer act) (fun a => start.Continues (T a)) E :=
  Effect.Triple.note fun _ hS => hS.did (h _)

/-- Write an act down. -/
def record (act : Act) : Control Unit := Effect.change (·.did act)

/-- Do something with the Keychain and the state file. -/
def onDevice {α : Type} (m : Enroll α) : Control α := Effect.within devicePart .enroll m

section Primitives

variable (library : ControllerLibrary) (outside : ControllerOutside)

/-- `load_codex_auth` -/
def loadAuth : Control CodexAuth := do
  let result ← consult outside.loadAuth .loadAuth
  Effect.lift (result.mapError .auth)

/-- `refresh_codex_auth` -/
def refreshAuth : Control CodexAuth := do
  let result ← consult outside.refreshAuth .refreshAuth
  Effect.lift (result.mapError .auth)

/-- `chrono::Utc::now().timestamp()` -/
def clock : Control Int64 := consult outside.now .clock

/-- A request is sent and its response received. -/
def exchange (request : HttpRequest) : Control HttpResponse := do
  let response ← consult (outside.respond · request) (.exchange request)
  Effect.lift (context .send response)

/-- `create_os_protected_device_key` -/
def createOsProtectedDeviceKey : Control DeviceKeyIdentity := do
  let steps ← Effect.read fun controller => outside.steps controller.log
  let identity ← onDevice (createKey library.signing steps)
  record (.createKey identity)
  return identity

/-- `sign_with_os_protected_device_key` -/
def signWithOsProtectedDeviceKey (keyId : String) (payload : List UInt8) :
    Control (List UInt8) := do
  let steps ← Effect.read fun controller => outside.steps controller.log
  let result ← (onDevice (signWithKey library.signing steps keyId payload)).attempt
  record (.sign keyId payload result.toOption)
  Effect.lift result

/-- `delete_os_protected_device_key` -/
def deleteOsProtectedDeviceKey (keyId : String) : Control Unit := do
  let steps ← Effect.read fun controller => outside.steps controller.log
  onDevice (deleteKey library.signing steps keyId)

/-- `load_controller_state` -/
def loadState : Control ControllerState := do
  let loaded ← Effect.read fun controller => outside.loadsState controller.log
  Effect.lift (loaded.mapError .loadState)
  let stateFile ← Effect.read fun controller => controller.device.stateFile
  let state ← Effect.lift (context (.loadState "inspect rcodex state file") stateFile)
  record (.loadState state)
  return state

/-- `save_controller_state` -/
def saveState (state : ControllerState) : Control Unit := do
  let steps ← Effect.read fun controller => outside.steps controller.log
  onDevice (saveControllerState steps state)

end Primitives

end Rcodex
