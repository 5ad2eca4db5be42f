import Rcodex.Foundation.Decode
import Rcodex.Foundation.JsonText
import Rcodex.Foundation.Result
import Mathlib.Data.Finset.Insert

/-!
# The broker protocol

Requests, responses and the session of `broker.rs`.  A request is decoded from one frame
(`decodeRequest`); the session accepts a request or rejects it (`BrokerSession.accept`) and
remembers the identifiers it has accepted.  `AcceptOutcome` lists everything it can do with a
request.  `BrokerResponse.toVec` is the text of a response.
-/

namespace Rcodex

open Json Result

/-- `BROKER_PROTOCOL_VERSION` -/
def brokerProtocolVersion : UInt32 := 1

/-- `MAX_BROKER_FRAME_BYTES` -/
def maxBrokerFrameBytes : ℕ := 16 * 1024

/-- `MAX_HOST_ID_BYTES` -/
def maxHostIdBytes : ℕ := 128

/-- `MAX_HOST_LABEL_CHARS` -/
def maxHostLabelChars : ℕ := 256

/-- `MAX_METADATA_CHARS` -/
def maxMetadataChars : ℕ := 128

/-- The errors of the protocol. -/
inductive BrokerProtocolError where
  | emptyFrame
  | frameTooLarge
  | malformedFrame
  | incompatibleVersion
  | invalidPairingCode
  | invalidHostMetadata
deriving DecidableEq

/-- The text of an error, as the source reports it. -/
def BrokerProtocolError.text : BrokerProtocolError → String
  | .emptyFrame => "broker frame is empty"
  | .frameTooLarge => "broker frame exceeds the safety limit"
  | .malformedFrame => "broker frame is malformed"
  | .incompatibleVersion => "broker protocol version is incompatible"
  | .invalidPairingCode => "pairing code must contain exactly eight letters or digits"
  | .invalidHostMetadata => "relay host metadata is invalid"

/-- `validate_text` -/
def validateText (value : String) (maximum : ℕ) (countChars : Bool) :
    Except BrokerProtocolError Unit :=
  let length := if countChars then value.length else (Text.utf8 value).length
  bailWhen (Text.trim value = "" ∨ maximum < length ∨ value.toList.any Text.isControl = true)
    .invalidHostMetadata

/-- `validate_optional_text` -/
def validateOptionalText (value : Option String) (maximumChars : ℕ) :
    Except BrokerProtocolError Unit :=
  match value with
  | some value => validateText value maximumChars true
  | none => .ok ()

/-- A text that passed the check has no control characters. -/
theorem isControl_of_validateText {value : String} {maximum : ℕ} {countChars : Bool} {u : Unit}
    (h : validateText value maximum countChars = .ok u) :
    ∀ c ∈ value.toList, Text.isControl c = false := by
  have hnot := bailWhen_eq_ok_iff.mp h
  intro c hc
  by_contra hcontrol
  refine hnot (Or.inr (Or.inr (List.any_eq_true.mpr ⟨c, hc, ?_⟩)))
  simpa using hcontrol

/-! ### Pairing codes -/

/-- `u8::is_ascii_whitespace` -/
def isAsciiWhitespace (b : UInt8) : Bool := b == 32 || b == 9 || b == 10 || b == 12 || b == 13

/-- `u8::is_ascii_alphanumeric` -/
def isAsciiAlphanumeric (b : UInt8) : Bool :=
  (48 ≤ b && b ≤ 57) || (65 ≤ b && b ≤ 90) || (97 ≤ b && b ≤ 122)

/-- `u8::to_ascii_uppercase` -/
def toAsciiUppercase (b : UInt8) : UInt8 := if 97 ≤ b ∧ b ≤ 122 then b - 32 else b

/-- A digit or an upper-case letter. -/
def IsCodeByte (b : UInt8) : Prop := (48 ≤ b ∧ b ≤ 57) ∨ (65 ≤ b ∧ b ≤ 90)

/-- A pairing code: two groups of four digits or upper-case letters, joined by a hyphen. -/
structure PairingCode where
  /-- The first group. -/
  first : List UInt8
  /-- The second group. -/
  second : List UInt8
  /-- Four bytes. -/
  length_first : first.length = 4
  /-- Four bytes. -/
  length_second : second.length = 4
  /-- Digits and upper-case letters only. -/
  isCodeByte : ∀ b ∈ first ++ second, IsCodeByte b

/-- `PairingCode::as_str`: the normalized text. -/
def PairingCode.bytes (code : PairingCode) : List UInt8 := code.first ++ 45 :: code.second

/-- The letters and digits of a code in upper case, without white space and hyphens. -/
def compactCode : List UInt8 → Option (List UInt8)
  | [] => some []
  | b :: bytes =>
    if isAsciiWhitespace b || b == 45 then compactCode bytes
    else if isAsciiAlphanumeric b then (compactCode bytes).map (toAsciiUppercase b :: ·)
    else none

/-- A letter or digit in upper case. -/
theorem isCodeByte_toAsciiUppercase {b : UInt8} (h : isAsciiAlphanumeric b = true) :
    IsCodeByte (toAsciiUppercase b) := by
  have hall : ∀ n < 256, isAsciiAlphanumeric (UInt8.ofNat n) = true →
      IsCodeByte (toAsciiUppercase (UInt8.ofNat n)) := by
    unfold IsCodeByte
    decide +kernel
  have hb := hall b.toNat b.toNat_lt
  rw [UInt8.ofNat_toNat] at hb
  exact hb h

/-- The letters of a compact code are in upper case. -/
theorem isCodeByte_of_compactCode {bytes code : List UInt8} (h : compactCode bytes = some code) :
    ∀ b ∈ code, IsCodeByte b := by
  induction bytes generalizing code with
  | nil =>
    obtain rfl : [] = code := by simpa [compactCode] using h
    simp
  | cons b bytes ih =>
    rw [compactCode] at h
    split_ifs at h with hskip halnum
    · exact ih h
    · obtain ⟨rest, hrest, rfl⟩ := Option.map_eq_some_iff.mp h
      intro c hc
      rcases List.mem_cons.mp hc with rfl | hc
      · exact isCodeByte_toAsciiUppercase halnum
      · exact ih hrest c hc

/-- `PairingCode::new` -/
def PairingCode.new (value : String) : Except BrokerProtocolError PairingCode :=
  match hcode : compactCode (Text.utf8 value) with
  | none => .error .invalidPairingCode
  | some compact =>
    if hlen : compact.length = 8 then
      .ok { first := compact.take 4, second := compact.drop 4,
            length_first := by simp [hlen], length_second := by simp [hlen],
            isCodeByte := by
              rw [List.take_append_drop]
              exact isCodeByte_of_compactCode hcode }
    else .error .invalidPairingCode

/-! ### Requests -/

/-- `BrokerRequest` -/
inductive BrokerRequest where
  | handshake (version : UInt32) (id : UInt64) (minimumVersion maximumVersion : UInt32)
  | pair (version : UInt32) (id : UInt64) (pairingCode : PairingCode)
  | listHosts (version : UInt32) (id : UInt64)
  | openAppServer (version : UInt32) (id : UInt64) (environmentId : String)

namespace BrokerRequest

/-- `BrokerRequest::id` -/
def id : BrokerRequest → UInt64
  | .handshake _ id _ _ | .pair _ id _ | .listHosts _ id | .openAppServer _ id _ => id

/-- The request a document denotes. -/
def deserialize (document : Value) : Option BrokerRequest := do
  let (tag, body) ← splitTag "type" document
  match tag with
  | "handshake" =>
    match ← structFields ["version", "id", "minimumVersion", "maximumVersion"] body with
    | [version, id, minimum, maximum] =>
      return .handshake (← version.asU32) (← id.asU64) (← minimum.asU32) (← maximum.asU32)
    | _ => none
  | "pair" =>
    match ← structFields ["version", "id", "pairingCode"] body with
    | [version, id, code] =>
      return .pair (← version.asU32) (← id.asU64) (← (PairingCode.new (← code.asStr)).toOption)
    | _ => none
  | "list_hosts" =>
    match ← structFields ["version", "id"] body with
    | [version, id] => return .listHosts (← version.asU32) (← id.asU64)
    | _ => none
  | "open_app_server" =>
    match ← structFields ["version", "id", "environmentId"] body with
    | [version, id, environment] =>
      return .openAppServer (← version.asU32) (← id.asU64) (← environment.asStr)
    | _ => none
  | _ => none

/-- Whether the request speaks the version of the broker. -/
def IsCompatible : BrokerRequest → Prop
  | .handshake version _ minimum maximum =>
    version = brokerProtocolVersion ∧ minimum ≤ brokerProtocolVersion ∧
      brokerProtocolVersion ≤ maximum
  | .pair version _ _ | .listHosts version _ | .openAppServer version _ _ =>
    version = brokerProtocolVersion

instance (request : BrokerRequest) : Decidable request.IsCompatible := by
  cases request <;> unfold IsCompatible <;> infer_instance

/-- The check of the host of an `open_app_server` request. -/
def validateHost : BrokerRequest → Except BrokerProtocolError Unit
  | .openAppServer _ _ environmentId => validateText environmentId maxHostIdBytes false
  | _ => .ok ()

end BrokerRequest

/-- `decode_request`; `parse` is the JSON parser. -/
def decodeRequest (parse : List UInt8 → Option Value) (bytes : List UInt8) :
    Except BrokerProtocolError BrokerRequest := do
  bailWhen (bytes = []) .emptyFrame
  bailWhen (maxBrokerFrameBytes < bytes.length) .frameTooLarge
  let request ← context .malformedFrame ((parse bytes).bind BrokerRequest.deserialize)
  bailWhen (¬request.IsCompatible) .incompatibleVersion
  request.validateHost
  return request

/-! ### Hosts -/

/-- `RemoteEnvironment`: the fields the broker reads. -/
structure RemoteEnvironment where
  /-- The identifier. -/
  envId : String
  /-- The name to show. -/
  displayName : Option String
  /-- The name. -/
  name : Option String
  /-- The name of the machine. -/
  hostName : Option String
  /-- Whether it is online. -/
  online : Bool
  /-- Whether it is busy. -/
  busy : Bool
  /-- The version of its app server. -/
  appServerVersion : Option String
  /-- Its operating system. -/
  os : Option String
  /-- Its architecture. -/
  arch : Option String

/-- `first_nonempty` -/
def firstNonempty (values : List (Option String)) : String :=
  ((values.filterMap id).find? fun value => Text.trim value ≠ "").getD ""

/-- `RemoteEnvironment::display_name` -/
def RemoteEnvironment.label (environment : RemoteEnvironment) : String :=
  firstNonempty [environment.displayName, environment.name, environment.hostName,
    some environment.envId]

/-- `BrokerHost` -/
structure BrokerHost where
  /-- The identifier. -/
  id : String
  /-- The name to show. -/
  label : String
  /-- Whether it is online. -/
  online : Bool
  /-- Whether it is busy. -/
  busy : Bool
  /-- The version of its app server. -/
  appServerVersion : Option String
  /-- Its operating system. -/
  os : Option String
  /-- Its architecture. -/
  arch : Option String
deriving DecidableEq

/-- `BrokerHost::try_from` -/
def BrokerHost.tryFrom (environment : RemoteEnvironment) :
    Except BrokerProtocolError BrokerHost := do
  let label := environment.label
  validateText environment.envId maxHostIdBytes false
  validateText label maxHostLabelChars true
  validateOptionalText environment.appServerVersion maxMetadataChars
  validateOptionalText environment.os maxMetadataChars
  validateOptionalText environment.arch maxMetadataChars
  return { id := environment.envId, label, online := environment.online, busy := environment.busy,
           appServerVersion := environment.appServerVersion, os := environment.os,
           arch := environment.arch }

/-- The member of an optional text, left out when there is none. -/
def optionalMember (key : String) : Option String → Map
  | some value => [(key, .string value)]
  | none => []

/-- The document of a host. -/
def BrokerHost.serialize (host : BrokerHost) : Value :=
  .object ([("id", .string host.id), ("label", .string host.label), ("online", .bool host.online),
    ("busy", .bool host.busy)] ++ optionalMember "appServerVersion" host.appServerVersion ++
    optionalMember "os" host.os ++ optionalMember "arch" host.arch)

/-! ### Responses -/

/-- `BrokerCapability` -/
inductive BrokerCapability where
  | pair
  | listHosts
  | openAppServer
deriving DecidableEq

/-- The name of a capability. -/
def BrokerCapability.name : BrokerCapability → String
  | .pair => "pair"
  | .listHosts => "list_hosts"
  | .openAppServer => "open_app_server"

/-- `BrokerErrorCode` -/
inductive BrokerErrorCode where
  | authenticationRequired
  | enrollmentRequired
  | invalidRequest
  | incompatibleVersion
  | hostNotFound
  | hostOffline
  | relayUnavailable
  | internal
deriving DecidableEq

/-- The name of an error code. -/
def BrokerErrorCode.name : BrokerErrorCode → String
  | .authenticationRequired => "authentication_required"
  | .enrollmentRequired => "enrollment_required"
  | .invalidRequest => "invalid_request"
  | .incompatibleVersion => "incompatible_version"
  | .hostNotFound => "host_not_found"
  | .hostOffline => "host_offline"
  | .relayUnavailable => "relay_unavailable"
  | .internal => "internal"

/-- `BrokerResponse` -/
inductive BrokerResponse where
  | handshake (version : UInt32) (id : UInt64) (brokerVersion : String)
      (capabilities : List BrokerCapability)
  | hosts (version : UInt32) (id : UInt64) (hosts : List BrokerHost)
  | paired (version : UInt32) (id : UInt64) (hosts : List BrokerHost)
  | ready (version : UInt32) (id : UInt64) (environmentId : String)
  | error (version : UInt32) (id : UInt64) (code : BrokerErrorCode)
deriving DecidableEq

namespace BrokerResponse

/-- The identifier of the request that is answered. -/
def id : BrokerResponse → UInt64
  | .handshake _ id _ _ | .hosts _ id _ | .paired _ id _ | .ready _ id _ | .error _ id _ => id

/-- `BrokerResponse::handshake` -/
def ofHandshake (id : UInt64) : BrokerResponse :=
  .handshake brokerProtocolVersion id "0.2.0" [.pair, .listHosts, .openAppServer]

/-- `BrokerResponse::error` -/
def ofError (id : UInt64) (code : BrokerErrorCode) : BrokerResponse :=
  .error brokerProtocolVersion id code

/-- `BrokerResponse::hosts` -/
def ofHosts (id : UInt64) (hosts : List BrokerHost) : BrokerResponse :=
  .hosts brokerProtocolVersion id hosts

/-- `BrokerResponse::paired` -/
def ofPaired (id : UInt64) (hosts : List BrokerHost) : BrokerResponse :=
  .paired brokerProtocolVersion id hosts

/-- `BrokerResponse::ready` -/
def ofReady (id : UInt64) (environmentId : String) : BrokerResponse :=
  .ready brokerProtocolVersion id environmentId

/-- The members every response starts with. -/
def header (kind : String) (version : UInt32) (id : UInt64) : Map :=
  [("type", .string kind), ("version", .ofU64 version.toUInt64), ("id", .ofU64 id)]

/-- The document of a response. -/
def serialize : BrokerResponse → Value
  | .handshake version id brokerVersion capabilities =>
    .object (header "handshake" version id ++ [("brokerVersion", .string brokerVersion),
      ("capabilities", .array (capabilities.map fun c => .string c.name))])
  | .hosts version id list =>
    .object (header "hosts" version id ++ [("hosts", .array (list.map BrokerHost.serialize))])
  | .paired version id list =>
    .object (header "paired" version id ++ [("hosts", .array (list.map BrokerHost.serialize))])
  | .ready version id environmentId =>
    .object (header "ready" version id ++ [("environmentId", .string environmentId)])
  | .error version id code =>
    .object (header "error" version id ++ [("code", .string code.name)])

/-- The text of a response; it contains no doubles. -/
def toVec (response : BrokerResponse) : List UInt8 := (plainCodec []).toVec response.serialize

/-- The length of a response with one member behind its header. -/
theorem length_toVec_response (kind key : String) (id : UInt64) (value : Value) :
    ((plainCodec []).toVec (.object (header kind brokerProtocolVersion id ++
      [(key, value)]))).length =
      29 + (quote kind).length + (decimal id.toNat).length + (quote key).length +
        ((plainCodec []).toVec value).length := by
  have htype : ((plainCodec []).toVec (.string "type")).length = 6 := by decide
  have hversion : ((plainCodec []).toVec (.string "version")).length = 9 := by decide
  have hnumber : ((plainCodec []).toVec (.ofU64 brokerProtocolVersion.toUInt64)).length = 1 := by
    decide
  have hid : ((plainCodec []).toVec (.string "id")).length = 4 := by decide
  rw [(lawful_plainCodec []).length_toVec_object (by simp [header])]
  simp only [header, List.cons_append, List.nil_append, List.map_cons, List.map_nil, List.sum_cons,
    List.sum_nil, htype, hversion, hnumber, hid]
  change 1 + (6 + (quote kind).length + 2 + (9 + 1 + 2 + (4 + (decimal id.toNat).length + 2 +
    ((quote key).length + ((plainCodec []).toVec value).length + 2 + 0)))) = _
  omega

/-- An identifier has at most twenty digits. -/
theorem length_id_le (id : UInt64) : (decimal id.toNat).length ≤ 20 :=
  length_decimal_le (by omega) (lt_of_lt_of_le id.toNat_lt (by decide))

/-- An error fits a frame. -/
theorem length_toVec_ofError_le (id : UInt64) (code : BrokerErrorCode) :
    (ofError id code).toVec.length ≤ maxBrokerFrameBytes := by
  have hid := length_id_le id
  have hkind : (quote "error").length = 7 := by decide
  have hkey : (quote "code").length = 6 := by decide
  have hcode : ((plainCodec []).toVec (.string code.name)).length ≤ 40 := by
    cases code <;> decide
  rw [toVec, ofError, serialize, length_toVec_response, hkind, hkey, maxBrokerFrameBytes]
  omega

end BrokerResponse

/-! ### The session -/

/-- `BrokerAction` -/
inductive BrokerAction where
  | respond (response : BrokerResponse)
  | pair (id : UInt64) (pairingCode : PairingCode)
  | listHosts (id : UInt64)
  | openAppServer (id : UInt64) (environmentId : String)

/-- `BrokerSession` -/
structure BrokerSession where
  /-- Whether a handshake was accepted. -/
  initialized : Bool
  /-- The identifiers of the accepted requests. -/
  requestIds : Finset UInt64
deriving DecidableEq

/-- `BrokerSession::default()` -/
def BrokerSession.empty : BrokerSession := ⟨false, ∅⟩

/-- The session after a request was accepted. -/
def BrokerSession.record (session : BrokerSession) (id : UInt64) : BrokerSession :=
  ⟨true, insert id session.requestIds⟩

/-- `BrokerSession::accept` -/
def BrokerSession.accept (session : BrokerSession) (request : BrokerRequest) :
    Except BrokerErrorCode BrokerAction × BrokerSession :=
  let requestIds := insert request.id session.requestIds
  if request.id ∈ session.requestIds then (.error .invalidRequest, session)
  else
    match request, session.initialized with
    | .handshake _ id _ _, false => (.ok (.respond (.ofHandshake id)), ⟨true, requestIds⟩)
    | .handshake .., true => (.error .invalidRequest, session)
    | .pair _ id pairingCode, true =>
      (.ok (.pair id pairingCode), { session with requestIds })
    | .listHosts _ id, true => (.ok (.listHosts id), { session with requestIds })
    | .openAppServer _ id environmentId, true =>
      (.ok (.openAppServer id environmentId), { session with requestIds })
    | _, false => (.error .invalidRequest, session)

/-- The remote operation an action starts for a request. -/
inductive BrokerAction.Starts : BrokerAction → UInt64 → Prop
  | pair (id : UInt64) (pairingCode : PairingCode) : Starts (.pair id pairingCode) id
  | listHosts (id : UInt64) : Starts (.listHosts id) id
  | openAppServer (id : UInt64) (environmentId : String) :
    Starts (.openAppServer id environmentId) id

/-- Everything the session can do with a request. -/
inductive AcceptOutcome (session : BrokerSession) (request : BrokerRequest) :
    Except BrokerErrorCode BrokerAction × BrokerSession → Prop
  /-- The request is rejected and changes nothing. -/
  | rejected : AcceptOutcome session request (.error .invalidRequest, session)
  /-- The first handshake is answered. -/
  | greeted (hnew : request.id ∉ session.requestIds) (hfirst : session.initialized = false) :
    AcceptOutcome session request
      (.ok (.respond (.ofHandshake request.id)), session.record request.id)
  /-- After the handshake an operation starts. -/
  | started (action : BrokerAction) (hnew : request.id ∉ session.requestIds)
      (hinitialized : session.initialized = true) (hstarts : action.Starts request.id) :
    AcceptOutcome session request (.ok action, session.record request.id)

/-- Every request has one of these outcomes. -/
theorem accept_outcome (session : BrokerSession) (request : BrokerRequest) :
    AcceptOutcome session request (session.accept request) := by
  obtain ⟨initialized, requestIds⟩ := session
  unfold BrokerSession.accept
  dsimp only
  by_cases hused : request.id ∈ requestIds
  · rw [if_pos hused]
    exact .rejected
  · rw [if_neg hused]
    cases initialized with
    | false =>
      cases request with
      | handshake => exact .greeted hused rfl
      | _ => exact .rejected
    | true =>
      cases request with
      | handshake => exact .rejected
      | pair _ id code => exact .started _ hused rfl (.pair id code)
      | listHosts _ id => exact .started _ hused rfl (.listHosts id)
      | openAppServer _ id environment =>
        exact .started _ hused rfl (.openAppServer id environment)

end Rcodex
