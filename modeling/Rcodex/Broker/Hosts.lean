import Rcodex.Broker.Service
import Mathlib.Data.Finset.Card

/-!
# The list of hosts

`list_environments` collects pages of at most 100 environments in all (`acceptEnvironmentPage`),
and `broker_hosts_for_client` turns each into a host whose texts are bounded one by one.  A
response with all hosts has to fit one frame of 16 KiB.  `length_toVec_serialize` and
`length_toVec_ofPaired` compute its length; `listAnswered_iff` shows that the broker answers a list
of hosts exactly when this length is at most a frame.
-/

namespace Rcodex

open Json Result

/-- `MAX_REMOTE_ENVIRONMENTS` -/
def maxRemoteEnvironments : ℕ := 100

/-- `MAX_ENVIRONMENT_PAGES` -/
def maxEnvironmentPages : ℕ := 32

/-- `MAX_CURSOR_BYTES` -/
def maxCursorBytes : ℕ := 1024

/-- `EnvironmentList`: a page of environments. -/
structure EnvironmentList where
  /-- Where the next page starts. -/
  cursor : Option String
  /-- The environments of the page. -/
  items : List RemoteEnvironment

/-- The errors of `accept_environment_page`. -/
inductive PageError where
  | countOverflowed
  | tooManyEnvironments
  | invalidCursor
deriving DecidableEq

/-- The text of an error, as the source reports it. -/
def PageError.text : PageError → String
  | .countOverflowed => "relay environment count overflowed"
  | .tooManyEnvironments => "relay returned more environments than the broker safety limit"
  | .invalidCursor => "relay returned an invalid environment cursor"

/-- The environments collected so far and the cursors seen. -/
structure Listing where
  /-- The environments. -/
  environments : List RemoteEnvironment
  /-- The cursors. -/
  seenCursors : Finset String

/-- Whether a cursor cannot be followed. -/
def IsInvalidCursor (seenCursors : Finset String) (cursor : String) : Prop :=
  cursor = "" ∨ maxCursorBytes < (Text.utf8 cursor).length ∨
    cursor.toList.any Text.isControl = true ∨ seenCursors.card = maxEnvironmentPages ∨
    cursor ∈ seenCursors

instance (seenCursors : Finset String) (cursor : String) :
    Decidable (IsInvalidCursor seenCursors cursor) := by
  unfold IsInvalidCursor
  infer_instance

/-- `accept_environment_page` -/
def acceptEnvironmentPage (listing : Listing) (page : EnvironmentList) :
    Except PageError (Option String × Listing) := do
  let nextLength := listing.environments.length + page.items.length
  bailWhen (2 ^ 64 ≤ nextLength) .countOverflowed
  bailWhen (maxRemoteEnvironments < nextLength ∨
    (nextLength = maxRemoteEnvironments ∧ page.cursor.isSome = true)) .tooManyEnvironments
  let environments := listing.environments ++ page.items
  match page.cursor with
  | none => return (none, { listing with environments })
  | some cursor =>
    bailWhen (IsInvalidCursor listing.seenCursors cursor) .invalidCursor
    return (some cursor, { environments, seenCursors := insert cursor listing.seenCursors })

/-- The loop of `list_environments` over the pages the relay sends; nothing while a page is
missing. -/
def listEnvironments (listing : Listing) :
    List EnvironmentList → Except PageError (Option (List RemoteEnvironment))
  | [] => .ok none
  | page :: pages =>
    match acceptEnvironmentPage listing page with
    | .error error => .error error
    | .ok (none, listing) => .ok (some listing.environments)
    | .ok (some _, listing) => listEnvironments listing pages

/-- The pages of some relay make up this list of environments. -/
def Listed (environments : List RemoteEnvironment) : Prop :=
  ∃ pages, listEnvironments ⟨[], ∅⟩ pages = .ok (some environments)

/-- `broker_hosts_for_client`, given the answer of `list_environments`. -/
def brokerHostsForClient (environments : Except BrokerErrorCode (List RemoteEnvironment)) :
    Except BrokerErrorCode (List BrokerHost) := do
  let environments ← environments
  bailWhen (100 < environments.length) .relayUnavailable
  (environments.mapM BrokerHost.tryFrom).mapError fun _ => .relayUnavailable

/-- What an accepted page does: its environments are added, within the limit, and a cursor that can
be followed is remembered. -/
theorem acceptEnvironmentPage_cases {listing after : Listing} {page : EnvironmentList}
    {cursor : Option String} (h : acceptEnvironmentPage listing page = .ok (cursor, after)) :
    page.cursor = cursor ∧ after.environments = listing.environments ++ page.items ∧
      after.environments.length ≤ maxRemoteEnvironments ∧
      (cursor = none → after.seenCursors = listing.seenCursors) ∧
      ∀ c, cursor = some c → ¬IsInvalidCursor listing.seenCursors c ∧
        after.seenCursors = insert c listing.seenCursors := by
  obtain ⟨_, -, h⟩ := bind_eq_ok_iff.mp h
  obtain ⟨_, hlimit, h⟩ := bind_eq_ok_iff.mp h
  have hle : (listing.environments ++ page.items).length ≤ maxRemoteEnvironments := by
    rw [List.length_append]
    exact not_lt.mp fun hlt => bailWhen_eq_ok_iff.mp hlimit (Or.inl hlt)
  cases hcursor : page.cursor with
  | none =>
    rw [hcursor] at h
    obtain ⟨rfl, rfl⟩ := Prod.mk.inj (pure_eq_ok_iff.mp h)
    exact ⟨rfl, rfl, hle, fun _ => rfl, fun c hc => by simp at hc⟩
  | some c =>
    rw [hcursor] at h
    obtain ⟨_, hvalid, h⟩ := bind_eq_ok_iff.mp h
    obtain ⟨rfl, rfl⟩ := Prod.mk.inj (pure_eq_ok_iff.mp h)
    refine ⟨rfl, rfl, hle, fun hnone => by simp at hnone, fun c' hc' => ?_⟩
    obtain rfl := Option.some.inj hc'
    exact ⟨bailWhen_eq_ok_iff.mp hvalid, rfl⟩

/-- An accepted page makes the list longer, but not longer than the limit. -/
theorem acceptEnvironmentPage_le {listing after : Listing} {page : EnvironmentList}
    {cursor : Option String} (h : acceptEnvironmentPage listing page = .ok (cursor, after)) :
    after.environments.length ≤ maxRemoteEnvironments :=
  (acceptEnvironmentPage_cases h).2.2.1

/-- A list has at most 100 environments. -/
theorem Listed.length_le {environments : List RemoteEnvironment} (h : Listed environments) :
    environments.length ≤ 100 := by
  obtain ⟨pages, h⟩ := h
  generalize (⟨[], ∅⟩ : Listing) = listing at h
  induction pages generalizing listing with
  | nil => simp [listEnvironments] at h
  | cons page pages ih =>
    rw [listEnvironments] at h
    split at h
    next => simp at h
    next after haccept =>
      obtain rfl : after.environments = environments := by simpa using h
      exact acceptEnvironmentPage_le haccept
    next => exact ih _ h

/-- Every list of at most 100 environments comes on one page. -/
theorem listed_of_length_le {environments : List RemoteEnvironment}
    (h : environments.length ≤ 100) : Listed environments := by
  have hlimit : ¬(maxRemoteEnvironments < environments.length ∨
      (environments.length = maxRemoteEnvironments ∧ (none : Option String).isSome = true)) := by
    rw [maxRemoteEnvironments]
    simp [h]
  have hlength : ([] : List RemoteEnvironment).length + environments.length =
      environments.length := Nat.zero_add _
  have haccept : acceptEnvironmentPage ⟨[], ∅⟩ ⟨none, environments⟩ =
      .ok (none, ⟨environments, ∅⟩) := by
    refine bind_eq_ok_iff.mpr ⟨(), bailWhen_eq_ok_iff.mpr ?_, bind_eq_ok_iff.mpr
      ⟨(), bailWhen_eq_ok_iff.mpr ?_, rfl⟩⟩
    · rw [hlength]
      omega
    · rw [hlength]
      exact hlimit
  exact ⟨[⟨none, environments⟩], by simp only [listEnvironments, haccept]⟩

/-- A list that `list_environments` returned is turned into hosts one by one. -/
theorem brokerHostsForClient_of_listed {environments : List RemoteEnvironment}
    {hosts : List BrokerHost} (hlisted : Listed environments)
    (hhosts : environments.mapM BrokerHost.tryFrom = .ok hosts) :
    brokerHostsForClient (.ok environments) = .ok hosts := by
  refine bind_eq_ok_iff.mpr ⟨environments, rfl, bind_eq_ok_iff.mpr
    ⟨(), bailWhen_eq_ok_iff.mpr (not_lt.mpr hlisted.length_le), ?_⟩⟩
  rw [hhosts]
  rfl

/-! ### The length of a list of hosts -/

/-- No character of a text is a control character. -/
def ControlFree (s : String) : Prop := ∀ c ∈ s.toList, Text.isControl c = false

/-- A host has the fields of its environment, and its texts have no control characters. -/
theorem of_tryFrom_eq_ok {environment : RemoteEnvironment} {host : BrokerHost}
    (h : BrokerHost.tryFrom environment = .ok host) :
    host = { id := environment.envId, label := environment.label, online := environment.online,
             busy := environment.busy, appServerVersion := environment.appServerVersion,
             os := environment.os, arch := environment.arch } ∧
      ControlFree environment.envId ∧ ControlFree environment.label ∧
      (∀ s ∈ environment.appServerVersion, ControlFree s) ∧
      (∀ s ∈ environment.os, ControlFree s) ∧ ∀ s ∈ environment.arch, ControlFree s := by
  have hoptional : ∀ {value : Option String} {u : Unit},
      validateOptionalText value maxMetadataChars = .ok u → ∀ s ∈ value, ControlFree s := by
    rintro value u hvalid s rfl
    exact isControl_of_validateText hvalid
  obtain ⟨_, hid, h⟩ := bind_eq_ok_iff.mp h
  obtain ⟨_, hlabel, h⟩ := bind_eq_ok_iff.mp h
  obtain ⟨_, hversion, h⟩ := bind_eq_ok_iff.mp h
  obtain ⟨_, hos, h⟩ := bind_eq_ok_iff.mp h
  obtain ⟨_, harch, h⟩ := bind_eq_ok_iff.mp h
  exact ⟨(pure_eq_ok_iff.mp h).symm, isControl_of_validateText hid,
    isControl_of_validateText hlabel, hoptional hversion, hoptional hos, hoptional harch⟩

/-- The bytes of an optional text, with a fixed number of bytes for its key and punctuation. -/
def optionalSize (overhead : ℕ) : Option String → ℕ
  | some value => overhead + escapedSize value
  | none => 0

/-- The bytes an environment takes in a list of hosts: 46 for the keys, the punctuation and two
times `true`, and those of its texts. -/
def hostSize (environment : RemoteEnvironment) : ℕ :=
  46 + (if environment.online then 0 else 1) + (if environment.busy then 0 else 1) +
    escapedSize environment.envId + escapedSize environment.label +
    optionalSize 22 environment.appServerVersion + optionalSize 8 environment.os +
    optionalSize 10 environment.arch

/-- The bytes of a `paired` response: 46 for its own keys and punctuation, the digits of the
identifier, the hosts and the commas between them. -/
def pairedSize (id : UInt64) (environments : List RemoteEnvironment) : ℕ :=
  46 + (decimal id.toNat).length + (environments.map hostSize).sum + (environments.length - 1)

/-- The bytes a member of an object takes. -/
def memberSize (member : String × Value) : ℕ :=
  ((plainCodec []).toVec (.string member.1)).length + ((plainCodec []).toVec member.2).length + 2

/-- The bytes of a text without control characters. -/
theorem length_toVec_string {s : String} (h : ControlFree s) :
    ((plainCodec []).toVec (.string s)).length = escapedSize s + 2 :=
  length_quote h

/-- The bytes of an optional member. -/
theorem sum_memberSize_optionalMember {key : String} {value : Option String}
    (h : ∀ s ∈ value, ControlFree s) :
    ((optionalMember key value).map memberSize).sum =
      optionalSize ((quote key).length + 4) value := by
  cases value with
  | none => rfl
  | some s =>
    have hs := length_toVec_string (h s rfl)
    rw [optionalMember, List.map_singleton, List.sum_singleton, memberSize, hs, optionalSize]
    change (quote key).length + (escapedSize s + 2) + 2 = _
    omega

/-- The length of the text of a host. -/
theorem length_toVec_serialize {environment : RemoteEnvironment} {host : BrokerHost}
    (h : BrokerHost.tryFrom environment = .ok host) :
    ((plainCodec []).toVec host.serialize).length = hostSize environment := by
  obtain ⟨rfl, hid, hlabel, hversion, hos, harch⟩ := of_tryFrom_eq_ok h
  have hbool : ∀ b : Bool, ((plainCodec []).toVec (.bool b)).length = if b then 4 else 5 := by
    decide
  have hkeys : ((plainCodec []).toVec (.string "id")).length = 4 ∧
      ((plainCodec []).toVec (.string "label")).length = 7 ∧
      ((plainCodec []).toVec (.string "online")).length = 8 ∧
      ((plainCodec []).toVec (.string "busy")).length = 6 ∧
      (quote "appServerVersion").length = 18 ∧ (quote "os").length = 4 ∧
      (quote "arch").length = 6 := by
    decide
  obtain ⟨hkid, hklabel, hkonline, hkbusy, hkversion, hkos, hkarch⟩ := hkeys
  rw [BrokerHost.serialize, (lawful_plainCodec []).length_toVec_object (by simp)]
  change 1 + List.sum (List.map memberSize _) = _
  rw [List.map_append, List.sum_append, List.map_append, List.sum_append, List.map_append,
    List.sum_append, sum_memberSize_optionalMember hversion, sum_memberSize_optionalMember hos,
    sum_memberSize_optionalMember harch]
  simp only [List.map_cons, List.map_nil, List.sum_cons, List.sum_nil, memberSize, hbool,
    length_toVec_string hid, length_toVec_string hlabel, hkid, hklabel, hkonline, hkbusy,
    hkversion, hkos, hkarch, hostSize, Nat.reduceAdd]
  split_ifs <;> omega

/-- The length of a list of hosts is that of its hosts, the brackets and the commas. -/
theorem length_toVec_hosts {environments : List RemoteEnvironment} {hosts : List BrokerHost}
    (h : environments.mapM BrokerHost.tryFrom = .ok hosts) :
    ((plainCodec []).toVec (.array (hosts.map BrokerHost.serialize))).length =
      2 + (environments.map hostSize).sum + (environments.length - 1) := by
  have hforall := mapM_eq_ok_iff.mp h
  have hsizes : hosts.map (fun host => ((plainCodec []).toVec host.serialize).length) =
      environments.map hostSize := by
    clear h
    induction hforall with
    | nil => rfl
    | cons hhost _ ih => rw [List.map_cons, List.map_cons, length_toVec_serialize hhost, ih]
  have harray := length_compact_array (fun _ => [48, 46, 48]) (hosts.map BrokerHost.serialize)
  rw [List.map_map, List.length_map, ← hforall.length_eq] at harray
  change _ = 2 + (hosts.map fun host => _).sum + _ at harray
  rw [← hsizes]
  exact harray

/-- The length of a `paired` response. -/
theorem length_toVec_ofPaired (id : UInt64) {environments : List RemoteEnvironment}
    {hosts : List BrokerHost} (h : environments.mapM BrokerHost.tryFrom = .ok hosts) :
    (BrokerResponse.ofPaired id hosts).toVec.length = pairedSize id environments := by
  have hkind : (quote "paired").length = 8 := by decide
  have hkey : (quote "hosts").length = 7 := by decide
  rw [BrokerResponse.toVec, BrokerResponse.ofPaired, BrokerResponse.serialize,
    BrokerResponse.length_toVec_response, hkind, hkey, length_toVec_hosts h, pairedSize]
  omega

/-- The length of a `hosts` response: its kind is one character shorter. -/
theorem length_toVec_ofHosts (id : UInt64) {environments : List RemoteEnvironment}
    {hosts : List BrokerHost} (h : environments.mapM BrokerHost.tryFrom = .ok hosts) :
    (BrokerResponse.ofHosts id hosts).toVec.length + 1 = pairedSize id environments := by
  have hkind : (quote "hosts").length = 7 := by decide
  rw [BrokerResponse.toVec, BrokerResponse.ofHosts, BrokerResponse.serialize,
    BrokerResponse.length_toVec_response, hkind, length_toVec_hosts h, pairedSize]
  omega

/-! ### Answering a list of hosts -/

/-- The broker answers a `list_hosts` request with these hosts and serves on. -/
def AnswersListHosts (id : UInt64) (hosts : List BrokerHost) : Prop :=
  ∀ parse session after turn frame request, readBrokerFrame turn.line = .ok (some frame) →
    decodeRequest parse frame = .ok request →
    session.accept request = (.ok (.listHosts id), after) →
    turn.remote.listBrokerHosts = .ok hosts →
    Broker.step parse (.serving session) turn =
      (⟨some (.ofHosts id hosts), some (.listHosts id)⟩, .serving after)

/-- The broker answers a `pair` request with these hosts and serves on. -/
def AnswersPair (id : UInt64) (hosts : List BrokerHost) : Prop :=
  ∀ parse session after turn frame request code, readBrokerFrame turn.line = .ok (some frame) →
    decodeRequest parse frame = .ok request →
    session.accept request = (.ok (.pair id code), after) →
    turn.remote.pairAndListHosts = .ok hosts →
    Broker.step parse (.serving session) turn =
      (⟨some (.ofPaired id hosts), some (.pair id code)⟩, .serving after)

/-- A list of environments is answered: both responses with its hosts fit a frame and are written,
and the broker serves on. -/
structure ListAnswered (id : UInt64) (environments : List RemoteEnvironment)
    (hosts : List BrokerHost) : Prop where
  /-- The hosts are what the remote operations return. -/
  returned : brokerHostsForClient (.ok environments) = .ok hosts
  /-- The response to `list_hosts` fits. -/
  fitsHosts : Broker.FitsFrame (.ofHosts id hosts)
  /-- The response to `pair` fits. -/
  fitsPaired : Broker.FitsFrame (.ofPaired id hosts)
  /-- `list_hosts` is answered. -/
  listHosts : AnswersListHosts id hosts
  /-- `pair` is answered. -/
  pair : AnswersPair id hosts

/-- A response that fits is written. -/
theorem answersListHosts_of_fitsFrame {id : UInt64} {hosts : List BrokerHost}
    (h : Broker.FitsFrame (.ofHosts id hosts)) : AnswersListHosts id hosts := by
  intro parse session after turn frame request hread hdecode haccept hremote
  rw [Broker.step_frame hread]
  simp only [answer, hdecode, haccept, hremote]
  exact if_pos h

/-- A response that fits is written. -/
theorem answersPair_of_fitsFrame {id : UInt64} {hosts : List BrokerHost}
    (h : Broker.FitsFrame (.ofPaired id hosts)) : AnswersPair id hosts := by
  intro parse session after turn frame request code hread hdecode haccept hremote
  rw [Broker.step_frame hread]
  simp only [answer, hdecode, haccept, hremote]
  exact if_pos h

/-- A validated list of environments is answered exactly when the `paired` response with its hosts,
which is the longer one, takes at most a frame. -/
theorem listAnswered_iff {id : UInt64} {environments : List RemoteEnvironment}
    {hosts : List BrokerHost} (hlisted : Listed environments)
    (hhosts : environments.mapM BrokerHost.tryFrom = .ok hosts) :
    ListAnswered id environments hosts ↔ pairedSize id environments ≤ maxBrokerFrameBytes := by
  have hpaired := length_toVec_ofPaired id hhosts
  have hlist := length_toVec_ofHosts id hhosts
  constructor
  · intro h
    rw [← hpaired]
    exact h.fitsPaired
  · intro h
    have hfitsPaired : Broker.FitsFrame (.ofPaired id hosts) := hpaired.trans_le h
    have hfitsHosts : Broker.FitsFrame (.ofHosts id hosts) := by
      unfold Broker.FitsFrame
      omega
    exact ⟨brokerHostsForClient_of_listed hlisted hhosts, hfitsHosts, hfitsPaired,
      answersListHosts_of_fitsFrame hfitsHosts, answersPair_of_fitsFrame hfitsPaired⟩

/-- An environment with only an identifier. -/
def bareEnvironment (envId : String) : RemoteEnvironment :=
  { envId, displayName := none, name := none, hostName := none, online := true, busy := false,
    appServerVersion := none, os := none, arch := none }

/-- The host of a bare environment. -/
def bareHost (envId : String) : BrokerHost :=
  { id := envId, label := envId, online := true, busy := false, appServerVersion := none,
    os := none, arch := none }

/-- An environment with a name and metadata. -/
def namedEnvironment : RemoteEnvironment :=
  { envId := "e2", displayName := some " ", name := some "Studio \"A\"", hostName := none,
    online := false, busy := true, appServerVersion := some "0.161.0", os := some "macos",
    arch := none }

/-- Its host. -/
def namedHost : BrokerHost :=
  { id := "e2", label := "Studio \"A\"", online := false, busy := true,
    appServerVersion := some "0.161.0", os := some "macos", arch := none }

/-- A bare environment and one with metadata are answered. -/
theorem listAnswered_named :
    ListAnswered 1 [bareEnvironment "mac", namedEnvironment] [bareHost "mac", namedHost] := by
  refine (listAnswered_iff (listed_of_length_le ?_) ?_).mpr ?_
  · decide
  · decide +kernel
  · decide +kernel

/-- The first handshake is answered. -/
theorem step_handshake {parse : List UInt8 → Option Value} {turn : Turn} {frame : List UInt8}
    {id : UInt64} (hread : readBrokerFrame turn.line = .ok (some frame))
    (hdecode : decodeRequest parse frame = .ok (.handshake 1 id 1 1))
    (hfit : Broker.FitsFrame (.ofHandshake id)) :
    Broker.step parse .start turn = (⟨some (.ofHandshake id), some (.respond (.ofHandshake id))⟩,
      .serving (BrokerSession.empty.record id)) := by
  rw [Broker.start, Broker.step_frame hread]
  simp only [answer, hdecode]
  exact if_pos hfit

/-- A list of hosts that does not fit a frame ends the service. -/
theorem step_listHosts_of_not_fitsFrame {parse : List UInt8 → Option Value}
    {session after : BrokerSession} {turn : Turn} {frame : List UInt8} {request : BrokerRequest}
    {id : UInt64} {hosts : List BrokerHost}
    (hread : readBrokerFrame turn.line = .ok (some frame))
    (hdecode : decodeRequest parse frame = .ok request)
    (haccept : session.accept request = (.ok (.listHosts id), after))
    (hremote : turn.remote.listBrokerHosts = .ok hosts)
    (hfit : ¬Broker.FitsFrame (.ofHosts id hosts)) :
    Broker.step parse (.serving session) turn =
      (⟨none, some (.listHosts id)⟩, .ended (.error .responseTooLong)) := by
  rw [Broker.step_frame hread]
  simp only [answer, hdecode, haccept, hremote]
  exact if_neg hfit

/-- An identifier of 64 bytes. -/
def longId : String := String.ofList (List.replicate 64 'x')

/-- A hundred environments with long identifiers. -/
def crowdedEnvironments : List RemoteEnvironment := List.replicate 100 (bareEnvironment longId)

/-- Their hosts. -/
def crowdedHosts : List BrokerHost := List.replicate 100 (bareHost longId)

/-- Each environment is a host. -/
theorem mapM_tryFrom_crowded :
    crowdedEnvironments.mapM BrokerHost.tryFrom = .ok crowdedHosts := by
  refine mapM_eq_ok_iff.mpr (List.forall₂_iff_get.mpr
    ⟨by simp [crowdedEnvironments, crowdedHosts], fun i _ _ => ?_⟩)
  simp only [List.get_eq_getElem, crowdedEnvironments, crowdedHosts, List.getElem_replicate]
  decide +kernel

/-- All hosts together take more than a frame. -/
theorem lt_pairedSize_crowded : maxBrokerFrameBytes + 1 < pairedSize 2 crowdedEnvironments := by
  have hhost : hostSize (bareEnvironment longId) = 175 := by decide +kernel
  rw [pairedSize, crowdedEnvironments, List.map_replicate, List.sum_replicate, hhost]
  decide +kernel

/-- The service answers the handshake and ends when it is asked for the list of these hosts. -/
theorem not_listAnswered_crowded :
    let parse := (plainCodec [Broker.handshakeDocument 1, Broker.listHostsDocument 2]).fromSlice
    let remote : Remote := ⟨brokerHostsForClient (.ok crowdedEnvironments),
      brokerHostsForClient (.ok crowdedEnvironments), .ok ()⟩
    let turns : List Turn := [Broker.handshakeDocument 1, Broker.listHostsDocument 2].map
      fun document => ⟨Broker.documentLine document, remote⟩
    Listed crowdedEnvironments ∧
      crowdedEnvironments.mapM BrokerHost.tryFrom = .ok crowdedHosts ∧
      ¬ListAnswered 2 crowdedEnvironments crowdedHosts ∧
      (Machine.outputs (Broker.step parse) .start turns).map Broker.Output.response =
        [some (.ofHandshake 1), none] ∧
      Machine.final (Broker.step parse) .start turns = .ended (.error .responseTooLong) := by
  have hlisted : Listed crowdedEnvironments :=
    listed_of_length_le (by simp [crowdedEnvironments])
  have hfit : ¬Broker.FitsFrame (.ofHosts 2 crowdedHosts) := by
    have hsize := lt_pairedSize_crowded
    have hlength := length_toVec_ofHosts 2 mapM_tryFrom_crowded
    unfold Broker.FitsFrame
    omega
  rw [brokerHostsForClient_of_listed hlisted mapM_tryFrom_crowded]
  intro parse remote turns
  have hreadFirst : readBrokerFrame (Broker.documentLine (Broker.handshakeDocument 1)) =
      .ok (some ((plainCodec []).toVec (Broker.handshakeDocument 1))) := by decide +kernel
  have hreadSecond : readBrokerFrame (Broker.documentLine (Broker.listHostsDocument 2)) =
      .ok (some ((plainCodec []).toVec (Broker.listHostsDocument 2))) := by decide +kernel
  have hdecodeFirst : decodeRequest parse ((plainCodec []).toVec (Broker.handshakeDocument 1)) =
      .ok (.handshake 1 1 1 1) := rfl
  have hdecodeSecond : decodeRequest parse ((plainCodec []).toVec (Broker.listHostsDocument 2)) =
      .ok (.listHosts 1 2) := rfl
  have hfirst : Broker.step parse .start
      ⟨Broker.documentLine (Broker.handshakeDocument 1), remote⟩ =
        (⟨some (.ofHandshake 1), some (.respond (.ofHandshake 1))⟩,
          .serving (BrokerSession.empty.record 1)) :=
    step_handshake hreadFirst hdecodeFirst (by decide +kernel)
  have hsecond : Broker.step parse (.serving (BrokerSession.empty.record 1))
      ⟨Broker.documentLine (Broker.listHostsDocument 2), remote⟩ =
        (⟨none, some (.listHosts 2)⟩, .ended (.error .responseTooLong)) :=
    @step_listHosts_of_not_fitsFrame parse _ ((BrokerSession.empty.record 1).record 2) _ _ _ _ _
      hreadSecond hdecodeSecond rfl rfl hfit
  refine ⟨hlisted, mapM_tryFrom_crowded, fun h => hfit h.fitsHosts, ?_, ?_⟩
  · have houtputs : Machine.outputs (Broker.step parse) .start turns = [_, _] :=
      (Machine.outputs_cons_of_step _ hfirst _).trans
        (congrArg _ (Machine.outputs_cons_of_step _ hsecond []))
    rw [houtputs]
    rfl
  · exact (Machine.final_cons_of_step _ hfirst _).trans (Machine.final_cons_of_step _ hsecond [])

end Rcodex
