import Rcodex.Controller.Connect
import Rcodex.Controller.Policy

/-!
# What the device key signs, and where its signatures go

`Signs` says for which purposes a process may ask for a signature: what is signed is the payload of
the challenge that it received last, which is for the enrollment of the process and has not expired,
and a connection is bound to a session that the relay has issued for this enrollment.
`Act.IsJustified` extends this to the acts that use a signature or a session: a request that ends an
enrollment or a refresh, the opening of the websocket and the proof that is sent over it.

`Keeps` of module `Foundation.Audit` carries it through the functions of the controller: each of
them leaves a log in which every act is justified.
-/

namespace Rcodex

open Json Result Audit

/-- What a signature is for. -/
inductive Purpose where
  | enrollment
  | refresh
  | connection
deriving DecidableEq

section Justified

variable (library : ControllerLibrary)

/-- The enrollment is the one of the state file, or of a key that was created. -/
def Holds (enrollment : EnrollmentRecord) (log : List Act) : Prop :=
  .loadState ⟨enrollment⟩ ∈ log ∨
    ∃ identity start, .createKey identity ∈ log ∧
      enrollment = Controller.enrollmentOf start identity

/-- The relay has issued the session for the enrollment, and it had not expired then. -/
def Issued (enrollment : EnrollmentRecord) (session : RemoteControlSession) (log : List Act) :
    Prop :=
  ∃ before request response now after expiresAt,
    log = before ++ .exchange request (some response) :: .clock now :: after ∧
      (request.url = apiBase ++ enrollFinishPath ∨ request.url = apiBase ++ refreshFinishPath) ∧
      RelayApi.readBody library RemoteControlSession.deserialize response = some session ∧
      validateRemoteSession library.signing enrollment session now = .ok expiresAt

/-- The payload of an enrollment challenge. -/
def enrollmentPayload (enrollment : EnrollmentRecord) (challenge : EnrollmentChallenge) :
    List UInt8 :=
  library.signing.toVec (signingEnvelope
    (enrollmentSigningPayload challenge (deviceIdentityHash library.signing enrollment)))

/-- The payload of a connection challenge. -/
def connectionPayload (challenge : ConnectionChallenge) : List UInt8 :=
  library.signing.toVec (signingEnvelope (connectionSigningPayload challenge))

/-- A signature that may be asked for after these acts. -/
inductive Signs (earlier : List Act) : Purpose → EnrollmentRecord → List UInt8 → Prop
  /-- The challenge came with the start of an enrollment, for the key created since. -/
  | enrollment {before : List Act} {request : HttpRequest} {response : HttpResponse} {now : Int64}
      {identity : DeviceKeyIdentity} {start : EnrollmentStartResponse}
      (hearlier : earlier =
        before ++ [.exchange request (some response), .clock now, .createKey identity])
      (hurl : request.url = apiBase ++ "/codex/remote/control/client/enroll/start")
      (hstart : RelayApi.readBody library EnrollmentStartResponse.deserialize response = some start)
      (hunexpired : now < start.deviceKeyChallenge.challengeExpiresAt)
      (hmatches : EnrollmentMatches library.signing (Controller.enrollmentOf start identity)
        start.deviceKeyChallenge enrollFinishPath false) :
      Signs earlier .enrollment (Controller.enrollmentOf start identity) (enrollmentPayload library
        (Controller.enrollmentOf start identity) start.deviceKeyChallenge)
  /-- The challenge came with the start of a refresh, for the enrollment of the state file. -/
  | refresh {before : List Act} {request : HttpRequest} {response : HttpResponse} {now : Int64}
      {enrollment : EnrollmentRecord} {start : EnrollmentStartResponse}
      (hearlier : earlier = before ++ [.exchange request (some response), .clock now])
      (hurl : request.url = apiBase ++ "/codex/remote/control/client/refresh/start")
      (hstart : RelayApi.readBody library EnrollmentStartResponse.deserialize response = some start)
      (hstate : .loadState ⟨enrollment⟩ ∈ before)
      (hunexpired : now < start.deviceKeyChallenge.challengeExpiresAt)
      (hmatches : EnrollmentMatches library.signing enrollment start.deviceKeyChallenge
        refreshFinishPath true) :
      Signs earlier .refresh enrollment
        (enrollmentPayload library enrollment start.deviceKeyChallenge)
  /-- The challenge came over the websocket, for a session of the enrollment. -/
  | connection {before : List Act} {auth : CodexAuth} {frame : Frame} {now : Int64}
      {enrollment : EnrollmentRecord} {session : RemoteControlSession}
      {challenge : ConnectionChallenge}
      (hearlier : earlier = before ++
        [.upgrade (Controller.upgradeOf auth enrollment session) .opened,
        .receive (.frame frame), .clock now])
      (hchallenge : Controller.readChallenge library frame = .ok challenge)
      (hholds : Holds enrollment before)
      (hissued : Issued library enrollment session before)
      (hbound : BoundToSession library.signing enrollment session challenge now)
      (hmatches : ConnectionMatches library.signing challenge) :
      Signs earlier .connection enrollment (connectionPayload library challenge)

/-- A signature for this purpose was made. -/
def Signed (purpose : Purpose) (enrollment : EnrollmentRecord) (payload signature : List UInt8)
    (log : List Act) : Prop :=
  ∃ before after, log = before ++ .sign enrollment.keyId payload (some signature) :: after ∧
    Signs library before purpose enrollment payload

/-- A request that may be sent after these acts. -/
structure Spends (request : HttpRequest) (earlier : List Act) : Prop where
  /-- The end of an enrollment has a signature made for it, and the authorization of the user. -/
  enrollment : request.method = .post → request.url = apiBase ++ enrollFinishPath →
    ∃ enrollment challengeToken payload signature accountId accountUserId stepUpToken,
      Signed library .enrollment enrollment payload signature earlier ∧
        .stepUp accountId accountUserId (.ok stepUpToken) ∈ earlier ∧
        request.body = some (buildEnrollFinishBody enrollment stepUpToken
          (deviceKeyProof challengeToken enrollment.keyId payload signature))
  /-- The end of a refresh has a signature made for it. -/
  refresh : request.method = .post → request.url = apiBase ++ refreshFinishPath →
    ∃ enrollment challengeToken payload signature,
      Signed library .refresh enrollment payload signature earlier ∧
        request.body = some (buildRefreshFinishBody enrollment
          (deviceKeyProof challengeToken enrollment.keyId payload signature))

/-- A websocket that may be opened after these acts. -/
def Opens (upgrade : Upgrade) (earlier : List Act) : Prop :=
  ∃ auth enrollment session, upgrade = Controller.upgradeOf auth enrollment session ∧
    (.loadAuth (.ok auth) ∈ earlier ∨ .refreshAuth (.ok auth) ∈ earlier) ∧
      Holds enrollment earlier ∧ Issued library enrollment session earlier

/-- A message that may be sent over the websocket after these acts. -/
def Proves (message : Value) (earlier : List Act) : Prop :=
  ∃ before enrollment payload signature,
    earlier = before ++ [.sign enrollment.keyId payload (some signature)] ∧
      Signs library before .connection enrollment payload ∧
      message = proofMessage enrollment signature payload

/-- An act that may follow these acts. -/
def Act.IsJustified (earlier : List Act) : Act → Prop
  | .sign keyId payload _ => ∃ purpose enrollment, keyId = enrollment.keyId ∧
    Signs library earlier purpose enrollment payload
  | .exchange request _ => Spends library request earlier
  | .upgrade headers _ => Opens library headers earlier
  | .send message _ => Proves library message earlier
  | _ => True

end Justified

/-- The acts before the computation satisfy `J`, those after it `R`, and all are justified. -/
abbrev Justifies (library : ControllerLibrary) {α : Type} (J : List Act → Prop) (m : Control α)
    (R : α → List Act → Prop) : Prop :=
  Keeps Controller.log (Act.IsJustified library) J m R

/-! ### What is kept -/

section Stable

variable {library : ControllerLibrary}

/-- The enrollment stays the one of the state file or of a key. -/
theorem stable_holds (enrollment : EnrollmentRecord) : Stable (Holds enrollment) :=
  Stable.or (stable_mem _) (Stable.exists fun identity => Stable.exists fun _ =>
    (stable_mem (Act.createKey identity)).and (stable_const _))

/-- A session stays issued. -/
theorem stable_issued (enrollment : EnrollmentRecord) (session : RemoteControlSession) :
    Stable (Issued library enrollment session) := by
  rintro log later ⟨before, request, response, now, after, expiresAt, rfl, h⟩
  exact ⟨before, request, response, now, after ++ later, expiresAt, by simp, h⟩

/-- A signature stays made. -/
theorem stable_signed (purpose : Purpose) (enrollment : EnrollmentRecord)
    (payload signature : List UInt8) :
    Stable (Signed library purpose enrollment payload signature) := by
  rintro log later ⟨before, after, rfl, h⟩
  exact ⟨before, after ++ later, by simp, h⟩

/-- A request that ends neither an enrollment nor a refresh needs nothing. -/
theorem spends_of_path {method : Method} {path : String} {body : Option Value}
    {allowNotFound : Bool} (henrollment : path ≠ enrollFinishPath)
    (hrefresh : path ≠ refreshFinishPath) (auth : CodexAuth) (earlier : List Act) :
    Spends library ((RelayCall.mk method path body allowNotFound).request auth) earlier := by
  refine ⟨fun _ h => absurd ?_ henrollment, fun _ h => absurd ?_ hrefresh⟩
  · simpa [RelayCall.request] using h
  · simpa [RelayCall.request] using h

/-- A request with another method needs nothing. -/
theorem spends_of_method {method : Method} {path : String} {body : Option Value}
    {allowNotFound : Bool} (hmethod : method ≠ .post) (auth : CodexAuth) (earlier : List Act) :
    Spends library ((RelayCall.mk method path body allowNotFound).request auth) earlier :=
  ⟨fun h => absurd h hmethod, fun h => absurd h hmethod⟩

end Stable

/-! ### The single acts -/

section Acts

variable {library : ControllerLibrary} {outside : ControllerOutside} {J : List Act → Prop}

/-- An act of which the outside decides the outcome. -/
theorem consult_justifies {α : Type} {answer : List Act → α} {act : α → Act}
    (hact : ∀ a log, J log → (act a).IsJustified library log) :
    Justifies library J (consult answer act)
      fun a log => ∃ before, log = before ++ [act a] ∧ J before :=
  Keeps.note (fun _ _ => rfl) hact fun _ entries h => ⟨entries, rfl, h⟩

/-- An act after which what was known is known. -/
theorem consult_keeps {α : Type} {answer : List Act → α} {act : α → Act} (hJ : Stable J)
    (hact : ∀ a log, J log → (act a).IsJustified library log) :
    Justifies library J (consult answer act) fun _ => J := by
  refine (consult_justifies hact).conseq (fun _ h => h) fun a log h => ?_
  obtain ⟨before, rfl, hbefore⟩ := h
  exact hJ _ _ hbefore

/-- An act that is written down. -/
theorem record_justifies {act : Act} (hact : ∀ log, J log → act.IsJustified library log) :
    Justifies library J (record act) fun _ log => ∃ before, log = before ++ [act] ∧ J before :=
  Keeps.change (fun _ => rfl) hact fun entries h => ⟨entries, rfl, h⟩

/-- What is done on the device is not written down. -/
theorem onDevice_justifies {α : Type} (m : Enroll α) :
    Justifies library J (onDevice m) fun _ => J := by
  refine Keeps.silent (fun _ _ h => h) fun S => ?_
  exact (Effect.Triple.within devicePart (P := fun _ => True)
    (F := fun controller => S controller.log) (Effect.Triple.trivial (m := m))
    fun _ _ h => h).conseq
      (fun _ h => ⟨trivial, h⟩) (fun _ _ h => h.2) fun _ _ h => h.2

/-- The clock. -/
theorem clock_justifies : Justifies library J (clock outside)
    fun now log => ∃ before, log = before ++ [.clock now] ∧ J before :=
  consult_justifies fun _ _ _ => trivial

/-- A new key. -/
theorem createKey_justifies : Justifies library J (createOsProtectedDeviceKey library outside)
    fun identity log => ∃ before, log = before ++ [.createKey identity] ∧ J before := by
  refine Keeps.bind (Keeps.read (R := fun _ => J) fun _ h => h) fun steps => ?_
  refine Keeps.bind (onDevice_justifies _) fun identity => ?_
  exact Keeps.bind (record_justifies fun _ _ => trivial) fun _ => Keeps.ret fun _ h => h

/-- The state file. -/
theorem loadState_justifies : Justifies library J (loadState outside)
    fun state log => ∃ before, log = before ++ [.loadState state] ∧ J before := by
  refine Keeps.bind (Keeps.read (R := fun _ => J) fun _ h => h) fun loaded => ?_
  refine Keeps.bind (Keeps.lift (R := fun _ => J) fun _ _ _ h => h) fun _ => ?_
  refine Keeps.bind (Keeps.read (R := fun _ => J) fun _ h => h) fun stateFile => ?_
  refine Keeps.bind (Keeps.lift (R := fun _ => J) fun _ _ _ h => h) fun state => ?_
  exact Keeps.bind (record_justifies fun _ _ => trivial) fun _ => Keeps.ret fun _ h => h

/-- A signature, which is asked for with a purpose. -/
theorem sign_justifies {enrollment : EnrollmentRecord} {payload : List UInt8} {purpose : Purpose}
    (hJ : ∀ log, J log → Signs library log purpose enrollment payload) :
    Justifies library J (signWithOsProtectedDeviceKey library outside enrollment.keyId payload)
      fun signature log => ∃ before,
        log = before ++ [.sign enrollment.keyId payload (some signature)] ∧ J before := by
  refine Keeps.bind (Keeps.read (R := fun _ => J) fun _ h => h) fun steps => ?_
  refine Keeps.bind (R := fun _ => J) ?_ fun result => ?_
  · refine Keeps.silent (fun _ _ h => h) fun S => Effect.Triple.attempt_keeps ?_
    exact (Effect.Triple.within devicePart (P := fun _ => True)
      (F := fun controller => S controller.log) Effect.Triple.trivial fun _ _ h => h).conseq
        (fun _ h => ⟨trivial, h⟩) (fun _ _ h => h.2) fun _ _ h => h.2
  · refine Keeps.bind (record_justifies fun log h => ⟨purpose, enrollment, rfl, hJ log h⟩)
      fun _ => ?_
    refine Keeps.lift fun signature hresult log h => ?_
    rw [hresult] at h
    exact h

/-- A request that may be sent. -/
theorem send_justifies (call : RelayCall) (hJ : Stable J)
    (hspends : ∀ auth log, J log → Spends library (call.request auth) log) :
    Justifies library J
      (RelayApi.sendWithStatusPolicy outside call.method call.path call.body call.allowNotFound)
      fun response log => ∃ before request, log = before ++ [.exchange request (some response)] ∧
        request.url = apiBase ++ call.path ∧ J before := by
  intro S hS
  refine Effect.Triple.of_ends fun start hstart => ?_
  have hjustified : ∀ acts, Audited call.Part acts →
      Audited (Act.IsJustified library) (start.log ++ acts) := by
    refine fun acts hacts => hstart.1.append fun earlier act later hsplit => ?_
    have hpart := hacts earlier act later hsplit
    cases hpart with
    | exchange _ _ response => exact hspends _ _ (hJ _ _ hstart.2.2)
    | _ => trivial
  obtain ⟨response, after, hrun, hended⟩ | ⟨error, after, hrun, hended⟩ :=
    (@RelayCall.send_triple call outside start).ends rfl
  · obtain ⟨acts, hlog, -, hended⟩ := hended
    obtain ⟨⟨request, hlast⟩, -⟩ := hended.concludes
    obtain ⟨earlier, hacts⟩ := List.getLast?_eq_some_iff.mp hlast
    refine Or.inl ⟨response, after, hrun, ?_, ?_, start.log ++ earlier, request, ?_, ?_,
      hJ _ _ hstart.2.2⟩
    · rw [hlog]
      exact hjustified acts hended.audited
    · rw [hlog]
      exact hS _ _ hstart.2.1
    · rw [hlog, hacts, List.append_assoc]
    · have hpart := hended.audited earlier _ [] hacts
      cases hpart
      rfl
  · obtain ⟨acts, hlog, -, hended⟩ := hended
    refine Or.inr ⟨error, after, hrun, ?_, ?_⟩
    · rw [hlog]
      exact hjustified acts hended.audited
    · rw [hlog]
      exact hS _ _ hstart.2.1

/-- A request of which the answer is read. -/
theorem requestJson_justifies {α : Type} {deserialize : Value → Option α} {method : Method}
    {path : String} {body : Option Value} (hJ : Stable J)
    (hspends : ∀ auth log, J log →
      Spends library ((RelayCall.mk method path body false).request auth) log) :
    Justifies library J (RelayApi.requestJson library outside deserialize method path body)
      fun value log => ∃ before request response,
        log = before ++ [.exchange request (some response)] ∧ request.url = apiBase ++ path ∧
          RelayApi.readBody library deserialize response = some value ∧ J before := by
  refine Keeps.bind (send_justifies (RelayCall.mk method path body false) hJ hspends)
    fun response => ?_
  refine Keeps.lift fun value hvalue log h => ?_
  obtain ⟨before, request, hlog, hurl, hbefore⟩ := h
  exact ⟨before, request, response, hlog, hurl, context_eq_ok_iff.mp hvalue, hbefore⟩

/-- The authentication is one that was read or refreshed. -/
theorem auth_justifies : Justifies library J (RelayApi.auth outside) fun auth log =>
    (.loadAuth (.ok auth) ∈ log ∨ .refreshAuth (.ok auth) ∈ log) := by
  have hread : ∀ {answer : List Act → Except String CodexAuth}
      {act : Except String CodexAuth → Act}
      (_ : ∀ result log, (act result).IsJustified library log),
      Justifies library J
        (do
          let result ← consult answer act
          Effect.lift (result.mapError .auth))
        fun auth log => act (.ok auth) ∈ log := by
    intro answer act hact
    refine Keeps.bind (consult_justifies fun result log _ => hact result log) fun result => ?_
    refine Keeps.lift fun auth hauth log h => ?_
    obtain ⟨before, rfl, -⟩ := h
    rw [mapError_eq_ok_iff.mp hauth]
    exact List.mem_append_right _ (List.mem_singleton.mpr rfl)
  refine Keeps.bind (hread fun _ _ => trivial) fun auth => ?_
  refine Keeps.bind (R := fun _ log => .loadAuth (.ok auth) ∈ log) ?_ fun now => ?_
  · refine clock_justifies.conseq (fun _ h => h) fun now log h => ?_
    obtain ⟨before, rfl, hmem⟩ := h
    exact List.mem_append_left _ hmem
  · split_ifs
    · refine Keeps.bind (consult_justifies fun _ _ _ => trivial) fun result => ?_
      refine Keeps.lift fun renewed hrenewed log h => ?_
      obtain ⟨before, rfl, -⟩ := h
      rw [mapError_eq_ok_iff.mp hrenewed]
      exact Or.inr (List.mem_append_right _ (List.mem_singleton.mpr rfl))
    · exact Keeps.ret fun _ h => Or.inl h

end Acts

/-! ### The session -/

section Sessions

variable {library : ControllerLibrary} {outside : ControllerOutside} {J : List Act → Prop}

/-- A session that passes the checks was issued. -/
theorem validateSession_justifies {enrollment : EnrollmentRecord} {session : RemoteControlSession}
    {path : String} (hpath : path = enrollFinishPath ∨ path = refreshFinishPath) :
    Justifies library (fun log => ∃ before request response,
        log = before ++ [.exchange request (some response)] ∧ request.url = apiBase ++ path ∧
          RelayApi.readBody library RemoteControlSession.deserialize response = some session ∧
            J before)
      (Controller.validateSession library outside enrollment session)
      fun _ => Issued library enrollment session := by
  refine Keeps.bind clock_justifies fun now => ?_
  refine Keeps.bind (R := fun _ => Issued library enrollment session)
    (Keeps.lift fun expiresAt hvalid log h => ?_) fun _ => Keeps.ret fun _ h => h
  obtain ⟨_, rfl, before, request, response, rfl, hurl, hbody, -⟩ := h
  refine ⟨before, request, response, now, [], expiresAt, List.append_assoc _ _ _, ?_, hbody,
    mapError_eq_ok_iff.mp hvalid⟩
  rw [hurl]
  exact hpath.imp (congrArg _) (congrArg _)

/-- A session is refreshed for the enrollment of the state file. -/
theorem refreshSession_justifies {enrollment : EnrollmentRecord} :
    Justifies library (.loadState ⟨enrollment⟩ ∈ ·)
      (Controller.refreshSession library outside enrollment)
      fun session => Issued library enrollment session := by
  refine Keeps.bind (requestJson_justifies (stable_mem _) fun auth log _ =>
    spends_of_path (by decide) (by decide) auth log) fun start => ?_
  refine Keeps.bind (R := fun _ log => ∃ before request response now,
    log = before ++ [.exchange request (some response), .clock now] ∧
      request.url = apiBase ++ "/codex/remote/control/client/refresh/start" ∧
      RelayApi.readBody library EnrollmentStartResponse.deserialize response = some start ∧
      .loadState ⟨enrollment⟩ ∈ before ∧ now < start.deviceKeyChallenge.challengeExpiresAt)
    ?_ fun _ => ?_
  · refine Keeps.bind Keeps.failWhen fun _ => Keeps.bind Keeps.failWhen fun _ => ?_
    refine Keeps.bind clock_justifies fun now => ?_
    refine Keeps.failWhen.conseq (fun _ h => h) fun _ log h => ?_
    obtain ⟨⟨_, rfl, ⟨⟨before, request, response, rfl, hurl, hbody, hstate⟩, -⟩, -⟩, hexpired⟩ := h
    exact ⟨before, request, response, now, List.append_assoc _ _ _, hurl, hbody, hstate,
      Int64.not_le.mp hexpired⟩
  refine Keeps.bind (R := fun payload log => Signs library log .refresh enrollment payload)
    (Keeps.lift fun payload hpayload log h => ?_) fun payload => ?_
  · obtain ⟨before, request, response, now, rfl, hurl, hbody, hstate, hunexpired⟩ := h
    obtain ⟨hmatches, rfl⟩ :=
      buildEnrollmentSigningPayload_eq_ok_iff.mp (mapError_eq_ok_iff.mp hpayload)
    exact .refresh rfl hurl hbody hstate hunexpired hmatches
  refine Keeps.bind (Keeps.mapError (sign_justifies fun _ h => h)) fun signature => ?_
  refine Keeps.bind (R := fun session log => ∃ before request response,
    log = before ++ [.exchange request (some response)] ∧
      request.url = apiBase ++ refreshFinishPath ∧
      RelayApi.readBody library RemoteControlSession.deserialize response = some session ∧
        Signed library .refresh enrollment payload signature before) ?_ fun session => ?_
  · refine (requestJson_justifies (stable_signed _ _ _ _) fun auth log hsigned => ?_).conseq
      (fun log h => ?_) fun _ _ h => h
    · refine ⟨fun _ hurl => absurd hurl ?_, fun _ _ => ?_⟩
      · simp [RelayCall.request, enrollFinishPath]
      · exact ⟨enrollment, start.deviceKeyChallenge.challengeToken, payload, signature, hsigned,
          rfl⟩
    · obtain ⟨before, rfl, hsigns⟩ := h
      exact ⟨before, [], rfl, hsigns⟩
  · exact Keeps.bind (validateSession_justifies (Or.inr rfl)) fun _ => Keeps.ret fun _ h => h

/-- An enrollment was started, and its challenge has not expired. -/
def Started (library : ControllerLibrary) (start : EnrollmentStartResponse) (log : List Act) :
    Prop :=
  ∃ before request response now, log = before ++ [.exchange request (some response), .clock now] ∧
    request.url = apiBase ++ "/codex/remote/control/client/enroll/start" ∧
    RelayApi.readBody library EnrollmentStartResponse.deserialize response = some start ∧
    now < start.deviceKeyChallenge.challengeExpiresAt

/-- An enrollment is started. -/
theorem startEnrollment_justifies :
    Justifies library J (Controller.startEnrollment library outside)
      fun started => Started library started.2 := by
  refine Keeps.bind (Keeps.read (R := fun _ _ => True) fun _ _ => trivial) fun _ => ?_
  refine Keeps.bind (R := fun _ _ => True) (Keeps.failWhen.conseq (fun _ h => h)
    fun _ _ _ => trivial) fun _ => ?_
  refine Keeps.bind (R := fun _ _ => True) (auth_justifies.conseq (fun _ h => h)
    fun _ _ _ => trivial) fun auth => ?_
  refine Keeps.bind (requestJson_justifies (stable_const True) fun auth log _ =>
    spends_of_path (by decide) (by decide) auth log) fun start => ?_
  refine Keeps.bind Keeps.failWhen fun _ => Keeps.bind clock_justifies fun now => ?_
  refine Keeps.bind (R := fun _ => Started library start)
    (Keeps.failWhen.conseq (fun _ h => h) fun _ log h => ?_) fun _ => Keeps.ret fun _ h => h
  obtain ⟨⟨_, rfl, ⟨before, request, response, rfl, hurl, hbody, -⟩, -⟩, hexpired⟩ := h
  exact ⟨before, request, response, now, List.append_assoc _ _ _, hurl, hbody,
    Int64.not_le.mp hexpired⟩

/-- A key is enrolled. -/
theorem enrollKey_justifies {auth : CodexAuth} {start : EnrollmentStartResponse}
    {identity : DeviceKeyIdentity} :
    Justifies library
      (fun log => ∃ before, log = before ++ [.createKey identity] ∧ Started library start before)
      (Controller.enrollKey library outside auth start identity) fun enrolled log =>
        Holds enrolled.1.enrollment log ∧
          Issued library enrolled.1.enrollment enrolled.2 log := by
  set enrollment := Controller.enrollmentOf start identity with henrollment
  have hholds : Stable (Holds enrollment) := stable_holds enrollment
  refine Keeps.bind (R := fun payload log => Signs library log .enrollment enrollment payload ∧
    Holds enrollment log) (Keeps.lift fun payload hpayload log h => ?_) fun payload => ?_
  · obtain ⟨_, rfl, before, request, response, now, rfl, hurl, hbody, hunexpired⟩ := h
    obtain ⟨hmatches, rfl⟩ :=
      buildEnrollmentSigningPayload_eq_ok_iff.mp (mapError_eq_ok_iff.mp hpayload)
    refine ⟨.enrollment (List.append_assoc _ _ _) hurl hbody hunexpired hmatches,
      Or.inr ⟨identity, start, ?_, rfl⟩⟩
    exact List.mem_append_right _ (List.mem_singleton.mpr rfl)
  refine Keeps.bind ((sign_justifies fun _ h => h).frame hholds) fun signature => ?_
  refine Keeps.bind (R := fun token log => (∃ accountId accountUserId,
    .stepUp accountId accountUserId (.ok token) ∈ log) ∧
      Signed library .enrollment enrollment payload signature log ∧ Holds enrollment log)
    ?_ fun token => ?_
  · refine Keeps.bind (consult_justifies fun _ _ _ => trivial) fun result => ?_
    refine Keeps.lift fun token htoken log h => ?_
    obtain ⟨_, rfl, ⟨before, rfl, hsigns⟩, hheld⟩ := h
    rw [mapError_eq_ok_iff.mp htoken]
    refine ⟨⟨_, _, List.mem_append_right _ (List.mem_singleton.mpr rfl)⟩,
      ⟨before, _, List.append_assoc _ _ _, hsigns⟩, hholds _ _ hheld⟩
  have hstable : Stable fun log => (∃ accountId accountUserId,
      .stepUp accountId accountUserId (.ok token) ∈ log) ∧
        Signed library .enrollment enrollment payload signature log :=
    (Stable.exists fun _ => Stable.exists fun _ => stable_mem _).and (stable_signed _ _ _ _)
  refine Keeps.bind (R := fun session log => (∃ before request response,
    log = before ++ [.exchange request (some response)] ∧
      request.url = apiBase ++ enrollFinishPath ∧
      RelayApi.readBody library RemoteControlSession.deserialize response = some session ∧
        True) ∧ Holds enrollment log) ?_ fun session => ?_
  · refine ((requestJson_justifies hstable fun auth log hsigned => ?_).frame hholds).conseq
      (fun log h => ⟨⟨h.1, h.2.1⟩, h.2.2⟩) fun session log h => ?_
    · obtain ⟨⟨accountId, accountUserId, hstepUp⟩, hsigned⟩ := hsigned
      refine ⟨fun _ _ => ?_, fun _ hurl => absurd hurl ?_⟩
      · exact ⟨enrollment, start.deviceKeyChallenge.challengeToken, payload, signature, accountId,
          accountUserId, token, hsigned, hstepUp, rfl⟩
      · simp [RelayCall.request, refreshFinishPath]
    · obtain ⟨⟨before, request, response, hlog, hurl, hbody, -⟩, hheld⟩ := h
      exact ⟨⟨before, request, response, hlog, hurl, hbody, trivial⟩, hheld⟩
  refine Keeps.bind ((validateSession_justifies (J := fun _ => True) (Or.inl rfl)).frame hholds)
    fun _ => ?_
  refine Keeps.bind (R := fun _ log => Issued library enrollment session log ∧ Holds enrollment log)
    ?_ fun _ => Keeps.ret fun _ h => ⟨h.2, h.1⟩
  exact Keeps.bind (Keeps.read (R := fun _ log => Issued library enrollment session log ∧
    Holds enrollment log) fun _ h => h) fun steps => onDevice_justifies _

/-- A controller is enrolled. -/
theorem enroll_justifies :
    Justifies library J (Controller.enroll library outside) fun enrolled log =>
      Holds enrolled.1.enrollment log ∧ Issued library enrolled.1.enrollment enrolled.2 log := by
  refine Keeps.bind startEnrollment_justifies fun started => ?_
  obtain ⟨auth, start⟩ := started
  refine Keeps.bind createKey_justifies fun identity => ?_
  refine Keeps.bind (Keeps.attempt (stable_const True) enrollKey_justifies fun _ _ => trivial)
    fun result => ?_
  cases result with
  | ok enrolled => exact Keeps.ret fun _ h => h
  | error error =>
    refine Keeps.bind (R := fun _ _ => True) ?_ fun _ => Keeps.fail
    refine (Keeps.attempt (stable_const True) (R := fun _ _ => True) ?_ fun _ _ => trivial).conseq
      (fun _ h => h) fun _ _ _ => trivial
    exact Keeps.bind (Keeps.read (R := fun _ _ => True) fun _ _ => trivial) fun steps =>
      onDevice_justifies _

/-- There is a session for the enrollment of the process. -/
theorem ensureSession_justifies :
    Justifies library J (Controller.ensureSession library outside) fun ensured log =>
      Holds ensured.1.enrollment log ∧ Issued library ensured.1.enrollment ensured.2 log := by
  refine Keeps.bind (Keeps.read (R := fun _ => J) fun _ h => h) fun enrolled => ?_
  split_ifs
  · refine Keeps.bind loadState_justifies fun state => ?_
    have hmem : ∀ log, (∃ before, log = before ++ [Act.loadState state] ∧ J before) →
        .loadState ⟨state.enrollment⟩ ∈ log := by
      rintro _ ⟨before, rfl, -⟩
      exact List.mem_append_right _ (List.mem_singleton.mpr rfl)
    refine Keeps.bind ((refreshSession_justifies.frame (stable_mem
      (Act.loadState ⟨state.enrollment⟩))).conseq (fun log h => ⟨hmem log h, hmem log h⟩)
        fun _ _ h => h) fun session => ?_
    exact Keeps.ret fun log h => ⟨Or.inl h.2, h.1⟩
  · exact enroll_justifies

end Sessions

/-! ### Connections -/

section Connections

variable {library : ControllerLibrary} {outside : ControllerOutside} {J : List Act → Prop}

/-- The websocket is opened. -/
theorem openWebsocket_justifies {upgrade : Upgrade}
    (hopens : ∀ log, J log → Opens library upgrade log) :
    Justifies library J (Controller.openWebsocket outside upgrade)
      fun _ log => ∃ before, log = before ++ [.upgrade upgrade .opened] ∧ J before := by
  have hheader : ∀ {p : Prop} [Decidable p] {e : ControllerError},
      Justifies library J (Effect.failWhen p e) fun _ => J :=
    Keeps.failWhen.conseq (fun _ h => h) fun _ _ h => h.1
  refine Keeps.bind hheader fun _ => Keeps.bind hheader fun _ => Keeps.bind hheader fun _ =>
    Keeps.bind hheader fun _ => ?_
  refine Keeps.bind (consult_justifies fun _ => hopens) fun opening => ?_
  refine Keeps.bind Keeps.failWhen fun _ => Keeps.failWhen.conseq (fun _ h => h) fun _ log h => ?_
  obtain ⟨⟨⟨before, rfl, hbefore⟩, htimedOut⟩, hfailed⟩ := h
  cases opening with
  | opened => exact ⟨before, rfl, hbefore⟩
  | timedOut => exact absurd rfl htimedOut
  | failed => exact absurd rfl hfailed

/-- A connection is made: the last act is the proof that was sent. -/
theorem connect_justifies {auth : CodexAuth} {enrollment : EnrollmentRecord}
    {session : RemoteControlSession} {environmentId : String} (hJ : Stable J) :
    Justifies library
      (fun log => ((.loadAuth (.ok auth) ∈ log ∨ .refreshAuth (.ok auth) ∈ log) ∧
        Holds enrollment log ∧ Issued library enrollment session log) ∧ J log)
      (Controller.connect library outside auth enrollment session environmentId)
      fun transport log =>
        (∃ streamId, transport = .connect enrollment.clientId environmentId streamId) ∧
          ∃ before signature payload,
            log = before ++ [.send (proofMessage enrollment signature payload) true] ∧
              J before := by
  refine Keeps.bind (openWebsocket_justifies fun log h =>
    ⟨auth, enrollment, session, rfl, h.1.1, h.1.2.1, h.1.2.2⟩) fun _ => ?_
  refine Keeps.bind (consult_justifies fun _ _ _ => trivial) fun arrival => ?_
  refine Keeps.bind (R := fun frame log => ∃ before, log = before ++ [
    .upgrade (Controller.upgradeOf auth enrollment session) .opened, .receive (.frame frame)] ∧
      (Holds enrollment before ∧ Issued library enrollment session before) ∧ J before)
    (Keeps.lift fun frame hframe log h => ?_) fun frame => ?_
  · obtain ⟨_, rfl, before, rfl, ⟨-, hheld⟩, hbefore⟩ := h
    cases arrival with
    | frame f =>
      obtain rfl := Except.ok.inj hframe
      exact ⟨before, List.append_assoc _ _ _, hheld, hbefore⟩
    | _ => contradiction
  refine Keeps.bind (Keeps.lift (R := fun challenge log =>
    Controller.readChallenge library frame = .ok challenge ∧ ∃ before, log = before ++ [
      .upgrade (Controller.upgradeOf auth enrollment session) .opened, .receive (.frame frame)] ∧
        (Holds enrollment before ∧ Issued library enrollment session before) ∧ J before)
    fun challenge hchallenge log h => ⟨hchallenge, h⟩) fun challenge => ?_
  refine Keeps.bind clock_justifies fun now => ?_
  refine Keeps.bind (R := fun payload log =>
    Signs library log .connection enrollment payload ∧ J log)
    (Keeps.lift fun payload hpayload log h => ?_) fun payload => ?_
  · obtain ⟨_, rfl, hchallenge, before, rfl, ⟨hheld, hissued⟩, hbefore⟩ := h
    obtain ⟨hbound, hmatches, rfl⟩ :=
      validateAndBuildConnectionSigningPayload_eq_ok_iff.mp (mapError_eq_ok_iff.mp hpayload)
    refine ⟨.connection (List.append_assoc _ _ _) hchallenge hheld hissued hbound hmatches, ?_⟩
    rw [List.append_assoc]
    exact hJ _ _ hbefore
  refine Keeps.bind ((sign_justifies fun _ h => h).frame hJ) fun signature => ?_
  refine Keeps.bind (consult_justifies fun sent log h => ?_) fun sent => ?_
  · obtain ⟨⟨before, rfl, hsigns⟩, -⟩ := h
    exact ⟨before, enrollment, payload, signature, rfl, hsigns, rfl⟩
  refine Keeps.bind (R := fun _ log => ∃ before,
    log = before ++ [.send (proofMessage enrollment signature payload) true] ∧ J before)
    (Keeps.failWhen.conseq (fun _ h => h) fun _ log h => ?_) fun _ => ?_
  · obtain ⟨⟨before, hlog, -, hbefore⟩, hsent⟩ := h
    rw [Bool.not_eq_false] at hsent
    rw [hsent] at hlog
    exact ⟨before, hlog, hbefore⟩
  refine Keeps.bind (Keeps.read (R := fun _ log => ∃ before,
    log = before ++ [.send (proofMessage enrollment signature payload) true] ∧ J before)
    fun _ h => h) fun streamId => Keeps.ret fun log h => ?_
  obtain ⟨before, hlog, hbefore⟩ := h
  exact ⟨⟨streamId, rfl⟩, before, signature, payload, hlog, hbefore⟩

end Connections

end Rcodex
