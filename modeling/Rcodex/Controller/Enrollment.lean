import Rcodex.Controller.Policy
import Rcodex.Controller.Session
import Rcodex.Foundation.Agree

/-!
# Two descriptions of an enrollment

`Controller.enroll` asks the relay, the user and the Keychain one after the other, and each may take
everything that was done before into account.  `Rcodex.enroll` is given all answers in advance.
`enrollOutside` collects the answers that a run of the first one gets; with them the second one does
the same to the device and returns the same (`enroll_agrees`).  So what is known of the second one,
such as that a failed enrollment leaves no key behind, is true of the first one.
-/

namespace Rcodex

open Json Result

/-- A private key of this call is in the Keychain. -/
def Device.LeavesKey (device : Device) : Prop :=
  ∃ item ∈ device.created, item.keyClass = .privateKey

/-! ### What leaves the device as it is -/

/-- The computation leaves the Keychain and the state file as they are. -/
def IsQuiet {α : Type} (m : Control α) : Prop :=
  ∀ controller, (m controller).2.device = controller.device

namespace IsQuiet

variable {α β : Type} {m : Control α} {f : α → Control β}

/-- A sequence. -/
theorem bind (hm : IsQuiet m) (hf : ∀ a, IsQuiet (f a)) : IsQuiet (m >>= f) := by
  intro controller
  rw [Effect.bind_apply, Effect.andThen]
  have hfirst := hm controller
  rcases hrun : m controller with ⟨r, after⟩
  rw [hrun] at hfirst
  cases r with
  | ok a => exact (hf a after).trans hfirst
  | error e => exact hfirst

/-- A returned value. -/
theorem ret (a : α) : IsQuiet (pure a : Control α) := fun _ => rfl

/-- An outcome without a state. -/
theorem lift (r : Except ControllerError α) : IsQuiet (Effect.lift r) := fun _ => rfl

/-- An act of which the outside decides the outcome. -/
theorem consult (answer : List Act → α) (act : α → Act) : IsQuiet (consult answer act) :=
  fun _ => rfl

variable {library : ControllerLibrary} {outside : ControllerOutside}

/-- The authentication of the user. -/
theorem auth : IsQuiet (RelayApi.auth outside) := by
  refine bind (bind (consult _ _) fun _ => lift _) fun auth => bind (consult _ _) fun now => ?_
  split_ifs
  · exact bind (consult _ _) fun _ => lift _
  · exact ret _

/-- A request. -/
theorem requestJson {deserialize : Value → Option α} {method : Method} {path : String}
    {body : Option Value} :
    IsQuiet (RelayApi.requestJson library outside deserialize method path body) := by
  refine bind (fun controller => ?_) fun response => lift _
  have hsent : Effect.Triple (· = controller)
      (RelayApi.sendWithStatusPolicy outside method path body false)
      (fun _ after => after.device = controller.device)
      fun _ after => after.device = controller.device := by
    refine (@RelayCall.send_triple ⟨method, path, body, false⟩ outside controller).conseq
      (fun _ h => h) (fun response after h => ?_) fun error after h => ?_
    · obtain ⟨acts, -, hdevice, -⟩ := h
      exact hdevice
    · obtain ⟨acts, -, hdevice, -⟩ := h
      exact hdevice
  exact hsent.state rfl

/-- A signature. -/
theorem sign {keyId : String} {payload : List UInt8} :
    IsQuiet (signWithOsProtectedDeviceKey library outside keyId payload) := by
  refine bind (fun _ => rfl) fun steps => bind (fun controller => ?_) fun result =>
    bind (fun _ => rfl) fun _ => lift _
  have hsigned : Effect.Triple (· = controller.device) (signWithKey library.signing steps keyId
      payload) (fun _ device => device = controller.device)
      fun _ device => device = controller.device :=
    signWithKey_triple.conseq (fun _ h => h) (fun _ _ h => h.1) fun _ _ h => h
  exact hsigned.state rfl

/-- A session is refreshed. -/
theorem refreshSession {enrollment : EnrollmentRecord} :
    IsQuiet (Controller.refreshSession library outside enrollment) := by
  refine bind requestJson fun start => bind ?_ fun _ => bind (lift _) fun payload =>
    bind (fun controller => sign controller) fun signature => bind requestJson fun session =>
      bind (bind (consult _ _) fun _ => bind (lift _) fun _ => ret _) fun _ => ret _
  exact bind (lift _) fun _ => bind (lift _) fun _ => bind (consult _ _) fun _ => lift _

/-- The authorization of the user. -/
theorem requestStepUpToken {accountId accountUserId : String} :
    IsQuiet (Controller.requestStepUpToken outside accountId accountUserId) :=
  bind (consult _ _) fun _ => lift _

end IsQuiet

/-! ### The answers of a run -/

section Answers

variable (library : ControllerLibrary) (outside : ControllerOutside)

/-- The steps of the file system. -/
def EnrollStep.IsSaving : EnrollStep → Bool
  | .stateParent | .stateDirectory | .openTemporary | .writeTemporary | .finishTemporary
  | .flushTemporary | .protectTemporary | .installState | .removeTemporary => true
  | _ => false

/-- The steps of a signature. -/
def EnrollStep.IsSigning : EnrollStep → Bool
  | .search | .keyItem => true
  | _ => false

/-- The steps of a deletion of a key. -/
def EnrollStep.IsDeleting : EnrollStep → Bool
  | .deletePrivate | .deletePublic => true
  | _ => false

/-- The payload that is signed, if it can be built. -/
def signedPayload (start : EnrollmentStartResponse) (identity : DeviceKeyIdentity) : List UInt8 :=
  (buildEnrollmentSigningPayload library.signing (Controller.enrollmentOf start identity)
    start.deviceKeyChallenge enrollFinishPath false).toOption.getD []

/-- The signature. -/
def signatureRun (start : EnrollmentStartResponse) (identity : DeviceKeyIdentity)
    (controller : Controller) : Except ControllerError (List UInt8) × Controller :=
  signWithOsProtectedDeviceKey library outside identity.keyId
    (signedPayload library start identity) controller

/-- The authorization of the user. -/
def stepUpRun (auth : CodexAuth) (start : EnrollmentStartResponse) (identity : DeviceKeyIdentity)
    (controller : Controller) : Except ControllerError String × Controller :=
  Controller.requestStepUpToken outside auth.accountId auth.accountUserId
    (signatureRun library outside start identity controller).2

/-- The body of the request that ends the enrollment. -/
def finishBody (auth : CodexAuth) (start : EnrollmentStartResponse) (identity : DeviceKeyIdentity)
    (controller : Controller) : Value :=
  buildEnrollFinishBody (Controller.enrollmentOf start identity)
    ((stepUpRun library outside auth start identity controller).1.toOption.getD "")
    (deviceKeyProof start.deviceKeyChallenge.challengeToken identity.keyId
      (signedPayload library start identity)
      ((signatureRun library outside start identity controller).1.toOption.getD []))

/-- The end of the enrollment at the relay. -/
def finishRun (auth : CodexAuth) (start : EnrollmentStartResponse) (identity : DeviceKeyIdentity)
    (controller : Controller) (body : Value) :
    Except ControllerError RemoteControlSession × Controller :=
  RelayApi.enrollFinish library outside body
    (stepUpRun library outside auth start identity controller).2

/-- The time after that. -/
def finishedAt (auth : CodexAuth) (start : EnrollmentStartResponse) (identity : DeviceKeyIdentity)
    (controller : Controller) : Int64 :=
  outside.now (finishRun library outside auth start identity controller
    (finishBody library outside auth start identity controller)).2.log

/-- The steps of the file system as they are met. -/
def savingSteps (auth : CodexAuth) (start : EnrollmentStartResponse) (identity : DeviceKeyIdentity)
    (controller : Controller) : EnrollOutside :=
  outside.steps ((finishRun library outside auth start identity controller
    (finishBody library outside auth start identity controller)).2.did
      (.clock (finishedAt library outside auth start identity controller))).log

/-- The answers that the part of `enroll` before the creation of the key gets, and those to the
creation. -/
def startOutside (controller : Controller) : EnrollOutside :=
  { outside.steps (Controller.startEnrollment library outside controller).2.log with
    auth := (RelayApi.auth outside controller).1.toOption
    start := (RelayApi.enrollStart library outside
      (RelayApi.auth outside controller).2).1.toOption
    startedAt := outside.now
      (RelayApi.enrollStart library outside (RelayApi.auth outside controller).2).2.log }

/-- The relay starts an enrollment, the Keychain creates a pair, and the pair is not traceable. -/
def CreatesUntraced (controller : Controller) : Prop :=
  (startOutside library outside controller).Starts controller.device ∧
    (startOutside library outside controller).GrantsAccess ∧
    ¬(startOutside library outside controller).Traceable

/-- The answers that the rest of `enroll` gets, after `first`. -/
def keyOutside (first : EnrollOutside) (auth : CodexAuth) (start : EnrollmentStartResponse)
    (identity : DeviceKeyIdentity) (controller : Controller) : EnrollOutside :=
  { first with
    succeeds := fun step =>
      if step.IsSigning then (outside.steps controller.log).succeeds step
      else if step.IsSaving then
        (savingSteps library outside auth start identity controller).succeeds step
      else if step.IsDeleting then
        (outside.steps (Controller.enrollKey library outside auth start identity
          controller).2.log).succeeds step
      else first.succeeds step
    signature := (outside.steps controller.log).signature
    stepUp := (stepUpRun library outside auth start identity controller).1.toOption
    finish := fun body => (finishRun library outside auth start identity controller body).1.toOption
    finishedAt := finishedAt library outside auth start identity controller }

/-- The answers that `enroll` gets. -/
def enrollOutside (controller : Controller) : EnrollOutside :=
  match Controller.startEnrollment library outside controller with
  | (.error _, _) => startOutside library outside controller
  | (.ok (auth, start), started) =>
    match createOsProtectedDeviceKey library outside started with
    | (.error _, _) => startOutside library outside controller
    | (.ok identity, created) =>
      keyOutside library outside (startOutside library outside controller) auth start identity
        created

end Answers

/-! ### The two descriptions agree -/

section Agreement

open Effect

variable {library : ControllerLibrary} {outside : ControllerOutside}

/-- The device of the one description is that of the other. -/
abbrev OnDevice (controller : Controller) (device : Device) : Prop :=
  devicePart.get controller = device

/-- A signature. -/
theorem sign_agrees {keyId : String} {payload : List UInt8} (controller : Controller) :
    Agree OnDevice (signWithOsProtectedDeviceKey library outside keyId payload controller)
      (signWithKey library.signing (outside.steps controller.log) keyId payload
        controller.device) := by
  have hwithin := Agree.within (s := controller) devicePart (f := ControllerError.enroll)
    (signWithKey library.signing (outside.steps controller.log) keyId payload)
  exact ⟨hwithin.value, hwithin.state⟩

/-- The checks of a session at the present time, which is given in advance. -/
theorem validated_agrees {α : Type} {enrollment : EnrollmentRecord} {session : RemoteControlSession}
    {controller : Controller} {device : Device} {f : Unit → Control α} {g : Int64 → Enroll α}
    (hdevice : OnDevice controller device)
    (h : ∀ expiresAt after, after = controller.did (.clock (outside.now controller.log)) →
      OnDevice after device → Agree OnDevice (f () after) (g expiresAt device)) :
    Agree OnDevice
      ((Controller.validateSession library outside enrollment session >>= f) controller)
      ((Effect.lift ((validateRemoteSession library.signing enrollment session
        (outside.now controller.log)).mapError .signing) >>= g) device) := by
  have hvalidated : Controller.validateSession library outside enrollment session controller =
      (((validateRemoteSession library.signing enrollment session
        (outside.now controller.log)).mapError ControllerError.signing).map fun _ => (),
        controller.did (.clock (outside.now controller.log))) := by
    change Effect.andThen (Effect.lift _) _ _ = _
    cases validateRemoteSession library.signing enrollment session (outside.now controller.log) with
    | ok expiresAt => rfl
    | error error => rfl
  rw [bind_apply, bind_apply, Effect.andThen, hvalidated, Effect.andThen, Effect.lift]
  cases validateRemoteSession library.signing enrollment session (outside.now controller.log) with
  | ok expiresAt => exact h expiresAt _ rfl hdevice
  | error error => exact ⟨rfl, hdevice⟩

/-- The outcome of a computation that leaves the device as it is, given in advance. -/
theorem quiet_agrees {α : Type} {m : Control α} (hm : IsQuiet m) {controller : Controller}
    {device : Device} (hdevice : OnDevice controller device) {answer : Option α}
    (hanswer : answer = (m controller).1.toOption) (error : EnrollError) :
    Agree OnDevice (m controller) ((Effect.lift (context error answer) : Enroll α) device) := by
  refine Agree.lift ?_ ((hm controller).trans hdevice)
  rw [hanswer]
  cases (m controller).1.toOption with
  | some a => rfl
  | none => rfl

/-- The enrollment of a key, when the answers are those of the run. -/
theorem enrollKey_agrees {auth : CodexAuth} {start : EnrollmentStartResponse}
    {identity : DeviceKeyIdentity} {controller : Controller} {answers : EnrollOutside}
    (hsign : ∀ payload, signWithKey library.signing answers identity.keyId payload =
      signWithKey library.signing (outside.steps controller.log) identity.keyId payload)
    (hstepUp : answers.stepUp =
      (stepUpRun library outside auth start identity controller).1.toOption)
    (hfinish : ∀ body, answers.finish body =
      (finishRun library outside auth start identity controller body).1.toOption)
    (hfinishedAt : answers.finishedAt = finishedAt library outside auth start identity controller)
    (hsave : ∀ state, saveControllerState answers state =
      saveControllerState (savingSteps library outside auth start identity controller) state) :
    Agree OnDevice (Controller.enrollKey library outside auth start identity controller)
      (enrollKey library.signing answers start identity controller.device) := by
  refine Agree.bind (Agree.lift_mapError (R := OnDevice) rfl _ _ _)
    fun payload c₁ d₁ hlift hlift' _ => ?_
  obtain ⟨hpayload, hc⟩ := Prod.mk.inj hlift
  obtain ⟨-, hd⟩ := Prod.mk.inj hlift'
  have hsigned : signedPayload library start identity = payload := by
    rw [signedPayload, mapError_eq_ok_iff.mp hpayload]
    rfl
  rw [← hc, ← hd, hsign]
  refine Agree.bind (sign_agrees controller) fun signature c₂ d₂ hsignature _ hdevice => ?_
  have hsignatureRun : signatureRun library outside start identity controller =
      (.ok signature, c₂) := by
    rw [signatureRun, hsigned]
    exact hsignature
  refine Agree.bind (quiet_agrees IsQuiet.requestStepUpToken hdevice ?_ .stepUp)
    fun token c₃ d₃ htoken _ hdevice => ?_
  · rw [hstepUp, stepUpRun, hsignatureRun]
  have hstepUpRun : stepUpRun library outside auth start identity controller = (.ok token, c₃) := by
    rw [stepUpRun, hsignatureRun]
    exact htoken
  refine Agree.bind (quiet_agrees IsQuiet.requestJson hdevice ?_ .finish)
    fun session c₄ d₄ hsession _ hdevice => ?_
  · rw [hfinish, finishRun, hstepUpRun]
    rfl
  have hbody : finishBody library outside auth start identity controller =
      buildEnrollFinishBody (Controller.enrollmentOf start identity) token
        (deviceKeyProof start.deviceKeyChallenge.challengeToken identity.keyId payload
          signature) := by
    rw [finishBody, hstepUpRun, hsignatureRun, hsigned]
    rfl
  have hfinishRun : finishRun library outside auth start identity controller
      (finishBody library outside auth start identity controller) = (.ok session, c₄) := by
    rw [hbody, finishRun, hstepUpRun]
    exact hsession
  have hnow : finishedAt library outside auth start identity controller = outside.now c₄.log := by
    rw [finishedAt, hfinishRun]
  have hsaving : savingSteps library outside auth start identity controller =
      outside.steps (c₄.did (.clock (outside.now c₄.log))).log := by
    rw [savingSteps, hfinishRun, hnow]
  rw [hfinishedAt, hnow]
  refine validated_agrees hdevice fun expiresAt c₅ hc₅ hdevice => ?_
  obtain rfl := hc₅
  refine Agree.bind ?_ fun saved c₆ d₆ _ _ hdevice => Agree.ret hdevice _
  have hwithin := Agree.within (s := c₄.did (.clock (outside.now c₄.log))) devicePart
    (f := ControllerError.enroll) (saveControllerState (savingSteps library outside auth start
      identity controller) ⟨Controller.enrollmentOf start identity⟩)
  rw [hsave, ← hdevice]
  rw [hsaving] at hwithin ⊢
  exact hwithin

/-- The part of `enroll` before the creation of the key. -/
theorem startEnrollment_agrees {controller : Controller} {answers : EnrollOutside}
    (hauth : answers.auth = (startOutside library outside controller).auth)
    (hstart : answers.start = (startOutside library outside controller).start)
    (hstartedAt : answers.startedAt = (startOutside library outside controller).startedAt) :
    Agree OnDevice (Effect.map Prod.snd (Controller.startEnrollment library outside) controller)
      (startEnrollment answers controller.device) := by
  rw [Controller.startEnrollment, map_bind]
  refine Agree.bind (s := controller) (R := OnDevice) ⟨rfl, rfl⟩
    fun enrolled c₁ d₁ hread _ hdevice => ?_
  obtain ⟨-, rfl⟩ := Prod.mk.inj hread
  rw [map_bind]
  refine Agree.bind (Agree.failWhen hdevice Iff.rfl _ _) fun _ c₂ d₂ hcheck _ hdevice => ?_
  obtain ⟨-, rfl⟩ := Prod.mk.inj hcheck
  rw [map_bind]
  refine Agree.bind (quiet_agrees IsQuiet.auth hdevice hauth .auth)
    fun auth c₃ d₃ hrun _ hdevice => ?_
  rw [map_bind]
  refine Agree.bind (quiet_agrees IsQuiet.requestJson hdevice ?_ .start)
    fun start c₄ d₄ hrun' _ hdevice => ?_
  · rw [hstart, startOutside, hrun]
    rfl
  rw [map_bind]
  refine Agree.bind (Agree.failWhen hdevice Iff.rfl _ _) fun _ c₅ d₅ hcheck _ hdevice => ?_
  obtain ⟨-, rfl⟩ := Prod.mk.inj hcheck
  have hnow : answers.startedAt = outside.now c₄.log := by
    rw [hstartedAt, startOutside, hrun, hrun']
  rw [map_bind, hnow]
  -- the clock is read here
  change Agree OnDevice (Effect.map Prod.snd _ (c₄.did (.clock (outside.now c₄.log)))) _
  have hclock : OnDevice (c₄.did (.clock (outside.now c₄.log))) d₅ := hdevice
  rw [map_bind]
  exact Agree.bind (Agree.failWhen hclock Iff.rfl _ _) fun _ _ _ _ _ hdevice =>
    Agree.ret hdevice start

/-- The creation of a key. -/
theorem create_agrees (controller : Controller) :
    Agree OnDevice (createOsProtectedDeviceKey library outside controller)
      (createKey library.signing (outside.steps controller.log) controller.device) := by
  rw [← bind_pure (createKey library.signing (outside.steps controller.log))]
  exact Agree.bind (s := controller) (R := OnDevice) (Agree.within devicePart _)
    fun identity c₁ d₁ _ _ hdevice => ⟨rfl, hdevice⟩

/-- The deletion of a key. -/
theorem delete_agrees {keyId : String} (controller : Controller) :
    Agree OnDevice (deleteOsProtectedDeviceKey library outside keyId controller)
      (deleteKey library.signing (outside.steps controller.log) keyId controller.device) :=
  Agree.within devicePart _

/-- The answers before the key is created and those to its creation. -/
theorem enrollOutside_first (controller : Controller) :
    (enrollOutside library outside controller).auth =
        (startOutside library outside controller).auth ∧
      (enrollOutside library outside controller).start =
        (startOutside library outside controller).start ∧
      (enrollOutside library outside controller).startedAt =
        (startOutside library outside controller).startedAt ∧
      createKey library.signing (enrollOutside library outside controller) =
        createKey library.signing
          (outside.steps (Controller.startEnrollment library outside controller).2.log) := by
  unfold enrollOutside
  split
  · exact ⟨rfl, rfl, rfl, rfl⟩
  · split
    · exact ⟨rfl, rfl, rfl, rfl⟩
    · exact ⟨rfl, rfl, rfl, rfl⟩

/-- An enrollment does to the device what it would do if it were given the answers in advance. -/
theorem enroll_agrees (controller : Controller) :
    Agree OnDevice (Controller.enroll library outside controller)
      (enroll library.signing (enrollOutside library outside controller) controller.device) := by
  obtain ⟨hauth, hstart, hstartedAt, hcreate⟩ :=
    @enrollOutside_first library outside controller
  refine Agree.bind_map (startEnrollment_agrees hauth hstart hstartedAt)
    fun started c₁ d₁ hstarted _ hdevice => ?_
  obtain ⟨auth, start⟩ := started
  rw [hcreate, hstarted, ← hdevice]
  refine Agree.bind (create_agrees c₁) fun identity c₂ d₂ hcreated _ hdevice => ?_
  have hanswers : enrollOutside library outside controller = keyOutside library outside
      (startOutside library outside controller) auth start identity c₂ := by
    simp only [enrollOutside, hstarted, hcreated]
  rw [hanswers, ← hdevice]
  refine Agree.attempt (enrollKey_agrees (fun _ => rfl) rfl (fun _ => rfl) rfl fun _ => rfl)
    (fun enrolled c₃ d₃ _ hdevice => Agree.ret hdevice enrolled)
    fun error error' c₃ d₃ hfailed hdevice => ?_
  have hdelete : deleteKey library.signing (keyOutside library outside
      (startOutside library outside controller) auth start identity c₂) identity.keyId =
      deleteKey library.signing (outside.steps (Controller.enrollKey library outside auth start
        identity c₂).2.log) identity.keyId := rfl
  rw [hdelete, hfailed, ← hdevice]
  exact Agree.attempt (delete_agrees c₃) (fun _ _ _ _ hdevice => Agree.fail hdevice _ _)
    fun _ _ _ _ _ hdevice => Agree.fail hdevice _ _

/-- The answers to the creation of the key are the ones that decide whether it is traceable. -/
theorem enrollOutside_traceable (controller : Controller) (device : Device) :
    ((enrollOutside library outside controller).Traceable ↔
        (startOutside library outside controller).Traceable) ∧
      ((enrollOutside library outside controller).Starts device ↔
        (startOutside library outside controller).Starts device) ∧
      ((enrollOutside library outside controller).GrantsAccess ↔
        (startOutside library outside controller).GrantsAccess) := by
  unfold enrollOutside
  split
  · exact ⟨Iff.rfl, Iff.rfl, Iff.rfl⟩
  · split
    · exact ⟨Iff.rfl, Iff.rfl, Iff.rfl⟩
    · exact ⟨Iff.rfl, Iff.rfl, Iff.rfl⟩

/-- A computation that leaves the device as it is. -/
theorem IsQuiet.triple {α : Type} {m : Control α} (hm : IsQuiet m) {device : Device} :
    Triple (·.device = device) m (fun _ after => after.device = device)
      fun _ after => after.device = device := by
  refine Triple.of_ends fun controller hdevice => ?_
  have hafter := (hm controller).trans hdevice
  rcases hrun : m controller with ⟨r, after⟩
  rw [hrun] at hafter
  cases r with
  | ok a => exact Or.inl ⟨a, after, rfl, hafter⟩
  | error error => exact Or.inr ⟨error, after, rfl, hafter⟩

/-- The state file is read. -/
theorem loadState_triple {device : Device} :
    Triple (·.device = device) (loadState outside)
      (fun state after => device.stateFile = some state ∧ after.device = device)
      fun _ after => after.device = device := by
  refine Triple.bind (Triple.read (Q := fun _ after => after.device = device) fun _ h => h)
    fun loaded => Triple.bind (Triple.lift_keeps fun _ _ h => h) fun _ => ?_
  refine Triple.bind (Triple.read (Q := fun stateFile after =>
    device.stateFile = stateFile ∧ after.device = device) fun _ h => ⟨by rw [h], h⟩)
    fun stateFile => Triple.of_fact fun hstateFile => ?_
  refine Triple.bind (Triple.lift (Q := fun state after =>
    stateFile = some state ∧ after.device = device) (fun state hstate _ h =>
      ⟨context_eq_ok_iff.mp hstate, h⟩) fun _ _ _ h => h)
      fun state => Triple.of_fact fun hstate => ?_
  exact Triple.bind (Triple.change (R := fun _ after => after.device = device) fun _ h => h)
    fun _ => Triple.ret fun _ h => ⟨hstateFile.trans hstate, h⟩

/-- On a device that is enrolled, `ensure_session` changes nothing and returns the state of the
file. -/
theorem ensureSession_enrolled {device : Device} (henrolled : device.stateFile.isSome = true) :
    Triple (·.device = device) (Controller.ensureSession library outside)
      (fun enrolled after => device.stateFile = some enrolled.1 ∧ after.device = device)
      fun _ after => after.device = device := by
  refine Triple.bind (Q := fun enrolled after => enrolled = true ∧ after.device = device)
    (Triple.read fun _ h => ⟨by rw [h, henrolled], h⟩)
    fun enrolled => Triple.of_fact fun htrue => ?_
  rw [if_pos htrue]
  refine Triple.bind loadState_triple fun state => Triple.of_fact fun hstate => ?_
  exact Triple.bind IsQuiet.refreshSession.triple fun session => Triple.ret fun _ h => ⟨hstate, h⟩

/-- `ensure_session` returns the state that is in the file, which was there before or names a key
that was created; it never does so with a pair that is not traceable.  When it fails, the file is as
it was; such a pair leaves its private key behind, and otherwise one is left only if a deletion has
failed. -/
theorem ensureSession_ends (hdecode : ∀ bytes, library.signing.decode (library.signing.encode
    bytes) = some bytes) (log : List Act) (keychain : List KeyItem)
    (stateFile : Option ControllerState) :
    Triple (· = ⟨.start keychain stateFile, log⟩) (Controller.ensureSession library outside)
      (fun enrolled after => after.device.stateFile = some enrolled.1 ∧
        (stateFile = some enrolled.1 ∧ after.device = .start keychain stateFile ∨
          stateFile = none ∧ after.device.Names library.signing enrolled.1) ∧
        ¬CreatesUntraced library outside ⟨.start keychain stateFile, log⟩)
      fun _ after => after.device.stateFile = stateFile ∧
        (CreatesUntraced library outside ⟨.start keychain stateFile, log⟩ →
          after.device.LeavesKey) ∧
        (after.device.LeavesKey →
          CreatesUntraced library outside ⟨.start keychain stateFile, log⟩ ∨
            after.device.deletionFailed = true) := by
  cases stateFile with
  | some state =>
    refine (@ensureSession_enrolled library outside (.start keychain (some state)) rfl).conseq
      (fun _ h => by rw [h]) (fun enrolled after h => ?_) fun _ after h => ?_
    · exact ⟨by rw [h.2, h.1], Or.inl ⟨h.1, h.2⟩, fun huntraced =>
        absurd huntraced.1.1 (Option.some_ne_none _)⟩
    · refine ⟨by rw [h]; rfl, fun huntraced => ?_, fun hleft => ?_⟩
      · exact absurd huntraced.1.1 (Option.some_ne_none _)
      · rw [h] at hleft
        obtain ⟨item, hitem, -⟩ := hleft
        exact absurd hitem List.not_mem_nil
  | none =>
    refine Triple.of_ends fun controller hcontroller => ?_
    subst hcontroller
    obtain ⟨htraceable, hstarts, haccess⟩ := @enrollOutside_traceable library outside
      ⟨.start keychain none, log⟩ (.start keychain none)
    have hagrees := @enroll_agrees library outside ⟨.start keychain none, log⟩
    have hnew : Controller.ensureSession library outside ⟨.start keychain none, log⟩ =
      Controller.enroll library outside ⟨.start keychain none, log⟩ := rfl
    have hgiven := @enroll_triple library.signing
      (enrollOutside library outside ⟨.start keychain none, log⟩) (.start keychain none) hdecode rfl
        rfl
    rw [hnew]
    obtain ⟨enrolled, device, hrun, hends⟩ | ⟨error, device, hrun, hends⟩ := hgiven.ends rfl
    · obtain ⟨after, henroll, hafter⟩ := hagrees.of_ok hrun
      rw [← hafter] at hends
      exact Or.inl ⟨enrolled, after, henroll, hends.2.1, Or.inr ⟨rfl, hends.2.2⟩,
        fun huntraced => huntraced.2.2 (htraceable.mp hends.1)⟩
    · obtain ⟨error, after, henroll, hafter⟩ := hagrees.of_error hrun
      rw [← hafter] at hends
      obtain ⟨hstateFile, horphaned⟩ := hends
      rw [htraceable, hstarts, haccess] at horphaned
      refine Or.inr ⟨error, after, henroll, hstateFile, fun huntraced => ?_, fun hleft => ?_⟩
      · exact (horphaned.mpr ⟨⟨huntraced.1, huntraced.2.1⟩, huntraced.2.2⟩).2
      · cases hdeletion : after.device.deletionFailed with
        | true => exact Or.inr rfl
        | false =>
          obtain ⟨⟨hstarts, haccess⟩, htraceable⟩ := horphaned.mp ⟨hdeletion, hleft⟩
          exact Or.inl ⟨hstarts, haccess, htraceable⟩

end Agreement

/-- The response to the start of an enrollment. -/
def startDocument : Value := .ofMembers
  [("account_user_id", .string "account-user"), ("client_id", .string "client-id"),
    ("device_key_challenge", .ofMembers
      [("account_user_id", .string "account-user"),
        ("audience", .string "remote_control_client_enrollment"),
        ("challenge_expires_at", .ofU64 2000000000), ("challenge_id", .string "challenge-id"),
        ("challenge_token", .string "challenge-token"), ("client_id", .string "client-id"),
        ("nonce", .string ""), ("purpose", .string "remote_control_client_enrollment"),
        ("target_origin", .string "https://chatgpt.com"),
        ("target_path", .string "/backend-api/codex/remote/control/client/enroll/finish")])]

/-- Libraries for the keys and for this document. -/
def startingLibrary : ControllerLibrary where
  signing := keyLibrary
  urls := ⟨fun _ => false, fun path _ => path, fun _ => "", some⟩
  fromSlice := fun _ => some startDocument

/-- A user who is signed in. -/
def signedIn : CodexAuth where
  accessToken := "token"
  accountId := "account"
  accountUserId := "account-user"
  authUserId := none
  expiresAt := 2000000000
  refreshToken := "refresh"

/-- This user, a relay that starts the enrollment, and a Keychain that creates a pair but cannot
export its public key. -/
def unexportedOutside : ControllerOutside where
  loadAuth := fun _ => .ok signedIn
  refreshAuth := fun _ => .error "refresh Codex authentication"
  now := fun _ => 1900000000
  respond := fun _ _ => some ⟨200, none, some []⟩
  steps := fun _ => refusedOutside none
  stepUp := fun _ => .error "enrollment authorization timed out after five minutes"
  loadsState := fun _ => .ok ()
  removesState := fun _ => true
  opening := fun _ _ => .failed
  arrival := fun _ => .closed
  sends := fun _ => false
  uuid := fun _ => ""
  updates := fun _ => false
  locks := fun _ => true
  codexVersion := fun _ => none
  codexHelp := fun _ => none

/-- The authentication is good for some time. -/
theorem auth_unexported (controller : Controller) :
    RelayApi.auth unexportedOutside controller =
      (.ok signedIn, (controller.did (.loadAuth (.ok signedIn))).did (.clock 1900000000)) := by
  have hload : loadAuth unexportedOutside controller =
      (.ok signedIn, controller.did (.loadAuth (.ok signedIn))) := rfl
  have hclock : ∀ controller, clock unexportedOutside controller =
      (.ok 1900000000, controller.did (.clock 1900000000)) := fun _ => rfl
  have hfresh : ¬signedIn.NeedsRefresh 1900000000 := by decide +kernel
  rw [RelayApi.auth, Effect.bind_apply, Effect.andThen, hload]
  dsimp only
  rw [Effect.bind_apply, Effect.andThen, hclock]
  dsimp only
  rw [if_neg hfresh]
  rfl

/-- The relay answers at once. -/
theorem send_unexported (path : String) (body : Option Value) (controller : Controller) :
    ∃ after, RelayApi.send unexportedOutside .post path body controller =
      (.ok ⟨200, none, some []⟩, after) := by
  have honce : ∀ controller, ∃ after, RelayApi.sendOnce unexportedOutside .post path body signedIn
      controller = (.ok ⟨200, none, some []⟩, after) := fun _ => ⟨_, rfl⟩
  rw [RelayApi.send, RelayApi.sendWithStatusPolicy, Effect.bind_apply, Effect.andThen,
    auth_unexported]
  dsimp only
  obtain ⟨after, hrun⟩ := honce
    ((controller.did (.loadAuth (.ok signedIn))).did (.clock 1900000000))
  rw [RelayApi.sendLoop, Effect.bind_apply, Effect.andThen, hrun]
  exact ⟨after, rfl⟩

/-- It starts the enrollment. -/
theorem enrollStart_unexported (controller : Controller) :
    (RelayApi.enrollStart startingLibrary unexportedOutside controller).1.toOption =
      (refusedOutside none).start := by
  obtain ⟨after, hsent⟩ := send_unexported "/codex/remote/control/client/enroll/start"
    (some (.object [])) controller
  have hread : RelayApi.readBody startingLibrary EnrollmentStartResponse.deserialize
      ⟨200, none, some []⟩ = (refusedOutside none).start := rfl
  rw [RelayApi.enrollStart, RelayApi.requestJson, Effect.bind_apply, Effect.andThen, hsent]
  dsimp only
  rw [hread]
  rfl

/-- The pair is created and not traceable. -/
theorem createsUntraced_unexported :
    CreatesUntraced startingLibrary unexportedOutside ⟨.start [] none, []⟩ := by
  have hauth : (startOutside startingLibrary unexportedOutside ⟨.start [] none, []⟩).auth =
      some signedIn := by
    rw [startOutside, auth_unexported]
    rfl
  have hstart : (startOutside startingLibrary unexportedOutside ⟨.start [] none, []⟩).start =
      (refusedOutside none).start := by
    rw [startOutside]
    dsimp only
    rw [enrollStart_unexported]
  have hstarts : ∀ start ∈ (refusedOutside none).start,
      (signedIn.MatchesRelayAccountUserId start.accountUserId ∧
        start.deviceKeyChallenge.accountUserId = start.accountUserId ∧
        start.deviceKeyChallenge.clientId = start.clientId) ∧
      (1900000000 : Int64) < start.deviceKeyChallenge.challengeExpiresAt := by
    decide +kernel
  obtain ⟨start, hresponse⟩ : ∃ start, (refusedOutside none).start = some start := ⟨_, rfl⟩
  refine ⟨⟨rfl, signedIn, start, hauth, hstart.trans hresponse, hstarts start hresponse⟩, ?_,
    fun htraceable => ?_⟩
  · exact ⟨rfl, rfl, rfl⟩
  · obtain ⟨-, -, hexported⟩ := htraceable zeroLabel rfl
    obtain ⟨-, ⟨point, hpoint, -⟩, -⟩ := hexported rfl
    contradiction

/-- The enrollment fails, and the private key is left. -/
theorem ensureSession_ends_unexported :
    (∃ error, (Controller.ensureSession startingLibrary unexportedOutside
      ⟨.start [] none, []⟩).1 = .error error) ∧
    (Controller.ensureSession startingLibrary unexportedOutside
      ⟨.start [] none, []⟩).2.device.LeavesKey := by
  obtain ⟨enrolled, after, hrun, -, -, htraced⟩ | ⟨error, after, hrun, -, hleft, -⟩ :=
    (@ensureSession_ends startingLibrary unexportedOutside decode_encode_keyLibrary [] []
      none).ends rfl
  · exact absurd createsUntraced_unexported htraced
  · rw [hrun]
    exact ⟨⟨error, rfl⟩, hleft createsUntraced_unexported⟩

end Rcodex
