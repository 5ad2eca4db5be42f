import Rcodex.Controller.Hosts

/-!
# Runs of the controller

A run is a sequence of commands, one after the other; between two of them other processes may change
the device as they like.  The log of a run has the acts of all its commands.  `audited_run` says
that each of them is justified by those before it.
-/

namespace Rcodex

open Json Result Audit

/-- A command, or an operation that the broker was asked for. -/
inductive Command where
  | devices
  | enroll
  | pair (code : String)
  | session
  | unenroll
  | probe (device : String)
  | revokeClient (clientId : String)
  | remoteTui (device : Option String)
  | checkUpdate (device : Option String)
  | brokerPair (pairingCode : String)
  | brokerListHosts
  | brokerOpen (environmentId : String)

namespace Controller

section Commands

variable (library : ControllerLibrary) (outside : ControllerOutside)

/-- `Command::Devices` -/
def devices : Control (List RemoteEnvironment) := do
  let enrolled ← Effect.read fun controller => controller.device.stateFile.isSome
  if enrolled then
    let state ← loadState outside
    RelayApi.listEnvironments library outside (some state.enrollment.clientId)
  else
    RelayApi.listEnvironments library outside none

/-- `Command::Pair` -/
def pair (code : String) : Control ControllerState := do
  let state ← Effect.mapError
    (fun _ => .loadState "rcodex is not enrolled; run `rcodex enroll` first") (loadState outside)
  RelayApi.pairClient outside state.enrollment.clientId code
  return state

/-- `delete_controller_state` -/
def deleteControllerState : Control Unit := do
  let removes ← Effect.read fun controller => outside.removesState controller.log
  Effect.failWhen (removes = false) .removeState
  Effect.change fun controller =>
    { controller with device := { controller.device with stateFile := none } }

/-- `Command::Unenroll` -/
def unenroll : Control Unit := do
  let state ← Effect.mapError
    (fun _ => .loadState "rcodex is not enrolled; no controller state was found")
    (loadState outside)
  RelayApi.revokeClient library outside state.enrollment.clientId
  Effect.mapError (fun _ => ControllerError.deleteKey)
    (deleteOsProtectedDeviceKey library outside state.enrollment.keyId)
  deleteControllerState outside

/-- The environments of the client of an enrollment, for which there is a session. -/
def sessionEnvironments : Control (ControllerState × List RemoteEnvironment) := do
  let (state, _) ← ensureSession library outside
  let environments ← RelayApi.listEnvironments library outside (some state.enrollment.clientId)
  return (state, environments)

/-- `UpdateAction::Check` and `UpdateAction::Install`, up to the search for an update: the version
of the local Codex and that of the host. -/
def checkUpdate (device : Option String) : Control (String × String) := do
  let localVersion ← inspectStockCodex outside
  let (_, environments) ← sessionEnvironments library outside
  let remote ← Effect.lift (selectEnvironment environments device)
  let remoteVersion ← Effect.lift (context .versionUnknown remote.appServerVersion)
  return (localVersion, remoteVersion)

/-- The remote part of `pair_and_list_hosts` -/
def pairAndList (pairingCode : String) : Control (List RemoteEnvironment) := do
  let (state, _) ← ensureSession library outside
  RelayApi.pairClient outside state.enrollment.clientId pairingCode
  RelayApi.listEnvironments library outside (some state.enrollment.clientId)

/-- What a command does; what it prints is left out. -/
def execute : Command → Control Unit
  | .devices => do
    let _ ← devices library outside
    return ()
  | .enroll => do
    let _ ← enroll library outside
    return ()
  | .pair code => do
    let _ ← pair outside code
    return ()
  | .session => do
    let _ ← ensureSession library outside
    return ()
  | .unenroll => unenroll library outside
  | .probe device => do
    let _ ← probe library outside device
    return ()
  | .revokeClient clientId => RelayApi.revokeClient library outside clientId
  | .remoteTui device => do
    let _ ← runRemoteTui library outside device
    return ()
  | .checkUpdate device => do
    let _ ← checkUpdate library outside device
    return ()
  | .brokerPair pairingCode => do
    let _ ← pairAndList library outside pairingCode
    return ()
  | .brokerListHosts => do
    let _ ← sessionEnvironments library outside
    return ()
  | .brokerOpen environmentId => do
    let _ ← openRemoteAppServer library outside environmentId
    return ()

end Commands

/-- A command with what it meets. -/
structure Invocation where
  /-- What other processes have done to the device since the last command. -/
  meanwhile : Device → Device
  /-- The outcomes of the acts. -/
  outside : ControllerOutside
  /-- The command. -/
  command : Command

/-- The controller after a command, whether it has failed or not. -/
def invoke (library : ControllerLibrary) (controller : Controller) (invocation : Invocation) :
    Controller :=
  (execute library invocation.outside invocation.command
    { controller with device := invocation.meanwhile controller.device }).2

/-- The log of a run of commands. -/
def runLog (library : ControllerLibrary) (device : Device) (invocations : List Invocation) :
    List Act :=
  (invocations.foldl (invoke library) ⟨device, []⟩).log

end Controller

/-! ### The commands -/

section Commands

variable {library : ControllerLibrary} {outside : ControllerOutside} {J : List Act → Prop}

/-- Whatever is known after a computation, and whatever must be known of the log before it. -/
theorem weaken_justifies {α : Type} {m : Control α} {R : α → List Act → Prop}
    (h : Justifies library ([] <+: ·) m R) : Justifies library J m fun _ _ => True :=
  h.conseq (fun _ _ => List.nil_prefix) fun _ _ _ => trivial

/-- What a command returns does not matter. -/
theorem discard_justifies {α : Type} {m : Control α} (h : Justifies library J m fun _ _ => True) :
    Justifies library J
      (do
        let _ ← m
        return ()) fun _ _ => True :=
  Keeps.bind h fun _ => Keeps.ret fun _ h => h

/-- A client is paired. -/
theorem pairClient_justifies {clientId code : String} :
    Justifies library J (RelayApi.pairClient outside clientId code) fun _ _ => True := by
  refine Keeps.lift_bind fun body _ => Keeps.bind (R := fun _ _ => True) ?_ fun _ =>
    Keeps.ret fun _ h => h
  exact (send_justifies ⟨.post, "/wham/remote/control/client/pair", some body, false⟩
    (stable_const True) fun auth log _ => spends_of_path (by decide) (by decide) auth log).conseq
      (fun _ _ => trivial) fun _ _ _ => trivial

/-- A client is revoked. -/
theorem revokeClient_justifies {clientId : String} :
    Justifies library J (RelayApi.revokeClient library outside clientId) fun _ _ => True := by
  refine Keeps.lift_bind fun path _ => Keeps.bind (R := fun _ _ => True) ?_ fun _ =>
    Keeps.ret fun _ h => h
  exact (send_justifies ⟨.delete, path, none, true⟩ (stable_const True) fun auth log _ =>
    spends_of_method (by decide) auth log).conseq (fun _ _ => trivial) fun _ _ _ => trivial

/-- The hosts of a client are listed. -/
theorem hosts_justifies {clientId : Option String} :
    Justifies library J (RelayApi.listEnvironments library outside clientId) fun _ _ => True :=
  weaken_justifies (listEnvironments_justifies (stable_from []) (fun _ h => h) clientId)

/-- There is a session. -/
theorem session_justifies :
    Justifies library J (Controller.ensureSession library outside) fun _ _ => True :=
  weaken_justifies ensureSession_justifies

/-- The state file is read. -/
theorem state_justifies : Justifies library J (loadState outside) fun _ _ => True :=
  weaken_justifies loadState_justifies

/-- The environments of the client of an enrollment. -/
theorem sessionEnvironments_justifies :
    Justifies library J (Controller.sessionEnvironments library outside) fun _ _ => True :=
  Keeps.bind session_justifies fun _ => Keeps.bind hosts_justifies fun _ => Keeps.ret fun _ h => h

/-- The versions are compared. -/
theorem checkUpdate_justifies {device : Option String} :
    Justifies library J (Controller.checkUpdate library outside device) fun _ _ => True := by
  refine Keeps.bind (weaken_justifies inspectStockCodex_justifies) fun localVersion => ?_
  refine Keeps.bind sessionEnvironments_justifies fun opened => ?_
  exact Keeps.lift_bind fun remote _ => Keeps.lift_bind fun _ _ => Keeps.ret fun _ h => h

/-- A client is paired and its hosts are listed. -/
theorem pairAndList_justifies {pairingCode : String} :
    Justifies library J (Controller.pairAndList library outside pairingCode) fun _ _ => True :=
  Keeps.bind session_justifies fun _ => Keeps.bind pairClient_justifies fun _ => hosts_justifies

/-- The key and the state file are deleted. -/
theorem unenroll_justifies :
    Justifies library J (Controller.unenroll library outside) fun _ _ => True := by
  refine Keeps.bind (Keeps.mapError state_justifies) fun state =>
    Keeps.bind revokeClient_justifies fun _ =>
      Keeps.bind (R := fun _ _ => True) (Keeps.mapError ?_) fun _ => ?_
  · exact Keeps.bind (R := fun _ _ => True) (Keeps.read fun _ h => h) fun steps =>
      onDevice_justifies _
  · refine Keeps.bind (R := fun _ _ => True) (Keeps.read fun _ h => h) fun removes => ?_
    refine Keeps.failWhen_bind fun _ => ?_
    exact Keeps.silent (fun _ _ h => h) fun S => Effect.Triple.change fun _ h => h

/-- Each command leaves a log in which every act is justified. -/
theorem execute_justifies (command : Command) :
    Justifies library J (Controller.execute library outside command) fun _ _ => True := by
  cases command with
  | devices =>
    refine discard_justifies (Keeps.bind (R := fun _ _ => True) (Keeps.read fun _ _ => trivial)
      fun enrolled => ?_)
    split_ifs
    · exact Keeps.bind state_justifies fun state => hosts_justifies
    · exact hosts_justifies
  | enroll => exact discard_justifies (weaken_justifies enroll_justifies)
  | pair code =>
    exact discard_justifies (Keeps.bind (Keeps.mapError state_justifies) fun state =>
      Keeps.bind pairClient_justifies fun _ => Keeps.ret fun _ h => h)
  | session => exact discard_justifies session_justifies
  | unenroll => exact unenroll_justifies
  | probe device => exact discard_justifies (weaken_justifies probe_justifies)
  | revokeClient clientId => exact revokeClient_justifies
  | remoteTui device => exact discard_justifies (weaken_justifies runRemoteTui_justifies)
  | checkUpdate device => exact discard_justifies checkUpdate_justifies
  | brokerPair pairingCode => exact discard_justifies pairAndList_justifies
  | brokerListHosts => exact discard_justifies sessionEnvironments_justifies
  | brokerOpen environmentId =>
    exact discard_justifies (weaken_justifies openRemoteAppServer_justifies)

/-- The commands of a run are executed one after the other. -/
theorem audited_foldl {controller : Controller} (invocations : List Controller.Invocation)
    (h : Audited (Act.IsJustified library) controller.log) :
    Audited (Act.IsJustified library)
      (invocations.foldl (Controller.invoke library) controller).log := by
  induction invocations generalizing controller with
  | nil => exact h
  | cons invocation invocations ih =>
    refine ih ?_
    have hexecute := @execute_justifies library invocation.outside (fun _ => True)
      invocation.command _ (stable_const True)
    exact Effect.Triple.state (S := fun after => Audited (Act.IsJustified library) after.log)
      (s := { controller with device := invocation.meanwhile controller.device })
      (hexecute.conseq (fun _ h => h) (fun _ _ h => h.1) fun _ _ h => h.1) ⟨h, trivial, trivial⟩

/-- In the log of a run every act is justified. -/
theorem audited_run (device : Device) (invocations : List Controller.Invocation) :
    Audited (Act.IsJustified library) (Controller.runLog library device invocations) :=
  audited_foldl invocations audited_nil

/-! ### What a run never does -/

/-- A message that may bring a challenge. -/
def Act.BringsMessage : Act → Prop
  | .exchange _ (some _) => True
  | .receive (.frame _) => True
  | _ => False

/-- What stands at the end of a list and does not have an entry stands after this entry. -/
theorem exists_eq_append_of_not_mem {α : Type} {before later front last : List α} {entry : α}
    (h : before ++ entry :: later = front ++ last) (hentry : entry ∉ last) :
    ∃ between, later = between ++ last := by
  obtain ⟨rest, hfront, hlast⟩ | ⟨rest, hbefore, hlast⟩ := List.append_eq_append_iff.mp h
  · cases rest with
    | nil =>
      obtain rfl : entry :: later = last := hlast
      exact absurd List.mem_cons_self hentry
    | cons first rest =>
      obtain ⟨rfl, hlater⟩ := List.cons_eq_cons.mp hlast
      exact ⟨rest, hlater⟩
  · rw [hlast] at hentry
    exact absurd (List.mem_append_right _ List.mem_cons_self) hentry

/-- Since the signature before, a message has come. -/
theorem Signs.message {earlier before between : List Act} {purpose : Purpose}
    {enrollment : EnrollmentRecord} {payload payload' : List UInt8} {keyId : String}
    {signature : Option (List UInt8)} (h : Signs library earlier purpose enrollment payload)
    (hearlier : earlier = before ++ .sign keyId payload' signature :: between) :
    ∃ act ∈ between, act.BringsMessage := by
  cases h with
  | enrollment hlog =>
    obtain ⟨rest, rfl⟩ := exists_eq_append_of_not_mem (hearlier.symm.trans hlog) (by simp)
    exact ⟨_, List.mem_append_right _ List.mem_cons_self, trivial⟩
  | refresh hlog =>
    obtain ⟨rest, rfl⟩ := exists_eq_append_of_not_mem (hearlier.symm.trans hlog) (by simp)
    exact ⟨_, List.mem_append_right _ List.mem_cons_self, trivial⟩
  | connection hlog =>
    obtain ⟨rest, rfl⟩ := exists_eq_append_of_not_mem (hearlier.symm.trans hlog) (by simp)
    exact ⟨_, List.mem_append_right _ (List.mem_cons_of_mem _ List.mem_cons_self), trivial⟩

/-- In every run the device key signs only the payload of the challenge that was received last, for
its own enrollment, and no two signatures answer the same message. -/
theorem run_signs (device : Device) (invocations : List Controller.Invocation) :
    Audited (fun earlier act => ∀ keyId payload signature, act = .sign keyId payload signature →
      (∃ purpose enrollment, keyId = enrollment.keyId ∧
        Signs library earlier purpose enrollment payload) ∧
      ∀ before keyId' payload' signature' between,
        earlier = before ++ .sign keyId' payload' signature' :: between →
          ∃ message ∈ between, message.BringsMessage)
      (Controller.runLog library device invocations) := by
  refine (audited_run device invocations).mono fun earlier act hact keyId payload signature h => ?_
  subst h
  obtain ⟨purpose, enrollment, hkey, hsigns⟩ := hact
  exact ⟨⟨purpose, enrollment, hkey, hsigns⟩, fun _ _ _ _ _ hearlier => hsigns.message hearlier⟩

/-- In every run a request that ends an enrollment or a refresh has a signature that was made in
this run for just this purpose and enrollment, and an enrollment has the authorization of the
user. -/
theorem run_spends (device : Device) (invocations : List Controller.Invocation) :
    Audited (fun earlier act => ∀ request response, act = .exchange request response →
      Spends library request earlier) (Controller.runLog library device invocations) := by
  refine (audited_run device invocations).mono fun earlier act hact request response h => ?_
  subst h
  exact hact

/-- In every run a websocket is opened only with a session that the relay has issued for the
enrollment of the process, and what is sent over it is only the proof for the challenge that it has
brought since. -/
theorem run_proves (device : Device) (invocations : List Controller.Invocation) :
    Audited (fun earlier act =>
      (∀ headers opening, act = .upgrade headers opening → Opens library headers earlier) ∧
      ∀ message sent, act = .send message sent →
        ∃ before auth enrollment session frame now challenge signature,
          earlier = before ++ [.upgrade (Controller.upgradeOf auth enrollment session) .opened,
            .receive (.frame frame), .clock now,
            .sign enrollment.keyId (connectionPayload library challenge) (some signature)] ∧
          Controller.readChallenge library frame = .ok challenge ∧
          Holds enrollment before ∧ Issued library enrollment session before ∧
          BoundToSession library.signing enrollment session challenge now ∧
          message = proofMessage enrollment signature (connectionPayload library challenge))
      (Controller.runLog library device invocations) := by
  refine (audited_run device invocations).mono fun earlier act hact => ⟨fun headers opening h => ?_,
    fun message sent h => ?_⟩
  · subst h
    exact hact
  · subst h
    obtain ⟨before, enrollment, payload, signature, rfl, hsigns, rfl⟩ := hact
    cases hsigns with
    | @connection start auth _ _ _ _ _ hlog hchallenge hholds hissued hbound =>
      refine ⟨start, auth, _, _, _, _, _, signature, ?_, hchallenge, hholds, hissued, hbound, rfl⟩
      rw [hlog, List.append_assoc]
      rfl

/-- What a computation returns after a run. -/
theorem triple_of_run {α : Type} {m : Control α} {R : α → List Act → Prop} {device now : Device}
    {invocations : List Controller.Invocation}
    (h : Justifies library (Controller.runLog library device invocations <+: ·) m R) :
    Effect.Triple (· = ⟨now, Controller.runLog library device invocations⟩) m
      (fun a after => R a after.log) fun _ _ => True := by
  refine (h _ (stable_const True)).conseq (fun controller hcontroller => ?_) (fun _ _ h => h.2.2)
    fun _ _ _ => trivial
  subst hcontroller
  exact ⟨audited_run device invocations, trivial, List.prefix_rfl⟩

/-- After every run a command returns only a connection to a host that the relay has listed during
this command for the client of the enrollment, as online, and to which the process has proved
itself; for the broker and the terminal the host runs the version that the local Codex has reported
during this command, and the terminal holds the lock of the installation. -/
theorem run_reaches (outside : ControllerOutside) (device now : Device)
    (invocations : List Controller.Invocation) :
    let start := Controller.runLog library device invocations
    (∀ environmentId, Effect.Triple (· = ⟨now, start⟩)
      (Controller.openRemoteAppServer library outside environmentId)
      (fun transport after => ∃ environments environment version,
        Reached library start transport environments environment after.log ∧
          LocalCodex start version after.log ∧ environment.envId = environmentId ∧
          verifyRemoteCodexVersion version environment = .ok ()) fun _ _ => True) ∧
    (∀ requested, Effect.Triple (· = ⟨now, start⟩)
      (Controller.runRemoteTui library outside requested)
      (fun connected after => ∀ transport, connected = some transport →
        ∃ environments environment version,
          Reached library start transport environments environment after.log ∧
            (LocalCodex start version after.log ∧ DoneSince start (.lock true) after.log) ∧
            ChosenHost environments environment requested ∧
            verifyRemoteCodexVersion version environment = .ok ()) fun _ _ => True) ∧
    ∀ environmentId, Effect.Triple (· = ⟨now, start⟩)
      (Controller.probe library outside environmentId)
      (fun transport after => ∃ environments environment,
        Reached library start transport environments environment after.log ∧
          environment.envId = environmentId) fun _ _ => True :=
  ⟨fun _ => triple_of_run openRemoteAppServer_justifies,
    fun _ => triple_of_run runRemoteTui_justifies, fun _ => triple_of_run probe_justifies⟩

end Commands

end Rcodex
