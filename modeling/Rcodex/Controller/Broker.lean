import Rcodex.Controller.Commands
import Rcodex.Broker.Pairing

/-!
# The broker with the controller

`Broker.step` is given what the remote operations answer.  `Service.step` runs them: each pass of
its loop reads a line and, if the session accepts the request in it, does what the request asks for
on the controller.  `service_refines` relates the two, so that what is known of the broker under all
answers is true of the service: `service_orders` says that it keeps the order of the protocol.
`service_guards` says what it does on the controller: nothing before the handshake, and a host is
reported as connected only if it was reached.
-/

namespace Rcodex

open Json Result Audit

/-- `classify_broker_error`, on the text of the error -/
def classifyBrokerError (error : String) : BrokerErrorCode :=
  let message := Text.toAsciiLowercase error
  if Text.contains message "auth" || Text.contains message "login" ||
      Text.contains message "account" then .authenticationRequired
  else if Text.contains message "enroll" || Text.contains message "keychain" then
    .enrollmentRequired
  else if Text.contains message "version" || Text.contains message "pinned" then
    .incompatibleVersion
  else .relayUnavailable

/-- The code of an error of `open_remote_app_server`, which depends on where it comes from. -/
def openErrorCode (text : ControllerError → String) : ControllerError → BrokerErrorCode
  | .codex _ | .version _ => .incompatibleVersion
  | .environmentNotFound _ => .hostNotFound
  | .environmentOffline _ => .hostOffline
  | error => classifyBrokerError (text error)

/-- The service: its broker, the process, and the connection to a host. -/
structure Service where
  /-- Where it is in its run. -/
  broker : Broker
  /-- The process. -/
  controller : Controller
  /-- The connection that it bridges. -/
  transport : Option RelayTransport

/-- What a pass of the loop meets. -/
structure ServiceTurn where
  /-- The bytes read. -/
  line : List UInt8
  /-- What other processes have done to the device since the last pass. -/
  meanwhile : Device → Device
  /-- The outcomes of the acts. -/
  outside : ControllerOutside

namespace Service

section Operations

variable (library : ControllerLibrary) (text : ControllerError → String)
  (outside : ControllerOutside)

/-- A computation of the service. -/
abbrev Operation := Effect Controller BrokerErrorCode

/-- `pair_and_list_hosts` -/
def pairAndListHosts (pairingCode : PairingCode) : Operation (List BrokerHost) := do
  -- the bytes of a code are always a text
  let environments ← Effect.mapError (fun error => classifyBrokerError (text error))
    (Controller.pairAndList library outside (pairingCode.asStr.getD ""))
  Effect.lift (brokerHostsForClient (.ok environments))

/-- `list_broker_hosts` -/
def listBrokerHosts : Operation (List BrokerHost) := do
  let (_, environments) ← Effect.mapError (fun error => classifyBrokerError (text error))
    (Controller.sessionEnvironments library outside)
  Effect.lift (brokerHostsForClient (.ok environments))

/-- `open_remote_app_server` -/
def openRemoteAppServer (environmentId : String) : Operation RelayTransport :=
  Effect.mapError (openErrorCode text)
    (Controller.openRemoteAppServer library outside environmentId)

/-- An operation for an accepted request: its result is answered. -/
def operate {α : Type} (operation : Operation α) (id : UInt64) (action : BrokerAction)
    (session : BrokerSession) (reply : α → Answer × Option RelayTransport)
    (controller : Controller) : (Answer × Option RelayTransport) × Controller :=
  match operation controller with
  | (.ok value, after) => (reply value, after)
  | (.error code, after) => ((⟨.ofError id code, some action, session, none⟩, none), after)

/-- The body of the loop of `run_broker` between reading and writing. -/
def answer (session : BrokerSession) (frame : List UInt8) (controller : Controller) :
    (Answer × Option RelayTransport) × Controller :=
  match decodeRequest library.fromSlice frame with
  | .error _ => ((⟨.ofError 0 .invalidRequest, none, session, none⟩, none), controller)
  | .ok request =>
    match session.accept request with
    | (.error code, session) =>
      ((⟨.ofError request.id code, none, session, none⟩, none), controller)
    | (.ok action, session) =>
      match action with
      | .respond response => ((⟨response, some action, session, none⟩, none), controller)
      | .pair id pairingCode =>
        operate (pairAndListHosts library text outside pairingCode) id action session
          (fun hosts => (⟨.ofPaired id hosts, some action, session, none⟩, none)) controller
      | .listHosts id =>
        operate (listBrokerHosts library text outside) id action session
          (fun hosts => (⟨.ofHosts id hosts, some action, session, none⟩, none)) controller
      | .openAppServer id environmentId =>
        operate (openRemoteAppServer library text outside environmentId) id action session
          (fun transport => (⟨.ofReady id environmentId, some action, session, some environmentId⟩,
            some transport)) controller

end Operations

section Step

variable (library : ControllerLibrary) (text : ControllerError → String)

/-- One pass of the loop of `run_broker`. -/
def step (service : Service) (turn : ServiceTurn) : Broker.Output × Service :=
  let controller : Controller :=
    { service.controller with device := turn.meanwhile service.controller.device }
  match service.broker with
  | .serving session =>
    match readBrokerFrame turn.line with
    | .error error => (⟨none, none⟩, ⟨.ended (.error error), controller, none⟩)
    | .ok none => (⟨none, none⟩, ⟨.ended (.ok ()), controller, none⟩)
    | .ok (some frame) =>
      let ((reply, transport), after) := answer library text turn.outside session frame controller
      let (output, broker) := Broker.write reply
      (output, ⟨broker, after, transport⟩)
  | broker => (⟨none, none⟩, ⟨broker, controller, service.transport⟩)

/-- The service as it starts. -/
def start (device : Device) : Service := ⟨.start, ⟨device, []⟩, none⟩

/-- What the operations answer in a pass of the loop. -/
def remote (outside : ControllerOutside) (session : BrokerSession) (frame : List UInt8)
    (controller : Controller) : Remote :=
  match decodeRequest library.fromSlice frame with
  | .error _ => ⟨.error .relayUnavailable, .error .relayUnavailable, .error .relayUnavailable⟩
  | .ok request =>
    { pairAndListHosts := match (session.accept request).1 with
        | .ok (.pair _ pairingCode) =>
          (pairAndListHosts library text outside pairingCode controller).1
        | _ => .error .relayUnavailable
      listBrokerHosts := (listBrokerHosts library text outside controller).1
      openRemoteAppServer := match (session.accept request).1 with
        | .ok (.openAppServer _ environmentId) =>
          (openRemoteAppServer library text outside environmentId controller).1.map fun _ => ()
        | _ => .error .relayUnavailable }

end Step

variable {library : ControllerLibrary} {text : ControllerError → String}

/-- The service answers what the broker answers, given what the operations answer. -/
theorem answer_eq (outside : ControllerOutside) (session : BrokerSession) (frame : List UInt8)
    (controller : Controller) :
    (answer library text outside session frame controller).1.1 =
      Rcodex.answer library.fromSlice session frame
        (remote library text outside session frame controller) := by
  unfold answer Rcodex.answer remote
  cases hdecode : decodeRequest library.fromSlice frame with
  | error error => rfl
  | ok request =>
    dsimp only
    rcases haccept : session.accept request with ⟨r, after⟩
    cases r with
    | error code => rfl
    | ok action =>
      cases action with
      | respond response => rfl
      | pair id pairingCode =>
        dsimp only
        unfold operate
        rcases pairAndListHosts library text outside pairingCode controller with ⟨r, after⟩
        cases r <;> rfl
      | listHosts id =>
        dsimp only
        unfold operate
        rcases listBrokerHosts library text outside controller with ⟨r, after⟩
        cases r <;> rfl
      | openAppServer id environmentId =>
        dsimp only
        unfold operate
        rcases openRemoteAppServer library text outside environmentId controller with ⟨r, after⟩
        cases r <;> rfl

/-- A pass of the loop is one of the broker, with what the operations answer. -/
theorem exists_turn (service : Service) (turn : ServiceTurn) :
    ∃ given : Turn, given.line = turn.line ∧
      (step library text service turn).1 =
        (Broker.step library.fromSlice service.broker given).1 ∧
      (step library text service turn).2.broker =
        (Broker.step library.fromSlice service.broker given).2 := by
  obtain ⟨broker, controller, transport⟩ := service
  cases broker with
  | serving session =>
    dsimp only [step]
    cases hread : readBrokerFrame turn.line with
    | error error =>
      refine ⟨⟨turn.line, ⟨.error .relayUnavailable, .error .relayUnavailable,
        .error .relayUnavailable⟩⟩, rfl, ?_, ?_⟩ <;> simp only [Broker.step, hread]
    | ok read =>
      cases read with
      | none =>
        refine ⟨⟨turn.line, ⟨.error .relayUnavailable, .error .relayUnavailable,
          .error .relayUnavailable⟩⟩, rfl, ?_, ?_⟩ <;> simp only [Broker.step, hread]
      | some frame =>
        refine ⟨⟨turn.line, remote library text turn.outside session frame
          { controller with device := turn.meanwhile controller.device }⟩, rfl, ?_, ?_⟩ <;>
          simp only [Broker.step, hread, answer_eq]
  | ended result => exact ⟨⟨turn.line, ⟨.ok [], .ok [], .ok ()⟩⟩, rfl, rfl, rfl⟩
  | bridging environmentId => exact ⟨⟨turn.line, ⟨.ok [], .ok [], .ok ()⟩⟩, rfl, rfl, rfl⟩

/-- Every run of the service is one of the broker on the same lines, with what the operations
answer: it writes the same responses and ends in the same way. -/
theorem service_refines (service : Service) (turns : List ServiceTurn) :
    ∃ given : List Turn, given.map Turn.line = turns.map ServiceTurn.line ∧
      Machine.outputs (step library text) service turns =
        Machine.outputs (Broker.step library.fromSlice) service.broker given ∧
      (Machine.final (step library text) service turns).broker =
        Machine.final (Broker.step library.fromSlice) service.broker given := by
  induction turns generalizing service with
  | nil => exact ⟨[], rfl, rfl, rfl⟩
  | cons turn turns ih =>
    obtain ⟨first, hline, houtput, hbroker⟩ :=
      @exists_turn library text service turn
    obtain ⟨given, hlines, houtputs, hfinal⟩ := ih (step library text service turn).2
    refine ⟨first :: given, by rw [List.map_cons, List.map_cons, hline, hlines], ?_, ?_⟩
    · rw [Machine.outputs_cons, Machine.outputs_cons, houtput, houtputs, hbroker]
    · rw [Machine.final_cons, Machine.final_cons, hfinal, hbroker]

/-- Every run of the service accounts for its outputs, as that of the broker does. -/
theorem accounted_outputs (device : Device) (turns : List ServiceTurn) :
    ∃ session, Broker.Accounted (Machine.outputs (step library text) (start device) turns)
      session := by
  obtain ⟨given, -, houtputs, -⟩ := @service_refines library text (start device) turns
  obtain ⟨session, haccounted, -⟩ := Broker.accounted_final library.fromSlice given
  rw [houtputs]
  exact ⟨session, haccounted⟩

/-- In every run of the service, every operation comes after the handshake, of which there is at
most one, and no two operations have one identifier. -/
theorem service_orders (library : ControllerLibrary) (text : ControllerError → String)
    (device : Device) (turns : List ServiceTurn) :
    (∀ pre output post,
      Machine.outputs (step library text) (start device) turns = pre ++ output :: post →
        output.startedId.isSome = true → ∃ greeting ∈ pre, greeting.greets = true) ∧
    ((Machine.outputs (step library text) (start device) turns).filter
      Broker.Output.greets).length ≤ 1 ∧
    ((Machine.outputs (step library text) (start device) turns).filterMap
      Broker.Output.startedId).Nodup := by
  obtain ⟨session, haccounted⟩ := @accounted_outputs library text device turns
  refine ⟨haccounted.ordered, ?_, haccounted.nodup⟩
  rw [haccounted.greetings]
  split_ifs <;> omega

/-! ### What the service does on the controller -/

/-- A connection to the host that was asked for. -/
def Connects (library : ControllerLibrary) (start : List Act) (environmentId : String)
    (transport : RelayTransport) (log : List Act) : Prop :=
  ∃ environments environment version,
    Reached library start transport environments environment log ∧
      LocalCodex start version log ∧ environment.envId = environmentId ∧
      verifyRemoteCodexVersion version environment = .ok ()

/-- What the service does for one frame. -/
structure Guarded (library : ControllerLibrary) (controller : Controller) (reply : Answer)
    (transport : Option RelayTransport) (after : Controller) : Prop where
  /-- All acts are justified. -/
  audited : Audited (Act.IsJustified library) after.log
  /-- Without an operation nothing is done. -/
  quiet : (∀ action, reply.accepted = some action → ∃ response, action = .respond response) →
    after = controller
  /-- A host that is reported as connected is connected. -/
  ready : ∀ id environmentId, reply.response = .ofReady id environmentId →
    ∃ connected, transport = some connected ∧
      Connects library controller.log environmentId connected after.log

/-- An operation for a request. -/
theorem operate_guarded {α : Type} {operation : Operation α} {id : UInt64} {action : BrokerAction}
    {session : BrokerSession} {reply : α → Answer × Option RelayTransport}
    {controller : Controller} {R : α → List Act → Prop} (hstarts : action.Starts id)
    (hoperation : Effect.Triple (· = controller) operation
      (fun value after => Audited (Act.IsJustified library) after.log ∧ R value after.log)
      fun _ after => Audited (Act.IsJustified library) after.log)
    (hreply : ∀ value log, R value log → (reply value).1.accepted = some action ∧
      ∀ id environmentId, (reply value).1.response = .ofReady id environmentId →
        ∃ connected, (reply value).2 = some connected ∧
          Connects library controller.log environmentId connected log) :
    Guarded library controller (operate operation id action session reply controller).1.1
      (operate operation id action session reply controller).1.2
      (operate operation id action session reply controller).2 := by
  have hnot : ¬∃ response, action = .respond response := by
    rintro ⟨response, rfl⟩
    cases hstarts
  obtain ⟨value, after, hrun, haudited, hvalue⟩ | ⟨code, after, hrun, haudited⟩ :=
    hoperation.ends rfl
  · simp only [operate, hrun]
    obtain ⟨haccepted, hready⟩ := hreply value after.log hvalue
    exact ⟨haudited, fun h => absurd (h action haccepted) hnot, hready⟩
  · simp only [operate, hrun]
    refine ⟨haudited, fun h => absurd (h action rfl) hnot, fun id' environmentId h => ?_⟩
    contradiction

/-- What is known of an operation after its log was audited. -/
theorem triple_of_justifies {α : Type} {m : Control α} {R : α → List Act → Prop}
    {controller : Controller} {code : ControllerError → BrokerErrorCode}
    (h : Justifies library (controller.log <+: ·) m R)
    (haudited : Audited (Act.IsJustified library) controller.log) :
    Effect.Triple (· = controller) (Effect.mapError code m)
      (fun value after => Audited (Act.IsJustified library) after.log ∧ R value after.log)
      fun _ after => Audited (Act.IsJustified library) after.log := by
  refine Effect.Triple.mapError ((h _ (stable_const True)).conseq (fun after hafter => ?_)
    (fun _ _ h => ⟨h.1, h.2.2⟩) fun _ _ h => h.1)
  subst hafter
  exact ⟨haudited, trivial, List.prefix_rfl⟩

/-- What the service does for a frame. -/
theorem answer_guarded {outside : ControllerOutside} {session : BrokerSession}
    {frame : List UInt8} {controller : Controller}
    (haudited : Audited (Act.IsJustified library) controller.log) :
    Guarded library controller (answer library text outside session frame controller).1.1
      (answer library text outside session frame controller).1.2
      (answer library text outside session frame controller).2 := by
  have hidle : ∀ {response : BrokerResponse} {accepted : Option BrokerAction}
      {session : BrokerSession}, (∀ id environmentId, response ≠ .ofReady id environmentId) →
      Guarded library controller ⟨response, accepted, session, none⟩ none controller :=
    fun hready => ⟨haudited, fun _ => rfl, fun id environmentId h => absurd h (hready id _)⟩
  unfold answer
  cases decodeRequest library.fromSlice frame with
  | error error =>
    refine hidle fun id environmentId h => ?_
    contradiction
  | ok request =>
    have houtcome := accept_outcome session request
    dsimp only
    generalize session.accept request = result at houtcome
    cases houtcome with
    | rejected =>
      refine hidle fun id environmentId h => ?_
      contradiction
    | greeted hnew hfirst =>
      refine hidle fun id environmentId h => ?_
      contradiction
    | started action hnew hinitialized hstarts =>
      revert hnew
      generalize request.id = id at hstarts
      intro hnew
      cases hstarts with
      | pair _ pairingCode =>
        refine operate_guarded (R := fun _ _ => True) (.pair id pairingCode) ?_
          fun hosts log _ => ⟨rfl, fun id' environmentId h => ?_⟩
        · refine Effect.Triple.bind (triple_of_justifies pairAndList_justifies haudited)
            fun environments => Effect.Triple.lift (fun _ _ _ h => h) fun _ _ _ h => h.1
        · contradiction
      | listHosts =>
        refine operate_guarded (R := fun _ _ => True) (.listHosts id) ?_
          fun hosts log _ => ⟨rfl, fun id' environmentId h => ?_⟩
        · refine Effect.Triple.bind (triple_of_justifies sessionEnvironments_justifies haudited)
            fun opened => Effect.Triple.lift (fun _ _ _ h => h) fun _ _ _ h => h.1
        · contradiction
      | openAppServer _ environmentId =>
        refine operate_guarded (.openAppServer id environmentId)
          (triple_of_justifies openRemoteAppServer_justifies haudited)
          fun transport log hconnects => ⟨rfl, fun id' environmentId' h => ?_⟩
        obtain ⟨-, rfl⟩ : id = id' ∧ environmentId = environmentId' := by
          simpa [BrokerResponse.ofReady] using h
        exact ⟨transport, rfl, hconnects⟩

/-- The controller before a pass of the loop. -/
def met (service : Service) (turn : ServiceTurn) : Controller :=
  { service.controller with device := turn.meanwhile service.controller.device }

/-- A pass of the loop does nothing on the controller, or a frame is answered. -/
theorem step_cases (service : Service) (turn : ServiceTurn) :
    (∃ broker transport, step library text service turn =
      (⟨none, none⟩, ⟨broker, service.met turn, transport⟩)) ∨
    ∃ session frame reply transport after,
      answer library text turn.outside session frame (service.met turn) =
        ((reply, transport), after) ∧
      step library text service turn =
        ((Broker.write reply).1, ⟨(Broker.write reply).2, after, transport⟩) := by
  obtain ⟨broker, controller, transport⟩ := service
  cases broker with
  | serving session =>
    dsimp only [step]
    cases hread : readBrokerFrame turn.line with
    | error error => exact Or.inl ⟨_, _, rfl⟩
    | ok read =>
      cases read with
      | none => exact Or.inl ⟨_, _, rfl⟩
      | some frame => exact Or.inr ⟨session, frame, _, _, _, rfl, rfl⟩
  | ended result => exact Or.inl ⟨_, _, rfl⟩
  | bridging environmentId => exact Or.inl ⟨_, _, rfl⟩

/-- What one pass of the loop does. -/
theorem step_guarded {service : Service} (turn : ServiceTurn)
    (haudited : Audited (Act.IsJustified library) service.controller.log) :
    Audited (Act.IsJustified library) (step library text service turn).2.controller.log ∧
      ((step library text service turn).1.startedId = none →
        (step library text service turn).2.controller = service.met turn) ∧
      ∀ id environmentId,
        (step library text service turn).1.response = some (.ofReady id environmentId) →
        ∃ connected, (step library text service turn).2.transport = some connected ∧
          Connects library service.controller.log environmentId connected
            (step library text service turn).2.controller.log := by
  obtain ⟨broker, transport, hstep⟩ | ⟨session, frame, reply, transport, after, hanswer, hstep⟩ :=
    @step_cases library text service turn
  · rw [hstep]
    exact ⟨haudited, fun _ => rfl, fun _ _ h => absurd h.symm (Option.some_ne_none _)⟩
  · obtain ⟨hafter, hquiet, hready⟩ := @answer_guarded library text turn.outside session frame
      (service.met turn) haudited
    rw [hanswer] at hafter hquiet hready
    rw [hstep]
    refine ⟨hafter, fun hstarted => hquiet fun action haction => ?_, fun id environmentId h => ?_⟩
    · have haccepted := (Broker.write_accepted reply).trans haction
      rw [Broker.Output.startedId, haccepted] at hstarted
      cases action with
      | respond response => exact ⟨response, rfl⟩
      | _ => contradiction
    · unfold Broker.write at h
      split_ifs at h
      exact hready id environmentId (Option.some.inj h)

/-- Up to the handshake nothing is done on the controller, but by other processes. -/
theorem quiet_before_handshake (device : Device) (turns : List ServiceTurn)
    (h : ∀ output ∈ Machine.outputs (step library text) (start device) turns,
      output.greets = false) :
    (Machine.final (step library text) (start device) turns).controller =
      ⟨turns.foldl (fun device turn => turn.meanwhile device) device, []⟩ := by
  induction turns using List.reverseRecOn with
  | nil => rfl
  | append_singleton turns turn ih =>
    obtain ⟨session, haccounted⟩ := @accounted_outputs library text device (turns ++ [turn])
    have hsplit : Machine.outputs (step library text) (start device) (turns ++ [turn]) =
        Machine.outputs (step library text) (start device) turns ++ [(step library text
          (Machine.final (step library text) (start device) turns) turn).1] :=
      Machine.outputs_append _ _ _ _
    rw [hsplit] at h
    have hbefore := ih fun output hmem => h output (List.mem_append_left _ hmem)
    have hstarted : (step library text
        (Machine.final (step library text) (start device) turns) turn).1.startedId = none := by
      by_contra hsome
      obtain ⟨greeting, hmem, hgreets⟩ := haccounted.ordered _ _ [] hsplit
        (Option.isSome_iff_ne_none.mpr hsome)
      rw [h greeting (List.mem_append_left _ hmem)] at hgreets
      contradiction
    rw [Machine.final_concat, (step_guarded turn ?_).2.1 hstarted, met, hbefore, List.foldl_append]
    · rfl
    · rw [hbefore]
      exact audited_nil

/-- In every run of the broker: the process does nothing before the handshake; all its acts are
justified; and a host is reported as connected only in a pass of the loop in which it was listed,
online, of the version of the local Codex and reached. -/
theorem service_guards (library : ControllerLibrary) (text : ControllerError → String)
    (device : Device) (turns : List ServiceTurn) :
    ((∀ output ∈ Machine.outputs (step library text) (start device) turns,
      output.greets = false) →
      (Machine.final (step library text) (start device) turns).controller =
        ⟨turns.foldl (fun device turn => turn.meanwhile device) device, []⟩) ∧
    Audited (Act.IsJustified library)
      (Machine.final (step library text) (start device) turns).controller.log ∧
    ∀ turn id environmentId,
      (step library text (Machine.final (step library text) (start device) turns) turn).1.response =
        some (.ofReady id environmentId) →
      ∃ connected,
        (step library text (Machine.final (step library text) (start device) turns)
          turn).2.transport = some connected ∧
        Connects library (Machine.final (step library text) (start device) turns).controller.log
          environmentId connected
          (step library text (Machine.final (step library text) (start device) turns)
            turn).2.controller.log := by
  have haudited : Audited (Act.IsJustified library)
      (Machine.final (step library text) (start device) turns).controller.log :=
    Machine.final_induction (step library text) (P := fun service => Audited
      (Act.IsJustified library) service.controller.log) (fun _ turn h => (step_guarded turn h).1)
        audited_nil turns
  refine ⟨quiet_before_handshake device turns, haudited, fun turn => ?_⟩
  exact (step_guarded turn haudited).2.2

end Service

end Rcodex
