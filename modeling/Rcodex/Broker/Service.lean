import Rcodex.Broker.Protocol
import Rcodex.Foundation.Lines
import Rcodex.Foundation.Machine

/-!
# The broker service

`run_broker` reads one line after the other, answers each and stops at the end of the input, at a
line that is too long or with the first host it connects to.  `Broker.step` is one pass of its
loop: the event is the line read and what the remote operations would answer
(`Turn`), the output is the response written and the action the session accepted.

`answers_each_frame` says of a whole run that every frame gets one response with its identifier
until the run ends.  `Accounted` relates the session to the actions accepted so far; it holds in
every run and gives the order of handshake and operations.  Rejected frames are silent, so a run
without them gives the same responses (`serves_protocol`).
-/

namespace Rcodex

open Json Result

/-- The errors that end the service. -/
inductive ServiceError where
  | requestTooLong
  | responseTooLong
deriving DecidableEq

/-- The text of an error, as the source reports it. -/
def ServiceError.text : ServiceError → String
  | .requestTooLong => "relay broker request exceeded the safety limit"
  | .responseTooLong => "relay broker response exceeded the safety limit"

/-- Whether a line has more than `maximum` bytes, its newline not counted. -/
def exceedsLimit (maximum : ℕ) (line : List UInt8) : Prop :=
  maximum + (if line.getLast? = some 10 then 1 else 0) < line.length

instance (maximum : ℕ) (line : List UInt8) : Decidable (exceedsLimit maximum line) :=
  inferInstanceAs (Decidable (_ < _))

/-- A line without the newlines and carriage returns at its end. -/
def trimLine (line : List UInt8) : List UInt8 :=
  (line.reverse.dropWhile fun b => b == 10 || b == 13).reverse

/-- What `read_broker_frame` makes of the bytes read: nothing at the end of the input. -/
def readBrokerFrame (line : List UInt8) : Except ServiceError (Option (List UInt8)) :=
  if line = [] then .ok none
  else if exceedsLimit maxBrokerFrameBytes line then .error .requestTooLong
  else .ok (some (trimLine line))

/-- What the remote operations answer. -/
structure Remote where
  /-- `pair_and_list_hosts` -/
  pairAndListHosts : Except BrokerErrorCode (List BrokerHost)
  /-- `list_broker_hosts` -/
  listBrokerHosts : Except BrokerErrorCode (List BrokerHost)
  /-- `open_remote_app_server` -/
  openRemoteAppServer : Except BrokerErrorCode Unit

/-- A line of the input and the answer of the remote operation it starts, if it starts one. -/
structure Turn where
  /-- The bytes read. -/
  line : List UInt8
  /-- The outcome of the operations. -/
  remote : Remote

/-- What the service does with a frame. -/
structure Answer where
  /-- The response. -/
  response : BrokerResponse
  /-- The action the session accepted. -/
  accepted : Option BrokerAction
  /-- The session afterwards. -/
  session : BrokerSession
  /-- The host it is connected to from now on. -/
  connected : Option String

/-- The body of the loop of `run_broker` between reading and writing. -/
def answer (parse : List UInt8 → Option Value) (session : BrokerSession) (frame : List UInt8)
    (remote : Remote) : Answer :=
  match decodeRequest parse frame with
  | .error _ => ⟨.ofError 0 .invalidRequest, none, session, none⟩
  | .ok request =>
    match session.accept request with
    | (.error code, session) => ⟨.ofError request.id code, none, session, none⟩
    | (.ok action, session) =>
      match action with
      | .respond response => ⟨response, some action, session, none⟩
      | .pair id _ =>
        match remote.pairAndListHosts with
        | .ok hosts => ⟨.ofPaired id hosts, some action, session, none⟩
        | .error code => ⟨.ofError id code, some action, session, none⟩
      | .listHosts id =>
        match remote.listBrokerHosts with
        | .ok hosts => ⟨.ofHosts id hosts, some action, session, none⟩
        | .error code => ⟨.ofError id code, some action, session, none⟩
      | .openAppServer id environmentId =>
        match remote.openRemoteAppServer with
        | .ok () => ⟨.ofReady id environmentId, some action, session, some environmentId⟩
        | .error code => ⟨.ofError id code, some action, session, none⟩

/-- Where the service is in its run. -/
inductive Broker where
  | serving (session : BrokerSession)
  | ended (result : Except ServiceError Unit)
  | bridging (environmentId : String)
deriving DecidableEq

/-- What one pass of the loop does to the outside. -/
structure Broker.Output where
  /-- The response written. -/
  response : Option BrokerResponse
  /-- The action the session accepted. -/
  accepted : Option BrokerAction

namespace Broker

/-- `write_broker_response`: whether the text of a response fits a frame. -/
def FitsFrame (response : BrokerResponse) : Prop := response.toVec.length ≤ maxBrokerFrameBytes

instance (response : BrokerResponse) : Decidable (FitsFrame response) :=
  inferInstanceAs (Decidable (_ ≤ _))

/-- Write an answer and go on. -/
def write (answer : Answer) : Output × Broker :=
  if FitsFrame answer.response then
    (⟨some answer.response, answer.accepted⟩,
      match answer.connected with
      | some environmentId => .bridging environmentId
      | none => .serving answer.session)
  else (⟨none, answer.accepted⟩, .ended (.error .responseTooLong))

/-- One pass of the loop of `run_broker`. -/
def step (parse : List UInt8 → Option Value) : Broker → Turn → Output × Broker
  | .serving session, turn =>
    match readBrokerFrame turn.line with
    | .error error => (⟨none, none⟩, .ended (.error error))
    | .ok none => (⟨none, none⟩, .ended (.ok ()))
    | .ok (some frame) => write (answer parse session frame turn.remote)
  | broker, _ => (⟨none, none⟩, broker)

/-- The service as it starts. -/
def start : Broker := .serving .empty

/-! ### One frame -/

/-- The identifier a frame is answered with. -/
def requestId (parse : List UInt8 → Option Value) (frame : List UInt8) : UInt64 :=
  match decodeRequest parse frame with
  | .ok request => request.id
  | .error _ => 0

/-- The frame is not a request, or it is one that the session does not accept. -/
def RejectsFrame (parse : List UInt8 → Option Value) (session : BrokerSession)
    (frame : List UInt8) : Prop :=
  ∀ request, decodeRequest parse frame = .ok request →
    ∃ code, (session.accept request).1 = .error code

/-- Everything the service can do with a frame that has a given identifier. -/
inductive AnswerOutcome (session : BrokerSession) (id : UInt64) : Answer → Prop
  /-- It is rejected. -/
  | rejected : AnswerOutcome session id ⟨.ofError id .invalidRequest, none, session, none⟩
  /-- It is the handshake. -/
  | greeted (hnew : id ∉ session.requestIds) (hfirst : session.initialized = false) :
    AnswerOutcome session id
      ⟨.ofHandshake id, some (.respond (.ofHandshake id)), session.record id, none⟩
  /-- It starts an operation, and the service goes on. -/
  | started (action : BrokerAction) (response : BrokerResponse)
      (hnew : id ∉ session.requestIds) (hinitialized : session.initialized = true)
      (hstarts : action.Starts id) (hid : response.id = id)
      (hready : ∀ environmentId, response ≠ .ofReady id environmentId) :
    AnswerOutcome session id ⟨response, some action, session.record id, none⟩
  /-- It connects a host. -/
  | connected (environmentId : String) (hnew : id ∉ session.requestIds)
      (hinitialized : session.initialized = true) :
    AnswerOutcome session id ⟨.ofReady id environmentId, some (.openAppServer id environmentId),
      session.record id, some environmentId⟩

variable {parse : List UInt8 → Option Value}

/-- The answer to a request, by what the session does with it. -/
theorem answer_outcome_of_accept {session : BrokerSession} {request : BrokerRequest}
    {frame : List UInt8} (hdecode : decodeRequest parse frame = .ok request) (remote : Remote) :
    AnswerOutcome session request.id (answer parse session frame remote) := by
  have houtcome := accept_outcome session request
  simp only [answer, hdecode]
  generalize session.accept request = result at houtcome
  cases houtcome with
  | rejected => exact .rejected
  | greeted hnew hfirst => exact .greeted hnew hfirst
  | started action hnew hinitialized hstarts =>
    revert hnew
    generalize request.id = id at hstarts
    intro hnew
    have herror : ∀ code environmentId,
        BrokerResponse.ofError id code ≠ .ofReady id environmentId := by
      intro code environmentId heq
      contradiction
    cases hstarts with
    | pair _ code =>
      have hpaired : ∀ hosts environmentId,
          BrokerResponse.ofPaired id hosts ≠ .ofReady id environmentId := by
        intro hosts environmentId heq
        contradiction
      cases hremote : remote.pairAndListHosts with
      | ok hosts => exact .started _ _ hnew hinitialized (.pair id code) rfl (hpaired hosts)
      | error error => exact .started _ _ hnew hinitialized (.pair id code) rfl (herror error)
    | listHosts =>
      have hhosts : ∀ hosts environmentId,
          BrokerResponse.ofHosts id hosts ≠ .ofReady id environmentId := by
        intro hosts environmentId heq
        contradiction
      cases hremote : remote.listBrokerHosts with
      | ok hosts => exact .started _ _ hnew hinitialized (.listHosts id) rfl (hhosts hosts)
      | error error => exact .started _ _ hnew hinitialized (.listHosts id) rfl (herror error)
    | openAppServer _ environmentId =>
      cases hremote : remote.openRemoteAppServer with
      | ok => exact .connected environmentId hnew hinitialized
      | error error =>
        exact .started _ _ hnew hinitialized (.openAppServer id environmentId) rfl (herror error)

/-- Every frame has one of the outcomes. -/
theorem answer_outcome (parse : List UInt8 → Option Value) (session : BrokerSession)
    (frame : List UInt8) (remote : Remote) :
    AnswerOutcome session (requestId parse frame) (answer parse session frame remote) := by
  cases hdecode : decodeRequest parse frame with
  | error =>
    simp only [answer, requestId, hdecode]
    exact .rejected
  | ok request =>
    simp only [requestId, hdecode]
    exact answer_outcome_of_accept hdecode remote

/-- A rejected frame has the answer of a rejected frame. -/
theorem answer_of_rejectsFrame {session : BrokerSession} {frame : List UInt8}
    (h : RejectsFrame parse session frame) (remote : Remote) :
    answer parse session frame remote =
      ⟨.ofError (requestId parse frame) .invalidRequest, none, session, none⟩ := by
  cases hdecode : decodeRequest parse frame with
  | error => simp only [answer, requestId, hdecode]
  | ok request =>
    obtain ⟨code, hcode⟩ := h request hdecode
    have houtcome := accept_outcome session request
    simp only [answer, requestId, hdecode]
    revert hcode
    generalize session.accept request = result at houtcome
    intro hcode
    cases houtcome with
    | rejected => rfl
    | greeted => simp at hcode
    | started => simp at hcode

/-! ### One pass of the loop -/

/-- Whether the session accepted a handshake. -/
def Output.greets (output : Output) : Bool :=
  match output.accepted with
  | some (.respond _) => true
  | _ => false

/-- The identifier of the request whose operation was started. -/
def Output.startedId (output : Output) : Option UInt64 :=
  match output.accepted with
  | some (.pair id _) | some (.listHosts id) | some (.openAppServer id _) => some id
  | _ => none

/-- The output of a pass that does nothing. -/
def Output.idle : Output := ⟨none, none⟩

/-- Whether a host was connected. -/
def Output.connects (output : Output) : Prop :=
  ∃ id environmentId, output.response = some (.ofReady id environmentId)

/-- An action that starts an operation names its request. -/
theorem startedId_of_starts {action : BrokerAction} {id : UInt64} (h : action.Starts id)
    {output : Output} (haccepted : output.accepted = some action) :
    output.startedId = some id ∧ output.greets = false := by
  simp only [Output.startedId, Output.greets, haccepted]
  cases h <;> exact ⟨rfl, rfl⟩

/-- Whether or not the response fits, the action was accepted. -/
theorem write_accepted (reply : Answer) : (write reply).1.accepted = reply.accepted := by
  unfold write
  split_ifs <;> rfl

/-- A service that goes on has the session of the answer. -/
theorem session_of_write {reply : Answer} {session : BrokerSession}
    (h : (write reply).2 = .serving session) : session = reply.session := by
  unfold write at h
  split_ifs at h
  cases hconnected : reply.connected with
  | none =>
    simp only [hconnected] at h
    exact (Broker.serving.inj h).symm
  | some environmentId => simp [hconnected] at h

/-- A service that has stopped does nothing. -/
theorem step_stopped {broker : Broker} (h : ∀ session, broker ≠ .serving session) (turn : Turn) :
    step parse broker turn = (.idle, broker) := by
  cases broker with
  | serving session => exact absurd rfl (h session)
  | ended => rfl
  | bridging => rfl

/-- A frame is answered, and the answer is written. -/
theorem step_frame {session : BrokerSession} {turn : Turn} {frame : List UInt8}
    (h : readBrokerFrame turn.line = .ok (some frame)) :
    step parse (.serving session) turn = write (answer parse session frame turn.remote) := by
  simp only [step, h]

/-- Every line is a frame but the end of the input and a line that is too long. -/
theorem exists_frame_iff {line : List UInt8} :
    (∃ frame, readBrokerFrame line = .ok (some frame)) ↔
      ¬(line = [] ∨ exceedsLimit maxBrokerFrameBytes line) := by
  unfold readBrokerFrame
  split_ifs with hnil hlong
  · simp [hnil]
  · simp [hlong]
  · simp [hnil, hlong]

/-- What is no frame ends the service without an output. -/
theorem step_not_frame (parse : List UInt8 → Option Value) (session : BrokerSession) {turn : Turn}
    (h : ∀ frame, readBrokerFrame turn.line ≠ .ok (some frame)) :
    ∃ result, step parse (.serving session) turn = (.idle, .ended result) := by
  simp only [step]
  cases hread : readBrokerFrame turn.line with
  | error error => exact ⟨_, rfl⟩
  | ok o =>
    cases o with
    | none => exact ⟨_, rfl⟩
    | some frame => exact absurd hread (h frame)

/-- A rejected frame is answered with an error and changes nothing. -/
theorem step_of_rejectsFrame {session : BrokerSession} {turn : Turn} {frame : List UInt8}
    (hread : readBrokerFrame turn.line = .ok (some frame))
    (h : RejectsFrame parse session frame) :
    step parse (.serving session) turn =
      (⟨some (.ofError (requestId parse frame) .invalidRequest), none⟩, .serving session) := by
  rw [step_frame hread, answer_of_rejectsFrame h, write, if_pos]
  exact BrokerResponse.length_toVec_ofError_le _ _

/-! ### One response for each frame -/

/-- The response to a line fits a frame, if the line gets one. -/
def ResponseFits (parse : List UInt8 → Option Value) (broker : Broker) (turn : Turn) : Prop :=
  match broker, readBrokerFrame turn.line with
  | .serving session, .ok (some frame) =>
    FitsFrame (answer parse session frame turn.remote).response
  | _, _ => True

instance (broker : Broker) (turn : Turn) : Decidable (ResponseFits parse broker turn) := by
  unfold ResponseFits
  split <;> infer_instance

/-- All responses of a run fit a frame. -/
def ResponsesFit (parse : List UInt8 → Option Value) : Broker → List Turn → Prop
  | _, [] => True
  | broker, turn :: turns =>
    ResponseFits parse broker turn ∧ ResponsesFit parse (step parse broker turn).2 turns

instance decidableResponsesFit :
    ∀ (broker : Broker) (turns : List Turn), Decidable (ResponsesFit parse broker turns)
  | _, [] => isTrue trivial
  | broker, turn :: turns =>
    @instDecidableAnd _ _ (inferInstanceAs (Decidable (ResponseFits parse broker turn)))
      (decidableResponsesFit (step parse broker turn).2 turns)

/-- A frame and the response that answers it. -/
def Answers (parse : List UInt8 → Option Value) (turn : Turn) (output : Output) : Prop :=
  ∃ frame response, readBrokerFrame turn.line = .ok (some frame) ∧
    output.response = some response ∧ response.id = requestId parse frame

/-- The first lines of a run are answered one by one; then nothing more is written, since the input
has ended, a line was too long or a host was connected. -/
structure AnswersEachFrame (parse : List UInt8 → Option Value) (turns : List Turn)
    (outputs : List Output) (served rest : List Turn) (answered : List Output) : Prop where
  /-- The lines that are served and those that are not. -/
  turns_eq : turns = served ++ rest
  /-- The outputs of the lines that are not served are empty. -/
  outputs_eq : outputs = answered ++ rest.map fun _ => .idle
  /-- Each line that is served is answered. -/
  answers : List.Forall₂ (Answers parse) served answered
  /-- Only the last response connects a host. -/
  connects_last : ∀ pre output post, answered = pre ++ output :: post → output.connects → post = []
  /-- What ends the service. -/
  ends : rest = [] ∨
    (∃ turn later, rest = turn :: later ∧
      (turn.line = [] ∨ exceedsLimit maxBrokerFrameBytes turn.line)) ∨
    ∃ before output, answered = before ++ [output] ∧ output.connects

/-- A frame whose response fits gets a response with its identifier. The service goes on, or the
response connects a host. -/
theorem step_answers {session : BrokerSession} {turn : Turn} {frame : List UInt8}
    (hread : readBrokerFrame turn.line = .ok (some frame))
    (hfit : FitsFrame (answer parse session frame turn.remote).response) :
    Answers parse turn (step parse (.serving session) turn).1 ∧
      ((∃ after, (step parse (.serving session) turn).2 = .serving after ∧
          ¬(step parse (.serving session) turn).1.connects) ∨
        (∃ environmentId, (step parse (.serving session) turn).2 = .bridging environmentId ∧
          (step parse (.serving session) turn).1.connects)) := by
  have houtcome := answer_outcome parse session frame turn.remote
  rw [step_frame hread, write, if_pos hfit]
  revert houtcome
  generalize answer parse session frame turn.remote = reply
  intro houtcome
  cases houtcome with
  | rejected =>
    refine ⟨⟨frame, _, hread, rfl, rfl⟩, Or.inl ⟨_, rfl, ?_⟩⟩
    intro h
    obtain ⟨id, environmentId, h⟩ := h
    cases h
  | greeted =>
    refine ⟨⟨frame, _, hread, rfl, rfl⟩, Or.inl ⟨_, rfl, ?_⟩⟩
    intro h
    obtain ⟨id, environmentId, h⟩ := h
    cases h
  | started action response _ _ _ hid hready =>
    refine ⟨⟨frame, response, hread, rfl, hid⟩, Or.inl ⟨_, rfl, ?_⟩⟩
    intro h
    obtain ⟨id, environmentId, h⟩ := h
    obtain rfl := Option.some.inj h
    exact hready environmentId (congrArg (BrokerResponse.ofReady · environmentId) hid)
  | connected environmentId =>
    exact ⟨⟨frame, _, hread, rfl, rfl⟩, Or.inr ⟨environmentId, rfl, _, environmentId, rfl⟩⟩

/-- A line that is served and does not end the service comes before the rest of the run. -/
theorem AnswersEachFrame.cons {turns : List Turn} {outputs : List Output}
    {served rest : List Turn} {answered : List Output}
    (h : AnswersEachFrame parse turns outputs served rest answered) {turn : Turn} {output : Output}
    (hanswers : Answers parse turn output) (hconnects : ¬output.connects) :
    AnswersEachFrame parse (turn :: turns) (output :: outputs) (turn :: served) rest
      (output :: answered) where
  turns_eq := congrArg (turn :: ·) h.turns_eq
  outputs_eq := congrArg (output :: ·) h.outputs_eq
  answers := .cons hanswers h.answers
  connects_last := by
    intro pre later post heq hlater
    cases pre with
    | nil =>
      obtain ⟨rfl, -⟩ := List.cons.inj heq
      exact absurd hlater hconnects
    | cons first pre => exact h.connects_last pre later post (List.cons.inj heq).2 hlater
  ends := by
    rcases h.ends with hrest | hturn | ⟨before, last, heq, hlast⟩
    · exact Or.inl hrest
    · exact Or.inr (Or.inl hturn)
    · exact Or.inr (Or.inr ⟨output :: before, last, congrArg (output :: ·) heq, hlast⟩)

/-- The outputs of a service that has stopped. -/
theorem outputs_eq_map_idle {broker : Broker} (h : ∀ session, broker ≠ .serving session)
    (turns : List Turn) :
    Machine.outputs (step parse) broker turns = turns.map fun _ => .idle := by
  induction turns with
  | nil => rfl
  | cons turn turns ih => rw [Machine.outputs_cons, step_stopped h, ih, List.map_cons]

/-- Every frame of a run gets one response, until the run ends. -/
theorem answers_each_frame {session : BrokerSession} {turns : List Turn}
    (hfit : ResponsesFit parse (.serving session) turns) :
    ∃ served rest answered, AnswersEachFrame parse turns
      (Machine.outputs (step parse) (.serving session) turns) served rest answered := by
  induction turns generalizing session with
  | nil => exact ⟨[], [], [], rfl, rfl, .nil, by simp, Or.inl rfl⟩
  | cons turn turns ih =>
    obtain ⟨hwrite, htail⟩ := hfit
    rw [Machine.outputs_cons]
    by_cases hframe : ∃ frame, readBrokerFrame turn.line = .ok (some frame)
    · obtain ⟨frame, hread⟩ := hframe
      simp only [ResponseFits, hread] at hwrite
      obtain ⟨hanswers, hnext⟩ := step_answers hread hwrite
      rcases hnext with ⟨after, hafter, hconnects⟩ | ⟨environmentId, hafter, hconnects⟩
      · rw [hafter] at htail ⊢
        obtain ⟨served, rest, answered, h⟩ := ih htail
        exact ⟨turn :: served, rest, _ :: answered, h.cons hanswers hconnects⟩
      · -- the service hands over to the host it has connected
        rw [hafter, outputs_eq_map_idle (by simp)]
        refine ⟨[turn], turns, [_], rfl, rfl, .cons hanswers .nil, ?_,
          Or.inr (Or.inr ⟨[], _, rfl, hconnects⟩)⟩
        intro pre output post heq _
        cases pre with
        | nil => exact (List.cons.inj heq).2.symm
        | cons first pre => simp at heq
    · have hnot : ∀ frame, readBrokerFrame turn.line ≠ .ok (some frame) :=
        fun frame h => hframe ⟨frame, h⟩
      obtain ⟨result, hstep⟩ := step_not_frame parse session hnot
      rw [hstep, outputs_eq_map_idle (by simp)]
      exact ⟨[], turn :: turns, [], rfl, rfl, .nil, by simp,
        Or.inr (Or.inl ⟨turn, turns, rfl, not_not.mp (exists_frame_iff.not.mp hframe)⟩)⟩

/-! ### The order of handshake and operations -/

/-- What the outputs so far say about the session. -/
structure Accounted (history : List Output) (session : BrokerSession) : Prop where
  /-- Once it is initialized, one handshake was accepted, and none before. -/
  greetings : (history.filter Output.greets).length = if session.initialized then 1 else 0
  /-- No two operations belong to one identifier. -/
  nodup : (history.filterMap Output.startedId).Nodup
  /-- The session has recorded the identifiers of all operations. -/
  recorded : ∀ id ∈ history.filterMap Output.startedId, id ∈ session.requestIds
  /-- A handshake comes before every operation. -/
  ordered : ∀ pre output post, history = pre ++ output :: post → output.startedId.isSome = true →
    ∃ greeting ∈ pre, greeting.greets = true

namespace Accounted

variable {history : List Output} {session : BrokerSession} {output : Output} {id : UInt64}

/-- Nothing has happened before the start. -/
theorem nil : Accounted [] .empty :=
  ⟨rfl, List.nodup_nil, by simp, by simp⟩

/-- The order of a longer history, from the order of the shorter one. -/
theorem ordered_concat (h : Accounted history session)
    (hlast : output.startedId.isSome = true → ∃ greeting ∈ history, greeting.greets = true)
    {pre : List Output} {started : Output} {post : List Output}
    (heq : history ++ [output] = pre ++ started :: post)
    (hstarted : started.startedId.isSome = true) :
    ∃ greeting ∈ pre, greeting.greets = true := by
  rcases List.eq_nil_or_concat post with rfl | ⟨init, last, rfl⟩
  · obtain ⟨rfl, hone⟩ := List.append_inj' heq rfl
    obtain rfl := List.singleton_inj.mp hone
    exact hlast hstarted
  · rw [List.concat_eq_append, ← List.cons_append, ← List.append_assoc] at heq
    obtain ⟨hinit, -⟩ := List.append_inj' heq rfl
    exact h.ordered pre started init hinit hstarted

/-- Outputs without an accepted action change nothing. -/
theorem idle (h : Accounted history session) (hidle : output.accepted = none) :
    Accounted (history ++ [output]) session := by
  have hgreets : output.greets = false := by simp [Output.greets, hidle]
  have hstarted : output.startedId = none := by simp [Output.startedId, hidle]
  refine ⟨?_, ?_, ?_, fun pre started post heq hsome =>
    h.ordered_concat (by simp [hstarted]) heq hsome⟩
  · simpa [List.filter_append, hgreets] using h.greetings
  · simpa [List.filterMap_append, hstarted] using h.nodup
  · simpa [List.filterMap_append, hstarted] using h.recorded

/-- The handshake initializes the session. -/
theorem greeted (h : Accounted history session) (hfirst : session.initialized = false)
    {response : BrokerResponse} (haccepted : output.accepted = some (.respond response)) :
    Accounted (history ++ [output]) (session.record id) := by
  have hgreets : output.greets = true := by simp [Output.greets, haccepted]
  have hstarted : output.startedId = none := by simp [Output.startedId, haccepted]
  refine ⟨?_, ?_, ?_, fun pre started post heq hsome =>
    h.ordered_concat (by simp [hstarted]) heq hsome⟩
  · have hgreetings := h.greetings
    simp only [hfirst, Bool.false_eq_true, if_false] at hgreetings
    simp [List.filter_append, hgreets, BrokerSession.record, List.length_eq_zero_iff.mp hgreetings]
  · simpa [List.filterMap_append, hstarted] using h.nodup
  · intro other hother
    have hmem : other ∈ history.filterMap Output.startedId := by
      simpa [List.filterMap_append, hstarted] using hother
    exact Finset.mem_insert_of_mem (h.recorded other hmem)

/-- An operation starts after the handshake and under a new identifier. -/
theorem started (h : Accounted history session) (hinitialized : session.initialized = true)
    (hnew : id ∉ session.requestIds) (hstarted : output.startedId = some id)
    (hgreets : output.greets = false) : Accounted (history ++ [output]) (session.record id) := by
  have hgreetings := h.greetings
  rw [if_pos hinitialized] at hgreetings
  refine ⟨?_, ?_, ?_, fun pre started post heq hsome => h.ordered_concat (fun _ => ?_) heq hsome⟩
  · simpa [List.filter_append, hgreets, BrokerSession.record] using hgreetings
  · have hfresh : id ∉ history.filterMap Output.startedId := fun hmem => hnew (h.recorded id hmem)
    have hone : [output].filterMap Output.startedId = [id] := by simp [hstarted]
    rw [List.filterMap_append, hone, ← List.concat_eq_append]
    exact h.nodup.concat hfresh
  · intro other hother
    rw [List.filterMap_append, List.mem_append] at hother
    rcases hother with hother | hother
    · exact Finset.mem_insert_of_mem (h.recorded other hother)
    · obtain rfl : other = id := by simpa [hstarted] using hother
      exact Finset.mem_insert_self other _
  · obtain ⟨greeting, hmem⟩ := List.exists_mem_of_length_pos (Nat.lt_of_lt_of_eq Nat.one_pos
      hgreetings.symm)
    exact ⟨greeting, List.mem_of_mem_filter hmem, (List.mem_filter.mp hmem).2⟩

end Accounted

/-- One pass of the loop accounts for its output. -/
theorem accounted_step {history : List Output} {session : BrokerSession}
    (h : Accounted history session) (turn : Turn) :
    ∃ after, Accounted (history ++ [(step parse (.serving session) turn).1]) after ∧
      ∀ next, (step parse (.serving session) turn).2 = .serving next → next = after := by
  by_cases hframe : ∃ frame, readBrokerFrame turn.line = .ok (some frame)
  · obtain ⟨frame, hread⟩ := hframe
    have houtcome := answer_outcome parse session frame turn.remote
    rw [step_frame hread]
    refine ⟨(answer parse session frame turn.remote).session, ?_, fun next => session_of_write⟩
    have haccepted := write_accepted (answer parse session frame turn.remote)
    revert haccepted
    generalize (write (answer parse session frame turn.remote)).1 = output
    generalize answer parse session frame turn.remote = reply at houtcome
    intro haccepted
    cases houtcome with
    | rejected => exact h.idle haccepted
    | greeted _ hfirst => exact h.greeted hfirst haccepted
    | started action _ hnew hinitialized hstarts =>
      obtain ⟨hstarted, hgreets⟩ := startedId_of_starts hstarts haccepted
      exact h.started hinitialized hnew hstarted hgreets
    | connected environmentId hnew hinitialized =>
      obtain ⟨hstarted, hgreets⟩ := startedId_of_starts (.openAppServer _ environmentId) haccepted
      exact h.started hinitialized hnew hstarted hgreets
  · have hnot : ∀ frame, readBrokerFrame turn.line ≠ .ok (some frame) :=
      fun frame h => hframe ⟨frame, h⟩
    obtain ⟨result, hstep⟩ := step_not_frame parse session hnot
    rw [hstep]
    exact ⟨session, h.idle rfl, by simp⟩

/-- Every run accounts for its outputs. -/
theorem accounted_final (parse : List UInt8 → Option Value) (turns : List Turn) :
    ∃ session, Accounted (Machine.outputs (step parse) start turns) session ∧
      ∀ next, Machine.final (step parse) start turns = .serving next → next = session := by
  refine Machine.history_induction (step parse)
    (P := fun pre broker => ∃ session, Accounted (Machine.outputs (step parse) start pre) session ∧
      ∀ next, broker = .serving next → next = session) ?_ turns ?_
  · exact ⟨.empty, .nil, fun next h => (Broker.serving.inj h).symm⟩
  · intro pre turn post _ haccounted
    obtain ⟨session, haccounted, hsession⟩ := haccounted
    rw [Machine.outputs_append]
    cases hbroker : Machine.final (step parse) start pre with
    | serving next =>
      obtain rfl := hsession next hbroker
      simpa using accounted_step haccounted turn
    | ended result =>
      refine ⟨session, by simpa [step] using haccounted.idle rfl, ?_⟩
      intro next hnext
      contradiction
    | bridging environmentId =>
      refine ⟨session, by simpa [step] using haccounted.idle rfl, ?_⟩
      intro next hnext
      contradiction

/-! ### The protocol -/

/-- The line is a frame that the service rejects. -/
def Rejected (parse : List UInt8 → Option Value) (broker : Broker) (turn : Turn) : Prop :=
  ∃ session frame, broker = .serving session ∧ readBrokerFrame turn.line = .ok (some frame) ∧
    RejectsFrame parse session frame

/-- A rejected frame is silent: the service goes on as if it had not been sent. -/
theorem silent_of_rejected {broker : Broker} {turn : Turn} (h : Rejected parse broker turn) :
    (step parse broker turn).2 = broker := by
  obtain ⟨session, frame, rfl, hread, hrejects⟩ := h
  rw [step_of_rejectsFrame hread hrejects]

/-- In every run whose responses fit: each frame gets one response with its identifier until the
input ends, a line is too long or a host is connected; every operation comes after the handshake,
of which there is at most one, and no two operations have one identifier; a rejected frame leaves
the session alone, and without rejected frames the others get the same responses. -/
theorem serves_protocol (parse : List UInt8 → Option Value) (turns : List Turn)
    (hfit : ResponsesFit parse start turns) :
    (∃ served rest answered, AnswersEachFrame parse turns
      (Machine.outputs (step parse) start turns) served rest answered) ∧
    (∀ pre output post, Machine.outputs (step parse) start turns = pre ++ output :: post →
      output.startedId.isSome = true → ∃ greeting ∈ pre, greeting.greets = true) ∧
    ((Machine.outputs (step parse) start turns).filter Output.greets).length ≤ 1 ∧
    ((Machine.outputs (step parse) start turns).filterMap Output.startedId).Nodup ∧
    (∀ session turn frame, readBrokerFrame turn.line = .ok (some frame) →
      RejectsFrame parse session frame → step parse (.serving session) turn =
        (⟨some (.ofError (requestId parse frame) .invalidRequest), none⟩, .serving session)) ∧
    ∀ ts, Machine.events ts = turns →
      Machine.InsertedSatisfy (step parse) (Rejected parse) start ts →
      Machine.originalOutputs (step parse) start ts =
        Machine.outputs (step parse) start (Machine.originals ts) := by
  obtain ⟨session, haccounted, -⟩ := accounted_final parse turns
  refine ⟨answers_each_frame hfit, haccounted.ordered, ?_, haccounted.nodup,
    fun session turn frame hread hrejects => step_of_rejectsFrame hread hrejects,
    fun ts _ hrejected => Machine.originalOutputs_eq_of_silent
      (hrejected.imp _ fun broker turn => silent_of_rejected)⟩
  rw [haccounted.greetings]
  split_ifs <;> omega

/-- A service without any remote host. -/
def noRemote : Remote := ⟨.ok [], .ok [], .error .hostNotFound⟩

/-- The document of a handshake. -/
def handshakeDocument (id : UInt64) : Value :=
  .object [("type", .string "handshake"), ("version", .ofU64 1), ("id", .ofU64 id),
    ("minimumVersion", .ofU64 1), ("maximumVersion", .ofU64 1)]

/-- The document of a `list_hosts` request. -/
def listHostsDocument (id : UInt64) : Value :=
  .object [("type", .string "list_hosts"), ("version", .ofU64 1), ("id", .ofU64 id)]

/-- A line with the text of a document. -/
def documentLine (document : Value) : List UInt8 := (plainCodec []).toVec document ++ [10]

/-- A list request before the handshake, the handshake and the list request again. -/
theorem serves_protocol_listHosts :
    let parse := (plainCodec [handshakeDocument 1, listHostsDocument 2]).fromSlice
    let turns := [listHostsDocument 2, handshakeDocument 1, listHostsDocument 2].map fun document =>
      (⟨documentLine document, noRemote⟩ : Turn)
    (Machine.outputs (step parse) start turns).map Output.response =
        [some (.ofError 2 .invalidRequest), some (.ofHandshake 1), some (.ofHosts 2 [])] ∧
      ((Machine.outputs (step parse) start turns).filter Output.greets).length ≤ 1 := by
  refine ⟨by decide +kernel, (serves_protocol _ _ ?_).2.2.1⟩
  decide +kernel

end Broker

end Rcodex
