import Rcodex.Broker.Service

/-!
# From the broker to the app server

`run_broker` reads its requests from standard input through a buffered reader.  After the first
host is connected, `bridge_stdio` reads the app messages of the client from standard input through
a reader of its own, and what the first reader still has in its buffer is not handed on.

`ServedInput` runs the loop of `run_broker` over the reads in which the input arrives.  In every
run the lines read so far and those left are the lines of the input (`partitioned_final`).  So the
handoff loses nothing exactly when the line of the `open_app_server` request ends where a read ends
(`handsOver_iff`).
-/

namespace Rcodex

open Json Result Lines

/-- `MAX_LOCAL_APP_MESSAGE_BYTES` -/
def maxLocalAppMessageBytes : ℕ := 1024 * 1024

/-- The errors of a line that is not an app message. -/
inductive AppMessageError where
  | tooLong
  | notJson
deriving DecidableEq

/-- The text of an error, as the source reports it. -/
def AppMessageError.text : AppMessageError → String
  | .tooLong => "broker app message exceeded the safety limit"
  | .notJson => "broker app message is not JSON"

/-- What `read_local_app_messages` makes of a line. -/
def appMessage (parse : List UInt8 → Option Value) (line : List UInt8) :
    Except AppMessageError Value :=
  if exceedsLimit maxLocalAppMessageBytes line then .error .tooLong
  else context .notJson (parse (trimLine line))

/-- `read_local_app_messages`: what it sends to the bridge, in at most `fuel` passes of its loop. -/
def readLocalAppMessages (parse : List UInt8 → Option Value) :
    ℕ → BufReader UInt8 → List (Except AppMessageError Value)
  | 0, _ => []
  | fuel + 1, reader =>
    let (line, reader) := reader.readUntil 10 (maxLocalAppMessageBytes + 2)
    if line = [] then []
    else
      match appMessage parse line with
      | .error error => [.error error]
      | .ok message => .ok message :: readLocalAppMessages parse fuel reader

/-- What the loop of `bridge_stdio` does with what it receives: it forwards the messages and ends
at the first error. -/
def forwardMessages : List (Except AppMessageError Value) → List Value × Except AppMessageError Unit
  | [] => ([], .ok ())
  | .ok message :: received =>
    (message :: (forwardMessages received).1, (forwardMessages received).2)
  | .error error :: _ => ([], .error error)

/-- `bridge_stdio`: the app messages it forwards, and how its input ends. A pass of the loop that
reads them takes at least one byte. -/
def bridgeStdio (parse : List UInt8 → Option Value) (reader : BufReader UInt8) :
    List Value × Except AppMessageError Unit :=
  forwardMessages (readLocalAppMessages parse (reader.bytes.length + 1) reader)

/-- Standard input: the reads in which it arrives. A read of nothing is its end. -/
structure Stdin where
  /-- The reads. -/
  reads : List (List UInt8)
  /-- No read is empty. -/
  nonempty : [] ∉ reads

/-- All bytes of the input. -/
def Stdin.bytes (stdin : Stdin) : List UInt8 := stdin.reads.flatten

/-- The lines of the input. -/
def Stdin.lines (stdin : Stdin) : List (List UInt8) := Lines.lines 10 stdin.bytes

/-- The broker, its reader and the lines it has read. -/
structure ServedInput where
  /-- The reader. -/
  reader : BufReader UInt8
  /-- The lines read so far. -/
  handled : List (List UInt8)
  /-- Where the broker is in its run. -/
  broker : Broker

namespace ServedInput

/-- `run_broker` as it starts. -/
def start (stdin : Stdin) : ServedInput := ⟨.fresh stdin.reads, [], .start⟩

/-- One pass of the loop of `run_broker`; the event is what the remote operations would answer. -/
def step (parse : List UInt8 → Option Value) (input : ServedInput) (remote : Remote) :
    Broker.Output × ServedInput :=
  match input.broker with
  | .serving _ =>
    let (line, reader) := input.reader.readUntil 10 (maxBrokerFrameBytes + 2)
    let (output, broker) := Broker.step parse input.broker ⟨line, remote⟩
    (output, ⟨reader, input.handled ++ [line], broker⟩)
  | _ => (.idle, input)

/-- The reader `bridge_stdio` makes on the rest of the standard input. -/
def bridgeReader (input : ServedInput) : BufReader UInt8 := .fresh input.reader.reads

end ServedInput

/-! ### The messages of a list of lines -/

/-- The messages of a list of lines, up to the first line that is none. -/
def appMessages (parse : List UInt8 → Option Value) :
    List (List UInt8) → List (Except AppMessageError Value)
  | [] => []
  | line :: lines =>
    match appMessage parse line with
    | .error error => [.error error]
    | .ok message => .ok message :: appMessages parse lines

variable {parse : List UInt8 → Option Value}

/-- Two bytes more than the maximum are too long, whatever the last one is. -/
theorem exceedsLimit_of_lt {maximum : ℕ} {line : List UInt8} (h : maximum + 1 < line.length) :
    exceedsLimit maximum line := by
  unfold exceedsLimit
  split_ifs <;> omega

/-- A part of a line with two bytes more than the maximum is the whole line, or both are too
long. -/
theorem take_eq_or_exceedsLimit (maximum : ℕ) (line : List UInt8) :
    line.length ≤ maximum + 2 ∧ line.take (maximum + 2) = line ∨
      exceedsLimit maximum (line.take (maximum + 2)) ∧ exceedsLimit maximum line := by
  rcases Nat.lt_or_ge (maximum + 2) line.length with hlt | hle
  · refine Or.inr ⟨exceedsLimit_of_lt ?_, exceedsLimit_of_lt (by omega)⟩
    rw [List.length_take]
    omega
  · exact Or.inl ⟨hle, List.take_of_length_le hle⟩

/-- The messages read are those of the lines of the input. -/
theorem readLocalAppMessages_eq {reads : List (List UInt8)} {given : List UInt8}
    {reader : BufReader UInt8} (hserves : Serves reads given reader) {fuel : ℕ}
    (hfuel : reader.bytes.length < fuel) :
    readLocalAppMessages parse fuel reader = appMessages parse (lines 10 reader.bytes) := by
  induction fuel generalizing given reader with
  | zero => omega
  | succ fuel ih =>
    rw [readLocalAppMessages]
    dsimp only
    cases hlines : lines 10 reader.bytes with
    | nil =>
      have hread := hserves.readUntil_of_bytes_eq_nil 10 (lines_eq_nil_iff.mp hlines)
        (maxLocalAppMessageBytes + 2)
      rw [if_pos hread, appMessages]
    | cons line rest =>
      have hne : line ≠ [] :=
        ne_nil_of_mem_lines 10 (by rw [hlines]; exact List.mem_cons_self)
      obtain ⟨hread, hafter⟩ := hserves.readUntil_eq hlines (maxLocalAppMessageBytes + 2)
      rw [hread, if_neg (by simp [hne]), appMessages]
      rcases take_eq_or_exceedsLimit maxLocalAppMessageBytes line with
        ⟨hle, htake⟩ | ⟨hpart, hline⟩
      · have hbytes := hserves.bytes_eq 10 (maxLocalAppMessageBytes + 2)
        have hnext := hserves.readUntil 10 (maxLocalAppMessageBytes + 2)
        have hshorter : (reader.readUntil 10 (maxLocalAppMessageBytes + 2)).2.bytes.length <
            fuel := by
          have hlength := congrArg List.length hbytes
          rw [hread, htake, List.length_append] at hlength
          have hpos : 0 < line.length := List.length_pos_iff.mpr hne
          omega
        rw [htake, ih hnext hshorter, hafter hle]
      · simp only [appMessage, if_pos hpart, if_pos hline]

/-- `bridge_stdio` forwards the messages of the lines of its input. -/
theorem bridgeStdio_eq {reads : List (List UInt8)} (h : [] ∉ reads) :
    bridgeStdio parse (.fresh reads) =
      forwardMessages (appMessages parse (lines 10 reads.flatten)) := by
  rw [bridgeStdio, readLocalAppMessages_eq (Serves.fresh h) (Nat.lt_succ_self _)]
  rfl

/-! ### The lines the broker reads -/

/-- The lines read and those left are the lines of the input. -/
structure Partitioned (stdin : Stdin) (input : ServedInput) : Prop where
  /-- The reader has handed out the lines read. -/
  serves : Serves stdin.reads input.handled.flatten input.reader
  /-- Nothing is lost and nothing is split. -/
  lines_eq : input.handled ++ lines 10 input.reader.bytes = stdin.lines

/-- Nothing has been read at the start. -/
theorem partitioned_start (stdin : Stdin) : Partitioned stdin (.start stdin) :=
  ⟨Serves.fresh stdin.nonempty, rfl⟩

/-- The broker has ended only after the end of the input or a line that is too long. -/
theorem ended_or_frame (parse : List UInt8 → Option Value) (session : BrokerSession)
    (turn : Turn) :
    (∃ result, (Broker.step parse (.serving session) turn).2 = .ended result) ∨
      (turn.line ≠ [] ∧ ¬exceedsLimit maxBrokerFrameBytes turn.line) := by
  by_cases hframe : turn.line = [] ∨ exceedsLimit maxBrokerFrameBytes turn.line
  · refine Or.inl ?_
    have hnot : ∀ frame, readBrokerFrame turn.line ≠ .ok (some frame) := fun frame h =>
      Broker.exists_frame_iff.mp ⟨frame, h⟩ hframe
    obtain ⟨result, hstep⟩ := Broker.step_not_frame parse session hnot
    exact ⟨result, by rw [hstep]⟩
  · exact Or.inr (not_or.mp hframe)

/-- One pass of the loop reads one whole line, or the broker ends. -/
theorem partitioned_step {stdin : Stdin} {input : ServedInput} (h : Partitioned stdin input)
    (remote : Remote) :
    (∃ result, (ServedInput.step parse input remote).2.broker = .ended result) ∨
      Partitioned stdin (ServedInput.step parse input remote).2 := by
  obtain ⟨reader, handled, broker⟩ := input
  cases broker with
  | ended result => exact Or.inl ⟨result, rfl⟩
  | bridging environmentId => exact Or.inr h
  | serving session =>
    obtain ⟨hserves, hlines⟩ := h
    simp only at hserves hlines
    rcases ended_or_frame parse session
      ⟨(reader.readUntil 10 (maxBrokerFrameBytes + 2)).1, remote⟩ with hended | ⟨hne, hfits⟩
    · exact Or.inl hended
    · refine Or.inr ⟨?_, ?_⟩
      · have hafter := hserves.readUntil 10 (maxBrokerFrameBytes + 2)
        simpa [ServedInput.step] using hafter
      · cases hleft : lines 10 reader.bytes with
        | nil =>
          exact absurd (hserves.readUntil_of_bytes_eq_nil 10 (lines_eq_nil_iff.mp hleft) _) hne
        | cons line rest =>
          obtain ⟨hread, hrest⟩ := hserves.readUntil_eq hleft (maxBrokerFrameBytes + 2)
          rw [hread] at hfits
          rcases take_eq_or_exceedsLimit maxBrokerFrameBytes line with
            ⟨hle, htake⟩ | ⟨hpart, -⟩
          · change (handled ++ [(reader.readUntil 10 (maxBrokerFrameBytes + 2)).1]) ++
              lines 10 (reader.readUntil 10 (maxBrokerFrameBytes + 2)).2.bytes = _
            rw [hread, htake, hrest hle, List.append_assoc, ← hlines, hleft]
            rfl
          · exact absurd hpart hfits

/-- A broker that has ended stays so. -/
theorem step_of_ended {input : ServedInput} {result : Except ServiceError Unit}
    (h : input.broker = .ended result) (remote : Remote) :
    (ServedInput.step parse input remote).2 = input := by
  simp only [ServedInput.step, h]

/-- In every run the lines read and those left are the lines of the input, or the broker has
ended. -/
theorem partitioned_final (parse : List UInt8 → Option Value) (stdin : Stdin)
    (remotes : List Remote) :
    (∃ result, (Machine.final (ServedInput.step parse) (.start stdin) remotes).broker =
        .ended result) ∨
      Partitioned stdin (Machine.final (ServedInput.step parse) (.start stdin) remotes) := by
  refine Machine.final_induction (ServedInput.step parse)
    (P := fun input => (∃ result, input.broker = .ended result) ∨ Partitioned stdin input)
    ?_ (Or.inr (partitioned_start stdin)) remotes
  intro input remote h
  rcases h with ⟨result, hended⟩ | h
  · rw [step_of_ended hended]
    exact Or.inl ⟨result, hended⟩
  · exact partitioned_step h remote

/-! ### The request that connects a host -/

/-- The last line read is a request to connect this host. -/
def ConnectedBy (parse : List UInt8 → Option Value) (handled : List (List UInt8))
    (environmentId : String) : Prop :=
  ∃ before line frame version id, handled = before ++ [line] ∧
    readBrokerFrame line = .ok (some frame) ∧
    decodeRequest parse frame = .ok (.openAppServer version id environmentId)

/-- Only a request to connect a host is accepted as one. -/
theorem eq_openAppServer_of_accept {session after : BrokerSession} {request : BrokerRequest}
    {id : UInt64} {environmentId : String}
    (h : session.accept request = (.ok (.openAppServer id environmentId), after)) :
    ∃ version, request = .openAppServer version id environmentId := by
  obtain ⟨initialized, requestIds⟩ := session
  unfold BrokerSession.accept at h
  dsimp only at h
  split_ifs at h
  · simp at h
  · cases request with
    | openAppServer version _ _ =>
      cases initialized with
      | false => simp at h
      | true =>
        obtain ⟨haction, -⟩ := Prod.mk.inj h
        obtain ⟨rfl, rfl⟩ := BrokerAction.openAppServer.inj (Except.ok.inj haction)
        exact ⟨version, rfl⟩
    | _ => cases initialized <;> simp at h

/-- Only a request to connect a host connects it. -/
theorem decodeRequest_of_connected {session : BrokerSession} {frame : List UInt8}
    {remote : Remote} {environmentId : String}
    (h : (answer parse session frame remote).connected = some environmentId) :
    ∃ version id, decodeRequest parse frame = .ok (.openAppServer version id environmentId) := by
  cases hdecode : decodeRequest parse frame with
  | error => simp [answer, hdecode] at h
  | ok request =>
    cases haccept : session.accept request with
    | mk result after =>
      simp only [answer, hdecode, haccept] at h
      cases result with
      | error => simp at h
      | ok action =>
        cases action with
        | respond => simp at h
        | pair => cases hremote : remote.pairAndListHosts <;> simp [hremote] at h
        | listHosts => cases hremote : remote.listBrokerHosts <;> simp [hremote] at h
        | openAppServer id environment =>
          obtain ⟨version, rfl⟩ := eq_openAppServer_of_accept haccept
          cases hremote : remote.openRemoteAppServer with
          | error => simp [hremote] at h
          | ok =>
            simp only [hremote, Option.some.injEq] at h
            exact ⟨version, id, by rw [h]⟩

/-- The broker that connects a host has just read the request for it. -/
theorem connectedBy_step {input : ServedInput} {remote : Remote} {environmentId : String}
    (h : ∀ environmentId, input.broker = .bridging environmentId →
      ConnectedBy parse input.handled environmentId)
    (hconnected : (ServedInput.step parse input remote).2.broker = .bridging environmentId) :
    ConnectedBy parse (ServedInput.step parse input remote).2.handled environmentId := by
  obtain ⟨reader, handled, broker⟩ := input
  cases broker with
  | ended => simp [ServedInput.step] at hconnected
  | bridging => exact h _ hconnected
  | serving session =>
    simp only [ServedInput.step] at hconnected ⊢
    generalize (reader.readUntil 10 (maxBrokerFrameBytes + 2)).1 = line at hconnected ⊢
    cases hread : readBrokerFrame line with
    | error => simp [Broker.step, hread] at hconnected
    | ok o =>
      cases o with
      | none => simp [Broker.step, hread] at hconnected
      | some frame =>
        have hread' : readBrokerFrame (Turn.line ⟨line, remote⟩) = .ok (some frame) := hread
        rw [Broker.step_frame hread', Broker.write] at hconnected
        split_ifs at hconnected
        cases hanswer : (answer parse session frame remote).connected with
        | none => simp [hanswer] at hconnected
        | some environment =>
          simp only [hanswer, Broker.bridging.injEq] at hconnected
          obtain ⟨version, id, hdecode⟩ := decodeRequest_of_connected hanswer
          exact ⟨handled, line, frame, version, id, rfl, hread, hconnected ▸ hdecode⟩

/-- In every run the last line read before the handoff is the request for the host. -/
theorem connectedBy_final (parse : List UInt8 → Option Value) (stdin : Stdin)
    (remotes : List Remote) {environmentId : String}
    (h : (Machine.final (ServedInput.step parse) (.start stdin) remotes).broker =
      .bridging environmentId) :
    ConnectedBy parse (Machine.final (ServedInput.step parse) (.start stdin) remotes).handled
      environmentId := by
  refine Machine.final_induction (ServedInput.step parse)
    (P := fun input => ∀ environmentId, input.broker = .bridging environmentId →
      ConnectedBy parse input.handled environmentId) ?_ ?_ remotes environmentId h
  · exact fun input remote hinput environmentId => connectedBy_step hinput
  · intro environmentId hbroker
    contradiction

/-! ### The handoff -/

/-- The line with this number ends where a read ends. -/
def Stdin.EndsWithRead (stdin : Stdin) (n : ℕ) : Prop :=
  ∃ k, (stdin.reads.take k).flatten = (stdin.lines.take n).flatten

/-- The handoff loses nothing: the lines the broker has read and those of the input of the bridge
are the lines of the input, and the bridge forwards the messages of the lines that follow. -/
structure HandsOver (parse : List UInt8 → Option Value) (stdin : Stdin) (input : ServedInput) :
    Prop where
  /-- Every line is read once. -/
  lines_eq : input.handled ++ lines 10 input.bridgeReader.bytes = stdin.lines
  /-- The messages of the lines that follow are forwarded in order. -/
  forwards : bridgeStdio parse input.bridgeReader =
    forwardMessages (appMessages parse (stdin.lines.drop input.handled.length))

/-- When a host is connected, the broker has read the first lines of the input, the last of them
the request to connect it; the handoff loses nothing exactly when this line ends where a read
ends. -/
theorem handsOver_iff (parse : List UInt8 → Option Value) (stdin : Stdin) (remotes : List Remote)
    {input : ServedInput} {environmentId : String}
    (hfinal : Machine.final (ServedInput.step parse) (.start stdin) remotes = input)
    (hconnected : input.broker = .bridging environmentId) :
    input.handled = stdin.lines.take input.handled.length ∧
      ConnectedBy parse input.handled environmentId ∧
      (HandsOver parse stdin input ↔ stdin.EndsWithRead input.handled.length) := by
  subst hfinal
  have hpartitioned : Partitioned stdin
      (Machine.final (ServedInput.step parse) (.start stdin) remotes) := by
    rcases partitioned_final parse stdin remotes with ⟨result, hended⟩ | h
    · rw [hended] at hconnected
      contradiction
    · exact h
  have hconnectedBy := connectedBy_final parse stdin remotes hconnected
  generalize Machine.final (ServedInput.step parse) (.start stdin) remotes = input at *
  obtain ⟨hserves, hlines⟩ := hpartitioned
  have htake : input.handled = stdin.lines.take input.handled.length := by
    rw [← hlines, List.take_left]
  have hdrop : stdin.lines.drop input.handled.length = lines 10 input.reader.bytes := by
    rw [← hlines, List.drop_left]
  refine ⟨htake, hconnectedBy, ?_⟩
  rw [Stdin.EndsWithRead, ← htake, ← hserves.buffer_eq_nil_iff]
  constructor
  · intro h
    -- the bridge is given all that is left, so nothing is left in the buffer
    have hleft : lines 10 input.bridgeReader.bytes = lines 10 input.reader.bytes :=
      List.append_cancel_left (h.lines_eq.trans hlines.symm)
    have hbytes := congrArg List.flatten hleft
    rw [flatten_lines, flatten_lines] at hbytes
    exact List.self_eq_append_left.mp hbytes
  · intro hbuffer
    have hbytes : input.bridgeReader.bytes = input.reader.bytes := by
      rw [ServedInput.bridgeReader, BufReader.fresh, BufReader.bytes, BufReader.bytes, hbuffer]
    have hreads : [] ∉ input.reader.reads := by
      obtain ⟨taken, heq, -⟩ := hserves.pieces
      intro hmem
      exact stdin.nonempty (by rw [heq]; exact List.mem_append_right _ hmem)
    refine ⟨by rw [hbytes]; exact hlines, ?_⟩
    rw [ServedInput.bridgeReader, bridgeStdio_eq hreads, hdrop, ← hbytes]
    rfl

/-- The document of an `open_app_server` request. -/
def openAppServerDocument (id : UInt64) (environmentId : String) : Value :=
  .object [("type", .string "open_app_server"), ("version", .ofU64 1), ("id", .ofU64 id),
    ("environmentId", .string environmentId)]

/-- A handshake, a request to connect a host and an app message. -/
def attachingLines : List (List UInt8) :=
  [Broker.documentLine (Broker.handshakeDocument 1),
    Broker.documentLine (openAppServerDocument 2 "mac"), Broker.documentLine (.object [])]

/-- A parser that knows these documents. -/
def attachingParse : List UInt8 → Option Value :=
  (plainCodec [Broker.handshakeDocument 1, openAppServerDocument 2 "mac", .object []]).fromSlice

/-- Remote operations that find the host. -/
def attachingRemote : Remote := ⟨.ok [], .ok [], .ok ()⟩

/-- A client that waits for each answer loses nothing. -/
theorem handsOver_waiting :
    let stdin : Stdin := ⟨attachingLines, by decide +kernel⟩
    HandsOver attachingParse stdin (Machine.final (ServedInput.step attachingParse) (.start stdin)
      [attachingRemote, attachingRemote]) := by
  intro stdin
  refine (@handsOver_iff attachingParse stdin _ _ "mac" rfl ?_).2.2.mpr ⟨2, ?_⟩
  · decide +kernel
  · decide +kernel

/-- The three lines arrive in one read: the app message is lost. -/
theorem not_handsOver_together :
    let stdin : Stdin := ⟨[attachingLines.flatten], by decide +kernel⟩
    let input := Machine.final (ServedInput.step attachingParse) (.start stdin)
      [attachingRemote, attachingRemote]
    input.broker = .bridging "mac" ∧ input.handled = attachingLines.take 2 ∧
      (bridgeStdio attachingParse input.bridgeReader).1 = [] ∧
      (forwardMessages (appMessages attachingParse (stdin.lines.drop 2))).1 = [.object []] ∧
      ¬HandsOver attachingParse stdin input := by
  intro stdin input
  have hhandled : input.handled = attachingLines.take 2 := by decide +kernel
  have hforwarded : (bridgeStdio attachingParse input.bridgeReader).1 = [] := by decide +kernel
  have hfollowing :
      (forwardMessages (appMessages attachingParse (stdin.lines.drop 2))).1 = [.object []] := by
    decide +kernel
  refine ⟨by decide +kernel, hhandled, hforwarded, hfollowing, fun h => ?_⟩
  have heq := congrArg Prod.fst h.forwards
  have hlength : input.handled.length = 2 := by decide +kernel
  rw [hforwarded, hlength, hfollowing] at heq
  cases heq

end Rcodex
