import Rcodex.Controller.Traffic

/-!
# What both sides of a bridge read

The texts that a bridge sends to the relay are the wire stream of its transport, and those that it
hands to the local side are the messages that the transport delivers.  `runBridge_lossless` follows
the messages of the local side through a whole run: whenever the bridge waits, is closed or fails,
the relay can read every message that was taken before the input that stopped it, in order, none
lost and none twice.
-/

namespace Rcodex

open Json Result RelayTransport

/-- The text of a frame. -/
def Frame.asText : Frame → Option (List UInt8)
  | .text bytes => some bytes
  | _ => none

/-- The texts of frames. -/
def frameTexts (frames : List Frame) : List (List UInt8) := frames.filterMap Frame.asText

/-- The payload of an answer to a ping. -/
def Frame.asPong : Frame → Option (List UInt8)
  | .pong payload => some payload
  | _ => none

/-- The message that an output hands to the app. -/
def handedMessage : Output → Option Value
  | .received (.ok message) => message
  | _ => none

/-- The messages that a run hands to the app. -/
def handedMessages (C : Codec) (t : RelayTransport) (es : List Event) : List Value :=
  (Machine.outputs (step C) t es).filterMap handedMessage

section Texts

variable {ι ω : Type} {C : Codec} {side : LocalSide ι ω} {t : RelayTransport}

/-- The message that an input of the local side is. -/
def inputMessage (side : LocalSide ι ω) : BridgeInput ι → Option Value
  | .fromLocal input _ =>
    match side.take input with
    | .message message => some message
    | _ => none
  | .fromRelay _ => none

/-- The messages of the local side. -/
def inputMessages (side : LocalSide ι ω) (inputs : List (BridgeInput ι)) : List Value :=
  inputs.filterMap (inputMessage side)

/-- The payload of a ping of the relay. -/
def relayPing : BridgeInput ι → Option (List UInt8)
  | .fromRelay (some (.ok (.ping payload))) => some payload
  | _ => none

/-- The messages of the local side are those of the transport. -/
theorem messagesOf_bridgeEvents (inputs : List (BridgeInput ι)) :
    messagesOf (bridgeEvents C side inputs) = inputMessages side inputs := by
  rw [messagesOf, bridgeEvents, List.filterMap_filterMap]
  refine List.filterMap_congr fun input _ => ?_
  cases input with
  | fromLocal input fresh =>
    cases htake : side.take input <;> simp [bridgeEvent, inputMessage, htake, Event.message]
  | fromRelay received =>
    rcases received with _ | _ | frame
    · rfl
    · rfl
    · cases frame <;> simp [bridgeEvent, inputMessage, Event.message]

/-- The texts of an output. -/
theorem frameTexts_outputFrames (output : Output) :
    frameTexts (outputFrames C output) = (output.frames.getD []).map C.toVec := by
  have hsegments : ∀ segments : List Value,
      frameTexts (segmentFrames C segments) = segments.map C.toVec := by
    intro segments
    have hcomp : Frame.asText ∘ (fun segment => .text (C.toVec segment)) = some ∘ C.toVec := rfl
    rw [frameTexts, segmentFrames, List.filterMap_map, hcomp, List.filterMap_eq_map]
  cases output with
  | emitted result =>
    rcases result with _ | _ | segments
    · rfl
    · rfl
    · exact hsegments segments
  | received result => rfl

/-- The texts at the relay are the wire stream of the transport. -/
theorem frameTexts_relayFrames (inputs : List (BridgeInput ι)) :
    frameTexts (relayFrames C side t inputs) =
      (wire C t (bridgeEvents C side inputs)).map C.toVec := by
  induction inputs generalizing t with
  | nil => rfl
  | cons input inputs ih =>
    have hfirst : frameTexts (relayFrames C side t (input :: inputs)) =
        frameTexts (carry C side t input).1.1 ++
          frameTexts (relayFrames C side (carry C side t input).2 inputs) := by
      rw [frameTexts, frameTexts, frameTexts, ← List.filterMap_append]
      rfl
    rw [hfirst, ih]
    cases hevent : bridgeEvent C side input with
    | none =>
      have hevents : bridgeEvents C side (input :: inputs) = bridgeEvents C side inputs :=
        List.filterMap_cons_none hevent
      have hanswer : frameTexts (relayAnswer input) = [] := by
        unfold relayAnswer
        split <;> rfl
      rw [carry_of_no_event hevent, hanswer, List.nil_append, hevents]
    | some event =>
      have hevents : bridgeEvents C side (input :: inputs) = event :: bridgeEvents C side inputs :=
        List.filterMap_cons_some hevent
      have hwire : wire C t (event :: bridgeEvents C side inputs) =
          (step C t event).1.frames.getD [] ++
            wire C (step C t event).2 (bridgeEvents C side inputs) := by
        unfold wire emittedFrames
        rw [Machine.outputs_cons, List.filterMap_cons]
        cases (step C t event).1.frames <;> rfl
      rw [carry_of_event hevent, frameTexts_outputFrames, hevents, hwire, List.map_append]

/-- The bridge answers the pings of the relay, in order, with their payloads. -/
theorem pongs_relayFrames (inputs : List (BridgeInput ι)) :
    (relayFrames C side t inputs).filterMap Frame.asPong = inputs.filterMap relayPing := by
  induction inputs generalizing t with
  | nil => rfl
  | cons input inputs ih =>
    have hfirst : (relayFrames C side t (input :: inputs)).filterMap Frame.asPong =
        (carry C side t input).1.1.filterMap Frame.asPong ++
          (relayFrames C side (carry C side t input).2 inputs).filterMap Frame.asPong := by
      rw [← List.filterMap_append]
      rfl
    have hlast : (input :: inputs).filterMap relayPing =
        (relayPing input).toList ++ inputs.filterMap relayPing := by
      rw [List.filterMap_cons]
      cases relayPing input <;> rfl
    rw [hfirst, ih, hlast]
    cases hevent : bridgeEvent C side input with
    | none =>
      have hanswer : (relayAnswer input).filterMap Frame.asPong = (relayPing input).toList := by
        cases input with
        | fromLocal input fresh => rfl
        | fromRelay received =>
          rcases received with _ | _ | frame
          · rfl
          · rfl
          · cases frame <;> rfl
      rw [carry_of_no_event hevent, hanswer]
    | some event =>
      have hnot : relayPing input = none := by
        unfold relayPing
        split
        · simp [bridgeEvent] at hevent
        · rfl
      have hnone : (outputFrames C (t.step C event).1).filterMap Frame.asPong = [] := by
        unfold outputFrames
        split
        · rw [segmentFrames, List.filterMap_map]
          exact List.filterMap_eq_nil_iff.mpr fun _ _ => rfl
        · rfl
      rw [carry_of_event hevent, hnot, hnone]
      rfl

end Texts

/-! ### The relay reads the messages of the local side -/

section Reads

variable {ι ω : Type} {C : Codec} {side : LocalSide ι ω} {outside : BridgeOutside ω}
  {clientId environmentId streamId : String}

/-- The streams of a part of a run. -/
theorem nodup_streamsOf_of_append {es es' : List Event}
    (h : (streamsOf streamId (es ++ es')).Nodup) : (streamsOf streamId es).Nodup := by
  rw [streamsOf_append] at h
  exact (List.nodup_append.mp h).1

/-- A run sends at most one message for each event. -/
theorem length_sendings_le (es : List Event) : (sendings streamId es).length ≤ es.length := by
  rw [sendings]
  exact (List.length_filterMap_le _ _).trans (Machine.length_outputs _ _ _).le

/-- The relay reads the messages of a run that sends everything. -/
theorem readWire_wire (hC : C.Lawful) {es : List Event}
    (hsent : ∀ o ∈ Machine.outputs (step C) (connect clientId environmentId streamId) es,
      o.isSent = true)
    (hparse : ∀ message ∈ messagesOf es, C.fromSlice (C.toVec message) = some message)
    (hfresh : (streamsOf streamId es).Nodup) (hcount : es.length < 2 ^ 64) :
    readWire C (wire C (connect clientId environmentId streamId) es) = some (messagesOf es) := by
  have hnumbered := numbered_sendings hfresh
  have hseq : ∀ s ∈ sendings streamId es, s.seqId < 2 ^ 64 := by
    intro s hs
    have hle := hnumbered.seqId_le hs
    have hstream : (onStream s.streamId (sendings streamId es)).length ≤ es.length :=
      (List.length_filter_le _ _).trans (length_sendings_le es)
    omega
  have hinit : Represents clientId environmentId ⟨streamId, 0⟩
      (connect clientId environmentId streamId) := ⟨rfl, rfl, rfl, rfl⟩
  have hframed : List.Forall₂ (Framed C clientId environmentId) (sendings streamId es)
      (emittedFrames C (connect clientId environmentId streamId) es) :=
    forall₂_framed (Machine.outputs_related (fun _ _ e h => h.step e)
      (fun _ _ e h => h.carries hC.toVec_ne_nil e) hinit es) hsent hseq
  rw [wire, readWire_flatten hC hframed (fun s hs => hparse _ ?_) hseq hnumbered.nodup,
    map_message_sendings]
  rw [← map_message_sendings streamId es]
  exact List.mem_map_of_mem hs

/-- An output that is no error was sent. -/
theorem isSent_of_succeeds {output : Output} (h : outputSucceeds side output = true) :
    output.isSent = true := by
  cases output with
  | received result => rfl
  | emitted result =>
    rcases result with _ | _ | segments
    · exact h
    · exact h
    · rfl

/-- What is needed for the relay to read everything: the messages can be parsed again, no
identifier of a stream is used twice, and there are fewer inputs than numbers. -/
structure Readable (C : Codec) (side : LocalSide ι ω) (streamId : String)
    (inputs : List (BridgeInput ι)) : Prop where
  /-- The messages. -/
  parses : ∀ message ∈ inputMessages side inputs, C.fromSlice (C.toVec message) = some message
  /-- The streams. -/
  fresh : (streamsOf streamId (bridgeEvents C side inputs)).Nodup
  /-- The numbers. -/
  count : inputs.length < 2 ^ 64

/-- A part of the inputs. -/
theorem Readable.of_append {inputs more : List (BridgeInput ι)}
    (h : Readable C side streamId (inputs ++ more)) : Readable C side streamId inputs := by
  obtain ⟨hparses, hfresh, hcount⟩ := h
  refine ⟨fun message hmessage => hparses message ?_, ?_, ?_⟩
  · rw [inputMessages, List.filterMap_append]
    exact List.mem_append_left _ hmessage
  · rw [bridgeEvents, List.filterMap_append] at hfresh
    exact nodup_streamsOf_of_append hfresh
  · rw [List.length_append] at hcount
    omega

/-- The relay reads these messages from the texts that have arrived. -/
def RelayReads (C : Codec) (relayed : List Frame) (messages : List Value) : Prop :=
  ∃ frames, frameTexts relayed = frames.map C.toVec ∧ readWire C frames = some messages

/-- A bridge that has carried its inputs. -/
theorem Carried.relayReads (hC : C.Lawful) {inputs : List (BridgeInput ι)} {bridge : Bridge ω}
    (h : Carried C side (connect clientId environmentId streamId) inputs bridge)
    (hreadable : Readable C side streamId inputs) :
    RelayReads C bridge.relayed (inputMessages side inputs) := by
  have hlength : (bridgeEvents C side inputs).length ≤ inputs.length :=
    List.length_filterMap_le _ _
  refine ⟨wire C (connect clientId environmentId streamId) (bridgeEvents C side inputs), ?_, ?_⟩
  · rw [h.relayed, frameTexts_relayFrames]
  · rw [← messagesOf_bridgeEvents (C := C)]
    refine readWire_wire hC (fun o ho => isSent_of_succeeds (h.succeeded o ho)) ?_ hreadable.fresh
      (hlength.trans_lt hreadable.count)
    rw [messagesOf_bridgeEvents]
    exact hreadable.parses

/-- The relay reads what was taken before a bridge stops. -/
theorem StopsAt.relayReads (hC : C.Lawful) {inputs taken : List (BridgeInput ι)}
    {last : BridgeInput ι} {waiting bridge : Bridge ω}
    (hstops : StopsAt C side outside (connect clientId environmentId streamId) inputs taken last
      waiting bridge)
    (hcarried : Carried C side (connect clientId environmentId streamId) taken waiting)
    (hreadable : Readable C side streamId inputs) :
    RelayReads C waiting.relayed (inputMessages side taken) := by
  obtain ⟨left, rfl⟩ := hstops.inputs_eq
  exact hcarried.relayReads hC hreadable.of_append

/-- Whatever both sides send, and whichever writes fail: of a bridge that waits, the relay reads
every message that was taken, in order, none lost and none twice.  A bridge that has ended was
stopped by one input, and of what had arrived before it the relay reads the same.  A bridge that the
local side has ended sends a closing envelope and nothing else after that, and one that has failed a
part of what the last input makes it send. -/
theorem runBridge_lossless (hC : C.Lawful) {inputs : List (BridgeInput ι)}
    (hreadable : Readable C side streamId inputs) :
    Effect.Triple (· = Bridge.start ω (connect clientId environmentId streamId))
      (runBridge C side outside inputs)
      (fun waits bridge =>
        if waits = true then RelayReads C bridge.relayed (inputMessages side inputs)
        else ∃ taken last waiting closing,
          StopsAt C side outside (connect clientId environmentId streamId) inputs taken last
            waiting bridge ∧ EndsBridge side last ∧
          RelayReads C waiting.relayed (inputMessages side taken) ∧
          bridge.relayed = waiting.relayed ++ closing ∧
          closing <+: [.text (C.toVec waiting.transport.closing)])
      fun _ bridge => ∃ taken last waiting sent,
        StopsAt C side outside (connect clientId environmentId streamId) inputs taken last
          waiting bridge ∧
        RelayReads C waiting.relayed (inputMessages side taken) ∧
        bridge.relayed = waiting.relayed ++ sent ∧
        sent <+: (carry C side waiting.transport last).1.1 := by
  refine (runBridge_carries (connect clientId environmentId streamId) inputs).conseq
    (fun _ h => h) (fun waits bridge h => ?_) fun _ bridge h => ?_
  · cases waits with
    | true => exact Carried.relayReads hC h hreadable
    | false =>
      obtain ⟨taken, last, waiting, hstops, hends, hcarried, closing, hclosing, hbridge⟩ := h
      refine ⟨taken, last, waiting, closing, hstops, hends,
        hstops.relayReads hC hcarried hreadable, ?_, hclosing⟩
      rw [hbridge]
  · obtain ⟨taken, last, waiting, hstops, hcarried, sent, written, hsent, -, hgrown⟩ := h
    exact ⟨taken, last, waiting, sent, hstops, hstops.relayReads hC hcarried hreadable,
      hgrown.relayed, hsent⟩

end Reads

/-- A message of the local Codex, a ping of the relay, and the end of the local Codex. -/
def closedInputs : List (BridgeInput Received) :=
  [.fromLocal (some (.ok (.text [123, 125]))) "", .fromRelay (some (.ok (.ping [1]))),
    .fromLocal none ""]

/-- The local Codex of this run, whose messages are objects without members. -/
def closedSide : LocalSide Received Frame := websocketSide (plainCodec [.object []])

/-- The relay reads the message of this run, whichever writes fail. -/
theorem runBridge_lossless_closedInputs :
    Effect.Triple (· = Bridge.start Frame (connect "client" "env" "stream"))
      (runBridge (plainCodec [.object []]) closedSide ⟨fun _ _ => .done, fun _ _ => .done⟩
        closedInputs)
      (fun waits bridge =>
        if waits = true then
          RelayReads (plainCodec [.object []]) bridge.relayed
            (inputMessages closedSide closedInputs)
        else ∃ taken last waiting closing,
          StopsAt (plainCodec [.object []]) closedSide ⟨fun _ _ => .done, fun _ _ => .done⟩
            (connect "client" "env" "stream") closedInputs taken last waiting bridge ∧
          EndsBridge closedSide last ∧
          RelayReads (plainCodec [.object []]) waiting.relayed (inputMessages closedSide taken) ∧
          bridge.relayed = waiting.relayed ++ closing ∧
          closing <+: [.text ((plainCodec [.object []]).toVec waiting.transport.closing)])
      fun _ bridge => ∃ taken last waiting sent,
        StopsAt (plainCodec [.object []]) closedSide ⟨fun _ _ => .done, fun _ _ => .done⟩
          (connect "client" "env" "stream") closedInputs taken last waiting bridge ∧
        RelayReads (plainCodec [.object []]) waiting.relayed (inputMessages closedSide taken) ∧
        bridge.relayed = waiting.relayed ++ sent ∧
        sent <+: (carry (plainCodec [.object []]) closedSide waiting.transport last).1.1 :=
  runBridge_lossless (lawful_plainCodec _)
    ⟨by decide +kernel, by decide +kernel, by decide⟩

/-! ### From standard input to the relay -/

section Stdin

variable {C : Codec} {outside : BridgeOutside (List UInt8)}
  {clientId environmentId streamId : String}

/-- What the bridge receives from the reader of standard input: what the reader sends, and then the
end of the channel. -/
def stdinChannel (C : Codec) (reads : List (List UInt8)) :
    List (Option (Except InputError Value)) :=
  (readLocalAppMessages C.fromSlice (reads.flatten.length + 1) (.fresh reads)).map
    (fun message => some (message.mapError .message)) ++ [none]

/-- An input of the local side. -/
def localInput {ι : Type} : BridgeInput ι → Option ι
  | .fromLocal input _ => some input
  | .fromRelay _ => none

/-- The local side has sent messages as lines, each within the limit. -/
structure SendsLines (C : Codec) (messages : List Value) (reads : List (List UInt8)) : Prop where
  /-- Standard input arrives in some pieces. -/
  pieces : [] ∉ reads
  /-- Its lines are the messages. -/
  lines : reads.flatten = (messages.map fun message => C.toVec message ++ [10]).flatten
  /-- Compact JSON has no line ends. -/
  plain : ∀ message ∈ messages, 10 ∉ C.toVec message ∧ 13 ∉ C.toVec message
  /-- The messages can be parsed again. -/
  parses : ∀ message ∈ messages, C.fromSlice (C.toVec message) = some message
  /-- The limit. -/
  within : ∀ message ∈ messages, (C.toVec message).length ≤ maxLocalAppMessageBytes

/-- The reader sends the messages and closes the channel. -/
theorem SendsLines.stdinChannel_eq {messages : List Value} {reads : List (List UInt8)}
    (h : SendsLines C messages reads) :
    stdinChannel C reads = messages.map (fun message => some (.ok message)) ++ [none] := by
  have hlines : Lines.lines 10 reads.flatten = (messages.map C.toVec).map (· ++ [10]) := by
    have htexts : reads.flatten = ((messages.map C.toVec).map (· ++ [10])).flatten := by
      rw [h.lines, List.map_map]
      rfl
    rw [htexts, lines_flatten_map]
    intro text htext
    obtain ⟨message, hmessage, rfl⟩ := List.mem_map.mp htext
    exact (h.plain message hmessage).1
  have hread : readLocalAppMessages C.fromSlice (reads.flatten.length + 1) (.fresh reads) =
      messages.map .ok := by
    rw [readLocalAppMessages_fresh h.pieces (Nat.lt_succ_self _), hlines, List.map_map,
      List.map_map, ← uptoError_map_ok]
    congr 1
    refine List.map_congr_left fun message hmessage => ?_
    simp only [Function.comp_apply, Lines.content_append_mark]
    exact lineMessage_toVec (h.parses message hmessage) (h.plain message hmessage).2
      (h.within message hmessage)
  rw [stdinChannel, hread, List.map_map]
  rfl

/-- The messages of the inputs of standard input. -/
theorem inputMessages_stdioSide (inputs : List (BridgeInput (Option (Except InputError Value)))) :
    inputMessages (stdioSide C) inputs = (inputs.filterMap localInput).filterMap
      fun input => input.bind Except.toOption := by
  rw [inputMessages, List.filterMap_filterMap]
  refine List.filterMap_congr fun input _ => ?_
  cases input with
  | fromLocal input fresh => rcases input with _ | _ | message <;> rfl
  | fromRelay received => rfl

/-- The first end of a list that ends with it. -/
theorem eq_of_append_cons_prefix {α : Type} {l before after : List α} {a : α} (ha : a ∉ l)
    (h : before ++ a :: after <+: l ++ [a]) : before = l := by
  induction l generalizing before with
  | nil =>
    have hlength := h.length_le
    rw [List.length_append, List.length_cons, List.nil_append, List.length_singleton] at hlength
    exact List.length_eq_zero_iff.mp (by omega)
  | cons x l ih =>
    obtain ⟨hne, htail⟩ := not_or.mp (List.mem_cons.not.mp ha)
    cases before with
    | nil => exact absurd (List.cons_prefix_cons.mp h).1 hne
    | cons y before =>
      obtain ⟨rfl, hrest⟩ := List.cons_prefix_cons.mp h
      rw [ih htail hrest]

/-- The messages that standard input has sent are a first part of all, and all if it has ended. -/
theorem SendsLines.inputMessages_prefix {messages : List Value} {reads : List (List UInt8)}
    (h : SendsLines C messages reads)
    {inputs : List (BridgeInput (Option (Except InputError Value)))}
    (hfed : inputs.filterMap localInput <+: stdinChannel C reads) :
    inputMessages (stdioSide C) inputs <+: messages := by
  rw [h.stdinChannel_eq] at hfed
  have hall : (messages.map (fun message => some (.ok message)) ++
      [none] : List (Option (Except InputError Value))).filterMap
        (fun input => input.bind Except.toOption) = messages := by
    rw [List.filterMap_append, List.filterMap_map]
    simp [Function.comp_def, Except.toOption]
  rw [inputMessages_stdioSide]
  refine (hfed.filterMap _).trans ?_
  rw [hall]

/-- When standard input has ended, all messages were taken before. -/
theorem SendsLines.inputMessages_eq {messages : List Value} {reads : List (List UInt8)}
    (h : SendsLines C messages reads)
    {before left : List (BridgeInput (Option (Except InputError Value)))}
    {last : BridgeInput (Option (Except InputError Value))}
    (hends : EndsBridge (stdioSide C) last)
    (hfed : (before ++ last :: left).filterMap localInput <+: stdinChannel C reads) :
    inputMessages (stdioSide C) before = messages := by
  have hlast : localInput last = some none := by
    cases last with
    | fromLocal input fresh =>
      rcases input with _ | _ | message
      · rfl
      · simp [EndsBridge, stdioSide] at hends
      · simp [EndsBridge, stdioSide] at hends
    | fromRelay received => exact hends.elim
  rw [h.stdinChannel_eq, List.filterMap_append, List.filterMap_cons_some hlast] at hfed
  have hbefore := eq_of_append_cons_prefix (by simp) hfed
  rw [inputMessages_stdioSide, hbefore, List.filterMap_map]
  simp [Function.comp_def, Except.toOption]

/-- From the bytes of standard input to the envelopes of the relay: however the bytes arrive and
whatever the relay sends meanwhile, the relay reads the messages that were taken, which are a first
part of those of standard input, in order, and all of them when standard input has ended the
bridge. -/
theorem bridgeApp_delivers (hC : C.Lawful) {messages : List Value} {reads : List (List UInt8)}
    (hsends : SendsLines C messages reads)
    {inputs : List (BridgeInput (Option (Except InputError Value)))}
    (hfed : inputs.filterMap localInput <+: stdinChannel C reads)
    (hfresh : (streamsOf streamId (bridgeEvents C (stdioSide C) inputs)).Nodup)
    (hcount : inputs.length < 2 ^ 64) :
    Effect.Triple (· = Bridge.start (List UInt8) (connect clientId environmentId streamId))
      (bridgeApp C outside inputs)
      (fun waits bridge =>
        if waits = true then
          RelayReads C bridge.relayed (inputMessages (stdioSide C) inputs) ∧
          inputMessages (stdioSide C) inputs <+: messages
        else ∃ taken last waiting closing,
          StopsAt C (stdioSide C) outside (connect clientId environmentId streamId) inputs taken
            last waiting bridge ∧ EndsBridge (stdioSide C) last ∧
          RelayReads C waiting.relayed messages ∧ bridge.relayed = waiting.relayed ++ closing ∧
          closing <+: [.text (C.toVec waiting.transport.closing)])
      fun _ bridge => ∃ taken last waiting sent,
        StopsAt C (stdioSide C) outside (connect clientId environmentId streamId) inputs taken
          last waiting bridge ∧
        RelayReads C waiting.relayed (inputMessages (stdioSide C) taken) ∧
        inputMessages (stdioSide C) taken <+: messages ∧
        bridge.relayed = waiting.relayed ++ sent ∧
        sent <+: (carry C (stdioSide C) waiting.transport last).1.1 := by
  have hreadable : Readable C (stdioSide C) streamId inputs := by
    refine ⟨fun message hmessage => hsends.parses message ?_, hfresh, hcount⟩
    exact (hsends.inputMessages_prefix hfed).subset hmessage
  refine (runBridge_carries (connect clientId environmentId streamId) inputs).conseq
    (fun _ h => h) (fun waits bridge h => ?_) fun _ bridge h => ?_
  · cases waits with
    | true => exact ⟨Carried.relayReads hC h hreadable, hsends.inputMessages_prefix hfed⟩
    | false =>
      obtain ⟨taken, last, waiting, hstops, hends, hcarried, closing, hclosing, hbridge⟩ := h
      have hreads := hstops.relayReads hC hcarried hreadable
      obtain ⟨left, hinputs⟩ := hstops.inputs_eq
      rw [hinputs] at hfed
      rw [hsends.inputMessages_eq hends hfed] at hreads
      refine ⟨taken, last, waiting, closing, hstops, hends, hreads, ?_, hclosing⟩
      rw [hbridge]
  · obtain ⟨taken, last, waiting, hstops, hcarried, sent, written, hsent, -, hgrown⟩ := h
    have hprefix : inputMessages (stdioSide C) taken <+: messages := by
      obtain ⟨left, hinputs⟩ := hstops.inputs_eq
      rw [hinputs, List.filterMap_append] at hfed
      exact hsends.inputMessages_prefix ((List.prefix_append _ _).trans hfed)
    exact ⟨taken, last, waiting, sent, hstops, hstops.relayReads hC hcarried hreadable, hprefix,
      hgrown.relayed, hsent⟩

end Stdin

/-- The pieces in which two lines arrive. -/
def linePieces : List (List UInt8) := [[123], [125, 10, 110], [117, 108, 108, 10]]

/-- The two messages of these lines, a ping of the relay, and the end of standard input. -/
def stdinInputs : List (BridgeInput (Option (Except InputError Value))) :=
  [.fromLocal (some (.ok (.object []))) "", .fromRelay (some (.ok (.ping [1]))),
    .fromLocal (some (.ok .null)) "", .fromLocal none ""]

/-- The relay reads both messages. -/
theorem bridgeApp_delivers_stdinInputs :
    Effect.Triple (· = Bridge.start (List UInt8) (connect "client" "env" "stream"))
      (bridgeApp (plainCodec twoMessages) ⟨fun _ _ => .done, fun _ _ => .done⟩ stdinInputs)
      (fun waits bridge =>
        if waits = true then
          RelayReads (plainCodec twoMessages) bridge.relayed
            (inputMessages (stdioSide (plainCodec twoMessages)) stdinInputs) ∧
          inputMessages (stdioSide (plainCodec twoMessages)) stdinInputs <+: twoMessages
        else ∃ taken last waiting closing,
          StopsAt (plainCodec twoMessages) (stdioSide (plainCodec twoMessages))
            ⟨fun _ _ => .done, fun _ _ => .done⟩ (connect "client" "env" "stream") stdinInputs
            taken last waiting bridge ∧
          EndsBridge (stdioSide (plainCodec twoMessages)) last ∧
          RelayReads (plainCodec twoMessages) waiting.relayed twoMessages ∧
          bridge.relayed = waiting.relayed ++ closing ∧
          closing <+: [.text ((plainCodec twoMessages).toVec waiting.transport.closing)])
      fun _ bridge => ∃ taken last waiting sent,
        StopsAt (plainCodec twoMessages) (stdioSide (plainCodec twoMessages))
          ⟨fun _ _ => .done, fun _ _ => .done⟩ (connect "client" "env" "stream") stdinInputs taken
          last waiting bridge ∧
        RelayReads (plainCodec twoMessages) waiting.relayed
          (inputMessages (stdioSide (plainCodec twoMessages)) taken) ∧
        inputMessages (stdioSide (plainCodec twoMessages)) taken <+: twoMessages ∧
        bridge.relayed = waiting.relayed ++ sent ∧
        sent <+: (carry (plainCodec twoMessages) (stdioSide (plainCodec twoMessages))
          waiting.transport last).1.1 := by
  have hsends : SendsLines (plainCodec twoMessages) twoMessages linePieces :=
    ⟨by decide, by decide +kernel, by decide +kernel, by decide +kernel, by decide +kernel⟩
  have hfed : stdinInputs.filterMap localInput <+:
      stdinChannel (plainCodec twoMessages) linePieces := by
    rw [hsends.stdinChannel_eq]
    exact List.prefix_rfl
  exact bridgeApp_delivers (lawful_plainCodec _) hsends hfed (by decide +kernel) (by decide)

/-! ### The local side reads the messages of the relay -/

section Hands

variable {ι ω : Type} {C : Codec} {side : LocalSide ι ω} {t : RelayTransport}

/-- What a message is handed over as. -/
def messagePieces (side : LocalSide ι ω) (message : Value) : List ω :=
  ((side.pieces message).toOption.getD []).map Prod.fst

/-- A reader of the local side that goes through what was written, and to which the answers to pings
are nothing, reads the messages that the transport delivers. -/
theorem reads_localPieces {β : Type} {read : List ω → List β} (hnil : read [] = [])
    (happend : ∀ pieces more, read (pieces ++ more) = read pieces ++ read more)
    (hanswer : ∀ input, read (localAnswer side input) = []) (inputs : List (BridgeInput ι)) :
    read (localPieces C side t inputs) =
      ((handedMessages C t (bridgeEvents C side inputs)).map fun message =>
        read (messagePieces side message)).flatten := by
  induction inputs generalizing t with
  | nil => exact hnil
  | cons input inputs ih =>
    have hfirst : read (localPieces C side t (input :: inputs)) =
        read (carry C side t input).1.2 ++
          read (localPieces C side (carry C side t input).2 inputs) := by
      rw [← happend]
      rfl
    rw [hfirst, ih]
    cases hevent : bridgeEvent C side input with
    | none =>
      have hevents : bridgeEvents C side (input :: inputs) = bridgeEvents C side inputs :=
        List.filterMap_cons_none hevent
      rw [carry_of_no_event hevent, hanswer, List.nil_append, hevents]
    | some event =>
      have hevents : bridgeEvents C side (input :: inputs) = event :: bridgeEvents C side inputs :=
        List.filterMap_cons_some hevent
      have hpieces : read (outputPieces side (t.step C event).1) =
          ((handedMessage (t.step C event).1).toList.map fun message =>
            read (messagePieces side message)).flatten := by
        cases (t.step C event).1 with
        | emitted result => exact hnil
        | received result =>
          rcases result with _ | _ | message
          · exact hnil
          · exact hnil
          · exact (List.append_nil _).symm
      have hmessages : handedMessages C t (event :: bridgeEvents C side inputs) =
          (handedMessage (t.step C event).1).toList ++
            handedMessages C (t.step C event).2 (bridgeEvents C side inputs) := by
        rw [handedMessages, Machine.outputs_cons, List.filterMap_cons]
        cases handedMessage (t.step C event).1 <;> rfl
      rw [carry_of_event hevent, hevents, hpieces, hmessages, List.map_append, List.flatten_append]

/-- The lines of messages. -/
def messageLines (C : Codec) (messages : List Value) : List UInt8 :=
  (messages.map fun message => C.toVec message ++ [10]).flatten

/-- What is written of a message to standard output. -/
theorem flatten_messagePieces (message : Value) :
    (messagePieces (stdioSide C) message).flatten =
      if maxLocalAppMessageBytes < (C.toVec message).length then []
      else C.toVec message ++ [10] := by
  unfold messagePieces stdioSide
  dsimp only
  split_ifs
  · rfl
  · simp [Except.toOption]

/-- What is written to standard output. -/
theorem flatten_localPieces (inputs : List (BridgeInput (Option (Except InputError Value)))) :
    (localPieces C (stdioSide C) t inputs).flatten =
      ((handedMessages C t (bridgeEvents C (stdioSide C) inputs)).map fun message =>
        if maxLocalAppMessageBytes < (C.toVec message).length then []
        else C.toVec message ++ [10]).flatten := by
  have hanswer : ∀ input, (localAnswer (stdioSide C) input).flatten = [] := by
    intro input
    cases input with
    | fromLocal input fresh => rcases input with _ | _ | message <;> rfl
    | fromRelay received => rfl
  rw [reads_localPieces List.flatten_nil (fun _ _ => List.flatten_append) hanswer]
  simp only [flatten_messagePieces]

/-- The messages that a bridge has handed over are within the limit. -/
theorem Carried.within {inputs : List (BridgeInput (Option (Except InputError Value)))}
    {bridge : Bridge (List UInt8)} (h : Carried C (stdioSide C) t inputs bridge) {message : Value}
    (hmessage : message ∈ handedMessages C t (bridgeEvents C (stdioSide C) inputs)) :
    (C.toVec message).length ≤ maxLocalAppMessageBytes := by
  obtain ⟨output, houtput, hhanded⟩ := List.mem_filterMap.mp hmessage
  have hsucceeds := h.succeeded output houtput
  cases output with
  | emitted result => contradiction
  | received result =>
    rcases result with _ | _ | handed
    · contradiction
    · contradiction
    · obtain rfl : handed = message := Option.some.inj hhanded
      by_contra hlong
      have hpieces : (stdioSide C).pieces handed = .error .tooLong := if_pos (not_le.mp hlong)
      rw [outputSucceeds, hpieces] at hsucceeds
      contradiction

/-- The lines of messages within the limit. -/
theorem messageLines_eq {messages : List Value}
    (h : ∀ message ∈ messages, (C.toVec message).length ≤ maxLocalAppMessageBytes) :
    (messages.map fun message => if maxLocalAppMessageBytes < (C.toVec message).length then []
      else C.toVec message ++ [10]).flatten = messageLines C messages := by
  rw [messageLines]
  congr 1
  refine List.map_congr_left fun message hmessage => ?_
  rw [if_neg (not_lt.mpr (h message hmessage))]

/-- What a bridge has written to standard output. -/
theorem Carried.handed_lines {inputs : List (BridgeInput (Option (Except InputError Value)))}
    {bridge : Bridge (List UInt8)} (h : Carried C (stdioSide C) t inputs bridge) :
    bridge.handed.flatten =
      messageLines C (handedMessages C t (bridgeEvents C (stdioSide C) inputs)) := by
  rw [h.handed, flatten_localPieces, messageLines_eq fun _ => h.within]

/-- One more input delivers at most one more message. -/
theorem handedMessages_concat (inputs : List (BridgeInput ι)) (input : BridgeInput ι) :
    ∃ message : Option Value, handedMessages C t (bridgeEvents C side (inputs ++ [input])) =
      handedMessages C t (bridgeEvents C side inputs) ++ message.toList := by
  rw [bridgeEvents, List.filterMap_append, handedMessages, Machine.outputs_append,
    List.filterMap_append]
  cases hevent : bridgeEvent C side input with
  | none => exact ⟨none, by rw [List.filterMap_cons_none hevent]; rfl⟩
  | some event =>
    refine ⟨handedMessage (step C (Machine.final (step C) t (bridgeEvents C side inputs)) event).1,
      ?_⟩
    rw [List.filterMap_cons_some hevent, List.filterMap_nil, Machine.outputs_cons,
      List.filterMap_cons]
    rw [bridgeEvents]
    cases handedMessage (step C (Machine.final (step C) t
      (inputs.filterMap (bridgeEvent C side))) event).1 <;> rfl

/-- What is written to standard output with one more input is a first part of its lines. -/
theorem Carried.flatten_localPieces_concat
    {inputs : List (BridgeInput (Option (Except InputError Value)))}
    {bridge : Bridge (List UInt8)} (h : Carried C (stdioSide C) t inputs bridge)
    (input : BridgeInput (Option (Except InputError Value))) :
    (localPieces C (stdioSide C) t (inputs ++ [input])).flatten <+:
      messageLines C (handedMessages C t (bridgeEvents C (stdioSide C) (inputs ++ [input]))) := by
  obtain ⟨message, hmessage⟩ := @handedMessages_concat _ _ C (stdioSide C) t inputs input
  rw [flatten_localPieces, hmessage, List.map_append, List.flatten_append,
    messageLines_eq fun _ => h.within, messageLines, messageLines, List.map_append,
    List.flatten_append]
  refine (List.prefix_append_right_inj _).mpr ?_
  cases message with
  | none => exact List.prefix_rfl
  | some message =>
    simp only [Option.toList_some, List.map_singleton, List.flatten_singleton]
    split_ifs
    · exact List.nil_prefix
    · exact List.prefix_rfl

/-- Standard output has the messages that the transport delivers as lines, each within the limit,
as long as the bridge waits.  When it has ended, standard output has the lines of what was taken
before the input that stopped it, and when it has failed a first part of the next line too. -/
theorem bridgeApp_hands {outside : BridgeOutside (List UInt8)} (t : RelayTransport)
    (inputs : List (BridgeInput (Option (Except InputError Value)))) :
    Effect.Triple (· = Bridge.start (List UInt8) t) (bridgeApp C outside inputs)
      (fun waits bridge => ∃ taken, (if waits = true then taken = inputs
          else ∃ last waiting, EndsBridge (stdioSide C) last ∧
            StopsAt C (stdioSide C) outside t inputs taken last waiting bridge) ∧
        bridge.handed.flatten =
          messageLines C (handedMessages C t (bridgeEvents C (stdioSide C) taken)) ∧
        ∀ message ∈ handedMessages C t (bridgeEvents C (stdioSide C) taken),
          (C.toVec message).length ≤ maxLocalAppMessageBytes)
      fun _ bridge => ∃ taken last waiting,
        StopsAt C (stdioSide C) outside t inputs taken last waiting bridge ∧
        waiting.handed.flatten =
          messageLines C (handedMessages C t (bridgeEvents C (stdioSide C) taken)) ∧
        waiting.handed.flatten <+: bridge.handed.flatten ∧
        bridge.handed.flatten <+:
          messageLines C (handedMessages C t (bridgeEvents C (stdioSide C) (taken ++ [last]))) := by
  refine (runBridge_carries t inputs).conseq (fun _ h => h) (fun waits bridge h => ?_)
    fun _ bridge h => ?_
  · cases waits with
    | true => exact ⟨inputs, rfl, Carried.handed_lines h, fun _ => Carried.within h⟩
    | false =>
      obtain ⟨taken, last, waiting, hstops, hends, hcarried, closing, -, rfl⟩ := h
      exact ⟨taken, ⟨last, waiting, hends, hstops⟩, hcarried.handed_lines,
        fun _ => hcarried.within⟩
  · obtain ⟨taken, last, waiting, hstops, hcarried, hpart⟩ := h
    obtain ⟨hkept, hwritten⟩ := hcarried.handed_of_part hpart
    exact ⟨taken, last, waiting, hstops, hcarried.handed_lines, hkept.flatten,
      hwritten.flatten.trans (hcarried.flatten_localPieces_concat last)⟩

/-- The local websocket is answered pings only. -/
theorem answer_websocketSide {input : Received} {piece : Frame}
    (h : (websocketSide C).take input = .answer piece) :
    ∃ payload, input = some (.ok (.ping payload)) ∧ piece = .pong payload := by
  have hmessage : ∀ bytes, (websocketSide C).take (some (.ok (.text bytes))) ≠ .answer piece := by
    intro bytes heq
    cases hparse : C.fromSlice bytes <;> simp [websocketSide, hparse] at heq
  rcases input with _ | _ | frame
  · contradiction
  · contradiction
  · cases frame with
    | text bytes => exact absurd h (hmessage bytes)
    | binary bytes => exact absurd h (hmessage bytes)
    | ping payload =>
      injection h with h
      exact ⟨payload, rfl, h.symm⟩
    | pong payload => contradiction
    | close => contradiction
    | raw => contradiction

/-- What is written to the websocket of the local Codex. -/
theorem frameTexts_localPieces (inputs : List (BridgeInput Received)) :
    frameTexts (localPieces C (websocketSide C) t inputs) =
      (handedMessages C t (bridgeEvents C (websocketSide C) inputs)).map C.toVec := by
  have hanswer : ∀ input, frameTexts (localAnswer (websocketSide C) input) = [] := by
    intro input
    cases input with
    | fromLocal input fresh =>
      unfold localAnswer
      dsimp only
      split
      next piece htake =>
        obtain ⟨payload, -, rfl⟩ := answer_websocketSide htake
        rfl
      next => rfl
    | fromRelay received => rfl
  have hreads := @reads_localPieces _ _ C (websocketSide C) t _ frameTexts rfl
    (fun _ _ => List.filterMap_append) hanswer inputs
  have hpiece : ∀ message, frameTexts (messagePieces (websocketSide C) message) =
      [C.toVec message] := fun _ => rfl
  rw [hreads]
  simp only [hpiece]
  exact List.map_eq_flatMap.symm

/-- The local Codex receives the messages that the transport delivers, and the pings of the relay
are answered in order, as long as the bridge waits.  When it has ended, both hold of what was taken
before the input that stopped it, and when it has failed nothing is written beyond what this input
makes of it. -/
theorem bridgeLocal_hands {outside : BridgeOutside Frame} (t : RelayTransport)
    (inputs : List (BridgeInput Received)) :
    Effect.Triple (· = Bridge.start Frame t) (bridgeLocal C outside inputs)
      (fun waits bridge => ∃ taken, (if waits = true then taken = inputs
          else ∃ last waiting, EndsBridge (websocketSide C) last ∧
            StopsAt C (websocketSide C) outside t inputs taken last waiting bridge) ∧
        frameTexts bridge.handed =
          (handedMessages C t (bridgeEvents C (websocketSide C) taken)).map C.toVec ∧
        bridge.relayed.filterMap Frame.asPong = taken.filterMap relayPing)
      fun _ bridge => ∃ taken last waiting,
        StopsAt C (websocketSide C) outside t inputs taken last waiting bridge ∧
        frameTexts waiting.handed =
          (handedMessages C t (bridgeEvents C (websocketSide C) taken)).map C.toVec ∧
        frameTexts waiting.handed <+: frameTexts bridge.handed ∧
        frameTexts bridge.handed <+:
          (handedMessages C t (bridgeEvents C (websocketSide C) (taken ++ [last]))).map
            C.toVec ∧
        taken.filterMap relayPing <+: bridge.relayed.filterMap Frame.asPong ∧
        bridge.relayed.filterMap Frame.asPong <+: (taken ++ [last]).filterMap relayPing := by
  refine (runBridge_carries t inputs).conseq (fun _ h => h) (fun waits bridge h => ?_)
    fun _ bridge h => ?_
  · cases waits with
    | true =>
      rw [if_pos rfl] at h
      refine ⟨inputs, rfl, ?_, ?_⟩
      · rw [h.handed, frameTexts_localPieces]
      · rw [h.relayed, pongs_relayFrames]
    | false =>
      obtain ⟨taken, last, waiting, hstops, hends, hcarried, closing, hclosing, rfl⟩ := h
      have hnone : closing.filterMap Frame.asPong = [] :=
        List.prefix_nil.mp (hclosing.filterMap Frame.asPong)
      refine ⟨taken, ⟨last, waiting, hends, hstops⟩, ?_, ?_⟩
      · rw [hcarried.handed, frameTexts_localPieces]
      · rw [List.filterMap_append, hnone, List.append_nil, hcarried.relayed, pongs_relayFrames]
  · obtain ⟨taken, last, waiting, hstops, hcarried, hpart⟩ := h
    obtain ⟨hkept, hwritten⟩ := hcarried.handed_of_part hpart
    obtain ⟨hsent, hanswered⟩ := hcarried.relayed_of_part hpart
    refine ⟨taken, last, waiting, hstops, ?_, hkept.filterMap _, ?_, ?_, ?_⟩
    · rw [hcarried.handed, frameTexts_localPieces]
    · rw [← frameTexts_localPieces]
      exact hwritten.filterMap _
    · rw [← @pongs_relayFrames _ _ C (websocketSide C) t, ← hcarried.relayed]
      exact hsent.filterMap _
    · rw [← @pongs_relayFrames _ _ C (websocketSide C) t]
      exact hanswered.filterMap _

end Hands

end Rcodex
