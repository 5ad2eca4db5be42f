import Rcodex.Broker.Framing
import Rcodex.Controller.Acts
import Rcodex.Foundation.Writes
import Rcodex.Transport.Wire

/-!
# The bridge

`bridge_local` and `bridge_stdio` connect the local Codex with the relay: one loop waits for either
side, forwards the messages of the local side in segments, answers pings, and hands over what the
relay sends.  `runBridge` is this loop for any `LocalSide`; `bridgeLocal` and `bridgeStdio` are the
two members of the family.  Every write may fail, and a frame that fails may have arrived.

The bridge uses the transport of `RelayTransport.step`, and adds the sockets to it.
-/

namespace Rcodex

open Json Result

/-- Why standard input cannot be read. -/
inductive InputError where
  | unread
  | message (error : AppMessageError)
deriving DecidableEq

/-- The text of an error, as the source reports it. -/
def InputError.text : InputError → String
  | .unread => "could not read broker app message"
  | .message error => error.text

/-- Why a bridge fails. -/
inductive BridgeError where
  | readLocal
  | localNotJson
  | answerLocal
  | input (error : InputError)
  /-- The splitter does not return. -/
  | spins
  | relay (error : RelayError)
  | forwardLocal
  | forwardApp
  | relayEnded
  | readRelay
  | relayNotJson
  | handLocal
  | tooLong
  | writeApp
  | finishApp
  | flushApp
  | answerRelay
  | relayClosed
deriving DecidableEq

/-- The text of an error, as the source reports it; the close frame is left out. -/
def BridgeError.text : BridgeError → String
  | .readLocal => "read local Codex websocket frame"
  | .localNotJson => "local Codex websocket message is not JSON"
  | .answerLocal => "answer local Codex websocket ping"
  | .input error => error.text
  | .spins => ""
  | .relay error => error.text
  | .forwardLocal => "forward local Codex message to relay"
  | .forwardApp => "forward broker app message to relay"
  | .relayEnded => "remote-control relay websocket closed"
  | .readRelay => "read remote-control websocket frame"
  | .relayNotJson => "remote-control websocket frame is not JSON"
  | .handLocal => "forward relay message to local Codex"
  | .tooLong => "broker app message exceeded the safety limit"
  | .writeApp => "write broker app message"
  | .finishApp => "finish broker app message"
  | .flushApp => "flush broker app message"
  | .answerRelay => "answer remote-control websocket ping"
  | .relayClosed => "remote-control websocket closed"

/-- What the bridge makes of an input of the local side. -/
inductive Taken (ω : Type) where
  /-- A message is forwarded. -/
  | message (message : Value)
  /-- A ping is answered. -/
  | answer (piece : ω)
  | nothing
  /-- The local side is done. -/
  | ends
  | fails (error : BridgeError)
deriving DecidableEq

/-- The local side: its inputs, what is written to it, and with which errors. -/
structure LocalSide (ι ω : Type) where
  /-- What is made of an input. -/
  take : ι → Taken ω
  /-- The error of a message that cannot be forwarded. -/
  forwardError : BridgeError
  /-- The writes that hand a message over, and the error of each. -/
  pieces : Value → Except BridgeError (List (ω × BridgeError))

/-- What `next` returns of a websocket: the end, an error, or a frame. -/
abbrev Received := Option (Except Unit Frame)

/-- The websocket of the local Codex. -/
def websocketSide (C : Codec) : LocalSide Received Frame where
  take
    | none => .ends
    | some (.error _) => .fails .readLocal
    | some (.ok (.text bytes)) | some (.ok (.binary bytes)) =>
      match C.fromSlice bytes with
      | none => .fails .localNotJson
      | some message => .message message
    | some (.ok (.ping payload)) => .answer (.pong payload)
    | some (.ok .close) => .ends
    | some (.ok (.pong _)) | some (.ok .raw) => .nothing
  forwardError := .forwardLocal
  pieces message := .ok [(.text (C.toVec message), .handLocal)]

/-- Standard input and output; the reader sends messages over a channel. -/
def stdioSide (C : Codec) : LocalSide (Option (Except InputError Value)) (List UInt8) where
  take
    | none => .ends
    | some (.error error) => .fails (.input error)
    | some (.ok message) => .message message
  forwardError := .forwardApp
  pieces message :=
    if maxLocalAppMessageBytes < (C.toVec message).length then .error .tooLong
    else .ok [(C.toVec message, .writeApp), ([10], .finishApp), ([], .flushApp)]

/-- A bridge: the transport, and what has arrived at both sides. -/
structure Bridge (ω : Type) where
  /-- The transport. -/
  transport : RelayTransport
  /-- The frames at the relay. -/
  relayed : List Frame
  /-- What was written to the local side. -/
  handed : List ω

/-- How the writes end, by what has arrived before. -/
structure BridgeOutside (ω : Type) where
  /-- Writes to the relay. -/
  toRelay : List Frame → Frame → Effect.Write
  /-- Writes to the local side. -/
  toLocal : List ω → ω → Effect.Write

/-- What has arrived at the relay. -/
def relayedPart {ω : Type} : Effect.Part (Bridge ω) (List Frame) where
  get := Bridge.relayed
  put relayed bridge := { bridge with relayed }
  get_put _ _ := rfl

/-- What was written to the local side. -/
def handedPart {ω : Type} : Effect.Part (Bridge ω) (List ω) where
  get := Bridge.handed
  put handed bridge := { bridge with handed }
  get_put _ _ := rfl

/-- What the loop waits for: an input of the local side, with a fresh identifier in case it opens a
stream, or one of the relay. -/
inductive BridgeInput (ι : Type) where
  | fromLocal (input : ι) (fresh : String)
  | fromRelay (received : Received)

/-- A computation of a bridge. -/
abbrev Bridging (ω : Type) := Effect (Bridge ω) BridgeError

section Loop

variable {ι ω : Type} (C : Codec) (side : LocalSide ι ω) (outside : BridgeOutside ω)

/-- The segments of a message of the local side. -/
def outgoingSegments (fresh : String) (message : Value) : Bridging ω (List Value) := do
  let segments ← Effect.ask fun bridge =>
    let (segments, transport) := bridge.transport.outgoingAppSegments C fresh message
    (segments, { bridge with transport })
  match segments with
  | none => Effect.fail .spins
  | some segments => Effect.lift (segments.mapError .relay)

/-- The message that an envelope of the relay completes. -/
def observeEnvelope (envelope : Value) : Bridging ω (Option Value) := do
  let message ← Effect.ask fun bridge =>
    let (message, transport) := bridge.transport.observeServerEnvelope C envelope
    (message, { bridge with transport })
  Effect.lift (message.mapError .relay)

/-- The local side has sent something. -/
def takeLocal (input : ι) (fresh : String) : Bridging ω Bool := do
  match side.take input with
  | .message message =>
    let segments ← outgoingSegments C fresh message
    Effect.writeAll relayedPart outside.toRelay
      (segments.map fun segment => (.text (C.toVec segment), side.forwardError))
    return true
  | .answer piece =>
    Effect.write handedPart outside.toLocal .answerLocal piece
    return true
  | .nothing => return true
  | .ends => return false
  | .fails error => Effect.fail error

/-- The relay has sent an envelope. -/
def takeEnvelope (bytes : List UInt8) : Bridging ω Bool := do
  let envelope ← Effect.lift (context .relayNotJson (C.fromSlice bytes))
  let message ← observeEnvelope C envelope
  match message with
  | none => return true
  | some message =>
    let pieces ← Effect.lift (side.pieces message)
    Effect.writeAll handedPart outside.toLocal pieces
    return true

/-- The relay has sent something. -/
def takeRelay : Received → Bridging ω Bool
  | none => Effect.fail .relayEnded
  | some (.error _) => Effect.fail .readRelay
  | some (.ok (.text bytes)) | some (.ok (.binary bytes)) => takeEnvelope C side outside bytes
  | some (.ok (.ping payload)) => do
    Effect.write relayedPart outside.toRelay .answerRelay (.pong payload)
    return true
  | some (.ok .close) => Effect.fail .relayClosed
  | some (.ok (.pong _)) | some (.ok .raw) => return true

/-- One pass of the loop. -/
def bridgePass : BridgeInput ι → Bridging ω Bool
  | .fromLocal input fresh => takeLocal C side outside input fresh
  | .fromRelay received => takeRelay C side outside received

/-- The loop, and what comes after it; whether it still waits. -/
def runBridge (inputs : List (BridgeInput ι)) : Bridging ω Bool := do
  let waits ← Effect.handle (bridgePass C side outside) inputs
  if waits then return true
  let closing ← Effect.read fun bridge => bridge.transport.closing
  let _ ← (Effect.write relayedPart outside.toRelay side.forwardError
    (.text (C.toVec closing))).attempt
  return false

end Loop

/-- `bridge_local` -/
def bridgeLocal (C : Codec) (outside : BridgeOutside Frame)
    (inputs : List (BridgeInput Received)) : Bridging Frame Bool :=
  runBridge C (websocketSide C) outside inputs

/-- `bridge_stdio`, with what its reader sends -/
def bridgeApp (C : Codec) (outside : BridgeOutside (List UInt8))
    (inputs : List (BridgeInput (Option (Except InputError Value)))) :
    Bridging (List UInt8) Bool :=
  runBridge C (stdioSide C) outside inputs

/-- The bridge of a transport. -/
def Bridge.start (ω : Type) (transport : RelayTransport) : Bridge ω := ⟨transport, [], []⟩

end Rcodex
