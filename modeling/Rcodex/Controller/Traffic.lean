import Rcodex.Controller.Bridge
import Rcodex.Transport.Replay

/-!
# What a bridge carries

`carry` is the purpose of a bridge: every input is an event of the transport, or a ping that is
answered, or nothing, and what the transport puts out goes to one of the two sides.  A bridge that
waits has written exactly that (`Carried`).  A bridge that has ended was stopped by one of the
inputs (`StopsAt`): it has written exactly that before this input, and of this input the first part,
if it has failed; this is `runBridge_carries`.

So the transport of a bridge is at every time that of a run of `RelayTransport.step`, and what is
known of such runs holds of the bridge: `runBridge_bounded` says that it keeps the limits of the
reassembler.
-/

namespace Rcodex

open Json Result RelayTransport

section Carry

variable {ι ω : Type} (C : Codec) (side : LocalSide ι ω)

/-- The frames in which the segments of a message are sent. -/
def segmentFrames (segments : List Value) : List Frame :=
  segments.map fun segment => .text (C.toVec segment)

/-- What the output of the transport sends to the relay. -/
def outputFrames : Output → List Frame
  | .emitted (some (.ok segments)) => segmentFrames C segments
  | _ => []

/-- What the output of the transport hands to the local side. -/
def outputPieces : Output → List ω
  | .received (.ok (some message)) => ((side.pieces message).toOption.getD []).map Prod.fst
  | _ => []

/-- The event of the transport that an input is. -/
def bridgeEvent : BridgeInput ι → Option Event
  | .fromLocal input fresh =>
    match side.take input with
    | .message message => some (.outgoing fresh message)
    | _ => none
  | .fromRelay (some (.ok (.text bytes))) | .fromRelay (some (.ok (.binary bytes))) =>
    (C.fromSlice bytes).map .incoming
  | .fromRelay _ => none

/-- The events of the transport. -/
def bridgeEvents (inputs : List (BridgeInput ι)) : List Event :=
  inputs.filterMap (bridgeEvent C side)

/-- The output is not an error, and it can be written. -/
def outputSucceeds : Output → Bool
  | .emitted (some (.ok _)) | .received (.ok none) => true
  | .received (.ok (some message)) => (side.pieces message).isOk
  | _ => false

/-- The input ends the loop. -/
def EndsBridge : BridgeInput ι → Prop
  | .fromLocal input _ => side.take input = .ends
  | .fromRelay _ => False

/-- The answer to a ping of the relay. -/
def relayAnswer : BridgeInput ι → List Frame
  | .fromRelay (some (.ok (.ping payload))) => [.pong payload]
  | _ => []

/-- The answer to a ping of the local side. -/
def localAnswer : BridgeInput ι → List ω
  | .fromLocal input _ =>
    match side.take input with
    | .answer piece => [piece]
    | _ => []
  | .fromRelay _ => []

/-- What an input makes the bridge write to the relay and to the local side. -/
def carry (t : RelayTransport) (input : BridgeInput ι) :
    (List Frame × List ω) × RelayTransport :=
  match bridgeEvent C side input with
  | some event =>
    let (output, t) := t.step C event
    ((outputFrames C output, outputPieces side output), t)
  | none => ((relayAnswer input, localAnswer side input), t)

/-- The frames for the relay in a run. -/
def relayFrames (t : RelayTransport) (inputs : List (BridgeInput ι)) : List Frame :=
  ((Machine.outputs (carry C side) t inputs).map Prod.fst).flatten

/-- What is handed to the local side in a run. -/
def localPieces (t : RelayTransport) (inputs : List (BridgeInput ι)) : List ω :=
  ((Machine.outputs (carry C side) t inputs).map Prod.snd).flatten

/-- The bridge has carried everything. -/
structure Carried (t : RelayTransport) (inputs : List (BridgeInput ι)) (bridge : Bridge ω) :
    Prop where
  /-- The transport has gone on. -/
  transport : bridge.transport = Machine.final (carry C side) t inputs
  /-- What is at the relay. -/
  relayed : bridge.relayed = relayFrames C side t inputs
  /-- What was handed to the local side. -/
  handed : bridge.handed = localPieces C side t inputs
  /-- There was no error. -/
  succeeded : ∀ o ∈ Machine.outputs (step C) t (bridgeEvents C side inputs),
    outputSucceeds side o = true

end Carry

/-! ### One pass -/

section Pass

variable {ι ω : Type} {C : Codec} {side : LocalSide ι ω} {outside : BridgeOutside ω}
  {bridge : Bridge ω}

/-- The transport has gone on, and something was written. -/
structure Bridge.Grown (bridge : Bridge ω) (transport : RelayTransport) (frames : List Frame)
    (pieces : List ω) (after : Bridge ω) : Prop where
  /-- The transport. -/
  transport : after.transport = transport
  /-- What is at the relay. -/
  relayed : after.relayed = bridge.relayed ++ frames
  /-- What was handed to the local side. -/
  handed : after.handed = bridge.handed ++ pieces

/-- The transport has gone on, and a part of something was written. -/
def Bridge.GrownWithin (bridge : Bridge ω) (transport : RelayTransport) (frames : List Frame)
    (pieces : List ω) (after : Bridge ω) : Prop :=
  ∃ sent written, sent <+: frames ∧ written <+: pieces ∧
    bridge.Grown transport sent written after

/-- Nothing of it was written. -/
theorem Bridge.grownWithin_of_eq {transport : RelayTransport} {frames : List Frame}
    {pieces : List ω} : bridge.GrownWithin transport frames pieces { bridge with transport } :=
  ⟨[], [], List.nil_prefix, List.nil_prefix, rfl, (List.append_nil _).symm,
    (List.append_nil _).symm⟩

/-- Nothing was to be written. -/
theorem Bridge.grown_self : bridge.Grown bridge.transport [] [] bridge :=
  ⟨rfl, (List.append_nil _).symm, (List.append_nil _).symm⟩

/-- The segments of a message are those that the transport puts out. -/
theorem outgoingSegments_triple (fresh : String) (message : Value) :
    Effect.Triple (· = bridge) (outgoingSegments C fresh message)
      (fun segments after =>
        (bridge.transport.step C (.outgoing fresh message)).1 = .emitted (some (.ok segments)) ∧
        after = { bridge with transport :=
          (bridge.transport.step C (.outgoing fresh message)).2 })
      fun _ after => after = { bridge with transport :=
        (bridge.transport.step C (.outgoing fresh message)).2 } := by
  refine Effect.Triple.bind (Q := fun segments after =>
    (bridge.transport.step C (.outgoing fresh message)).1 = .emitted segments ∧
      after = { bridge with transport := (bridge.transport.step C (.outgoing fresh message)).2 })
    (Effect.Triple.ask fun s hs => by subst hs; exact ⟨rfl, rfl⟩) fun segments => ?_
  cases segments with
  | none => exact Effect.Triple.fail fun s hs => hs.2
  | some result =>
    cases result with
    | error error => exact Effect.Triple.fail fun s hs => hs.2
    | ok segments => exact Effect.Triple.ret fun s hs => hs

/-- The message of an envelope is the one that the transport puts out. -/
theorem observeEnvelope_triple (envelope : Value) :
    Effect.Triple (· = bridge) (observeEnvelope C envelope)
      (fun message after =>
        (bridge.transport.step C (.incoming envelope)).1 = .received (.ok message) ∧
        after = { bridge with transport := (bridge.transport.step C (.incoming envelope)).2 })
      fun _ after => after = { bridge with transport :=
        (bridge.transport.step C (.incoming envelope)).2 } := by
  refine Effect.Triple.bind (Q := fun message after =>
    (bridge.transport.step C (.incoming envelope)).1 = .received message ∧
      after = { bridge with transport := (bridge.transport.step C (.incoming envelope)).2 })
    (Effect.Triple.ask fun s hs => by subst hs; exact ⟨rfl, rfl⟩) fun message => ?_
  cases message with
  | error error => exact Effect.Triple.fail fun s hs => hs.2
  | ok message => exact Effect.Triple.ret fun s hs => hs

/-- A computation that writes frames to the relay. -/
theorem grown_of_relayed {transport : RelayTransport} {m : Bridging ω Unit} {frames : List Frame}
    (h : Effect.Triple (fun s => relayedPart.get s = bridge.relayed ∧
        (s.transport = transport ∧ s.handed = bridge.handed)) m
      (fun _ s => relayedPart.get s = bridge.relayed ++ frames ∧
        (s.transport = transport ∧ s.handed = bridge.handed))
      fun _ s => (∃ sent, sent <+: frames ∧ relayedPart.get s = bridge.relayed ++ sent) ∧
        (s.transport = transport ∧ s.handed = bridge.handed)) :
    Effect.Triple (· = { bridge with transport }) m
      (fun _ => bridge.Grown transport frames [])
      fun _ => bridge.GrownWithin transport frames [] := by
  refine h.conseq (fun after h => ?_) (fun _ after h => ?_) fun e after h => ?_
  · subst h
    exact ⟨rfl, rfl, rfl⟩
  · exact ⟨h.2.1, h.1, by rw [h.2.2, List.append_nil]⟩
  · obtain ⟨⟨sent, hsent, hrelayed⟩, htransport, hhanded⟩ := h
    exact ⟨sent, [], hsent, List.nil_prefix, htransport, hrelayed,
      by rw [hhanded, List.append_nil]⟩

/-- A computation that writes to the local side. -/
theorem grown_of_handed {transport : RelayTransport} {m : Bridging ω Unit} {pieces : List ω}
    (h : Effect.Triple (fun s => handedPart.get s = bridge.handed ∧
        (s.transport = transport ∧ s.relayed = bridge.relayed)) m
      (fun _ s => handedPart.get s = bridge.handed ++ pieces ∧
        (s.transport = transport ∧ s.relayed = bridge.relayed))
      fun _ s => (∃ written, written <+: pieces ∧ handedPart.get s = bridge.handed ++ written) ∧
        (s.transport = transport ∧ s.relayed = bridge.relayed)) :
    Effect.Triple (· = { bridge with transport }) m
      (fun _ => bridge.Grown transport [] pieces)
      fun _ => bridge.GrownWithin transport [] pieces := by
  refine h.conseq (fun after h => ?_) (fun _ after h => ?_) fun e after h => ?_
  · subst h
    exact ⟨rfl, rfl, rfl⟩
  · exact ⟨h.2.1, by rw [h.2.2, List.append_nil], h.1⟩
  · obtain ⟨⟨written, hwritten, hhanded⟩, htransport, hrelayed⟩ := h
    exact ⟨[], written, List.nil_prefix, hwritten, htransport,
      by rw [hrelayed, List.append_nil], hhanded⟩

/-- What an input makes of the bridge. -/
structure Took (C : Codec) (side : LocalSide ι ω) (bridge : Bridge ω) (input : BridgeInput ι)
    (goes : Bool) (after : Bridge ω) : Prop where
  /-- The transport has gone on, and everything was written. -/
  grown : bridge.Grown (carry C side bridge.transport input).2
    (carry C side bridge.transport input).1.1 (carry C side bridge.transport input).1.2 after
  /-- There was no error. -/
  succeeded : ∀ event ∈ bridgeEvent C side input,
    outputSucceeds side (bridge.transport.step C event).1 = true
  /-- Only the local side ends the loop. -/
  ended : goes = false → EndsBridge side input

/-- What an input makes of the bridge when the pass fails. -/
def TookPart (C : Codec) (side : LocalSide ι ω) (bridge : Bridge ω) (input : BridgeInput ι)
    (after : Bridge ω) : Prop :=
  bridge.GrownWithin (carry C side bridge.transport input).2
    (carry C side bridge.transport input).1.1 (carry C side bridge.transport input).1.2 after

/-- An input that is a message or an envelope. -/
theorem carry_of_event {t : RelayTransport} {input : BridgeInput ι} {event : Event}
    (h : bridgeEvent C side input = some event) :
    carry C side t input =
      ((outputFrames C (t.step C event).1, outputPieces side (t.step C event).1),
      (t.step C event).2) := by
  rw [carry, h]

/-- Another input. -/
theorem carry_of_no_event {t : RelayTransport} {input : BridgeInput ι}
    (h : bridgeEvent C side input = none) :
    carry C side t input = ((relayAnswer input, localAnswer side input), t) := by
  rw [carry, h]

/-- Frames are written to the relay. -/
theorem writeRelay_triple {transport : RelayTransport} (items : List (Frame × BridgeError)) :
    Effect.Triple (· = { bridge with transport })
      (Effect.writeAll relayedPart outside.toRelay items)
      (fun _ => bridge.Grown transport (items.map Prod.fst) [])
      fun _ => bridge.GrownWithin transport (items.map Prod.fst) [] :=
  grown_of_relayed (@Effect.Triple.writeAll _ _ _ _ outside.toRelay
    (fun after : Bridge ω => after.transport = transport ∧ after.handed = bridge.handed)
    (fun _ _ h => h)
    bridge.relayed items)

/-- Something is written to the local side. -/
theorem writeLocal_triple {transport : RelayTransport} (items : List (ω × BridgeError)) :
    Effect.Triple (· = { bridge with transport })
      (Effect.writeAll handedPart outside.toLocal items)
      (fun _ => bridge.Grown transport [] (items.map Prod.fst))
      fun _ => bridge.GrownWithin transport [] (items.map Prod.fst) :=
  grown_of_handed (@Effect.Triple.writeAll _ _ _ _ outside.toLocal
    (fun after : Bridge ω => after.transport = transport ∧ after.relayed = bridge.relayed)
    (fun _ _ h => h)
    bridge.handed items)

/-- What an input makes of the bridge that is no event of the transport. -/
theorem Took.of_no_event {input : BridgeInput ι} {goes : Bool} {after : Bridge ω}
    (hevent : bridgeEvent C side input = none) (hended : goes = false → EndsBridge side input)
    (hgrown : bridge.Grown bridge.transport (relayAnswer input) (localAnswer side input) after) :
    Took C side bridge input goes after := by
  refine ⟨?_, fun event h => ?_, hended⟩
  · rw [carry_of_no_event hevent]
    exact hgrown
  · rw [hevent] at h
    contradiction

/-- What an input makes of the bridge that is an event of the transport. -/
theorem Took.of_event {input : BridgeInput ι} {event : Event} {after : Bridge ω}
    (hevent : bridgeEvent C side input = some event)
    (hsucceeds : outputSucceeds side (bridge.transport.step C event).1 = true)
    (hgrown : bridge.Grown (bridge.transport.step C event).2
      (outputFrames C (bridge.transport.step C event).1)
      (outputPieces side (bridge.transport.step C event).1) after) :
    Took C side bridge input true after := by
  refine ⟨?_, fun other h => ?_, fun h => by contradiction⟩
  · rw [carry_of_event hevent]
    exact hgrown
  · rw [hevent] at h
    obtain rfl := Option.some.inj h
    exact hsucceeds

/-- A pass that fails without a write. -/
theorem TookPart.of_eq {input : BridgeInput ι} {after : Bridge ω}
    (h : after = { bridge with transport := (carry C side bridge.transport input).2 }) :
    TookPart C side bridge input after :=
  h ▸ Bridge.grownWithin_of_eq

/-- A pass that fails because of an input. -/
theorem fail_triple {input : BridgeInput ι} (hevent : bridgeEvent C side input = none)
    (error : BridgeError) :
    Effect.Triple (· = bridge) (Effect.fail error : Bridging ω Bool)
      (fun goes => Took C side bridge input goes) fun _ => TookPart C side bridge input :=
  Effect.Triple.fail fun after h => TookPart.of_eq (by rw [carry_of_no_event hevent, h])

/-- A pass that does nothing. -/
theorem nothing_triple {input : BridgeInput ι} {goes : Bool}
    (hevent : bridgeEvent C side input = none) (hended : goes = false → EndsBridge side input)
    (hanswers : relayAnswer input = [] ∧ localAnswer side input = []) :
    Effect.Triple (· = bridge) (pure goes : Bridging ω Bool)
      (fun goes => Took C side bridge input goes) fun _ => TookPart C side bridge input := by
  refine Effect.Triple.ret fun after h => Took.of_no_event hevent hended ?_
  rw [hanswers.1, hanswers.2, h]
  exact Bridge.grown_self

/-- An input of the local side. -/
theorem takeLocal_triple (input : ι) (fresh : String) :
    Effect.Triple (· = bridge) (takeLocal C side outside input fresh)
      (fun goes => Took C side bridge (.fromLocal input fresh) goes)
      fun _ => TookPart C side bridge (.fromLocal input fresh) := by
  have hno : (∀ message, side.take input ≠ .message message) →
      bridgeEvent C side (.fromLocal input fresh) = none := by
    intro hmessage
    unfold bridgeEvent
    dsimp only
    split
    next message htake => exact absurd htake (hmessage message)
    next => rfl
  have hsilent : (∀ piece, side.take input ≠ .answer piece) →
      localAnswer side (.fromLocal input fresh) = [] := by
    intro hanswer
    unfold localAnswer
    dsimp only
    split
    next piece htake => exact absurd htake (hanswer piece)
    next => rfl
  unfold takeLocal
  cases htake : side.take input with
  | message message =>
    have hevent : bridgeEvent C side (.fromLocal input fresh) = some (.outgoing fresh message) := by
      rw [bridgeEvent, htake]
    refine Effect.Triple.bind ((outgoingSegments_triple fresh message).conseq (fun _ h => h)
      (fun _ _ h => h) fun e after h => TookPart.of_eq (by rw [carry_of_event hevent, h]))
      fun segments => Effect.Triple.of_fact fun houtput => ?_
    have hframes : outputFrames C (.emitted (some (.ok segments))) =
        (segments.map fun segment => (Frame.text (C.toVec segment), side.forwardError)).map
          Prod.fst := by
      rw [List.map_map]
      rfl
    refine Effect.Triple.bind ((writeRelay_triple _).conseq (fun _ h => h) (fun _ _ h => h)
      fun e after h => ?_) fun _ => Effect.Triple.ret fun after h => Took.of_event hevent ?_ ?_
    · unfold TookPart
      rw [carry_of_event hevent, houtput, hframes]
      exact h
    · rw [houtput]
      rfl
    · rw [houtput, hframes]
      exact h
  | answer piece =>
    have hanswer : localAnswer side (.fromLocal input fresh) = [piece] := by
      rw [localAnswer, htake]
    have hevent := hno (by simp [htake])
    refine Effect.Triple.bind ((grown_of_handed (@Effect.Triple.write _ _ _ _ outside.toLocal
      (fun after : Bridge ω => after.transport = bridge.transport ∧ after.relayed = bridge.relayed)
      (fun _ _ h => h) bridge.handed _ piece)).conseq (fun _ h => h) (fun _ _ h => h)
      fun e after h => ?_) fun _ => Effect.Triple.ret fun after h =>
        Took.of_no_event hevent (fun h => by contradiction) ?_
    · unfold TookPart
      rw [carry_of_no_event hevent, hanswer]
      exact h
    · rw [hanswer]
      exact h
  | nothing =>
    exact nothing_triple (hno (by simp [htake])) (fun h => by contradiction)
      ⟨rfl, hsilent (by simp [htake])⟩
  | ends =>
    exact nothing_triple (hno (by simp [htake])) (fun _ => htake) ⟨rfl, hsilent (by simp [htake])⟩
  | fails error => exact fail_triple (hno (by simp [htake])) error

/-- An envelope of the relay. -/
theorem takeEnvelope_triple {bytes : List UInt8} {input : BridgeInput ι}
    (hevent : bridgeEvent C side input = (C.fromSlice bytes).map .incoming) :
    Effect.Triple (· = bridge) (takeEnvelope C side outside bytes)
      (fun goes => Took C side bridge input goes) fun _ => TookPart C side bridge input := by
  unfold takeEnvelope
  cases hparse : C.fromSlice bytes with
  | none =>
    rw [hparse] at hevent
    exact Effect.Triple.bind (Q := fun _ _ => False)
      (Effect.Triple.fail fun after h => TookPart.of_eq (by rw [carry_of_no_event hevent, h]))
      fun _ => Effect.Triple.of_false
  | some envelope =>
    rw [hparse] at hevent
    have hfailed : ∀ after, after =
        { bridge with transport := (bridge.transport.step C (.incoming envelope)).2 } →
        TookPart C side bridge input after :=
      fun after h => TookPart.of_eq (by rw [carry_of_event hevent, h])
    refine Effect.Triple.bind (Q := fun parsed after => parsed = envelope ∧ after = bridge)
      (Effect.Triple.ret fun _ h => ⟨rfl, h⟩) fun parsed => Effect.Triple.of_fact fun hparsed => ?_
    subst hparsed
    refine Effect.Triple.bind ((observeEnvelope_triple parsed).conseq (fun _ h => h)
      (fun _ _ h => h) fun e => hfailed) fun message => Effect.Triple.of_fact fun houtput => ?_
    cases message with
    | none =>
      refine Effect.Triple.ret fun after h => Took.of_event hevent ?_ ?_
      · rw [houtput]
        rfl
      · rw [houtput, h]
        exact ⟨rfl, (List.append_nil _).symm, (List.append_nil _).symm⟩
    | some message =>
      dsimp only
      cases hpieces : side.pieces message with
      | error error =>
        exact Effect.Triple.bind (Q := fun _ _ => False) (Effect.Triple.fail hfailed)
          fun _ => Effect.Triple.of_false
      | ok pieces =>
        have hout : outputPieces side (.received (.ok (some message))) = pieces.map Prod.fst := by
          rw [outputPieces, hpieces]
          rfl
        refine Effect.Triple.bind (Q := fun given after => given = pieces ∧ after =
            { bridge with transport := (bridge.transport.step C (.incoming parsed)).2 })
          (Effect.Triple.ret fun _ h => ⟨rfl, h⟩) fun given =>
            Effect.Triple.of_fact fun hgiven => ?_
        subst hgiven
        refine Effect.Triple.bind ((writeLocal_triple given).conseq (fun _ h => h)
          (fun _ _ h => h) fun e after h => ?_) fun _ => Effect.Triple.ret fun after h =>
            Took.of_event hevent ?_ ?_
        · unfold TookPart
          rw [carry_of_event hevent, houtput, hout]
          exact h
        · rw [houtput, outputSucceeds, hpieces]
          rfl
        · rw [houtput, hout]
          exact h

/-- An input of the relay. -/
theorem takeRelay_triple (received : Received) :
    Effect.Triple (· = bridge) (takeRelay C side outside received)
      (fun goes => Took C side bridge (.fromRelay received) goes)
      fun _ => TookPart C side bridge (.fromRelay received) := by
  cases received with
  | none => exact fail_triple rfl _
  | some arrived =>
    cases arrived with
    | error error => exact fail_triple rfl _
    | ok frame =>
      cases frame with
      | text bytes => exact takeEnvelope_triple rfl
      | binary bytes => exact takeEnvelope_triple rfl
      | ping payload =>
        refine Effect.Triple.bind (grown_of_relayed (@Effect.Triple.write _ _ _ _ outside.toRelay
          (fun after : Bridge ω => after.transport = bridge.transport ∧
            after.handed = bridge.handed) (fun _ _ h => h) bridge.relayed _ (.pong payload)))
          fun _ => Effect.Triple.ret fun _ h =>
            Took.of_no_event rfl (fun h => by contradiction) h
      | pong payload => exact nothing_triple rfl (fun h => by contradiction) ⟨rfl, rfl⟩
      | close => exact fail_triple rfl _
      | raw => exact nothing_triple rfl (fun h => by contradiction) ⟨rfl, rfl⟩

/-- One pass of the loop. -/
theorem bridgePass_triple (input : BridgeInput ι) :
    Effect.Triple (· = bridge) (bridgePass C side outside input)
      (fun goes => Took C side bridge input goes) fun _ => TookPart C side bridge input := by
  cases input with
  | fromLocal input fresh => exact takeLocal_triple input fresh
  | fromRelay received => exact takeRelay_triple received

end Pass

/-! ### Every run -/

section Run

variable {ι ω : Type} {C : Codec} {side : LocalSide ι ω} {outside : BridgeOutside ω}
  {t : RelayTransport}

/-- The transport of a bridge is that of a run of `RelayTransport.step`. -/
theorem final_carry (inputs : List (BridgeInput ι)) :
    Machine.final (carry C side) t inputs =
      Machine.final (step C) t (bridgeEvents C side inputs) := by
  induction inputs generalizing t with
  | nil => rfl
  | cons input inputs ih =>
    rw [Machine.final_cons, ih, bridgeEvents, bridgeEvents, List.filterMap_cons]
    cases hevent : bridgeEvent C side input with
    | none => rw [carry_of_no_event hevent]
    | some event => rw [carry_of_event hevent, Machine.final_cons]

/-- One more input and what is at the relay. -/
theorem relayFrames_concat (inputs : List (BridgeInput ι)) (input : BridgeInput ι) :
    relayFrames C side t (inputs ++ [input]) = relayFrames C side t inputs ++
      (carry C side (Machine.final (carry C side) t inputs) input).1.1 := by
  simp [relayFrames, Machine.outputs_append]

/-- One more input and what was handed to the local side. -/
theorem localPieces_concat (inputs : List (BridgeInput ι)) (input : BridgeInput ι) :
    localPieces C side t (inputs ++ [input]) = localPieces C side t inputs ++
      (carry C side (Machine.final (carry C side) t inputs) input).1.2 := by
  simp [localPieces, Machine.outputs_append]

/-- Nothing was carried yet. -/
theorem carried_start : Carried C side t [] (Bridge.start ω t) :=
  ⟨rfl, rfl, rfl, fun o h => by cases h⟩

/-- One more input. -/
theorem Carried.concat {inputs : List (BridgeInput ι)} {bridge after : Bridge ω}
    {input : BridgeInput ι} {goes : Bool} (h : Carried C side t inputs bridge)
    (htook : Took C side bridge input goes after) :
    Carried C side t (inputs ++ [input]) after := by
  obtain ⟨⟨htransport, hrelayed, hhanded⟩, hsucceeded, -⟩ := htook
  rw [h.transport] at htransport hrelayed hhanded hsucceeded
  refine ⟨?_, ?_, ?_, fun o ho => ?_⟩
  · rw [htransport, Machine.final_concat]
  · rw [hrelayed, h.relayed, relayFrames_concat]
  · rw [hhanded, h.handed, localPieces_concat]
  · rw [bridgeEvents, List.filterMap_append, Machine.outputs_append, List.mem_append] at ho
    obtain ho | ho := ho
    · exact h.succeeded o ho
    · have hlast := hsucceeded
      rw [final_carry, bridgeEvents] at hlast
      cases hevent : bridgeEvent C side input with
      | none => simp [hevent] at ho
      | some event =>
        rw [List.filterMap_cons, hevent, List.filterMap_nil, Machine.outputs_cons,
          Machine.outputs_nil, List.mem_singleton] at ho
        rw [ho]
        exact hlast event hevent

/-- A part of one more input, and what is at the relay. -/
theorem Carried.relayed_of_part {inputs : List (BridgeInput ι)} {waiting bridge : Bridge ω}
    {input : BridgeInput ι} (h : Carried C side t inputs waiting)
    (htook : TookPart C side waiting input bridge) :
    waiting.relayed <+: bridge.relayed ∧
      bridge.relayed <+: relayFrames C side t (inputs ++ [input]) := by
  obtain ⟨sent, written, hsent, -, hgrown⟩ := htook
  rw [h.transport] at hsent
  constructor
  · exact ⟨sent, hgrown.relayed.symm⟩
  · rw [hgrown.relayed, h.relayed, relayFrames_concat]
    exact (List.prefix_append_right_inj _).mpr hsent

/-- A part of one more input, and what was handed to the local side. -/
theorem Carried.handed_of_part {inputs : List (BridgeInput ι)} {waiting bridge : Bridge ω}
    {input : BridgeInput ι} (h : Carried C side t inputs waiting)
    (htook : TookPart C side waiting input bridge) :
    waiting.handed <+: bridge.handed ∧
      bridge.handed <+: localPieces C side t (inputs ++ [input]) := by
  obtain ⟨sent, written, -, hwritten, hgrown⟩ := htook
  rw [h.transport] at hwritten
  constructor
  · exact ⟨written, hgrown.handed.symm⟩
  · rw [hgrown.handed, h.handed, localPieces_concat]
    exact (List.prefix_append_right_inj _).mpr hwritten

/-- A loop that waits has carried everything. -/
theorem carried_of_waits {inputs : List (BridgeInput ι)} {waiting : Bridge ω}
    (h : Effect.handle (bridgePass C side outside) inputs (Bridge.start ω t) =
      (.ok true, waiting)) : Carried C side t inputs waiting := by
  have hpass : ∀ taken input, Effect.Triple (Carried C side t taken)
      (bridgePass C side outside input)
      (fun goes bridge => if goes = true then Carried C side t (taken ++ [input]) bridge else True)
      fun _ _ => True := by
    intro taken input
    refine Effect.Triple.of_each fun bridge hbridge => ?_
    refine (bridgePass_triple input).conseq (fun _ h => h) (fun goes after htook => ?_)
      fun _ _ _ => trivial
    cases goes with
    | true => exact hbridge.concat htook
    | false => trivial
  have hloop := (Effect.Triple.handle (J := fun _ _ => True) (E := fun _ _ _ => True) hpass []
    inputs).of_ok (carried_start (ω := ω)) (congrArg Prod.fst h)
  rw [h] at hloop
  exact hloop

/-- The bridge waits after these inputs, and the next one stops it. -/
structure StopsAt (C : Codec) (side : LocalSide ι ω) (outside : BridgeOutside ω)
    (t : RelayTransport) (inputs taken : List (BridgeInput ι)) (last : BridgeInput ι)
    (waiting bridge : Bridge ω) : Prop where
  /-- They are the first inputs. -/
  inputs_eq : ∃ left, inputs = taken ++ last :: left
  /-- The bridge waits for the next one. -/
  waits : runBridge C side outside taken (Bridge.start ω t) = (.ok true, waiting)
  /-- With it the bridge ends. -/
  stops : ∃ result, result ≠ .ok true ∧
    runBridge C side outside (taken ++ [last]) (Bridge.start ω t) = (result, bridge)
  /-- The transport has taken it. -/
  transport : bridge.transport = Machine.final (step C) t (bridgeEvents C side (taken ++ [last]))

/-- The closing envelope was sent, which may have failed. -/
def Bridge.Closes (C : Codec) (waiting bridge : Bridge ω) : Prop :=
  ∃ sent, sent <+: [Frame.text (C.toVec waiting.transport.closing)] ∧
    bridge = { waiting with relayed := waiting.relayed ++ sent }

/-- A loop that waits returns. -/
theorem runBridge_of_waits {inputs : List (BridgeInput ι)} {start waiting : Bridge ω}
    (h : Effect.handle (bridgePass C side outside) inputs start = (.ok true, waiting)) :
    runBridge C side outside inputs start = (.ok true, waiting) := by
  rw [runBridge, Effect.bind_apply, Effect.andThen, h]
  rfl

/-- A loop that has ended sends the closing envelope, whether it arrives or not. -/
theorem runBridge_of_ends {inputs : List (BridgeInput ι)} {start waiting bridge : Bridge ω}
    {closed : Except BridgeError Unit}
    (h : Effect.handle (bridgePass C side outside) inputs start = (.ok false, waiting))
    (hclosing : (Effect.write relayedPart outside.toRelay side.forwardError
      (.text (C.toVec waiting.transport.closing))).attempt waiting =
        ((.ok closed : Except BridgeError (Except BridgeError Unit)), bridge)) :
    runBridge C side outside inputs start = (.ok false, bridge) := by
  rw [runBridge, Effect.bind_apply, Effect.andThen, h]
  change ((Effect.write relayedPart outside.toRelay side.forwardError
    (.text (C.toVec waiting.transport.closing))).attempt >>= fun _ => pure false) waiting = _
  rw [Effect.bind_apply, Effect.andThen, hclosing]
  rfl

/-- A loop that has failed returns its error. -/
theorem runBridge_of_fails {inputs : List (BridgeInput ι)} {start bridge : Bridge ω}
    {error : BridgeError}
    (h : Effect.handle (bridgePass C side outside) inputs start = (.error error, bridge)) :
    runBridge C side outside inputs start = (.error error, bridge) := by
  rw [runBridge, Effect.bind_apply, Effect.andThen, h]

/-- What comes after the loop depends on its end only. -/
theorem runBridge_congr {inputs inputs' : List (BridgeInput ι)} {start : Bridge ω}
    (h : Effect.handle (bridgePass C side outside) inputs start =
      Effect.handle (bridgePass C side outside) inputs' start) :
    runBridge C side outside inputs start = runBridge C side outside inputs' start := by
  rw [runBridge, runBridge, Effect.bind_apply, Effect.bind_apply, Effect.andThen, Effect.andThen,
    h]

/-- The closing envelope, which may not arrive. -/
theorem closing_triple {waiting : Bridge ω} {E : BridgeError → Bridge ω → Prop} :
    Effect.Triple (· = waiting)
      (Effect.write relayedPart outside.toRelay side.forwardError
        (.text (C.toVec waiting.transport.closing))).attempt
      (fun _ => waiting.Closes C) E := by
  have hwrite := grown_of_relayed (@Effect.Triple.write _ _ _ _ outside.toRelay
    (fun after : Bridge ω => after.transport = waiting.transport ∧ after.handed = waiting.handed)
    (fun _ _ h => h) waiting.relayed side.forwardError
    (.text (C.toVec waiting.transport.closing)))
  have hafter : ∀ {sent : List Frame} {after : Bridge ω},
      sent <+: [Frame.text (C.toVec waiting.transport.closing)] →
      waiting.Grown waiting.transport sent [] after → waiting.Closes C after := by
    intro sent after hsent hgrown
    refine ⟨sent, hsent, ?_⟩
    obtain ⟨htransport, hrelayed, hhanded⟩ := hgrown
    rw [List.append_nil] at hhanded
    cases after
    simp_all only
  refine Effect.Triple.attempt_keeps (hwrite.conseq (fun _ h => h)
    (fun _ after h => hafter List.prefix_rfl h) fun _ after h => ?_)
  obtain ⟨sent, written, hsent, hwritten, hgrown⟩ := h
  obtain rfl := List.prefix_nil.mp hwritten
  exact hafter hsent hgrown

/-- An input that ends the loop is nothing else. -/
theorem carry_of_ends {input : BridgeInput ι} (h : EndsBridge side input) :
    bridgeEvent C side input = none ∧ relayAnswer input = [] ∧ localAnswer side input = [] := by
  cases input with
  | fromLocal input fresh =>
    change side.take input = .ends at h
    exact ⟨by rw [bridgeEvent, h], rfl, by rw [localAnswer, h]⟩
  | fromRelay received => exact h.elim

/-- It leaves the bridge as it is. -/
theorem Took.eq_of_ends {input : BridgeInput ι} {waiting bridge : Bridge ω}
    (h : Took C side waiting input false bridge) : bridge = waiting := by
  obtain ⟨hevent, hrelay, hlocal⟩ := carry_of_ends (C := C) (h.ended rfl)
  obtain ⟨htransport, hrelayed, hhanded⟩ := h.grown
  rw [carry_of_no_event hevent, hrelay, List.append_nil] at hrelayed
  rw [carry_of_no_event hevent, hlocal, List.append_nil] at hhanded
  rw [carry_of_no_event hevent] at htransport
  cases bridge
  simp_all only

/-- A bridge that waits has carried everything.  Otherwise one of the inputs has stopped it, and the
bridge has carried everything before this input.  Then the local side has ended the bridge, which
sends a closing envelope, or it has failed, with a part of this input carried. -/
theorem runBridge_carries (t : RelayTransport) (inputs : List (BridgeInput ι)) :
    Effect.Triple (· = Bridge.start ω t) (runBridge C side outside inputs)
      (fun waits bridge => if waits = true then Carried C side t inputs bridge
        else ∃ taken last waiting, StopsAt C side outside t inputs taken last waiting bridge ∧
          EndsBridge side last ∧ Carried C side t taken waiting ∧ waiting.Closes C bridge)
      fun _ bridge => ∃ taken last waiting,
        StopsAt C side outside t inputs taken last waiting bridge ∧
        Carried C side t taken waiting ∧ TookPart C side waiting last bridge := by
  refine Effect.Triple.of_ends fun start hstart => ?_
  subst hstart
  obtain ⟨bridge, hwaits⟩ | ⟨taken, last, left, waiting, rfl, hwaits, hstops⟩ :=
    Effect.handle_cases (bridgePass C side outside) inputs (Bridge.start ω t)
  · exact Or.inl ⟨true, bridge, runBridge_of_waits hwaits, carried_of_waits hwaits⟩
  have hcarried := carried_of_waits hwaits
  have hlast : ∀ left, Effect.handle (bridgePass C side outside) (taken ++ last :: left)
      (Bridge.start ω t) = bridgePass C side outside last waiting :=
    Effect.handle_append_cons hwaits hstops
  have hstopsAt : ∀ {result bridge}, result ≠ .ok true →
      runBridge C side outside (taken ++ last :: left) (Bridge.start ω t) = (result, bridge) →
      bridge.transport = (carry C side waiting.transport last).2 →
      StopsAt C side outside t (taken ++ last :: left) taken last waiting bridge := by
    intro result bridge hresult hrun htransport
    refine ⟨⟨left, rfl⟩, runBridge_of_waits hwaits, ⟨result, hresult, ?_⟩, ?_⟩
    · rw [← hrun]
      exact runBridge_congr ((hlast []).trans (hlast left).symm)
    · rw [htransport, hcarried.transport, ← Machine.final_concat, final_carry]
  obtain ⟨goes, after, hpass, htook⟩ | ⟨error, after, hpass, hpart⟩ :=
    (@bridgePass_triple _ _ C side outside _ last).ends (s := waiting) rfl
  · obtain rfl : goes = false := by
      cases goes with
      | false => rfl
      | true => exact absurd (congrArg Prod.fst hpass) hstops
    obtain rfl := htook.eq_of_ends
    have hends := htook.ended rfl
    have hsilent := (carry_of_ends (C := C) hends).1
    obtain ⟨closed, bridge, hclosing, hcloses⟩ | ⟨_, _, -, hfalse⟩ :=
      (@closing_triple _ _ C side outside after fun _ _ => False).ends (s := after) rfl
    · have hrun := runBridge_of_ends ((hlast left).trans hpass) hclosing
      have htransport : bridge.transport = (carry C side after.transport last).2 := by
        obtain ⟨sent, -, rfl⟩ := hcloses
        rw [carry_of_no_event hsilent]
      exact Or.inl ⟨false, bridge, hrun, taken, last, after,
        hstopsAt (by simp) hrun htransport, hends, hcarried, hcloses⟩
    · exact hfalse.elim
  · have hrun := runBridge_of_fails ((hlast left).trans hpass)
    have htransport : after.transport = (carry C side waiting.transport last).2 := by
      obtain ⟨sent, written, -, -, hgrown⟩ := hpart
      exact hgrown.transport
    exact Or.inr ⟨error, after, hrun, taken, last, waiting,
      hstopsAt (by simp) hrun htransport, hcarried, hpart⟩

/-- Every event keeps the limits of the reassembler. -/
theorem invariant_step (ht : t.reassembler.Invariant) (event : Event) :
    (t.step C event).2.reassembler.Invariant := by
  cases event with
  | outgoing fresh message =>
    change (t.prepare fresh message).reassembler.Invariant
    rw [prepare_reassembler]
    split_ifs
    · exact invariant_empty
    · exact ht
  | incoming envelope => exact invariant_observeServerEnvelope ht

/-- Whatever the relay sends, and however the bridge goes on or ends, the transport holds the parts
of at most eight messages, and no more bytes of them than the limit. -/
theorem runBridge_bounded (C : Codec) (side : LocalSide ι ω) (outside : BridgeOutside ω)
    (clientId environmentId streamId : String) (inputs : List (BridgeInput ι)) :
    (runBridge C side outside inputs (Bridge.start ω (connect clientId environmentId
      streamId))).2.transport.reassembler.Invariant := by
  have hrun : ∀ run : List (BridgeInput ι), (Machine.final (carry C side)
      (connect clientId environmentId streamId) run).reassembler.Invariant := by
    intro run
    rw [final_carry]
    exact Machine.final_induction (step C) (P := fun t => t.reassembler.Invariant)
      (fun _ event ht => invariant_step ht event) invariant_empty _
  have hbounded : Effect.Triple
      (· = Bridge.start ω (connect clientId environmentId streamId))
      (runBridge C side outside inputs)
      (fun _ bridge => bridge.transport.reassembler.Invariant)
      fun _ bridge => bridge.transport.reassembler.Invariant := by
    refine (runBridge_carries (connect clientId environmentId streamId) inputs).conseq
      (fun _ h => h) (fun waits bridge h => ?_) fun _ bridge h => ?_
    · cases waits with
      | true =>
        rw [if_pos rfl] at h
        rw [h.transport]
        exact hrun inputs
      | false =>
        obtain ⟨taken, last, waiting, hstops, -⟩ := h
        rw [hstops.transport, ← final_carry]
        exact hrun _
    · obtain ⟨taken, last, waiting, hstops, -⟩ := h
      rw [hstops.transport, ← final_carry]
      exact hrun _
  exact hbounded.state rfl

end Run

end Rcodex
