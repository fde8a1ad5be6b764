import Pittacus.Proofs.Duties
import Pittacus.Proofs.Rings

/-! What a received data message, and a received datagram, come down to. -/

namespace Pittacus

/-! ### Data -/

/-- What a node does with a data message once it acknowledged it. -/
def takeData (msg : MessageData) (random : Nat → UInt32) : Routine PittacusGossip Event Int := do
  let self ← Routine.get
  let (res, dataVersion) := vectorClockCompareWithRecord self.dataVersion msg.dataVersion true
  Routine.modify fun self => { self with dataVersion := dataVersion }
  if res = .before then do
    Routine.modify fun self => { self with dataLog := gossipDataLog self.dataLog msg }
    Routine.emit [.log msg]
    if self.dataReceiver then Routine.emit [.receive msg.dataVersion msg.data] else pure ()
    gossipEnqueueMessage (.data msg) [] .random random
  else return errNone

/-- The clock a message is compared with is already raised to it when the message is taken over. -/
theorem gossipHandleData_eq (envelopeIn : MessageEnvelopeIn) (random : Nat → UInt32) :
    gossipHandleData envelopeIn random =
      returnIfNotConnected
        (match (messageDataDecode envelopeIn.bufferSize).result envelopeIn.buffer with
        | .error code => return code
        | .ok (_, msg) => do
          let _ ← gossipEnqueueAck msg.header.sequenceNum envelopeIn.sender
          takeData msg random) := by
  unfold gossipHandleData
  cases (messageDataDecode envelopeIn.bufferSize).result envelopeIn.buffer with
  | error code => rfl
  | ok decoded => rfl

/-- A node whose clock and log were brought up to a message. -/
def PittacusGossip.adopting (self : PittacusGossip) (msg : MessageData) : PittacusGossip :=
  { self with
    dataVersion :=
      vectorClockSetById self.dataVersion msg.dataVersion.memberId msg.dataVersion.sequenceNumber
    dataLog := gossipDataLog self.dataLog msg }

/-- The events that a message taken over causes before it is spread. -/
def adoptionEvents (receiving : Bool) (msg : MessageData) : List Event :=
  .log msg :: if receiving then [.receive msg.dataVersion msg.data] else []

/-- A message is taken over and spread, or dropped without a trace. -/
theorem takeData_run (msg : MessageData) (random : Nat → UInt32) (self : PittacusGossip) :
    takeData msg random self =
      if (vectorClockCompareWithRecord self.dataVersion msg.dataVersion true).1 = .before then
        let ran := gossipEnqueueMessage (.data msg) [] .random random (self.adopting msg)
        ⟨ran.value, ran.state, adoptionEvents self.dataReceiver msg ++ ran.events⟩
      else ⟨errNone, self, []⟩ := by
  have merged := vectorClockCompareWithRecord_merge self.dataVersion msg.dataVersion
  simp only [takeData, Routine.get_bind_run, Routine.modify_bind_run]
  by_cases before :
      (vectorClockCompareWithRecord self.dataVersion msg.dataVersion true).1 = .before
  · rw [if_pos before] at merged
    rw [if_pos before, if_pos before, merged]
    simp only [Routine.modify_bind_run, Routine.emit_bind_run, adoptionEvents]
    cases receiving : self.dataReceiver with
    | true => simp [PittacusGossip.adopting, receiving]
    | false => simp [PittacusGossip.adopting, receiving]
  · -- The clock written back is the one that was read.
    rw [if_neg before] at merged
    rw [if_neg before, if_neg before, merged]
    rfl

/-- The message that carries a node's next payload. -/
def PittacusGossip.ownMessage (self : PittacusGossip) (data : List UInt8) : MessageData :=
  enqueuedData ⟨self.dataCounter + 1, vectorClockCreateMemberId self.selfAddress⟩ data

/-- A payload that fits is sent as it is. -/
theorem ownMessage_data (self : PittacusGossip) {data : List UInt8}
    (short : data.length ≤ messageMaxSize - 26) : (self.ownMessage data).data = data := by
  -- Its length is not changed by narrowing it to sixteen bits.
  have small : data.length % 2 ^ 16 = data.length := by
    simp only [messageMaxSize] at short
    omega
  simp only [PittacusGossip.ownMessage, enqueuedData, small, List.take_length]

/-- A payload is counted, taken over like a received one, and spread. -/
theorem gossipEnqueueData_run (data : List UInt8) (random : Nat → UInt32) (self : PittacusGossip) :
    gossipEnqueueData data random self =
      gossipEnqueueMessage (.data (self.ownMessage data)) [] .random random
        (({ self with dataCounter := self.dataCounter + 1 } : PittacusGossip).adopting
          (self.ownMessage data)) := rfl

/-! ### Datagrams -/

/-- A datagram is left to the handler of its type, or has no effect. -/
theorem Chores.handleNewMessage {scope : Scope}
    {relation : PittacusGossip → List Event → PittacusGossip → Prop}
    (chores : Chores scope relation) (enters : Routine.Meets relation (enterState .connected))
    (envelopeIn : MessageEnvelopeIn) (within : envelopeIn.Within scope)
    (random : Nat → UInt32)
    (data : (messageTypeDecode envelopeIn.bufferSize).result envelopeIn.buffer = .ok messageDataType →
      Routine.Meets relation (gossipHandleData envelopeIn random)) :
    Routine.Meets relation (gossipHandleNewMessage envelopeIn random) := by
  unfold gossipHandleNewMessage
  cases typed : (messageTypeDecode envelopeIn.bufferSize).result envelopeIn.buffer with
  | error code => exact Routine.meets_pure chores.chains _
  | ok messageType =>
    -- The types in the order of the switch; any other is refused.
    refine Routine.meets_ite (fun _ => chores.handleHello envelopeIn within) fun _ => ?_
    refine Routine.meets_ite (fun _ => chores.handleWelcome enters envelopeIn within) fun _ => ?_
    refine Routine.meets_ite (fun _ => chores.handleMemberList envelopeIn within) fun _ => ?_
    refine Routine.meets_ite (fun same => data (same ▸ typed)) fun _ => ?_
    refine Routine.meets_ite (fun _ => chores.handleAck envelopeIn within) fun _ => ?_
    refine Routine.meets_ite (fun _ => chores.handleStatus envelopeIn within) fun _ => ?_
    exact Routine.meets_pure chores.chains _

/-- Changes aside included, a datagram is handled as its type asks for. -/
theorem Duties.handleNewMessage {scope : Scope}
    {relation : PittacusGossip → List Event → PittacusGossip → Prop}
    (duties : Duties scope relation) (envelopeIn : MessageEnvelopeIn)
    (within : envelopeIn.Within scope) (random : Nat → UInt32)
    (data : (messageTypeDecode envelopeIn.bufferSize).result envelopeIn.buffer = .ok messageDataType →
      Routine.Meets relation (gossipHandleData envelopeIn random)) :
    Routine.Meets relation (gossipHandleNewMessage envelopeIn random) :=
  duties.toChores.handleNewMessage (duties.enters _) envelopeIn within random data

/-- The envelope a datagram arrives in. -/
def envelopeOf (datagram sender : List UInt8) (beyond : Nat → UInt8) : MessageEnvelopeIn where
  sender := sender
  buffer := Decoder.memoryOf (datagram.take messageMaxSize) beyond
  bufferSize := (datagram.take messageMaxSize).length

/-- Receiving a datagram is handling the envelope it arrives in, if the node listens. -/
theorem pittacusGossipProcessReceive_meets
    {relation : PittacusGossip → List Event → PittacusGossip → Prop}
    (chains : Routine.Chains relation) (datagram sender : List UInt8) (beyond : Nat → UInt8)
    (random : Nat → UInt32)
    (handled : Routine.Meets relation
      (gossipHandleNewMessage (envelopeOf datagram sender beyond) random)) :
    Routine.Meets relation (pittacusGossipProcessReceive datagram sender beyond random) := by
  refine Routine.meets_bind chains (Routine.meets_get chains) fun self => ?_
  refine Routine.meets_ite (fun _ => Routine.meets_pure chains _) fun _ => ?_
  exact Routine.meets_ite (fun _ => Routine.meets_pure chains _) fun _ => handled

end Pittacus
