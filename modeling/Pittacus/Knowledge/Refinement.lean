import Pittacus.Knowledge.Learn
import Pittacus.Proofs.Handlers
import Pittacus.Proofs.Sending
import Pittacus.Wire.Header

/-! Every call on a node changes what it knows by exactly the news the call brings. -/

namespace Pittacus

/-- What a node knows about data. -/
def PittacusGossip.knowledge (self : PittacusGossip) : Knowledge where
  ownId := vectorClockCreateMemberId self.selfAddress
  counter := self.dataCounter
  clock := self.dataVersion
  log := self.dataLog

/-- The data message a datagram is accepted as. -/
def dataReceived (datagram : List UInt8) (beyond : Nat → UInt8) : Option MessageData :=
  let received := datagram.take messageMaxSize
  match (messageDataDecode received.length).result (Decoder.memoryOf received beyond) with
  | .ok (_, msg) => some msg
  | .error _ => none

/-- What a call tells a node about data; a node that is not connected is told nothing. -/
def PittacusGossip.news (self : PittacusGossip) : Input → News
  | .sendData data _ => if self.state = .connected then .sent data else .nothing
  | .processReceive datagram _ beyond _ =>
    if self.state = .connected then
      match dataReceived datagram beyond with
      | some msg => .arrived msg
      | none => .nothing
    else .nothing
  | _ => .nothing

/-- The received message an event logs. -/
def Event.asLog : Event → Option MessageData
  | .log msg => some msg
  | _ => none

/-- What an event hands to the data receiver. -/
def Event.asDelivery : Event → Option (VectorRecord × List UInt8)
  | .receive version data => some (version, data)
  | _ => none

/-- The data message an event spreads to random members. -/
def Event.asRumor : Event → Option MessageData
  | .enqueue _ _ _ (.data msg) .random => some msg
  | _ => none

/-- What happens between two states is what a piece of news makes happen. -/
structure Learns (news : News) (before : PittacusGossip) (events : List Event)
    (after : PittacusGossip) : Prop where
  knowledge : after.knowledge = before.knowledge.learn news
  dataReceiver : after.dataReceiver = before.dataReceiver
  logs : events.filterMap Event.asLog = (before.knowledge.received news).toList
  deliveries : events.filterMap Event.asDelivery =
    if before.dataReceiver then
      (before.knowledge.received news).toList.map fun msg => (msg.dataVersion, msg.data)
    else []
  rumors : events.filterMap Event.asRumor = (before.knowledge.adopted news).toList

/-- What happens between two states has nothing to do with data. -/
structure Quiet (before : PittacusGossip) (events : List Event) (after : PittacusGossip) : Prop where
  knowledge : after.knowledge = before.knowledge
  dataReceiver : after.dataReceiver = before.dataReceiver
  logs : events.filterMap Event.asLog = []
  deliveries : events.filterMap Event.asDelivery = []
  rumors : events.filterMap Event.asRumor = []

theorem quiet_chains : Routine.Chains Quiet where
  rest _ := ⟨rfl, rfl, rfl, rfl, rfl⟩
  join first second :=
    ⟨second.knowledge.trans first.knowledge, second.dataReceiver.trans first.dataReceiver,
      by rw [List.filterMap_append, first.logs, second.logs, List.append_nil],
      by rw [List.filterMap_append, first.deliveries, second.deliveries, List.append_nil],
      by rw [List.filterMap_append, first.rumors, second.rumors, List.append_nil]⟩

/-- Nothing new is learned from what has nothing to do with data. -/
theorem Quiet.learns {before after : PittacusGossip} {events : List Event}
    (quiet : Quiet before events after) : Learns .nothing before events after where
  knowledge := quiet.knowledge
  dataReceiver := quiet.dataReceiver
  logs := quiet.logs
  deliveries := by
    rw [quiet.deliveries]
    split
    · rfl
    · rfl
  rumors := quiet.rumors

/-- News may come after what has nothing to do with data. -/
theorem Quiet.andThen {news : News} {first middle last : PittacusGossip}
    {early late : List Event} (quiet : Quiet first early middle)
    (learns : Learns news middle late last) : Learns news first (early ++ late) last where
  knowledge := by rw [learns.knowledge, quiet.knowledge]
  dataReceiver := learns.dataReceiver.trans quiet.dataReceiver
  logs := by rw [List.filterMap_append, quiet.logs, learns.logs, quiet.knowledge, List.nil_append]
  deliveries := by
    rw [List.filterMap_append, quiet.deliveries, learns.deliveries, quiet.knowledge,
      quiet.dataReceiver, List.nil_append]
  rumors := by
    rw [List.filterMap_append, quiet.rumors, learns.rumors, quiet.knowledge, List.nil_append]

/-! ### Queueing a message -/

/-- The envelopes that make room for a message say nothing about data. -/
theorem reclaimed_filterMap {γ : Type} (view : Event → Option γ)
    (ignores : ∀ envelope reason, view (.remove envelope reason) = none)
    (removed : List MessageEnvelopeOut) :
    (removed.map fun envelope => Event.remove envelope .reclaimed).filterMap view = [] := by
  induction removed with
  | nil => rfl
  | cons envelope rest ih => rw [List.map_cons, List.filterMap_cons_none (ignores _ _), ih]

/-- A view that ignores removals sees one event of queueing a message. -/
theorem enqueueEvents_filterMap {γ : Type} (view : Event → Option γ)
    (ignores : ∀ envelope reason, view (.remove envelope reason) = none)
    (queue : List MessageEnvelopeOut) (message : Message) (spreading : GossipSpreadingType) :
    (enqueueEvents queue message spreading).filterMap view =
      (view (.enqueue queue (placement queue).1 (placement queue).2.1 message spreading)).toList := by
  rw [enqueueEvents, List.filterMap_append, reclaimed_filterMap view ignores, List.nil_append]
  cases seen : view (.enqueue queue (placement queue).1 (placement queue).2.1 message spreading) with
  | none => rw [List.filterMap_cons_none seen]; rfl
  | some shown => rw [List.filterMap_cons_some seen]; rfl

/-- Queueing a message leaves everything known about data as it was. -/
theorem gossipEnqueueMessage_knowledge (message : Message) (recipient : List UInt8)
    (spreading : GossipSpreadingType) (random : Nat → UInt32) (self : PittacusGossip) :
    (gossipEnqueueMessage message recipient spreading random self).state.knowledge
        = self.knowledge ∧
      (gossipEnqueueMessage message recipient spreading random self).state.dataReceiver
        = self.dataReceiver := by
  -- Only the queue, the buffer and the sequence number are touched.
  have same := gossipEnqueueMessage_same message recipient spreading random self
  refine ⟨?_, same.dataReceiver⟩
  simp only [PittacusGossip.knowledge, same.selfAddress, same.dataCounter, same.dataVersion,
    same.dataLog]

/-- Queueing any message but a rumor has nothing to do with data. -/
theorem gossipEnqueueMessage_quiet (message : Message) (recipient : List UInt8)
    (spreading : GossipSpreadingType) (random : Nat → UInt32)
    (routine : ¬IsRumor message spreading) :
    Routine.Meets Quiet (gossipEnqueueMessage message recipient spreading random) := by
  intro self
  obtain ⟨knowledge, dataReceiver⟩ :=
    gossipEnqueueMessage_knowledge message recipient spreading random self
  refine ⟨knowledge, dataReceiver, ?_, ?_, ?_⟩ <;>
    rw [gossipEnqueueMessage_events, enqueueEvents_filterMap _ (fun _ _ => rfl)]
  · rfl
  · rfl
  · -- Only a rumor shows.
    cases message <;> cases spreading <;> first | rfl | exact absurd trivial routine

/-- The routine work of a node has nothing to do with data. -/
theorem quiet_duties : Duties Scope.any Quiet where
  chains := quiet_chains
  enqueue self message recipient spreading random routine _ _ :=
    gossipEnqueueMessage_quiet message recipient spreading random routine self
  acknowledge sequenceNum _ self := by
    unfold gossipEnvelopeAcknowledge
    rw [Routine.get_bind_run]
    cases gossipEnvelopeFindBySequenceNum self.outboundMessages sequenceNum with
    | none => exact ⟨rfl, rfl, rfl, rfl, rfl⟩
    | some envelope => exact ⟨rfl, rfl, rfl, rfl, rfl⟩
  remember newMembers _ self := ⟨rfl, rfl, rfl, rfl, rfl⟩
  introduce member _ :=
    Routine.meets_bind quiet_chains (gossipEnqueueMessage_quiet _ _ _ _ id)
      fun _ self => ⟨rfl, rfl, rfl, rfl, rfl⟩
  aside change unrelated self := by
    have same := unrelated self
    refine ⟨?_, same.dataReceiver, rfl, rfl, rfl⟩
    simp [PittacusGossip.knowledge, same.dataCounter, same.dataVersion, same.dataLog,
      same.selfAddress]

/-! ### Sending datagrams -/

/-- No turn of a walk along the queue has anything to do with data. -/
theorem Walk.quiet {times : Nat → Nat} {results : Nat → Int}
    {exhausted : Option MessageEnvelopeOut} {readings sent : Nat}
    {passed queue : List MessageEnvelopeOut} {self : PittacusGossip}
    {ran : Outcome PittacusGossip Event Int}
    (walk : Walk times results exhausted readings sent passed queue self ran) :
    Quiet self ran.events ran.state := by
  -- The queue, the output buffer and the members change, and nothing is logged or delivered.
  induction walk with
  | done => exact quiet_chains.rest _
  | dropped _ _ ih =>
    refine quiet_chains.join ?_ ih
    exact ⟨rfl, rfl, rfl, rfl, rfl⟩
  | givenUp _ _ _ ih =>
    refine quiet_chains.join ?_ ih
    exact ⟨rfl, rfl, rfl, rfl, rfl⟩
  | spent _ _ _ ih =>
    refine quiet_chains.join ?_ ih
    exact ⟨rfl, rfl, rfl, rfl, rfl⟩
  | waits _ ih => exact ih
  | refused _ => exact ⟨rfl, rfl, rfl, rfl, rfl⟩
  | sentOnce _ _ _ _ _ ih =>
    refine quiet_chains.join ?_ ih
    exact ⟨rfl, rfl, rfl, rfl, rfl⟩
  | attempted _ _ _ _ _ ih =>
    refine quiet_chains.join ?_ ih
    exact ⟨rfl, rfl, rfl, rfl, rfl⟩

theorem pittacusGossipProcessSend_quiet (times : Nat → Nat) (results : Nat → Int) :
    Routine.Meets Quiet (pittacusGossipProcessSend times results) := by
  apply Routine.meets_bind quiet_chains (Routine.meets_get quiet_chains)
  intro self
  exact Routine.meets_ite (fun _ => Routine.meets_pure quiet_chains _)
    (fun _ self => (processSendFrom_walk times results none 0 0 [] _ self).quiet)

/-! ### Data -/

/-- A payload of the node's own is adopted and spread. -/
theorem gossipEnqueueData_learns (data : List UInt8) (random : Nat → UInt32)
    (self : PittacusGossip) :
    Learns (.sent data) self (gossipEnqueueData data random self).events
      (gossipEnqueueData data random self).state := by
  rw [gossipEnqueueData_run]
  obtain ⟨knowledge, dataReceiver⟩ := gossipEnqueueMessage_knowledge
    (.data (self.ownMessage data)) [] .random random
    (({ self with dataCounter := self.dataCounter + 1 } : PittacusGossip).adopting
      (self.ownMessage data))
  -- Queueing logs and delivers nothing, so only the adopted payload shows.
  refine ⟨knowledge, dataReceiver, ?_, ?_, ?_⟩ <;>
    rw [gossipEnqueueMessage_events, enqueueEvents_filterMap _ (fun _ _ => rfl)]
  · rfl
  · split
    · rfl
    · rfl
  · rfl

/-- A message is novel exactly when the clock is before it. -/
theorem novel_iff (self : PittacusGossip) (msg : MessageData) :
    self.knowledge.Novel msg ↔
      (vectorClockCompareWithRecord self.dataVersion msg.dataVersion true).1 = .before := by
  rw [vectorClockCompareWithRecord_before]
  rfl

/-- A received message is adopted, delivered and spread exactly when it is novel. -/
theorem takeData_learns (msg : MessageData) (random : Nat → UInt32) (self : PittacusGossip) :
    Learns (.arrived msg) self (takeData msg random self).events
      (takeData msg random self).state := by
  rw [takeData_run]
  by_cases novel : self.knowledge.Novel msg
  · have received : self.knowledge.received (.arrived msg) = some msg := by
      rw [Knowledge.received, if_pos novel]
    have adopted : self.knowledge.adopted (.arrived msg) = some msg := received
    have learned : self.knowledge.learn (.arrived msg) = self.knowledge.adopt msg := by
      simp only [Knowledge.learn, adopted]
      rfl
    obtain ⟨knowledge, dataReceiver⟩ :=
      gossipEnqueueMessage_knowledge (.data msg) [] .random random (self.adopting msg)
    rw [if_pos ((novel_iff self msg).mp novel)]
    refine ⟨knowledge.trans learned.symm, dataReceiver, ?_, ?_, ?_⟩ <;>
      rw [List.filterMap_append, gossipEnqueueMessage_events,
        enqueueEvents_filterMap _ (fun _ _ => rfl)]
    · rw [received, adoptionEvents]
      split <;> rfl
    · rw [received, adoptionEvents]
      split <;> rfl
    · rw [adopted, adoptionEvents]
      split <;> rfl
  · -- The message is dropped, and nothing is learned.
    have received : self.knowledge.received (.arrived msg) = none := by
      rw [Knowledge.received, if_neg novel]
    have adopted : self.knowledge.adopted (.arrived msg) = none := received
    rw [if_neg (fun before => novel ((novel_iff self msg).mpr before))]
    refine ⟨?_, rfl, ?_, ?_, ?_⟩
    · simp only [Knowledge.learn, adopted]
      rfl
    · rw [received]
      rfl
    · rw [received]
      split <;> rfl
    · rw [adopted]
      rfl

/-- A connected node that accepts a data message learns it. -/
theorem gossipHandleData_learns (envelopeIn : MessageEnvelopeIn) (random : Nat → UInt32)
    (self : PittacusGossip) (connected : self.state = .connected) :
    Learns
      (match (messageDataDecode envelopeIn.bufferSize).result envelopeIn.buffer with
        | .error _ => .nothing
        | .ok (_, msg) => .arrived msg)
      self (gossipHandleData envelopeIn random self).events
      (gossipHandleData envelopeIn random self).state := by
  rw [gossipHandleData_eq, returnIfNotConnected, Routine.get_bind_run]
  have open_ : ¬self.state ≠ .connected := fun other => other connected
  rw [if_neg open_]
  cases (messageDataDecode envelopeIn.bufferSize).result envelopeIn.buffer with
  | error code => exact (quiet_chains.rest self).learns
  | ok decoded =>
    -- The acknowledgement is queued first, and is no news.
    have acked : Routine.Meets Quiet
        (gossipEnqueueAck decoded.2.header.sequenceNum envelopeIn.sender) :=
      quiet_duties.enqueueAck trivial
    exact (acked self).andThen (takeData_learns decoded.2 random _)

/-- A message that is not a data message brings no news. -/
theorem gossipHandleNewMessage_learns (envelopeIn : MessageEnvelopeIn) (random : Nat → UInt32)
    (self : PittacusGossip) :
    Learns
      (if self.state = .connected then
        match (messageDataDecode envelopeIn.bufferSize).result envelopeIn.buffer with
        | .error _ => .nothing
        | .ok (_, msg) => .arrived msg
      else .nothing)
      self (gossipHandleNewMessage envelopeIn random self).events
      (gossipHandleNewMessage envelopeIn random self).state := by
  by_cases typed :
      (messageTypeDecode envelopeIn.bufferSize).result envelopeIn.buffer = .ok messageDataType
  · have handled : gossipHandleNewMessage envelopeIn random = gossipHandleData envelopeIn random := by
      rw [gossipHandleNewMessage, typed]
      rfl
    rw [handled]
    by_cases connected : self.state = .connected
    · rw [if_pos connected]
      exact gossipHandleData_learns envelopeIn random self connected
    · rw [if_neg connected, gossipHandleData, returnIfNotConnected, Routine.get_bind_run,
        if_pos connected]
      exact (quiet_chains.rest self).learns
  · -- A message of another type is not accepted as a data message.
    have other : ¬Announces envelopeIn.buffer envelopeIn.bufferSize messageDataType :=
      fun announced => typed (messageTypeDecode_announced announced)
    have quiet := quiet_duties.handleNewMessage envelopeIn envelopeIn.within_any random
      (fun data => absurd data typed) self
    rw [messageDataDecode, returnIfInvalidPayload_result, if_neg other, ite_self]
    exact quiet.learns

/-- A step changes what is known, and causes events about data, by the news it brings. -/
theorem gossipStep_learns (input : Input) (self : PittacusGossip) :
    Learns (self.news input) self (gossipStep input self).events (gossipStep input self).state := by
  cases input with
  | join seedNodes => exact (quiet_duties.join (fun _ _ _ => trivial) self).learns
  | tick now random => exact (quiet_duties.tick now random self).learns
  | processSend times results =>
    exact (pittacusGossipProcessSend_quiet times results self).learns
  | sendData data random =>
    simp only [gossipStep, pittacusGossipSendData, returnIfNotConnected, Routine.get_bind_run,
      PittacusGossip.news]
    by_cases connected : self.state = .connected
    · rw [if_neg (not_not.mpr connected), if_pos connected]
      exact gossipEnqueueData_learns data random self
    · rw [if_pos connected, if_neg connected]
      exact (quiet_chains.rest self).learns
  | processReceive datagram sender beyond random =>
    simp only [gossipStep, pittacusGossipProcessReceive, Routine.get_bind_run]
    by_cases exchanges : self.exchanges = true
    · rw [if_neg (by simp [exchanges])]
      cases empty : (datagram.take messageMaxSize).isEmpty with
      | true =>
        have nothing : self.news (.processReceive datagram sender beyond random) = .nothing := by
          have taken : datagram.take messageMaxSize = [] := List.isEmpty_iff.mp empty
          have rejected : dataReceived datagram beyond = none := by
            rw [dataReceived, taken]
            rfl
          simp [PittacusGossip.news, rejected]
        rw [if_pos rfl, nothing]
        exact (quiet_chains.rest self).learns
      | false =>
        rw [if_neg (by simp)]
        have learned := gossipHandleNewMessage_learns
          ⟨sender, Decoder.memoryOf (datagram.take messageMaxSize) beyond,
            (datagram.take messageMaxSize).length⟩ random self
        have same : self.news (.processReceive datagram sender beyond random) =
            (if self.state = .connected then
              match (messageDataDecode (datagram.take messageMaxSize).length).result
                  (Decoder.memoryOf (datagram.take messageMaxSize) beyond) with
              | .error _ => .nothing
              | .ok (_, msg) => .arrived msg
            else .nothing) := by
          simp only [PittacusGossip.news, dataReceived]
          cases (messageDataDecode (datagram.take messageMaxSize).length).result
            (Decoder.memoryOf (datagram.take messageMaxSize) beyond) with
          | error code => rfl
          | ok decoded => rfl
        rw [same]
        exact learned
    · -- A node that takes no part in the exchange is not connected.
      have apart : ¬self.state = .connected := by
        intro connected
        apply exchanges
        simp [PittacusGossip.exchanges, connected]
      rw [if_pos (by simp [exchanges])]
      simp only [PittacusGossip.news, if_neg apart]
      exact (quiet_chains.rest self).learns

end Pittacus
