import Pittacus.Ownership.Buffers

/-! What is queued, and for whom, as long as there is room in the queue. -/

namespace Pittacus

/-- Which messages wait in the outbound queue, and for whom. -/
def PittacusGossip.awaiting (node : PittacusGossip) : List (List UInt8 × Message) :=
  node.outboundMessages.map fun envelope => (envelope.recipient, envelope.message)

/-- What a computation queued, without touching anything besides the queue. -/
structure Queues (messages : List (List UInt8 × Message)) (before : PittacusGossip)
    (ran : Outcome PittacusGossip Event Int) : Prop where
  value : ran.value = errNone
  awaiting : ran.state.awaiting = before.awaiting ++ messages
  owns : before.Owns → ran.state.Owns
  same : SameBesidesQueue before ran.state

theorem SameBesidesQueue.refl (self : PittacusGossip) : SameBesidesQueue self self :=
  ⟨rfl, rfl, rfl, rfl, rfl, rfl, rfl⟩

theorem SameBesidesQueue.trans {first middle last : PittacusGossip}
    (early : SameBesidesQueue first middle) (late : SameBesidesQueue middle last) :
    SameBesidesQueue first last where
  dataCounter := late.dataCounter.trans early.dataCounter
  dataVersion := late.dataVersion.trans early.dataVersion
  state := late.state.trans early.state
  selfAddress := late.selfAddress.trans early.selfAddress
  members := late.members.trans early.members
  dataLog := late.dataLog.trans early.dataLog
  dataReceiver := late.dataReceiver.trans early.dataReceiver

/-- Doing nothing queues nothing. -/
theorem queues_nil (self : PittacusGossip) (events : List Event) :
    Queues [] self ⟨errNone, self, events⟩ :=
  ⟨rfl, (List.append_nil _).symm, fun owns => owns, .refl self⟩

/-- What is queued after something else stands behind it. -/
theorem Queues.andThen {messages later : List (List UInt8 × Message)} {self : PittacusGossip}
    {routine : Routine PittacusGossip Event Int} {next : Int → Routine PittacusGossip Event Int}
    (first : Queues messages self (routine self))
    (second : Queues later (routine self).state (next errNone (routine self).state)) :
    Queues (messages ++ later) self ((routine >>= next) self) := by
  rw [Routine.bind_run, first.value]
  refine ⟨second.value, ?_, fun owns => second.owns (first.owns owns),
    first.same.trans second.same⟩
  rw [second.awaiting, first.awaiting, List.append_assoc]

/-- Whatever can be queued for some recipients is queued for each of them in turn. -/
theorem envelopesFor_awaiting (message : Message) (buffer bufferSize : Nat) (sequenceNum : UInt32)
    (recipients : List (List UInt8)) :
    (envelopesFor message buffer bufferSize sequenceNum recipients).map
        (fun envelope => (envelope.recipient, envelope.message))
      = recipients.map fun recipient => (recipient, message) := by
  induction recipients generalizing sequenceNum with
  | nil => rfl
  | cons receiver rest ih => rw [envelopesFor, List.map_cons, List.map_cons, ih]

/-- As long as fewer envelopes are queued than there are slots, a message that fits is queued. -/
theorem gossipEnqueueMessage_queuesTo {message : Message} (fits : message.Fits)
    (room : message.required ≤ messageMaxSize) (recipient : List UInt8)
    (spreading : GossipSpreadingType) (random : Nat → UInt32) (self : PittacusGossip)
    (roomy : self.awaiting.length < maxOutputMessages) :
    Queues ((spreadingRecipients self recipient spreading random).map fun address => (address, message))
      self
      (gossipEnqueueMessage message recipient spreading random self) := by
  have same := gossipEnqueueMessage_same message recipient spreading random self
  rw [PittacusGossip.awaiting, List.length_map] at roomy
  have free := free_of_roomy roomy
  have owns := fun owns : self.Owns =>
    (owns.enqueue fits (spares_of_free free) recipient spreading random).1
  rw [gossipEnqueueMessage_accepted fits room] at same owns ⊢
  refine ⟨rfl, ?_, owns, same⟩
  -- The queue is kept as it is, and the envelopes are put behind it.
  simp only [PittacusGossip.awaiting, PittacusGossip.queued, placement_of_free free,
    List.map_append, envelopesFor_awaiting]

/-- A message that fits is queued for its one recipient. -/
theorem gossipEnqueueMessage_queues {message : Message} (fits : message.Fits)
    (room : message.required ≤ messageMaxSize) (recipient : List UInt8) (random : Nat → UInt32)
    (self : PittacusGossip) (roomy : self.awaiting.length < maxOutputMessages) :
    Queues [(recipient, message)] self
      (gossipEnqueueMessage message recipient .direct random self) :=
  gossipEnqueueMessage_queuesTo fits room recipient .direct random self roomy

end Pittacus
