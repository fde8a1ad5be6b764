import Pittacus.Gossip.Api

/-! What queueing a message does to a node, in one equation. -/

namespace Pittacus

/-- The slot for the next message, the queue that is left, and the envelopes that made room. -/
def placement (queue : List MessageEnvelopeOut) :
    Nat × List MessageEnvelopeOut × List MessageEnvelopeOut :=
  if queue.isEmpty then (0, queue, []) else chooseOutputBuffer queue

/-- The envelopes of one message, numbered on from the last sequence number used. -/
def envelopesFor (message : Message) (buffer bufferSize : Nat) :
    UInt32 → List (List UInt8) → List MessageEnvelopeOut
  | _, [] => []
  | sequenceNum, receiver :: rest =>
    { recipient := receiver
      buffer := buffer
      bufferSize := bufferSize
      sequenceNum := sequenceNum + 1
      attemptTs := 0
      attemptNum := 0
      maxAttempts := messageMaxAttempts message
      message := message } :: envelopesFor message buffer bufferSize (sequenceNum + 1) rest

/-- The value serializing a message returns: its size, or an error. -/
def encodeCode (message : Message) : Int :=
  match (messageEncode message messageMaxSize).result with
  | .ok size => size
  | .error code => code

/-- The node once a message was written to its slot, and before an envelope was queued for it. -/
def PittacusGossip.placed (self : PittacusGossip) (message : Message) : PittacusGossip :=
  { self with
    outboundMessages := (placement self.outboundMessages).2.1
    outputBufferOffset := (placement self.outboundMessages).1
    outputBuffer := Encoder.store self.outputBuffer (placement self.outboundMessages).1
      (messageEncode message messageMaxSize).writes }

/-- The node once a message of the given size was queued for its recipients. -/
def PittacusGossip.queued (self : PittacusGossip) (message : Message)
    (recipients : List (List UInt8)) : PittacusGossip :=
  { self.placed message with
    sequenceNum := self.sequenceNum + UInt32.ofNat recipients.length
    outboundMessages := (placement self.outboundMessages).2.1 ++
      envelopesFor message (placement self.outboundMessages).1 (encodeCode message).toNat
        self.sequenceNum recipients }

/-- The events queueing a message causes. -/
def enqueueEvents (queue : List MessageEnvelopeOut) (message : Message)
    (spreading : GossipSpreadingType) : List Event :=
  ((placement queue).2.2.map fun envelope => .remove envelope .reclaimed) ++
    [.enqueue queue (placement queue).1 (placement queue).2.1 message spreading]

/-- Choosing a slot leaves the queue and offset of the placement. -/
theorem gossipUpdateOutputBufferOffset_run (self : PittacusGossip) :
    gossipUpdateOutputBufferOffset self =
      ⟨(placement self.outboundMessages).1,
        { self with
          outboundMessages := (placement self.outboundMessages).2.1
          outputBufferOffset := (placement self.outboundMessages).1 },
        (placement self.outboundMessages).2.2.map fun envelope => .remove envelope .reclaimed⟩ := by
  -- An empty queue is not searched.
  simp only [gossipUpdateOutputBufferOffset, Routine.get_bind_run, Routine.ite_run, placement]
  cases empty : self.outboundMessages.isEmpty with
  | true => simp
  | false => simp [gossipFindAvailableOutputBuffer, Routine.bind_run]

/-- Queueing for each recipient appends one envelope each. -/
theorem gossipEnqueueToEach_run (message : Message) (buffer bufferSize : Nat)
    (recipients : List (List UInt8)) (self : PittacusGossip) :
    gossipEnqueueToEach message buffer bufferSize (messageMaxAttempts message) recipients errNone
        self =
      ⟨errNone,
        { self with
          sequenceNum := self.sequenceNum + UInt32.ofNat recipients.length
          outboundMessages := self.outboundMessages ++
            envelopesFor message buffer bufferSize self.sequenceNum recipients }, []⟩ := by
  -- Each recipient takes the next number, and the rest are numbered on from it.
  induction recipients generalizing self with
  | nil => simp [gossipEnqueueToEach, envelopesFor]
  | cons receiver rest ih =>
    have numbers : self.sequenceNum + (UInt32.ofNat rest.length + 1)
        = self.sequenceNum + 1 + UInt32.ofNat rest.length := by
      rw [UInt32.add_comm (UInt32.ofNat rest.length), UInt32.add_assoc]
    have queuedOne : gossipEnqueueToEach message buffer bufferSize (messageMaxAttempts message)
          (receiver :: rest) errNone self =
        gossipEnqueueToEach message buffer bufferSize (messageMaxAttempts message) rest errNone
          { self with
            sequenceNum := self.sequenceNum + 1
            outboundMessages := self.outboundMessages ++
              envelopesFor message buffer bufferSize self.sequenceNum [receiver] } := rfl
    rw [queuedOne, ih]
    simp [envelopesFor, numbers]

/-- Serializing a message writes its bytes at the slot and returns its code. -/
theorem gossipEncodeMessage_run (message : Message) (buffer : Nat) (self : PittacusGossip) :
    gossipEncodeMessage message buffer self =
      ⟨encodeCode message,
        { self with
          outputBuffer := Encoder.store self.outputBuffer buffer
            (messageEncode message messageMaxSize).writes }, []⟩ := by
  unfold gossipEncodeMessage encodeCode
  cases (messageEncode message messageMaxSize).result with
  | error code => rfl
  | ok size => rfl

/-- Queueing a message places it and, if it could be serialized, queues it for each recipient. -/
theorem gossipEnqueueMessage_run (message : Message) (recipient : List UInt8)
    (spreading : GossipSpreadingType) (random : Nat → UInt32) (self : PittacusGossip) :
    gossipEnqueueMessage message recipient spreading random self =
      if encodeCode message < 0 then
        ⟨encodeCode message, self.placed message,
          enqueueEvents self.outboundMessages message spreading⟩
      else
        ⟨errNone, self.queued message (spreadingRecipients self recipient spreading random),
          enqueueEvents self.outboundMessages message spreading⟩ := by
  simp only [gossipEnqueueMessage, Routine.get_bind_run,
    Routine.bind_of_run (gossipUpdateOutputBufferOffset_run _), Routine.emit_bind_run,
    Routine.bind_of_run (gossipEncodeMessage_run _ _ _)]
  -- The recipients depend on the members only, which placing a message does not touch.
  by_cases failed : encodeCode message < 0
  · simp [failed, PittacusGossip.placed, enqueueEvents]
  · simp only [if_neg failed, Routine.get_bind_run, gossipEnqueueToEach_run]
    simp [PittacusGossip.placed, PittacusGossip.queued, enqueueEvents, spreadingRecipients]

/-- A message that fits the output buffer is accepted by the encoder. -/
theorem encodeCode_accepts {message : Message} (fits : message.Fits)
    (room : message.required ≤ messageMaxSize) : encodeCode message = message.wire.length := by
  rw [encodeCode, messageEncode_eq fits room]

/-- A message that fits the output buffer is queued for each of its recipients. -/
theorem gossipEnqueueMessage_accepted {message : Message} (fits : message.Fits)
    (room : message.required ≤ messageMaxSize) (recipient : List UInt8)
    (spreading : GossipSpreadingType) (random : Nat → UInt32) (self : PittacusGossip) :
    gossipEnqueueMessage message recipient spreading random self =
      ⟨errNone, self.queued message (spreadingRecipients self recipient spreading random),
        enqueueEvents self.outboundMessages message spreading⟩ := by
  have accepted : ¬encodeCode message < 0 := by
    rw [encodeCode_accepts fits room]
    exact Int.not_lt.mpr (Int.natCast_nonneg _)
  rw [gossipEnqueueMessage_run, if_neg accepted]

/-! ### The queue -/

/-- Placing a message takes envelopes out of the queue, and leaves the others in order. -/
theorem placement_sublist (queue : List MessageEnvelopeOut) :
    (placement queue).2.1.Sublist queue := by
  unfold placement
  split
  · exact List.Sublist.refl queue
  · unfold chooseOutputBuffer
    -- Either a slot is free, or the envelopes of one slot make room.
    split
    · exact List.Sublist.refl queue
    · split
      · exact List.Sublist.refl queue
      · rename_i place oldest _
        have kept := (List.dropWhile_sublist
          (fun envelope => envelope.buffer == oldest.buffer) (l := queue.drop place)).append_left
          (queue.take place)
        rwa [List.take_append_drop] at kept

/-- An envelope queued for a message carries it to one of its recipients. -/
theorem mem_envelopesFor {message : Message} {buffer bufferSize : Nat} {sequenceNum : UInt32}
    {recipients : List (List UInt8)} {envelope : MessageEnvelopeOut}
    (member : envelope ∈ envelopesFor message buffer bufferSize sequenceNum recipients) :
    envelope.message = message ∧ envelope.recipient ∈ recipients := by
  -- There is one envelope for each recipient, in their order.
  induction recipients generalizing sequenceNum with
  | nil => cases member
  | cons receiver rest ih =>
    rcases List.mem_cons.mp member with rfl | later
    · exact ⟨rfl, List.mem_cons_self⟩
    · obtain ⟨carried, listed⟩ := ih later
      exact ⟨carried, List.mem_cons_of_mem _ listed⟩

/-- Queueing a message queues nothing but that message, for its recipients. -/
theorem gossipEnqueueMessage_adds (message : Message) (recipient : List UInt8)
    (spreading : GossipSpreadingType) (random : Nat → UInt32) (self : PittacusGossip)
    {envelope : MessageEnvelopeOut}
    (waiting : envelope ∈
      (gossipEnqueueMessage message recipient spreading random self).state.outboundMessages) :
    envelope ∈ self.outboundMessages ∨
      envelope.message = message ∧
        envelope.recipient ∈ spreadingRecipients self recipient spreading random := by
  rw [gossipEnqueueMessage_run] at waiting
  -- An encoder that refuses leaves the queue that made room, and adds nothing.
  split at waiting
  · exact .inl ((placement_sublist _).subset waiting)
  · rcases List.mem_append.mp waiting with old | new
    · exact .inl ((placement_sublist _).subset old)
    · exact .inr (mem_envelopesFor new)

/-- Whoever replaces somebody in a reservoir was in it, or comes from those that are left. -/
theorem mem_of_replaceAtRandom {random : Nat → UInt32} {drawn memberIdx : Nat}
    {rest reservoir : List ClusterMember} {member : ClusterMember}
    (chosen : member ∈ replaceAtRandom random drawn memberIdx rest reservoir) :
    member ∈ reservoir ∨ member ∈ rest := by
  induction rest generalizing drawn memberIdx reservoir with
  | nil => exact .inl chosen
  | cons next rest ih =>
    rcases ih chosen with held | later
    · -- A member is replaced at its position, or the reservoir is passed on as it is.
      split at held
      · rcases List.mem_or_eq_of_mem_set held with before | rfl
        · exact .inl before
        · exact .inr List.mem_cons_self
      · exact .inl held
    · exact .inr (List.mem_cons_of_mem _ later)

/-- Random members are members. -/
theorem mem_of_randomMembers {members : ClusterMemberSet} {random : Nat → UInt32}
    {reservoirSize : Nat} {member : ClusterMember}
    (chosen : member ∈ clusterMemberSetRandomMembers members random reservoirSize) :
    member ∈ members.live := by
  rcases mem_of_replaceAtRandom chosen with early | late
  · exact List.mem_of_mem_take early
  · exact List.mem_of_mem_drop late

/-- A message goes to the one it is addressed to, or to members. -/
theorem mem_spreadingRecipients {self : PittacusGossip} {recipient address : List UInt8}
    {spreading : GossipSpreadingType} {random : Nat → UInt32}
    (listed : address ∈ spreadingRecipients self recipient spreading random) :
    spreading = .direct ∧ address = recipient ∨
      ∃ member ∈ self.members.live, member.address = address := by
  -- Random recipients are some of the members.
  cases spreading with
  | direct => exact .inl ⟨rfl, List.mem_singleton.mp listed⟩
  | random =>
    obtain ⟨member, chosen, at_⟩ := List.mem_map.mp listed
    exact .inr ⟨member, mem_of_randomMembers chosen, at_⟩
  | broadcast =>
    obtain ⟨member, known, at_⟩ := List.mem_map.mp listed
    exact .inr ⟨member, known, at_⟩

/-! ### Everything else -/

/-- Queueing a message causes the events of its placement. -/
theorem gossipEnqueueMessage_events (message : Message) (recipient : List UInt8)
    (spreading : GossipSpreadingType) (random : Nat → UInt32) (self : PittacusGossip) :
    (gossipEnqueueMessage message recipient spreading random self).events =
      enqueueEvents self.outboundMessages message spreading := by
  rw [gossipEnqueueMessage_run]
  split <;> rfl

/-- What two states have in common when all that happened in between was queueing and sending. -/
structure SameBesidesQueue (before after : PittacusGossip) : Prop where
  dataCounter : after.dataCounter = before.dataCounter
  dataVersion : after.dataVersion = before.dataVersion
  state : after.state = before.state
  selfAddress : after.selfAddress = before.selfAddress
  members : after.members = before.members
  dataLog : after.dataLog = before.dataLog
  dataReceiver : after.dataReceiver = before.dataReceiver

/-- Queueing a message touches nothing besides the queue and its buffer. -/
theorem gossipEnqueueMessage_same (message : Message) (recipient : List UInt8)
    (spreading : GossipSpreadingType) (random : Nat → UInt32) (self : PittacusGossip) :
    SameBesidesQueue self (gossipEnqueueMessage message recipient spreading random self).state := by
  rw [gossipEnqueueMessage_run]
  split
  · exact ⟨rfl, rfl, rfl, rfl, rfl, rfl, rfl⟩
  · exact ⟨rfl, rfl, rfl, rfl, rfl, rfl, rfl⟩

end Pittacus
