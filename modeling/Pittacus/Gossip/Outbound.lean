import Pittacus.Gossip.State

/-! Placing messages in the output buffer and queueing an envelope for every recipient. -/

namespace Pittacus

/-- Whether some queued envelope refers to a slot of the output buffer. -/
def bufferIsOccupied (queue : List MessageEnvelopeOut) (index : Nat) : Bool :=
  queue.any fun envelope => envelope.buffer / messageMaxSize == index

/-- The place of the first envelope with the most attempts, and that envelope. -/
def findOldestEnvelope : Nat → Option (Nat × MessageEnvelopeOut) → List MessageEnvelopeOut →
    Option (Nat × MessageEnvelopeOut)
  | _, oldest, [] => oldest
  | place, none, head :: rest => findOldestEnvelope (place + 1) (some (place, head)) rest
  | place, some (held, oldest), head :: rest =>
    if head.attemptNum > oldest.attemptNum then
      findOldestEnvelope (place + 1) (some (place, head)) rest
    else findOldestEnvelope (place + 1) (some (held, oldest)) rest

/--
The slot the next message goes to, and the queue once that slot was given up.

A slot no envelope refers to is taken as it is.
Otherwise the oldest envelope loses its slot, together with those behind it that share it.
-/
def chooseOutputBuffer (queue : List MessageEnvelopeOut) :
    Nat × List MessageEnvelopeOut × List MessageEnvelopeOut :=
  match (List.range maxOutputMessages).find? fun i => !bufferIsOccupied queue i with
  | some i => (i * messageMaxSize, queue, [])
  | none =>
    -- No available buffers were found.
    match findOldestEnvelope 0 none queue with
    | none => (0, queue, [])
    | some (place, oldest) =>
      -- Only envelopes in a row are removed: one further back may keep the slot.
      let sharing := fun envelope : MessageEnvelopeOut => envelope.buffer == oldest.buffer
      (oldest.buffer,
        queue.take place ++ (queue.drop place).dropWhile sharing,
        (queue.drop place).takeWhile sharing)

/-- Choose a slot of the output buffer, removing the envelopes that have to make room. -/
def gossipFindAvailableOutputBuffer : Routine PittacusGossip Event Nat := do
  let self ← Routine.get
  let (slot, left, removed) := chooseOutputBuffer self.outboundMessages
  Routine.modify fun self => { self with outboundMessages := left }
  Routine.emit (removed.map fun envelope => .remove envelope .reclaimed)
  return slot

/-- Choose a slot of the output buffer; an empty queue starts over at the first one. -/
def gossipUpdateOutputBufferOffset : Routine PittacusGossip Event Nat := do
  let self ← Routine.get
  let offset ←
    if self.outboundMessages.isEmpty then pure 0 else gossipFindAvailableOutputBuffer
  Routine.modify fun self => { self with outputBufferOffset := offset }
  return offset

/-- Queue an envelope for one recipient under the next sequence number. -/
def gossipEnqueueToOutbound (message : Message) (buffer bufferSize maxAttempts : Nat)
    (receiver : List UInt8) : Routine PittacusGossip Event Int := do
  Routine.modify fun self =>
    let seqNum := self.sequenceNum + 1
    { self with
      sequenceNum := seqNum
      outboundMessages := self.outboundMessages ++
        [{ recipient := receiver
           buffer := buffer
           bufferSize := bufferSize
           sequenceNum := seqNum
           attemptTs := 0
           attemptNum := 0
           maxAttempts := maxAttempts
           message := message }] }
  return errNone

/-- How often a message is sent; a welcome or an acknowledgement cannot itself be acknowledged. -/
def messageMaxAttempts : Message → Nat
  | .welcome _ | .ack _ => 1
  | _ => messageRetryAttempts

/-- Serialize a message into a slot, and return the bytes it takes or an error. -/
def gossipEncodeMessage (message : Message) (buffer : Nat) : Routine PittacusGossip Event Int := do
  -- What an encoder has written before it fails stays in the buffer.
  let encoded := messageEncode message messageMaxSize
  Routine.modify fun self =>
    { self with outputBuffer := Encoder.store self.outputBuffer buffer encoded.writes }
  match encoded.result with
  | .ok size => return size
  | .error code => return code

/-- Queue an envelope for each recipient; all of them share the same buffer. -/
def gossipEnqueueToEach (message : Message) (buffer bufferSize maxAttempts : Nat) :
    List (List UInt8) → Int → Routine PittacusGossip Event Int
  | [], result => return result
  | receiver :: rest, _ => do
    -- Each recipient gets an envelope of its own, with a number of its own.
    let result ← gossipEnqueueToOutbound message buffer bufferSize maxAttempts receiver
    if result < 0 then return result
    else gossipEnqueueToEach message buffer bufferSize maxAttempts rest result

/-- The recipients of a message: the given one, some random members, or all members. -/
def spreadingRecipients (self : PittacusGossip) (recipient : List UInt8)
    (spreading : GossipSpreadingType) (random : Nat → UInt32) : List (List UInt8) :=
  match spreading with
  | .direct => [recipient]
  | .random =>
    (clusterMemberSetRandomMembers self.members random messageRumorFactor).map (·.address)
  | .broadcast => self.members.live.map (·.address)

/-- Place a message in the output buffer and queue it for its recipients. -/
def gossipEnqueueMessage (message : Message) (recipient : List UInt8)
    (spreading : GossipSpreadingType) (random : Nat → UInt32) :
    Routine PittacusGossip Event Int := do
  -- The slot is chosen before the message is known to be one that can be encoded.
  let found ← Routine.get
  let slot ← gossipUpdateOutputBufferOffset
  let left ← Routine.get
  Routine.emit [.enqueue found.outboundMessages slot left.outboundMessages message spreading]
  let encodeResult ← gossipEncodeMessage message slot
  if encodeResult < 0 then return encodeResult
  else do
    -- Distribute the message.
    let self ← Routine.get
    gossipEnqueueToEach message slot encodeResult.toNat (messageMaxAttempts message)
      (spreadingRecipients self recipient spreading random) errNone

/-! ### Messages of each type -/

/-- Pass no random numbers to a message sent to known recipients. -/
def noRandom : Nat → UInt32 := fun _ => 0

/-- Confirm a received message to its sender. -/
def gossipEnqueueAck (sequenceNum : UInt32) (recipient : List UInt8) :
    Routine PittacusGossip Event Int :=
  gossipEnqueueMessage (.ack ⟨messageHeaderInit messageAckType 0, sequenceNum⟩)
    recipient .direct noRandom

/-- Answer a newcomer. -/
def gossipEnqueueWelcome (helloSequenceNum : UInt32) (recipient : List UInt8) :
    Routine PittacusGossip Event Int := do
  let self ← Routine.get
  gossipEnqueueMessage
    (.welcome ⟨messageHeaderInit messageWelcomeType 0, helloSequenceNum, self.selfAddress⟩)
    recipient .direct noRandom

/-- Introduce this node to a seed node. -/
def gossipEnqueueHello (recipient : List UInt8) : Routine PittacusGossip Event Int := do
  let self ← Routine.get
  gossipEnqueueMessage (.hello ⟨messageHeaderInit messageHelloType 0, self.selfAddress⟩)
    recipient .direct noRandom

/-- The message `gossipEnqueueData` logs and sends, its size narrowed to sixteen bits. -/
def enqueuedData (version : VectorRecord) (data : List UInt8) : MessageData where
  header := messageHeaderInit messageDataType 0
  dataVersion := version
  data := data.take (data.length % 2 ^ 16)
  bounded := by
    simp only [List.length_take]
    omega

/-- Give a payload the next version of this node, log it, and queue it for random members. -/
def gossipEnqueueData (data : List UInt8) (random : Nat → UInt32) :
    Routine PittacusGossip Event Int := do
  -- Update the local data version.
  Routine.modify fun self => { self with dataCounter := self.dataCounter + 1 }
  let self ← Routine.get
  let (record, dataVersion) :=
    vectorClockSet self.dataVersion self.selfAddress self.dataCounter
  Routine.modify fun self => { self with dataVersion := dataVersion }
  let dataMsg := enqueuedData record data
  -- Add the data to our internal log.
  Routine.modify fun self => { self with dataLog := gossipDataLog self.dataLog dataMsg }
  gossipEnqueueMessage (.data dataMsg) [] .random random

/-- Announce the data version, to one recipient or to random members if none is given. -/
def gossipEnqueueStatus (recipient : Option (List UInt8)) (random : Nat → UInt32) :
    Routine PittacusGossip Event Int := do
  let self ← Routine.get
  -- The message starts out unspecified, and only its records in use are looked at.
  let statusMsg : MessageStatus :=
    ⟨messageHeaderInit messageStatusType 0, vectorClockCopy vectorClockInit self.dataVersion⟩
  let spreadingType := if recipient.isNone then GossipSpreadingType.random else .direct
  gossipEnqueueMessage (.status statusMsg) (recipient.getD []) spreadingType random

/-- The most members sent in one message. -/
def memberListSyncSize : Nat := messageMaxSize / clusterMemberSize

/-- Queue the remaining members for a recipient, as many of them at a time as a message takes. -/
def gossipEnqueueMemberChunks (membersNum : Nat) (small : membersNum < 2 ^ 16)
    (recipient : List UInt8) :
    Nat → List ClusterMember → Int → Routine PittacusGossip Event Int
  -- Every message takes at least one member, so the rounds last as long as there are members.
  | 0, _, result => return result
  | _ + 1, [], result => return result
  | rounds + 1, rest, _ => do
    let memberListMsg : MessageMemberList ClusterMember :=
      { header := messageHeaderInit messageMemberListType 0
        members := rest.take membersNum
        bounded := by
          simp only [List.length_take]
          omega }
    let result ← gossipEnqueueMessage (.memberList memberListMsg) recipient .direct noRandom
    if result < 0 then return result
    else gossipEnqueueMemberChunks membersNum small recipient rounds (rest.drop membersNum) result

/-- Send the list of all known members to a recipient. -/
def gossipEnqueueMemberList (recipient : List UInt8) : Routine PittacusGossip Event Int := do
  let self ← Routine.get
  let members := self.members.live
  let membersNum := min members.length memberListSyncSize
  -- A node that knows nobody sends no list at all.
  if membersNum = 0 then return errNone
  else
    have small : membersNum < 2 ^ 16 :=
      Nat.lt_of_le_of_lt (Nat.min_le_right _ _) (by decide)
    gossipEnqueueMemberChunks membersNum small recipient members.length members errNone

/-- Queue every logged message the recipient's version is behind of. -/
def gossipEnqueueDataLog (recipientVersion : VectorClock) (recipient : List UInt8) :
    List DataLogRecord → Int → Routine PittacusGossip Event Int
  | [], result => return result
  | record :: rest, result =>
    if (vectorClockCompareWithRecord recipientVersion record.version false).1 = .before then do
      -- The recipient data version is behind. Enqueue this data payload.
      let result ← gossipEnqueueMessage (.data (gossipDataLogCreateMessage record)) recipient
        .direct noRandom
      if result < 0 then return result
      else gossipEnqueueDataLog recipientVersion recipient rest result
    else gossipEnqueueDataLog recipientVersion recipient rest result

end Pittacus
