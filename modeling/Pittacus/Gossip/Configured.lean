import Pittacus.Gossip.Outbound

/-! Sending the member list under any configured size of a message. -/

namespace Pittacus.Configured

/-! ### Queueing with slots of the configured size -/

/-- Whether some queued envelope refers to a slot of the output buffer. -/
def bufferIsOccupied (maxSize : Nat) (queue : List MessageEnvelopeOut) (index : Nat) : Bool :=
  queue.any fun envelope => envelope.buffer / maxSize == index

/-- The slot the next message goes to, and the queue once that slot was given up. -/
def chooseOutputBuffer (maxSize : Nat) (queue : List MessageEnvelopeOut) :
    Nat × List MessageEnvelopeOut × List MessageEnvelopeOut :=
  match (List.range maxOutputMessages).find? fun i => !bufferIsOccupied maxSize queue i with
  | some i => (i * maxSize, queue, [])
  | none =>
    -- No available buffers were found.
    match findOldestEnvelope 0 none queue with
    | none => (0, queue, [])
    | some (place, oldest) =>
      let sharing := fun envelope : MessageEnvelopeOut => envelope.buffer == oldest.buffer
      (oldest.buffer,
        queue.take place ++ (queue.drop place).dropWhile sharing,
        (queue.drop place).takeWhile sharing)

/-- Choose a slot of the output buffer, removing the envelopes that have to make room. -/
def gossipFindAvailableOutputBuffer (maxSize : Nat) : Routine PittacusGossip Event Nat := do
  let self ← Routine.get
  let (slot, left, removed) := chooseOutputBuffer maxSize self.outboundMessages
  Routine.modify fun self => { self with outboundMessages := left }
  Routine.emit (removed.map fun envelope => .remove envelope .reclaimed)
  return slot

/-- Choose a slot of the output buffer; an empty queue starts over at the first one. -/
def gossipUpdateOutputBufferOffset (maxSize : Nat) : Routine PittacusGossip Event Nat := do
  let self ← Routine.get
  let offset ←
    if self.outboundMessages.isEmpty then pure 0 else gossipFindAvailableOutputBuffer maxSize
  Routine.modify fun self => { self with outputBufferOffset := offset }
  return offset

/-- Serialize a message into a slot, and return the bytes it takes or an error. -/
def gossipEncodeMessage (maxSize : Nat) (message : Message) (buffer : Nat) :
    Routine PittacusGossip Event Int := do
  let encoded := messageEncode message maxSize
  Routine.modify fun self =>
    { self with outputBuffer := Encoder.store self.outputBuffer buffer encoded.writes }
  match encoded.result with
  | .ok size => return size
  | .error code => return code

/-- Place a message in the output buffer and queue it for its recipients. -/
def gossipEnqueueMessage (maxSize : Nat) (message : Message) (recipient : List UInt8)
    (spreading : GossipSpreadingType) (random : Nat → UInt32) :
    Routine PittacusGossip Event Int := do
  let found ← Routine.get
  let slot ← gossipUpdateOutputBufferOffset maxSize
  let left ← Routine.get
  Routine.emit [.enqueue found.outboundMessages slot left.outboundMessages message spreading]
  let encodeResult ← gossipEncodeMessage maxSize message slot
  if encodeResult < 0 then return encodeResult
  else do
    -- Distribute the message.
    let self ← Routine.get
    gossipEnqueueToEach message slot encodeResult.toNat (messageMaxAttempts message)
      (spreadingRecipients self recipient spreading random) errNone

/-! ### Member lists -/

/-- The most members sent in one message. -/
def memberListSyncSize (maxSize : Nat) : Nat := maxSize / clusterMemberSize

/-- The message a chunk of the members is sent in; their number is narrowed to sixteen bits. -/
def memberListMsg (chunk : List ClusterMember) : MessageMemberList ClusterMember where
  header := messageHeaderInit messageMemberListType 0
  members := chunk.take (chunk.length % 2 ^ 16)
  bounded := by
    simp only [List.length_take]
    omega

/-- Queue the remaining members for a recipient, as many of them at a time as a message takes. -/
def gossipEnqueueMemberChunks (maxSize membersNum : Nat) (recipient : List UInt8) :
    Nat → List ClusterMember → Int → Routine PittacusGossip Event Int
  -- Every message takes at least one member, so the rounds last as long as there are members.
  | 0, _, result => return result
  | _ + 1, [], result => return result
  | rounds + 1, rest, _ => do
    let result ← gossipEnqueueMessage maxSize (.memberList (memberListMsg (rest.take membersNum)))
      recipient .direct noRandom
    if result < 0 then return result
    else gossipEnqueueMemberChunks maxSize membersNum recipient rounds (rest.drop membersNum) result

/-- Send the list of all known members to a recipient. -/
def gossipEnqueueMemberList (maxSize : Nat) (recipient : List UInt8) :
    Routine PittacusGossip Event Int := do
  let self ← Routine.get
  let members := self.members.live
  let membersNum := min members.length (memberListSyncSize maxSize)
  if membersNum = 0 then return errNone
  else gossipEnqueueMemberChunks maxSize membersNum recipient members.length members errNone

/-! ### The configuration of the repository -/

/-- With the configured default, a message is queued as the repository queues it. -/
theorem gossipEnqueueMessage_default :
    gossipEnqueueMessage messageMaxSize = Pittacus.gossipEnqueueMessage := rfl

/-- A chunk that sixteen bits can count is listed whole. -/
theorem memberListMsg_members {chunk : List ClusterMember} (small : chunk.length < 2 ^ 16) :
    (memberListMsg chunk).members = chunk := by
  simp only [memberListMsg, Nat.mod_eq_of_lt small, List.take_length]

/-- As long as members are left, a chunk of them is queued. -/
theorem gossipEnqueueMemberChunks_more (maxSize membersNum : Nat) (recipient : List UInt8)
    (rounds : Nat) {rest : List ClusterMember} (more : rest ≠ []) (result : Int) :
    gossipEnqueueMemberChunks maxSize membersNum recipient (rounds + 1) rest result =
      (do
        let result ← gossipEnqueueMessage maxSize
          (.memberList (memberListMsg (rest.take membersNum))) recipient .direct noRandom
        if result < 0 then return result
        else
          gossipEnqueueMemberChunks maxSize membersNum recipient rounds (rest.drop membersNum)
            result) := by
  cases rest with
  | nil => exact absurd rfl more
  | cons member rest => rfl

/-- With the configured default, the chunks are those of the repository. -/
theorem gossipEnqueueMemberChunks_default {membersNum : Nat} (small : membersNum < 2 ^ 16)
    (recipient : List UInt8) (rounds : Nat) (rest : List ClusterMember) (result : Int) :
    gossipEnqueueMemberChunks messageMaxSize membersNum recipient rounds rest result =
      Pittacus.gossipEnqueueMemberChunks membersNum small recipient rounds rest result := by
  -- Both walk the members alike, and no chunk is long enough for its number to be narrowed.
  induction rounds generalizing rest result with
  | zero => rfl
  | succ rounds ih =>
    cases rest with
    | nil => rfl
    | cons member rest =>
      have short : ((member :: rest).take membersNum).length < 2 ^ 16 := by
        rw [List.length_take]
        omega
      have listed : memberListMsg ((member :: rest).take membersNum) =
          { header := messageHeaderInit messageMemberListType 0
            members := (member :: rest).take membersNum
            bounded := short } := by
        simp only [memberListMsg, Nat.mod_eq_of_lt short, List.take_length]
      rw [gossipEnqueueMemberChunks_more messageMaxSize membersNum recipient rounds
        (List.cons_ne_nil member rest), listed, gossipEnqueueMessage_default]
      simp only [ih]
      rfl

/-- With the configured default, the member list is sent as the repository sends it. -/
theorem gossipEnqueueMemberList_default (recipient : List UInt8) :
    gossipEnqueueMemberList messageMaxSize recipient =
      Pittacus.gossipEnqueueMemberList recipient := by
  funext self
  unfold gossipEnqueueMemberList Pittacus.gossipEnqueueMemberList
  rw [Routine.get_bind_run, Routine.get_bind_run]
  -- The two numbers of members in a message are the same by definition.
  have same : memberListSyncSize messageMaxSize = Pittacus.memberListSyncSize := rfl
  simp only [same]
  by_cases nobody : min self.members.live.length Pittacus.memberListSyncSize = 0
  · rw [if_pos nobody, if_pos nobody]
  · rw [if_neg nobody, if_neg nobody, gossipEnqueueMemberChunks_default]

end Pittacus.Configured
