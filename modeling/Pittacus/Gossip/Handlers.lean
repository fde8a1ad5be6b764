import Pittacus.Gossip.Outbound

/-! What a node does with each received message. -/

namespace Pittacus

/-- Run a handler for as long as the node is part of a cluster. -/
def returnIfNotConnected (handler : Routine PittacusGossip Event Int) :
    Routine PittacusGossip Event Int := do
  let self ← Routine.get
  if self.state ≠ .connected then return PittacusError.badState.code else handler

/-- Welcome a newcomer, tell it and the other members about each other, and remember it. -/
def gossipHandleHello (envelopeIn : MessageEnvelopeIn) : Routine PittacusGossip Event Int :=
  returnIfNotConnected
    (match (messageHelloDecode envelopeIn.bufferSize).result envelopeIn.buffer with
    | .error code => return code
    | .ok (_, decoded) => do
      let msg := decoded.load envelopeIn.buffer
      -- Send back a Welcome message.
      let _ ← gossipEnqueueWelcome msg.header.sequenceNum envelopeIn.sender
      -- Send the list of known members to a newcomer node.
      let self ← Routine.get
      let _ ← if self.members.size > 0 then gossipEnqueueMemberList envelopeIn.sender
        else pure errNone
      -- Notify other nodes about a newcomer.
      let memberListMsg : MessageMemberList ClusterMember :=
        ⟨messageHeaderInit messageMemberListType 0, [msg.thisMember], by simp⟩
      let _ ← gossipEnqueueMessage (.memberList memberListMsg) [] .broadcast noRandom
      -- Update our local storage with a new member.
      Routine.modify fun self =>
        { self with members := clusterMemberSetPut self.members [msg.thisMember] }
      return errNone)

/-- Become part of the cluster, and remember the seed node that answered. -/
def gossipHandleWelcome (envelopeIn : MessageEnvelopeIn) : Routine PittacusGossip Event Int :=
  match (messageWelcomeDecode envelopeIn.bufferSize).result envelopeIn.buffer with
  | .error code => return code
  | .ok (_, decoded) => do
    let msg := decoded.load envelopeIn.buffer
    Routine.modify fun self =>
      { self with
        state := .connected
        members := clusterMemberSetPut self.members [msg.thisMember] }
    -- Remove the hello message from the outbound queue.
    gossipEnvelopeAcknowledge msg.helloSequenceNum
    return errNone

/-- Remember the listed members. -/
def gossipHandleMemberList (envelopeIn : MessageEnvelopeIn) : Routine PittacusGossip Event Int :=
  returnIfNotConnected
    (match (messageMemberListDecode envelopeIn.bufferSize).result envelopeIn.buffer with
    | .error code => return code
    | .ok (_, decoded) => do
      let msg := decoded.load envelopeIn.buffer
      -- Update our local collection of members with arrived records.
      Routine.modify fun self =>
        { self with members := clusterMemberSetPut self.members msg.members }
      -- Send ACK message back to sender.
      let _ ← gossipEnqueueAck msg.header.sequenceNum envelopeIn.sender
      return errNone)

/-- Log a message not seen before, hand it to the user, and spread it further. -/
def gossipHandleData (envelopeIn : MessageEnvelopeIn) (random : Nat → UInt32) :
    Routine PittacusGossip Event Int :=
  returnIfNotConnected
    (match (messageDataDecode envelopeIn.bufferSize).result envelopeIn.buffer with
    | .error code => return code
    | .ok (_, msg) => do
      -- Send ACK message back to sender.
      let _ ← gossipEnqueueAck msg.header.sequenceNum envelopeIn.sender
      -- Verify whether we saw the arrived message before.
      let self ← Routine.get
      let (res, dataVersion) := vectorClockCompareWithRecord self.dataVersion msg.dataVersion true
      Routine.modify fun self => { self with dataVersion := dataVersion }
      if res = .before then do
        -- Add the data to our internal log.
        Routine.modify fun self => { self with dataLog := gossipDataLog self.dataLog msg }
        Routine.emit [.log msg]
        -- Invoke the data receiver callback specified by the user.
        if self.dataReceiver then Routine.emit [.receive msg.dataVersion msg.data] else pure ()
        -- Enqueue the same message to send it to N random members later.
        gossipEnqueueMessage (.data msg) [] .random random
      else return errNone)

/-- Stop sending the message that was acknowledged. -/
def gossipHandleAck (envelopeIn : MessageEnvelopeIn) : Routine PittacusGossip Event Int :=
  returnIfNotConnected
    (match (messageAckDecode envelopeIn.bufferSize).result envelopeIn.buffer with
    | .error code => return code
    | .ok (_, msg) => do
      -- Removing the processed message from the outbound queue.
      gossipEnvelopeAcknowledge msg.ackSequenceNum
      return errNone)

/-- Send the data the remote node is missing, and ask for the data this node is missing. -/
def gossipHandleStatus (envelopeIn : MessageEnvelopeIn) : Routine PittacusGossip Event Int :=
  returnIfNotConnected
    -- The message starts out unspecified, and only its records in use are looked at.
    (match (messageStatusDecode envelopeIn.bufferSize vectorClockInit).result
        envelopeIn.buffer with
    | .error code => return code
    | .ok (_, msg) => do
      -- Acknowledge the arrived Status message.
      let _ ← gossipEnqueueAck msg.header.sequenceNum envelopeIn.sender
      let self ← Routine.get
      let (compRes, dataVersion) := vectorClockCompare self.dataVersion msg.dataVersion false
      Routine.modify fun self => { self with dataVersion := dataVersion }
      match compRes with
      | .after =>
        -- The remote node is missing some of the data messages.
        gossipEnqueueDataLog msg.dataVersion envelopeIn.sender self.dataLog.live errNone
      | .before =>
        -- This node is behind. Send back the Status message to request the data update.
        gossipEnqueueStatus (some envelopeIn.sender) noRandom
      | .conflict => do
        -- Both nodes should exchange the data with each other.
        let result ←
          gossipEnqueueDataLog msg.dataVersion envelopeIn.sender self.dataLog.live errNone
        if result < 0 then return result
        -- Request the data update.
        else gossipEnqueueStatus (some envelopeIn.sender) noRandom
      | .equal => return errNone)

/-- Hand a received datagram to the handler of its type. -/
def gossipHandleNewMessage (envelopeIn : MessageEnvelopeIn) (random : Nat → UInt32) :
    Routine PittacusGossip Event Int :=
  match (messageTypeDecode envelopeIn.bufferSize).result envelopeIn.buffer with
  | .error _ => return PittacusError.invalidMessage.code
  | .ok messageType =>
    if messageType = messageHelloType then gossipHandleHello envelopeIn
    else if messageType = messageWelcomeType then gossipHandleWelcome envelopeIn
    else if messageType = messageMemberListType then gossipHandleMemberList envelopeIn
    else if messageType = messageDataType then gossipHandleData envelopeIn random
    else if messageType = messageAckType then gossipHandleAck envelopeIn
    else if messageType = messageStatusType then gossipHandleStatus envelopeIn
    else return PittacusError.invalidMessage.code

end Pittacus
