import Pittacus.Outbound.Amplification

/-! What a received message changes about the state of a node and the members it knows. -/

namespace Pittacus

open Routine

/-! ### Messages without members -/

/-- A stretch leaves the state of a node and its members as they are. -/
def Stays (before : PittacusGossip) (_ : List Event) (after : PittacusGossip) : Prop :=
  after.state = before.state ∧ after.members = before.members

theorem stays_chains : Chains Stays where
  rest _ := ⟨rfl, rfl⟩
  join first second := ⟨second.1.trans first.1, second.2.trans first.2⟩

/-- What touches the queue only leaves state and members as they are. -/
theorem stays_of_same {before after : PittacusGossip} (same : SameBesidesQueue before after)
    (events : List Event) : Stays before events after := ⟨same.state, same.members⟩

theorem gossipEnqueueMessage_stays (message : Message) (recipient : List UInt8)
    (spreading : GossipSpreadingType) (random : Nat → UInt32) :
    Meets Stays (gossipEnqueueMessage message recipient spreading random) := fun self =>
  stays_of_same (gossipEnqueueMessage_same message recipient spreading random self) _

theorem gossipEnvelopeAcknowledge_stays (sequenceNum : UInt32) :
    Meets Stays (gossipEnvelopeAcknowledge sequenceNum) := by
  intro self
  unfold gossipEnvelopeAcknowledge
  rw [get_bind_run]
  cases gossipEnvelopeFindBySequenceNum self.outboundMessages sequenceNum with
  | none => exact ⟨rfl, rfl⟩
  | some envelope => exact ⟨rfl, rfl⟩

theorem gossipEnqueueDataLog_stays (recipientVersion : VectorClock) (recipient : List UInt8)
    (records : List DataLogRecord) (result : Int) :
    Meets Stays (gossipEnqueueDataLog recipientVersion recipient records result) := by
  induction records generalizing result with
  | nil => exact meets_pure stays_chains _
  | cons record rest ih =>
    refine meets_ite (fun _ => ?_) fun _ => ih _
    refine meets_bind stays_chains (gossipEnqueueMessage_stays _ _ _ _) fun result => ?_
    exact meets_ite (fun _ => meets_pure stays_chains _) fun _ => ih _

theorem gossipEnqueueStatus_stays (recipient : Option (List UInt8)) (random : Nat → UInt32) :
    Meets Stays (gossipEnqueueStatus recipient random) :=
  meets_bind stays_chains (meets_get stays_chains) fun _ => gossipEnqueueMessage_stays _ _ _ _

theorem answerStatus_stays (msg : MessageStatus) (sender : List UInt8) :
    Meets Stays (answerStatus msg sender) := by
  refine meets_bind stays_chains (meets_get stays_chains) fun self => ?_
  cases (vectorClockCompare self.dataVersion msg.dataVersion false).1 with
  | after => exact gossipEnqueueDataLog_stays _ _ _ _
  | before => exact gossipEnqueueStatus_stays _ _
  | conflict =>
    refine meets_bind stays_chains (gossipEnqueueDataLog_stays _ _ _ _) fun result => ?_
    exact meets_ite (fun _ => meets_pure stays_chains _) fun _ => gossipEnqueueStatus_stays _ _
  | equal => exact meets_pure stays_chains _

theorem takeData_stays (msg : MessageData) (random : Nat → UInt32) :
    Meets Stays (takeData msg random) := by
  intro self
  rw [takeData_run]
  split
  · exact gossipEnqueueMessage_stays (.data msg) [] .random random (self.adopting msg)
  · exact ⟨rfl, rfl⟩

/-- A handler that is guarded by the connection changes nothing unguarded. -/
theorem returnIfNotConnected_stays {handler : Routine PittacusGossip Event Int}
    (stays : Meets Stays handler) : Meets Stays (returnIfNotConnected handler) :=
  meets_bind stays_chains (meets_get stays_chains) fun _ =>
    meets_ite (fun _ => meets_pure stays_chains _) fun _ => stays

/-- Data, acknowledgements and statuses bring no members. -/
theorem gossipHandleData_stays (envelopeIn : MessageEnvelopeIn) (random : Nat → UInt32) :
    Meets Stays (gossipHandleData envelopeIn random) := by
  rw [gossipHandleData_eq]
  apply returnIfNotConnected_stays
  cases (messageDataDecode envelopeIn.bufferSize).result envelopeIn.buffer with
  | error code => exact meets_pure stays_chains _
  | ok decoded =>
    exact meets_bind stays_chains (gossipEnqueueMessage_stays _ _ _ _) fun _ => takeData_stays _ _

theorem gossipHandleAck_stays (envelopeIn : MessageEnvelopeIn) :
    Meets Stays (gossipHandleAck envelopeIn) := by
  unfold gossipHandleAck
  apply returnIfNotConnected_stays
  cases (messageAckDecode envelopeIn.bufferSize).result envelopeIn.buffer with
  | error code => exact meets_pure stays_chains _
  | ok decoded =>
    exact meets_bind stays_chains (gossipEnvelopeAcknowledge_stays _) fun _ =>
      meets_pure stays_chains _

theorem gossipHandleStatus_stays (envelopeIn : MessageEnvelopeIn) :
    Meets Stays (gossipHandleStatus envelopeIn) := by
  rw [gossipHandleStatus_eq]
  apply returnIfNotConnected_stays
  cases (messageStatusDecode envelopeIn.bufferSize vectorClockInit).result envelopeIn.buffer with
  | error code => exact meets_pure stays_chains _
  | ok decoded =>
    exact meets_bind stays_chains (gossipEnqueueMessage_stays _ _ _ _) fun _ =>
      answerStatus_stays _ _

/-- The handlers behind those of hellos, welcomes and lists leave state and members as they are. -/
theorem otherTypes_stays (envelopeIn : MessageEnvelopeIn) (random : Nat → UInt32)
    (messageType : UInt8) :
    Meets Stays
      (if messageType = messageDataType then gossipHandleData envelopeIn random
      else if messageType = messageAckType then gossipHandleAck envelopeIn
      else if messageType = messageStatusType then gossipHandleStatus envelopeIn
      else pure PittacusError.invalidMessage.code) := by
  refine meets_ite (fun _ => gossipHandleData_stays envelopeIn random) fun _ => ?_
  refine meets_ite (fun _ => gossipHandleAck_stays envelopeIn) fun _ => ?_
  exact meets_ite (fun _ => gossipHandleStatus_stays envelopeIn) fun _ => meets_pure stays_chains _

/-! ### Calls without members -/

/-- Sending a payload changes neither state nor members. -/
theorem pittacusGossipSendData_stays (data : List UInt8) (random : Nat → UInt32) :
    Meets Stays (pittacusGossipSendData data random) := by
  apply returnIfNotConnected_stays
  intro self
  rw [gossipEnqueueData_run]
  exact gossipEnqueueMessage_stays (.data (self.ownMessage data)) [] .random random
    (({ self with dataCounter := self.dataCounter + 1 } : PittacusGossip).adopting
      (self.ownMessage data))

/-- Announcing the data version changes neither state nor members. -/
theorem pittacusGossipTick_stays (now : Nat) (random : Nat → UInt32) :
    Meets Stays (pittacusGossipTick now random) := by
  refine meets_bind stays_chains (meets_get stays_chains) fun self => ?_
  refine meets_ite (fun _ => meets_pure stays_chains _) fun _ => ?_
  refine meets_ite (fun _ => meets_pure stays_chains _) fun _ => ?_
  refine meets_bind stays_chains (gossipEnqueueStatus_stays _ _) fun result => ?_
  refine meets_ite (fun _ => meets_pure stays_chains _) fun _ => ?_
  -- Only the time is noted.
  exact meets_bind stays_chains (fun _ => ⟨rfl, rfl⟩) fun _ => meets_pure stays_chains _

/-- Introducing a node to seed nodes leaves its members as they are. -/
theorem gossipEnqueueHellos_members (seedNodes : List (List UInt8)) (self : PittacusGossip) :
    (gossipEnqueueHellos seedNodes self).state.members = self.members := by
  induction seedNodes generalizing self with
  | nil => rfl
  | cons seed rest ih =>
    have greeted : Stays self (gossipEnqueueHello seed self).events
        (gossipEnqueueHello seed self).state :=
      meets_bind stays_chains (meets_get stays_chains)
        (fun _ => gossipEnqueueMessage_stays _ _ _ _) self
    simp only [gossipEnqueueHellos, bind_run, ite_run]
    split
    · exact greeted.2
    · exact (ih _).trans greeted.2

/-! ### Messages with members -/

/-- A message that is read enters a state and puts its members, and one that is not does nothing. -/
def Takes {β : Type} (self : PittacusGossip) (whole : Except Int (Nat × β))
    (members : β → List ClusterMember) (state : PittacusGossipState) (after : PittacusGossip) :
    Prop :=
  match whole with
  | .error _ => after.state = self.state ∧ after.members = self.members
  | .ok (_, message) => after.state = state ∧
      after.members = clusterMemberSetPut self.members (members message)

/-- A newcomer is introduced and put, and the state stays. -/
theorem introduceNewcomer_takes (newcomer : ClusterMember) (self : PittacusGossip) :
    (introduceNewcomer newcomer self).state.state = self.state ∧
      (introduceNewcomer newcomer self).state.members
        = clusterMemberSetPut self.members [newcomer] := by
  refine ⟨?_, introduceNewcomer_members newcomer self⟩
  have same := gossipEnqueueMessage_same (newcomerMessage newcomer) [] .broadcast noRandom self
  rw [introduceNewcomer_state]
  generalize (gossipEnqueueMessage (newcomerMessage newcomer) [] .broadcast noRandom self).state
    = told at same
  exact same.state

/-- A connected node takes in the sender of a hello. -/
theorem gossipHandleHello_changes (envelopeIn : MessageEnvelopeIn) {self : PittacusGossip}
    (connected : self.state = .connected) :
    Takes self ((messageHelloDecode envelopeIn.bufferSize).result envelopeIn.buffer)
      (fun msg => [msg.thisMember.load envelopeIn.buffer]) self.state
      (gossipHandleHello envelopeIn self).state := by
  rw [gossipHandleHello_eq, returnIfNotConnected, get_bind_run, if_neg (not_not.mpr connected)]
  unfold Takes
  cases (messageHelloDecode envelopeIn.bufferSize).result envelopeIn.buffer with
  | error code => exact ⟨rfl, rfl⟩
  | ok decoded =>
    have welcomed := (gossipEnqueueWelcome_covered
      (decoded.2.load envelopeIn.buffer).header.sequenceNum envelopeIn.sender self).2
    simp only [bind_run, pure_run]
    generalize (gossipEnqueueWelcome _ envelopeIn.sender self).state = greeted at welcomed
    have told := (tellMembers_covered envelopeIn.sender greeted).2
    generalize (tellMembers envelopeIn.sender greeted).state = informed at told
    -- The newcomer is taken in last, by a node that changed its queue only.
    obtain ⟨state, members⟩ := introduceNewcomer_takes
      (decoded.2.load envelopeIn.buffer).thisMember informed
    refine ⟨?_, ?_⟩
    · rw [state, told.state, welcomed.state]
    · rw [members, told.members, welcomed.members]
      rfl

/-- A welcome makes a node connected, and its sender is taken in. -/
theorem gossipHandleWelcome_changes (envelopeIn : MessageEnvelopeIn) (self : PittacusGossip) :
    Takes self ((messageWelcomeDecode envelopeIn.bufferSize).result envelopeIn.buffer)
      (fun msg => [msg.thisMember.load envelopeIn.buffer]) .connected
      (gossipHandleWelcome envelopeIn self).state := by
  unfold gossipHandleWelcome Takes
  cases (messageWelcomeDecode envelopeIn.bufferSize).result envelopeIn.buffer with
  | error code => exact ⟨rfl, rfl⟩
  | ok decoded =>
    simp only [bind_run, pure_run]
    exact gossipEnvelopeAcknowledge_stays (decoded.2.load envelopeIn.buffer).helloSequenceNum
      { self with
        state := .connected
        members := clusterMemberSetPut self.members
          [(decoded.2.load envelopeIn.buffer).thisMember] }

/-- A connected node takes in the members of a list. -/
theorem gossipHandleMemberList_changes (envelopeIn : MessageEnvelopeIn) {self : PittacusGossip}
    (connected : self.state = .connected) :
    Takes self ((messageMemberListDecode envelopeIn.bufferSize).result envelopeIn.buffer)
      (fun msg => msg.members.map (·.load envelopeIn.buffer)) self.state
      (gossipHandleMemberList envelopeIn self).state := by
  rw [gossipHandleMemberList, returnIfNotConnected, get_bind_run, if_neg (not_not.mpr connected)]
  unfold Takes
  cases (messageMemberListDecode envelopeIn.bufferSize).result envelopeIn.buffer with
  | error code => exact ⟨rfl, rfl⟩
  | ok decoded =>
    simp only [bind_run, pure_run]
    exact gossipEnqueueMessage_stays (.ack ⟨messageHeaderInit messageAckType 0,
      (decoded.2.load envelopeIn.buffer).header.sequenceNum⟩) envelopeIn.sender .direct noRandom
      { self with
        members := clusterMemberSetPut self.members (decoded.2.load envelopeIn.buffer).members }

end Pittacus
