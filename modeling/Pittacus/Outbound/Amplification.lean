import Mathlib.Algebra.GroupWithZero.Nat
import Mathlib.Algebra.Order.BigOperators.Group.List
import Mathlib.Algebra.Order.Group.Nat
import Pittacus.Basic.Budget
import Pittacus.Knowledge.Delivery
import Pittacus.Outbound.Accounts
import Pittacus.Ownership.Queues
import Pittacus.Receiving.Accepted

/-! How often a node transmits is bounded by what it is called to do and by what it receives. -/

namespace Pittacus

open Routine

/-! ### Attempts -/

/-- How often an envelope may still be transmitted. -/
def MessageEnvelopeOut.attemptsLeft (envelope : MessageEnvelopeOut) : Nat :=
  envelope.maxAttempts - envelope.attemptNum

/-- How often the envelopes of a queue may still be transmitted. -/
def attemptsLeft (queue : List MessageEnvelopeOut) : Nat :=
  (queue.map MessageEnvelopeOut.attemptsLeft).sum

/-- Transmissions are paid for with the attempts that are left. -/
def transmitting : Budget PittacusGossip Event where
  spent events := (events.filterMap Event.transmission).length
  saved node := attemptsLeft node.outboundMessages
  spent_nil := rfl
  spent_append early late := by rw [List.filterMap_append, List.length_append]

theorem attemptsLeft_append (front back : List MessageEnvelopeOut) :
    attemptsLeft (front ++ back) = attemptsLeft front + attemptsLeft back := by
  rw [attemptsLeft, List.map_append, List.sum_append]
  rfl

theorem attemptsLeft_cons (envelope : MessageEnvelopeOut) (rest : List MessageEnvelopeOut) :
    attemptsLeft (envelope :: rest) = envelope.attemptsLeft + attemptsLeft rest := by
  rw [attemptsLeft, List.map_cons, List.sum_cons]
  rfl

/-- Fewer envelopes have fewer attempts left. -/
theorem attemptsLeft_sublist {fewer all : List MessageEnvelopeOut} (sub : fewer.Sublist all) :
    attemptsLeft fewer ≤ attemptsLeft all :=
  (sub.map MessageEnvelopeOut.attemptsLeft).sum_le_sum fun _ _ => Nat.zero_le _

/-- Each envelope of a message may be transmitted as often as the message. -/
theorem attemptsLeft_envelopesFor (message : Message) (buffer bufferSize : Nat)
    (sequenceNum : UInt32) (recipients : List (List UInt8)) :
    attemptsLeft (envelopesFor message buffer bufferSize sequenceNum recipients)
      = messageMaxAttempts message * recipients.length := by
  induction recipients generalizing sequenceNum with
  | nil => rfl
  | cons recipient rest ih =>
    rw [envelopesFor, attemptsLeft_cons, ih, List.length_cons, Nat.mul_add_one,
      Nat.add_comm (messageMaxAttempts message * rest.length)]
    rfl

/-! ### Queueing -/

/-- A reservoir stays as large as it is. -/
theorem replaceAtRandom_length (random : Nat → UInt32) (drawn memberIdx : Nat)
    (rest reservoir : List ClusterMember) :
    (replaceAtRandom random drawn memberIdx rest reservoir).length = reservoir.length := by
  induction rest generalizing drawn memberIdx reservoir with
  | nil => rfl
  | cons member rest ih =>
    rw [replaceAtRandom, ih]
    split
    · exact List.length_set
    · rfl

/-- No more random members are chosen than are asked for. -/
theorem randomMembers_length_le (members : ClusterMemberSet) (random : Nat → UInt32)
    (reservoirSize : Nat) :
    (clusterMemberSetRandomMembers members random reservoirSize).length ≤ reservoirSize := by
  rw [clusterMemberSetRandomMembers, replaceAtRandom_length, List.length_take]
  split
  · omega
  · omega

/-- A message is granted its attempts for each of its recipients. -/
theorem gossipEnqueueMessage_covered (message : Message) (recipient : List UInt8)
    (spreading : GossipSpreadingType) (random : Nat → UInt32) (self : PittacusGossip) :
    transmitting.Covers (messageMaxAttempts message *
        (spreadingRecipients self recipient spreading random).length)
      (gossipEnqueueMessage message recipient spreading random) self := by
  have silent : transmitting.spent (enqueueEvents self.outboundMessages message spreading) = 0 := by
    show ((enqueueEvents _ _ _).filterMap Event.transmission).length = 0
    rw [transmission_enqueueEvents]
    rfl
  have left := attemptsLeft_sublist (placement_sublist self.outboundMessages)
  rw [Budget.Covers, gossipEnqueueMessage_events, silent, Nat.zero_add, gossipEnqueueMessage_run]
  split
  · -- A message that is refused has made room, and is not queued.
    exact Nat.le_trans left (Nat.le_add_right _ _)
  · show attemptsLeft ((placement self.outboundMessages).2.1 ++ _) ≤ _
    rw [attemptsLeft_append, attemptsLeft_envelopesFor]
    exact Nat.add_le_add_right left _

/-- A message to one recipient is granted its attempts. -/
theorem enqueueDirect_covered (message : Message) (recipient : List UInt8) (self : PittacusGossip) :
    transmitting.Covers (messageMaxAttempts message)
      (gossipEnqueueMessage message recipient .direct noRandom) self := by
  have covered := gossipEnqueueMessage_covered message recipient .direct noRandom self
  rwa [spreadingRecipients, List.length_singleton, Nat.mul_one] at covered

/-- A message to random members is granted its attempts for as many as are chosen at most. -/
theorem enqueueRandom_covered (message : Message) (random : Nat → UInt32) (self : PittacusGossip) :
    transmitting.Covers (messageMaxAttempts message * messageRumorFactor)
      (gossipEnqueueMessage message [] .random random) self := by
  refine (gossipEnqueueMessage_covered message [] .random random self).mono
    (Nat.mul_le_mul_left _ ?_)
  rw [spreadingRecipients, List.length_map]
  exact randomMembers_length_le _ _ _

/-- The logged messages a recipient lacks are granted their attempts. -/
theorem gossipEnqueueDataLog_covered (recipientVersion : VectorClock) (recipient : List UInt8)
    (records : List DataLogRecord) (result : Int) (self : PittacusGossip) :
    transmitting.Covers (messageRetryAttempts * records.length)
      (gossipEnqueueDataLog recipientVersion recipient records result) self := by
  induction records generalizing result self with
  | nil => exact Budget.covers_pure _
  | cons record rest ih =>
    rw [gossipEnqueueDataLog, List.length_cons, Nat.mul_add_one, Nat.add_comm]
    refine Budget.covers_ite (fun _ => ?_) fun _ => (ih _ _).mono (Nat.le_add_left _ _)
    refine (enqueueDirect_covered _ recipient self).bind ?_
    exact Budget.covers_ite (fun _ => Budget.covers_pure _) fun _ => ih _ _

/-- How many messages a list of so many members takes, with so many of them to a message. -/
def chunksFor (membersNum count : Nat) : Nat := (count + membersNum - 1) / membersNum

/-- One message takes a chunk of the members, and the rest take one less. -/
theorem chunksFor_succ {membersNum : Nat} (positive : 0 < membersNum) (count : Nat) :
    chunksFor membersNum (count + 1) = chunksFor membersNum (count + 1 - membersNum) + 1 := by
  have whole : count + 1 + membersNum - 1 = count + membersNum := by omega
  rw [chunksFor, chunksFor, whole, Nat.add_div_right count positive]
  congr 1
  by_cases few : count + 1 ≤ membersNum
  · -- A last chunk need not be full.
    rw [Nat.div_eq_of_lt (by omega), Nat.div_eq_of_lt (by omega)]
  · congr 1
    omega

/-- The chunks of a member list are granted their attempts. -/
theorem gossipEnqueueMemberChunks_covered {membersNum : Nat} (small : membersNum < 2 ^ 16)
    (positive : 0 < membersNum) (recipient : List UInt8) (rounds : Nat)
    (members : List ClusterMember) (result : Int) (self : PittacusGossip) :
    transmitting.Covers (messageRetryAttempts * chunksFor membersNum members.length)
      (gossipEnqueueMemberChunks membersNum small recipient rounds members result) self := by
  induction rounds generalizing members result self with
  | zero => exact Budget.covers_pure _
  | succ rounds ih =>
    cases members with
    | nil => exact Budget.covers_pure _
    | cons member rest =>
      have bounded : ((member :: rest).take membersNum).length < 2 ^ 16 := by
        rw [List.length_take]
        omega
      rw [gossipEnqueueMemberChunks_cons small recipient rounds member rest result bounded,
        List.length_cons, chunksFor_succ positive, Nat.mul_add_one, Nat.add_comm]
      refine (enqueueDirect_covered _ recipient self).bind ?_
      refine Budget.covers_ite (fun _ => Budget.covers_pure _) fun _ => ?_
      have dropped : ((member :: rest).drop membersNum).length = rest.length + 1 - membersNum := by
        rw [List.length_drop, List.length_cons]
      rw [← dropped]
      exact ih _ _ _

/-- Chunks leave everything besides the queue as it is. -/
theorem gossipEnqueueMemberChunks_same {membersNum : Nat} (small : membersNum < 2 ^ 16)
    (recipient : List UInt8) (rounds : Nat) (members : List ClusterMember) (result : Int)
    (self : PittacusGossip) :
    SameBesidesQueue self
      (gossipEnqueueMemberChunks membersNum small recipient rounds members result self).state := by
  induction rounds generalizing members result self with
  | zero => exact .refl self
  | succ rounds ih =>
    cases members with
    | nil => exact .refl self
    | cons member rest =>
      have bounded : ((member :: rest).take membersNum).length < 2 ^ 16 := by
        rw [List.length_take]
        omega
      have first := gossipEnqueueMessage_same (.memberList ⟨messageHeaderInit messageMemberListType 0,
        (member :: rest).take membersNum, bounded⟩) recipient .direct noRandom self
      rw [gossipEnqueueMemberChunks_cons small recipient rounds member rest result bounded, bind_run,
        ite_run]
      split
      · exact first
      · exact first.trans (ih _ _ _)

/-- A newcomer is told nothing, or about some members and in chunks. -/
theorem tellMembers_run (recipient : List UInt8) (self : PittacusGossip) :
    tellMembers recipient self = ⟨errNone, self, []⟩ ∨
      ∃ small, 0 < min self.members.live.length memberListSyncSize ∧
        tellMembers recipient self =
          gossipEnqueueMemberChunks (min self.members.live.length memberListSyncSize) small
            recipient self.members.live.length self.members.live errNone self := by
  rw [tellMembers, get_bind_run]
  by_cases known : self.members.size > 0
  · rw [if_pos known, gossipEnqueueMemberList, get_bind_run]
    dsimp only
    by_cases nobody : min self.members.live.length memberListSyncSize = 0
    · rw [if_pos nobody]
      exact .inl rfl
    · rw [if_neg nobody]
      exact .inr ⟨_, Nat.pos_of_ne_zero nobody, rfl⟩
  · rw [if_neg known]
    exact .inl rfl

/-- Chunks that are full, or hold all members, are as few as full chunks would be. -/
theorem chunksFor_min {membersNum count : Nat} (positive : 0 < min count membersNum) :
    chunksFor (min count membersNum) count ≤ chunksFor membersNum count := by
  by_cases few : count ≤ membersNum
  · have one : count + count - 1 < 2 * count := by omega
    rw [Nat.min_eq_left few] at positive ⊢
    have single := (Nat.div_lt_iff_lt_mul positive).mpr one
    have atLeastOne : 0 < (count + membersNum - 1) / membersNum := Nat.div_pos (by omega) (by omega)
    rw [chunksFor, chunksFor]
    omega
  · rw [Nat.min_eq_right (by omega)]

/-- The members that a newcomer is told about are granted their attempts, a chunk at a time. -/
theorem tellMembers_covered (recipient : List UInt8) (self : PittacusGossip) :
    transmitting.Covers
        (messageRetryAttempts * chunksFor memberListSyncSize self.members.live.length)
        (tellMembers recipient) self ∧
      SameBesidesQueue self (tellMembers recipient self).state := by
  rcases tellMembers_run recipient self with silent | ⟨small, positive, chunks⟩
  · refine ⟨(Budget.covers_pure errNone).congr silent, ?_⟩
    rw [silent]
    exact .refl self
  · constructor
    · refine Budget.Covers.congr (Budget.Covers.mono ?_ (Nat.mul_le_mul_left _
        (chunksFor_min positive))) chunks
      exact gossipEnqueueMemberChunks_covered small positive recipient _ _ _ self
    · rw [chunks]
      exact gossipEnqueueMemberChunks_same small recipient _ _ _ self

/-! ### Handling -/

/-- What a newcomer causes: a welcome, the members in chunks, and word of it to all of them. -/
def helloGrant (known : Nat) : Nat :=
  1 + (messageRetryAttempts * chunksFor memberListSyncSize known + messageRetryAttempts * known)

/-- How many transmissions a message of a type may cause, at a node that knows so many members. -/
def answerGrant (known : Nat) (type : UInt8) : Nat :=
  if type = messageHelloType then helloGrant known
  else if type = messageWelcomeType then 0
  else if type = messageMemberListType then 1
  else if type = messageDataType then 1 + messageRetryAttempts * messageRumorFactor
  else if type = messageAckType then 0
  else if type = messageStatusType then 1 + messageRetryAttempts * (dataLogSize + 1)
  else 0

/-- A handler that is guarded by the connection costs what it costs unguarded. -/
theorem returnIfNotConnected_covered {handler : Routine PittacusGossip Event Int} {grant : Nat}
    {self : PittacusGossip} (covers : transmitting.Covers grant handler self) :
    transmitting.Covers grant (returnIfNotConnected handler) self :=
  Budget.Covers.get (Budget.covers_ite (fun _ => Budget.covers_pure _) fun _ => covers)

/-- Taking an envelope out of the queue costs nothing. -/
theorem gossipEnvelopeAcknowledge_covered (sequenceNum : UInt32) (grant : Nat)
    (self : PittacusGossip) :
    transmitting.Covers grant (gossipEnvelopeAcknowledge sequenceNum) self := by
  refine Budget.Covers.get ?_
  cases gossipEnvelopeFindBySequenceNum self.outboundMessages sequenceNum with
  | none => exact Budget.covers_pure _
  | some envelope =>
    have left := attemptsLeft_sublist (List.eraseP_sublist
      (p := fun queued : MessageEnvelopeOut => queued.sequenceNum = sequenceNum)
      (l := self.outboundMessages))
    refine Nat.le_trans (Nat.le_of_eq (Nat.zero_add _)) ?_
    exact Nat.le_trans left (Nat.le_add_right _ _)

/-- A newcomer is introduced at the cost of a message to every member. -/
theorem introduceNewcomer_covered (newcomer : ClusterMember) (self : PittacusGossip) :
    transmitting.Covers (messageRetryAttempts * self.members.live.length)
      (introduceNewcomer newcomer) self := by
  rw [introduceNewcomer_eq]
  have told := gossipEnqueueMessage_covered (newcomerMessage newcomer) [] .broadcast noRandom self
  rw [spreadingRecipients, List.length_map] at told
  exact told.andThen (Budget.covers_modify (Nat.le_refl _))

/-- A message that is sent only once costs one transmission. -/
theorem enqueueOnce_covered (message : Message) (once : messageMaxAttempts message = 1)
    (recipient : List UInt8) (self : PittacusGossip) :
    transmitting.Covers 1 (gossipEnqueueMessage message recipient .direct noRandom) self ∧
      SameBesidesQueue self
        (gossipEnqueueMessage message recipient .direct noRandom self).state := by
  have covered := enqueueDirect_covered message recipient self
  rw [once] at covered
  exact ⟨covered, gossipEnqueueMessage_same message recipient .direct noRandom self⟩

/-- A welcome is sent only once. -/
theorem gossipEnqueueWelcome_covered (helloSequenceNum : UInt32) (recipient : List UInt8)
    (self : PittacusGossip) :
    transmitting.Covers 1 (gossipEnqueueWelcome helloSequenceNum recipient) self ∧
      SameBesidesQueue self (gossipEnqueueWelcome helloSequenceNum recipient self).state := by
  have welcome : gossipEnqueueWelcome helloSequenceNum recipient self =
      gossipEnqueueMessage (.welcome ⟨messageHeaderInit messageWelcomeType 0, helloSequenceNum,
        self.selfAddress⟩) recipient .direct noRandom self := by
    rw [gossipEnqueueWelcome, get_bind_run]
  obtain ⟨covered, same⟩ := enqueueOnce_covered (.welcome ⟨messageHeaderInit messageWelcomeType 0,
    helloSequenceNum, self.selfAddress⟩) rfl recipient self
  rw [welcome]
  exact ⟨covered.congr welcome, same⟩

/-- An acknowledgement is sent only once. -/
theorem gossipEnqueueAck_covered (sequenceNum : UInt32) (recipient : List UInt8)
    (self : PittacusGossip) :
    transmitting.Covers 1 (gossipEnqueueAck sequenceNum recipient) self ∧
      SameBesidesQueue self (gossipEnqueueAck sequenceNum recipient self).state :=
  enqueueOnce_covered (.ack ⟨messageHeaderInit messageAckType 0, sequenceNum⟩) rfl recipient self

/-- A hello is answered, and told about. -/
theorem gossipHandleHello_covered (envelopeIn : MessageEnvelopeIn) (self : PittacusGossip) :
    transmitting.Covers (helloGrant self.members.live.length) (gossipHandleHello envelopeIn)
      self := by
  rw [gossipHandleHello_eq]
  apply returnIfNotConnected_covered
  cases (messageHelloDecode envelopeIn.bufferSize).result envelopeIn.buffer with
  | error code => exact Budget.covers_pure _
  | ok decoded =>
    obtain ⟨welcomes, welcomed⟩ := gossipEnqueueWelcome_covered
      (decoded.2.load envelopeIn.buffer).header.sequenceNum envelopeIn.sender self
    rw [helloGrant, ← welcomed.members]
    apply welcomes.bind
    generalize (gossipEnqueueWelcome _ envelopeIn.sender self).state = greeted
    obtain ⟨tells, told⟩ := tellMembers_covered envelopeIn.sender greeted
    apply tells.bind
    -- The members are still those the newcomer was told about.
    rw [← told.members]
    exact (introduceNewcomer_covered _ _).andThen (Budget.covers_pure _)

/-- What a newcomer answers is taken in at no cost. -/
theorem gossipHandleWelcome_covered (envelopeIn : MessageEnvelopeIn) (self : PittacusGossip) :
    transmitting.Covers 0 (gossipHandleWelcome envelopeIn) self := by
  unfold gossipHandleWelcome
  cases (messageWelcomeDecode envelopeIn.bufferSize).result envelopeIn.buffer with
  | error code => exact Budget.covers_pure _
  | ok decoded =>
    apply (Budget.covers_modify (Nat.le_refl _)).andThen
    exact (gossipEnvelopeAcknowledge_covered _ 0 _).andThen (Budget.covers_pure _)

/-- A list of members is acknowledged, and nobody else is told. -/
theorem gossipHandleMemberList_covered (envelopeIn : MessageEnvelopeIn) (self : PittacusGossip) :
    transmitting.Covers 1 (gossipHandleMemberList envelopeIn) self := by
  unfold gossipHandleMemberList
  apply returnIfNotConnected_covered
  cases (messageMemberListDecode envelopeIn.bufferSize).result envelopeIn.buffer with
  | error code => exact Budget.covers_pure _
  | ok decoded =>
    refine Budget.Covers.mono ?_ (Nat.le_of_eq (Nat.zero_add 1))
    apply (Budget.covers_modify (Nat.le_refl _)).bind
    exact (gossipEnqueueAck_covered _ _ _).1.andThen (Budget.covers_pure _)

/-- An acknowledgement is not answered. -/
theorem gossipHandleAck_covered (envelopeIn : MessageEnvelopeIn) (self : PittacusGossip) :
    transmitting.Covers 0 (gossipHandleAck envelopeIn) self := by
  unfold gossipHandleAck
  apply returnIfNotConnected_covered
  cases (messageAckDecode envelopeIn.bufferSize).result envelopeIn.buffer with
  | error code => exact Budget.covers_pure _
  | ok decoded => exact (gossipEnvelopeAcknowledge_covered _ 0 _).andThen (Budget.covers_pure _)

/-- Data that is new is spread to random members, and data that is known is not. -/
theorem takeData_covered (msg : MessageData) (random : Nat → UInt32) (self : PittacusGossip) :
    transmitting.Covers (messageRetryAttempts * messageRumorFactor) (takeData msg random) self := by
  have spread := enqueueRandom_covered (.data msg) random (self.adopting msg)
  unfold Budget.Covers at spread ⊢
  rw [takeData_run]
  split
  · -- Logging the message and handing it to the user is no transmission.
    have silent : transmitting.spent (adoptionEvents self.dataReceiver msg) = 0 := by
      rw [adoptionEvents]
      split
      · rfl
      · rfl
    dsimp only
    rw [transmitting.spent_append, silent, Nat.zero_add]
    exact spread
  · exact Budget.covers_pure errNone

/-- Data is acknowledged, and spread if it is new. -/
theorem gossipHandleData_covered (envelopeIn : MessageEnvelopeIn) (random : Nat → UInt32)
    (self : PittacusGossip) :
    transmitting.Covers (1 + messageRetryAttempts * messageRumorFactor)
      (gossipHandleData envelopeIn random) self := by
  rw [gossipHandleData_eq]
  apply returnIfNotConnected_covered
  cases (messageDataDecode envelopeIn.bufferSize).result envelopeIn.buffer with
  | error code => exact Budget.covers_pure _
  | ok decoded =>
    apply (gossipEnqueueAck_covered _ _ _).1.bind
    exact takeData_covered decoded.2 random _

/-- A status is announced to one recipient at the cost of a message. -/
theorem enqueueStatus_covered (recipient : List UInt8) (self : PittacusGossip) :
    transmitting.Covers messageRetryAttempts (gossipEnqueueStatus (some recipient) noRandom)
      self :=
  enqueueDirect_covered (.status ⟨messageHeaderInit messageStatusType 0,
    vectorClockCopy vectorClockInit self.dataVersion⟩) recipient self

/-- No more messages are logged than there is room for. -/
def PittacusGossip.LogFits (self : PittacusGossip) : Prop :=
  self.dataLog.live.length ≤ dataLogSize

/-- A status is answered with the log at most, and with a status. -/
theorem answerStatus_covered (msg : MessageStatus) (sender : List UInt8) {self : PittacusGossip}
    (fits : self.LogFits) :
    transmitting.Covers (messageRetryAttempts * (dataLogSize + 1)) (answerStatus msg sender)
      self := by
  have logged := (gossipEnqueueDataLog_covered msg.dataVersion sender self.dataLog.live errNone
    self).mono (Nat.mul_le_mul_left messageRetryAttempts fits)
  rw [Nat.mul_add_one]
  apply Budget.Covers.get
  cases (vectorClockCompare self.dataVersion msg.dataVersion false).1 with
  | after => exact logged.mono (Nat.le_add_right _ _)
  | before => exact (enqueueStatus_covered sender self).mono (Nat.le_add_left _ _)
  | conflict =>
    -- Both sides lack something: what is sent is asked for as well.
    apply logged.bind
    exact Budget.covers_ite (fun _ => Budget.covers_pure _) fun _ => enqueueStatus_covered sender _
  | equal => exact Budget.covers_pure _

/-- A status is acknowledged and answered. -/
theorem gossipHandleStatus_covered (envelopeIn : MessageEnvelopeIn) {self : PittacusGossip}
    (fits : self.LogFits) :
    transmitting.Covers (1 + messageRetryAttempts * (dataLogSize + 1))
      (gossipHandleStatus envelopeIn) self := by
  rw [gossipHandleStatus_eq]
  apply returnIfNotConnected_covered
  cases (messageStatusDecode envelopeIn.bufferSize vectorClockInit).result envelopeIn.buffer with
  | error code => exact Budget.covers_pure _
  | ok decoded =>
    obtain ⟨acknowledges, acked⟩ := gossipEnqueueAck_covered decoded.2.header.sequenceNum
      envelopeIn.sender self
    apply acknowledges.bind
    apply answerStatus_covered
    rw [PittacusGossip.LogFits, acked.dataLog]
    exact fits

/-- A received message costs what its type is granted. -/
theorem gossipHandleNewMessage_covered (envelopeIn : MessageEnvelopeIn) (random : Nat → UInt32)
    {self : PittacusGossip} (fits : self.LogFits) :
    transmitting.Covers (answerGrant self.members.live.length (envelopeIn.buffer 5))
      (gossipHandleNewMessage envelopeIn random) self := by
  unfold gossipHandleNewMessage
  rw [messageTypeDecode_result]
  by_cases short : envelopeIn.bufferSize < messageHeaderSize
  · rw [if_pos short]
    exact Budget.covers_pure _
  · rw [if_neg short]
    dsimp only
    unfold answerGrant
    -- The types in the order of the switch; any other is refused.
    split
    · exact gossipHandleHello_covered envelopeIn self
    split
    · exact gossipHandleWelcome_covered envelopeIn self
    split
    · exact gossipHandleMemberList_covered envelopeIn self
    split
    · exact gossipHandleData_covered envelopeIn random self
    split
    · exact gossipHandleAck_covered envelopeIn self
    split
    · exact gossipHandleStatus_covered envelopeIn fits
    · exact Budget.covers_pure _

/-! ### Sending -/

/-- The envelopes that stay have no more attempts left when one leaves. -/
theorem attemptsLeft_middle (front back : List MessageEnvelopeOut) (current : MessageEnvelopeOut) :
    attemptsLeft (front ++ current :: back)
      = attemptsLeft (front ++ back) + current.attemptsLeft := by
  rw [attemptsLeft_append, attemptsLeft_append, attemptsLeft_cons]
  omega

/-- An attempt is one less of those that are left. -/
theorem attemptsLeft_attempted {current : MessageEnvelopeOut} (now : Nat)
    (left : current.attemptNum < current.maxAttempts) :
    (current.attempted now).attemptsLeft + 1 = current.attemptsLeft := by
  show current.maxAttempts - (current.attemptNum + 1) + 1 = current.maxAttempts - current.attemptNum
  omega

/-- Sending an envelope is at most one transmission, whatever the socket says. -/
theorem sending_covered {events : List Event} {left all : Nat} (envelope : MessageEnvelopeOut)
    (bytes : List UInt8) (now : Nat) (result : Int)
    (later : transmitting.spent events + left + 1 ≤ all) :
    transmitting.spent (.sendTo envelope bytes now result :: events) + left ≤ all := by
  have cost : transmitting.spent (.sendTo envelope bytes now result :: events)
      ≤ transmitting.spent events + 1 := by
    show (List.filterMap Event.transmission (_ :: events)).length
      ≤ (events.filterMap Event.transmission).length + 1
    rw [List.filterMap_cons]
    split
    · exact Nat.le_succ _
    · exact Nat.le_of_eq List.length_cons
  omega

/-- An envelope that leaves is not transmitted by that, and takes its attempts along. -/
theorem leaving_covered {front back : List MessageEnvelopeOut} {events : List Event} {left : Nat}
    (current : MessageEnvelopeOut) (reason : RemovalReason)
    (later : transmitting.spent events + left ≤ attemptsLeft (front ++ back)) :
    transmitting.spent (.remove current reason :: events) + left
      ≤ attemptsLeft (front ++ current :: back) := by
  have silent : transmitting.spent (.remove current reason :: events)
      = transmitting.spent events := rfl
  rw [attemptsLeft_middle, silent]
  omega

/-- Every transmission of a round takes away one of the attempts that are left. -/
theorem Walk.covered {times : Nat → Nat} {results : Nat → Int}
    {exhausted : Option MessageEnvelopeOut} {readings sent : Nat}
    {passed queue : List MessageEnvelopeOut} {self : PittacusGossip}
    {ran : Outcome PittacusGossip Event Int}
    (walk : Walk times results exhausted readings sent passed queue self ran)
    (whole : self.outboundMessages = passed ++ queue) :
    transmitting.spent ran.events + attemptsLeft ran.state.outboundMessages
      ≤ attemptsLeft (passed ++ queue) := by
  induction walk with
  | done =>
    rw [whole]
    exact Nat.le_of_eq (Nat.zero_add _)
  | dropped shares walk ih => exact leaving_covered _ _ (ih rfl)
  | givenUp tried repeated walk ih => exact leaving_covered _ _ (ih rfl)
  | spent tried once walk ih => exact leaving_covered _ _ (ih rfl)
  | waits walk ih =>
    rw [List.append_cons] at whole ⊢
    exact ih whole
  | refused failed =>
    -- A write that fails is no transmission, and leaves the envelope as it was.
    dsimp only
    rw [whole]
    show (List.filterMap Event.transmission [.sendTo _ _ _ _]).length + _ ≤ _
    rw [List.filterMap_cons, Event.transmission, if_neg (Int.not_le.mpr failed)]
    exact Nat.le_of_eq (Nat.zero_add _)
  | sentOnce left time written last walk ih =>
    -- Leaving afterwards costs nothing.
    rw [attemptsLeft_middle]
    exact sending_covered _ _ _ _ (Nat.add_le_add (ih rfl) (Nat.sub_pos_of_lt left))
  | attempted left time written again walk ih =>
    apply sending_covered
    have later := ih (List.append_cons ..)
    rw [← List.append_cons, attemptsLeft_middle] at later
    rw [attemptsLeft_middle, ← attemptsLeft_attempted (times _) left]
    exact Nat.add_le_add_right later 1

/-! ### Runs -/

/-- A round of sending is paid for with the attempts that are left. -/
theorem pittacusGossipProcessSend_covered (times : Nat → Nat) (results : Nat → Int)
    (self : PittacusGossip) :
    transmitting.Covers 0 (pittacusGossipProcessSend times results) self := by
  apply Budget.Covers.get
  apply Budget.covers_ite (fun _ => Budget.covers_pure _)
  intro exchanges
  have walked :=
    (processSendFrom_walk times results none 0 0 [] self.outboundMessages self).covered rfl
  rw [List.nil_append] at walked
  exact walked

/-- A node introduces itself to each seed node. -/
theorem gossipEnqueueHellos_covered (seedNodes : List (List UInt8)) (self : PittacusGossip) :
    transmitting.Covers (messageRetryAttempts * seedNodes.length) (gossipEnqueueHellos seedNodes)
      self := by
  induction seedNodes generalizing self with
  | nil =>
    rw [gossipEnqueueHellos]
    exact (Budget.covers_modify (Nat.le_refl _)).andThen (Budget.covers_pure _)
  | cons seed rest ih =>
    rw [gossipEnqueueHellos, List.length_cons, Nat.mul_add_one, Nat.add_comm]
    have hello : gossipEnqueueHello seed self = gossipEnqueueMessage (.hello
        ⟨messageHeaderInit messageHelloType 0, self.selfAddress⟩) seed .direct noRandom self := by
      rw [gossipEnqueueHello, get_bind_run]
    apply ((enqueueDirect_covered (.hello _) seed self).congr hello).bind
    exact Budget.covers_ite (fun _ => Budget.covers_pure _) fun _ => ih _

/--
How many transmissions a call may cause at a node, then or later.

A received datagram is granted what its type asks for, and one too short for a header nothing.
Sending is granted nothing: it lives on what was queued.
-/
def PittacusGossip.grant (self : PittacusGossip) : Input → Nat
  | .join seedNodes => messageRetryAttempts * seedNodes.length
  | .sendData _ _ | .tick _ _ => messageRetryAttempts * messageRumorFactor
  | .processReceive datagram _ _ _ =>
    (datagram[5]?).elim 0 (answerGrant self.members.live.length)
  | .processSend _ _ => 0

/-- A datagram is granted what its type asks for. -/
theorem pittacusGossipProcessReceive_covered (datagram sender : List UInt8) (beyond : Nat → UInt8)
    (random : Nat → UInt32) {self : PittacusGossip} (fits : self.LogFits) :
    transmitting.Covers (self.grant (.processReceive datagram sender beyond random))
      (pittacusGossipProcessReceive datagram sender beyond random) self := by
  apply Budget.Covers.get
  apply Budget.covers_ite (fun _ => Budget.covers_pure _)
  intro exchanges
  apply Budget.covers_ite (fun _ => Budget.covers_pure _)
  intro arrived
  have handled := gossipHandleNewMessage_covered (envelopeOf datagram sender beyond) random fits
  cases sixth : datagram[5]? with
  | none =>
    -- Such a datagram has no whole header.
    have short := List.getElem?_eq_none_iff.mp sixth
    have refused : gossipHandleNewMessage (envelopeOf datagram sender beyond) random
        = pure PittacusError.invalidMessage.code := by
      have size : (envelopeOf datagram sender beyond).bufferSize < messageHeaderSize := by
        show (datagram.take messageMaxSize).length < 12
        rw [List.length_take]
        omega
      rw [gossipHandleNewMessage, messageTypeDecode_result, if_pos size]
    exact (Budget.covers_pure _).congr (congrFun refused self)
  | some type =>
    have typed : (envelopeOf datagram sender beyond).buffer 5 = type := by
      show (datagram.take messageMaxSize).getD 5 _ = type
      rw [List.getD_eq_getElem?_getD, List.getElem?_take_of_lt (by decide), sixth]
      rfl
    rw [PittacusGossip.grant, sixth]
    rw [typed] at handled
    exact handled

/-- A call costs what it is granted. -/
theorem gossipStep_covered (input : Input) {self : PittacusGossip} (fits : self.LogFits) :
    transmitting.Covers (self.grant input) (gossipStep input) self := by
  cases input with
  | join seedNodes =>
    apply Budget.Covers.get
    apply Budget.covers_ite (fun _ => Budget.covers_pure _)
    intro fresh
    apply Budget.covers_ite
    · intro alone
      exact ((Budget.covers_modify (Nat.le_refl _)).andThen (Budget.covers_pure _)).mono
        (Nat.zero_le _)
    · exact fun _ => gossipEnqueueHellos_covered seedNodes self
  | sendData data random =>
    apply returnIfNotConnected_covered
    have sends := enqueueRandom_covered (.data (self.ownMessage data)) random
      (({ self with dataCounter := self.dataCounter + 1 } : PittacusGossip).adopting
        (self.ownMessage data))
    -- Counting and logging the payload leaves the queue alone.
    unfold Budget.Covers at sends ⊢
    rw [gossipEnqueueData_run]
    exact sends
  | tick now random =>
    apply Budget.Covers.get
    apply Budget.covers_ite (fun _ => Budget.covers_pure _)
    intro connected
    apply Budget.covers_ite (fun _ => Budget.covers_pure _)
    intro due
    have announces : transmitting.Covers (messageRetryAttempts * messageRumorFactor)
        (gossipEnqueueStatus none random) self :=
      enqueueRandom_covered (.status ⟨messageHeaderInit messageStatusType 0,
        vectorClockCopy vectorClockInit self.dataVersion⟩) random self
    apply announces.andThen
    apply Budget.covers_ite (fun _ => Budget.covers_pure _)
    intro queued
    exact (Budget.covers_modify (Nat.le_refl _)).andThen (Budget.covers_pure _)
  | processReceive datagram sender beyond random =>
    exact pittacusGossipProcessReceive_covered datagram sender beyond random fits
  | processSend times results => exact pittacusGossipProcessSend_covered times results self

/-- A log that is in order has no more messages than there is room for. -/
theorem logFits_of_ok {self : PittacusGossip} (ok : self.knowledge.Ok) : self.LogFits := by
  have slots : self.dataLog.messages.length = dataLogSize := SlotRing.Ok.length ok.log
  rw [PittacusGossip.LogFits, DataLog.live, List.length_take, slots]
  exact Nat.min_le_right _ _

end Pittacus
