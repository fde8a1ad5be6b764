import Pittacus.Proofs.Enqueue

/-! Relations that everything a node does besides taking over data and sending datagrams meets. -/

namespace Pittacus

/-- A change that touches neither what is queued, nor the data, nor who is known. -/
structure Aside (before after : PittacusGossip) : Prop where
  outputBuffer : after.outputBuffer = before.outputBuffer
  outboundMessages : after.outboundMessages = before.outboundMessages
  dataCounter : after.dataCounter = before.dataCounter
  dataVersion : after.dataVersion = before.dataVersion
  selfAddress : after.selfAddress = before.selfAddress
  members : after.members = before.members
  dataLog : after.dataLog = before.dataLog
  dataReceiver : after.dataReceiver = before.dataReceiver

/-- A message is a rumor when it carries data to random members. -/
def IsRumor : Message → GossipSpreadingType → Prop
  | .data _, .random => True
  | _, _ => False

/-- A message consists of what the node knows: its own address, its members, its log, its clock. -/
def PittacusGossip.Composes (self : PittacusGossip) (message : Message) : Prop :=
  message.Typed ∧
    match message with
    | .hello msg => msg.thisMember = self.selfAddress
    | .welcome msg => msg.thisMember = self.selfAddress
    | .memberList msg => ∀ member ∈ msg.members, member ∈ self.members.live
    | .ack _ => True
    | .data msg => ∃ record ∈ self.dataLog.live, msg = gossipDataLogCreateMessage record
    | .status msg => msg.dataVersion = vectorClockCopy vectorClockInit self.dataVersion

/-- Take members into the set. -/
def rememberMembers (newMembers : List ClusterMember) : Routine PittacusGossip Event Unit :=
  Routine.modify fun self => { self with members := clusterMemberSetPut self.members newMembers }

/-- Tell all members about a newcomer, and take it into the set. -/
def introduceNewcomer (newcomer : ClusterMember) : Routine PittacusGossip Event Unit := do
  let _ ← gossipEnqueueMessage
    (.memberList ⟨messageHeaderInit messageMemberListType 0, [newcomer], by simp⟩)
    [] .broadcast noRandom
  rememberMembers [newcomer]

/-- Acknowledging an envelope concerns no member. -/
theorem gossipEnvelopeAcknowledge_members (sequenceNum : UInt32) (self : PittacusGossip) :
    (gossipEnvelopeAcknowledge sequenceNum self).state.members = self.members := by
  unfold gossipEnvelopeAcknowledge
  rw [Routine.get_bind_run]
  cases gossipEnvelopeFindBySequenceNum self.outboundMessages sequenceNum with
  | none => rfl
  | some envelope => rfl

/-- The message that tells a member about a newcomer. -/
def newcomerMessage (newcomer : ClusterMember) : Message :=
  .memberList ⟨messageHeaderInit messageMemberListType 0, [newcomer], by simp⟩

/-- The newcomer is remembered after the members were told. -/
theorem introduceNewcomer_eq (newcomer : ClusterMember) :
    introduceNewcomer newcomer =
      (gossipEnqueueMessage (newcomerMessage newcomer) [] .broadcast noRandom >>= fun _ =>
        rememberMembers [newcomer]) := rfl

/-- Introducing a newcomer is telling the members about it, and putting it into the set. -/
theorem introduceNewcomer_state (newcomer : ClusterMember) (self : PittacusGossip) :
    (introduceNewcomer newcomer self).state =
      (rememberMembers [newcomer]
        (gossipEnqueueMessage (newcomerMessage newcomer) [] .broadcast noRandom self).state).state := by
  rw [introduceNewcomer_eq, Routine.bind_run]

/-- A newcomer that is introduced is put into the set. -/
theorem introduceNewcomer_members (newcomer : ClusterMember) (self : PittacusGossip) :
    (introduceNewcomer newcomer self).state.members
      = clusterMemberSetPut self.members [newcomer] := by
  have same := gossipEnqueueMessage_same (newcomerMessage newcomer) [] .broadcast noRandom self
  rw [introduceNewcomer_state]
  generalize (gossipEnqueueMessage (newcomerMessage newcomer) [] .broadcast noRandom self).state
    = told at same
  show clusterMemberSetPut told.members [newcomer] = _
  rw [same.members]

/-- What a call brings to a node, and whom the node addresses because of it. -/
structure Scope where
  /-- The members taken in. -/
  newcomer : ClusterMember → Prop
  /-- The sequence numbers that are named as received. -/
  retired : UInt32 → Prop
  /-- The messages sent to one recipient. -/
  direct : Message → List UInt8 → Prop

/-- A message that answers another one, and is not spread. -/
def Message.Replies : Message → Prop
  | .welcome _ | .ack _ => True
  | _ => False

/-- Whether a message may be queued for a recipient, or be spread among the members. -/
def Scope.Allows (scope : Scope) (message : Message) (recipient : List UInt8) :
    GossipSpreadingType → Prop
  | .direct => scope.direct message recipient
  | .random | .broadcast => ¬message.Replies

/-- A call may bring anything, and be answered to anybody. -/
def Scope.any : Scope := ⟨fun _ => True, fun _ => True, fun _ _ => True⟩

/--
The steps every handler is made of relate the state before to the events and the state after.

They only take in, acknowledge and address what is within a scope.
-/
structure Chores (scope : Scope)
    (relation : PittacusGossip → List Event → PittacusGossip → Prop) : Prop where
  chains : Routine.Chains relation
  enqueue : ∀ self message recipient spreading random, ¬IsRumor message spreading →
    self.Composes message → scope.Allows message recipient spreading →
    relation self (gossipEnqueueMessage message recipient spreading random self).events
      (gossipEnqueueMessage message recipient spreading random self).state
  acknowledge : ∀ sequenceNum, scope.retired sequenceNum →
    Routine.Meets relation (gossipEnvelopeAcknowledge sequenceNum)
  remember : ∀ newMembers, (∀ member ∈ newMembers, scope.newcomer member) →
    Routine.Meets relation (rememberMembers newMembers)
  introduce : ∀ member, scope.newcomer member → Routine.Meets relation (introduceNewcomer member)

/-- The relation is also met by what happens aside from these steps. -/
structure Duties (scope : Scope)
    (relation : PittacusGossip → List Event → PittacusGossip → Prop) : Prop
    extends Chores scope relation where
  aside : ∀ change, (∀ self, Aside self (change self)) →
    Routine.Meets relation (Routine.modify change)

/-- Move on to another stage. -/
def enterState (state : PittacusGossipState) : Routine PittacusGossip Event Unit :=
  Routine.modify fun self => { self with state := state }

/-- Note when the data version was announced. -/
def noteGossip (now : Nat) : Routine PittacusGossip Event Unit :=
  Routine.modify fun self => { self with lastGossipTs := now }

/-- Every member that a received datagram names, and that is decoded, is of a given kind. -/
structure MessageEnvelopeIn.Brings (envelopeIn : MessageEnvelopeIn)
    (newcomer : ClusterMember → Prop) : Prop where
  hello : ∀ count msg,
    (messageHelloDecode envelopeIn.bufferSize).result envelopeIn.buffer = .ok (count, msg) →
      newcomer (msg.load envelopeIn.buffer).thisMember
  welcome : ∀ count msg,
    (messageWelcomeDecode envelopeIn.bufferSize).result envelopeIn.buffer = .ok (count, msg) →
      newcomer (msg.load envelopeIn.buffer).thisMember
  memberList : ∀ count msg,
    (messageMemberListDecode envelopeIn.bufferSize).result envelopeIn.buffer = .ok (count, msg) →
      ∀ member ∈ (msg.load envelopeIn.buffer).members, newcomer member

/-- Every sequence number that a received datagram names as received is of a given kind. -/
structure MessageEnvelopeIn.Retires (envelopeIn : MessageEnvelopeIn)
    (retired : UInt32 → Prop) : Prop where
  welcome : ∀ count msg,
    (messageWelcomeDecode envelopeIn.bufferSize).result envelopeIn.buffer = .ok (count, msg) →
      retired msg.helloSequenceNum
  ack : ∀ count msg,
    (messageAckDecode envelopeIn.bufferSize).result envelopeIn.buffer = .ok (count, msg) →
      retired msg.ackSequenceNum

/-- The message that answers an introduction. -/
def welcomeMessage (helloSequenceNum : UInt32) (thisMember : ClusterMember) : Message :=
  .welcome ⟨messageHeaderInit messageWelcomeType 0, helloSequenceNum, thisMember⟩

/-- The acknowledgement of a message. -/
def ackMessage (sequenceNum : UInt32) : Message :=
  .ack ⟨messageHeaderInit messageAckType 0, sequenceNum⟩

/-- Every answer to a received datagram is one that may be sent to a recipient. -/
structure MessageEnvelopeIn.Answers (envelopeIn : MessageEnvelopeIn)
    (direct : Message → List UInt8 → Prop) : Prop where
  hello : ∀ count msg,
    (messageHelloDecode envelopeIn.bufferSize).result envelopeIn.buffer = .ok (count, msg) →
      ∀ thisMember, direct (welcomeMessage msg.header.sequenceNum thisMember) envelopeIn.sender
  memberList : ∀ count msg,
    (messageMemberListDecode envelopeIn.bufferSize).result envelopeIn.buffer = .ok (count, msg) →
      direct (ackMessage msg.header.sequenceNum) envelopeIn.sender
  data : ∀ count msg,
    (messageDataDecode envelopeIn.bufferSize).result envelopeIn.buffer = .ok (count, msg) →
      direct (ackMessage msg.header.sequenceNum) envelopeIn.sender
  status : ∀ count msg,
    (messageStatusDecode envelopeIn.bufferSize vectorClockInit).result envelopeIn.buffer
        = .ok (count, msg) →
      direct (ackMessage msg.header.sequenceNum) envelopeIn.sender
  tells : ∀ msg, direct (.memberList msg) envelopeIn.sender
  sends : ∀ msg, direct (.data msg) envelopeIn.sender
  asks : ∀ msg, direct (.status msg) envelopeIn.sender

/-- Whatever a received datagram brings, names and is answered with is within a scope. -/
structure MessageEnvelopeIn.Within (envelopeIn : MessageEnvelopeIn) (scope : Scope) : Prop where
  brings : envelopeIn.Brings scope.newcomer
  retires : envelopeIn.Retires scope.retired
  answers : envelopeIn.Answers scope.direct

/-- Members of any kind may be brought by any datagram. -/
theorem MessageEnvelopeIn.brings_any (envelopeIn : MessageEnvelopeIn) :
    envelopeIn.Brings fun _ => True where
  hello _ _ _ := trivial
  welcome _ _ _ := trivial
  memberList _ _ _ _ _ := trivial

/-- A datagram that brings members of a kind is within a scope that asks for nothing else. -/
theorem MessageEnvelopeIn.Brings.within {envelopeIn : MessageEnvelopeIn}
    {newcomer : ClusterMember → Prop} (brings : envelopeIn.Brings newcomer) :
    envelopeIn.Within ⟨newcomer, fun _ => True, fun _ _ => True⟩ where
  brings := brings
  retires := ⟨fun _ _ _ => trivial, fun _ _ _ => trivial⟩
  answers := ⟨fun _ _ _ _ => trivial, fun _ _ _ => trivial, fun _ _ _ => trivial,
    fun _ _ _ => trivial, fun _ => trivial, fun _ => trivial, fun _ => trivial⟩

/-- Every datagram is within the scope of any. -/
theorem MessageEnvelopeIn.within_any (envelopeIn : MessageEnvelopeIn) :
    envelopeIn.Within Scope.any :=
  envelopeIn.brings_any.within

/-- Comparing without merging changes nothing. -/
theorem compareRecordAt_first (second : VectorClock) (state : ComparisonState) (i : Nat) :
    (compareRecordAt second false state i).first = state.first := by
  unfold compareRecordAt
  cases held : state.first.records[i]? with
  | none => rfl
  | some record =>
    cases found : vectorClockFindByMemberId second record.memberId with
    | none => simp [found]
    | some secondIdx =>
      simp only [found]
      -- Only the branch that merges would write into the first clock.
      split
      · rfl
      · split
        · simp
        · rfl

/-- Comparing any number of records without merging changes nothing. -/
theorem compareRecords_first (second : VectorClock) (slots : List Nat) (state : ComparisonState) :
    (slots.foldl (compareRecordAt second false) state).first = state.first := by
  induction slots generalizing state with
  | nil => rfl
  | cons slot rest ih => rw [List.foldl_cons, ih, compareRecordAt_first]

/-- Comparing two clocks without merging leaves the first one as it was. -/
theorem vectorClockCompare_snd (first second : VectorClock) :
    (vectorClockCompare first second false).2 = first := by
  -- Every record compared keeps the clock, and the records missing from it are not inserted.
  unfold vectorClockCompare
  simp only [compareRecords_first]
  split <;> rfl

/-- What a node answers to a status, once the status was acknowledged. -/
def answerStatus (msg : MessageStatus) (sender : List UInt8) :
    Routine PittacusGossip Event Int := do
  let self ← Routine.get
  match (vectorClockCompare self.dataVersion msg.dataVersion false).1 with
  | .after => gossipEnqueueDataLog msg.dataVersion sender self.dataLog.live errNone
  | .before => gossipEnqueueStatus (some sender) noRandom
  | .conflict => do
    let result ← gossipEnqueueDataLog msg.dataVersion sender self.dataLog.live errNone
    if result < 0 then return result else gossipEnqueueStatus (some sender) noRandom
  | .equal => return errNone

/-- The clock a status is compared with is written back unchanged. -/
theorem gossipHandleStatus_eq (envelopeIn : MessageEnvelopeIn) :
    gossipHandleStatus envelopeIn =
      returnIfNotConnected
        (match (messageStatusDecode envelopeIn.bufferSize vectorClockInit).result
            envelopeIn.buffer with
        | .error code => return code
        | .ok (_, msg) => do
          let _ ← gossipEnqueueAck msg.header.sequenceNum envelopeIn.sender
          answerStatus msg envelopeIn.sender) := by
  unfold gossipHandleStatus
  cases (messageStatusDecode envelopeIn.bufferSize vectorClockInit).result envelopeIn.buffer with
  | error code => rfl
  | ok decoded =>
    have answered : ∀ state : PittacusGossip,
        { state with
          dataVersion :=
            (vectorClockCompare state.dataVersion decoded.2.dataVersion false).2 } = state := by
      intro state
      rw [vectorClockCompare_snd]
    refine congrArg returnIfNotConnected (congrArg (Bind.bind _) ?_)
    funext acked state
    -- What is left are two copies of the same branches.
    simp only [answerStatus, Routine.get_bind_run, Routine.modify_bind_run, answered]
    all_goals rfl

/-- Send a newcomer the members there are. -/
def tellMembers (recipient : List UInt8) : Routine PittacusGossip Event Int := do
  let self ← Routine.get
  if self.members.size > 0 then gossipEnqueueMemberList recipient else pure errNone

/-- A newcomer is welcomed, told about the members, and introduced to them. -/
theorem gossipHandleHello_eq (envelopeIn : MessageEnvelopeIn) :
    gossipHandleHello envelopeIn =
      returnIfNotConnected
        (match (messageHelloDecode envelopeIn.bufferSize).result envelopeIn.buffer with
        | .error code => return code
        | .ok (_, decoded) => do
          let msg := decoded.load envelopeIn.buffer
          let _ ← gossipEnqueueWelcome msg.header.sequenceNum envelopeIn.sender
          let _ ← tellMembers envelopeIn.sender
          introduceNewcomer msg.thisMember
          return errNone) := by
  unfold gossipHandleHello
  cases (messageHelloDecode envelopeIn.bufferSize).result envelopeIn.buffer with
  | error code => rfl
  | ok decoded =>
    refine congrArg returnIfNotConnected (congrArg (Bind.bind _) ?_)
    funext welcomed state
    have introduced := Routine.bind_assoc
      (gossipEnqueueMessage (.memberList ⟨messageHeaderInit messageMemberListType 0,
        [(decoded.2.load envelopeIn.buffer).thisMember], by simp⟩) [] .broadcast noRandom)
      (fun _ => rememberMembers [(decoded.2.load envelopeIn.buffer).thisMember])
      (fun _ => (pure errNone : Routine PittacusGossip Event Int))
    -- Both sides of the branch go on in the same way.
    by_cases some_ : state.members.size > 0
    · have told : tellMembers envelopeIn.sender state
          = gossipEnqueueMemberList envelopeIn.sender state := by
        rw [tellMembers, Routine.get_bind_run, if_pos some_]
      rw [Routine.get_bind_run, if_pos some_, Routine.bind_of_run told, introduceNewcomer,
        introduced]
      rfl
    · have told : tellMembers envelopeIn.sender state
          = (pure errNone : Routine PittacusGossip Event Int) state := by
        rw [tellMembers, Routine.get_bind_run, if_neg some_]
      rw [Routine.get_bind_run, if_neg some_, Routine.bind_of_run told, introduceNewcomer,
        introduced]
      rfl

/-- As long as members are left, a chunk of them is queued. -/
theorem gossipEnqueueMemberChunks_cons {membersNum : Nat} (small : membersNum < 2 ^ 16)
    (recipient : List UInt8) (rounds : Nat) (member : ClusterMember) (rest : List ClusterMember)
    (result : Int) (bounded : ((member :: rest).take membersNum).length < 2 ^ 16) :
    gossipEnqueueMemberChunks membersNum small recipient (rounds + 1) (member :: rest) result =
      (do
        let result ← gossipEnqueueMessage
          (.memberList ⟨messageHeaderInit messageMemberListType 0,
            (member :: rest).take membersNum, bounded⟩) recipient .direct noRandom
        if result < 0 then return result
        else
          gossipEnqueueMemberChunks membersNum small recipient rounds
            ((member :: rest).drop membersNum) result) := rfl

namespace Chores

open Routine

variable {scope : Scope} {relation : PittacusGossip → List Event → PittacusGossip → Prop}

/-- A handler guarded by the connection meets what it meets unguarded. -/
theorem ifConnected (chores : Chores scope relation)
    {handler : Routine PittacusGossip Event Int} (meets : Meets relation handler) :
    Meets relation (returnIfNotConnected handler) := by
  apply meets_bind chores.chains (meets_get chores.chains)
  intro self
  exact meets_ite (fun _ => meets_pure chores.chains _) (fun _ => meets)

theorem enqueueAck (chores : Chores scope relation) {sequenceNum : UInt32}
    {recipient : List UInt8} (direct : scope.direct (ackMessage sequenceNum) recipient) :
    Meets relation (gossipEnqueueAck sequenceNum recipient) := by
  intro self
  have composed : self.Composes (ackMessage sequenceNum) := ⟨⟨rfl, rfl⟩, trivial⟩
  exact chores.enqueue self _ recipient .direct noRandom id composed direct

theorem enqueueWelcome (chores : Chores scope relation) {helloSequenceNum : UInt32}
    {recipient : List UInt8}
    (direct : ∀ thisMember, scope.direct (welcomeMessage helloSequenceNum thisMember) recipient) :
    Meets relation (gossipEnqueueWelcome helloSequenceNum recipient) := by
  intro self
  have composed : self.Composes (welcomeMessage helloSequenceNum self.selfAddress) :=
    ⟨⟨rfl, rfl⟩, rfl⟩
  rw [gossipEnqueueWelcome, get_bind_run]
  exact chores.enqueue self _ recipient .direct noRandom id composed (direct _)

theorem enqueueHello (chores : Chores scope relation) {recipient : List UInt8}
    (direct : ∀ msg, scope.direct (.hello msg) recipient) :
    Meets relation (gossipEnqueueHello recipient) := by
  intro self
  have composed : self.Composes
      (.hello ⟨messageHeaderInit messageHelloType 0, self.selfAddress⟩) := ⟨⟨rfl, rfl⟩, rfl⟩
  rw [gossipEnqueueHello, get_bind_run]
  exact chores.enqueue self _ recipient .direct noRandom id composed (direct _)

/-- A status may be announced to random members, or to one recipient. -/
theorem enqueueStatus (chores : Chores scope relation) {recipient : Option (List UInt8)}
    (random : Nat → UInt32)
    (direct : ∀ address ∈ recipient, ∀ msg, scope.direct (.status msg) address) :
    Meets relation (gossipEnqueueStatus recipient random) := by
  intro self
  have composed : self.Composes (.status ⟨messageHeaderInit messageStatusType 0,
      vectorClockCopy vectorClockInit self.dataVersion⟩) := ⟨⟨rfl, rfl⟩, rfl⟩
  rw [gossipEnqueueStatus, get_bind_run]
  refine chores.enqueue self _ (recipient.getD []) _ random id composed ?_
  -- Without a recipient the status is spread among members.
  cases recipient with
  | none => exact id
  | some address => exact direct address rfl _

/-- The chunks of a member list are queued one after the other. -/
theorem enqueueMemberChunks (chores : Chores scope relation) {membersNum : Nat}
    (small : membersNum < 2 ^ 16) {recipient : List UInt8}
    (direct : ∀ msg, scope.direct (.memberList msg) recipient) (rounds : Nat)
    (members : List ClusterMember) (result : Int) (self : PittacusGossip)
    (known : ∀ member ∈ members, member ∈ self.members.live) :
    relation self
      (gossipEnqueueMemberChunks membersNum small recipient rounds members result self).events
      (gossipEnqueueMemberChunks membersNum small recipient rounds members result self).state := by
  -- What queueing leaves of the members is what it found, so later chunks are known as well.
  induction rounds generalizing members result self with
  | zero => exact chores.chains.rest self
  | succ rounds ih =>
    cases members with
    | nil => exact chores.chains.rest self
    | cons member rest =>
      have bounded : ((member :: rest).take membersNum).length < 2 ^ 16 := by
        rw [List.length_take]
        omega
      have composed : self.Composes (.memberList ⟨messageHeaderInit messageMemberListType 0,
          (member :: rest).take membersNum, bounded⟩) :=
        ⟨⟨rfl, rfl⟩, fun one listed => known one (List.mem_of_mem_take listed)⟩
      rw [gossipEnqueueMemberChunks_cons small recipient rounds member rest result bounded]
      apply joins_bind chores.chains
      · exact chores.enqueue self _ recipient .direct noRandom id composed (direct _)
      · refine joins_ite (fun _ => chores.chains.rest _) (fun _ => ih _ _ _ fun one listed => ?_)
        rw [(gossipEnqueueMessage_same _ recipient .direct noRandom self).members]
        exact known one (List.mem_of_mem_drop listed)

theorem enqueueMemberList (chores : Chores scope relation) {recipient : List UInt8}
    (direct : ∀ msg, scope.direct (.memberList msg) recipient) :
    Meets relation (gossipEnqueueMemberList recipient) := by
  intro self
  rw [gossipEnqueueMemberList, get_bind_run]
  refine joins_ite (fun _ => chores.chains.rest self) (fun _ => ?_)
  exact chores.enqueueMemberChunks _ direct _ _ _ self fun _ member => member

/-- The logged messages a recipient lacks are queued one after the other. -/
theorem enqueueDataLog (chores : Chores scope relation) (recipientVersion : VectorClock)
    {recipient : List UInt8} (direct : ∀ msg, scope.direct (.data msg) recipient)
    (records : List DataLogRecord) (result : Int) (self : PittacusGossip)
    (logged : ∀ record ∈ records, record ∈ self.dataLog.live) :
    relation self (gossipEnqueueDataLog recipientVersion recipient records result self).events
      (gossipEnqueueDataLog recipientVersion recipient records result self).state := by
  induction records generalizing result self with
  | nil => exact chores.chains.rest self
  | cons record rest ih =>
    have others : ∀ other ∈ rest, other ∈ self.dataLog.live :=
      fun other listed => logged other (List.mem_cons_of_mem _ listed)
    rw [gossipEnqueueDataLog]
    refine joins_ite (fun _ => ?_) (fun _ => ih _ _ others)
    -- What is sent from the log is a record of the log, which queueing leaves alone.
    have composed : self.Composes (.data (gossipDataLogCreateMessage record)) :=
      ⟨⟨rfl, rfl⟩, record, logged record List.mem_cons_self, rfl⟩
    apply joins_bind chores.chains
    · exact chores.enqueue self _ recipient .direct noRandom id composed (direct _)
    · refine joins_ite (fun _ => chores.chains.rest _) (fun _ => ih _ _ ?_)
      rw [(gossipEnqueueMessage_same _ recipient .direct noRandom self).dataLog]
      exact others

/-! ### Handlers -/

theorem tells (chores : Chores scope relation) {recipient : List UInt8}
    (direct : ∀ msg, scope.direct (.memberList msg) recipient) :
    Meets relation (tellMembers recipient) := by
  refine meets_bind chores.chains (meets_get chores.chains) fun self => ?_
  exact meets_ite (fun _ => chores.enqueueMemberList direct) (fun _ => meets_pure chores.chains _)

theorem handleHello (chores : Chores scope relation) (envelopeIn : MessageEnvelopeIn)
    (within : envelopeIn.Within scope) : Meets relation (gossipHandleHello envelopeIn) := by
  rw [gossipHandleHello_eq]
  apply chores.ifConnected
  cases decoded : (messageHelloDecode envelopeIn.bufferSize).result envelopeIn.buffer with
  | error code => exact meets_pure chores.chains _
  | ok found =>
    have welcomes := within.answers.hello _ _ decoded
    refine meets_bind chores.chains (chores.enqueueWelcome welcomes) fun _ => ?_
    refine meets_bind chores.chains (chores.tells within.answers.tells) fun _ => ?_
    -- The newcomer is told to the others and remembered, in this order.
    have newcomer := within.brings.hello _ _ decoded
    refine meets_bind chores.chains (chores.introduce _ newcomer) fun _ => ?_
    exact meets_pure chores.chains _

theorem handleWelcome (chores : Chores scope relation)
    (enters : Meets relation (enterState .connected)) (envelopeIn : MessageEnvelopeIn)
    (within : envelopeIn.Within scope) : Meets relation (gossipHandleWelcome envelopeIn) := by
  unfold gossipHandleWelcome
  cases decoded : (messageWelcomeDecode envelopeIn.bufferSize).result envelopeIn.buffer with
  | error code => exact meets_pure chores.chains _
  | ok found =>
    have seed : ∀ member ∈ [(found.2.load envelopeIn.buffer).thisMember], scope.newcomer member :=
      List.forall_mem_singleton.mpr (within.brings.welcome _ _ decoded)
    have retired := within.retires.welcome _ _ decoded
    -- Entering the state and remembering the seed node are one update in the source.
    have connects : Meets relation
        (do
          enterState .connected
          rememberMembers [(found.2.load envelopeIn.buffer).thisMember]) :=
      meets_bind chores.chains enters fun _ => chores.remember _ seed
    refine meets_bind chores.chains connects fun _ => ?_
    exact meets_bind chores.chains (chores.acknowledge _ retired) fun _ =>
      meets_pure chores.chains _

theorem handleMemberList (chores : Chores scope relation) (envelopeIn : MessageEnvelopeIn)
    (within : envelopeIn.Within scope) : Meets relation (gossipHandleMemberList envelopeIn) := by
  apply chores.ifConnected
  cases decoded : (messageMemberListDecode envelopeIn.bufferSize).result envelopeIn.buffer with
  | error code => exact meets_pure chores.chains _
  | ok found =>
    have newcomers := within.brings.memberList _ _ decoded
    have answer := within.answers.memberList _ _ decoded
    refine meets_bind chores.chains (chores.remember _ newcomers) fun _ => ?_
    exact meets_bind chores.chains (chores.enqueueAck answer) fun _ => meets_pure chores.chains _

theorem handleAck (chores : Chores scope relation) (envelopeIn : MessageEnvelopeIn)
    (within : envelopeIn.Within scope) : Meets relation (gossipHandleAck envelopeIn) := by
  apply chores.ifConnected
  cases decoded : (messageAckDecode envelopeIn.bufferSize).result envelopeIn.buffer with
  | error code => exact meets_pure chores.chains _
  | ok found =>
    have retired := within.retires.ack _ _ decoded
    exact meets_bind chores.chains (chores.acknowledge _ retired) fun _ =>
      meets_pure chores.chains _

theorem answers (chores : Chores scope relation) (msg : MessageStatus) {sender : List UInt8}
    (sends : ∀ msg, scope.direct (.data msg) sender)
    (asks : ∀ msg, scope.direct (.status msg) sender) :
    Meets relation (answerStatus msg sender) := by
  intro self
  have logged := chores.enqueueDataLog msg.dataVersion sends self.dataLog.live errNone self
    fun _ member => member
  have asked : Meets relation (gossipEnqueueStatus (some sender) noRandom) := by
    refine chores.enqueueStatus noRandom fun address given => ?_
    rw [← Option.some.inj given]
    exact asks
  rw [answerStatus, get_bind_run]
  -- Ahead it sends, behind it asks, and in a conflict it does both.
  cases (vectorClockCompare self.dataVersion msg.dataVersion false).1 with
  | after => exact logged
  | before => exact asked self
  | equal => exact chores.chains.rest self
  | conflict =>
    apply joins_bind chores.chains
    · exact logged
    · exact joins_ite (fun _ => chores.chains.rest _) (fun _ => asked _)

theorem handleStatus (chores : Chores scope relation) (envelopeIn : MessageEnvelopeIn)
    (within : envelopeIn.Within scope) : Meets relation (gossipHandleStatus envelopeIn) := by
  rw [gossipHandleStatus_eq]
  apply chores.ifConnected
  cases decoded : (messageStatusDecode envelopeIn.bufferSize vectorClockInit).result
      envelopeIn.buffer with
  | error code => exact meets_pure chores.chains _
  | ok found =>
    have answer := within.answers.status _ _ decoded
    exact meets_bind chores.chains (chores.enqueueAck answer) fun _ =>
      chores.answers _ within.answers.sends within.answers.asks

/-! ### Calls -/

theorem enqueueHellos (chores : Chores scope relation)
    (enters : Meets relation (enterState .joining)) {seedNodes : List (List UInt8)}
    (direct : ∀ seed ∈ seedNodes, ∀ msg, scope.direct (.hello msg) seed) :
    Meets relation (gossipEnqueueHellos seedNodes) := by
  -- The state is entered after the last hello only.
  induction seedNodes with
  | nil => exact meets_bind chores.chains enters fun _ => meets_pure chores.chains _
  | cons seed rest ih =>
    obtain ⟨here, there⟩ := List.forall_mem_cons.mp direct
    apply meets_bind chores.chains (chores.enqueueHello here)
    intro result
    exact meets_ite (fun _ => meets_pure chores.chains _) (fun _ => ih there)

theorem join (chores : Chores scope relation) (joins : Meets relation (enterState .joining))
    (connects : Meets relation (enterState .connected)) {seedNodes : List (List UInt8)}
    (direct : ∀ seed ∈ seedNodes, ∀ msg, scope.direct (.hello msg) seed) :
    Meets relation (pittacusGossipJoin seedNodes) := by
  apply meets_bind chores.chains (meets_get chores.chains)
  intro self
  refine meets_ite (fun _ => meets_pure chores.chains _) (fun _ => ?_)
  refine meets_ite (fun _ => ?_) (fun _ => chores.enqueueHellos joins direct)
  exact meets_bind chores.chains connects fun _ => meets_pure chores.chains _

theorem tick (chores : Chores scope relation) (now : Nat) (random : Nat → UInt32)
    (notes : Meets relation (noteGossip now)) :
    Meets relation (pittacusGossipTick now random) := by
  apply meets_bind chores.chains (meets_get chores.chains)
  intro self
  refine meets_ite (fun _ => meets_pure chores.chains _) (fun _ => ?_)
  refine meets_ite (fun _ => meets_pure chores.chains _) (fun _ => ?_)
  -- It is addressed to nobody in particular.
  have announces : Meets relation (gossipEnqueueStatus none random) :=
    chores.enqueueStatus random fun _ none_ => absurd none_ (by simp)
  apply meets_bind chores.chains announces
  intro result
  refine meets_ite (fun _ => meets_pure chores.chains _) (fun _ => ?_)
  exact meets_bind chores.chains notes fun _ => meets_pure chores.chains _

end Chores

/-! ### Changes aside -/

namespace Duties

open Routine

variable {scope : Scope} {relation : PittacusGossip → List Event → PittacusGossip → Prop}

theorem enters (duties : Duties scope relation) (state : PittacusGossipState) :
    Meets relation (enterState state) :=
  duties.aside _ fun _ => ⟨rfl, rfl, rfl, rfl, rfl, rfl, rfl, rfl⟩

theorem join (duties : Duties scope relation) {seedNodes : List (List UInt8)}
    (direct : ∀ seed ∈ seedNodes, ∀ msg, scope.direct (.hello msg) seed) :
    Meets relation (pittacusGossipJoin seedNodes) :=
  duties.toChores.join (duties.enters _) (duties.enters _) direct

theorem tick (duties : Duties scope relation) (now : Nat) (random : Nat → UInt32) :
    Meets relation (pittacusGossipTick now random) :=
  duties.toChores.tick now random
    (duties.aside _ fun _ => ⟨rfl, rfl, rfl, rfl, rfl, rfl, rfl, rfl⟩)

end Duties

end Pittacus
