import Pittacus.Cluster.Network
import Pittacus.Membership.Admission
import Pittacus.Receiving.Accepted

/-! Nodes that know other nodes only, and do not tell them about themselves. -/

namespace Pittacus

open Routine

variable {ι : Type}

/-! ### Strangers -/

/-- A member is some other node of the network. -/
def Stranger (setup : ι → NodeSetup) (i : ι) (member : ClusterMember) : Prop :=
  ∃ j, j ≠ i ∧ member = (setup j).node.selfAddress

/-- A message goes to another node, and names no member that lives where it goes. -/
structure Discreet (routes : List UInt8 → Option ι) (setup : ι → NodeSetup) (i : ι)
    (recipient : List UInt8) (message : Message) : Prop where
  away : routes recipient ≠ some i
  named : ∀ member ∈ message.members, ∃ j, member = (setup j).node.selfAddress ∧
    routes recipient ≠ some j
  /-- A node only ever introduces itself. -/
  introduces : ∀ msg, message = .hello msg → msg.thisMember = (setup i).node.selfAddress

/-- A node knows other nodes only, and does not tell them about themselves. -/
structure Aloof (routes : List UInt8 → Option ι) (setup : ι → NodeSetup) (i : ι)
    (node : PittacusGossip) : Prop where
  own : node.selfAddress = (setup i).node.selfAddress
  ok : node.members.Ok
  strangers : ∀ member ∈ node.members.live, Stranger setup i member
  discreet : ∀ envelope ∈ node.outboundMessages,
    Discreet routes setup i envelope.recipient envelope.message

section Handling

variable {routes : List UInt8 → Option ι} {setup : ι → NodeSetup} {i : ι}

/-- What a node says of itself alone may be said to any other node. -/
theorem discreet_of_own {recipient : List UInt8} {message : Message}
    (own : ∀ member ∈ message.members, member = (setup i).node.selfAddress)
    (away : routes recipient ≠ some i) : Discreet routes setup i recipient message where
  away := away
  named member listed := ⟨i, own member listed, away⟩
  introduces msg same := own _ (by rw [same]; exact List.mem_singleton.mpr rfl)

/-- Queueing a message for recipients that may be told it keeps a node aloof. -/
theorem Aloof.enqueue {self : PittacusGossip} (aloof : Aloof routes setup i self)
    {message : Message} {recipient : List UInt8} {spreading : GossipSpreadingType}
    {random : Nat → UInt32}
    (discreet : ∀ address ∈ spreadingRecipients self recipient spreading random,
      Discreet routes setup i address message) :
    Aloof routes setup i
      (gossipEnqueueMessage message recipient spreading random self).state := by
  have same := gossipEnqueueMessage_same message recipient spreading random self
  refine ⟨same.selfAddress.trans aloof.own, ?_, ?_, fun envelope waiting => ?_⟩
  · rw [same.members]
    exact aloof.ok
  · rw [same.members]
    exact aloof.strangers
  · -- An envelope of the new queue waited before, or carries the message.
    rcases gossipEnqueueMessage_adds message recipient spreading random self waiting with
      old | ⟨carried, listed⟩
    · exact aloof.discreet envelope old
    · rw [carried]
      exact discreet _ listed

/-- A change that leaves the members alone and queues nothing keeps a node aloof. -/
theorem Aloof.of_same {before after : PittacusGossip} (aloof : Aloof routes setup i before)
    (own : after.selfAddress = before.selfAddress) (members : after.members = before.members)
    (queue : after.outboundMessages ⊆ before.outboundMessages) : Aloof routes setup i after where
  own := own.trans aloof.own
  ok := by
    rw [members]
    exact aloof.ok
  strangers := by
    rw [members]
    exact aloof.strangers
  discreet envelope waiting := aloof.discreet envelope (queue waiting)

/-- Strangers may be remembered. -/
theorem Aloof.remember {self : PittacusGossip} (aloof : Aloof routes setup i self)
    {newMembers : List ClusterMember}
    (strangers : ∀ member ∈ newMembers, Stranger setup i member) :
    Aloof routes setup i (rememberMembers newMembers self).state := by
  obtain ⟨ok, live⟩ := aloof.ok.put newMembers
  refine ⟨aloof.own, ok, fun member known => ?_, aloof.discreet⟩
  rcases (live member).mp known with old | new
  · exact aloof.strangers member old
  · exact strangers member new

/-- An acknowledged envelope is gone, and nothing else happens. -/
theorem Aloof.acknowledge (sequenceNum : UInt32) :
    Meets (Keeps (Aloof routes setup i)) (gossipEnvelopeAcknowledge sequenceNum) := by
  intro self aloof
  unfold gossipEnvelopeAcknowledge
  rw [get_bind_run]
  cases gossipEnvelopeFindBySequenceNum self.outboundMessages sequenceNum with
  | none => exact aloof
  | some envelope => exact aloof.of_same rfl rfl fun _ waiting => List.mem_of_mem_eraseP waiting

variable (home : ∀ j, routes (setup j).selfAddress = some j)

include home

/-- A stranger lives somewhere else. -/
theorem Stranger.away {member : ClusterMember} (stranger : Stranger setup i member) :
    routes member.address ≠ some i := by
  obtain ⟨j, other, rfl⟩ := stranger
  have lives : routes (setup j).node.selfAddress.address = some j := home j
  rw [lives]
  exact fun same => other (Option.some.inj same)

/-- A message that names nobody else is spread among strangers, or sent to another node. -/
theorem Aloof.say {self : PittacusGossip} (aloof : Aloof routes setup i self) {message : Message}
    (own : ∀ member ∈ message.members, member = (setup i).node.selfAddress)
    {recipient : List UInt8} {spreading : GossipSpreadingType}
    (away : spreading = .direct → routes recipient ≠ some i) (random : Nat → UInt32) :
    Aloof routes setup i
      (gossipEnqueueMessage message recipient spreading random self).state := by
  refine aloof.enqueue fun address listed => discreet_of_own own ?_
  -- A recipient is the one named, or one of the members, who are all strangers.
  rcases mem_spreadingRecipients listed with ⟨direct, same⟩ | ⟨member, known, same⟩
  · rw [same]
    exact away direct
  · rw [← same]
    exact (aloof.strangers member known).away home

/-- A message without members names nobody. -/
theorem Aloof.sayPlain {message : Message} (plain : message.members = [])
    {recipient : List UInt8} {spreading : GossipSpreadingType}
    (away : spreading = .direct → routes recipient ≠ some i) (random : Nat → UInt32) :
    Meets (Keeps (Aloof routes setup i))
      (gossipEnqueueMessage message recipient spreading random) := by
  intro self aloof
  refine aloof.say home (fun member listed => ?_) away random
  rw [plain] at listed
  exact absurd listed List.not_mem_nil

/-! ### Handlers -/

/-- A node that introduces itself to another one stays aloof. -/
theorem Aloof.hello {seed : List UInt8} (away : routes seed ≠ some i) :
    Meets (Keeps (Aloof routes setup i)) (gossipEnqueueHello seed) := by
  intro self aloof
  rw [gossipEnqueueHello, get_bind_run]
  refine aloof.say home (fun member listed => ?_) (fun _ => away) noRandom
  rw [List.mem_singleton.mp listed]
  exact aloof.own

/-- An acknowledgement names nobody. -/
theorem Aloof.ack (sequenceNum : UInt32) {sender : List UInt8} (away : routes sender ≠ some i) :
    Meets (Keeps (Aloof routes setup i)) (gossipEnqueueAck sequenceNum sender) :=
  Aloof.sayPlain home rfl (fun _ => away) noRandom

/-- A status names nobody. -/
theorem Aloof.status {recipient : Option (List UInt8)}
    (away : ∀ address ∈ recipient, routes address ≠ some i) (random : Nat → UInt32) :
    Meets (Keeps (Aloof routes setup i)) (gossipEnqueueStatus recipient random) := by
  intro self aloof
  rw [gossipEnqueueStatus, get_bind_run]
  refine Aloof.sayPlain home rfl (fun direct => ?_) random self aloof
  cases recipient with
  | none => cases direct
  | some address => exact away address rfl

/-- Neither does what is sent from the log. -/
theorem Aloof.dataLog (recipientVersion : VectorClock) {recipient : List UInt8}
    (away : routes recipient ≠ some i) (records : List DataLogRecord) (result : Int) :
    Meets (Keeps (Aloof routes setup i))
      (gossipEnqueueDataLog recipientVersion recipient records result) := by
  have chains := keeps_chains (ε := Event) (Aloof routes setup i)
  -- The records are taken one by one, each sent or skipped, until one cannot be queued.
  induction records generalizing result with
  | nil => exact meets_pure chains _
  | cons record rest ih =>
    refine meets_ite (fun _ => ?_) fun _ => ih _
    refine meets_bind chains (Aloof.sayPlain home rfl (fun _ => away) noRandom) fun sent => ?_
    exact meets_ite (fun _ => meets_pure chains _) fun _ => ih _

/-- What a node answers to a status of another one names nobody. -/
theorem Aloof.answerStatus (msg : MessageStatus) {sender : List UInt8}
    (away : routes sender ≠ some i) :
    Meets (Keeps (Aloof routes setup i)) (answerStatus msg sender) := by
  have chains := keeps_chains (ε := Event) (Aloof routes setup i)
  have away_ : ∀ address ∈ some sender, routes address ≠ some i := by
    rintro _ ⟨⟩
    exact away
  -- Neither data from the log nor a status names a member, whichever the clocks call for.
  refine meets_bind chains (meets_get chains) fun self => ?_
  cases (vectorClockCompare self.dataVersion msg.dataVersion false).1 with
  | after => exact Aloof.dataLog home _ away _ _
  | before => exact Aloof.status home away_ noRandom
  | equal => exact meets_pure chains _
  | conflict =>
    refine meets_bind chains (Aloof.dataLog home _ away _ _) fun sent => ?_
    exact meets_ite (fun _ => meets_pure chains _) fun _ => Aloof.status home away_ noRandom

omit home in
/-- A handler that asks for a connection keeps what it keeps without. -/
theorem Aloof.ifConnected {handler : Routine PittacusGossip Event Int}
    (keeps : Meets (Keeps (Aloof routes setup i)) handler) :
    Meets (Keeps (Aloof routes setup i)) (returnIfNotConnected handler) := by
  have chains := keeps_chains (ε := Event) (Aloof routes setup i)
  refine meets_bind chains (meets_get chains) fun self => ?_
  exact meets_ite (fun _ => meets_pure chains _) fun _ => keeps

/-- A datagram comes from another node, names strangers only, and introduces no third node. -/
structure MessageEnvelopeIn.Foreign (routes : List UInt8 → Option ι) (setup : ι → NodeSetup)
    (i j : ι) (envelopeIn : MessageEnvelopeIn) : Prop where
  lives : routes envelopeIn.sender = some j
  other : j ≠ i
  brings : envelopeIn.Brings (Stranger setup i)
  newcomer : ∀ count msg,
    (messageHelloDecode envelopeIn.bufferSize).result envelopeIn.buffer = .ok (count, msg) →
      (msg.load envelopeIn.buffer).thisMember = (setup j).node.selfAddress

variable {j : ι} {envelopeIn : MessageEnvelopeIn}

omit home in
/-- Another node lives somewhere else. -/
theorem MessageEnvelopeIn.Foreign.away (foreign : envelopeIn.Foreign routes setup i j) :
    routes envelopeIn.sender ≠ some i := by
  rw [foreign.lives]
  exact fun same => foreign.other (Option.some.inj same)

omit home in
theorem Aloof.handleWelcome (foreign : envelopeIn.Foreign routes setup i j) :
    Meets (Keeps (Aloof routes setup i)) (gossipHandleWelcome envelopeIn) := by
  intro self aloof
  unfold gossipHandleWelcome
  cases decoded : (messageWelcomeDecode envelopeIn.bufferSize).result envelopeIn.buffer with
  | error code => exact aloof
  | ok found =>
    -- The seed node is remembered, and the hello it answers is gone.
    have entered : Aloof routes setup i { self with state := .connected } :=
      aloof.of_same rfl rfl fun _ waiting => waiting
    have known := entered.remember
      (List.forall_mem_singleton.mpr (foreign.brings.welcome _ _ decoded))
    exact Aloof.acknowledge found.2.helloSequenceNum _ known

theorem Aloof.handleMemberList (foreign : envelopeIn.Foreign routes setup i j) :
    Meets (Keeps (Aloof routes setup i)) (gossipHandleMemberList envelopeIn) := by
  refine Aloof.ifConnected fun self aloof => ?_
  cases decoded : (messageMemberListDecode envelopeIn.bufferSize).result envelopeIn.buffer with
  | error code => exact aloof
  | ok found =>
    -- The members are remembered before the answer is queued.
    have acked := Aloof.ack home (found.2.load envelopeIn.buffer).header.sequenceNum foreign.away _
      (aloof.remember (foreign.brings.memberList _ _ decoded))
    exact acked

theorem Aloof.handleData (foreign : envelopeIn.Foreign routes setup i j) (random : Nat → UInt32) :
    Meets (Keeps (Aloof routes setup i)) (gossipHandleData envelopeIn random) := by
  rw [gossipHandleData_eq]
  refine Aloof.ifConnected ?_
  have chains := keeps_chains (ε := Event) (Aloof routes setup i)
  cases (messageDataDecode envelopeIn.bufferSize).result envelopeIn.buffer with
  | error code => exact meets_pure chains _
  | ok found =>
    refine meets_bind chains (Aloof.ack home found.2.header.sequenceNum foreign.away)
      fun _ acked => ?_
    rw [takeData_run]
    split
    · -- New data is logged and spread, which touches neither members nor queue before it is queued.
      intro aloof
      have adopted : Aloof routes setup i (acked.adopting found.2) :=
        aloof.of_same rfl rfl fun _ waiting => waiting
      have spreads : Meets (Keeps (Aloof routes setup i))
          (gossipEnqueueMessage (.data found.2) [] .random random) :=
        Aloof.sayPlain home rfl (fun direct => by cases direct) random
      exact spreads _ adopted
    · exact chains.rest acked

omit home in
theorem Aloof.handleAck : Meets (Keeps (Aloof routes setup i)) (gossipHandleAck envelopeIn) := by
  refine Aloof.ifConnected fun self aloof => ?_
  cases (messageAckDecode envelopeIn.bufferSize).result envelopeIn.buffer with
  | error code => exact aloof
  | ok found => exact Aloof.acknowledge found.2.ackSequenceNum self aloof

theorem Aloof.handleStatus (foreign : envelopeIn.Foreign routes setup i j) :
    Meets (Keeps (Aloof routes setup i)) (gossipHandleStatus envelopeIn) := by
  rw [gossipHandleStatus_eq]
  refine Aloof.ifConnected ?_
  have chains := keeps_chains (ε := Event) (Aloof routes setup i)
  cases (messageStatusDecode envelopeIn.bufferSize vectorClockInit).result
    envelopeIn.buffer with
  | error code => exact meets_pure chains _
  | ok found =>
    refine meets_bind chains (Aloof.ack home found.2.header.sequenceNum foreign.away) fun _ => ?_
    exact Aloof.answerStatus home found.2 foreign.away

/-! ### Newcomers -/

/-- An aloof node that does not know a newcomer yet. -/
structure Unaware (routes : List UInt8 → Option ι) (setup : ι → NodeSetup) (i : ι)
    (newcomer : ClusterMember) (node : PittacusGossip) : Prop extends
    Aloof routes setup i node where
  unknown : newcomer ∉ node.members.live

omit home in
/-- Queueing a message makes nobody known. -/
theorem Unaware.enqueue {newcomer : ClusterMember} {self : PittacusGossip}
    (unaware : Unaware routes setup i newcomer self) {message : Message} {recipient : List UInt8}
    {spreading : GossipSpreadingType} {random : Nat → UInt32}
    (discreet : ∀ address ∈ spreadingRecipients self recipient spreading random,
      Discreet routes setup i address message) :
    Unaware routes setup i newcomer
      (gossipEnqueueMessage message recipient spreading random self).state := by
  refine ⟨unaware.toAloof.enqueue discreet, ?_⟩
  rw [(gossipEnqueueMessage_same message recipient spreading random self).members]
  exact unaware.unknown

omit home in
/-- Strangers that do not live where the list goes may be listed there. -/
theorem Unaware.memberChunks {newcomer : ClusterMember} {membersNum : Nat}
    (small : membersNum < 2 ^ 16) {recipient : List UInt8} (away : routes recipient ≠ some i)
    (rounds : Nat) (members : List ClusterMember)
    (elsewhere : ∀ member ∈ members, ∃ j, member = (setup j).node.selfAddress ∧
      routes recipient ≠ some j) (result : Int) :
    Meets (Keeps (Unaware routes setup i newcomer))
      (gossipEnqueueMemberChunks membersNum small recipient rounds members result) := by
  have chains := keeps_chains (ε := Event) (Unaware routes setup i newcomer)
  -- Each round lists a prefix of the members, and the next one goes on with the rest.
  induction rounds generalizing members result with
  | zero => exact meets_pure chains _
  | succ rounds ih =>
    cases members with
    | nil => exact meets_pure chains _
    | cons member rest =>
      have bounded : ((member :: rest).take membersNum).length < 2 ^ 16 := by
        rw [List.length_take]
        omega
      rw [gossipEnqueueMemberChunks_cons small recipient rounds member rest result bounded]
      refine meets_bind chains (fun self unaware => ?_) fun sent => ?_
      · refine unaware.enqueue fun address listed => ?_
        rw [List.mem_singleton.mp listed]
        exact ⟨away, fun one inside => elsewhere one (List.mem_of_mem_take inside), nofun⟩
      · refine meets_ite (fun _ => meets_pure chains _) fun _ => ih _ (fun one inside => ?_) _
        exact elsewhere one (List.mem_of_mem_drop inside)

omit home in
/-- A node that is not known yet may be told all members. -/
theorem Unaware.tells {sender : List UInt8} (lives : routes sender = some j)
    (other : j ≠ i) :
    Meets (Keeps (Unaware routes setup i (setup j).node.selfAddress)) (tellMembers sender) := by
  intro self unaware
  have away : routes sender ≠ some i := by
    rw [lives]
    exact fun same => other (Option.some.inj same)
  rw [tellMembers, get_bind_run, ite_run]
  split
  · rw [gossipEnqueueMemberList, get_bind_run, ite_run]
    split
    · exact unaware
    · refine Unaware.memberChunks _ away _ _ (fun member known => ?_) _ self unaware
      -- Whoever is known is not the newcomer.
      obtain ⟨k, -, rfl⟩ := unaware.strangers member known
      refine ⟨k, rfl, fun same => unaware.unknown ?_⟩
      rw [lives] at same
      rw [Option.some.inj same]
      exact known
  · exact unaware

/-- A node that is not known yet may be introduced to all members. -/
theorem Unaware.introduces (other : j ≠ i) {self : PittacusGossip}
    (unaware : Unaware routes setup i (setup j).node.selfAddress self) :
    Aloof routes setup i (introduceNewcomer (setup j).node.selfAddress self).state := by
  rw [introduceNewcomer_state]
  have told : Aloof routes setup i
      (gossipEnqueueMessage (newcomerMessage (setup j).node.selfAddress) [] .broadcast noRandom
        self).state := by
    refine unaware.toAloof.enqueue fun address listed => ?_
    rcases mem_spreadingRecipients listed with ⟨direct, -⟩ | ⟨member, known, rfl⟩
    · cases direct
    · have away := (unaware.strangers member known).away home
      refine ⟨away, fun one listed => ⟨j, List.mem_singleton.mp listed, fun same => ?_⟩, nofun⟩
      -- Only the newcomer lives where the newcomer does.
      obtain ⟨k, -, rfl⟩ := unaware.strangers member known
      have lives : routes (setup k).node.selfAddress.address = some k := home k
      rw [lives] at same
      rw [Option.some.inj same] at known
      exact unaware.unknown known
  exact told.remember (List.forall_mem_singleton.mpr ⟨j, other, rfl⟩)

/-- A hello of a node that is not known yet is handled without telling it about itself. -/
theorem Aloof.handleHello {self : PittacusGossip} (aloof : Aloof routes setup i self)
    (foreign : envelopeIn.Foreign routes setup i j)
    (unknown : ∀ count msg, self.state = .connected →
      (messageHelloDecode envelopeIn.bufferSize).result envelopeIn.buffer = .ok (count, msg) →
        (msg.load envelopeIn.buffer).thisMember ∉ self.members.live) :
    Aloof routes setup i (gossipHandleHello envelopeIn self).state := by
  rw [gossipHandleHello_eq]
  by_cases connected : self.state = .connected
  · rw [returnIfNotConnected, get_bind_run, if_neg (not_not.mpr connected)]
    cases decoded : (messageHelloDecode envelopeIn.bufferSize).result envelopeIn.buffer with
    | error code => exact aloof
    | ok found =>
      have named := foreign.newcomer _ _ decoded
      -- The newcomer is not listed yet when the welcome and the list for it are made.
      have fresh : Unaware routes setup i (setup j).node.selfAddress self :=
        ⟨aloof, named ▸ unknown _ _ connected decoded⟩
      have welcomed : Unaware routes setup i (setup j).node.selfAddress
          (gossipEnqueueWelcome found.2.header.sequenceNum envelopeIn.sender self).state := by
        rw [gossipEnqueueWelcome, get_bind_run]
        refine fresh.enqueue fun address listed => ?_
        rw [List.mem_singleton.mp listed]
        refine discreet_of_own (fun member said => ?_) foreign.away
        rw [List.mem_singleton.mp said]
        exact aloof.own
      have told := Unaware.tells foreign.lives foreign.other _ welcomed
      have introduced := told.introduces home foreign.other
      simp only [bind_run, named]
      exact introduced
  · rw [returnIfNotConnected_apart _ connected]
    exact aloof

/-! ### Calls -/

/-- Whatever another node sends, a node that does not know it yet stays aloof. -/
theorem Aloof.handleNewMessage {self : PittacusGossip} (aloof : Aloof routes setup i self)
    (foreign : envelopeIn.Foreign routes setup i j)
    (unknown : ∀ count msg, self.state = .connected →
      (messageHelloDecode envelopeIn.bufferSize).result envelopeIn.buffer = .ok (count, msg) →
        (msg.load envelopeIn.buffer).thisMember ∉ self.members.live)
    (random : Nat → UInt32) :
    Aloof routes setup i (gossipHandleNewMessage envelopeIn random self).state := by
  unfold gossipHandleNewMessage
  cases (messageTypeDecode envelopeIn.bufferSize).result envelopeIn.buffer with
  | error code => exact aloof
  | ok messageType =>
    -- One branch for each type that the handler knows, in the order of its switch.
    simp only [ite_run]
    split
    · exact aloof.handleHello home foreign unknown
    split
    · exact Aloof.handleWelcome foreign self aloof
    split
    · exact Aloof.handleMemberList home foreign self aloof
    split
    · exact Aloof.handleData home foreign random self aloof
    split
    · exact Aloof.handleAck self aloof
    split
    · exact Aloof.handleStatus home foreign self aloof
    · exact aloof

/-- A node that joins through other nodes stays aloof. -/
theorem Aloof.hellos (seedNodes : List (List UInt8))
    (away : ∀ seed ∈ seedNodes, routes seed ≠ some i) :
    Meets (Keeps (Aloof routes setup i)) (gossipEnqueueHellos seedNodes) := by
  have chains := keeps_chains (ε := Event) (Aloof routes setup i)
  -- The seed nodes are greeted in order, and the node joins after the last of them.
  induction seedNodes with
  | nil => exact fun self aloof => aloof.of_same rfl rfl fun _ waiting => waiting
  | cons seed rest ih =>
    obtain ⟨here, others⟩ := List.forall_mem_cons.mp away
    refine meets_bind chains (Aloof.hello home here) fun greeted => ?_
    exact meets_ite (fun _ => meets_pure chains _) fun _ => ih others

omit home in
/-- A round of sending gives members up, but takes none in. -/
theorem aloof_sending (routes : List UInt8 → Option ι) (setup : ι → NodeSetup) (i : ι) :
    KeepsSending (Aloof routes setup i) fun _ => True where
  drop self front current back aloof whole :=
    aloof.of_same rfl rfl fun envelope kept => by
      rw [whole]
      exact ((List.sublist_cons_self current back).append_left front).subset kept
  forget self address addressSize aloof := by
    obtain ⟨ok, kept⟩ := aloof.ok.removeByAddr self.unset address addressSize
    exact ⟨aloof.own, ok, fun member known => aloof.strangers member (kept member known),
      aloof.discreet⟩
  send self front current back now result aloof whole :=
    ⟨aloof.of_same rfl rfl fun _ waiting => waiting, trivial⟩
  attempt self front current back now aloof whole := by
    refine ⟨aloof.own, aloof.ok, aloof.strangers, fun envelope waiting => ?_⟩
    have discreet := aloof.discreet
    rw [whole] at discreet
    -- An attempt replaces the envelope in its place and keeps recipient and message.
    rcases List.mem_append.mp waiting with early | late
    · exact discreet envelope (List.mem_append_left _ early)
    · rcases List.mem_cons.mp late with rfl | behind
      · exact discreet current (List.mem_append_right _ List.mem_cons_self)
      · exact discreet envelope (List.mem_append_right _ (List.mem_cons_of_mem _ behind))
  remove _ _ := trivial

/-- A call keeps a node aloof, if it joins through others and learns of newcomers only. -/
theorem Aloof.step {self : PittacusGossip} (aloof : Aloof routes setup i self) (input : Input)
    (seeds : ∀ seedNodes ∈ input.seeds, ∀ seed ∈ seedNodes, routes seed ≠ some i)
    (foreign : ∀ datagram sender beyond random,
      input = .processReceive datagram sender beyond random →
        ∃ j, (envelopeOf datagram sender beyond).Foreign routes setup i j)
    (unknown : self.state = .connected → ∀ msg ∈ input.hello, msg.thisMember ∉ self.members.live) :
    Aloof routes setup i (gossipStep input self).state := by
  have chains := keeps_chains (ε := Event) (Aloof routes setup i)
  cases input with
  | join seedNodes =>
    simp only [gossipStep, pittacusGossipJoin, get_bind_run, ite_run]
    split
    · exact aloof
    split
    · exact aloof.of_same rfl rfl fun _ waiting => waiting
    · exact Aloof.hellos home seedNodes (seeds seedNodes rfl) self aloof
  | sendData data random =>
    -- The data is numbered first, which touches neither the members nor the queue.
    refine Aloof.ifConnected (fun self aloof => ?_) self aloof
    rw [gossipEnqueueData_run]
    have spreads : Meets (Keeps (Aloof routes setup i))
        (gossipEnqueueMessage (.data (self.ownMessage data)) [] .random random) :=
      Aloof.sayPlain home rfl (fun direct => by cases direct) random
    exact spreads _ (aloof.of_same rfl rfl fun _ waiting => waiting)
  | tick now random =>
    have announces : Meets (Keeps (Aloof routes setup i)) (gossipEnqueueStatus none random) :=
      Aloof.status home (fun _ none_ => by cases none_) random
    have kept : Meets (Keeps (Aloof routes setup i)) (pittacusGossipTick now random) := by
      refine meets_bind chains (meets_get chains) fun state => ?_
      refine meets_ite (fun _ => meets_pure chains _) fun _ => ?_
      refine meets_ite (fun _ => meets_pure chains _) fun _ => ?_
      refine meets_bind chains announces fun sent => ?_
      refine meets_ite (fun _ => meets_pure chains _) fun _ => ?_
      exact fun self aloof => aloof.of_same rfl rfl fun _ waiting => waiting
    exact kept self aloof
  | processReceive datagram sender beyond random =>
    -- A sender that is another node cannot make this one list itself.
    obtain ⟨j, foreign⟩ := foreign _ _ _ _ rfl
    have handled := aloof.handleNewMessage home foreign (fun count msg connected accepted =>
      unknown connected _ ((helloReceived_some sender).mpr ⟨_, accepted, rfl⟩)) random
    simp only [gossipStep, pittacusGossipProcessReceive, get_bind_run, ite_run]
    split
    · exact aloof
    split
    · exact aloof
    · exact handled
  | processSend times results =>
    exact ((aloof_sending routes setup i).processSend times results self aloof).1

end Handling

end Pittacus
