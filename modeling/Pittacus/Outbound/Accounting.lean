import Pittacus.Outbound.Departures
import Pittacus.Ownership.Runs
import Pittacus.Receiving.Accepted

/-! No message is lost silently: every envelope that leaves the outbound queue left for a reason. -/

namespace Pittacus

open Routine

/-! ### Numbers -/

/-- How many envelopes a call queues: as many as are there and were taken out, beyond those before. -/
def PittacusGossip.enqueues (node : PittacusGossip) (input : Input) : Nat :=
  (gossipStep input node).state.outboundMessages.length +
    ((gossipStep input node).events.filterMap Event.removed).length - node.outboundMessages.length

/-- The queue is numbered in order, and each envelope has the attempts of its message. -/
structure PittacusGossip.Ordered (node : PittacusGossip) : Prop where
  numbers : Climbs 0 node.sequenceNum.toNat (node.outboundMessages.map MessageEnvelopeOut.number)
  attempts : ∀ envelope ∈ node.outboundMessages,
    envelope.maxAttempts = messageMaxAttempts envelope.message

/-- Every message is to be sent at least once. -/
theorem one_le_messageMaxAttempts (message : Message) : 1 ≤ messageMaxAttempts message := by
  cases message <;> simp [messageMaxAttempts, messageRetryAttempts]

/-- So is every envelope of an ordered queue. -/
theorem PittacusGossip.Ordered.tries {node : PittacusGossip} (ordered : node.Ordered) :
    ∀ envelope ∈ node.outboundMessages, 1 ≤ envelope.maxAttempts := by
  intro envelope waiting
  rw [ordered.attempts envelope waiting]
  exact one_le_messageMaxAttempts _

/-- The numbers of a queue do not depend on the attempts made. -/
theorem pending_numbers (node : PittacusGossip) :
    node.pending.map MessageEnvelopeOut.number
      = node.outboundMessages.map MessageEnvelopeOut.number :=
  List.map_map

/-- A passage queues as many envelopes as are counted for the call. -/
theorem Passage.added_eq {scope : Scope} {kept fresh : List MessageEnvelopeOut} {added : Nat}
    {self : PittacusGossip} {input : Input}
    (passage : Passage scope kept fresh added self (gossipStep input self).events
      (gossipStep input self).state) : added = self.enqueues input := by
  have balance := passage.balance
  rw [PittacusGossip.enqueues]
  omega

/-- As long as the numbers do not start over, a passage keeps the queue in order. -/
theorem Passage.ordered {scope : Scope} {kept fresh : List MessageEnvelopeOut} {added : Nat}
    {before after : PittacusGossip} {events : List Event}
    (passage : Passage scope kept fresh added before events after) (ordered : before.Ordered)
    (room : before.sequenceNum.toNat + added < 2 ^ 32) :
    after.Ordered ∧ after.sequenceNum.toNat = before.sequenceNum.toNat + added := by
  have counted := counted_up passage.counter room
  refine ⟨⟨?_, fun envelope waiting => ?_⟩, counted⟩
  · -- Those that are kept were in order before, and those that are new have larger numbers.
    have old := ordered.numbers
    rw [← pending_numbers] at old
    rw [← pending_numbers, passage.queue, List.map_append, counted]
    exact (old.sublist (passage.kept.map _)).append (passage.numbers room) (Nat.zero_le _)
      (Nat.le_add_right _ _)
  · have listed : envelope.untried ∈ kept ++ fresh := by
      rw [← passage.queue]
      exact List.mem_map_of_mem waiting
    rcases List.mem_append.mp listed with old | new
    · obtain ⟨queued, waited, same⟩ := List.mem_map.mp (passage.kept.subset old)
      have attempts := ordered.attempts queued waited
      obtain ⟨-, -, attempts_, message⟩ := MessageEnvelopeOut.untried_eq same
      rw [← attempts_, attempts, message]
    · exact (passage.made _ new).attempts

/-! ### Acknowledgements -/

/-- The sequence number a call acknowledges: that of an ack, or that a welcome answers. -/
def PittacusGossip.acknowledges (node : PittacusGossip) : Input → Option UInt32
  | .processReceive datagram _ beyond _ =>
    match ackReceived datagram beyond with
    | some msg => if node.state = .connected then some msg.ackSequenceNum else none
    | none =>
      if node.exchanges then
        (welcomeReceived datagram beyond).map fun msg => msg.helloSequenceNum
      else none
  | _ => none

/-- A datagram that is accepted as an acknowledgement is not accepted as a welcome. -/
theorem not_welcome_of_ack {envelopeIn : MessageEnvelopeIn} {acked : Nat × MessageAck}
    {welcomed : Nat × MessageWelcome ClusterMemberRef}
    (ack : (messageAckDecode envelopeIn.bufferSize).result envelopeIn.buffer = .ok acked)
    (welcome : (messageWelcomeDecode envelopeIn.bufferSize).result envelopeIn.buffer
      = .ok welcomed) : False := by
  -- Each of them announces its own type.
  have one := (announces_of_accepted ack).1.2.1
  have other := (announces_of_accepted welcome).1.2.1
  rw [one] at other
  exact absurd other (by decide)

/-- The scope of a call that is only asked what it acknowledges. -/
def acknowledgedScope (node : PittacusGossip) (input : Input) : Scope :=
  ⟨fun _ => True, fun sequenceNum => node.acknowledges input = some sequenceNum, fun _ _ => True⟩

/-- A call is within the scope of what it acknowledges, unless it is an ack to a joining node. -/
theorem within_acknowledged {self : PittacusGossip} {input : Input}
    (exchanges : self.exchanges = true)
    (heard : ∀ datagram sender beyond random, input = .processReceive datagram sender beyond random →
      ackReceived datagram beyond ≠ none → self.state = .connected) :
    input.Within (acknowledgedScope self input) := by
  cases input with
  | processReceive datagram sender beyond random =>
    refine ⟨⟨fun _ _ _ => trivial, fun _ _ _ => trivial, fun _ _ _ _ _ => trivial⟩, ⟨?_, ?_⟩,
      ⟨fun _ _ _ _ => trivial, fun _ _ _ => trivial, fun _ _ _ => trivial, fun _ _ _ => trivial,
        fun _ => trivial, fun _ => trivial, fun _ => trivial⟩⟩
    · intro count msg accepted
      have received : welcomeReceived datagram beyond =
          some (msg.load (envelopeOf datagram sender beyond).buffer) :=
        (welcomeReceived_some sender).mpr ⟨_, accepted, rfl⟩
      -- A datagram of one type is not read as the other, so the welcome is no ack.
      have silent : ackReceived datagram beyond = none := by
        cases acked : ackReceived datagram beyond with
        | none => rfl
        | some msg_ =>
          obtain ⟨count_, ack⟩ := (ackReceived_some sender).mp acked
          exact (not_welcome_of_ack ack accepted).elim
      simp only [acknowledgedScope, PittacusGossip.acknowledges, silent, exchanges, received]
      rfl
    · intro count msg accepted
      have received : ackReceived datagram beyond = some msg :=
        (ackReceived_some sender).mpr ⟨count, accepted⟩
      have connected := heard _ _ _ _ rfl (by rw [received]; simp)
      simp only [acknowledgedScope, PittacusGossip.acknowledges, received, if_pos connected]
  | join seedNodes => exact fun _ _ _ => trivial
  | sendData data random => trivial
  | tick now random => trivial
  | processSend times results => trivial

/-- A node that is not connected does not take notice of an acknowledgement. -/
theorem ack_ignored {self : PittacusGossip} (exchanges : self.exchanges = true)
    (apart : self.state ≠ .connected) {datagram : List UInt8} {beyond : Nat → UInt8}
    (received : ackReceived datagram beyond ≠ none) (sender : List UInt8) (random : Nat → UInt32) :
    (gossipStep (.processReceive datagram sender beyond random) self).state = self := by
  obtain ⟨msg, acked⟩ := Option.ne_none_iff_exists'.mp received
  obtain ⟨count, accepted⟩ := (ackReceived_some sender).mp acked
  -- The datagram is not empty and names the type, so it gets as far as the handler.
  have some_ := received_of_announced (announces_of_accepted accepted).1
  rw [processReceive_exchanges exchanges some_, gossipHandleNewMessage_ack _ accepted,
    gossipHandleAck, returnIfNotConnected, get_bind_run, if_pos apart]
  rfl

/-- A node that neither joins nor is connected receives nothing. -/
theorem deaf_receive {self : PittacusGossip} (deaf : self.exchanges = false)
    (datagram sender : List UInt8) (beyond : Nat → UInt8) (random : Nat → UInt32) :
    (gossipStep (.processReceive datagram sender beyond random) self).state = self := by
  rw [gossipStep, pittacusGossipProcessReceive, get_bind_run, if_pos (by rw [deaf]; rfl)]
  rfl

/-! ### One call -/

/-- Why an envelope that was queued before a call is not queued any more after it. -/
inductive Departure (self : PittacusGossip) (input : Input) (envelope : MessageEnvelopeOut) : Prop
  /-- An acknowledgement, or a welcome, that names it was handled. -/
  | acknowledged : self.acknowledges input = some envelope.sequenceNum →
    Departure self input envelope
  /-- It was to be sent only once, and was just sent. -/
  | sentOnce : input.Sends → SentOnce (gossipStep input self).events envelope →
    Departure self input envelope
  /-- All its attempts were used up. -/
  | exhausted : input.Sends → envelope.Exhausted → Departure self input envelope
  /-- It stood in the unbroken run behind an exhausted envelope for its recipient. -/
  | behind : input.Sends → BehindExhausted self.unset self.outboundMessages envelope →
    Departure self input envelope
  /-- All slots were occupied, and its own one was reused. -/
  | reclaimed : Reclaimed (gossipStep input self).events envelope → Departure self input envelope

/-- What a call may do to the outbound queue. -/
structure Accounted (self : PittacusGossip) (input : Input) : Prop where
  /-- The numbers of the queue are strictly increasing from head to tail. -/
  increasing : ((gossipStep input self).state.outboundMessages.map
    MessageEnvelopeOut.number).Pairwise (· < ·)
  /-- What stays keeps its order and everything but its attempts; what is new has new numbers. -/
  stays : ∃ kept fresh, (gossipStep input self).state.pending = kept ++ fresh ∧
    kept.Sublist self.pending ∧ ∀ new ∈ fresh, ∀ old ∈ self.pending, old.number < new.number
  /-- What is gone left for a reason. -/
  departs : ∀ envelope ∈ self.outboundMessages,
    (∀ left ∈ (gossipStep input self).state.outboundMessages, left.number ≠ envelope.number) →
      Departure self input envelope
  /-- At most one envelope is acknowledged by a call. -/
  single : ∀ first ∈ self.outboundMessages, ∀ second ∈ self.outboundMessages,
    self.acknowledges input = some first.sequenceNum →
      self.acknowledges input = some second.sequenceNum → first = second
  /-- As long as some slot is not occupied, nothing makes room. -/
  spared : ∀ found slot left message spreading,
    .enqueue found slot left message spreading ∈ (gossipStep input self).events →
      (∃ i < maxOutputMessages, bufferIsOccupied found i = false) → left = found

/-- Whatever leaves the queue in a call that sends nothing was acknowledged, or had to make room. -/
theorem handled_departs (self : PittacusGossip) {input : Input} (handles : ¬input.Sends)
    {envelope : MessageEnvelopeOut} (waiting : envelope ∈ self.outboundMessages) :
    envelope ∈ (gossipStep input self).state.outboundMessages ∨
      self.acknowledges input = some envelope.sequenceNum ∨
      Reclaimed (gossipStep input self).events envelope := by
  have tended : input.Within (acknowledgedScope self input) →
      envelope ∈ (gossipStep input self).state.outboundMessages ∨
        self.acknowledges input = some envelope.sequenceNum ∨
        Reclaimed (gossipStep input self).events envelope :=
    fun within => (gossipStep_tends within handles self).departs envelope waiting
  cases input with
  | processReceive datagram sender beyond random =>
    cases exchanges : self.exchanges with
    | false =>
      rw [deaf_receive exchanges datagram sender beyond random]
      exact .inl waiting
    | true =>
      -- An ack is not looked at before the node is connected.
      by_cases heard : ackReceived datagram beyond ≠ none ∧ self.state ≠ .connected
      · rw [ack_ignored exchanges heard.2 heard.1 sender random]
        exact .inl waiting
      · refine tended (within_acknowledged exchanges ?_)
        rintro _ _ _ _ ⟨⟩ received
        exact not_not.mp fun apart => heard ⟨received, apart⟩
  | join seedNodes => exact tended fun _ _ _ => trivial
  | sendData data random => exact tended trivial
  | tick now random => exact tended trivial
  | processSend times results => exact absurd trivial handles

/-- What leaves the queue in a call leaves it for a reason. -/
theorem Ordered.departs {self : PittacusGossip} (ordered : self.Ordered) (input : Input)
    {envelope : MessageEnvelopeOut} (waiting : envelope ∈ self.outboundMessages)
    (gone : ∀ left ∈ (gossipStep input self).state.outboundMessages,
      left.number ≠ envelope.number) : Departure self input envelope := by
  -- A round of sending drops envelopes for its own reasons; other calls for two more.
  by_cases sends : input.Sends
  · cases input with
    | processSend times results =>
      obtain ⟨-, departs⟩ := processSend_departs Scope.any times results self ordered.tries
      rcases departs envelope waiting with stays | dropped
      · obtain ⟨left, still, same⟩ := List.mem_map.mp stays
        exact absurd (MessageEnvelopeOut.untried_eq same).2.1 (gone left still)
      · cases dropped with
        | sentOnce sent => exact .sentOnce trivial sent
        | exhausted tried => exact .exhausted trivial tried
        | behind stands => exact .behind trivial stands
        | continued last run back none_ => cases none_
    | _ => exact sends.elim
  · rcases handled_departs self sends waiting with stays | named | reclaimed
    · exact absurd rfl (gone envelope stays)
    · exact .acknowledged named
    · exact .reclaimed reclaimed

/-- A call keeps the queue in order, and counts what it queues. -/
theorem PittacusGossip.Ordered.step {self : PittacusGossip} (ordered : self.Ordered)
    (input : Input) (room : self.sequenceNum.toNat + self.enqueues input < 2 ^ 32) :
    (gossipStep input self).state.Ordered ∧
      (gossipStep input self).state.sequenceNum.toNat
        = self.sequenceNum.toNat + self.enqueues input := by
  obtain ⟨kept, fresh, added, passage⟩ :=
    gossipStep_passes (Input.within_any input) self ordered.tries
  rw [← passage.added_eq] at room ⊢
  exact passage.ordered ordered room

/-- A call accounts for what it does to a queue in order. -/
theorem PittacusGossip.Ordered.accounted {self : PittacusGossip} (ordered : self.Ordered)
    (input : Input) (room : self.sequenceNum.toNat + self.enqueues input < 2 ^ 32) :
    Accounted self input where
  increasing := (ordered.step input room).1.numbers.increasing
  stays := by
    obtain ⟨kept, fresh, added, passage⟩ :=
      gossipStep_passes (Input.within_any input) self ordered.tries
    rw [← passage.added_eq] at room
    refine ⟨kept, fresh, passage.queue, passage.kept, fun new joined old waited => ?_⟩
    -- The old numbers end where the new ones begin.
    have numbers := ordered.numbers
    rw [← pending_numbers] at numbers
    exact Nat.lt_of_le_of_lt (numbers.below _ (List.mem_map_of_mem waited))
      ((passage.numbers room).above _ (List.mem_map_of_mem joined))
  departs _ waiting gone := Ordered.departs ordered input waiting gone
  single first waiting second waiting_ named named_ := by
    have same : first.sequenceNum = second.sequenceNum := by
      rw [named] at named_
      exact Option.some.inj named_
    exact ordered.numbers.inj waiting waiting_ (congrArg UInt32.toNat same)
  spared found slot left message spreading caused free := by
    obtain ⟨-, left_⟩ := gossipStep_placed input self _ caused
    rw [left_, placement_of_free free]

/-- A new node has an empty queue, in order. -/
theorem NodeSetup.ordered (setup : NodeSetup) : setup.node.Ordered :=
  ⟨.nil _ _, List.forall_mem_nil _⟩

/-! ### Runs -/

/--
In every run with fewer than 2^32 envelopes, every call accounts for what becomes of each of them.

What is no longer queued was acknowledged, sent for the only time, given up, or had to make room.
-/
theorem no_silent_loss (setup : NodeSetup) (inputs : List Input)
    (few : Machine.total gossipStep PittacusGossip.enqueues inputs setup.node < 2 ^ 32) :
    Machine.Along gossipStep Accounted inputs setup.node := by
  have start : setup.node.sequenceNum.toNat
      + Machine.total gossipStep PittacusGossip.enqueues inputs setup.node < 2 ^ 32 := by
    have zero : setup.node.sequenceNum.toNat = 0 := rfl
    omega
  -- Numbers stay distinct while fewer were given than the counter can count.
  have counts : ∀ (self : PittacusGossip) input, self.Ordered →
      self.sequenceNum.toNat + self.enqueues input < 2 ^ 32 →
        (gossipStep input self).state.Ordered ∧
          (gossipStep input self).state.sequenceNum.toNat
            = self.sequenceNum.toNat + self.enqueues input :=
    fun self input ordered room => ordered.step input room
  have roomy := Machine.along_budget counts setup.ordered start
  exact roomy.imp fun self input holds => holds.1.accounted input holds.2

/-- One of two members acknowledges a payload. -/
def acknowledging : List Input :=
  twoMembers ++ [(Message.ack ⟨messageHeaderInit messageAckType 1, 2⟩).arrivesFrom 2]

/-- What the one acknowledged leaves the queue, and what the other one did not stays. -/
theorem no_silent_loss_two :
    (Machine.run gossipStep acknowledging (localSetup 1).node).outboundMessages.map
        (fun envelope => (envelope.recipient, envelope.sequenceNum)) = [(loopback 3, 3)] ∧
      Machine.Along gossipStep Accounted acknowledging (localSetup 1).node :=
  ⟨by decide +kernel, no_silent_loss (localSetup 1) acknowledging (by decide +kernel)⟩

end Pittacus
