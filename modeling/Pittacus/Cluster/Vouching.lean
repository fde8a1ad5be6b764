import Pittacus.Cluster.Datagrams
import Pittacus.Knowledge.Delivery
import Pittacus.Ownership.Upkeep

/-! A node that is given only vouched-for data keeps, sends and delivers nothing else. -/

namespace Pittacus

/-! ### What is vouched for -/

/-- The data a message carries is vouched for, as the payload of its version. -/
def Message.Vouched (truth : VectorRecord → List UInt8 → Prop) : Message → Prop
  | .data msg => truth msg.dataVersion msg.data
  | _ => True

/-- A datagram is that of a message in good shape whose data is vouched for. -/
def Genuine (truth : VectorRecord → List UInt8 → Prop) (datagram : List UInt8) : Prop :=
  ∃ message : Message, ∃ sequenceNum, datagram = message.datagram sequenceNum ∧
    message.Typed ∧ message.Fits ∧ message.wire.length ≤ messageMaxSize ∧ message.Vouched truth

/-- An event sends only genuine datagrams, and delivers only data that is vouched for. -/
def Event.Genuine (truth : VectorRecord → List UInt8 → Prop) : Event → Prop
  | .sendTo _ datagram _ _ => Pittacus.Genuine truth datagram
  | .receive version data => truth version data
  | _ => True

/-- Everything a node logged or queued is vouched for. -/
structure PittacusGossip.Vouches (truth : VectorRecord → List UInt8 → Prop)
    (node : PittacusGossip) : Prop where
  log : node.dataLog.Ok
  logged : ∀ record ∈ node.dataLog.live,
    truth record.version (gossipDataLogCreateMessage record).data
  queued : ∀ envelope ∈ node.outboundMessages,
    envelope.message.Typed ∧ envelope.message.Vouched truth

/-- A node in working order whose data is vouched for. -/
structure PittacusGossip.Reliable (truth : VectorRecord → List UInt8 → Prop)
    (node : PittacusGossip) : Prop where
  sound : node.Sound
  fit : node.AddressesFit
  vouches : node.Vouches truth

section Mono

variable {truth wider : VectorRecord → List UInt8 → Prop}
  (implied : ∀ version data, truth version data → wider version data)

include implied

theorem Message.Vouched.mono {message : Message} (vouched : message.Vouched truth) :
    message.Vouched wider := by
  cases message with
  | data msg => exact implied _ _ vouched
  | _ => trivial

/-- What is vouched for goes on being so when more is. -/
theorem Genuine.mono {datagram : List UInt8} (genuine : Genuine truth datagram) :
    Genuine wider datagram := by
  obtain ⟨message, sequenceNum, same, typed, fits, room, vouched⟩ := genuine
  exact ⟨message, sequenceNum, same, typed, fits, room, vouched.mono implied⟩

theorem PittacusGossip.Reliable.mono {node : PittacusGossip} (reliable : node.Reliable truth) :
    node.Reliable wider where
  sound := reliable.sound
  fit := reliable.fit
  vouches :=
    { log := reliable.vouches.log
      logged := fun record used => implied _ _ (reliable.vouches.logged record used)
      queued := fun envelope waiting =>
        ⟨(reliable.vouches.queued envelope waiting).1,
          (reliable.vouches.queued envelope waiting).2.mono implied⟩ }

end Mono

/-- A genuine datagram fills the buffer it is received in with its message. -/
theorem Genuine.fills {truth : VectorRecord → List UInt8 → Prop} {datagram : List UInt8}
    (genuine : Genuine truth datagram) (sender : List UInt8) (beyond : Nat → UInt8) :
    ∃ message : Message, message.Vouched truth ∧
      message.Fills (envelopeOf datagram sender beyond).buffer
        (envelopeOf datagram sender beyond).bufferSize := by
  obtain ⟨message, sequenceNum, rfl, typed, fits, room, vouched⟩ := genuine
  refine ⟨message.renumbered sequenceNum, ?_,
    Message.Fills.of_datagram typed fits room sequenceNum sender beyond⟩
  -- The number is not part of what is vouched for.
  cases message with
  | data msg => exact vouched
  | _ => trivial

/-! ### Routine work -/

/-- From known members with addresses that fit to such members, and from vouched-for data to such. -/
structure Vouching (truth : VectorRecord → List UInt8 → Prop) (before : PittacusGossip)
    (events : List Event) (after : PittacusGossip) : Prop where
  members : before.members.Ok → before.AddressesFit → after.members.Ok ∧ after.AddressesFit
  vouches : before.Vouches truth → after.Vouches truth ∧ ∀ event ∈ events, event.Genuine truth

section Relation

variable {truth : VectorRecord → List UInt8 → Prop}

theorem vouching_chains : Routine.Chains (Vouching truth) where
  rest self :=
    ⟨fun ok fit => ⟨ok, fit⟩,
      fun vouches => ⟨vouches, List.forall_mem_nil _⟩⟩
  join := by
    -- Each stretch starts from what the one before it left.
    intro first middle last early late left right
    refine ⟨fun ok fit => ?_, fun vouches => ?_⟩
    · obtain ⟨middleOk, middleFit⟩ := left.members ok fit
      exact right.members middleOk middleFit
    · obtain ⟨middleVouches, earlyGenuine⟩ := left.vouches vouches
      obtain ⟨lastVouches, lateGenuine⟩ := right.vouches middleVouches
      exact ⟨lastVouches, List.forall_mem_append.mpr ⟨earlyGenuine, lateGenuine⟩⟩

/-- A change that keeps the members, the log and the queue keeps what is vouched for. -/
theorem Vouching.of_same {before after : PittacusGossip}
    (members : after.members = before.members) (log : after.dataLog = before.dataLog)
    (queue : after.outboundMessages = before.outboundMessages) : Vouching truth before [] after where
  members ok fit := by
    rw [PittacusGossip.AddressesFit, members]
    exact ⟨ok, fit⟩
  vouches vouches := by
    refine ⟨⟨?_, ?_, ?_⟩, List.forall_mem_nil _⟩
    · rw [log]
      exact vouches.log
    · rw [log]
      exact vouches.logged
    · rw [queue]
      exact vouches.queued

/-- Queueing a message queues nothing but that message. -/
theorem gossipEnqueueMessage_queue (message : Message) (recipient : List UInt8)
    (spreading : GossipSpreadingType) (random : Nat → UInt32) (self : PittacusGossip) :
    ∀ envelope ∈
      (gossipEnqueueMessage message recipient spreading random self).state.outboundMessages,
      envelope ∈ self.outboundMessages ∨ envelope.message = message := by
  intro envelope waiting
  rcases gossipEnqueueMessage_adds message recipient spreading random self waiting with old | new
  · exact .inl old
  · exact .inr new.1

/-- Queueing a message that is vouched for is passing on what is vouched for. -/
theorem gossipEnqueueMessage_vouching (message : Message) (recipient : List UInt8)
    (spreading : GossipSpreadingType) (random : Nat → UInt32) (self : PittacusGossip)
    (carried : self.Vouches truth → message.Typed ∧ message.Vouched truth) :
    Vouching truth self (gossipEnqueueMessage message recipient spreading random self).events
      (gossipEnqueueMessage message recipient spreading random self).state := by
  have same := gossipEnqueueMessage_same message recipient spreading random self
  have queue := gossipEnqueueMessage_queue message recipient spreading random self
  have events := gossipEnqueueMessage_events message recipient spreading random self
  generalize gossipEnqueueMessage message recipient spreading random self = ran at same queue events
  refine ⟨fun ok fit => ?_, fun vouches => ⟨⟨?_, ?_, ?_⟩, ?_⟩⟩
  · rw [PittacusGossip.AddressesFit, same.members]
    exact ⟨ok, fit⟩
  · rw [same.dataLog]
    exact vouches.log
  · rw [same.dataLog]
    exact vouches.logged
  · intro envelope waiting
    -- An envelope was there before, or it is one of those for the new message.
    rcases queue envelope waiting with old | new
    · exact vouches.queued envelope old
    · rw [new]
      exact carried vouches
  · -- Nothing is sent or delivered yet.
    rw [events, enqueueEvents]
    refine List.forall_mem_append.mpr ⟨fun event removed => ?_, ?_⟩
    · obtain ⟨envelope, -, rfl⟩ := List.mem_map.mp removed
      trivial
    · exact List.forall_mem_singleton.mpr trivial

/-- What a node composes of data that is vouched for is vouched for. -/
theorem PittacusGossip.Composes.vouched {self : PittacusGossip} {message : Message}
    (composes : self.Composes message) (vouches : self.Vouches truth) :
    message.Typed ∧ message.Vouched truth := by
  obtain ⟨typed, made⟩ := composes
  refine ⟨typed, ?_⟩
  -- Of what a node composes, only data has to be vouched for.
  cases message with
  | data msg =>
    obtain ⟨record, used, rfl⟩ := made
    exact vouches.logged record used
  | _ => trivial

/-- Members with addresses that fit may be taken in. -/
theorem rememberMembers_vouching (newMembers : List ClusterMember)
    (short : ∀ member ∈ newMembers, member.address.length ≤ sockaddrStorageSize) :
    Routine.Meets (Vouching truth) (rememberMembers newMembers) := by
  intro self
  refine ⟨fun ok fit => ?_, fun vouches => ?_⟩
  · obtain ⟨put, live⟩ := ok.put newMembers
    refine ⟨put, fun member known => ?_⟩
    -- A member afterwards was one before, or is among the new ones.
    rcases (live member).mp known with old | new
    · exact fit member old
    · exact short member new
  · exact ⟨⟨vouches.log, vouches.logged, vouches.queued⟩,
      List.forall_mem_nil _⟩

/-- The routine work of a node passes on what is vouched for. -/
theorem vouching_duties :
    Duties ⟨fun member => member.address.length ≤ sockaddrStorageSize, fun _ => True,
      fun _ _ => True⟩ (Vouching truth) where
  chains := vouching_chains
  enqueue self message recipient spreading random _ composes _ :=
    gossipEnqueueMessage_vouching message recipient spreading random self composes.vouched
  acknowledge sequenceNum _ self := by
    unfold gossipEnvelopeAcknowledge
    rw [Routine.get_bind_run]
    -- An acknowledgement only takes an envelope out, so what is queued was queued before.
    cases gossipEnvelopeFindBySequenceNum self.outboundMessages sequenceNum with
    | none => exact vouching_chains.rest self
    | some envelope =>
      refine ⟨fun ok fit => ⟨ok, fit⟩, fun vouches => ⟨⟨vouches.log, vouches.logged, ?_⟩, ?_⟩⟩
      · exact fun queued waiting => vouches.queued queued (List.mem_of_mem_eraseP waiting)
      · exact List.forall_mem_singleton.mpr trivial
  remember newMembers short := rememberMembers_vouching newMembers short
  introduce member short :=
    Routine.meets_bind vouching_chains
      (fun self => gossipEnqueueMessage_vouching _ _ _ _ self fun _ => ⟨⟨rfl, rfl⟩, trivial⟩)
      fun _ => rememberMembers_vouching [member] (List.forall_mem_singleton.mpr short)
  aside change unrelated self :=
    have same := unrelated self
    Vouching.of_same same.members same.dataLog same.outboundMessages

/-! ### Data -/

/-- Taking over a message that is vouched for keeps everything vouched for. -/
theorem adopting_vouching (self : PittacusGossip) (msg : MessageData) (receiving : Bool)
    (known : truth msg.dataVersion msg.data) :
    Vouching truth self (adoptionEvents receiving msg) (self.adopting msg) := by
  refine ⟨fun ok fit => ⟨ok, fit⟩, fun vouches => ⟨⟨vouches.log.log msg, ?_, vouches.queued⟩, ?_⟩⟩
  · intro record used
    rcases vouches.log.mem_live_log used with ⟨slot, rfl⟩ | old
    · rw [logged_data]
      exact known
    · exact vouches.logged record old
  · -- The message is logged, and delivered if somebody asked for it.
    refine List.forall_mem_cons.mpr ⟨trivial, ?_⟩
    cases receiving with
    | false => exact List.forall_mem_nil _
    | true => exact List.forall_mem_singleton.mpr known

/-- Handling a data message that is vouched for is passing on what is vouched for. -/
theorem gossipHandleData_vouching (envelopeIn : MessageEnvelopeIn) (random : Nat → UInt32)
    (known : ∀ count msg,
      (messageDataDecode envelopeIn.bufferSize).result envelopeIn.buffer = .ok (count, msg) →
        (Message.data msg).Typed ∧ truth msg.dataVersion msg.data) :
    Routine.Meets (Vouching truth) (gossipHandleData envelopeIn random) := by
  rw [gossipHandleData_eq]
  apply vouching_duties.ifConnected
  cases decoded : (messageDataDecode envelopeIn.bufferSize).result envelopeIn.buffer with
  | error code => exact Routine.meets_pure vouching_chains _
  | ok found =>
    obtain ⟨typed, true_⟩ := known _ _ decoded
    refine Routine.meets_bind vouching_chains (vouching_duties.enqueueAck trivial) fun _ self => ?_
    rw [takeData_run]
    -- What is vouched for on arrival is vouched for in the log and on the way on.
    split
    · exact vouching_chains.join (adopting_vouching self found.2 _ true_)
        (gossipEnqueueMessage_vouching _ [] .random random _ fun _ => ⟨typed, true_⟩)
    · exact vouching_chains.rest self

/-- Sending a payload that the node vouches for is passing on what is vouched for. -/
theorem gossipEnqueueData_vouching (data : List UInt8) (random : Nat → UInt32)
    (self : PittacusGossip)
    (own : truth (self.ownMessage data).dataVersion (self.ownMessage data).data) :
    Vouching truth self (gossipEnqueueData data random self).events
      (gossipEnqueueData data random self).state := by
  have counted : Vouching truth self [] { self with dataCounter := self.dataCounter + 1 } :=
    Vouching.of_same rfl rfl rfl
  -- The payload is logged like a received one, but not delivered to the node itself.
  have adopted := adopting_vouching { self with dataCounter := self.dataCounter + 1 }
    (self.ownMessage data) false own
  have silent : Vouching truth { self with dataCounter := self.dataCounter + 1 } []
      (({ self with dataCounter := self.dataCounter + 1 } : PittacusGossip).adopting
        (self.ownMessage data)) :=
    ⟨adopted.members, fun vouches => ⟨(adopted.vouches vouches).1,
      List.forall_mem_nil _⟩⟩
  rw [gossipEnqueueData_run]
  exact vouching_chains.join (vouching_chains.join counted silent)
    (gossipEnqueueMessage_vouching _ [] .random random _ fun _ => ⟨⟨rfl, rfl⟩, own⟩)

end Relation

/-! ### Sending -/

/-- A round of sending keeps a node reliable, and sends genuine datagrams. -/
theorem reliable_sending (truth : VectorRecord → List UInt8 → Prop) :
    KeepsSending (PittacusGossip.Reliable truth) (Event.Genuine truth) where
  drop self front current back reliable whole :=
    { sound := sound_sending.drop self front current back reliable.sound whole
      fit := reliable.fit
      vouches :=
        { log := reliable.vouches.log
          logged := reliable.vouches.logged
          queued := fun envelope kept => reliable.vouches.queued envelope (by
            rw [whole]
            exact ((List.sublist_cons_self current back).append_left front).subset kept) } }
  forget self address addressSize reliable :=
    { sound := sound_sending.forget self address addressSize reliable.sound
      fit := fun member known => reliable.fit member
        ((reliable.sound.members.removeByAddr self.unset address addressSize).2 member known)
      vouches := ⟨reliable.vouches.log, reliable.vouches.logged, reliable.vouches.queued⟩ }
  send self front current back now result reliable whole := by
    have waiting : current ∈ self.outboundMessages := by
      rw [whole]
      exact List.mem_append_right front List.mem_cons_self
    have stored := reliable.sound.owns.stored current waiting
    obtain ⟨typed, vouched⟩ := reliable.vouches.queued current waiting
    refine ⟨⟨(sound_sending.send self front current back now result reliable.sound whole).1,
      reliable.fit, reliable.vouches.log, reliable.vouches.logged, reliable.vouches.queued⟩, ?_⟩
    -- What lies in the slot is the message, and the number is patched in.
    exact ⟨current.message, current.sequenceNum, stored.sent, typed, stored.fits, stored.short,
      vouched⟩
  attempt self front current back now reliable whole :=
    { sound := sound_sending.attempt self front current back now reliable.sound whole
      fit := reliable.fit
      vouches :=
        { log := reliable.vouches.log
          logged := reliable.vouches.logged
          queued := fun envelope kept => by
            -- Counting an attempt does not touch the message.
            have before := reliable.vouches.queued
            rw [whole] at before
            rcases List.mem_append.mp kept with early | late
            · exact before envelope (List.mem_append_left _ early)
            · rcases List.mem_cons.mp late with rfl | behind
              · exact before current (List.mem_append_right _ List.mem_cons_self)
              · exact before envelope
                  (List.mem_append_right _ (List.mem_cons_of_mem _ behind)) } }
  remove _ _ := trivial

/-! ### Calls -/

/-- A step of a reliable node that is given genuine datagrams keeps what is vouched for. -/
theorem gossipStep_vouching {truth : VectorRecord → List UInt8 → Prop} (input : Input)
    (self : PittacusGossip) (reliable : self.Reliable truth)
    (arrives : ∀ datagram ∈ input.datagram, Genuine truth datagram)
    (own : ∀ data ∈ (self.news input).payload,
      truth (self.ownMessage data).dataVersion (self.ownMessage data).data) :
    (gossipStep input self).state.AddressesFit ∧ (gossipStep input self).state.Vouches truth ∧
      ∀ event ∈ (gossipStep input self).events, event.Genuine truth := by
  -- All calls but a round of sending stand in the relation.
  have related : ∀ {events : List Event} {after : PittacusGossip},
      Vouching truth self events after →
        after.AddressesFit ∧ after.Vouches truth ∧ ∀ event ∈ events, event.Genuine truth := by
    intro events after vouching
    obtain ⟨vouches, genuine⟩ := vouching.vouches reliable.vouches
    exact ⟨(vouching.members reliable.sound.members reliable.fit).2, vouches, genuine⟩
  cases input with
  | join seedNodes => exact related (vouching_duties.join (fun _ _ _ => trivial) self)
  | tick now random => exact related (vouching_duties.tick now random self)
  | sendData data random =>
    simp only [gossipStep, pittacusGossipSendData, returnIfNotConnected, Routine.get_bind_run]
    by_cases connected : self.state = .connected
    · have news : self.news (.sendData data random) = .sent data := if_pos connected
      rw [if_neg (not_not.mpr connected)]
      exact related (gossipEnqueueData_vouching data random self (own data (by rw [news]; rfl)))
    · rw [if_pos connected]
      exact related (vouching_chains.rest self)
  | processReceive datagram sender beyond random =>
    obtain ⟨message, vouched, fills⟩ := (arrives datagram rfl).fills sender beyond
    have members := fills.brings
    -- The members come with the message, so their addresses fit.
    have brings : (envelopeOf datagram sender beyond).Brings fun member =>
        member.address.length ≤ sockaddrStorageSize :=
      { hello := fun count msg accepted => fills.fits.1 _ (members.hello count msg accepted)
        welcome := fun count msg accepted => fills.fits.1 _ (members.welcome count msg accepted)
        memberList := fun count msg accepted member listed =>
          fills.fits.1 member (members.memberList count msg accepted member listed) }
    have handled := vouching_duties.handleNewMessage (envelopeOf datagram sender beyond)
      brings.within random fun _ => gossipHandleData_vouching _ random fun count msg accepted => by
        have same := fills.data accepted
        exact ⟨same ▸ fills.typed, by rw [same] at vouched; exact vouched⟩
    exact related (pittacusGossipProcessReceive_meets vouching_chains datagram sender beyond random
      handled self)
  | processSend times results =>
    obtain ⟨ended, genuine⟩ :=
      (reliable_sending truth).processSend times results self reliable
    exact ⟨ended.fit, ended.vouches, genuine⟩

/-- A step of a reliable node leaves it reliable, as long as no slot is taken from anybody. -/
theorem gossipStep_reliable {truth : VectorRecord → List UInt8 → Prop} (input : Input)
    (self : PittacusGossip) (reliable : self.Reliable truth)
    (arrives : ∀ datagram ∈ input.datagram, Genuine truth datagram)
    (own : ∀ data ∈ (self.news input).payload,
      truth (self.ownMessage data).dataVersion (self.ownMessage data).data)
    (spares : ∀ event ∈ (gossipStep input self).events, event.Spares) :
    (gossipStep input self).state.Reliable truth ∧
      ∀ event ∈ (gossipStep input self).events, event.Genuine truth := by
  -- What is vouched for is kept in any case; the working order needs the spared slots.
  obtain ⟨fit, vouches, genuine⟩ := gossipStep_vouching input self reliable arrives own
  exact ⟨⟨(gossipStep_sound input self reliable.sound fit spares).1, fit, vouches⟩, genuine⟩

end Pittacus
