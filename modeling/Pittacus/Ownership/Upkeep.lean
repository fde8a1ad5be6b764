import Pittacus.Ownership.Buffers
import Pittacus.Proofs.Calls
import Pittacus.Proofs.Members

/-! Every call keeps the slots of the output buffer in their owners' hands. -/

namespace Pittacus

/-- Every known member has an address that fits the structure for addresses. -/
def PittacusGossip.AddressesFit (node : PittacusGossip) : Prop :=
  ∀ member ∈ node.members.live, member.address.length ≤ sockaddrStorageSize

instance (node : PittacusGossip) : Decidable node.AddressesFit :=
  inferInstanceAs (Decidable (∀ member ∈ node.members.live, _))

/-- A node in working order: its queue owns its slots, and what it makes messages of is sound. -/
structure PittacusGossip.Sound (node : PittacusGossip) : Prop where
  owns : node.Owns
  members : node.members.Ok
  clock : node.dataVersion.Ok
  addressed : node.selfAddress.address.length ≤ sockaddrStorageSize

/-- An event that queues a message finds a queue whose reclaimed slot is taken from nobody. -/
def Event.Spares : Event → Prop
  | .enqueue found _ _ _ _ => Pittacus.Spares found
  | _ => True

/-- An event that queues a message reports the placement of the queue it finds. -/
def Event.Placed : Event → Prop
  | .enqueue found slot left _ _ => slot = (placement found).1 ∧ left = (placement found).2.1
  | _ => True

/-- Where a slot that is placed is free, placing it took nothing from anybody. -/
theorem Event.spares_of_owned {event : Event} (placed : event.Placed) (owned : event.Owned) :
    event.Spares := by
  cases event with
  | enqueue found slot left message spreading =>
    obtain ⟨rfl, rfl⟩ := placed
    exact spares_of_placement owned.1
  | _ => trivial

/--
Members once known stay known, and a node in working order stays so.

This asks for the addresses it ends up with to fit, and for no slot to be taken from anybody.
-/
structure Upkeep (before : PittacusGossip) (events : List Event) (after : PittacusGossip) :
    Prop where
  members : before.members.Ok →
    after.members.Ok ∧ ∀ member ∈ before.members.live, member ∈ after.members.live
  sound : before.Sound → after.AddressesFit → (∀ event ∈ events, event.Spares) →
    after.Sound ∧ ∀ event ∈ events, event.Owned
  placed : ∀ event ∈ events, event.Placed

theorem upkeep_chains : Routine.Chains Upkeep where
  rest self :=
    ⟨fun ok => ⟨ok, fun _ member => member⟩,
      fun sound _ _ => ⟨sound, List.forall_mem_nil _⟩,
      List.forall_mem_nil _⟩
  join := by
    -- Whoever is known in the middle is known at the end, so the addresses fit there as well.
    intro first middle last early late left right
    refine ⟨fun ok => ?_, fun sound fit spares => ?_,
      List.forall_mem_append.mpr ⟨left.placed, right.placed⟩⟩
    · obtain ⟨middleOk, kept⟩ := left.members ok
      obtain ⟨lastOk, kept_⟩ := right.members middleOk
      exact ⟨lastOk, fun member known => kept_ member (kept member known)⟩
    · obtain ⟨middleOk, -⟩ := left.members sound.members
      have middleFit : middle.AddressesFit :=
        fun member known => fit member ((right.members middleOk).2 member known)
      obtain ⟨middleSound, earlyOwned⟩ := left.sound sound middleFit
        fun event member => spares event (List.mem_append_left _ member)
      obtain ⟨lastSound, lateOwned⟩ := right.sound middleSound fit
        fun event member => spares event (List.mem_append_right _ member)
      exact ⟨lastSound, List.forall_mem_append.mpr ⟨earlyOwned, lateOwned⟩⟩

/-! ### Queueing -/

/-- Whatever a node in working order composes fits. -/
theorem PittacusGossip.Composes.fits {self : PittacusGossip} {message : Message}
    (composes : self.Composes message) (sound : self.Sound) (fit : self.AddressesFit) :
    message.Fits := by
  obtain ⟨-, made⟩ := composes
  -- A node puts its own address, members or clock into what it composes.
  cases message with
  | hello msg =>
    refine ⟨List.forall_mem_singleton.mpr ?_, trivial⟩
    rw [made]
    exact sound.addressed
  | welcome msg =>
    refine ⟨List.forall_mem_singleton.mpr ?_, trivial⟩
    rw [made]
    exact sound.addressed
  | memberList msg => exact ⟨fun member listed => fit member (made member listed), trivial⟩
  | ack msg => exact ⟨fun member none_ => absurd none_ List.not_mem_nil, trivial⟩
  | data msg => exact ⟨fun member none_ => absurd none_ List.not_mem_nil, trivial⟩
  | status msg =>
    refine ⟨fun member none_ => absurd none_ List.not_mem_nil, ?_⟩
    have clock : msg.dataVersion.Fits := by
      rw [made]
      exact sound.clock.copy_fits
    exact clock

/-- Queueing a message reports its placement. -/
theorem gossipEnqueueMessage_placed (message : Message) (recipient : List UInt8)
    (spreading : GossipSpreadingType) (random : Nat → UInt32) (self : PittacusGossip) :
    ∀ event ∈ (gossipEnqueueMessage message recipient spreading random self).events,
      event.Placed := by
  rw [gossipEnqueueMessage_events, enqueueEvents]
  refine List.forall_mem_append.mpr ⟨fun event removed => ?_, ?_⟩
  · obtain ⟨envelope, -, rfl⟩ := List.mem_map.mp removed
    trivial
  · exact List.forall_mem_singleton.mpr ⟨rfl, rfl⟩

/-- Queueing a message that fits is upkeep. -/
theorem gossipEnqueueMessage_upkeep (message : Message) (recipient : List UInt8)
    (spreading : GossipSpreadingType) (random : Nat → UInt32) (self : PittacusGossip)
    (fits : self.Sound → self.AddressesFit → message.Fits) :
    Upkeep self (gossipEnqueueMessage message recipient spreading random self).events
      (gossipEnqueueMessage message recipient spreading random self).state := by
  have same := gossipEnqueueMessage_same message recipient spreading random self
  refine ⟨fun ok => ?_, fun sound fit spares => ?_, ?_⟩
  · rw [same.members]
    exact ⟨ok, fun _ member => member⟩
  · have fit_ : self.AddressesFit := by
      unfold PittacusGossip.AddressesFit at fit
      rw [same.members] at fit
      exact fit
    -- Reclaiming shows in the events, so they tell whether a slot was taken.
    have spared : Spares self.outboundMessages := by
      rw [gossipEnqueueMessage_events, enqueueEvents] at spares
      exact spares _ (List.mem_append_right _ List.mem_cons_self)
    obtain ⟨owns, owned⟩ :=
      sound.owns.enqueue (fits sound fit_) spared recipient spreading random
    refine ⟨⟨owns, ?_, ?_, ?_⟩, owned⟩
    · rw [same.members]
      exact sound.members
    · rw [same.dataVersion]
      exact sound.clock
    · rw [same.selfAddress]
      exact sound.addressed
  · exact gossipEnqueueMessage_placed message recipient spreading random self

/-- Taking members in is upkeep. -/
theorem rememberMembers_upkeep (newMembers : List ClusterMember) :
    Routine.Meets Upkeep (rememberMembers newMembers) := by
  intro self
  refine ⟨fun ok => ?_, fun sound _ _ => ?_, List.forall_mem_nil _⟩
  · obtain ⟨put, live⟩ := ok.put newMembers
    exact ⟨put, fun member known => (live member).mpr (.inl known)⟩
  · have put := (sound.members.put newMembers).1
    exact ⟨⟨⟨sound.owns.stored, sound.owns.grouped⟩, put, sound.clock, sound.addressed⟩,
      List.forall_mem_nil _⟩

/-- A newcomer ends up among the members, so its address is one that fits. -/
theorem introduceNewcomer_upkeep (newcomer : ClusterMember) :
    Routine.Meets Upkeep (introduceNewcomer newcomer) := by
  intro self
  have told : newcomer.address.length ≤ sockaddrStorageSize → _ := fun short =>
    gossipEnqueueMessage_upkeep (newcomerMessage newcomer) [] .broadcast noRandom self
      fun _ _ => ⟨List.forall_mem_singleton.mpr short, trivial⟩
  have same := gossipEnqueueMessage_same (newcomerMessage newcomer) [] .broadcast noRandom self
  have placed := gossipEnqueueMessage_placed (newcomerMessage newcomer) [] .broadcast noRandom self
  rw [introduceNewcomer_eq, Routine.bind_run]
  generalize gossipEnqueueMessage (newcomerMessage newcomer) [] .broadcast noRandom self = ran
    at told same placed
  have remembered := rememberMembers_upkeep [newcomer] ran.state
  refine ⟨fun ok => ?_, fun sound fit spares => ?_, ?_⟩
  · have kept := remembered.members (same.members ▸ ok)
    rw [same.members] at kept
    exact kept
  · have put := (sound.members.put [newcomer]).2 newcomer
    rw [← same.members] at put
    -- The newcomer is a member afterwards, which is what bounds the address told to others.
    have short := fit newcomer (put.mpr (.inr List.mem_cons_self))
    exact (upkeep_chains.join (told short) remembered).sound sound fit spares
  · exact List.forall_mem_append.mpr ⟨placed, remembered.placed⟩

/-- The routine work of a node is upkeep. -/
theorem upkeep_duties : Duties Scope.any Upkeep where
  chains := upkeep_chains
  enqueue self message recipient spreading random _ composes _ :=
    gossipEnqueueMessage_upkeep message recipient spreading random self composes.fits
  acknowledge sequenceNum _ self := by
    unfold gossipEnvelopeAcknowledge
    rw [Routine.get_bind_run]
    cases gossipEnvelopeFindBySequenceNum self.outboundMessages sequenceNum with
    | none => exact upkeep_chains.rest self
    | some envelope =>
      refine ⟨fun ok => ⟨ok, fun _ member => member⟩, fun sound _ _ => ⟨?_, ?_⟩,
        List.forall_mem_singleton.mpr trivial⟩
      · -- What is left in the queue is stored and grouped as it was.
        have kept : (self.outboundMessages.eraseP fun queued =>
            queued.sequenceNum = sequenceNum).Sublist self.outboundMessages := List.eraseP_sublist
        have owns := sound.owns
        exact ⟨⟨fun queued member => owns.stored queued (kept.subset member),
          owns.grouped.sublist (kept.map _)⟩, sound.members, sound.clock, sound.addressed⟩
      · exact List.forall_mem_singleton.mpr ⟨trivial, trivial⟩
  remember newMembers _ := rememberMembers_upkeep newMembers
  introduce member _ := introduceNewcomer_upkeep member
  aside change unrelated self := by
    have same := unrelated self
    have members : (change self).members = self.members := same.members
    refine ⟨fun ok => ?_, fun sound _ _ => ⟨⟨⟨?_, ?_⟩, ?_, ?_, ?_⟩, ?_⟩,
      List.forall_mem_nil _⟩
    · exact ⟨members ▸ ok, fun member known => members ▸ known⟩
    · rw [Routine.modify_run, same.outboundMessages, same.outputBuffer]
      exact sound.owns.stored
    · rw [Routine.modify_run, same.outboundMessages]
      exact sound.owns.grouped
    · rw [Routine.modify_run, members]
      exact sound.members
    · rw [Routine.modify_run, same.dataVersion]
      exact sound.clock
    · rw [Routine.modify_run, same.selfAddress]
      exact sound.addressed
    · exact List.forall_mem_nil _

/-! ### Data -/

/-- An event of taking over a message shows nothing that is owned. -/
theorem adoptionEvents_silent (receiving : Bool) (msg : MessageData) :
    ∀ event ∈ adoptionEvents receiving msg, event.Owned ∧ event.Placed := by
  intro event member
  rcases List.mem_cons.mp member with rfl | member
  · exact ⟨⟨trivial, trivial⟩, trivial⟩
  · cases receiving with
    | false => cases member
    | true =>
      cases List.mem_singleton.mp member
      exact ⟨⟨trivial, trivial⟩, trivial⟩

/-- Taking over a message touches nothing that is owned. -/
theorem adopting_upkeep (self : PittacusGossip) (msg : MessageData) {events : List Event}
    (silent : ∀ event ∈ events, event.Owned ∧ event.Placed) :
    Upkeep self events (self.adopting msg) := by
  refine ⟨fun ok => ⟨ok, fun _ member => member⟩, fun sound _ _ => ⟨?_, ?_⟩, ?_⟩
  · exact ⟨⟨sound.owns.stored, sound.owns.grouped⟩, sound.members, sound.clock.set _ _,
      sound.addressed⟩
  · exact fun event member => (silent event member).1
  · exact fun event member => (silent event member).2

/-- Handling a data message is upkeep. -/
theorem gossipHandleData_upkeep (envelopeIn : MessageEnvelopeIn) (random : Nat → UInt32) :
    Routine.Meets Upkeep (gossipHandleData envelopeIn random) := by
  rw [gossipHandleData_eq]
  apply upkeep_duties.ifConnected
  cases (messageDataDecode envelopeIn.bufferSize).result envelopeIn.buffer with
  | error code => exact Routine.meets_pure upkeep_chains _
  | ok decoded =>
    refine Routine.meets_bind upkeep_chains (upkeep_duties.enqueueAck trivial) fun _ self => ?_
    rw [takeData_run]
    -- Received data fits the buffer it came in, and so the one it is spread from.
    split
    · exact upkeep_chains.join (adopting_upkeep self decoded.2 (adoptionEvents_silent _ _))
        (gossipEnqueueMessage_upkeep _ [] .random random _ fun _ _ => Message.data_fits decoded.2)
    · exact upkeep_chains.rest self

/-- Sending a payload is upkeep. -/
theorem gossipEnqueueData_upkeep (data : List UInt8) (random : Nat → UInt32) :
    Routine.Meets Upkeep (gossipEnqueueData data random) := by
  intro self
  -- The counter and the adopted data come before the message, and touch no slot.
  have counted : Upkeep self [] { self with dataCounter := self.dataCounter + 1 } :=
    ⟨fun ok => ⟨ok, fun _ member => member⟩,
      fun sound _ _ => ⟨⟨⟨sound.owns.stored, sound.owns.grouped⟩, sound.members, sound.clock,
        sound.addressed⟩, List.forall_mem_nil _⟩,
      List.forall_mem_nil _⟩
  have silent : ∀ event ∈ ([] : List Event), event.Owned ∧ event.Placed :=
    List.forall_mem_nil _
  have adopted := adopting_upkeep { self with dataCounter := self.dataCounter + 1 }
    (self.ownMessage data) silent
  rw [gossipEnqueueData_run]
  exact upkeep_chains.join (upkeep_chains.join counted adopted)
    (gossipEnqueueMessage_upkeep _ [] .random random _ fun _ _ => Message.data_fits _)

/-! ### Calls -/

/-- A round of sending keeps a node in working order, and sends every message as it is. -/
theorem sound_sending : KeepsSending PittacusGossip.Sound
    fun event => event.Owned ∧ event.Placed where
  drop self front current back sound whole := by
    have kept : (front ++ back).Sublist self.outboundMessages := by
      rw [whole]
      exact (List.sublist_cons_self current back).append_left front
    exact ⟨⟨fun queued member => sound.owns.stored queued (kept.subset member),
      sound.owns.grouped.sublist (kept.map _)⟩, sound.members, sound.clock, sound.addressed⟩
  forget self address addressSize sound :=
    ⟨⟨sound.owns.stored, sound.owns.grouped⟩, (sound.members.removeByAddr _ _ _).1, sound.clock,
      sound.addressed⟩
  send self front current back now result sound whole := by
    have stored := sound.owns.stored current (by rw [whole]; simp)
    have encoded := messageEncode_eq stored.fits stored.room
    refine ⟨⟨⟨fun queued member => ?_, sound.owns.grouped⟩, sound.members, sound.clock,
      sound.addressed⟩, ⟨trivial, ?_, ?_, stored.sent⟩, trivial⟩
    · exact (sound.owns.stored queued member).patched stored
    · rw [encoded]
    · rw [encoded]
  attempt self front current back now sound whole := by
    -- The envelope stays in its place, and differs in its attempts only.
    have owns := sound.owns
    have keys : (front ++ { current with
        attemptTs := now, attemptNum := current.attemptNum + 1 } :: back).map (·.buffer)
        = self.outboundMessages.map (·.buffer) := by
      rw [whole]
      simp
    refine ⟨⟨fun queued member => ?_, ?_⟩, sound.members, sound.clock, sound.addressed⟩
    · rcases List.mem_append.mp member with early | late
      · exact owns.stored queued (by rw [whole]; exact List.mem_append_left _ early)
      · cases late with
        | head =>
          have stored := owns.stored current (by rw [whole]; simp)
          exact ⟨stored.slotted, stored.fits, stored.room, stored.size, stored.start, stored.rest⟩
        | tail _ late =>
          have behind : queued ∈ self.outboundMessages := by
            rw [whole]
            exact List.mem_append_right _ (List.mem_cons_of_mem _ late)
          exact owns.stored queued behind
    · rw [keys]
      exact owns.grouped
  remove envelope reason := ⟨⟨trivial, trivial⟩, trivial⟩

/-- Every call other than a round of sending is upkeep. -/
theorem gossipStep_upkeep {input : Input} (handles : ¬input.Sends) :
    Routine.Meets Upkeep (gossipStep input) := by
  cases input with
  | join seedNodes => exact upkeep_duties.join fun _ _ _ => trivial
  | tick now random => exact upkeep_duties.tick now random
  | sendData data random => exact upkeep_duties.ifConnected (gossipEnqueueData_upkeep data random)
  | processReceive datagram sender beyond random =>
    -- A datagram is upkeep whatever it says: the scope asks nothing of it.
    have handled := upkeep_duties.handleNewMessage (envelopeOf datagram sender beyond)
      (MessageEnvelopeIn.within_any _) random fun _ => gossipHandleData_upkeep _ random
    exact pittacusGossipProcessReceive_meets upkeep_chains datagram sender beyond random handled
  | processSend times results => exact absurd trivial handles

/-- A step keeps a node in working order, as long as no slot is taken from anybody. -/
theorem gossipStep_sound (input : Input) (self : PittacusGossip) (sound : self.Sound)
    (fit : (gossipStep input self).state.AddressesFit)
    (spares : ∀ event ∈ (gossipStep input self).events, event.Spares) :
    (gossipStep input self).state.Sound ∧
      ∀ event ∈ (gossipStep input self).events, event.Owned := by
  cases input with
  | processSend times results =>
    obtain ⟨ended, owned⟩ := sound_sending.processSend times results self sound
    exact ⟨ended, fun event member => (owned event member).1⟩
  | _ => exact (gossipStep_upkeep id self).sound sound fit spares

end Pittacus
