import Pittacus.Membership.Seed
import Pittacus.Ownership.Runs

/-! A newcomer that hears out its seed node ends up with all members the seed node had. -/

namespace Pittacus

/-! ### What the newcomer makes of a message -/

/-- A message that tells a node about members. -/
def Message.Tells : Message → Prop
  | .welcome _ | .memberList _ => True
  | _ => False

section Told

variable {self : PittacusGossip} {input : Input}

/-- A node that is welcomed is connected, and knows the one that welcomed it. -/
theorem welcome_told (exchanges : self.exchanges = true) {msg : MessageWelcome ClusterMember}
    (deliverable : (Message.welcome msg).Deliverable) (carries : input.Carries (.welcome msg)) :
    (gossipStep input self).state.state = .connected ∧
      (gossipStep input self).state.members
        = clusterMemberSetPut self.members (Message.welcome msg).members := by
  obtain ⟨sequenceNum, sender, beyond, random, rfl⟩ := carries
  obtain ⟨found, accepted, loaded⟩ :=
    (welcomeReceived_some sender).mp (deliverable.welcome sequenceNum beyond)
  -- A welcome that is accepted came in a datagram that is not empty.
  have some_ := received_of_announced (announces_of_accepted accepted).1
  rw [processReceive_exchanges exchanges some_, gossipHandleNewMessage_welcome _ accepted,
    gossipHandleWelcome, accepted]
  simp only [Routine.bind_run, Routine.pure_run, Routine.modify_run,
    gossipEnvelopeAcknowledge_members, loaded]
  exact ⟨stage_chores.acknowledge _ trivial _, rfl⟩

/-- A connected node takes in all members it is told about. -/
theorem memberList_told (connected : self.state = .connected)
    {msg : MessageMemberList ClusterMember} (deliverable : (Message.memberList msg).Deliverable)
    (carries : input.Carries (.memberList msg)) :
    (gossipStep input self).state.members
      = clusterMemberSetPut self.members (Message.memberList msg).members := by
  obtain ⟨sequenceNum, sender, beyond, random, rfl⟩ := carries
  obtain ⟨found, accepted, loaded⟩ :=
    (memberListReceived_some sender).mp (deliverable.memberList sequenceNum beyond)
  have some_ := received_of_announced (announces_of_accepted accepted).1
  have exchanges : self.exchanges = true := by simp [PittacusGossip.exchanges, connected]
  -- The acknowledgement that is queued behind leaves the members alone.
  have same := gossipEnqueueMessage_same
    (ackMessage (found.2.load (envelopeOf ((Message.memberList msg).datagram sequenceNum) sender
      beyond).buffer).header.sequenceNum) sender .direct noRandom
    { self with members := clusterMemberSetPut self.members msg.members }
  rw [processReceive_exchanges exchanges some_, gossipHandleNewMessage_memberList _ accepted,
    gossipHandleMemberList, returnIfNotConnected, Routine.get_bind_run,
    if_neg (not_not.mpr connected), accepted]
  simp only [Routine.bind_run, Routine.pure_run, Routine.modify_run, loaded] at same ⊢
  exact same.members

/-- Whichever way a connected node is told about members, it takes them in. -/
theorem told_step (connected : self.state = .connected) {message : Message} (tells : message.Tells)
    (deliverable : message.Deliverable) (carries : input.Carries message) :
    (gossipStep input self).state.members = clusterMemberSetPut self.members message.members := by
  cases message with
  | welcome msg =>
    have exchanges : self.exchanges = true := by simp [PittacusGossip.exchanges, connected]
    exact (welcome_told exchanges deliverable carries).2
  | memberList msg => exact memberList_told connected deliverable carries
  | _ => exact absurd tells id

end Told

/-! ### What it ends up with -/

/-- A connected node that knows nobody besides the members of a list, and nobody twice. -/
structure PittacusGossip.KnowsAmong (node : PittacusGossip) (members : List ClusterMember) :
    Prop where
  connected : node.state = .connected
  ok : node.members.Ok
  distinct : node.members.live.Nodup
  among : ∀ member ∈ node.members.live, member ∈ members

/-- Messages about members of a list. -/
structure TellsAmong (members : List ClusterMember) (messages : List Message) : Prop where
  tells : ∀ message ∈ messages, message.Tells
  deliverable : ∀ message ∈ messages, message.Deliverable
  among : ∀ message ∈ messages, ∀ member ∈ message.members, member ∈ members

/-- A node that is told about members of a list keeps to them, and forgets none. -/
theorem PittacusGossip.KnowsAmong.told {self : PittacusGossip} {members : List ClusterMember}
    {messages : List Message} {inputs : List Input} (knows : self.KnowsAmong members)
    (tells : TellsAmong members messages)
    (carried : ∀ input ∈ inputs, ∃ message ∈ messages, input.Carries message) :
    (Machine.run gossipStep inputs self).KnowsAmong members ∧
      (∀ member ∈ self.members.live,
        member ∈ (Machine.run gossipStep inputs self).members.live) ∧
      ∀ input ∈ inputs, ∀ message ∈ messages, input.Carries message →
        ∀ member ∈ message.members,
          member ∈ (Machine.run gossipStep inputs self).members.live := by
  -- Whoever is taken in by one call is kept by the others.
  induction inputs generalizing self with
  | nil => exact ⟨knows, fun _ known => known, List.forall_mem_nil _⟩
  | cons input rest ih =>
    obtain ⟨message, listed, carries⟩ := carried input List.mem_cons_self
    have put := told_step knows.connected (tells.tells message listed)
      (tells.deliverable message listed) carries
    obtain ⟨ok, live⟩ := knows.ok.put message.members
    have next : (gossipStep input self).state.KnowsAmong members := by
      refine ⟨connected_step knows.connected input, put ▸ ok, ?_, fun member known => ?_⟩
      · rw [put]
        exact knows.ok.put_nodup knows.distinct message.members
      · rw [put, live] at known
        exact known.elim (knows.among member) (tells.among message listed member)
    obtain ⟨ends, kept, taken⟩ := ih next fun other later =>
      carried other (List.mem_cons_of_mem _ later)
    refine ⟨ends, fun member known => ?_, fun other given message_ listed_ carries_ => ?_⟩
    · refine kept member ?_
      rw [put, live]
      exact .inl known
    · rcases List.mem_cons.mp given with rfl | later
      · intro member named
        have put_ := told_step knows.connected (tells.tells message_ listed_)
          (tells.deliverable message_ listed_) carries_
        refine kept member ?_
        rw [put_]
        exact ((knows.ok.put message_.members).2 member).mpr (.inr named)
      · exact taken other later message_ listed_ carries_

/-! ### The exchange -/

/-- A member whose address has the length of a socket address. -/
def ClusterMember.Sized (member : ClusterMember) : Prop :=
  16 ≤ member.address.length ∧ member.address.length ≤ sockaddrStorageSize

instance (member : ClusterMember) : Decidable member.Sized :=
  inferInstanceAs (Decidable (_ ∧ _))

/-- The welcome of a seed node can be delivered. -/
theorem welcomeMessage_deliverable (helloSequenceNum : UInt32) {thisMember : ClusterMember}
    (sized : thisMember.Sized) : (welcomeMessage helloSequenceNum thisMember).Deliverable where
  typed := ⟨rfl, rfl⟩
  fits := ⟨List.forall_mem_singleton.mpr sized.2, trivial⟩
  addresses := List.forall_mem_singleton.mpr sized.1
  room := by
    have short := sized.2
    simp only [welcomeMessage, Message.required, messageHeaderSize, clusterMemberStructSize,
      pointerSize, messageMaxSize, sockaddrStorageSize] at short ⊢
    omega

/-- Each chunk of a list of members can be delivered. -/
theorem Chunks.deliverable {members : List ClusterMember}
    {chunks : List (MessageMemberList ClusterMember)}
    (cut : Chunks memberListSyncSize members chunks) (sized : ∀ member ∈ members, member.Sized) :
    ∀ chunk ∈ chunks, (Message.memberList chunk).Deliverable := by
  intro chunk listed
  -- The members of a chunk are members of the list, which are all sized.
  have within : ∀ member ∈ chunk.members, member.Sized := by
    intro member named
    refine sized member ?_
    rw [← cut.whole]
    exact List.mem_flatMap.mpr ⟨chunk, listed, named⟩
  obtain ⟨fits, room⟩ := memberList_room chunk (cut.few chunk listed)
    fun member named => (within member named).2
  refine ⟨?_, fits, fun member named => (within member named).1, room⟩
  rw [Message.Typed, Message.header, cut.headed chunk listed]
  exact ⟨rfl, rfl⟩

/-- A newcomer that is welcomed and told all chunks knows the seed node and all its members. -/
theorem hears_out {newcomer : PittacusGossip} {welcome : MessageWelcome ClusterMember}
    {members : List ClusterMember} {chunks : List (MessageMemberList ClusterMember)}
    (joining : newcomer.state = .joining) (ok : newcomer.members.Ok)
    (alone : newcomer.members.live = []) (cut : Chunks memberListSyncSize members chunks)
    (deliverable : (Message.welcome welcome).Deliverable)
    (deliverables : ∀ chunk ∈ chunks, (Message.memberList chunk).Deliverable)
    {first : Input} {rest : List Input} (welcomed : first.Carries (.welcome welcome))
    (only : ∀ input ∈ rest,
      ∃ message ∈ .welcome welcome :: chunks.map Message.memberList, input.Carries message)
    (all : ∀ chunk ∈ chunks, ∃ input ∈ rest, input.Carries (.memberList chunk)) :
    let joined := Machine.run gossipStep (first :: rest) newcomer
    joined.state = .connected ∧ joined.members.live.Nodup ∧
      ∀ member, member ∈ joined.members.live ↔ member ∈ members ∨ member = welcome.thisMember := by
  have exchanges : newcomer.exchanges = true := by simp [PittacusGossip.exchanges, joining]
  obtain ⟨connected, put⟩ := welcome_told exchanges deliverable welcomed
  obtain ⟨ok_, live⟩ := ok.put (Message.welcome welcome).members
  rw [alone] at live
  have seed : ∀ member, member ∈ (gossipStep first newcomer).state.members.live ↔
      member = welcome.thisMember := by
    intro member
    rw [put, live]
    simp [Message.members]
  -- So far it knows the seed node only.
  have knows : (gossipStep first newcomer).state.KnowsAmong (welcome.thisMember :: members) := by
    refine ⟨connected, put ▸ ok_, ?_, fun member known => ?_⟩
    · rw [put]
      exact ok.put_nodup (by rw [alone]; exact List.nodup_nil) _
    · rw [(seed member).mp known]
      exact List.mem_cons_self
  have tells : TellsAmong (welcome.thisMember :: members)
      (.welcome welcome :: chunks.map Message.memberList) := by
    refine ⟨?_, ?_, ?_⟩
    · exact List.forall_mem_cons.mpr ⟨trivial, List.forall_mem_map.mpr fun _ _ => trivial⟩
    · exact List.forall_mem_cons.mpr ⟨deliverable, List.forall_mem_map.mpr deliverables⟩
    · refine List.forall_mem_cons.mpr ⟨?_, List.forall_mem_map.mpr fun chunk listed => ?_⟩
      · exact List.forall_mem_singleton.mpr List.mem_cons_self
      · intro member named
        refine List.mem_cons_of_mem _ ?_
        rw [← cut.whole]
        exact List.mem_flatMap.mpr ⟨chunk, listed, named⟩
  obtain ⟨ends, kept, taken⟩ := knows.told tells only
  refine ⟨ends.connected, ends.distinct, fun member => ⟨fun known => ?_, ?_⟩⟩
  · exact (List.mem_cons.mp (ends.among member known)).symm
  · rintro (prior | rfl)
    · -- Every member stands in some chunk, and every chunk was heard.
      rw [← cut.whole] at prior
      obtain ⟨chunk, listed, named⟩ := List.mem_flatMap.mp prior
      obtain ⟨input, given, carries⟩ := all chunk listed
      exact taken input given (.memberList chunk)
        (List.mem_cons_of_mem _ (List.mem_map_of_mem listed)) carries member named
    · exact kept _ ((seed _).mpr rfl)

/--
A seed node tells a newcomer about all its members, and all its members about the newcomer.

Whatever the order in which the newcomer hears of them, it knows exactly those members in the end.
-/
theorem joining_exchange (seed : PittacusGossip) (connected : seed.state = .connected)
    (idle : seed.outboundMessages = []) (ok : seed.members.Ok)
    (few : seed.members.live.length ≤ 294) (sized : seed.selfAddress.Sized)
    (sizes : ∀ member ∈ seed.members.live, member.Sized)
    (datagram sender : List UInt8) (beyond : Nat → UInt8) (random : Nat → UInt32)
    (msg : MessageHello ClusterMember) (hello : helloReceived datagram beyond = some msg)
    (size : msg.thisMember.Sized) :
    let after := (gossipStep (.processReceive datagram sender beyond random) seed).state
    let welcome : MessageWelcome ClusterMember :=
      ⟨messageHeaderInit messageWelcomeType 0, msg.header.sequenceNum, seed.selfAddress⟩
    ∃ chunks : List (MessageMemberList ClusterMember),
      (∀ chunk ∈ chunks,
        chunk.members ≠ [] ∧ chunk.members.length ≤ memberListSyncSize) ∧
      chunks.flatMap (·.members) = seed.members.live ∧
      after.awaiting = (sender, .welcome welcome) ::
        chunks.map (fun chunk => (sender, .memberList chunk)) ++
          seed.members.live.map (fun member => (member.address, newcomerMessage msg.thisMember)) ∧
      (∀ envelope ∈ after.outboundMessages,
        (messageEncode envelope.message messageMaxSize).result
            = .ok (envelope.message.wire.length : Int) ∧
          envelope.message.wire.length ≤ messageMaxSize ∧
          envelopeBytes (patchSequenceNum after.outputBuffer envelope) envelope
            = envelope.message.datagram envelope.sequenceNum) ∧
      after.members.live =
        (if msg.thisMember ∈ seed.members.live then seed.members.live
          else seed.members.live ++ [msg.thisMember]) ∧
      ∀ (newcomer : PittacusGossip) (first : Input) (rest : List Input),
        newcomer.state = .joining → newcomer.members.Ok → newcomer.members.live = [] →
        first.Carries (.welcome welcome) →
        (∀ input ∈ rest,
          ∃ message ∈ .welcome welcome :: chunks.map Message.memberList, input.Carries message) →
        (∀ chunk ∈ chunks, ∃ input ∈ rest, input.Carries (.memberList chunk)) →
        let joined := Machine.run gossipStep (first :: rest) newcomer
        joined.state = .connected ∧ joined.members.live.Nodup ∧
          ∀ member, member ∈ joined.members.live ↔
            member ∈ seed.members.live ∨ member = seed.selfAddress := by
  intro after welcome
  obtain ⟨found, accepted, rfl⟩ := (helloReceived_some sender).mp hello
  have exchanges : seed.exchanges = true := by simp [PittacusGossip.exchanges, connected]
  have some_ := received_of_announced (announces_of_accepted accepted).1
  have ran : after = (gossipHandleHello (envelopeOf datagram sender beyond) seed).state := by
    show (gossipStep (.processReceive datagram sender beyond random) seed).state = _
    rw [processReceive_exchanges exchanges some_, gossipHandleNewMessage_hello _ accepted]
  obtain ⟨chunks, greets⟩ := gossipHandleHello_greets connected idle ok few sized.2
    (fun member known => (sizes member known).2) accepted size.2
  rw [← ran] at greets
  -- The seed's side is one greeting; the newcomer's is a run that hears all of it.
  refine ⟨chunks, fun chunk listed => ⟨greets.cut.nonempty chunk listed,
    greets.cut.few chunk listed⟩, greets.cut.whole, greets.awaiting, fun envelope waiting => ?_,
    greets.members, ?_⟩
  · have stored := greets.owns.stored envelope waiting
    refine ⟨?_, Nat.le_trans stored.fits.wire_length_le stored.room, stored.sent⟩
    rw [messageEncode_eq stored.fits stored.room]
  · intro newcomer first rest joining ok_ alone welcomed only all
    exact hears_out joining ok_ alone greets.cut (welcomeMessage_deliverable _ sized)
      (greets.cut.deliverable sizes) welcomed only all

/-- A seed node that was told about two members, and acknowledged it. -/
def settledSeed : PittacusGossip :=
  Machine.run gossipStep
    [.join [],
      (Message.memberList ⟨messageHeaderInit messageMemberListType 9,
        [localMember 2, localMember 3], by decide⟩).arrivesFrom 2,
      .processSend (fun _ => 0) (fun _ => 0)]
    (localNode 1)

/-- A newcomer introduces itself, and ends up with both members and the seed node. -/
theorem joining_exchange_two :
    let newcomer := (gossipStep (.join [loopback 1]) (localNode 4)).state
    (gossipStep ((greeting (localMember 4)).arrivesFrom 4) settledSeed).state.members.live
        = [localMember 2, localMember 3, localMember 4] ∧
      ∃ inputs, ∀ member, member ∈ (Machine.run gossipStep inputs newcomer).members.live ↔
        member ∈ [localMember 2, localMember 3] ∨ member = settledSeed.selfAddress := by
  intro newcomer
  obtain ⟨chunks, _, whole, _, _, members, hears⟩ := joining_exchange settledSeed
    (by decide +kernel) (List.isEmpty_iff.mp (by decide +kernel))
    ⟨by decide +kernel, by decide +kernel⟩ (by decide +kernel) (by decide +kernel)
    (by decide +kernel) (greeting (localMember 4)).wire (loopback 4) (fun _ => 0) noRandom
    ⟨messageHeaderInit messageHelloType 1, localMember 4⟩ (by rfl) (by decide +kernel)
  refine ⟨members.trans (by decide +kernel), ?_⟩
  -- Every message arrives once, under the number two.
  let arrival (message : Message) : Input :=
    .processReceive (message.datagram 2) (loopback 1) (fun _ => 0) noRandom
  have carries (message : Message) : (arrival message).Carries message := ⟨2, _, _, _, rfl⟩
  have known : settledSeed.members.live = [localMember 2, localMember 3] := by decide +kernel
  rw [← known]
  refine ⟨_, (hears newcomer _ (chunks.map fun chunk => arrival (.memberList chunk))
    (by decide +kernel) ⟨by decide +kernel, by decide +kernel⟩ (by decide +kernel)
    (carries _) ?_ ?_).2.2⟩
  · refine List.forall_mem_map.mpr fun chunk listed => ⟨_, ?_, carries _⟩
    exact List.mem_cons_of_mem _ (List.mem_map_of_mem listed)
  · exact fun chunk listed => ⟨_, List.mem_map_of_mem listed, carries _⟩

end Pittacus
