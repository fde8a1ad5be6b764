import Pittacus.Ownership.Queues
import Pittacus.Proofs.Members
import Pittacus.Receiving.Arrivals

/-! What a seed node queues when a newcomer introduces itself. -/

namespace Pittacus

/-- A list of members that is cut into messages, none of them empty or longer than a limit. -/
structure Chunks (limit : Nat) (members : List ClusterMember)
    (chunks : List (MessageMemberList ClusterMember)) : Prop where
  headed : ∀ chunk ∈ chunks, chunk.header = messageHeaderInit messageMemberListType 0
  nonempty : ∀ chunk ∈ chunks, chunk.members ≠ []
  few : ∀ chunk ∈ chunks, chunk.members.length ≤ limit
  whole : chunks.flatMap (·.members) = members

/-- Nothing is cut into no messages. -/
theorem chunks_nil (limit : Nat) : Chunks limit [] [] where
  headed _ none_ := absurd none_ List.not_mem_nil
  nonempty _ none_ := absurd none_ List.not_mem_nil
  few _ none_ := absurd none_ List.not_mem_nil
  whole := rfl

/-- One more message is cut off at the front. -/
theorem Chunks.cons {limit : Nat} {members : List ClusterMember}
    {chunk : MessageMemberList ClusterMember} {chunks : List (MessageMemberList ClusterMember)}
    (rest : Chunks limit members chunks)
    (headed : chunk.header = messageHeaderInit messageMemberListType 0)
    (nonempty : chunk.members ≠ []) (few : chunk.members.length ≤ limit) :
    Chunks limit (chunk.members ++ members) (chunk :: chunks) where
  headed := List.forall_mem_cons.mpr ⟨headed, rest.headed⟩
  nonempty := List.forall_mem_cons.mpr ⟨nonempty, rest.nonempty⟩
  few := List.forall_mem_cons.mpr ⟨few, rest.few⟩
  whole := by rw [List.flatMap_cons, rest.whole]

/-- Messages that hold fewer members hold few enough. -/
theorem Chunks.mono {limit larger : Nat} {members : List ClusterMember}
    {chunks : List (MessageMemberList ClusterMember)} (cut : Chunks limit members chunks)
    (fewer : limit ≤ larger) : Chunks larger members chunks :=
  { cut with few := fun chunk member => Nat.le_trans (cut.few chunk member) fewer }

/-- As many members as are sent in one message fit the output buffer. -/
theorem memberList_room (msg : MessageMemberList ClusterMember)
    (few : msg.members.length ≤ memberListSyncSize)
    (short : ∀ member ∈ msg.members, member.address.length ≤ sockaddrStorageSize) :
    (Message.memberList msg).Fits ∧ (Message.memberList msg).required ≤ messageMaxSize := by
  refine ⟨⟨short, trivial⟩, ?_⟩
  simp only [Message.required, memberListSyncSize, messageHeaderSize, clusterMemberSize,
    sockaddrStorageSize, messageMaxSize] at few ⊢
  omega

/-- The remaining members are queued chunk by chunk, each of which takes one slot. -/
theorem gossipEnqueueMemberChunks_queues {membersNum : Nat} (small : membersNum < 2 ^ 16)
    (positive : 0 < membersNum) (limited : membersNum ≤ memberListSyncSize)
    (recipient : List UInt8) (rounds : Nat) (members : List ClusterMember)
    (enough : members.length ≤ rounds)
    (short : ∀ member ∈ members, member.address.length ≤ sockaddrStorageSize)
    (self : PittacusGossip)
    (roomy : self.awaiting.length * membersNum + members.length ≤ maxOutputMessages * membersNum) :
    ∃ chunks, Chunks membersNum members chunks ∧
      chunks.length * membersNum < members.length + membersNum ∧
      Queues (chunks.map fun chunk => (recipient, .memberList chunk)) self
        (gossipEnqueueMemberChunks membersNum small recipient rounds members errNone self) := by
  induction rounds generalizing members self with
  | zero =>
    -- There are at least as many rounds as members.
    cases members with
    | nil => exact ⟨[], chunks_nil _, by simpa using positive, queues_nil self []⟩
    | cons member rest => exact absurd enough (by simp)
  | succ rounds ih =>
    cases members with
    | nil => exact ⟨[], chunks_nil _, by simpa using positive, queues_nil self []⟩
    | cons member rest =>
      have bounded : ((member :: rest).take membersNum).length < 2 ^ 16 := by
        rw [List.length_take]
        omega
      let chunk : MessageMemberList ClusterMember :=
        ⟨messageHeaderInit messageMemberListType 0, (member :: rest).take membersNum, bounded⟩
      have size : chunk.members.length = min membersNum (rest.length + 1) := List.length_take
      have left : ((member :: rest).drop membersNum).length = rest.length + 1 - membersNum :=
        List.length_drop
      have fewer : chunk.members.length ≤ membersNum := by omega
      have nonempty : chunk.members ≠ [] := by
        intro none_
        rw [none_, List.length_nil] at size
        omega
      obtain ⟨fits, room⟩ := memberList_room chunk (Nat.le_trans fewer limited)
        fun one listed => short one (List.mem_of_mem_take listed)
      rw [List.length_cons] at enough roomy ⊢
      -- There is a slot for this chunk, and there are enough left for those behind it.
      have slot : self.awaiting.length < maxOutputMessages :=
        Nat.lt_of_mul_lt_mul_right (a := membersNum) (by omega)
      have further := Nat.mul_le_mul_right membersNum (Nat.succ_le_of_lt slot)
      rw [Nat.succ_mul] at further
      have first := gossipEnqueueMessage_queues fits room recipient noRandom self slot
      obtain ⟨chunks, cut, count, second⟩ := ih ((member :: rest).drop membersNum) (by omega)
        (fun one listed => short one (List.mem_of_mem_drop listed))
        (gossipEnqueueMessage (.memberList chunk) recipient .direct noRandom self).state (by
          rw [first.awaiting, List.length_append, List.length_singleton, Nat.add_mul, Nat.one_mul]
          omega)
      refine ⟨chunk :: chunks, ?_, ?_, ?_⟩
      · have joined := cut.cons rfl nonempty fewer
        rwa [List.take_append_drop] at joined
      · rw [List.length_cons, Nat.add_mul, Nat.one_mul]
        rw [left] at count
        -- Behind a chunk that is not full there are none.
        have last : chunks.length * membersNum < membersNum → chunks.length * membersNum = 0 := by
          intro less
          have none_ : chunks.length = 0 :=
            Nat.lt_one_iff.mp (Nat.lt_of_mul_lt_mul_right (a := membersNum) (by omega))
          rw [none_, Nat.zero_mul]
        omega
      · rw [gossipEnqueueMemberChunks_cons small recipient rounds member rest errNone bounded]
        exact first.andThen second

/-- A newcomer is told about all members, as many of them at a time as a message takes. -/
theorem tellMembers_queues (recipient : List UInt8) (self : PittacusGossip)
    (short : ∀ member ∈ self.members.live, member.address.length ≤ sockaddrStorageSize)
    (roomy : self.awaiting.length * memberListSyncSize + self.members.live.length
      ≤ maxOutputMessages * memberListSyncSize) :
    ∃ chunks, Chunks memberListSyncSize self.members.live chunks ∧
      chunks.length * memberListSyncSize < self.members.live.length + memberListSyncSize ∧
      Queues (chunks.map fun chunk => (recipient, .memberList chunk)) self
        (tellMembers recipient self) := by
  -- Whether there is nobody to tell about is looked at twice.
  by_cases nobody : self.members.live = []
  · refine ⟨[], nobody ▸ chunks_nil _, by rw [nobody]; decide, ?_⟩
    rw [tellMembers, Routine.get_bind_run, Routine.ite_run]
    split
    · rw [gossipEnqueueMemberList, Routine.get_bind_run, Routine.ite_run, if_pos]
      · exact queues_nil self []
      · rw [nobody]
        rfl
    · exact queues_nil self []
  · have many : 0 < self.members.live.length := List.length_pos_iff.mpr nobody
    have used : 0 < self.members.size := by
      have bound : self.members.live.length ≤ self.members.size :=
        Nat.le_trans (List.length_filterMap_le _ _) (List.length_take_le _ _)
      omega
    have size : memberListSyncSize = 3 := rfl
    have slots : maxOutputMessages = 100 := rfl
    have counted := roomy
    rw [size, slots] at counted
    have least := Nat.min_le_left self.members.live.length memberListSyncSize
    have most := Nat.min_le_right self.members.live.length memberListSyncSize
    have small : min self.members.live.length memberListSyncSize < 2 ^ 16 := by omega
    have positive : 0 < min self.members.live.length memberListSyncSize := by omega
    have told : tellMembers recipient self =
        gossipEnqueueMemberChunks (min self.members.live.length memberListSyncSize) small recipient
          self.members.live.length self.members.live errNone self := by
      rw [tellMembers, Routine.get_bind_run, if_pos used, gossipEnqueueMemberList,
        Routine.get_bind_run, Routine.ite_run, if_neg (by omega)]
    -- A list that is shorter than a message takes only one of them.
    have shorter :
        (self.members.live.length = 1 ∧ min self.members.live.length memberListSyncSize = 1) ∨
        (self.members.live.length = 2 ∧ min self.members.live.length memberListSyncSize = 2) ∨
        min self.members.live.length memberListSyncSize = memberListSyncSize := by omega
    obtain ⟨chunks, cut, count, queued⟩ := gossipEnqueueMemberChunks_queues small positive most
      recipient self.members.live.length self.members.live (Nat.le_refl _) short self (by
        rcases shorter with ⟨one, width⟩ | ⟨two, width⟩ | full
        · rw [width]
          omega
        · rw [width]
          omega
        · rw [full]
          exact roomy)
    refine ⟨chunks, cut.mono most, ?_, told ▸ queued⟩
    rcases shorter with ⟨one, width⟩ | ⟨two, width⟩ | full
    · rw [width] at count
      rw [size]
      omega
    · rw [width] at count
      rw [size]
      omega
    · rw [full] at count
      exact count

/-- What a seed node queues for a newcomer that it knows as the sender of a hello. -/
structure Greets (seed : PittacusGossip) (sender : List UInt8) (msg : MessageHello ClusterMember)
    (chunks : List (MessageMemberList ClusterMember)) (after : PittacusGossip) : Prop where
  cut : Chunks memberListSyncSize seed.members.live chunks
  awaiting : after.awaiting =
    (sender, welcomeMessage msg.header.sequenceNum seed.selfAddress) ::
      chunks.map (fun chunk => (sender, .memberList chunk)) ++
        seed.members.live.map fun member => (member.address, newcomerMessage msg.thisMember)
  owns : after.Owns
  members : after.members.live =
    if msg.thisMember ∈ seed.members.live then seed.members.live
    else seed.members.live ++ [msg.thisMember]

/-- A welcome is queued for the node that said hello. -/
theorem gossipEnqueueWelcome_queues (helloSequenceNum : UInt32) (recipient : List UInt8)
    {self : PittacusGossip} (addressed : self.selfAddress.address.length ≤ sockaddrStorageSize)
    (roomy : self.awaiting.length < maxOutputMessages) :
    Queues [(recipient, welcomeMessage helloSequenceNum self.selfAddress)] self
      (gossipEnqueueWelcome helloSequenceNum recipient self) := by
  have fits : (welcomeMessage helloSequenceNum self.selfAddress).Fits :=
    ⟨List.forall_mem_singleton.mpr addressed, trivial⟩
  have room : (welcomeMessage helloSequenceNum self.selfAddress).required ≤ messageMaxSize := by
    simp only [welcomeMessage, Message.required, messageHeaderSize, clusterMemberStructSize,
      pointerSize, messageMaxSize, sockaddrStorageSize] at addressed ⊢
    omega
  exact gossipEnqueueMessage_queues fits room recipient noRandom self roomy

/-- A seed node with an empty queue has room for all it has to say about its members. -/
theorem gossipHandleHello_greets {seed : PittacusGossip} {envelopeIn : MessageEnvelopeIn}
    (connected : seed.state = .connected) (idle : seed.outboundMessages = [])
    (ok : seed.members.Ok) (few : seed.members.live.length ≤ 294)
    (addressed : seed.selfAddress.address.length ≤ sockaddrStorageSize)
    (short : ∀ member ∈ seed.members.live, member.address.length ≤ sockaddrStorageSize)
    {found : Nat × MessageHello ClusterMemberRef}
    (accepted : (messageHelloDecode envelopeIn.bufferSize).result envelopeIn.buffer = .ok found)
    (newcomer : (found.2.load envelopeIn.buffer).thisMember.address.length ≤ sockaddrStorageSize) :
    ∃ chunks, Greets seed envelopeIn.sender (found.2.load envelopeIn.buffer) chunks
      (gossipHandleHello envelopeIn seed).state := by
  generalize loaded : found.2.load envelopeIn.buffer = msg at newcomer ⊢
  have empty : seed.awaiting = [] := by rw [PittacusGossip.awaiting, idle]; rfl
  have owns : seed.Owns := .idle idle
  have slots : maxOutputMessages = 100 := rfl
  have size : memberListSyncSize = 3 := rfl
  -- The welcome goes first.
  have welcomed := gossipEnqueueWelcome_queues msg.header.sequenceNum envelopeIn.sender addressed
    (by rw [empty]; decide)
  -- Then the members follow, none of which joined or left in between.
  have known := welcomed.same.members
  obtain ⟨chunks, cut, count, told⟩ := tellMembers_queues envelopeIn.sender
    (gossipEnqueueWelcome msg.header.sequenceNum envelopeIn.sender seed).state
    (known ▸ short) (by
      rw [welcomed.awaiting, empty, known, slots, size]
      show 1 * 3 + seed.members.live.length ≤ 300
      omega)
  have known_ := told.same.members.trans known
  rw [known] at cut count
  rw [size] at count
  -- The newcomer itself is told to the members in one slot more.
  have fits : (newcomerMessage msg.thisMember).Fits ∧
      (newcomerMessage msg.thisMember).required ≤ messageMaxSize :=
    memberList_room ⟨messageHeaderInit messageMemberListType 0, [msg.thisMember], by simp⟩
      (by rw [size]; exact Nat.le_add_left 1 2) (List.forall_mem_singleton.mpr newcomer)
  have introduced := gossipEnqueueMessage_queuesTo fits.1 fits.2 [] .broadcast noRandom
    (tellMembers envelopeIn.sender
      (gossipEnqueueWelcome msg.header.sequenceNum envelopeIn.sender seed).state).state (by
        rw [told.awaiting, welcomed.awaiting, empty, slots]
        simp only [List.nil_append, List.length_append, List.length_singleton, List.length_map]
        omega)
  have live := introduceNewcomer_members msg.thisMember (tellMembers envelopeIn.sender
    (gossipEnqueueWelcome msg.header.sequenceNum envelopeIn.sender seed).state).state
  have waiting := introduced.awaiting
  have kept := introduced.owns (told.owns (welcomed.owns owns))
  rw [told.awaiting, welcomed.awaiting, empty, spreadingRecipients, known_, List.map_map] at waiting
  have after : (gossipHandleHello envelopeIn seed).state =
      (introduceNewcomer msg.thisMember (tellMembers envelopeIn.sender
        (gossipEnqueueWelcome msg.header.sequenceNum envelopeIn.sender seed).state).state).state := by
    rw [gossipHandleHello_eq, returnIfNotConnected, Routine.get_bind_run,
      if_neg (not_not.mpr connected), accepted, ← loaded]
    rfl
  rw [known_] at live
  rw [after]
  rw [introduceNewcomer_state, rememberMembers, Routine.modify_run] at live ⊢
  generalize (gossipEnqueueMessage (newcomerMessage msg.thisMember) [] .broadcast noRandom
    (tellMembers envelopeIn.sender
      (gossipEnqueueWelcome msg.header.sequenceNum envelopeIn.sender seed).state).state).state
      = last at waiting kept live ⊢
  refine ⟨chunks, cut, waiting, ⟨kept.stored, kept.grouped⟩, ?_⟩
  rw [live]
  exact ok.put_one msg.thisMember

end Pittacus
