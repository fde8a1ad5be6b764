import Pittacus.Membership.Admission
import Pittacus.Receiving.Accepted

/-! The addresses a node copies fit the structure for addresses, if those it is told do. -/

namespace Pittacus

/-! ### What has to fit -/

/-- The addresses in a node fit the structures they are copied to and the bound on members. -/
structure PittacusGossip.CopiesFit (node : PittacusGossip) : Prop where
  members : node.AddressesFit
  recipients : ∀ envelope ∈ node.outboundMessages, envelope.recipient.length ≤ sockaddrStorageSize
  encoded : ∀ member ∈ node.members.live, member.wire.length ≤ clusterMemberSize

instance (node : PittacusGossip) : Decidable node.CopiesFit :=
  decidable_of_iff
    (node.AddressesFit ∧
      (∀ envelope ∈ node.outboundMessages, envelope.recipient.length ≤ sockaddrStorageSize) ∧
      ∀ member ∈ node.members.live, member.wire.length ≤ clusterMemberSize)
    ⟨fun fit => ⟨fit.1, fit.2.1, fit.2.2⟩, fun fit => ⟨fit.members, fit.recipients, fit.encoded⟩⟩

/-- The bound on an encoded member leaves as much for its address as the structure has room for. -/
theorem wire_length_le_iff (member : ClusterMember) :
    member.wire.length ≤ clusterMemberSize ↔ member.address.length ≤ sockaddrStorageSize := by
  have length : member.wire.length = 10 + member.address.length := by
    simp only [ClusterMember.wire, List.length_append, Words.toBytes_length]
    omega
  rw [length, clusterMemberSize]
  omega

/-- It is enough to look at the addresses. -/
theorem copiesFit_iff {node : PittacusGossip} :
    node.CopiesFit ↔ node.AddressesFit ∧
      ∀ envelope ∈ node.outboundMessages, envelope.recipient.length ≤ sockaddrStorageSize := by
  refine ⟨fun fit => ⟨fit.members, fit.recipients⟩, fun fit => ⟨fit.1, fit.2, ?_⟩⟩
  exact fun member known => (wire_length_le_iff member).mpr (fit.1 member known)

/-- The members a call makes a node take in, as the datagram it receives describes them. -/
def PittacusGossip.takenIn (self : PittacusGossip) (input : Input) : List ClusterMember :=
  (if self.exchanges then input.welcome.toList.map (·.thisMember) else []) ++
    if self.state = .connected then
      input.hello.toList.map (·.thisMember) ++ input.memberList.toList.flatMap (·.members)
    else []

/-- No member that a call makes a node take in claims a longer address than there is room for. -/
def NamesFit (self : PittacusGossip) (input : Input) : Prop :=
  ∀ member ∈ self.takenIn input, member.address.length ≤ sockaddrStorageSize

instance (self : PittacusGossip) (input : Input) : Decidable (NamesFit self input) :=
  inferInstanceAs (Decidable (∀ member ∈ self.takenIn input, _))

/-- The addresses a call is given by the user, or by the socket. -/
def Input.addresses : Input → List (List UInt8)
  | .join seedNodes => seedNodes
  | .processReceive _ sender _ _ => [sender]
  | _ => []

/-- The user and the socket give addresses that fit. -/
def Input.Addressed (input : Input) : Prop :=
  ∀ address ∈ input.addresses, address.length ≤ sockaddrStorageSize

instance (input : Input) : Decidable input.Addressed :=
  inferInstanceAs (Decidable (∀ address ∈ input.addresses, _))

/-! ### What keeps fitting -/

/-- A node in order whose addresses fit. -/
structure Fitting (node : PittacusGossip) : Prop where
  ok : node.members.Ok
  fit : node.AddressesFit
  recipients : ∀ envelope ∈ node.outboundMessages, envelope.recipient.length ≤ sockaddrStorageSize

/-- A message is queued for an address that fits, or for members. -/
theorem gossipEnqueueMessage_fitting (message : Message) (recipient : List UInt8)
    (spreading : GossipSpreadingType) (random : Nat → UInt32) (self : PittacusGossip)
    (direct : spreading = .direct → recipient.length ≤ sockaddrStorageSize) :
    Routine.Keeps Fitting self (gossipEnqueueMessage message recipient spreading random self).events
      (gossipEnqueueMessage message recipient spreading random self).state := by
  intro fitting
  have same := gossipEnqueueMessage_same message recipient spreading random self
  refine ⟨same.members ▸ fitting.ok, ?_, fun envelope waiting => ?_⟩
  · rw [PittacusGossip.AddressesFit, same.members]
    exact fitting.fit
  · rcases gossipEnqueueMessage_adds message recipient spreading random self waiting with
      old | ⟨-, listed⟩
    · exact fitting.recipients envelope old
    · -- Directly to an address that fits, or to members, whose addresses fit.
      rcases mem_spreadingRecipients listed with ⟨alone, rfl⟩ | ⟨member, known, at_⟩
      · exact direct alone
      · rw [← at_]
        exact fitting.fit member known

/-- Members with addresses that fit may be taken in. -/
theorem rememberMembers_fitting (newMembers : List ClusterMember)
    (short : ∀ member ∈ newMembers, member.address.length ≤ sockaddrStorageSize) :
    Routine.Meets (Routine.Keeps Fitting) (rememberMembers newMembers) := by
  intro self fitting
  obtain ⟨put, live⟩ := fitting.ok.put newMembers
  refine ⟨put, fun member known => ?_, fitting.recipients⟩
  rcases (live member).mp known with old | new
  · exact fitting.fit member old
  · exact short member new

/-- The members taken in and those answered have addresses that fit. -/
def fittingScope : Scope where
  newcomer member := member.address.length ≤ sockaddrStorageSize
  retired _ := True
  direct _ recipient := recipient.length ≤ sockaddrStorageSize

/-- The routine work of a node copies addresses that fit only. -/
theorem fitting_duties : Duties fittingScope (Routine.Keeps Fitting) where
  chains := Routine.keeps_chains Fitting
  enqueue self message recipient spreading random _ _ allowed :=
    gossipEnqueueMessage_fitting message recipient spreading random self fun direct => by
      subst direct
      exact allowed
  acknowledge sequenceNum _ self := by
    unfold gossipEnvelopeAcknowledge
    rw [Routine.get_bind_run]
    -- An acknowledgement takes an envelope out and copies no address.
    cases gossipEnvelopeFindBySequenceNum self.outboundMessages sequenceNum with
    | none => exact id
    | some envelope =>
      exact fun fitting => ⟨fitting.ok, fitting.fit, fun queued waiting =>
        fitting.recipients queued (List.mem_of_mem_eraseP waiting)⟩
  remember newMembers short := rememberMembers_fitting newMembers short
  introduce member short :=
    Routine.meets_bind (Routine.keeps_chains Fitting)
      (fun self => gossipEnqueueMessage_fitting _ _ _ _ self nofun)
      fun _ => rememberMembers_fitting [member] (List.forall_mem_singleton.mpr short)
  aside change unrelated self := by
    have same := unrelated self
    intro fitting
    refine ⟨?_, ?_, ?_⟩
    · rw [Routine.modify_run, same.members]
      exact fitting.ok
    · rw [Routine.modify_run, PittacusGossip.AddressesFit, same.members]
      exact fitting.fit
    · rw [Routine.modify_run, same.outboundMessages]
      exact fitting.recipients

/-- Handling a data message copies no address but those of members and of the sender. -/
theorem gossipHandleData_fitting (envelopeIn : MessageEnvelopeIn) (random : Nat → UInt32)
    (short : envelopeIn.sender.length ≤ sockaddrStorageSize) :
    Routine.Meets (Routine.Keeps Fitting) (gossipHandleData envelopeIn random) := by
  rw [gossipHandleData_eq]
  apply fitting_duties.ifConnected
  cases (messageDataDecode envelopeIn.bufferSize).result envelopeIn.buffer with
  | error code => exact Routine.meets_pure (Routine.keeps_chains Fitting) _
  | ok decoded =>
    refine Routine.meets_bind (Routine.keeps_chains Fitting) (fitting_duties.enqueueAck short)
      fun _ self => ?_
    rw [takeData_run]
    -- Adopting the data copies no address; spreading it goes to members.
    split
    · intro fitting
      exact gossipEnqueueMessage_fitting _ [] .random random (self.adopting decoded.2) nofun
        ⟨fitting.ok, fitting.fit, fitting.recipients⟩
    · exact id

/-- A round of sending forgets members, and copies no address. -/
theorem fitting_sending : KeepsSending Fitting fun _ => True where
  drop self front current back fitting whole :=
    ⟨fitting.ok, fitting.fit, fun envelope kept => fitting.recipients envelope (by
      rw [whole]
      exact ((List.sublist_cons_self current back).append_left front).subset kept)⟩
  forget self address addressSize fitting := by
    obtain ⟨ok, kept⟩ := fitting.ok.removeByAddr self.unset address addressSize
    exact ⟨ok, fun member known => fitting.fit member (kept member known), fitting.recipients⟩
  send self front current back now result fitting whole :=
    ⟨⟨fitting.ok, fitting.fit, fitting.recipients⟩, trivial⟩
  attempt self front current back now fitting whole := by
    have recipients := fitting.recipients
    rw [whole] at recipients
    refine ⟨fitting.ok, fitting.fit, fun envelope kept => ?_⟩
    rcases List.mem_append.mp kept with early | late
    · exact recipients envelope (List.mem_append_left _ early)
    · rcases List.mem_cons.mp late with rfl | behind
      · -- Its recipient is the one it was queued for.
        exact recipients current (List.mem_append_right _ List.mem_cons_self)
      · exact recipients envelope (List.mem_append_right _ (List.mem_cons_of_mem _ behind))
  remove _ _ := trivial

/-! ### What is taken in -/

section Handlers

variable {envelopeIn : MessageEnvelopeIn} {self : PittacusGossip}

/-- A connected node knows whoever introduced itself. -/
theorem gossipHandleHello_takes (connected : self.state = .connected) (ok : self.members.Ok)
    {found : Nat × MessageHello ClusterMemberRef}
    (accepted : (messageHelloDecode envelopeIn.bufferSize).result envelopeIn.buffer = .ok found) :
    (found.2.load envelopeIn.buffer).thisMember ∈
      (gossipHandleHello envelopeIn self).state.members.live := by
  -- Before the newcomer is put in, the set stays in order.
  have welcomed : Routine.Meets Upkeep
      (gossipEnqueueWelcome (found.2.load envelopeIn.buffer).header.sequenceNum
        envelopeIn.sender) :=
    upkeep_duties.enqueueWelcome fun _ => trivial
  have told : Routine.Meets Upkeep (tellMembers envelopeIn.sender) :=
    upkeep_duties.tells fun _ => trivial
  have ok_ := ((told _).members ((welcomed self).members ok).1).1
  rw [gossipHandleHello_eq, returnIfNotConnected, Routine.get_bind_run,
    if_neg (not_not.mpr connected), accepted]
  simp only [Routine.bind_run, Routine.pure_run, introduceNewcomer_members]
  exact ((ok_.put _).2 _).mpr (.inr List.mem_cons_self)

/-- A node knows the seed node that admitted it. -/
theorem gossipHandleWelcome_takes (ok : self.members.Ok)
    {found : Nat × MessageWelcome ClusterMemberRef}
    (accepted : (messageWelcomeDecode envelopeIn.bufferSize).result envelopeIn.buffer
      = .ok found) :
    (found.2.load envelopeIn.buffer).thisMember ∈
      (gossipHandleWelcome envelopeIn self).state.members.live := by
  rw [gossipHandleWelcome, accepted]
  simp only [Routine.bind_run, Routine.pure_run, Routine.modify_run,
    gossipEnvelopeAcknowledge_members]
  exact ((ok.put _).2 _).mpr (.inr List.mem_cons_self)

/-- A connected node knows whoever it was told about. -/
theorem gossipHandleMemberList_takes (connected : self.state = .connected) (ok : self.members.Ok)
    {found : Nat × MessageMemberList ClusterMemberRef}
    (accepted : (messageMemberListDecode envelopeIn.bufferSize).result envelopeIn.buffer
      = .ok found) :
    ∀ member ∈ (found.2.load envelopeIn.buffer).members,
      member ∈ (gossipHandleMemberList envelopeIn self).state.members.live := by
  intro member listed
  have live := ((ok.put (found.2.load envelopeIn.buffer).members).2 member).mpr (.inr listed)
  rw [gossipHandleMemberList, returnIfNotConnected, Routine.get_bind_run,
    if_neg (not_not.mpr connected), accepted]
  -- The acknowledgement that follows concerns no member.
  have same := gossipEnqueueMessage_same
    (ackMessage (found.2.load envelopeIn.buffer).header.sequenceNum) envelopeIn.sender .direct
    noRandom
    { self with
      members := clusterMemberSetPut self.members (found.2.load envelopeIn.buffer).members }
  show member ∈ (gossipEnqueueMessage _ _ _ _ _).state.members.live
  exact same.members ▸ live

end Handlers

/-- Whoever a call makes a node take in is a member afterwards. -/
theorem takenIn_known {self : PittacusGossip} (ok : self.members.Ok) (input : Input) :
    ∀ member ∈ self.takenIn input, member ∈ (gossipStep input self).state.members.live := by
  intro member listed
  cases input with
  | processReceive datagram sender beyond random =>
    rcases List.mem_append.mp listed with admitted | told
    · split at admitted
      · rename_i exchanges
        obtain ⟨msg, received, rfl⟩ := List.mem_map.mp admitted
        obtain ⟨found, accepted, rfl⟩ :=
          (welcomeReceived_some sender).mp (Option.mem_toList.mp received)
        have some_ := received_of_announced (announces_of_accepted accepted).1
        rw [processReceive_exchanges exchanges some_, gossipHandleNewMessage_welcome _ accepted]
        exact gossipHandleWelcome_takes ok accepted
      · cases admitted
    · split at told
      · rename_i connected
        have exchanges : self.exchanges = true := by simp [PittacusGossip.exchanges, connected]
        rcases List.mem_append.mp told with greeted | named
        · obtain ⟨msg, received, rfl⟩ := List.mem_map.mp greeted
          obtain ⟨found, accepted, rfl⟩ :=
            (helloReceived_some sender).mp (Option.mem_toList.mp received)
          have some_ := received_of_announced (announces_of_accepted accepted).1
          rw [processReceive_exchanges exchanges some_, gossipHandleNewMessage_hello _ accepted]
          exact gossipHandleHello_takes connected ok accepted
        · obtain ⟨msg, received, named⟩ := List.mem_flatMap.mp named
          obtain ⟨found, accepted, rfl⟩ :=
            (memberListReceived_some sender).mp (Option.mem_toList.mp received)
          have some_ := received_of_announced (announces_of_accepted accepted).1
          rw [processReceive_exchanges exchanges some_,
            gossipHandleNewMessage_memberList _ accepted]
          exact gossipHandleMemberList_takes connected ok accepted member named
      · cases told
  | _ =>
    -- No other call names a member.
    simp [PittacusGossip.takenIn, Input.welcome, Input.hello, Input.memberList] at listed

/-! ### Calls -/

/-- Whatever is received from an address that fits may be answered. -/
theorem within_fitting {envelopeIn : MessageEnvelopeIn}
    (short : envelopeIn.sender.length ≤ sockaddrStorageSize)
    (brings : envelopeIn.Brings fun member => member.address.length ≤ sockaddrStorageSize) :
    envelopeIn.Within fittingScope where
  brings := brings
  retires := ⟨fun _ _ _ => trivial, fun _ _ _ => trivial⟩
  answers := ⟨fun _ _ _ _ => short, fun _ _ _ => short, fun _ _ _ => short, fun _ _ _ => short,
    fun _ => short, fun _ => short, fun _ => short⟩

/-- A connected node is told about the members it takes in. -/
theorem brings_connected {self : PittacusGossip} (connected : self.state = .connected)
    {datagram sender : List UInt8} {beyond : Nat → UInt8} {random : Nat → UInt32}
    (named : NamesFit self (.processReceive datagram sender beyond random)) :
    (envelopeOf datagram sender beyond).Brings fun member =>
      member.address.length ≤ sockaddrStorageSize := by
  have exchanges : self.exchanges = true := by simp [PittacusGossip.exchanges, connected]
  unfold NamesFit PittacusGossip.takenIn at named
  rw [if_pos exchanges, if_pos connected] at named
  -- Each type that names members names them among those taken in.
  refine ⟨fun count msg accepted => ?_, fun count msg accepted => ?_, fun count msg accepted => ?_⟩
  · have received := (helloReceived_some sender).mpr ⟨_, accepted, rfl⟩
    refine named _ (List.mem_append_right _ (List.mem_append_left _ ?_))
    exact List.mem_map.mpr ⟨_, Option.mem_toList.mpr received, rfl⟩
  · have received := (welcomeReceived_some sender).mpr ⟨_, accepted, rfl⟩
    refine named _ (List.mem_append_left _ ?_)
    exact List.mem_map.mpr ⟨_, Option.mem_toList.mpr received, rfl⟩
  · have received := (memberListReceived_some sender).mpr ⟨_, accepted, rfl⟩
    intro member listed
    refine named _ (List.mem_append_right _ (List.mem_append_right _ ?_))
    exact List.mem_flatMap.mpr ⟨_, Option.mem_toList.mpr received, listed⟩

/-- A node that is not connected yet is told about members by a welcome only. -/
theorem brings_apart {self : PittacusGossip} (exchanges : self.exchanges = true)
    {datagram sender : List UInt8} {beyond : Nat → UInt8} {random : Nat → UInt32}
    (named : NamesFit self (.processReceive datagram sender beyond random))
    {found : Nat × MessageWelcome ClusterMemberRef}
    (welcomed : (messageWelcomeDecode (envelopeOf datagram sender beyond).bufferSize).result
      (envelopeOf datagram sender beyond).buffer = .ok found) :
    (envelopeOf datagram sender beyond).Brings fun member =>
      member.address.length ≤ sockaddrStorageSize := by
  have own := (announces_of_accepted welcomed).1.2.1
  unfold NamesFit PittacusGossip.takenIn at named
  rw [if_pos exchanges] at named
  refine ⟨fun count msg accepted => ?_, fun count msg accepted => ?_, fun count msg accepted => ?_⟩
  · -- It is not a hello as well.
    have other := (announces_of_accepted accepted).1.2.1
    rw [own] at other
    exact absurd other (by decide)
  · have received := (welcomeReceived_some sender).mpr ⟨_, accepted, rfl⟩
    refine named _ (List.mem_append_left _ ?_)
    exact List.mem_map.mpr ⟨_, Option.mem_toList.mpr received, rfl⟩
  · have other := (announces_of_accepted accepted).1.2.1
    rw [own] at other
    exact absurd other (by decide)

/-- A datagram that names addresses that fit leaves addresses that fit. -/
theorem Fitting.receive {self : PittacusGossip} (fitting : Fitting self)
    {datagram sender : List UInt8} {beyond : Nat → UInt8} {random : Nat → UInt32}
    (short : sender.length ≤ sockaddrStorageSize)
    (named : NamesFit self (.processReceive datagram sender beyond random)) :
    Fitting (gossipStep (.processReceive datagram sender beyond random) self).state := by
  have handled : (envelopeOf datagram sender beyond).Brings (fun member =>
      member.address.length ≤ sockaddrStorageSize) →
      Fitting (gossipStep (.processReceive datagram sender beyond random) self).state := by
    intro brings
    have met := fitting_duties.handleNewMessage _ (within_fitting short brings) random
      fun _ => gossipHandleData_fitting _ random short
    exact pittacusGossipProcessReceive_meets (Routine.keeps_chains Fitting) datagram sender beyond
      random met self fitting
  by_cases connected : self.state = .connected
  · exact handled (brings_connected connected named)
  · simp only [gossipStep, pittacusGossipProcessReceive, Routine.get_bind_run, Routine.ite_run]
      at handled ⊢
    split
    · exact fitting
    · rename_i listens
      split
      · exact fitting
      · rename_i some_
        -- Without a welcome, the node stays apart, and does nothing.
        rcases gossipHandleNewMessage_stage (envelopeOf datagram sender beyond) random self with
          same | ⟨-, found, welcomed⟩
        · have untouched := gossipHandleNewMessage_apart (envelopeOf datagram sender beyond) random
            connected (same ▸ connected)
          exact untouched.symm ▸ fitting
        · rw [if_neg listens, if_neg some_] at handled
          exact handled (brings_apart (by simpa using listens) named welcomed)

/-- Every call that is given and told addresses that fit leaves addresses that fit. -/
theorem Fitting.step {self : PittacusGossip} (fitting : Fitting self) {input : Input}
    (given : input.Addressed) (named : NamesFit self input) :
    Fitting (gossipStep input self).state := by
  cases input with
  | join seedNodes =>
    exact fitting_duties.join (fun seed listed _ => given seed listed) self fitting
  | sendData data random =>
    refine fitting_duties.ifConnected (fun state holds => ?_) self fitting
    rw [gossipEnqueueData_run]
    exact gossipEnqueueMessage_fitting _ [] .random random _ nofun
      ⟨holds.ok, holds.fit, holds.recipients⟩
  | tick now random => exact fitting_duties.tick now random self fitting
  | processReceive datagram sender beyond random =>
    exact fitting.receive (given sender List.mem_cons_self) named
  | processSend times results => exact (fitting_sending.processSend times results self fitting).1

/-- A new node copied no address yet. -/
theorem NodeSetup.fitting (setup : NodeSetup) : Fitting setup.node where
  ok := clusterMemberSetInit_ok
  fit _ known := absurd known List.not_mem_nil
  recipients _ waiting := absurd waiting List.not_mem_nil

/--
In every run, all addresses fit where they are copied, as long as those a node is told do.

The decoder of members does not look at the length it reads, so it takes in longer ones as well.
-/
theorem addresses_fit_iff (setup : NodeSetup) (inputs : List Input)
    (given : ∀ input ∈ inputs, input.Addressed) :
    Machine.Along gossipStep (fun self input => (gossipStep input self).state.CopiesFit) inputs
        setup.node ↔
      Machine.Along gossipStep NamesFit inputs setup.node := by
  refine (Machine.along_agree ?_ ?_ setup.fitting given).symm
  · intro self input addressed fitting
    constructor
    · intro named
      have after := fitting.step addressed named
      exact copiesFit_iff.mpr ⟨after.fit, after.recipients⟩
    · -- What is taken in is among the members afterwards, so a long address shows there.
      intro fit member listed
      exact fit.members member (takenIn_known fitting.ok input member listed)
  · exact fun self input addressed fitting named => fitting.step addressed named

/-- A member joins, and tells about another one. -/
theorem addresses_fit_two :
    Machine.Along gossipStep (fun self input => (gossipStep input self).state.CopiesFit) twoMembers
      (localSetup 1).node :=
  (addresses_fit_iff (localSetup 1) twoMembers (by decide)).mpr (by decide +kernel)

/-- A member that claims an address of three hundred bytes. -/
def longMember : ClusterMember :=
  ⟨1, 7, List.replicate 300 2, by rw [List.length_replicate]; decide⟩

/-- A node that starts a cluster, takes in the long member, and tells it about another newcomer. -/
def overrun : List Input :=
  [.join [], (greeting longMember).arrivesFrom 2, (greeting (localMember 3)).arrivesFrom 3]

/-- The address lies inside the datagram, and is copied past the end of a recipient. -/
theorem addresses_do_not_fit :
    (greeting longMember).wire.length = 322 ∧ (∀ input ∈ overrun, input.Addressed) ∧
      (∃ member ∈ (Machine.run gossipStep overrun (localSetup 1).node).members.live,
        clusterMemberSize < member.wire.length) ∧
      ∃ envelope ∈ (Machine.run gossipStep overrun (localSetup 1).node).outboundMessages,
        sockaddrStorageSize < envelope.recipient.length := by
  decide +kernel

end Pittacus
