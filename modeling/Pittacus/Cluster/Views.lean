import Pittacus.Cluster.Founders
import Pittacus.Cluster.SelfView

/-! Whoever is known to some node of a network is a node of it that was told to join. -/

namespace Pittacus

open Routine

/-! ### What a node says -/

/-- All members that a node knows, tells about or introduces are of a kind, itself included. -/
structure Names (real : ClusterMember → Prop) (own : ClusterMember) (node : PittacusGossip) :
    Prop where
  self : node.selfAddress = own
  own : real own
  ok : node.members.Ok
  known : ∀ member ∈ node.members.live, real member
  told : ∀ envelope ∈ node.outboundMessages, ∀ member ∈ envelope.message.members, real member

section Handling

variable {real : ClusterMember → Prop} {own : ClusterMember}

/-- What a node composes names nobody but itself and the members it knows. -/
theorem PittacusGossip.Composes.named {self : PittacusGossip} {message : Message}
    (composes : self.Composes message) {member : ClusterMember} (listed : member ∈ message.members) :
    member = self.selfAddress ∨ member ∈ self.members.live := by
  obtain ⟨-, made⟩ := composes
  cases message with
  | hello msg => exact .inl ((List.mem_singleton.mp listed).trans made)
  | welcome msg => exact .inl ((List.mem_singleton.mp listed).trans made)
  | memberList msg => exact .inr (made member listed)
  | _ => exact absurd listed List.not_mem_nil

/-- Queueing a message that names members of a kind goes on naming such members. -/
theorem Names.enqueue {self : PittacusGossip} (names : Names real own self) {message : Message}
    (told : ∀ member ∈ message.members, real member) (recipient : List UInt8)
    (spreading : GossipSpreadingType) (random : Nat → UInt32) :
    Names real own (gossipEnqueueMessage message recipient spreading random self).state := by
  have same := gossipEnqueueMessage_same message recipient spreading random self
  refine ⟨same.selfAddress.trans names.self, names.own, ?_, ?_, fun envelope waiting => ?_⟩
  · rw [same.members]
    exact names.ok
  · rw [same.members]
    exact names.known
  · rcases gossipEnqueueMessage_adds message recipient spreading random self waiting with old | new
    · exact names.told envelope old
    · rw [new.1]
      exact told

/-- Members of the kind may be remembered. -/
theorem Names.remember {self : PittacusGossip} (names : Names real own self)
    {newMembers : List ClusterMember} (new : ∀ member ∈ newMembers, real member) :
    Names real own (rememberMembers newMembers self).state := by
  obtain ⟨ok, live⟩ := names.ok.put newMembers
  refine ⟨names.self, names.own, ok, fun member known => ?_, names.told⟩
  rcases (live member).mp known with old | listed
  · exact names.known member old
  · exact new member listed

/-- The routine work of a node names members of the kind only, if it hears of no others. -/
theorem names_duties (real : ClusterMember → Prop) (own : ClusterMember) :
    Duties ⟨real, fun _ => True, fun _ _ => True⟩ (Keeps (Names real own)) where
  chains := keeps_chains (Names real own)
  enqueue self message recipient spreading random _ composes _ names :=
    names.enqueue (fun member listed => by
      rcases composes.named listed with same | known
      · rw [same, names.self]
        exact names.own
      · exact names.known member known) recipient spreading random
  acknowledge sequenceNum _ self := by
    unfold gossipEnvelopeAcknowledge
    rw [get_bind_run]
    cases gossipEnvelopeFindBySequenceNum self.outboundMessages sequenceNum with
    | none => exact id
    | some envelope =>
      exact fun names => ⟨names.self, names.own, names.ok, names.known, fun queued waiting =>
        names.told queued (List.mem_of_mem_eraseP waiting)⟩
  remember newMembers new self names := names.remember new
  introduce member new :=
    meets_bind (keeps_chains (Names real own))
      (fun self names => names.enqueue (fun member_ listed => by
        rw [List.mem_singleton.mp listed]
        exact new) _ _ _)
      fun _ self names => names.remember (List.forall_mem_singleton.mpr new)
  aside change unrelated self names := by
    have same := unrelated self
    refine ⟨same.selfAddress.trans names.self, names.own, ?_, ?_, ?_⟩
    · rw [modify_run, same.members]
      exact names.ok
    · rw [modify_run, same.members]
      exact names.known
    · rw [modify_run, same.outboundMessages]
      exact names.told

/-- Data is spread in messages that name nobody. -/
theorem Names.spread {self : PittacusGossip} (names : Names real own self) (msg : MessageData)
    (random : Nat → UInt32) :
    Names real own (gossipEnqueueMessage (.data msg) [] .random random self).state :=
  names.enqueue (List.forall_mem_nil _) _ _ _

/-- Handling a data message names nobody. -/
theorem gossipHandleData_names (envelopeIn : MessageEnvelopeIn) (random : Nat → UInt32) :
    Meets (Keeps (Names real own)) (gossipHandleData envelopeIn random) := by
  rw [gossipHandleData_eq]
  apply (names_duties real own).ifConnected
  cases (messageDataDecode envelopeIn.bufferSize).result envelopeIn.buffer with
  | error code => exact meets_pure (keeps_chains (Names real own)) _
  | ok found =>
    refine meets_bind (keeps_chains (Names real own)) ((names_duties real own).enqueueAck trivial)
      fun _ acked => ?_
    rw [takeData_run]
    -- Adopting the data concerns neither members nor queue.
    split
    · intro names
      have adopted : Names real own (acked.adopting found.2) :=
        ⟨names.self, names.own, names.ok, names.known, names.told⟩
      exact adopted.spread found.2 random
    · exact id

/-- A round of sending names nobody new. -/
theorem names_sending (real : ClusterMember → Prop) (own : ClusterMember) :
    KeepsSending (Names real own) fun _ => True where
  drop self front current back names whole := by
    refine ⟨names.self, names.own, names.ok, names.known, fun envelope kept => names.told envelope ?_⟩
    rw [whole]
    exact ((List.sublist_cons_self current back).append_left front).subset kept
  forget self address addressSize names := by
    obtain ⟨ok, kept⟩ := names.ok.removeByAddr self.unset address addressSize
    exact ⟨names.self, names.own, ok, fun member known => names.known member (kept member known), names.told⟩
  send self front current back now result names whole :=
    ⟨⟨names.self, names.own, names.ok, names.known, names.told⟩, trivial⟩
  attempt self front current back now names whole := by
    have told := names.told
    rw [whole] at told
    refine ⟨names.self, names.own, names.ok, names.known, fun envelope waiting => ?_⟩
    rcases List.mem_append.mp waiting with early | late
    · exact told envelope (List.mem_append_left _ early)
    · rcases List.mem_cons.mp late with rfl | behind
      · -- An attempt leaves the message of the envelope as it is.
        exact told current (List.mem_append_right _ List.mem_cons_self)
      · exact told envelope (List.mem_append_right _ (List.mem_cons_of_mem _ behind))
  remove _ _ := trivial

/-- Every call that hears of members of the kind only goes on naming such members. -/
theorem Names.step {self : PittacusGossip} (names : Names real own self) (input : Input)
    (brings : ∀ datagram sender beyond random,
      input = .processReceive datagram sender beyond random →
        (envelopeOf datagram sender beyond).Brings real) :
    Names real own (gossipStep input self).state := by
  have duties := names_duties real own
  cases input with
  | join seedNodes => exact duties.join (fun _ _ _ => trivial) self names
  | tick now random => exact duties.tick now random self names
  | sendData data random =>
    refine duties.ifConnected (fun state names => ?_) self names
    rw [gossipEnqueueData_run]
    have counted : Names real own (({ state with dataCounter := state.dataCounter + 1 } :
        PittacusGossip).adopting (state.ownMessage data)) :=
      ⟨names.self, names.own, names.ok, names.known, names.told⟩
    exact counted.spread (state.ownMessage data) random
  | processReceive datagram sender beyond random =>
    have within := (brings datagram sender beyond random rfl).within
    have handled := duties.handleNewMessage _ within random fun _ => gossipHandleData_names _ random
    exact pittacusGossipProcessReceive_meets duties.chains datagram sender beyond random handled
      self names
  | processSend times results => exact ((names_sending real own).processSend times results self names).1

/-- A wider kind of members may be named as well. -/
theorem Names.mono {wider : ClusterMember → Prop} {node : PittacusGossip}
    (names : Names real own node) (implied : ∀ member, real member → wider member) :
    Names wider own node where
  self := names.self
  own := implied _ names.own
  ok := names.ok
  known member known := implied _ (names.known member known)
  told envelope waiting member listed := implied _ (names.told envelope waiting member listed)

/-- A node that waits for nobody names at most itself. -/
theorem Waiting.names {node : PittacusGossip} (waits : Waiting [] node)
    (self : node.selfAddress = own) (declared : real own) : Names real own node where
  self := self
  own := declared
  ok := waits.sound.members
  known member known := by
    rw [ClusterMemberSet.live, waits.members] at known
    cases known
  told envelope waiting := absurd (waits.queue envelope waiting).1 List.not_mem_nil

/-- A node says nothing until it is told to join, and names members of a kind from then on. -/
structure Speaks (real : ClusterMember → Prop) (own : ClusterMember) (node : PittacusGossip) :
    Prop where
  self : node.selfAddress = own
  waiting : node.state = .initialized → Waiting [] node
  names : node.state ≠ .initialized → Names real own node

/-- A node that was told to join, and hears of members of the kind only, names no others. -/
theorem Speaks.step {self : PittacusGossip} (speaks : Speaks real own self) (input : Input)
    (declared : (gossipStep input self).state.state ≠ .initialized → real own)
    (brings : ∀ datagram sender beyond random,
      input = .processReceive datagram sender beyond random →
        (envelopeOf datagram sender beyond).Brings real) :
    Speaks real own (gossipStep input self).state := by
  by_cases fresh : (gossipStep input self).state.state = .initialized
  · have before : self.state = .initialized := by
      by_contra left
      exact not_initialized_step left input fresh
    rw [(speaks.waiting before).stays before fresh]
    exact speaks
  · have names : Names real own self := by
      by_cases before : self.state = .initialized
      · -- A node that joins now names only itself.
        exact (speaks.waiting before).names speaks.self (declared fresh)
      · exact speaks.names before
    have after := names.step input brings
    exact ⟨after.self, fun same => absurd same fresh, fun _ => after⟩

end Handling

/-! ### What is said in a network -/

variable {ι : Type} [DecidableEq ι]

/-- A member is a node of the network that was told to join. -/
def Network.Enrolled (setup : ι → NodeSetup) (net : Network ι) (member : ClusterMember) : Prop :=
  ∃ j, member = (setup j).node.selfAddress ∧ (net.node j).state ≠ .initialized

/-- Whoever is named anywhere is enrolled. -/
structure Network.Honest (setup : ι → NodeSetup) (net : Network ι) : Prop where
  sound : net.Sound
  speaks : ∀ i, Speaks (net.Enrolled setup) (setup i).node.selfAddress (net.node i)
  told : ∀ transmission ∈ net.transmissions,
    ∀ member ∈ transmission.envelope.message.members, net.Enrolled setup member

omit [DecidableEq ι] in
/-- Nobody is named in a new network. -/
theorem create_honest (setup : ι → NodeSetup) : (Network.create setup).Honest setup where
  sound := create_network_sound setup
  speaks i := ⟨rfl, fun _ => (setup i).waiting, fun left => absurd rfl left⟩
  told _ sent := absurd sent List.not_mem_nil

/-- Whoever was told to join stays enrolled. -/
theorem Network.Enrolled.step {setup : ι → NodeSetup} {net : Network ι} {member : ClusterMember}
    (enrolled : net.Enrolled setup member) (call : ι × Input) :
    (networkStep call net).state.Enrolled setup member := by
  obtain ⟨j, same, left⟩ := enrolled
  refine ⟨j, same, ?_⟩
  rw [networkStep_node]
  split
  · rename_i here
    rw [← here]
    exact not_initialized_step left call.2
  · exact left

omit [DecidableEq ι] in
/-- What arrives at a node names enrolled members only. -/
theorem Network.Honest.brings {setup : ι → NodeSetup} {routes : List UInt8 → Option ι}
    {net : Network ι} (honest : net.Honest setup) {i : ι} {datagram sender : List UInt8}
    {beyond : Nat → UInt8} {random : Nat → UInt32}
    (delivers : net.Delivers routes (i, .processReceive datagram sender beyond random)) :
    ∃ message : Message, (∀ member ∈ message.members, net.Enrolled setup member) ∧
      message.Fills (envelopeOf datagram sender beyond).buffer
        (envelopeOf datagram sender beyond).bufferSize := by
  obtain ⟨transmission, sent, same, -⟩ := delivers (datagram, sender) rfl
  have fills := (honest.sound.faithful transmission sent).fills sender beyond
  rw [show transmission.datagram = datagram from same] at fills
  refine ⟨_, fun member listed => ?_, fills⟩
  rw [Message.renumbered_members] at listed
  exact honest.told transmission sent member listed

/-- A call keeps everybody who is named anywhere enrolled. -/
theorem Network.Honest.step {setup : ι → NodeSetup} {routes : List UInt8 → Option ι}
    {net : Network ι} {call : ι × Input} (honest : net.Honest setup)
    (delivers : net.Delivers routes call) (spares : net.Spares call) :
    (networkStep call net).state.Honest setup := by
  have later : ∀ member, net.Enrolled setup member →
      (networkStep call net).state.Enrolled setup member := fun _ enrolled => enrolled.step call
  have wider : ∀ i, Speaks ((networkStep call net).state.Enrolled setup)
      (setup i).node.selfAddress (net.node i) := fun i =>
    ⟨(honest.speaks i).self, (honest.speaks i).waiting,
      fun left => ((honest.speaks i).names left).mono later⟩
  refine ⟨honest.sound.step delivers spares, fun i => ?_, fun transmission sent member listed => ?_⟩
  · by_cases here : i = call.1
    · subst here
      have node : (networkStep call net).state.node call.1
          = (gossipStep call.2 (net.node call.1)).state := by
        rw [networkStep_node, if_pos rfl]
      rw [node]
      -- Whoever leaves where it started was told to join, and is enrolled by that.
      refine (wider call.1).step call.2 (fun left => ⟨call.1, rfl, node ▸ left⟩) ?_
      intro datagram sender beyond random same
      have delivers : net.Delivers routes (call.1, call.2) := delivers
      rw [same] at delivers
      obtain ⟨message, enrolled, fills⟩ := honest.brings delivers
      exact ⟨fun _ _ accepted => later _ (enrolled _ (fills.hello accepted)),
        fun _ _ accepted => later _ (enrolled _ (fills.welcome accepted)),
        fun _ _ accepted member listed =>
          later _ (enrolled member (fills.memberList accepted member listed))⟩
    · rw [networkStep_node, if_neg here]
      exact wider i
  · rcases mem_transmissions sent with old | ⟨mine, waiting, -⟩
    · exact later member (honest.told transmission old member listed)
    · -- It was queued before the call, at a node that had joined by then.
      have speaks := wider call.1
      by_cases fresh : (net.node call.1).state = .initialized
      · exact absurd ((speaks.waiting fresh).queue _ waiting).1 List.not_mem_nil
      · exact (speaks.names fresh).told _ waiting member listed

/--
Whoever is known to some node of a network is a node of it that was told to join.

This holds in every run of nodes, whatever becomes of their datagrams.
-/
theorem known_enrolled (routes : List UInt8 → Option ι) (setup : ι → NodeSetup)
    (calls : List (ι × Input))
    (delivers : Machine.Along networkStep (Network.Delivers routes) calls (Network.create setup))
    (spares : Machine.Along networkStep Network.Spares calls (Network.create setup)) :
    let net := Machine.run networkStep calls (Network.create setup)
    ∀ i, ∀ member ∈ (net.node i).members.live,
      ∃ j, member = (setup j).node.selfAddress ∧ (net.node j).state ≠ .initialized := by
  intro net i member known
  have honest : net.Honest setup :=
    Machine.run_invariant (fun net call honest steps => Network.Honest.step honest steps.1 steps.2)
      (create_honest setup) (delivers.and spares)
  by_cases fresh : (net.node i).state = .initialized
  · -- A node that was not told to join knows nobody.
    rw [ClusterMemberSet.live, ((honest.speaks i).waiting fresh).members] at known
    cases known
  · exact ((honest.speaks i).names fresh).known member known

/-- Both nodes know each other after the second one joined the first one. -/
theorem known_enrolled_two :
    let setup := fun i : Fin 2 => localSetup (if i = 0 then 1 else 2)
    let net := Machine.run networkStep acknowledgedExchange (Network.create setup)
    (net.node 0).members.live.length = 1 ∧ (net.node 1).members.live.length = 1 ∧
      ∀ i, ∀ member ∈ (net.node i).members.live,
        ∃ j, member = (setup j).node.selfAddress ∧ (net.node j).state ≠ .initialized :=
  ⟨by decide +kernel, by decide +kernel,
    known_enrolled localRoutes (fun i : Fin 2 => localSetup (if i = 0 then 1 else 2))
      acknowledgedExchange (by decide +kernel) (by decide +kernel)⟩

end Pittacus
