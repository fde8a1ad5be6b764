import Pittacus.Ownership.Upkeep

/-! Over whole runs, datagrams are those of their messages as long as no slot is taken away. -/

namespace Pittacus

/-- A round of sending queues nothing. -/
theorem placed_sending : KeepsSending (fun _ => True) Event.Placed where
  drop _ _ _ _ _ _ := trivial
  forget _ _ _ _ := trivial
  send _ _ _ _ _ _ _ _ := ⟨trivial, trivial⟩
  attempt _ _ _ _ _ _ _ := trivial
  remove _ _ := trivial

/-- Every message is queued where the placement of the queue puts it. -/
theorem gossipStep_placed (input : Input) (self : PittacusGossip) :
    ∀ event ∈ (gossipStep input self).events, event.Placed := by
  cases input with
  | processSend times results =>
    exact (placed_sending.processSend times results self trivial).2
  | _ => exact (gossipStep_upkeep id self).placed

/-- A new node is in working order. -/
theorem create_sound (selfAddress : List UInt8)
    (bounded : selfAddress.length ≤ sockaddrStorageSize) (now : Nat) (dataReceiver : Bool)
    (fresh : FreshMemory) :
    (pittacusGossipCreate selfAddress bounded now dataReceiver fresh).Sound where
  owns := .idle rfl
  members := clusterMemberSetInit_ok
  clock := vectorClockInit_ok
  addressed := bounded

/-- No step of a run ends with a member whose address does not fit. -/
def AddressesStayFit (self : PittacusGossip) (input : Input) : Prop :=
  (gossipStep input self).state.AddressesFit

instance (self : PittacusGossip) (input : Input) : Decidable (AddressesStayFit self input) :=
  inferInstanceAs (Decidable (PittacusGossip.AddressesFit _))

instance : (event : Event) → Decidable event.Spares
  | .enqueue found _ _ _ _ => inferInstanceAs (Decidable (Spares found))
  | .sendTo _ _ _ _ | .remove _ _ | .log _ | .receive _ _ => .isTrue trivial

instance Except.decidableEqOk {ε α : Type} [DecidableEq α] (value : α) :
    (answer : Except ε α) → Decidable (answer = .ok value)
  | .ok found => decidable_of_iff (found = value) (by rw [Except.ok.injEq])
  | .error _ => .isFalse nofun

instance : (event : Event) → Decidable event.Faithful
  | .sendTo _ _ _ _ => inferInstanceAs (Decidable (_ = _ ∧ _ = _ ∧ _ = _))
  | .enqueue _ _ _ _ _ | .remove _ _ | .log _ | .receive _ _ => .isTrue trivial

/--
In every run, slots are chosen and datagrams are sent as their owners may expect.

That is so exactly when reclaiming a slot never takes it from an envelope further ahead.
-/
theorem outbound_owned_iff (selfAddress : List UInt8)
    (bounded : selfAddress.length ≤ sockaddrStorageSize) (now : Nat) (dataReceiver : Bool)
    (fresh : FreshMemory) (inputs : List Input)
    (fit : Machine.Along gossipStep AddressesStayFit inputs
      (pittacusGossipCreate selfAddress bounded now dataReceiver fresh)) :
    (∀ event ∈ Machine.trace gossipStep inputs
        (pittacusGossipCreate selfAddress bounded now dataReceiver fresh), event.Owned) ↔
      ∀ event ∈ Machine.trace gossipStep inputs
        (pittacusGossipCreate selfAddress bounded now dataReceiver fresh), event.Spares := by
  have sound := create_sound selfAddress bounded now dataReceiver fresh
  rw [Machine.forall_trace_iff, Machine.forall_trace_iff]
  -- Owning shows at each event that nothing was taken; the other way needs the invariant.
  constructor
  · intro owned
    exact owned.imp fun self input each event member =>
      Event.spares_of_owned (gossipStep_placed input self event member) (each event member)
  · intro spares
    refine Machine.along_of_invariant ?_ ?_ sound (fit.and spares)
    · exact fun self input holds steps => (gossipStep_sound input self holds steps.1 steps.2).1
    · exact fun self input holds steps => (gossipStep_sound input self holds steps.1 steps.2).2

/-- A member on the local host. -/
def localMember (port : UInt8) : ClusterMember := ⟨1, 7, loopback port, by simp [loopback]⟩

/-- The hello of a member. -/
def greeting (member : ClusterMember) : Message :=
  .hello ⟨messageHeaderInit messageHelloType 1, member⟩

/-- A node that knows two members, and sent a payload to both of them at time zero. -/
def twoMembers : List Input :=
  [.join [],
    (Message.memberList ⟨messageHeaderInit messageMemberListType 9,
      [localMember 2, localMember 3], by simp⟩).arrivesFrom 2,
    .sendData [1] noRandom, .processSend (fun _ => 0) (fun _ => 0)]

/-- The payload reaches both members in a run that leaves room in the output buffer. -/
theorem outbound_owned_two :
    (Machine.trace gossipStep twoMembers (localNode 1)).length = 6 ∧
      ∀ event ∈ Machine.trace gossipStep twoMembers (localNode 1), event.Owned :=
  ⟨by decide +kernel,
    (outbound_owned_iff (loopback 1) (by simp [loopback, sockaddrStorageSize]) 5000 true .zero
      twoMembers (by decide +kernel)).mpr (by decide +kernel)⟩

/--
The second member is tried again when the first one is not due yet.

Then a rumor keeps coming in, and its acknowledgements fill the output buffer.
The last of them reclaims the slot from the second member, although the first one still refers to it.
-/
def reclaiming : List Input :=
  twoMembers ++ [.processSend (fun reading => if reading = 0 then 9999 else 10000) (fun _ => 0)] ++
    List.replicate 99 ((rumor 7 1 2).arrivesFrom 2) ++ [.processSend (fun _ => 10000) (fun _ => -1)]

/-- A member is sent the bytes of another message than its envelope was made for. -/
theorem outbound_not_owned :
    ¬∀ event ∈ Machine.trace gossipStep reclaiming (localNode 1), event.Faithful := by
  decide +kernel

end Pittacus
