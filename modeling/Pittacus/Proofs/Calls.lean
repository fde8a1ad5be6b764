import Pittacus.Proofs.Stages

/-! What every call other than a round of sending comes down to, for the queue and the members. -/

namespace Pittacus

open Routine

/-- An event that concerns neither the outbound queue nor the socket. -/
def Event.Local : Event → Prop
  | .log _ | .receive _ _ => True
  | _ => False

/-- A change of the node that touches neither its queue nor its members, with its events. -/
structure SameContacts (before : PittacusGossip) (events : List Event) (after : PittacusGossip) :
    Prop where
  queue : after.outboundMessages = before.outboundMessages
  counter : after.sequenceNum = before.sequenceNum
  members : after.members = before.members
  quiet : ∀ event ∈ events, event.Local

/-- The relation is met by spreading data as well, and by all that leaves queue and members alone. -/
structure Workload (scope : Scope)
    (relation : PittacusGossip → List Event → PittacusGossip → Prop) : Prop
    extends Chores scope relation where
  spread : ∀ msg random, Meets relation (gossipEnqueueMessage (.data msg) [] .random random)
  same : ∀ before events after, SameContacts before events after → relation before events after

/-- Whatever a call brings, names and is answered with is within a scope. -/
def Input.Within (scope : Scope) : Input → Prop
  | .join seedNodes => ∀ seed ∈ seedNodes, ∀ msg, scope.direct (.hello msg) seed
  | .processReceive datagram sender beyond _ => (envelopeOf datagram sender beyond).Within scope
  | _ => True

/-- A call that sends what is queued. -/
def Input.Sends : Input → Prop
  | .processSend _ _ => True
  | _ => False

/-- Within the scope of everything, so is every call. -/
theorem Input.within_any (input : Input) : input.Within Scope.any := by
  cases input with
  | join seedNodes => exact fun _ _ _ => trivial
  | processReceive datagram sender beyond random => exact MessageEnvelopeIn.within_any _
  | sendData data random => trivial
  | tick now random => trivial
  | processSend times results => trivial

namespace Workload

variable {scope : Scope} {relation : PittacusGossip → List Event → PittacusGossip → Prop}

/-- Moving on to another stage concerns neither of them. -/
theorem enters (work : Workload scope relation) (state : PittacusGossipState) :
    Meets relation (enterState state) :=
  fun _ => work.same _ _ _ ⟨rfl, rfl, rfl, List.forall_mem_nil _⟩

/-- Taking over a message does not concern them either. -/
theorem adopts (work : Workload scope relation) (self : PittacusGossip) (msg : MessageData) :
    relation self (adoptionEvents self.dataReceiver msg) (self.adopting msg) := by
  refine work.same _ _ _ ⟨rfl, rfl, rfl, ?_⟩
  unfold adoptionEvents
  split
  · exact List.forall_mem_cons.mpr ⟨trivial, List.forall_mem_singleton.mpr trivial⟩
  · exact List.forall_mem_singleton.mpr trivial

/-- A data message is acknowledged, and spread if it is new. -/
theorem handleData (work : Workload scope relation) (envelopeIn : MessageEnvelopeIn)
    (random : Nat → UInt32) (within : envelopeIn.Within scope) :
    Meets relation (gossipHandleData envelopeIn random) := by
  rw [gossipHandleData_eq]
  apply work.ifConnected
  cases decoded : (messageDataDecode envelopeIn.bufferSize).result envelopeIn.buffer with
  | error code => exact meets_pure work.chains _
  | ok found =>
    have answer := within.answers.data _ _ decoded
    refine meets_bind work.chains (work.enqueueAck answer) fun _ acked => ?_
    rw [takeData_run]
    -- Data that is not new is acknowledged again, and leads to nothing else.
    split
    · exact work.chains.join (work.adopts acked found.2) (work.spread found.2 random _)
    · exact work.chains.rest acked

/-- Every call other than a round of sending is made of these steps. -/
theorem step (work : Workload scope relation) {input : Input} (within : input.Within scope)
    (handles : ¬input.Sends) : Meets relation (gossipStep input) := by
  cases input with
  | join seedNodes => exact work.join (work.enters _) (work.enters _) within
  | tick now random =>
    exact work.tick now random fun _ =>
      work.same _ _ _ ⟨rfl, rfl, rfl, List.forall_mem_nil _⟩
  | sendData data random =>
    refine work.ifConnected fun self => ?_
    -- Numbering a payload and adopting it changes nothing the work is about.
    have counted : relation self []
        (({ self with dataCounter := self.dataCounter + 1 } : PittacusGossip).adopting
          (self.ownMessage data)) :=
      work.same _ _ _ ⟨rfl, rfl, rfl, List.forall_mem_nil _⟩
    rw [gossipEnqueueData_run]
    exact work.chains.join counted (work.spread (self.ownMessage data) random _)
  | processReceive datagram sender beyond random =>
    exact pittacusGossipProcessReceive_meets work.chains datagram sender beyond random
      (work.handleNewMessage (work.enters _) _ within random
        fun _ => work.handleData _ random within)
  | processSend times results => exact absurd trivial handles

end Workload

/-! ### Members -/

/-- Members are put into the set, all of them newcomers of a scope. -/
def Enlists (scope : Scope) (before : PittacusGossip) (_ : List Event) (after : PittacusGossip) :
    Prop :=
  ∃ lists, after.members = List.foldl clusterMemberSetPut before.members lists ∧
    ∀ list ∈ lists, ∀ member ∈ list, scope.newcomer member

theorem enlists_chains (scope : Scope) : Chains (Enlists scope) where
  rest self := ⟨[], rfl, List.forall_mem_nil _⟩
  join := by
    rintro first middle last early late ⟨lists, left, new⟩ ⟨lists_, right, new_⟩
    refine ⟨lists ++ lists_, ?_, List.forall_mem_append.mpr ⟨new, new_⟩⟩
    rw [right, left, List.foldl_append]

/-- A change that leaves the members alone enlists nobody. -/
theorem enlists_of_same (scope : Scope) {before after : PittacusGossip} {events : List Event}
    (members : after.members = before.members) : Enlists scope before events after :=
  ⟨[], members, List.forall_mem_nil _⟩

/-- Queueing a message enlists nobody. -/
theorem gossipEnqueueMessage_enlists (scope : Scope) (message : Message) (recipient : List UInt8)
    (spreading : GossipSpreadingType) (random : Nat → UInt32) :
    Meets (Enlists scope) (gossipEnqueueMessage message recipient spreading random) :=
  fun self =>
    enlists_of_same scope (gossipEnqueueMessage_same message recipient spreading random self).members

/-- Remembering members enlists them. -/
theorem rememberMembers_enlists {scope : Scope} {newMembers : List ClusterMember}
    (new : ∀ member ∈ newMembers, scope.newcomer member) :
    Meets (Enlists scope) (rememberMembers newMembers) :=
  fun _ => ⟨[newMembers], rfl, List.forall_mem_singleton.mpr new⟩

/-- Every call other than a round of sending enlists newcomers only. -/
theorem enlists_work (scope : Scope) : Workload scope (Enlists scope) where
  chains := enlists_chains scope
  enqueue self message recipient spreading random _ _ _ :=
    gossipEnqueueMessage_enlists scope message recipient spreading random self
  acknowledge sequenceNum _ self :=
    enlists_of_same scope (gossipEnvelopeAcknowledge_members sequenceNum self)
  remember _ new := rememberMembers_enlists new
  introduce _ new :=
    meets_bind (enlists_chains scope) (gossipEnqueueMessage_enlists scope _ _ _ _) fun _ =>
      rememberMembers_enlists (List.forall_mem_singleton.mpr new)
  spread _ _ := gossipEnqueueMessage_enlists scope _ _ _ _
  same _ _ _ same := enlists_of_same scope same.members

end Pittacus
