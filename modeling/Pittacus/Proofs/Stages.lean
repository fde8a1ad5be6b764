import Pittacus.Proofs.Handlers
import Pittacus.Proofs.Sending

/-! The stages a node goes through, and the calls that move it from one to the next. -/

namespace Pittacus

open Routine

/-! ### What leaves the stage alone -/

/-- Queueing a message leaves a node at the stage it is in. -/
theorem gossipEnqueueMessage_stage (message : Message) (recipient : List UInt8)
    (spreading : GossipSpreadingType) (random : Nat → UInt32) :
    Meets (Frames PittacusGossip.state) (gossipEnqueueMessage message recipient spreading random) :=
  fun self => (gossipEnqueueMessage_same message recipient spreading random self).state

/-- So do the steps handlers are made of. -/
theorem stage_chores : Chores Scope.any (Frames PittacusGossip.state) where
  chains := frames_chains PittacusGossip.state
  enqueue self message recipient spreading random _ _ _ :=
    gossipEnqueueMessage_stage message recipient spreading random self
  acknowledge sequenceNum _ self := by
    unfold gossipEnvelopeAcknowledge
    rw [get_bind_run]
    cases gossipEnvelopeFindBySequenceNum self.outboundMessages sequenceNum with
    | none => rfl
    | some envelope => rfl
  remember newMembers _ self := rfl
  introduce member _ :=
    meets_bind (frames_chains _) (gossipEnqueueMessage_stage _ _ _ _) fun _ self => rfl

/-- Handling a data message does not change the stage the node is in. -/
theorem gossipHandleData_stage (envelopeIn : MessageEnvelopeIn) (random : Nat → UInt32) :
    Meets (Frames PittacusGossip.state) (gossipHandleData envelopeIn random) := by
  rw [gossipHandleData_eq]
  apply stage_chores.ifConnected
  cases (messageDataDecode envelopeIn.bufferSize).result envelopeIn.buffer with
  | error code => exact meets_pure stage_chores.chains _
  | ok found =>
    refine meets_bind stage_chores.chains (stage_chores.enqueueAck trivial) fun _ acked => ?_
    rw [takeData_run]
    -- Adopting data is no matter of the stage.
    split
    · exact gossipEnqueueMessage_stage _ _ _ _ (acked.adopting found.2)
    · exact stage_chores.chains.rest acked

/-- Nor does sending what is queued. -/
theorem stage_sending (stage : PittacusGossipState) :
    KeepsSending (fun self => self.state = stage) fun _ => True where
  drop _ _ _ _ same _ := same
  forget _ _ _ same := same
  send _ _ _ _ _ _ same _ := ⟨same, trivial⟩
  attempt _ _ _ _ _ same _ := same
  remove _ _ := trivial

/-! ### Welcomes -/

/-- The welcome a datagram is accepted as. -/
def welcomeReceived (datagram : List UInt8) (beyond : Nat → UInt8) :
    Option (MessageWelcome ClusterMember) :=
  let received := datagram.take messageMaxSize
  match (messageWelcomeDecode received.length).result (Decoder.memoryOf received beyond) with
  | .ok (_, msg) => some (msg.load (Decoder.memoryOf received beyond))
  | .error _ => none

/-- The welcome a call receives, if it receives one. -/
def Input.welcome : Input → Option (MessageWelcome ClusterMember)
  | .processReceive datagram _ beyond _ => welcomeReceived datagram beyond
  | _ => none

/-- The stage a call leads to, and what it takes to get there. -/
inductive LeadsTo (self : PittacusGossip) (input : Input) : PittacusGossipState → Prop
  | stays : LeadsTo self input self.state
  /-- A node starts a cluster of its own. -/
  | starts : self.state = .initialized → input = .join [] → LeadsTo self input .connected
  /-- A node introduces itself to the seed nodes. -/
  | joins (seedNodes : List (List UInt8)) : self.state = .initialized →
      input = .join seedNodes → seedNodes ≠ [] → LeadsTo self input .joining
  /-- A seed node answers. -/
  | admitted (msg : MessageWelcome ClusterMember) : self.exchanges = true →
      input.welcome = some msg → LeadsTo self input .connected

/-- An accepted welcome makes the node connected; nothing else that arrives changes its stage. -/
theorem gossipHandleNewMessage_stage (envelopeIn : MessageEnvelopeIn) (random : Nat → UInt32)
    (self : PittacusGossip) :
    (gossipHandleNewMessage envelopeIn random self).state.state = self.state ∨
      (gossipHandleNewMessage envelopeIn random self).state.state = .connected ∧
        ∃ decoded, (messageWelcomeDecode envelopeIn.bufferSize).result envelopeIn.buffer
          = .ok decoded := by
  have anyone := envelopeIn.within_any
  unfold gossipHandleNewMessage
  cases (messageTypeDecode envelopeIn.bufferSize).result envelopeIn.buffer with
  | error code => exact .inl rfl
  | ok messageType =>
    simp only [ite_run]
    split
    · exact .inl (stage_chores.handleHello envelopeIn anyone self)
    split
    · -- The one handler without a check of the stage.
      unfold gossipHandleWelcome
      cases decoded : (messageWelcomeDecode envelopeIn.bufferSize).result envelopeIn.buffer with
      | error code => exact .inl rfl
      | ok found => exact .inr ⟨(stage_chores.acknowledge _ trivial _), found, rfl⟩
    split
    · exact .inl (stage_chores.handleMemberList envelopeIn anyone self)
    split
    · exact .inl (gossipHandleData_stage envelopeIn random self)
    split
    · exact .inl (stage_chores.handleAck envelopeIn anyone self)
    split
    · exact .inl (stage_chores.handleStatus envelopeIn anyone self)
    · exact .inl rfl

/-- A handler that asks for a connection does nothing without one. -/
theorem returnIfNotConnected_apart (handler : Routine PittacusGossip Event Int)
    {self : PittacusGossip} (apart : self.state ≠ .connected) :
    returnIfNotConnected handler self = ⟨PittacusError.badState.code, self, []⟩ := by
  rw [returnIfNotConnected, Routine.get_bind_run, if_pos apart]
  rfl

/-- Before it is connected, a node only listens to welcomes. -/
theorem gossipHandleNewMessage_deaf {self : PittacusGossip} (apart : self.state ≠ .connected)
    (envelopeIn : MessageEnvelopeIn) (random : Nat → UInt32) :
    (∃ code, gossipHandleNewMessage envelopeIn random self = ⟨code, self, []⟩) ∨
      (∃ found, (messageWelcomeDecode envelopeIn.bufferSize).result envelopeIn.buffer
        = .ok found) ∧
        (gossipHandleNewMessage envelopeIn random self).state.state = .connected := by
  unfold gossipHandleNewMessage
  cases (messageTypeDecode envelopeIn.bufferSize).result envelopeIn.buffer with
  | error code => exact .inl ⟨_, rfl⟩
  | ok messageType =>
    simp only [ite_run, gossipHandleHello, gossipHandleMemberList, gossipHandleData,
      gossipHandleAck, gossipHandleStatus, returnIfNotConnected_apart _ apart]
    split
    · exact .inl ⟨_, rfl⟩
    split
    · -- The one handler without a check of the stage.
      unfold gossipHandleWelcome
      cases (messageWelcomeDecode envelopeIn.bufferSize).result envelopeIn.buffer with
      | error code => exact .inl ⟨_, rfl⟩
      | ok found => exact .inr ⟨⟨found, rfl⟩, stage_chores.acknowledge _ trivial _⟩
    repeat' split
    all_goals exact .inl ⟨_, rfl⟩

/-- Introducing a node to seed nodes either fails on the way, or makes it a joining one. -/
theorem gossipEnqueueHellos_stage (seedNodes : List (List UInt8)) (self : PittacusGossip) :
    (gossipEnqueueHellos seedNodes self).state.state = self.state ∨
      (gossipEnqueueHellos seedNodes self).state.state = .joining := by
  induction seedNodes generalizing self with
  | nil => exact .inr rfl
  | cons seed rest ih =>
    have greeted : (gossipEnqueueHello seed self).state.state = self.state :=
      stage_chores.enqueueHello (fun _ => trivial) self
    simp only [gossipEnqueueHellos, bind_run, ite_run]
    -- A hello that cannot be queued ends the introduction at the stage it began.
    split
    · exact .inl greeted
    · rw [← greeted]
      exact ih _

/-- Every call leads to a stage it may lead to. -/
theorem gossipStep_stage (input : Input) (self : PittacusGossip) :
    LeadsTo self input (gossipStep input self).state.state := by
  have stays : ∀ {stage}, stage = self.state → LeadsTo self input stage := by
    rintro stage rfl
    exact .stays
  -- Joining and a welcome are the only calls that move a node on.
  cases input with
  | join seedNodes =>
    simp only [gossipStep, pittacusGossipJoin, get_bind_run, ite_run]
    split
    · exact .stays
    · rename_i fresh
      have fresh := not_not.mp fresh
      split
      · rename_i empty
        exact .starts fresh (by rw [List.isEmpty_iff.mp empty])
      · rename_i some_
        rcases gossipEnqueueHellos_stage seedNodes self with same | joined
        · exact stays same
        · rw [joined]
          exact .joins seedNodes fresh rfl (by simpa using some_)
  | sendData data random =>
    refine stays ?_
    have kept : Meets (Frames PittacusGossip.state) (pittacusGossipSendData data random) := by
      apply stage_chores.ifConnected
      intro state
      rw [gossipEnqueueData_run]
      exact gossipEnqueueMessage_stage (.data (state.ownMessage data)) [] .random random
        (({ state with dataCounter := state.dataCounter + 1 } : PittacusGossip).adopting
          (state.ownMessage data))
    exact kept self
  | tick now random => exact stays (stage_chores.tick now random (fun _ => rfl) self)
  | processSend times results =>
    exact stays ((stage_sending self.state).processSend times results self rfl).1
  | processReceive datagram sender beyond random =>
    simp only [gossipStep, pittacusGossipProcessReceive, get_bind_run, ite_run]
    split
    · exact .stays
    · rename_i listens
      split
      · exact .stays
      · rcases gossipHandleNewMessage_stage (envelopeOf datagram sender beyond) random self with
          same | ⟨connected, found, decoded⟩
        · exact stays same
        · -- The welcome the handler decoded is the one the input is said to carry.
          have welcomed : (Input.processReceive datagram sender beyond random).welcome =
              some (found.2.load (envelopeOf datagram sender beyond).buffer) := by
            have decoded : (messageWelcomeDecode (datagram.take messageMaxSize).length).result
                (Decoder.memoryOf (datagram.take messageMaxSize) beyond) = .ok found := decoded
            rw [Input.welcome, welcomeReceived, decoded]
            rfl
          have target : (gossipHandleNewMessage (envelopeOf datagram sender beyond) random
              self).state.state = .connected := connected
          exact target ▸ .admitted _ (by simpa using listens) welcomed

/-- A node that is connected stays connected. -/
theorem connected_step {self : PittacusGossip} (connected : self.state = .connected)
    (input : Input) : (gossipStep input self).state.state = .connected := by
  have leads := gossipStep_stage input self
  generalize (gossipStep input self).state.state = stage at leads
  cases leads with
  | stays => exact connected
  | starts _ _ => rfl
  | joins seedNodes fresh _ _ => rw [connected] at fresh; cases fresh
  | admitted _ _ _ => rfl

/-- It does so for the rest of its run. -/
theorem connected_run {self : PittacusGossip} (connected : self.state = .connected)
    (inputs : List Input) : (Machine.run gossipStep inputs self).state = .connected := by
  induction inputs generalizing self with
  | nil => exact connected
  | cons input rest ih => exact ih (connected_step connected input)

end Pittacus
