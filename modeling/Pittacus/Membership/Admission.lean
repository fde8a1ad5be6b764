import Pittacus.Knowledge.Refinement
import Pittacus.Ownership.Runs
import Pittacus.Proofs.Stages

/-! Until a cluster admits it, a node knows nothing and sends nothing but introductions. -/

namespace Pittacus

/-! ### Seed nodes -/

/-- The seed nodes a call joins through, if it joins. -/
def Input.seeds : Input → Option (List (List UInt8))
  | .join seedNodes => some seedNodes
  | _ => none

/-- The seed nodes a node joins through: those of the first call to join. -/
def seedNodesOf (inputs : List Input) : List (List UInt8) :=
  (inputs.findSome? Input.seeds).getD []

/-- The message a node introduces itself with. -/
def PittacusGossip.introduction (node : PittacusGossip) : Message :=
  .hello ⟨messageHeaderInit messageHelloType 0, node.selfAddress⟩

/-- A queued envelope introduces the node to a seed node, and its slot holds that introduction. -/
structure Introduces (seedNodes : List (List UInt8)) (node : PittacusGossip)
    (envelope : MessageEnvelopeOut) : Prop where
  recipient : envelope.recipient ∈ seedNodes
  message : envelope.message = node.introduction
  datagram : envelopeBytes (patchSequenceNum node.outputBuffer envelope) envelope
    = node.introduction.datagram envelope.sequenceNum

/-- Nothing has happened to a node besides introducing itself. -/
structure PittacusGossip.Unadmitted (seedNodes : List (List UInt8)) (node : PittacusGossip) :
    Prop where
  members : node.members.size = 0
  clock : node.dataVersion.size = 0
  log : node.dataLog.size = 0
  counter : node.dataCounter = 0
  queue : ∀ envelope ∈ node.outboundMessages, Introduces seedNodes node envelope

/-! ### Waiting for an answer -/

/-- A node that is not admitted yet, in working order, with a slot for each introduction. -/
structure Waiting (seedNodes : List (List UInt8)) (node : PittacusGossip) : Prop where
  members : node.members.size = 0
  clock : node.dataVersion.size = 0
  log : node.dataLog.size = 0
  counter : node.dataCounter = 0
  queue : ∀ envelope ∈ node.outboundMessages,
    envelope.recipient ∈ seedNodes ∧ envelope.message = node.introduction
  sound : node.Sound
  apart : (node.outboundMessages.map (·.buffer)).Nodup

/-- What lies in the slots of a waiting node are its introductions. -/
theorem Waiting.unadmitted {seedNodes : List (List UInt8)} {node : PittacusGossip}
    (waiting : Waiting seedNodes node) : node.Unadmitted seedNodes where
  members := waiting.members
  clock := waiting.clock
  log := waiting.log
  counter := waiting.counter
  queue envelope member := by
    obtain ⟨recipient, message⟩ := waiting.queue envelope member
    refine ⟨recipient, message, ?_⟩
    rw [← message]
    exact (waiting.sound.owns.stored envelope member).sent

/-- Where no two envelopes share a slot, reclaiming one takes it from nobody else. -/
theorem spares_of_nodup {queue : List MessageEnvelopeOut}
    (apart : (queue.map (·.buffer)).Nodup) : Spares queue := by
  intro _ ahead oldest behind whole _ envelope member same
  rw [whole, List.map_append, List.map_cons] at apart
  -- The slot of the envelope ahead would occur again behind it.
  have disjoint := (List.nodup_append.mp apart).2.2
  exact disjoint _ (List.mem_map_of_mem member) _ List.mem_cons_self same

/-- Every introduction of a node in working order fits the output buffer. -/
theorem PittacusGossip.Sound.introduces {node : PittacusGossip} (sound : node.Sound) :
    node.introduction.Fits ∧ node.introduction.required ≤ messageMaxSize := by
  have short := sound.addressed
  refine ⟨⟨List.forall_mem_singleton.mpr short, trivial⟩, ?_⟩
  simp only [PittacusGossip.introduction, Message.required, messageHeaderSize,
    clusterMemberStructSize, pointerSize, messageMaxSize, sockaddrStorageSize] at short ⊢
  omega

/-- A waiting node introduces itself to one more seed node, and goes on waiting. -/
theorem Waiting.hello {seedNodes : List (List UInt8)} {node : PittacusGossip}
    (waiting : Waiting seedNodes node) {seed : List UInt8} (listed : seed ∈ seedNodes) :
    (gossipEnqueueHello seed node).value = errNone ∧
      Waiting seedNodes (gossipEnqueueHello seed node).state := by
  obtain ⟨fits, room⟩ := waiting.sound.introduces
  have spares := spares_of_nodup waiting.apart
  have greets : gossipEnqueueHello seed node =
      gossipEnqueueMessage node.introduction seed .direct noRandom node := rfl
  obtain ⟨owns, -⟩ := waiting.sound.owns.enqueue fits spares seed .direct noRandom
  obtain ⟨-, kept, free⟩ := placement_spares
    (fun envelope member => (waiting.sound.owns.stored envelope member).slotted)
    waiting.sound.owns.grouped spares
  rw [greets]
  rw [gossipEnqueueMessage_accepted fits room] at owns ⊢
  refine ⟨rfl, ⟨waiting.members, waiting.clock, waiting.log, waiting.counter, ?_, ?_, ?_⟩⟩
  · intro envelope member
    rcases List.mem_append.mp member with old | new
    · exact waiting.queue envelope (kept.subset old)
    · cases List.mem_singleton.mp new
      exact ⟨listed, rfl⟩
  · exact ⟨owns, waiting.sound.members, waiting.sound.clock, waiting.sound.addressed⟩
  · -- The slot taken is none of those that are left.
    have apart := waiting.apart.sublist (kept.map (·.buffer))
    show (List.map _ (_ ++ _)).Nodup
    rw [List.map_append]
    refine List.nodup_append.mpr ⟨apart, List.nodup_singleton _, ?_⟩
    intro slot taken other own same
    obtain ⟨envelope, member, rfl⟩ := List.mem_map.mp taken
    exact free envelope member (same.trans (List.mem_singleton.mp own))

/-- The stage says nothing about what a node waits with. -/
theorem Waiting.enter {seedNodes : List (List UInt8)} {node : PittacusGossip}
    (waiting : Waiting seedNodes node) (stage : PittacusGossipState) :
    Waiting seedNodes { node with state := stage } where
  members := waiting.members
  clock := waiting.clock
  log := waiting.log
  counter := waiting.counter
  queue := waiting.queue
  sound := ⟨⟨waiting.sound.owns.stored, waiting.sound.owns.grouped⟩, waiting.sound.members,
    waiting.sound.clock, waiting.sound.addressed⟩
  apart := waiting.apart

/-- Having introduced itself to all seed nodes, a node is joining. -/
theorem Waiting.hellos {seedNodes : List (List UInt8)} (rest : List (List UInt8))
    (listed : ∀ seed ∈ rest, seed ∈ seedNodes) {node : PittacusGossip}
    (waiting : Waiting seedNodes node) :
    (gossipEnqueueHellos rest node).state.state = .joining ∧
      Waiting seedNodes (gossipEnqueueHellos rest node).state := by
  induction rest generalizing node with
  | nil => exact ⟨rfl, waiting.enter .joining⟩
  | cons seed rest ih =>
    obtain ⟨greeted, waits⟩ := waiting.hello (listed seed List.mem_cons_self)
    have others : ∀ other ∈ rest, other ∈ seedNodes :=
      fun other member => listed other (List.mem_cons_of_mem _ member)
    -- A hello is queued without an error, so the next seed node is greeted as well.
    have next : gossipEnqueueHellos (seed :: rest) node =
        ⟨(gossipEnqueueHellos rest (gossipEnqueueHello seed node).state).value,
          (gossipEnqueueHellos rest (gossipEnqueueHello seed node).state).state,
          (gossipEnqueueHello seed node).events ++
            (gossipEnqueueHellos rest (gossipEnqueueHello seed node).state).events⟩ := by
      rw [gossipEnqueueHellos, Routine.bind_run, greeted, if_neg (by decide)]
    rw [next]
    exact ih others waits

/-- Sending introductions, and giving up on some, leaves the others as they are. -/
theorem waiting_sending (seedNodes : List (List UInt8)) :
    KeepsSending (Waiting seedNodes) fun _ => True where
  drop self front current back waiting whole := by
    have kept : (front ++ back).Sublist self.outboundMessages := by
      rw [whole]
      exact (List.sublist_cons_self current back).append_left front
    exact ⟨waiting.members, waiting.clock, waiting.log, waiting.counter,
      fun envelope member => waiting.queue envelope (kept.subset member),
      sound_sending.drop self front current back waiting.sound whole,
      waiting.apart.sublist (kept.map _)⟩
  forget self address addressSize waiting := by
    -- There is no member to be found.
    have none_ : self.members.live = [] := by
      rw [ClusterMemberSet.live, waiting.members]
      rfl
    have same : clusterMemberSetRemoveByAddr self.unset self.members address addressSize
        = self.members := by
      rw [clusterMemberSetRemoveByAddr, clusterMemberSetFindByAddr, none_]
      rfl
    rw [same]
    exact waiting
  send self front current back now result waiting whole :=
    ⟨⟨waiting.members, waiting.clock, waiting.log, waiting.counter, waiting.queue,
      (sound_sending.send self front current back now result waiting.sound whole).1,
      waiting.apart⟩, trivial⟩
  attempt self front current back now waiting whole := by
    have keys : (front ++ { current with
        attemptTs := now, attemptNum := current.attemptNum + 1 } :: back).map (·.buffer)
        = self.outboundMessages.map (·.buffer) := by
      rw [whole]
      simp
    refine ⟨waiting.members, waiting.clock, waiting.log, waiting.counter, ?_,
      sound_sending.attempt self front current back now waiting.sound whole, ?_⟩
    · have introduces := waiting.queue
      rw [whole] at introduces
      intro envelope member
      rcases List.mem_append.mp member with early | late
      · exact introduces envelope (List.mem_append_left _ early)
      · rcases List.mem_cons.mp late with rfl | late
        · exact introduces current (List.mem_append_right _ List.mem_cons_self)
        · exact introduces envelope (List.mem_append_right _ (List.mem_cons_of_mem _ late))
    · show List.Nodup _
      rw [keys]
      exact waiting.apart
  remove envelope reason := trivial

/-! ### Calls before admission -/

/-- Before it is connected, a node is only changed by the welcome that connects it. -/
theorem gossipHandleNewMessage_apart (envelopeIn : MessageEnvelopeIn) (random : Nat → UInt32)
    {self : PittacusGossip} (apart : self.state ≠ .connected)
    (after : (gossipHandleNewMessage envelopeIn random self).state.state ≠ .connected) :
    (gossipHandleNewMessage envelopeIn random self).state = self := by
  rcases gossipHandleNewMessage_deaf apart envelopeIn random with ⟨code, same⟩ | ⟨-, connected⟩
  · rw [same]
  · exact absurd connected after

/-- A node that introduced itself goes on waiting until it is connected. -/
theorem Waiting.step {seedNodes : List (List UInt8)} {self : PittacusGossip}
    (waiting : Waiting seedNodes self) (stage : self.state = .joining) (input : Input)
    (after : (gossipStep input self).state.state ≠ .connected) :
    Waiting seedNodes (gossipStep input self).state := by
  have apart : self.state ≠ .connected := by
    rw [stage]
    decide
  -- Every call but a welcome that is accepted leaves a joining node as it is.
  cases input with
  | join other =>
    have refused : pittacusGossipJoin other self = ⟨PittacusError.badState.code, self, []⟩ := by
      rw [pittacusGossipJoin, Routine.get_bind_run, if_pos (by rw [stage]; decide)]
      rfl
    rw [gossipStep, refused]
    exact waiting
  | sendData data random =>
    rw [gossipStep, pittacusGossipSendData, returnIfNotConnected_apart _ apart]
    exact waiting
  | tick now random =>
    have idle : pittacusGossipTick now random self = ⟨(gossipTickInterval : Int), self, []⟩ := by
      rw [pittacusGossipTick, Routine.get_bind_run, if_pos apart]
      rfl
    rw [gossipStep, idle]
    exact waiting
  | processSend times results =>
    exact ((waiting_sending seedNodes).processSend times results self waiting).1
  | processReceive datagram sender beyond random =>
    revert after
    simp only [gossipStep, pittacusGossipProcessReceive, Routine.get_bind_run, Routine.ite_run]
    split
    · exact fun _ => waiting
    split
    · exact fun _ => waiting
    · intro after
      have same := gossipHandleNewMessage_apart (envelopeOf datagram sender beyond) random apart
        after
      exact same.symm ▸ waiting

/-- It stays at that stage as long as it waits. -/
theorem joining_step {self : PittacusGossip} (stage : self.state = .joining) (input : Input)
    (after : (gossipStep input self).state.state ≠ .connected) :
    (gossipStep input self).state.state = .joining := by
  have leads := gossipStep_stage input self
  generalize (gossipStep input self).state.state = reached at leads after
  -- Of the ways to another stage only the one to joining is left.
  cases leads with
  | stays => exact stage
  | starts _ _ => exact absurd rfl after
  | joins other fresh _ _ => rfl
  | admitted _ _ _ => exact absurd rfl after

/-- Whatever is done with a node before it joins is refused. -/
theorem initialized_step {self : PittacusGossip} (stage : self.state = .initialized)
    (input : Input) (other : input.seeds = none) : (gossipStep input self).state = self := by
  have apart : self.state ≠ .connected := by
    rw [stage]
    decide
  have deaf : (!self.exchanges) = true := by
    rw [PittacusGossip.exchanges, stage]
    rfl
  -- Every call but joining asks for a later stage first.
  cases input with
  | join seedNodes => cases other
  | sendData data random =>
    rw [gossipStep, pittacusGossipSendData, returnIfNotConnected_apart _ apart]
  | tick now random =>
    rw [gossipStep, pittacusGossipTick, Routine.get_bind_run, if_pos apart]
    rfl
  | processSend times results =>
    rw [gossipStep, pittacusGossipProcessSend, Routine.get_bind_run, if_pos deaf]
    rfl
  | processReceive datagram sender beyond random =>
    rw [gossipStep, pittacusGossipProcessReceive, Routine.get_bind_run, if_pos deaf]
    rfl

/-- Joining through seed nodes makes a new node wait for them. -/
theorem Waiting.joins {self : PittacusGossip} (waiting : Waiting [] self)
    (stage : self.state = .initialized) {seedNodes : List (List UInt8)} (some_ : seedNodes ≠ []) :
    (gossipStep (.join seedNodes) self).state.state = .joining ∧
      Waiting seedNodes (gossipStep (.join seedNodes) self).state := by
  -- Nothing is queued yet, so whatever is queued goes to a seed node.
  have waits : Waiting seedNodes self :=
    { waiting with
      queue := fun envelope member =>
        absurd (waiting.queue envelope member).1 List.not_mem_nil }
  have fresh : ¬self.state ≠ .initialized := fun other => other stage
  have listed : ¬seedNodes.isEmpty = true := by simpa using some_
  rw [gossipStep, pittacusGossipJoin, Routine.get_bind_run, if_neg fresh, if_neg listed]
  exact waits.hellos seedNodes fun _ member => member

/-! ### Runs -/

/-- What a run has come to: the node is connected, or waits for the seed nodes it was given. -/
inductive Standing (seedNodes : List (List UInt8)) (node : PittacusGossip) : Prop where
  | connected : node.state = .connected → Standing seedNodes node
  | waiting : node.state = .initialized ∨ node.state = .joining → Waiting seedNodes node →
      Standing seedNodes node

/-- A node that introduced itself to seed nodes is connected one day, or waits for them still. -/
theorem Waiting.run {seedNodes : List (List UInt8)} {self : PittacusGossip}
    (waiting : Waiting seedNodes self) (stage : self.state = .joining) (inputs : List Input) :
    Standing seedNodes (Machine.run gossipStep inputs self) := by
  induction inputs generalizing self with
  | nil => exact .waiting (.inr stage) waiting
  | cons input rest ih =>
    by_cases after : (gossipStep input self).state.state = .connected
    · exact .connected (connected_run after rest)
    · exact ih (waiting.step stage input after) (joining_step stage input after)

/-- A new node is connected one day, or waits for the seed nodes it joined through. -/
theorem Waiting.run_new {self : PittacusGossip} (waiting : Waiting [] self)
    (stage : self.state = .initialized) (inputs : List Input) :
    Standing (seedNodesOf inputs) (Machine.run gossipStep inputs self) := by
  -- Up to the first call to join, nothing happens.
  induction inputs with
  | nil => exact .waiting (.inl stage) waiting
  | cons input rest ih =>
    cases first : input.seeds with
    | none =>
      have seeds : seedNodesOf (input :: rest) = seedNodesOf rest := by
        rw [seedNodesOf, List.findSome?_cons, first, seedNodesOf]
      rw [seeds, Machine.run, initialized_step stage input first]
      exact ih
    | some seedNodes =>
      have seeds : seedNodesOf (input :: rest) = seedNodes := by
        rw [seedNodesOf, List.findSome?_cons, first, Option.getD_some]
      have joins : input = .join seedNodes := by
        cases input with
        | join other =>
          cases first
          rfl
        | _ => cases first
      rw [seeds, Machine.run, joins]
      by_cases alone : seedNodes = []
      · refine .connected (connected_run ?_ rest)
        have fresh : ¬self.state ≠ .initialized := fun other => other stage
        rw [alone, gossipStep, pittacusGossipJoin, Routine.get_bind_run, if_neg fresh]
        rfl
      · obtain ⟨joining, waits⟩ := waiting.joins stage alone
        exact waits.run joining rest

/-- A new node waits, for nobody yet. -/
theorem NodeSetup.waiting (setup : NodeSetup) : Waiting [] setup.node where
  members := rfl
  clock := rfl
  log := rfl
  counter := rfl
  queue _ member := absurd member List.not_mem_nil
  sound := create_sound setup.selfAddress setup.bounded setup.now setup.dataReceiver setup.fresh
  apart := List.nodup_nil

/-- Nothing is delivered by a run that does not make the node connected. -/
theorem no_delivery_apart (inputs : List Input) (self : PittacusGossip)
    (apart : (Machine.run gossipStep inputs self).state ≠ .connected) :
    (Machine.trace gossipStep inputs self).filterMap Event.asDelivery = [] := by
  induction inputs generalizing self with
  | nil => rfl
  | cons input rest ih =>
    -- Being connected lasts, so a run that ends apart was apart at every call.
    have before : self.state ≠ .connected :=
      fun connected => apart (connected_run connected (input :: rest))
    have silent : self.news input = .nothing := by
      cases input with
      | sendData data random => exact if_neg before
      | processReceive datagram sender beyond random => exact if_neg before
      | _ => rfl
    have quiet := (gossipStep_learns input self).deliveries
    rw [silent] at quiet
    have none_ : (gossipStep input self).events.filterMap Event.asDelivery = [] := by
      rw [quiet]
      split
      · rfl
      · rfl
    rw [Machine.trace, List.filterMap_append, none_, List.nil_append]
    exact ih _ apart

/--
Nothing happens before the cluster admits the node.

A node becomes connected by starting a cluster or by being welcomed to one, and stays connected.
-/
theorem admission (setup : NodeSetup) (inputs : List Input) :
    let node := Machine.run gossipStep inputs setup.node
    (node.state = .initialized ∨ node.state = .joining ∨ node.state = .connected) ∧
      (node.state = .initialized ∨ node.state = .joining →
        node.Unadmitted (seedNodesOf inputs) ∧
          (Machine.trace gossipStep inputs setup.node).filterMap Event.asDelivery = []) ∧
      (∀ input, node.state ≠ .connected → (gossipStep input node).state.state = .connected →
        node.state = .initialized ∧ input = .join [] ∨
          node.state = .joining ∧ ∃ msg, input.welcome = some msg) ∧
      ∀ later, node.state = .connected →
        (Machine.run gossipStep later node).state = .connected := by
  intro node
  have standing : Standing (seedNodesOf inputs) node := setup.waiting.run_new rfl inputs
  refine ⟨?_, ?_, ?_, fun later connected => connected_run connected later⟩
  · cases standing with
    | connected stage => exact .inr (.inr stage)
    | waiting stage _ => exact stage.imp_right .inl
  · intro stage
    have apart : node.state ≠ .connected := by
      rcases stage with stage | stage <;> rw [stage] <;> decide
    cases standing with
    | connected stage => exact absurd stage apart
    | waiting _ waits => exact ⟨waits.unadmitted, no_delivery_apart inputs setup.node apart⟩
  · intro input apart after
    have leads := gossipStep_stage input node
    generalize (gossipStep input node).state.state = reached at leads after
    cases leads with
    | stays => exact absurd after apart
    | starts fresh alone => exact .inl ⟨fresh, alone⟩
    | joins seedNodes _ _ _ => cases after
    | admitted msg listens welcomed =>
      -- A connected node listens as well, but it is not connected yet.
      have joining : node.state = .joining := by
        cases stage : node.state with
        | joining => rfl
        | connected => exact absurd stage apart
        | _ =>
          rw [PittacusGossip.exchanges, stage] at listens
          cases listens
      exact .inr ⟨joining, msg, welcomed⟩

end Pittacus
