import Pittacus.Cluster.Replies

/-! An acknowledgement, or a welcome, only retires what the node it came from has received. -/

namespace Pittacus

variable {ι : Type} [DecidableEq ι]

/-! ### What was received -/

/-- A reply goes back to a message that was accepted from its recipient. -/
def Network.Answered (net : Network ι) (i : ι) (envelope : MessageEnvelopeOut) : Prop :=
  ∀ sequenceNum ∈ envelope.message.confirms, ∃ acceptance ∈ net.acceptances,
    acceptance.receiver = i ∧ acceptance.sender = envelope.recipient ∧
      acceptance.message.header.sequenceNum = sequenceNum ∧
      (envelope.message.type = messageWelcomeType →
        acceptance.message.type = messageHelloType)

/-- An accepted message is one that the node at the address it came from transmitted. -/
def Network.Sourced (routes : List UInt8 → Option ι) (net : Network ι)
    (acceptance : Acceptance ι) : Prop :=
  ∃ transmission ∈ net.transmissions,
    routes transmission.envelope.recipient = some acceptance.receiver ∧
      routes acceptance.sender = some transmission.source ∧
      acceptance.message.header.sequenceNum = transmission.envelope.sequenceNum ∧
      acceptance.message.type = transmission.envelope.message.type

/-- A number that a node transmitted something under is not used for anything else. -/
structure Network.Identified (net : Network ι) (transmission : Transmission ι) : Prop where
  used : transmission.envelope.number ≤ (net.node transmission.source).sequenceNum.toNat
  unique : ∀ envelope ∈ (net.node transmission.source).pending,
    envelope.number = transmission.envelope.number → envelope = transmission.envelope.untried

/-- Every reply can be traced back to the message it answers. -/
structure Network.Traced (routes : List UInt8 → Option ι) (net : Network ι) : Prop where
  sound : net.Sound
  identified : ∀ transmission ∈ net.transmissions, net.Identified transmission
  answered : net.Posts net.Answered
  sourced : ∀ acceptance ∈ net.acceptances, net.Sourced routes acceptance

omit [DecidableEq ι] in
/-- In a new network there is nothing to be traced. -/
theorem create_traced (routes : List UInt8 → Option ι) (setup : ι → NodeSetup) :
    (Network.create setup).Traced routes where
  sound := create_network_sound setup
  identified _ sent := absurd sent List.not_mem_nil
  answered := create_posts _ setup
  sourced _ accepted := absurd accepted List.not_mem_nil

/-- An envelope reached a node, which accepted a datagram under its number. -/
structure Network.Reached (routes : List UInt8 → Option ι) (net : Network ι) (source receiver : ι)
    (envelope : MessageEnvelopeOut) : Prop where
  recipient : routes envelope.recipient = some receiver
  transmitted : ∃ transmission ∈ net.transmissions, transmission.source = source ∧
    transmission.envelope.untried = envelope.untried
  accepted : ∃ acceptance ∈ net.acceptances, acceptance.receiver = receiver ∧
    routes acceptance.sender = some source ∧
    acceptance.message.header.sequenceNum = envelope.sequenceNum

/--
What handling a datagram takes out of the queue is acknowledged by it, and was received before.

The node that received it is the one the datagram came from; what a welcome takes out is a hello.
-/
def Network.RetiresReceived (routes : List UInt8 → Option ι) (net : Network ι)
    (call : ι × Input) : Prop :=
  ∀ datagram sender beyond random, call.2 = .processReceive datagram sender beyond random →
    ∀ envelope ∈ (net.node call.1).outboundMessages,
      envelope ∉ ((networkStep call net).state.node call.1).outboundMessages →
        (net.node call.1).acknowledges call.2 = some envelope.sequenceNum ∧
          (∃ receiver, routes sender = some receiver ∧
            net.Reached routes call.1 receiver envelope) ∧
          ((welcomeReceived datagram beyond).isSome → ∃ msg, envelope.message = .hello msg)

/-- Every event of a call that queues a message finds a slot unoccupied. -/
def Network.FindsRoom (net : Network ι) (call : ι × Input) : Prop :=
  ∀ event ∈ (networkStep call net).events, event.2.FindsRoom

instance (net : Network ι) (call : ι × Input) : Decidable (net.FindsRoom call) :=
  inferInstanceAs (Decidable (∀ event ∈ (networkStep call net).events, event.2.FindsRoom))

/-- How many envelopes a call queues at a node. -/
def Network.enqueues (i : ι) (net : Network ι) (call : ι × Input) : Nat :=
  if call.1 = i then (net.node i).enqueues call.2 else 0

/-- The queue of every node is in order, and the numbers do not start over with a call. -/
def Network.Counts (net : Network ι) (call : ι × Input) : Prop :=
  ∀ i, (net.node i).Ordered ∧ (net.node i).sequenceNum.toNat + Network.enqueues i net call < 2 ^ 32

/-! ### Steps -/

/-- Where slots are found unoccupied, nobody has to make room. -/
theorem not_reclaimed {events : List Event} (room : ∀ event ∈ events, event.FindsRoom)
    (envelope : MessageEnvelopeOut) : ¬Reclaimed events envelope := by
  rintro ⟨found, left, message, spreading, caused, -, full⟩
  obtain ⟨i, inside, free⟩ := room _ caused
  rw [full i inside] at free
  cases free

/-- Only the node that is called uses new numbers, and none twice. -/
theorem Network.Identified.step {net : Network ι} {call : ι × Input} (counts : net.Counts call)
    {transmission : Transmission ι}
    (sent : transmission ∈ (networkStep call net).state.transmissions)
    (identified : ∀ transmission ∈ net.transmissions, net.Identified transmission) :
    (networkStep call net).state.Identified transmission := by
  obtain ⟨ordered, room⟩ := counts call.1
  rw [Network.enqueues, if_pos rfl] at room
  obtain ⟨kept, fresh, added, passage⟩ :=
    gossipStep_passes (Input.within_any call.2) (net.node call.1) ordered.tries
  rw [← passage.added_eq] at room
  obtain ⟨-, counted⟩ := passage.ordered ordered room
  have numbers := ordered.numbers
  rw [← pending_numbers] at numbers
  -- What was identified at the node that is called stays so, because new numbers are larger.
  have later : transmission.envelope.number ≤ (net.node call.1).sequenceNum.toNat →
      (∀ envelope ∈ (net.node call.1).pending,
        envelope.number = transmission.envelope.number →
          envelope = transmission.envelope.untried) →
      transmission.source = call.1 → (networkStep call net).state.Identified transmission := by
    intro used unique mine
    refine ⟨?_, fun envelope waiting same => ?_⟩
    · rw [networkStep_node, if_pos mine, counted]
      exact Nat.le_trans used (Nat.le_add_right _ _)
    · rw [networkStep_node, if_pos mine, passage.queue] at waiting
      rcases List.mem_append.mp waiting with old | new
      · exact unique envelope (passage.kept.subset old) same
      · have larger := (passage.numbers room).above _ (List.mem_map_of_mem new)
        rw [same] at larger
        exact absurd used (Nat.not_le.mpr larger)
  rcases mem_transmissions sent with before | ⟨mine, waiting, -⟩
  · have known := identified transmission before
    by_cases mine : transmission.source = call.1
    · exact later (mine ▸ known.used) (mine ▸ known.unique) mine
    · refine ⟨?_, ?_⟩
      · rw [networkStep_node, if_neg mine]
        exact known.used
      · rw [networkStep_node, if_neg mine]
        exact known.unique
  · -- It was queued under its number, which no other envelope had.
    have listed : transmission.envelope.untried ∈ (net.node call.1).pending :=
      List.mem_map_of_mem waiting
    have below : transmission.envelope.untried.number ≤ (net.node call.1).sequenceNum.toNat :=
      numbers.below _ (List.mem_map_of_mem listed)
    refine later below (fun envelope waiting_ same => ?_) mine
    exact numbers.inj waiting_ listed same

omit [DecidableEq ι] in
/-- What a connected node accepts was transmitted to it. -/
theorem Network.Sound.sourced {routes : List UInt8 → Option ι} {net : Network ι}
    {call : ι × Input} (sound : net.Sound) (delivers : net.Delivers routes call)
    {address : List UInt8} {message : Message}
    (accepted : (net.node call.1).accepts call.2 = some (address, message)) :
    net.Sourced routes ⟨call.1, address, message⟩ := by
  obtain ⟨receiver, input⟩ := call
  -- Only a received datagram is accepted at all, and some node has transmitted its bytes.
  cases input with
  | processReceive datagram sender beyond random =>
    simp only [PittacusGossip.accepts] at accepted
    split at accepted
    · obtain ⟨found, read, paired⟩ := Option.map_eq_some_iff.mp accepted
      rw [← (Prod.mk.inj paired).1, ← (Prod.mk.inj paired).2]
      obtain ⟨transmission, sent, same, there, origin⟩ := delivers (datagram, sender) rfl
      have fills := (sound.faithful transmission sent).fills sender beyond
      rw [show transmission.datagram = datagram from same] at fills
      obtain ⟨header, type⟩ := fills.received read
      refine ⟨transmission, sent, there, origin, ?_, ?_⟩
      · rw [header, Message.renumbered_header]
        rfl
      · rw [type, Message.renumbered_type]
    · cases accepted
  | _ => cases accepted

/-- What is accepted in a call is remembered. -/
theorem accepted_remembered {net : Network ι} {call : ι × Input} {sender : List UInt8}
    {message : Message} (accepted : (net.node call.1).accepts call.2 = some (sender, message)) :
    (⟨call.1, sender, message⟩ : Acceptance ι) ∈ (networkStep call net).state.acceptances := by
  refine List.mem_append_right _ (List.mem_map.mpr ⟨(sender, message), ?_, rfl⟩)
  rw [accepted]
  exact List.mem_singleton.mpr rfl

/-- Replies can be traced back after a step as well. -/
theorem Network.Traced.step {routes : List UInt8 → Option ι} {net : Network ι} {call : ι × Input}
    (traced : net.Traced routes) (delivers : net.Delivers routes call) (room : net.FindsRoom call)
    (counts : net.Counts call) : (networkStep call net).state.Traced routes where
  sound := traced.sound.step delivers fun event caused => (room event caused).spares
  identified transmission sent := Network.Identified.step counts sent traced.identified
  answered := by
    refine traced.answered.step (fun i envelope answered sequenceNum named => ?_)
      fun envelope waiting => ?_
    · obtain ⟨acceptance, accepted, rest⟩ := answered sequenceNum named
      exact ⟨acceptance, List.mem_append_left _ accepted, rest⟩
    · -- What joins the queue answers what is accepted now.
      obtain ⟨kept, fresh, added, passage⟩ :=
        gossipStep_replies call.2 (net.node call.1) (counts call.1).1.tries
      rw [passage.queue] at waiting
      rcases List.mem_append.mp waiting with old | new
      · exact .inl (passage.kept.subset old)
      · refine .inr fun sequenceNum named => ?_
        obtain ⟨message, accepted, number, kind⟩ :=
          (passage.made envelope new).reply (Message.replies_of_confirms named) sequenceNum named
        exact ⟨_, accepted_remembered accepted, rfl, rfl, number, kind⟩
  sourced acceptance remembered := by
    have later : net.Sourced routes acceptance →
        (networkStep call net).state.Sourced routes acceptance := by
      rintro ⟨transmission, sent, rest⟩
      exact ⟨transmission, List.mem_append_left _ sent, rest⟩
    rcases List.mem_append.mp remembered with before | now
    · exact later (traced.sourced acceptance before)
    · obtain ⟨found, accepted, rfl⟩ := List.mem_map.mp now
      exact later (traced.sound.sourced delivers (Option.mem_toList.mp accepted))

/-- What handling a datagram takes out of the queue was received by the node it came from. -/
theorem Network.Traced.retires {routes : List UInt8 → Option ι} {net : Network ι}
    {call : ι × Input} (traced : net.Traced routes) (delivers : net.Delivers routes call)
    (room : net.FindsRoom call) : net.RetiresReceived routes call := by
  obtain ⟨node, input⟩ := call
  rintro datagram sender beyond random rfl envelope waiting gone
  rw [networkStep_node, if_pos rfl] at gone
  have room_ : ∀ event ∈ (gossipStep (.processReceive datagram sender beyond random)
      (net.node node)).events, event.FindsRoom :=
    fun event caused => room (node, event) (List.mem_map.mpr ⟨event, caused, rfl⟩)
  have named : (net.node node).acknowledges (.processReceive datagram sender beyond random)
      = some envelope.sequenceNum := by
    have handles : ¬(Input.processReceive datagram sender beyond random).Sends := id
    rcases handled_departs (net.node node) handles waiting with stays | named | reclaimed
    · exact absurd stays gone
    · exact named
    · exact absurd reclaimed (not_reclaimed room_ envelope)
  obtain ⟨reply, sent, same, here, origin⟩ := delivers (datagram, sender) rfl
  have fills := (traced.sound.faithful reply sent).fills sender beyond
  rw [show reply.datagram = datagram from same] at fills
  obtain ⟨confirmed, welcomes⟩ := fills.confirms named
  rw [Message.renumbered_confirms] at confirmed
  rw [Message.renumbered_type] at welcomes
  -- The reply goes back to an acceptance, and that to a transmission of this node.
  obtain ⟨acceptance, accepted, receiver, address, number, kind⟩ :=
    traced.answered.transmitted reply sent _ confirmed
  obtain ⟨origin_, sent_, there, source, number_, type⟩ := traced.sourced acceptance accepted
  have mine : origin_.source = node := by
    rw [address] at source
    exact Option.some.inj (source.symm.trans here)
  have listed : envelope.untried ∈ (net.node origin_.source).pending := by
    rw [mine]
    exact List.mem_map_of_mem waiting
  have one : envelope.untried = origin_.envelope.untried :=
    (traced.identified origin_ sent_).unique _ listed
      (congrArg UInt32.toNat (number.symm.trans number_))
  obtain ⟨recipient, -, -, message⟩ := MessageEnvelopeOut.untried_eq one
  refine ⟨named, ⟨reply.source, origin, ?_, ⟨origin_, sent_, mine, one.symm⟩,
    acceptance, accepted, receiver, ?_, number⟩, fun welcomed => ?_⟩
  · rw [recipient, there, receiver]
  · rw [source, mine]
  · have hello : envelope.message.type = messageHelloType := by
      rw [message, ← type]
      exact kind (welcomes welcomed)
    cases same_ : envelope.message with
    | hello msg => exact ⟨msg, rfl⟩
    | _ =>
      simp only [same_, Message.type] at hello
      exact absurd hello (by decide)

/-! ### Runs -/

/-- In a run that queues less than 2^32 envelopes at every node, numbers do not start over. -/
theorem counts_along (setup : ι → NodeSetup) (calls : List (ι × Input))
    (few : ∀ i,
      Machine.total networkStep (Network.enqueues i) calls (Network.create setup) < 2 ^ 32) :
    Machine.Along networkStep Network.Counts calls (Network.create setup) := by
  refine Machine.along_forall fun i => ?_
  -- The counter of each node is bounded by what the node queues over the whole run.
  have start : ((Network.create setup).node i).sequenceNum.toNat
      + Machine.total networkStep (Network.enqueues i) calls (Network.create setup) < 2 ^ 32 := by
    have zero : ((Network.create setup).node i).sequenceNum.toNat = 0 := rfl
    have few := few i
    omega
  have counts : ∀ (net : Network ι) call, (net.node i).Ordered →
      (net.node i).sequenceNum.toNat + Network.enqueues i net call < 2 ^ 32 →
        ((networkStep call net).state.node i).Ordered ∧
          ((networkStep call net).state.node i).sequenceNum.toNat
            = (net.node i).sequenceNum.toNat + Network.enqueues i net call := by
    intro net call ordered room
    rw [networkStep_node]
    by_cases here : i = call.1
    · subst here
      rw [Network.enqueues, if_pos rfl] at room ⊢
      rw [if_pos rfl]
      exact ordered.step call.2 room
    · rw [Network.enqueues, if_neg (Ne.symm here), if_neg here]
      exact ⟨ordered, rfl⟩
  exact Machine.along_budget counts (setup i).ordered start

/--
An acknowledgement, or a welcome, only retires what the node it came from has received.

This holds in every run of nodes at different addresses, whatever becomes of their datagrams.
-/
theorem retires_received (routes : List UInt8 → Option ι) (setup : ι → NodeSetup)
    (calls : List (ι × Input))
    (delivers : Machine.Along networkStep (Network.Delivers routes) calls (Network.create setup))
    (room : Machine.Along networkStep Network.FindsRoom calls (Network.create setup))
    (few : ∀ i,
      Machine.total networkStep (Network.enqueues i) calls (Network.create setup) < 2 ^ 32) :
    Machine.Along networkStep (Network.RetiresReceived routes) calls (Network.create setup) := by
  -- That numbers do not start over is a condition on each step like the others.
  have possible := (delivers.and room).and (counts_along setup calls few)
  refine Machine.along_of_invariant ?_ ?_ (create_traced routes setup) possible
  · exact fun net call traced steps => traced.step steps.1.1 steps.1.2 steps.2
  · exact fun net call traced steps => traced.retires steps.1.1 steps.1.2

/-- The first of two nodes on the local host. -/
def firstNode : Fin 2 := ⟨0, Nat.zero_lt_two⟩

/-- The second of two nodes on the local host. -/
def secondNode : Fin 2 := ⟨1, Nat.one_lt_two⟩

/-- Which of the two nodes on the local host an address belongs to. -/
def localRoutes (address : List UInt8) : Option (Fin 2) :=
  if address = loopback 1 then some firstNode
  else if address = loopback 2 then some secondNode
  else none

/-- After the exchange of a payload, the second node acknowledges it. -/
def acknowledgedExchange : List (Fin 2 × Input) :=
  exchange ++ [(secondNode, .processSend (fun _ => 0) (fun _ => 0)),
    (firstNode, .processReceive ((ackMessage 2).datagram 2) (loopback 2) (fun _ => 0) noRandom)]

/-- The hello of the second node and the payload of the first one are both retired. -/
theorem retires_received_two :
    let start := Network.create fun i : Fin 2 => localSetup (if i = 0 then 1 else 2)
    ((Machine.run networkStep (acknowledgedExchange.take 5) start).node 1).outboundMessages.map
        (fun envelope => (envelope.recipient, envelope.sequenceNum)) = [(loopback 1, 1)] ∧
      ((Machine.run networkStep (acknowledgedExchange.take 6) start).node 1).outboundMessages.length
        = 0 ∧
      ((Machine.run networkStep (acknowledgedExchange.take 10) start).node 0).outboundMessages.map
        (fun envelope => (envelope.recipient, envelope.sequenceNum)) = [(loopback 2, 2)] ∧
      ((Machine.run networkStep acknowledgedExchange start).node 0).outboundMessages.length = 0 ∧
      Machine.Along networkStep (Network.RetiresReceived localRoutes) acknowledgedExchange start :=
  ⟨by decide +kernel, by decide +kernel, by decide +kernel, by decide +kernel,
    retires_received localRoutes (fun i : Fin 2 => localSetup (if i = 0 then 1 else 2))
      acknowledgedExchange (by decide +kernel) (by decide +kernel) (by decide +kernel)⟩

end Pittacus
