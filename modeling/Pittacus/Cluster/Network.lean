import Pittacus.Cluster.Integrity
import Pittacus.Outbound.Accounts

/-! Nodes that reach each other by address, over a network that forges nothing. -/

namespace Pittacus

/-! ### Networks -/

/-- A datagram that the socket of a node took, and the envelope it was sent for. -/
structure Transmission (ι : Type) where
  source : ι
  envelope : MessageEnvelopeOut
  datagram : List UInt8

/-- A message that a node accepted, and the address it came from. -/
structure Acceptance (ι : Type) where
  receiver : ι
  sender : List UInt8
  message : Message

/--
The nodes of a network, with everything they transmitted and accepted so far.

Nothing is ever taken out of the lists, so a datagram may arrive late, often, or never.
-/
structure Network (ι : Type) where
  node : ι → PittacusGossip
  transmissions : List (Transmission ι)
  acceptances : List (Acceptance ι)

/-- A network of new nodes. -/
def Network.create {ι : Type} (setup : ι → NodeSetup) : Network ι where
  node i := (setup i).node
  transmissions := []
  acceptances := []

/-- The transmission an event makes, if the socket takes the datagram. -/
def Event.asTransmission {ι : Type} (source : ι) : Event → Option (Transmission ι)
  | .sendTo envelope datagram _ result =>
    if 0 ≤ result then some ⟨source, envelope, datagram⟩ else none
  | _ => none

/-- The message the decoder of its type makes of a datagram. -/
def messageReceived (datagram : List UInt8) (beyond : Nat → UInt8) : Option Message :=
  let received := datagram.take messageMaxSize
  let memory := Decoder.memoryOf received beyond
  match messageDecode (memory 5) received.length vectorClockInit memory with
  | .ok (_, message) => some message
  | .error _ => none

/-- The message a connected node accepts in a call, and the address it came from. -/
def PittacusGossip.accepts (node : PittacusGossip) : Input → Option (List UInt8 × Message)
  | .processReceive datagram sender beyond _ =>
    if node.state = .connected then
      (messageReceived datagram beyond).map fun message => (sender, message)
    else none
  | _ => none

/-- The datagram that arrives with a call, and the address it came from. -/
def Input.arrival : Input → Option (List UInt8 × List UInt8)
  | .processReceive datagram sender _ _ => some (datagram, sender)
  | _ => none

/-- Every datagram that is received comes from some address. -/
theorem exists_arrival {input : Input} {datagram : List UInt8}
    (received : datagram ∈ input.datagram) : ∃ sender, (datagram, sender) ∈ input.arrival := by
  cases input with
  | processReceive bytes sender beyond random => exact ⟨sender, by cases received; rfl⟩
  | _ => cases received

variable {ι : Type} [DecidableEq ι]

/-- One call on one node of a network. -/
def networkStep (call : ι × Input) : Routine (Network ι) (ι × Event) Int := fun net =>
  let ran := gossipStep call.2 (net.node call.1)
  let accepted := ((net.node call.1).accepts call.2).toList
  { value := ran.value
    state :=
      { node := Function.update net.node call.1 ran.state
        transmissions := net.transmissions ++ ran.events.filterMap (Event.asTransmission call.1)
        acceptances := net.acceptances ++
          accepted.map fun found => ⟨call.1, found.1, found.2⟩ }
    events := ran.events.map fun event => (call.1, event) }

/--
What arrives at a node is a datagram that the node at the address it came from had sent there.

Each address belongs to one node at most, and to the same one throughout.
-/
def Network.Delivers (routes : List UInt8 → Option ι) (net : Network ι) (call : ι × Input) : Prop :=
  ∀ arrival ∈ call.2.arrival, ∃ transmission ∈ net.transmissions,
    transmission.datagram = arrival.1 ∧ routes transmission.envelope.recipient = some call.1 ∧
      routes arrival.2 = some transmission.source

instance (routes : List UInt8 → Option ι) (net : Network ι) (call : ι × Input) :
    Decidable (net.Delivers routes call) :=
  inferInstanceAs (Decidable (∀ arrival ∈ call.2.arrival, _))

/-- A step changes one node. -/
theorem networkStep_node (net : Network ι) (call : ι × Input) (i : ι) :
    (networkStep call net).state.node i =
      if i = call.1 then (gossipStep call.2 (net.node call.1)).state else net.node i :=
  Function.update_apply _ _ _ _

/-! ### Transmissions -/

/-- What is transmitted in a call was queued before it. -/
theorem transmission_queued {input : Input} {self : PittacusGossip} {envelope : MessageEnvelopeOut}
    {datagram : List UInt8} {now : Nat} {result : Int} (taken : 0 ≤ result)
    (caused : .sendTo envelope datagram now result ∈ (gossipStep input self).events) :
    envelope ∈ self.outboundMessages := by
  have shown : (envelope, now) ∈ (gossipStep input self).events.filterMap Event.transmission :=
    List.mem_filterMap.mpr ⟨_, caused, if_pos taken⟩
  by_cases sends : input.Sends
  · cases input with
    | processSend times results =>
      -- Every envelope of the queue has one turn, and only turns transmit.
      obtain ⟨turns, round⟩ := processSend_round times results self
      have made : (envelope, now) ∈ turns.filterMap turnTransmission := round.transmitted ▸ shown
      obtain ⟨turn, member, sent⟩ := List.mem_filterMap.mp made
      obtain ⟨reading, -, same⟩ := Option.map_eq_some_iff.mp sent
      rw [← round.found, ← (Prod.mk.inj same).1]
      exact List.mem_map_of_mem member
    | _ => exact sends.elim
  · -- No other call transmits anything.
    have silent := ((carries_work Scope.any).step (Input.within_any input) sends self).1
    rw [silent] at shown
    exact absurd shown List.not_mem_nil

/-- A transmission is of the message of its envelope, under the number of the envelope. -/
structure Transmission.Faithful (transmission : Transmission ι) : Prop where
  same : transmission.datagram
    = transmission.envelope.message.datagram transmission.envelope.sequenceNum
  typed : transmission.envelope.message.Typed
  fits : transmission.envelope.message.Fits
  short : transmission.envelope.message.wire.length ≤ messageMaxSize

omit [DecidableEq ι] in
/-- A faithful transmission fills the buffer it is received in with its message. -/
theorem Transmission.Faithful.fills {transmission : Transmission ι}
    (faithful : transmission.Faithful) (sender : List UInt8) (beyond : Nat → UInt8) :
    (transmission.envelope.message.renumbered transmission.envelope.sequenceNum).Fills
      (envelopeOf transmission.datagram sender beyond).buffer
      (envelopeOf transmission.datagram sender beyond).bufferSize := by
  rw [faithful.same]
  exact Message.Fills.of_datagram faithful.typed faithful.fits faithful.short _ sender beyond

omit [DecidableEq ι] in
/-- A faithful transmission is genuine, whatever is said of the data in it. -/
theorem Transmission.Faithful.genuine {transmission : Transmission ι}
    (faithful : transmission.Faithful) : Genuine (fun _ _ => True) transmission.datagram := by
  refine ⟨_, _, faithful.same, faithful.typed, faithful.fits, faithful.short, ?_⟩
  cases transmission.envelope.message <;> trivial

/-- Every node is in working order, and every transmission is faithful. -/
structure Network.Sound (net : Network ι) : Prop where
  reliable : ∀ i, (net.node i).Reliable fun _ _ => True
  faithful : ∀ transmission ∈ net.transmissions, transmission.Faithful

omit [DecidableEq ι] in
/-- A new network is sound. -/
theorem create_network_sound (setup : ι → NodeSetup) : (Network.create setup).Sound where
  reliable i := (setup i).reliable _
  faithful _ sent := absurd sent List.not_mem_nil

/-- What a step transmits was queued by its node, and what it does not was transmitted before. -/
theorem mem_transmissions {net : Network ι} {call : ι × Input} {transmission : Transmission ι}
    (sent : transmission ∈ (networkStep call net).state.transmissions) :
    transmission ∈ net.transmissions ∨
      transmission.source = call.1 ∧
        transmission.envelope ∈ (net.node call.1).outboundMessages ∧
        ∃ now result, .sendTo transmission.envelope transmission.datagram now result ∈
          (gossipStep call.2 (net.node call.1)).events := by
  rcases List.mem_append.mp sent with before | made
  · exact .inl before
  · obtain ⟨event, caused, shown⟩ := List.mem_filterMap.mp made
    -- Of the events only a datagram handed to the socket transmits, if the socket took it.
    cases event with
    | sendTo envelope datagram now result =>
      simp only [Event.asTransmission] at shown
      split at shown
      · rename_i taken
        cases shown
        exact .inr ⟨rfl, transmission_queued taken caused, now, result, caused⟩
      · cases shown
    | _ => cases shown

/-- A step keeps a network sound, as long as no slot is taken from anybody. -/
theorem Network.Sound.step {net : Network ι} {call : ι × Input} {routes : List UInt8 → Option ι}
    (sound : net.Sound) (delivers : net.Delivers routes call)
    (spares : ∀ event ∈ (networkStep call net).events, event.2.Spares) :
    (networkStep call net).state.Sound := by
  have reliable := sound.reliable call.1
  have spares_ : ∀ event ∈ (gossipStep call.2 (net.node call.1)).events, event.Spares :=
    fun event caused => spares (call.1, event) (List.mem_map.mpr ⟨event, caused, rfl⟩)
  -- Only what was transmitted arrives, and that is genuine.
  have arrives : ∀ datagram ∈ call.2.datagram, Genuine (fun _ _ => True) datagram := by
    intro datagram received
    obtain ⟨sender, arrived⟩ := exists_arrival received
    obtain ⟨transmission, sent, same, -⟩ := delivers _ arrived
    have genuine := (sound.faithful transmission sent).genuine
    rw [same] at genuine
    exact genuine
  obtain ⟨kept, -⟩ := gossipStep_reliable call.2 (net.node call.1) reliable arrives
    (fun _ _ => trivial) spares_
  have owned := (gossipStep_sound call.2 (net.node call.1) reliable.sound kept.fit spares_).2
  refine ⟨fun i => ?_, fun transmission sent => ?_⟩
  · rw [networkStep_node]
    split
    · exact kept
    · exact sound.reliable i
  · rcases mem_transmissions sent with before | ⟨-, waiting, now, result, caused⟩
    · exact sound.faithful transmission before
    · -- What lay in the slot of the envelope was its message.
      have stored := reliable.sound.owns.stored _ waiting
      exact ⟨(owned _ caused).2.2.2, (reliable.vouches.queued _ waiting).1, stored.fits,
        stored.short⟩

/-! ### Envelopes -/

/-- Every envelope that is queued by a node, or was transmitted for it, has a property. -/
structure Network.Posts (property : ι → MessageEnvelopeOut → Prop) (net : Network ι) : Prop where
  queued : ∀ i, ∀ envelope ∈ (net.node i).pending, property i envelope
  transmitted : ∀ transmission ∈ net.transmissions,
    property transmission.source transmission.envelope.untried

omit [DecidableEq ι] in
/-- In a new network there are no envelopes. -/
theorem create_posts (property : ι → MessageEnvelopeOut → Prop) (setup : ι → NodeSetup) :
    (Network.create setup).Posts property where
  queued _ _ waiting := absurd waiting List.not_mem_nil
  transmitted _ sent := absurd sent List.not_mem_nil

/-- All envelopes have a property if those that a step queues have it. -/
theorem Network.Posts.step {property later : ι → MessageEnvelopeOut → Prop} {net : Network ι}
    {call : ι × Input} (posts : net.Posts property)
    (implied : ∀ i envelope, property i envelope → later i envelope)
    (fresh : ∀ envelope ∈ (gossipStep call.2 (net.node call.1)).state.pending,
      envelope ∈ (net.node call.1).pending ∨ later call.1 envelope) :
    (networkStep call net).state.Posts later := by
  refine ⟨fun i envelope waiting => ?_, fun transmission sent => ?_⟩
  · rw [networkStep_node] at waiting
    split at waiting
    · rename_i here
      rw [here]
      rcases fresh envelope waiting with old | new
      · exact implied _ _ (posts.queued call.1 envelope old)
      · exact new
    · exact implied _ _ (posts.queued i envelope waiting)
  · rcases mem_transmissions sent with before | ⟨mine, waiting, -⟩
    · exact implied _ _ (posts.transmitted transmission before)
    · -- It was among the queued ones.
      rw [mine]
      exact implied _ _ (posts.queued call.1 _ (List.mem_map_of_mem waiting))

end Pittacus
