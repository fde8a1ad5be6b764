import Mathlib.Data.Fintype.Basic
import Pittacus.Cluster.Retirement
import Pittacus.Cluster.Strangers

/-! A node stays out of its own view of the cluster, unless it introduces itself once more. -/

namespace Pittacus

variable {ι : Type} [DecidableEq ι]

/-! ### Views -/

/-- A node is no member of its own view. -/
def PittacusGossip.Excluded (node : PittacusGossip) : Prop :=
  ∀ member ∈ node.members.live, clusterMemberEquals member node.selfAddress = false

instance (node : PittacusGossip) : Decidable node.Excluded :=
  inferInstanceAs (Decidable (∀ member ∈ node.members.live, _ = false))

/-- A node joins through other nodes only. -/
def JoinsOthers (routes : List UInt8 → Option ι) (call : ι × Input) : Prop :=
  ∀ seedNodes ∈ call.2.seeds, ∀ seed ∈ seedNodes, routes seed ≠ some call.1

instance (routes : List UInt8 → Option ι) (call : ι × Input) : Decidable (JoinsOthers routes call) :=
  inferInstanceAs (Decidable (∀ seedNodes ∈ call.2.seeds, _))

/-- No hello that a connected node handles introduces a member it knows already. -/
def Network.MeetsNewcomers (net : Network ι) (call : ι × Input) : Prop :=
  (net.node call.1).state = .connected →
    ∀ msg ∈ call.2.hello, msg.thisMember ∉ (net.node call.1).members.live

instance (net : Network ι) (call : ι × Input) : Decidable (net.MeetsNewcomers call) :=
  inferInstanceAs (Decidable (_ → ∀ msg ∈ call.2.hello, _))

/-- No event of a call takes a slot that an envelope further ahead still refers to. -/
def Network.Spares (net : Network ι) (call : ι × Input) : Prop :=
  ∀ event ∈ (networkStep call net).events, event.2.Spares

instance (net : Network ι) (call : ι × Input) : Decidable (net.Spares call) :=
  inferInstanceAs (Decidable (∀ event ∈ (networkStep call net).events, event.2.Spares))

/-! ### Steps -/

/-- Every node is aloof, and every transmission was discreet. -/
structure Network.Aloof (routes : List UInt8 → Option ι) (setup : ι → NodeSetup)
    (net : Network ι) : Prop where
  sound : net.Sound
  aloof : ∀ i, Pittacus.Aloof routes setup i (net.node i)
  discreet : ∀ transmission ∈ net.transmissions, Discreet routes setup transmission.source
    transmission.envelope.recipient transmission.envelope.message

omit [DecidableEq ι] in
/-- New nodes know nobody. -/
theorem create_aloof (routes : List UInt8 → Option ι) (setup : ι → NodeSetup) :
    (Network.create setup).Aloof routes setup where
  sound := create_network_sound setup
  aloof _ :=
    ⟨rfl, clusterMemberSetInit_ok, List.forall_mem_nil _,
      List.forall_mem_nil _⟩
  discreet _ sent := absurd sent List.not_mem_nil

omit [DecidableEq ι] in
/-- What arrives comes from another node, which was discreet. -/
theorem Network.Aloof.foreign {routes : List UInt8 → Option ι} {setup : ι → NodeSetup}
    {net : Network ι} (aloof : net.Aloof routes setup) {i : ι} {datagram sender : List UInt8}
    {beyond : Nat → UInt8} {random : Nat → UInt32}
    (delivers : net.Delivers routes (i, .processReceive datagram sender beyond random)) :
    ∃ j, (envelopeOf datagram sender beyond).Foreign routes setup i j := by
  obtain ⟨transmission, sent, same, here, origin⟩ := delivers (datagram, sender) rfl
  have discreet := aloof.discreet transmission sent
  have fills := (aloof.sound.faithful transmission sent).fills sender beyond
  have same : transmission.datagram = datagram := same
  rw [same] at fills
  -- Whoever is named in it does not live here.
  have named : ∀ member ∈ (transmission.envelope.message.renumbered
      transmission.envelope.sequenceNum).members, Stranger setup i member := by
    intro member listed
    rw [Message.renumbered_members] at listed
    obtain ⟨j, rfl, elsewhere⟩ := discreet.named member listed
    refine ⟨j, fun mine => elsewhere ?_, rfl⟩
    rw [mine]
    exact here
  refine ⟨transmission.source, origin, fun mine => discreet.away ?_, ?_, ?_⟩
  · rw [mine]
    exact here
  · exact ⟨fun _ _ accepted => named _ (fills.hello accepted),
      fun _ _ accepted => named _ (fills.welcome accepted),
      fun _ _ accepted member listed => named member (fills.memberList accepted member listed)⟩
  · intro count msg accepted
    have listed := fills.hello accepted
    have type := fills.type_eq (announces_of_accepted accepted).1
    rw [Message.renumbered_members] at listed
    rw [Message.renumbered_type] at type
    cases message : transmission.envelope.message with
    | hello sent_ =>
      rw [message] at listed
      rw [List.mem_singleton.mp listed]
      exact discreet.introduces sent_ message
    | _ =>
      simp only [message, Message.type] at type
      exact absurd type (by decide)

/-- A step that introduces newcomers only keeps every node aloof. -/
theorem Network.Aloof.step {routes : List UInt8 → Option ι} {setup : ι → NodeSetup}
    {net : Network ι} {call : ι × Input} (aloof : net.Aloof routes setup)
    (home : ∀ i, routes (setup i).selfAddress = some i) (delivers : net.Delivers routes call)
    (joins : JoinsOthers routes call) (meets : net.MeetsNewcomers call)
    (spares : net.Spares call) : (networkStep call net).state.Aloof routes setup where
  sound := aloof.sound.step delivers spares
  aloof i := by
    rw [networkStep_node]
    split
    · rename_i here
      rw [here]
      refine (aloof.aloof call.1).step home call.2 joins ?_ meets
      intro datagram sender beyond random same
      have delivers : net.Delivers routes (call.1, call.2) := delivers
      rw [same] at delivers
      exact aloof.foreign delivers
    · exact aloof.aloof i
  discreet transmission sent := by
    -- A new transmission was waiting at the node that made it, so it was discreet there.
    rcases mem_transmissions sent with before | ⟨mine, waiting, -⟩
    · exact aloof.discreet transmission before
    · rw [mine]
      exact (aloof.aloof call.1).discreet _ waiting

omit [DecidableEq ι] in
/-- Aloof nodes are not in their own view, and have nothing queued for themselves. -/
theorem Network.Aloof.excluded {routes : List UInt8 → Option ι} {setup : ι → NodeSetup}
    {net : Network ι} (aloof : net.Aloof routes setup)
    (home : ∀ i, routes (setup i).selfAddress = some i) (i : ι) :
    (net.node i).Excluded ∧
      ∀ envelope ∈ (net.node i).outboundMessages, routes envelope.recipient ≠ some i := by
  have node := aloof.aloof i
  refine ⟨fun member known => ?_, fun envelope waiting => (node.discreet envelope waiting).away⟩
  obtain ⟨j, other, rfl⟩ := node.strangers member known
  rw [Bool.eq_false_iff, ne_eq, clusterMemberEquals_iff, node.own]
  intro same
  -- Members that are the same live at the same address.
  have address : (setup j).selfAddress = (setup i).selfAddress :=
    congrArg ClusterMember.address same
  have lives := home j
  rw [address, home i] at lives
  exact other (Option.some.inj lives).symm

/-! ### Runs -/

/-- A call receives what was sent to the node from the address it came from, and joins others. -/
def Network.Admits (routes : List UInt8 → Option ι) (net : Network ι) (call : ι × Input) : Prop :=
  net.Delivers routes call ∧ JoinsOthers routes call

instance (routes : List UInt8 → Option ι) (net : Network ι) (call : ι × Input) :
    Decidable (net.Admits routes call) :=
  inferInstanceAs (Decidable (_ ∧ _))

/-- No call introduces a node to one that knows it, or takes a slot that is still needed. -/
def Network.Cautious (net : Network ι) (call : ι × Input) : Prop :=
  net.MeetsNewcomers call ∧ net.Spares call

instance (net : Network ι) (call : ι × Input) : Decidable (net.Cautious call) :=
  inferInstanceAs (Decidable (_ ∧ _))

/--
Nodes stay out of their own views as long as nobody is introduced to a node that knows it.

This holds in every state of every run that never takes a slot from an envelope that needs it.
-/
theorem excluded_along (routes : List UInt8 → Option ι) (setup : ι → NodeSetup)
    (home : ∀ i, routes (setup i).selfAddress = some i) (calls : List (ι × Input))
    (admits : Machine.Along networkStep (Network.Admits routes) calls (Network.create setup))
    (cautious : Machine.Along networkStep Network.Cautious calls (Network.create setup)) :
    ∀ earlier later, calls = earlier ++ later → ∀ i,
      let node := (Machine.run networkStep earlier (Network.create setup)).node i
      node.Excluded ∧ ∀ envelope ∈ node.outboundMessages, routes envelope.recipient ≠ some i := by
  rintro earlier later rfl i
  -- The conditions on the whole run are conditions on every part of it.
  have possible := (Machine.along_append.mp admits).1.and (Machine.along_append.mp cautious).1
  have aloof : (Machine.run networkStep earlier (Network.create setup)).Aloof routes setup := by
    refine Machine.run_invariant ?_ (create_aloof routes setup) possible
    exact fun net call aloof steps =>
      aloof.step home steps.1.1 steps.1.2 steps.2.1 steps.2.2
  exact aloof.excluded home i

/-- Each of the two nodes on the local host lives at its own address. -/
theorem localRoutes_home (i : Fin 2) :
    localRoutes (localSetup (if i = 0 then 1 else 2)).selfAddress = some i := by
  revert i
  decide +kernel

/-- The second node joins the first one, and both of them know each other. -/
theorem excluded_along_two :
    let start := Network.create fun i : Fin 2 => localSetup (if i = 0 then 1 else 2)
    ((Machine.run networkStep acknowledgedExchange start).node 0).members.live.length = 1 ∧
      ((Machine.run networkStep acknowledgedExchange start).node 1).members.live.length = 1 ∧
      ∀ i, ((Machine.run networkStep acknowledgedExchange start).node i).Excluded :=
  ⟨by decide +kernel, by decide +kernel, fun i =>
    (excluded_along localRoutes (fun i : Fin 2 => localSetup (if i = 0 then 1 else 2))
      localRoutes_home acknowledgedExchange (by decide +kernel) (by decide +kernel)
      acknowledgedExchange [] (List.append_nil _).symm i).1⟩

/--
The hello of the second node arrives twice at the first one, which then tells it about itself.

Every other datagram arrives once, in the order they are sent.
-/
def repeatedHello : List (Fin 2 × Input) :=
  let first := (localSetup 1).node
  let second := (localSetup 2).node
  let hello : Message := .hello ⟨messageHeaderInit messageHelloType 0, second.selfAddress⟩
  let send : Input := .processSend (fun _ => 0) (fun _ => 0)
  let arrival (message : Message) (sequenceNum : UInt32) (port : UInt8) : Input :=
    .processReceive (message.datagram sequenceNum) (loopback port) (fun _ => 0) noRandom
  [(firstNode, .join []), (secondNode, .join [loopback 1]), (secondNode, send),
    (firstNode, arrival hello 1 2), (firstNode, arrival hello 1 2), (firstNode, send),
    (secondNode, arrival (welcomeMessage 1 first.selfAddress) 1 1),
    (secondNode, arrival (newcomerMessage second.selfAddress) 3 1)]

/-- The second node ends up as a member of its own view. -/
theorem not_excluded_repeated :
    let setup := fun i : Fin 2 => localSetup (if i = 0 then 1 else 2)
    let start := Network.create setup
    (∀ i, localRoutes (setup i).selfAddress = some i) ∧
      Machine.Along networkStep (Network.Admits localRoutes) repeatedHello start ∧
      ¬((Machine.run networkStep repeatedHello start).node 1).Excluded :=
  ⟨localRoutes_home, by decide +kernel, by decide +kernel⟩

end Pittacus
