import Mathlib.Data.List.Induction
import Mathlib.Logic.Relation
import Pittacus.Cluster.Retirement
import Pittacus.Membership.Admission

/-! Whoever is connected joined through a connected node, and in the end through one that joined nobody. -/

namespace Pittacus

variable {ι : Type} [DecidableEq ι]

/-! ### The calls on one node -/

/-- The calls made on one of the nodes, in order. -/
def callsOn (i : ι) (calls : List (ι × Input)) : List Input :=
  calls.filterMap fun call => if call.1 = i then some call.2 else none

/-- A call is one more call on its own node. -/
theorem callsOn_concat (i : ι) (calls : List (ι × Input)) (call : ι × Input) :
    callsOn i (calls ++ [call]) =
      if call.1 = i then callsOn i calls ++ [call.2] else callsOn i calls := by
  unfold callsOn
  rw [List.filterMap_append]
  by_cases here : call.1 = i
  · simp [here]
  · simp [here]

/-- In the run of a network, every node runs on the calls made on it. -/
theorem networkRun_node (calls : List (ι × Input)) (net : Network ι) (i : ι) :
    (Machine.run networkStep calls net).node i
      = Machine.run gossipStep (callsOn i calls) (net.node i) := by
  -- The induction takes the last call off, which is the step both runs end with.
  induction calls using List.reverseRecOn with
  | nil => rfl
  | append_singleton calls call ih =>
    rw [Machine.run_append, callsOn_concat]
    show (networkStep call _).state.node i = _
    rw [networkStep_node]
    by_cases here : call.1 = i
    · rw [if_pos here.symm, if_pos here, Machine.run_append, here, ih]
      rfl
    · rw [if_neg (Ne.symm here), if_neg here, ih]

/-! ### Joining -/

/-- The first call to join, once it was made, does not change any more. -/
theorem joins_append {earlier later : List Input} {seedNodes : List (List UInt8)}
    (joined : earlier.findSome? Input.seeds = some seedNodes) :
    (earlier ++ later).findSome? Input.seeds = some seedNodes := by
  rw [List.findSome?_append, joined, Option.some_or]

/-- Nor do the seed nodes, once there are any. -/
theorem seedNodesOf_append {earlier : List Input} (later : List Input) {seed : List UInt8}
    (named : seed ∈ seedNodesOf earlier) : seed ∈ seedNodesOf (earlier ++ later) := by
  unfold seedNodesOf at named ⊢
  cases joined : earlier.findSome? Input.seeds with
  | none =>
    rw [joined] at named
    exact absurd named List.not_mem_nil
  | some seedNodes =>
    rw [joined] at named
    rw [joins_append joined]
    exact named

/-- No call takes a node back to where it started. -/
theorem not_initialized_step {self : PittacusGossip} (left : self.state ≠ .initialized)
    (input : Input) : (gossipStep input self).state.state ≠ .initialized := by
  have leads := gossipStep_stage input self
  generalize (gossipStep input self).state.state = stage at leads
  cases leads with
  | stays => exact left
  | starts fresh _ => exact absurd fresh left
  | joins seedNodes fresh _ _ => exact absurd fresh left
  | admitted msg _ _ => exact PittacusGossipState.noConfusion

/-- Being told to join moves a new node on, whether there are seed nodes or not. -/
theorem Waiting.leaves {self : PittacusGossip} (waits : Waiting [] self)
    (fresh : self.state = .initialized) (seedNodes : List (List UInt8)) :
    (gossipStep (.join seedNodes) self).state.state ≠ .initialized := by
  by_cases alone : seedNodes = []
  · subst alone
    rw [gossipStep, pittacusGossipJoin, Routine.get_bind_run, if_neg (not_not.mpr fresh)]
    exact PittacusGossipState.noConfusion
  · rw [(waits.joins fresh alone).1]
    exact PittacusGossipState.noConfusion

/-- A call that leaves a new node where it started does not change it. -/
theorem Waiting.stays {self : PittacusGossip} (waits : Waiting [] self)
    (fresh : self.state = .initialized) {input : Input}
    (after : (gossipStep input self).state.state = .initialized) :
    (gossipStep input self).state = self := by
  cases input with
  | join seedNodes => exact absurd after (waits.leaves fresh seedNodes)
  | _ => exact initialized_step fresh _ rfl

/-- A node that is where it started was not told to join yet. -/
theorem unjoined_of_initialized (setup : NodeSetup) (inputs : List Input)
    (fresh : (Machine.run gossipStep inputs setup.node).state = .initialized) :
    inputs.findSome? Input.seeds = none := by
  induction inputs using List.reverseRecOn with
  | nil => rfl
  | append_singleton inputs input ih =>
    rw [Machine.run_append] at fresh
    have before : (Machine.run gossipStep inputs setup.node).state = .initialized := by
      by_contra left
      exact not_initialized_step left input fresh
    have waits : Waiting [] (Machine.run gossipStep inputs setup.node) := by
      cases setup.waiting.run_new rfl inputs with
      | connected stage =>
        rw [before] at stage
        cases stage
      | waiting _ waits =>
        rw [seedNodesOf, ih before] at waits
        exact waits
    rw [List.findSome?_append, ih before, Option.none_or]
    -- The last call was not to join either, or the node would have moved on.
    cases input with
    | join seedNodes => exact absurd fresh (waits.leaves before seedNodes)
    | _ => rfl

/-! ### Founders -/

/-- A node starts a cluster: when it is told to join, there are no seed nodes to join through. -/
def Founds (calls : List (ι × Input)) (i : ι) : Prop :=
  (callsOn i calls).findSome? Input.seeds = some []

instance (calls : List (ι × Input)) (i : ι) : Decidable (Founds calls i) :=
  inferInstanceAs (Decidable ((callsOn i calls).findSome? Input.seeds = some []))

/-- A node was told to join through another one, among others, and that one is connected. -/
structure Network.JoinsThrough (routes : List UInt8 → Option ι) (calls : List (ι × Input))
    (net : Network ι) (i j : ι) : Prop where
  seed : ∃ seed ∈ seedNodesOf (callsOn i calls), routes seed = some j
  connected : (net.node j).state = .connected

/-- A node is linked to a founder by nodes that joined through each other. -/
def Network.Descends (routes : List UInt8 → Option ι) (calls : List (ι × Input))
    (net : Network ι) (i : ι) : Prop :=
  ∃ founder, Relation.ReflTransGen (net.JoinsThrough routes calls) i founder ∧
    Founds calls founder

/-- A call keeps a node connected, whichever node it is made on. -/
theorem networkStep_connected {net : Network ι} {i : ι} (connected : (net.node i).state = .connected)
    (call : ι × Input) : ((networkStep call net).state.node i).state = .connected := by
  rw [networkStep_node]
  split
  · rename_i here
    rw [← here]
    exact connected_step connected call.2
  · exact connected

/-- One more call leaves the calls before it as they are. -/
theorem callsOn_grows (i : ι) (calls : List (ι × Input)) (call : ι × Input) :
    ∃ later, callsOn i (calls ++ [call]) = callsOn i calls ++ later := by
  rw [callsOn_concat]
  split
  · exact ⟨[call.2], rfl⟩
  · exact ⟨[], (List.append_nil _).symm⟩

/-- Whoever descends from a founder does so after any further call. -/
theorem Network.Descends.step {routes : List UInt8 → Option ι} {calls : List (ι × Input)}
    {net : Network ι} {i : ι} (descends : net.Descends routes calls i) (call : ι × Input) :
    (networkStep call net).state.Descends routes (calls ++ [call]) i := by
  obtain ⟨founder, linked, founds⟩ := descends
  refine ⟨founder, Relation.ReflTransGen.mono (fun node through joins => ?_) _ _ linked, ?_⟩
  · refine ⟨?_, networkStep_connected joins.connected call⟩
    obtain ⟨seed, named, lives⟩ := joins.seed
    obtain ⟨later, same⟩ := callsOn_grows node calls call
    exact ⟨seed, same ▸ seedNodesOf_append later named, lives⟩
  · obtain ⟨later, same⟩ := callsOn_grows founder calls call
    rw [Founds, same]
    exact joins_append founds

/-! ### Runs -/

/-- Only connected nodes accept anything, only they send to others than seed nodes, and all descend. -/
structure Network.Rooted (routes : List UInt8 → Option ι) (calls : List (ι × Input))
    (net : Network ι) : Prop where
  traced : net.Traced routes
  receivers : ∀ acceptance ∈ net.acceptances, (net.node acceptance.receiver).state = .connected
  seeded : ∀ transmission ∈ net.transmissions, (net.node transmission.source).state ≠ .connected →
    transmission.envelope.recipient ∈ seedNodesOf (callsOn transmission.source calls)
  descends : ∀ i, (net.node i).state = .connected → net.Descends routes calls i

/-- A welcome comes from a connected node that its recipient was told to join through. -/
theorem Network.Rooted.welcomed {routes : List UInt8 → Option ι} {calls : List (ι × Input)}
    {net : Network ι} (rooted : net.Rooted routes calls) {call : ι × Input}
    (delivers : net.Delivers routes call) (apart : (net.node call.1).state ≠ .connected)
    {msg : MessageWelcome ClusterMember} (welcome : call.2.welcome = some msg) :
    ∃ j, net.JoinsThrough routes calls call.1 j := by
  obtain ⟨i, input⟩ := call
  cases input with
  | processReceive datagram sender beyond random =>
    obtain ⟨found, accepted, -⟩ := (welcomeReceived_some sender).mp welcome
    obtain ⟨reply, sent, same, here, -⟩ := delivers (datagram, sender) rfl
    have fills := (rooted.traced.sound.faithful reply sent).fills sender beyond
    rw [show reply.datagram = datagram from same] at fills
    obtain ⟨welcome, made, -⟩ := fills.welcomed accepted
    have confirmed : welcome.helloSequenceNum ∈ reply.envelope.message.confirms := by
      rw [← Message.renumbered_confirms, made]
      rfl
    -- The welcome answers a hello, which this node sent when it was not connected.
    obtain ⟨acceptance, accepted, -, address, -, -⟩ :=
      rooted.traced.answered.transmitted reply sent _ confirmed
    obtain ⟨hello, sent_, there, source, -, -⟩ := rooted.traced.sourced acceptance accepted
    have mine : hello.source = i := by
      rw [address] at source
      exact Option.some.inj (source.symm.trans here)
    have named := rooted.seeded hello sent_ (by rw [mine]; exact apart)
    rw [mine] at named
    exact ⟨acceptance.receiver, ⟨_, named, there⟩, rooted.receivers acceptance accepted⟩
  | _ => cases welcome

/-- A call keeps the network rooted. -/
theorem Network.Rooted.step {routes : List UInt8 → Option ι} {setup : ι → NodeSetup}
    {calls : List (ι × Input)} {call : ι × Input}
    (rooted : (Machine.run networkStep calls (Network.create setup)).Rooted routes calls)
    (delivers : (Machine.run networkStep calls (Network.create setup)).Delivers routes call)
    (room : (Machine.run networkStep calls (Network.create setup)).FindsRoom call)
    (counts : (Machine.run networkStep calls (Network.create setup)).Counts call) :
    (Machine.run networkStep (calls ++ [call]) (Network.create setup)).Rooted routes
      (calls ++ [call]) := by
  rw [Machine.run_append]
  show (networkStep call _).state.Rooted routes (calls ++ [call])
  have node := networkRun_node calls (Network.create setup) call.1
  generalize Machine.run networkStep calls (Network.create setup) = net
    at rooted delivers room counts node ⊢
  have waiting : (net.node call.1).state ≠ .connected →
      Waiting (seedNodesOf (callsOn call.1 calls)) (net.node call.1) := by
    intro apart
    rw [node] at apart ⊢
    cases (setup call.1).waiting.run_new rfl (callsOn call.1 calls) with
    | connected stage => exact absurd stage apart
    | waiting _ waits => exact waits
  refine ⟨rooted.traced.step delivers room counts, ?_, ?_, ?_⟩
  · intro acceptance accepted
    rcases List.mem_append.mp accepted with before | now
    · exact networkStep_connected (rooted.receivers acceptance before) call
    · obtain ⟨found, accepts, rfl⟩ := List.mem_map.mp now
      refine networkStep_connected ?_ call
      -- A node that is not connected accepts nothing.
      by_contra apart
      have accepts := Option.mem_toList.mp accepts
      have apart : (net.node call.1).state ≠ .connected := apart
      cases input : call.2 with
      | processReceive datagram sender beyond random =>
        rw [input, PittacusGossip.accepts, if_neg apart] at accepts
        cases accepts
      | _ => rw [input] at accepts; cases accepts
  · intro transmission sent apart
    obtain ⟨later, same⟩ := callsOn_grows transmission.source calls call
    rw [same]
    have before : (net.node transmission.source).state ≠ .connected :=
      fun connected => apart (networkStep_connected connected call)
    refine seedNodesOf_append later ?_
    rcases mem_transmissions sent with old | ⟨mine, queued, -⟩
    · exact rooted.seeded transmission old before
    · rw [mine] at before ⊢
      exact ((waiting before).queue _ queued).1
  · intro i connected
    by_cases before : (net.node i).state = .connected
    · exact (rooted.descends i before).step call
    · -- The call connected this node, so it is a founder now, or was welcomed.
      rw [networkStep_node] at connected
      split at connected
      · rename_i here
        subst here
        have leads := gossipStep_stage call.2 (net.node call.1)
        rw [connected] at leads
        generalize stage : PittacusGossipState.connected = target at leads
        cases leads with
        | stays => exact absurd stage.symm before
        | joins seedNodes _ _ _ => cases stage
        | starts fresh alone =>
          refine ⟨call.1, .refl, ?_⟩
          rw [node] at fresh
          rw [Founds, callsOn_concat, if_pos rfl, List.findSome?_append,
            unjoined_of_initialized (setup call.1) _ fresh, alone]
          rfl
        | admitted msg _ welcome =>
          obtain ⟨j, joins⟩ := rooted.welcomed delivers before welcome
          obtain ⟨founder, linked, founds⟩ := rooted.descends j joins.connected
          have descends : net.Descends routes calls call.1 := ⟨founder, .head joins linked, founds⟩
          exact descends.step call
      · exact absurd connected before

end Pittacus
