import Mathlib.Data.Fintype.Basic
import Mathlib.Logic.Function.Basic
import Pittacus.Cluster.Vouching
import Pittacus.Knowledge.SendData
import Pittacus.Ownership.Runs

/-! In every run of a cluster, what is delivered under a version is what its originator sent. -/

namespace Pittacus

/-! ### Clusters -/

/--
The nodes of a cluster, the payloads each of them sent, and the datagrams they emitted.

Nothing is ever taken out of the lists, so a datagram may arrive late, often, or never.
-/
structure Cluster (ι : Type) where
  node : ι → PittacusGossip
  /-- The payloads of the successful calls that send data, in order. -/
  sent : ι → List (List UInt8)
  datagrams : List (List UInt8)

/-- A cluster of new nodes. -/
def Cluster.create {ι : Type} (setup : ι → NodeSetup) : Cluster ι where
  node i := (setup i).node
  sent _ := []
  datagrams := []

/-- The datagram an event emits, if it emits one. -/
def Event.asDatagram : Event → Option (List UInt8)
  | .sendTo _ datagram _ _ => some datagram
  | _ => none

variable {ι : Type} [DecidableEq ι]

/-- One call on one node of a cluster; a call fails with a negative value. -/
def clusterStep (call : ι × Input) : Routine (Cluster ι) (ι × Event) Int := fun cluster =>
  let ran := gossipStep call.2 (cluster.node call.1)
  let payloads := if 0 ≤ ran.value then call.2.payload.toList else []
  { value := ran.value
    state :=
      { node := Function.update cluster.node call.1 ran.state
        sent := Function.update cluster.sent call.1 (cluster.sent call.1 ++ payloads)
        datagrams := cluster.datagrams ++ ran.events.filterMap Event.asDatagram }
    events := ran.events.map fun event => (call.1, event) }

/-- The vector clock id of a node. -/
def Cluster.memberId (cluster : Cluster ι) (i : ι) : UInt64 :=
  vectorClockCreateMemberId (cluster.node i).selfAddress

/-- The node a version names sent a payload, in the successful call of the version's number. -/
def Cluster.Authored (cluster : Cluster ι) (version : VectorRecord) (data : List UInt8) : Prop :=
  ∃ i, cluster.memberId i = version.memberId ∧ 1 ≤ version.sequenceNumber.toNat ∧
    (cluster.sent i)[version.sequenceNumber.toNat - 1]? = some data

/-- An event that queues a message finds a slot of the output buffer unoccupied. -/
def Event.FindsRoom : Event → Prop
  | .enqueue found _ _ _ _ => ∃ i < maxOutputMessages, bufferIsOccupied found i = false
  | _ => True

instance : (event : Event) → Decidable event.FindsRoom
  | .enqueue _ _ _ _ _ => inferInstanceAs (Decidable (∃ i < maxOutputMessages, _))
  | .sendTo _ _ _ _ | .remove _ _ | .log _ | .receive _ _ => .isTrue trivial

/-- A call receives nothing that was not emitted, sends a payload that fits, and finds room. -/
structure Possible (cluster : Cluster ι) (call : ι × Input) : Prop where
  arrives : ∀ datagram ∈ call.2.datagram, datagram ∈ cluster.datagrams
  short : ∀ data ∈ call.2.payload, data.length ≤ messageMaxSize - 26
  room : ∀ event ∈ (clusterStep call cluster).events, event.2.FindsRoom

instance (cluster : Cluster ι) (call : ι × Input) : Decidable (Possible cluster call) :=
  decidable_of_iff
    ((∀ datagram ∈ call.2.datagram, datagram ∈ cluster.datagrams) ∧
      (∀ data ∈ call.2.payload, data.length ≤ messageMaxSize - 26) ∧
      ∀ event ∈ (clusterStep call cluster).events, event.2.FindsRoom)
    ⟨fun holds => ⟨holds.1, holds.2.1, holds.2.2⟩,
      fun possible => ⟨possible.arrives, possible.short, possible.room⟩⟩

/-- A delivery hands over what the originator sent earlier. -/
def Event.AuthoredIn (cluster : Cluster ι) : Event → Prop
  | .receive version data => cluster.Authored version data
  | _ => True

/-! ### Sending a payload -/

/-- A call that brings news of a payload was given that payload. -/
theorem payload_of_news {self : PittacusGossip} {input : Input} {data : List UInt8}
    (brought : (self.news input).payload = some data) : input.payload = some data := by
  cases input with
  | sendData payload random =>
    simp only [PittacusGossip.news] at brought
    split at brought
    · exact brought
    · cases brought
  | processReceive datagram sender beyond random =>
    -- A received message is not a payload of the node's own.
    simp only [PittacusGossip.news] at brought
    split at brought
    · split at brought <;> cases brought
    · cases brought
  | _ => cases brought

/-- A call sends a payload successfully exactly when it brings news of one. -/
theorem payloads_eq (self : PittacusGossip) (input : Input)
    (short : ∀ data ∈ input.payload, data.length ≤ messageMaxSize - 26) :
    (if 0 ≤ (gossipStep input self).value then input.payload.toList else [])
      = (self.news input).payload.toList := by
  cases given : input.payload with
  | none =>
    cases brought : (self.news input).payload with
    | none => exact ite_self _
    | some data => rw [payload_of_news brought] at given; cases given
  | some data =>
    -- Only one kind of call is given a payload.
    cases input with
    | sendData payload random =>
      cases given
      have success := sendData_succeeds self random (short data rfl)
      simp only [success, PittacusGossip.news]
      split <;> rfl
    | _ => cases given

/-! ### What a step changes -/

/-- A step changes one node. -/
theorem clusterStep_node (cluster : Cluster ι) (call : ι × Input) (i : ι) :
    (clusterStep call cluster).state.node i =
      if i = call.1 then (gossipStep call.2 (cluster.node call.1)).state else cluster.node i :=
  Function.update_apply _ _ _ _

/-- A step adds the payload it sends to those of its node. -/
theorem clusterStep_sent (cluster : Cluster ι) (call : ι × Input)
    (short : ∀ data ∈ call.2.payload, data.length ≤ messageMaxSize - 26) (i : ι) :
    (clusterStep call cluster).state.sent i =
      if i = call.1 then
        cluster.sent call.1 ++ ((cluster.node call.1).news call.2).payload.toList
      else cluster.sent i := by
  rw [← payloads_eq (cluster.node call.1) call.2 short]
  exact Function.update_apply _ _ _ _

/-- Whatever was sent stays sent. -/
theorem sent_grows (cluster : Cluster ι) (call : ι × Input) (i : ι) :
    cluster.sent i <+: (clusterStep call cluster).state.sent i := by
  show cluster.sent i <+: Function.update cluster.sent call.1 _ i
  rw [Function.update_apply]
  split
  · rename_i here
    rw [here]
    exact List.prefix_append _ _
  · exact List.prefix_refl _

theorem sent_grows_run (calls : List (ι × Input)) (cluster : Cluster ι) (i : ι) :
    cluster.sent i <+: (Machine.run clusterStep calls cluster).sent i := by
  induction calls generalizing cluster with
  | nil => exact List.prefix_refl _
  | cons call rest ih => exact (sent_grows cluster call i).trans (ih _)

/-- No node ever changes its id. -/
theorem memberId_step (cluster : Cluster ι) (call : ι × Input) (i : ι) :
    (clusterStep call cluster).state.memberId i = cluster.memberId i := by
  rw [Cluster.memberId, clusterStep_node]
  split
  · rename_i here
    rw [here]
    -- The id is part of what a node knows, and nothing it learns changes it.
    have learned := (gossipStep_learns call.2 (cluster.node call.1)).knowledge
    exact (congrArg Knowledge.ownId learned).trans (Knowledge.learn_ownId _ _)
  · rfl

theorem memberId_run (calls : List (ι × Input)) (cluster : Cluster ι) (i : ι) :
    (Machine.run clusterStep calls cluster).memberId i = cluster.memberId i := by
  induction calls generalizing cluster with
  | nil => rfl
  | cons call rest ih => exact (ih _).trans (memberId_step cluster call i)

omit [DecidableEq ι] in
/-- Whatever was authored stays authored when ids stay and more is sent. -/
theorem Cluster.Authored.later {cluster later : Cluster ι} {version : VectorRecord}
    {data : List UInt8} (authored : cluster.Authored version data)
    (ids : ∀ i, later.memberId i = cluster.memberId i)
    (grown : ∀ i, cluster.sent i <+: later.sent i) : later.Authored version data := by
  obtain ⟨i, same, first, found⟩ := authored
  obtain ⟨more, whole⟩ := grown i
  refine ⟨i, (ids i).trans same, first, ?_⟩
  -- What was found in the shorter list is found at the same place of the longer one.
  have inside := (List.getElem?_eq_some_iff.mp found).1
  rw [← whole, List.getElem?_append_left inside, found]

/-! ### The invariant -/

/--
Every node keeps to what was authored, counts its payloads, and every datagram is genuine.
-/
structure Cluster.Intact (cluster : Cluster ι) : Prop where
  reliable : ∀ i, (cluster.node i).Reliable cluster.Authored
  counted : ∀ i, (cluster.node i).dataCounter.toNat = (cluster.sent i).length
  genuine : ∀ datagram ∈ cluster.datagrams, Genuine cluster.Authored datagram

/-- A queue with a free slot loses none. -/
theorem Event.FindsRoom.spares {event : Event} (room : event.FindsRoom) : event.Spares := by
  cases event with
  | enqueue found slot left message spreading =>
    exact spares_of_free room
  | _ => trivial

/-- A new node logged and queued nothing that anybody would have to vouch for. -/
theorem NodeSetup.reliable (setup : NodeSetup) (truth : VectorRecord → List UInt8 → Prop) :
    setup.node.Reliable truth where
  sound := create_sound _ _ _ _ _
  fit := List.forall_mem_nil _
  vouches :=
    { log := (create_tracks ∅ setup.selfAddress setup.bounded setup.now setup.dataReceiver
        setup.fresh).ok.log
      logged := List.forall_mem_nil _
      queued := List.forall_mem_nil _ }

omit [DecidableEq ι] in
/-- A new cluster is intact. -/
theorem create_intact (setup : ι → NodeSetup) : (Cluster.create setup).Intact where
  reliable i := (setup i).reliable _
  counted _ := rfl
  genuine _ emitted := absurd emitted List.not_mem_nil

/-- What an intact cluster delivers was authored earlier. -/
theorem Cluster.Intact.delivers {cluster : Cluster ι} {call : ι × Input} (intact : cluster.Intact)
    (possible : Possible cluster call) :
    ∀ event ∈ (clusterStep call cluster).events, event.2.AuthoredIn cluster := by
  intro event caused
  obtain ⟨cause, occurred, rfl⟩ := List.mem_map.mp caused
  cases news : ((cluster.node call.1).news call.2).payload with
  | none =>
    -- Nothing is sent, so all data goes back to what was authored before.
    have genuine := (gossipStep_vouching call.2 (cluster.node call.1) (intact.reliable call.1)
      (fun datagram received => intact.genuine datagram (possible.arrives datagram received))
      (by rw [news]; exact fun data none_ => absurd none_ (by simp))).2.2 cause occurred
    cases cause with
    | receive version data => exact genuine
    | _ => trivial
  | some data =>
    -- A node does not deliver its own payload.
    cases cause with
    | receive version payload =>
      have delivered := (gossipStep_learns call.2 (cluster.node call.1)).deliveries
      have none_ : (cluster.node call.1).knowledge.received
          ((cluster.node call.1).news call.2) = none := by
        cases brought : (cluster.node call.1).news call.2 with
        | sent data => rfl
        | nothing => rfl
        | arrived msg => rw [brought] at news; cases news
      rw [none_] at delivered
      have shown : (version, payload) ∈
          (gossipStep call.2 (cluster.node call.1)).events.filterMap Event.asDelivery :=
        List.mem_filterMap.mpr ⟨_, occurred, rfl⟩
      rw [delivered] at shown
      split at shown <;> cases shown
    | _ => trivial

/-- A payload that is sent is authored under the number of the counter, its place in the list. -/
theorem Cluster.Intact.authors {cluster : Cluster ι} {call : ι × Input} (intact : cluster.Intact)
    (possible : Possible cluster call)
    (few : ∀ i, ((clusterStep call cluster).state.sent i).length < 2 ^ 32) :
    ∀ data ∈ ((cluster.node call.1).news call.2).payload,
      (clusterStep call cluster).state.Authored
        ((cluster.node call.1).ownMessage data).dataVersion
        ((cluster.node call.1).ownMessage data).data := by
  intro data brought
  have sent := clusterStep_sent cluster call possible.short call.1
  have counted := intact.counted call.1
  have room := few call.1
  rw [if_pos rfl, Option.mem_def.mp brought] at sent
  rw [sent, List.length_append] at room
  have number : ((cluster.node call.1).dataCounter + 1).toNat
      = (cluster.sent call.1).length + 1 := by
    simp only [Option.toList_some, List.length_singleton] at room
    simp only [UInt32.toNat_add, UInt32.toNat_one]
    omega
  refine ⟨call.1, memberId_step cluster call call.1, ?_, ?_⟩
  · show 1 ≤ ((cluster.node call.1).dataCounter + 1).toNat
    omega
  · have short := possible.short data (payload_of_news brought)
    show ((clusterStep call cluster).state.sent call.1)[
      ((cluster.node call.1).dataCounter + 1).toNat - 1]? = _
    rw [ownMessage_data _ short, sent, number]
    simp

/-- A step keeps a cluster intact, as long as the payloads can be counted. -/
theorem Cluster.Intact.step {cluster : Cluster ι} {call : ι × Input} (intact : cluster.Intact)
    (possible : Possible cluster call)
    (few : ∀ i, ((clusterStep call cluster).state.sent i).length < 2 ^ 32) :
    (clusterStep call cluster).state.Intact := by
  have later : ∀ version data, cluster.Authored version data →
      (clusterStep call cluster).state.Authored version data :=
    fun version data authored =>
      authored.later (memberId_step cluster call) (sent_grows cluster call)
  have sent := clusterStep_sent cluster call possible.short call.1
  have counter := dataCounter_step (cluster.node call.1) call.2
  have counted := intact.counted call.1
  have room := few call.1
  rw [if_pos rfl] at sent
  rw [sent, List.length_append] at room
  have arrives : ∀ datagram ∈ call.2.datagram,
      Genuine (clusterStep call cluster).state.Authored datagram :=
    fun datagram received =>
      (intact.genuine datagram (possible.arrives datagram received)).mono later
  have spares : ∀ event ∈ (gossipStep call.2 (cluster.node call.1)).events, event.Spares :=
    fun event caused =>
      (possible.room (call.1, event) (List.mem_map.mpr ⟨event, caused, rfl⟩)).spares
  obtain ⟨reliable, genuine⟩ := gossipStep_reliable call.2 (cluster.node call.1)
    ((intact.reliable call.1).mono later) arrives (intact.authors possible few) spares
  refine ⟨fun i => ?_, fun i => ?_, fun datagram emitted => ?_⟩
  · rw [clusterStep_node]
    split
    · exact reliable
    · exact (intact.reliable i).mono later
  · rw [clusterStep_node, clusterStep_sent cluster call possible.short]
    split
    · rw [counter, List.length_append, ← counted]
      cases news : (cluster.node call.1).news call.2 with
      | nothing => simp [News.payload]
      | arrived msg => simp [News.payload]
      | sent data =>
        rw [news] at room
        simp only [News.payload, Option.toList_some, List.length_singleton] at room ⊢
        simp only [UInt32.toNat_add, UInt32.toNat_one]
        omega
    · exact intact.counted i
  · rcases List.mem_append.mp emitted with before | now
    · exact (intact.genuine datagram before).mono later
    · obtain ⟨event, caused, shown⟩ := List.mem_filterMap.mp now
      have good := genuine event caused
      cases event with
      | sendTo envelope bytes time result =>
        cases shown
        exact good
      | _ => cases shown

/-! ### Runs -/

/-- No state of a run has more payloads than the run ends with. -/
theorem few_along {calls : List (ι × Input)} {cluster : Cluster ι}
    (few : ∀ i, ((Machine.run clusterStep calls cluster).sent i).length < 2 ^ 32) :
    Machine.Along clusterStep
      (fun cluster call => ∀ i, ((clusterStep call cluster).state.sent i).length < 2 ^ 32) calls
      cluster := by
  -- What was sent only grows, so the bound at the end holds at every state before.
  induction calls generalizing cluster with
  | nil => trivial
  | cons call rest ih =>
    refine ⟨fun i => ?_, ih few⟩
    exact Nat.lt_of_le_of_lt (sent_grows_run rest _ i).length_le (few i)

/-- What was authored when it was delivered is authored at the end of the run. -/
theorem authored_at_end {calls : List (ι × Input)} {cluster : Cluster ι}
    (delivers : Machine.Along clusterStep
      (fun cluster call =>
        ∀ event ∈ (clusterStep call cluster).events, event.2.AuthoredIn cluster) calls cluster) :
    ∀ event ∈ Machine.trace clusterStep calls cluster,
      event.2.AuthoredIn (Machine.run clusterStep calls cluster) := by
  induction calls generalizing cluster with
  | nil => exact List.forall_mem_nil _
  | cons call rest ih =>
    intro event caused
    rcases List.mem_append.mp caused with now | later
    · -- Authored then is authored later: ids stay and the payloads sent only grow.
      have authored := delivers.1 event now
      obtain ⟨receiver, cause⟩ := event
      cases cause with
      | receive version data =>
        exact Cluster.Authored.later authored (memberId_run (call :: rest) cluster)
          (sent_grows_run (call :: rest) cluster)
      | _ => trivial
    · exact ih delivers.2 event later

/--
Whatever is delivered under a version is what the node of that id sent as its payload of that number.

This holds in every run of nodes with different ids, whatever becomes of the datagrams.
In particular, the same version is never delivered with different payloads.
-/
theorem data_integrity (setup : ι → NodeSetup)
    (distinct : Function.Injective (Cluster.create setup).memberId) (calls : List (ι × Input))
    (possible : Machine.Along clusterStep Possible calls (Cluster.create setup))
    (few : ∀ i,
      ((Machine.run clusterStep calls (Cluster.create setup)).sent i).length < 2 ^ 32) :
    Machine.Along clusterStep
        (fun cluster call =>
          ∀ event ∈ (clusterStep call cluster).events, event.2.AuthoredIn cluster)
        calls (Cluster.create setup) ∧
      ∀ first second version data data_,
        (first, .receive version data) ∈
            Machine.trace clusterStep calls (Cluster.create setup) →
        (second, .receive version data_) ∈
            Machine.trace clusterStep calls (Cluster.create setup) →
        data = data_ := by
  have delivers := Machine.along_of_invariant
    (fun cluster call intact steps => Cluster.Intact.step intact steps.1 steps.2)
    (fun cluster call intact steps => Cluster.Intact.delivers intact steps.1)
    (create_intact setup) (possible.and (few_along few))
  refine ⟨delivers, fun first second version data data_ delivered delivered_ => ?_⟩
  obtain ⟨i, mine, -, found⟩ := authored_at_end delivers _ delivered
  obtain ⟨j, yours, -, found_⟩ := authored_at_end delivers _ delivered_
  -- Both payloads go back to the node of that id, and to the same place in its list.
  have same : i = j := by
    apply distinct
    calc
      (Cluster.create setup).memberId i = version.memberId := by rw [← mine, memberId_run]
      _ = (Cluster.create setup).memberId j := by rw [← yours, memberId_run]
  subst same
  rw [found] at found_
  exact Option.some.inj found_

/--
The second of two nodes joins the first one, which then sends it a payload.

Every datagram arrives as it was emitted.
-/
def exchange : List (Fin 2 × Input) :=
  let first := (localSetup 1).node
  let second := (localSetup 2).node
  let hello : Message := .hello ⟨messageHeaderInit messageHelloType 0, second.selfAddress⟩
  let welcome : Message := .welcome ⟨messageHeaderInit messageWelcomeType 0, 1, first.selfAddress⟩
  let data : Message := .data (first.ownMessage [42])
  let send : Input := .processSend (fun _ => 0) (fun _ => 0)
  let arrival (message : Message) (sequenceNum : UInt32) (port : UInt8) : Input :=
    .processReceive (message.datagram sequenceNum) (loopback port) (fun _ => 0) noRandom
  [(0, .join []), (1, .join [loopback 1]), (1, send), (0, arrival hello 1 2), (0, send),
    (1, arrival welcome 1 1), (0, .sendData [42] noRandom), (0, send), (1, arrival data 2 1)]

/-- The payload is delivered to the second node, as the first one sent it. -/
theorem data_integrity_two :
    (∃ event ∈ Machine.trace clusterStep exchange
        (Cluster.create fun i : Fin 2 => localSetup (if i = 0 then 1 else 2)),
      event.2.asDelivery
        = some (⟨1, vectorClockCreateMemberId (localSetup 1).node.selfAddress⟩, [42])) ∧
    Machine.Along clusterStep
      (fun cluster call =>
        ∀ event ∈ (clusterStep call cluster).events, event.2.AuthoredIn cluster)
      exchange (Cluster.create fun i : Fin 2 => localSetup (if i = 0 then 1 else 2)) :=
  ⟨by decide +kernel,
    (data_integrity (fun i : Fin 2 => localSetup (if i = 0 then 1 else 2)) (by decide +kernel)
      exchange (by decide +kernel) (by decide +kernel)).1⟩

end Pittacus
