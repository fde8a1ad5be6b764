import Pittacus.AntiEntropy.Dissemination
import Pittacus.Cluster.Retirement

/-! A few exchanges of statuses, each of them answered, bring a whole cluster to the same state. -/

namespace Pittacus

variable {ι : Type} [DecidableEq ι]

/--
A node is told what another one knows: its status arrives there, and all answers arrive back.

Statuses and answers may have been under way for any time, and anything may happen in between.
Calls are given as all those made since the cluster was created.
-/
def Pull (start : Cluster ι) (before : List (ι × Input)) (reader source : ι)
    (after : List (ι × Input)) : Prop :=
  ∃ earlier later request,
    before <+: earlier ∧ after = earlier ++ (source, Request.input request) :: later ∧
    (∃ asked, asked <+: earlier ∧
      request.asking = (Machine.run clusterStep asked start).node reader) ∧
    ((Machine.run clusterStep earlier start).node reader).state = .connected ∧
    ((Machine.run clusterStep earlier start).node source).state = .connected ∧
    ∀ answer ∈ (clusterStep (source, request.input)
        (Machine.run clusterStep earlier start)).events.filterMap (Event.asAnswer ∘ Prod.snd),
      ∃ arrival : Arrival, arrival.data = answer ∧ (reader, arrival.input) ∈ later

/-- A node of a cluster that is connected stays connected. -/
theorem connected_in_cluster {cluster : Cluster ι} {i : ι}
    (connected : (cluster.node i).state = .connected) (calls : List (ι × Input)) :
    ((Machine.run clusterStep calls cluster).node i).state = .connected := by
  induction calls generalizing cluster with
  | nil => exact connected
  | cons call rest ih =>
    refine ih ?_
    rw [clusterStep_node]
    split
    · rename_i here
      rw [here] at connected
      exact connected_step connected call.2
    · exact connected

/-- A run from a new cluster in which all is possible, and all payloads can be counted. -/
structure Countable (start : Cluster ι) (calls : List (ι × Input)) : Prop where
  possible : Machine.Along clusterStep Possible calls start
  few : ∀ i, ((Machine.run clusterStep calls start).sent i).length < 2 ^ 32

/-- A run is countable as long as a longer one is. -/
theorem Countable.shorter {start : Cluster ι} {early late : List (ι × Input)}
    (countable : Countable start (early ++ late)) : Countable start early where
  possible := (Machine.along_append.mp countable.possible).1
  few i := by
    have few := countable.few i
    rw [Machine.run_append] at few
    exact Nat.lt_of_le_of_lt (sent_grows_run late _ i).length_le few

section Runs

variable [Fintype ι] {start : Cluster ι} {early late : List (ι × Input)}

/-- What is seen after some calls is seen, or something newer, after some more. -/
theorem Countable.seen_le (countable : Countable start (early ++ late)) (inOrder : start.InOrder)
    (reader poster : ι) :
    (Machine.run clusterStep early start).seen reader poster ≤
      (Machine.run clusterStep (early ++ late) start).seen reader poster := by
  have shorter := countable.shorter
  have next := (inOrder.run shorter.possible shorter.few).1
  have few := countable.few
  rw [Machine.run_append] at few ⊢
  exact (next.run (Machine.along_append.mp countable.possible).2 few).2 reader poster

/-- A payload that its reader did not have on asking arrives with the answers. -/
theorem Countable.arrives_seen {later : List (ι × Input)} {reader poster : ι} {arrival : Arrival}
    (countable : Countable start (early ++ later)) (inOrder : start.InOrder)
    (connected : ((Machine.run clusterStep early start).node reader).state = .connected)
    (sendable : arrival.data.Sendable)
    (from_ : arrival.data.dataVersion.memberId = start.memberId poster)
    (arrives : (reader, arrival.input) ∈ later) :
    arrival.data.dataVersion.sequenceNumber.toNat ≤
      (Machine.run clusterStep (early ++ later) start).seen reader poster := by
  obtain ⟨first, second, rfl⟩ := List.append_of_mem arrives
  have until_ : Countable start (early ++ first) := by
    rw [← List.append_assoc] at countable
    exact countable.shorter
  have there := (inOrder.run until_.possible until_.few).1
  have awake : ((Machine.run clusterStep (early ++ first) start).node reader).state = .connected := by
    rw [Machine.run_append]
    exact connected_in_cluster connected first
  have seen := there.seen_arrival awake arrival sendable (by rw [memberId_run, from_])
  -- What is seen on arrival is seen at the end.
  have whole : early ++ (first ++ (reader, arrival.input) :: second)
      = (early ++ first ++ [(reader, arrival.input)]) ++ second := by simp
  rw [whole] at countable ⊢
  refine Nat.le_trans ?_ (countable.seen_le inOrder reader poster)
  rw [Machine.run_append]
  exact seen

/-- A pull tells its reader all that its source has seen before. -/
theorem Pull.told {before after : List (ι × Input)} {reader source : ι}
    (pull : Pull start before reader source after) (inOrder : start.InOrder)
    (countable : Countable start after) (poster : ι) :
    (Machine.run clusterStep before start).seen source poster ≤
      (Machine.run clusterStep after start).seen reader poster := by
  obtain ⟨earlier, later, request, ⟨more, rfl⟩, rfl, ⟨asked, ⟨since, whole⟩, asking⟩, awake, open_,
    arrives⟩ := pull
  have first := countable.shorter
  have there := (inOrder.run first.possible first.few).1
  have old := first.seen_le inOrder source poster
  refine Nat.le_trans old ?_
  -- The clock that asks is in order, like every clock of the cluster.
  have asking_ : Countable start asked := by
    rw [← whole] at first
    exact first.shorter
  have asked_ := (inOrder.run asking_.possible asking_.few).1
  have ok : request.asking.dataVersion.Ok := by
    rw [asking]
    exact (asked_.coherent reader).ok.clock
  by_cases behind : request.asking.dataVersion.BehindOn
      ((Machine.run clusterStep (before ++ more) start).node source).dataVersion
      ((Machine.run clusterStep (before ++ more) start).memberId poster)
  · obtain ⟨answer, member, sendable, from_, number⟩ := there.answers behind
    have answered := request.answers open_ (there.coherent source)
      ((there.coherent source).current (there.few_mentions source)) ok
    have shown : (clusterStep (source, request.input)
        (Machine.run clusterStep (before ++ more) start)).events.filterMap
          (Event.asAnswer ∘ Prod.snd) =
        ((Machine.run clusterStep (before ++ more) start).node source).answersTo
          request.asking.dataVersion := by
      rw [← answered]
      exact List.filterMap_map
    rw [shown] at arrives
    obtain ⟨arrival, rfl, received⟩ := arrives answer member
    rw [← number]
    rw [memberId_run] at from_
    exact countable.arrives_seen inOrder awake sendable from_ (List.mem_cons_of_mem _ received)
  · -- What the reader does not lack it had seen when it asked.
    refine Nat.le_trans ?_ (countable.seen_le inOrder reader poster)
    rw [← whole] at first ⊢
    refine Nat.le_trans ?_ (first.seen_le inOrder reader poster)
    rw [whole]
    cases latest : ((Machine.run clusterStep (before ++ more) start).node source).dataVersion.latest
        ((Machine.run clusterStep (before ++ more) start).memberId poster) with
    | none =>
      rw [Cluster.seen, latest]
      exact Nat.zero_le _
    | some number =>
      have kept : ¬∀ own ∈ request.asking.dataVersion.latest
          ((Machine.run clusterStep (before ++ more) start).memberId poster), own < number :=
        fun below => behind ⟨number, latest, below⟩
      push Not at kept
      obtain ⟨own, found, covers⟩ := kept
      rw [asking, memberId_run] at found
      rw [Cluster.seen, latest, Cluster.seen, memberId_run, found]
      exact UInt32.le_iff_toNat_le.mp (UInt32.not_lt.mp covers)

omit [DecidableEq ι] in
/-- A new cluster of few nodes with different ids is in order. -/
theorem create_inOrder (nodes : Fintype.card ι ≤ maxVectorSize) (setup : ι → NodeSetup)
    (distinct : Function.Injective (Cluster.create setup).memberId) :
    (Cluster.create setup).InOrder where
  mirrors := ⟨_, create_mirrors setup⟩
  coherent i := (setup i).coherent
  distinct := distinct
  nodes := nodes

/-- After pulls, what a node has seen is seen by everybody who has heard of it. -/
theorem seen_of_hears {before after : List (ι × Input)} {pulls : List (ι × ι)}
    (pulled : Pulled (Pull start) before pulls after) (inOrder : start.InOrder)
    (countable : Countable start after) {i j : ι} (hears : Hears pulls i j) (poster : ι) :
    (Machine.run clusterStep before start).seen j poster ≤
      (Machine.run clusterStep after start).seen i poster := by
  have longer : ∀ {before : List (ι × Input)} {reader source : ι} {after : List (ι × Input)},
      Pull start before reader source after → before <+: after := by
    rintro _ _ _ _ ⟨earlier, later, request, more, rfl, -⟩
    exact more.trans (List.prefix_append _ _)
  let knows : List (ι × Input) → ι → ι → Nat := fun calls i poster =>
    (Machine.run clusterStep calls start).seen i poster
  show knows before j poster ≤ knows after i poster
  refine pulled.le
    (fun before reader source after pull countable => ?_)
    (fun before reader source after pull countable reader_ poster => ?_)
    (fun before reader source after pull countable => pull.told inOrder countable) countable hears
    poster
  · obtain ⟨more, rfl⟩ := longer pull
    exact countable.shorter
  · obtain ⟨more, rfl⟩ := longer pull
    exact countable.seen_le inOrder reader_ poster

end Runs

/-! ### Two nodes -/

/-- Two new nodes. -/
def twoNodes : Cluster (Fin 2) :=
  Cluster.create fun i => localSetup (if i = firstNode then 1 else 2)

/-- A node sends what it has to send, and nothing is left of its output buffer. -/
def sending (i : Fin 2) : Fin 2 × Input := (i, .processSend (fun _ => 0) (fun _ => 0))

/-- The first node has sent a payload, which has not arrived yet, and announces its clock. -/
def overdue : List (Fin 2 × Input) :=
  exchange.take 7 ++ [(firstNode, .tick 100000 noRandom), sending firstNode]

/-- The status of a node after some calls, under its third number. -/
def thirdStatus (calls : List (Fin 2 × Input)) (i : Fin 2) : Request :=
  ⟨(Machine.run clusterStep calls twoNodes).node i, 3,
    loopback (if i = firstNode then 1 else 2), fun _ => 0, noRandom⟩

/-- The status of the first node arrives at the second one, which has nothing to answer. -/
def firstPull : List (Fin 2 × Input) :=
  overdue ++ [(secondNode, (thirdStatus overdue firstNode).input)]

/-- The second node asks in turn. -/
def askingBack : List (Fin 2 × Input) := firstPull ++ [sending secondNode]

/-- The first node answers the second one, and the answers arrive. -/
def secondPull : List (Fin 2 × Input) :=
  let request := thirdStatus firstPull secondNode
  let asked := clusterStep (firstNode, request.input) (Machine.run clusterStep askingBack twoNodes)
  askingBack ++ (firstNode, request.input) :: sending firstNode ::
    (asked.events.filterMap (Event.asAnswer ∘ Prod.snd)).map fun answer =>
      (secondNode, Arrival.input ⟨answer, 5, loopback 1, fun _ => 0, noRandom⟩)

/-- Both nodes have pulled from each other. -/
theorem pulled_two : Pulled (Pull twoNodes) overdue [(0, 1), (1, 0)] secondPull := by
  have first : Pull twoNodes overdue 0 1 firstPull := by
    refine ⟨overdue, [], thirdStatus overdue 0, List.prefix_refl _, rfl,
      ⟨overdue, List.prefix_refl _, rfl⟩, by decide +kernel, by decide +kernel, fun answer given => ?_⟩
    -- The second node has nothing that the first one lacks.
    have nothing : ((clusterStep (1, (thirdStatus overdue 0).input)
        (Machine.run clusterStep overdue twoNodes)).events.filterMap
          (Event.asAnswer ∘ Prod.snd)).isEmpty = true := by decide +kernel
    rw [List.isEmpty_iff.mp nothing] at given
    cases given
  have second : Pull twoNodes firstPull 1 0 secondPull := by
    refine ⟨askingBack, _, thirdStatus firstPull 1, List.prefix_append _ _, rfl,
      ⟨firstPull, List.prefix_append _ _, rfl⟩, by decide +kernel, by decide +kernel,
      fun answer given => ?_⟩
    exact ⟨⟨answer, 5, loopback 1, fun _ => 0, noRandom⟩, rfl,
      List.mem_cons_of_mem _ (List.mem_map_of_mem given)⟩
  exact .next first (.next second (.done _))

/-- Everything in it could happen. -/
theorem secondPull_countable : Countable twoNodes secondPull :=
  ⟨by decide +kernel, by decide +kernel⟩

/-! ### Dissemination -/

section Converged

variable [Fintype ι] {cluster : Cluster ι}

omit [DecidableEq ι] in
/-- No node has seen more of another one than was sent, and each has seen all of its own. -/
theorem Cluster.InOrder.seen_le_sent (inOrder : cluster.InOrder)
    (few : ∀ i, (cluster.sent i).length < 2 ^ 32) (reader poster : ι) :
    cluster.seen reader poster ≤ (cluster.sent poster).length ∧
      cluster.seen poster poster = (cluster.sent poster).length := by
  obtain ⟨board, mirrors⟩ := inOrder.mirrors
  rw [← mirrors.shows_.seen_eq few, ← mirrors.shows_.seen_eq few, ← mirrors.shows_.posted]
  exact ⟨board.within reader poster, board.own poster⟩

omit [DecidableEq ι] in
/-- Nodes that have seen the same hold the same in their clocks. -/
theorem Cluster.InOrder.latest_eq (inOrder : cluster.InOrder)
    (few : ∀ i, (cluster.sent i).length < 2 ^ 32) {i j : ι}
    (same : ∀ poster, cluster.seen i poster = cluster.seen j poster) (originator : UInt64) :
    (cluster.node i).dataVersion.latest originator
      = (cluster.node j).dataVersion.latest originator := by
  obtain ⟨board, mirrors⟩ := inOrder.mirrors
  by_cases known : ∃ poster, cluster.memberId poster = originator
  · obtain ⟨poster, rfl⟩ := known
    rw [mirrors.shows_.clock, mirrors.shows_.clock, mirrors.shows_.seen_eq few,
      mirrors.shows_.seen_eq few, same]
  · -- Nobody holds anything of an id that no node has.
    have absent : ∀ i, (cluster.node i).dataVersion.latest originator = none := by
      intro i
      cases latest : (cluster.node i).dataVersion.latest originator with
      | none => rfl
      | some number =>
        have member := (mirrors.tracks i).among.clock originator number latest
        obtain ⟨poster, -, at_⟩ := Finset.mem_image.mp member
        exact absurd ⟨poster, at_⟩ known
    rw [absent, absent]

end Converged

/-- Clocks that hold the same are compared as equal. -/
theorem vectorClockCompare_of_same {first second : VectorClock} (readable : first.Readable)
    (readable_ : second.Readable)
    (same : ∀ originator, first.latest originator = second.latest originator) :
    (vectorClockCompare first second false).1 = .equal := by
  obtain ⟨ahead, behind, compared, isAhead, isBehind⟩ :=
    vectorClockCompare_verdict readable readable_
  have never : ∀ number : UInt32, ¬number < number := fun number => UInt32.lt_irrefl number
  -- Being behind would mean that a number is smaller than itself.
  have level : ∀ {lower upper : VectorClock},
      (∀ originator, lower.latest originator = upper.latest originator) →
        ¬∃ originator, lower.BehindOn upper originator := by
    rintro lower upper same ⟨originator, held, found, smaller⟩
    exact never held (smaller held (by rw [same]; exact found))
  rw [compared]
  cases ahead with
  | true => exact absurd (isAhead.mp rfl) (level fun originator => (same originator).symm)
  | false =>
    cases behind with
    | true => exact absurd (isBehind.mp rfl) (level same)
    | false => rfl

/-- A connected node does nothing about a status that tells it nothing new but acknowledge it. -/
theorem Request.settled (request : Request) {self : PittacusGossip}
    (connected : self.state = .connected) (ok : self.dataVersion.Ok)
    (asking : request.asking.dataVersion.Ok)
    (same : ∀ originator,
      self.dataVersion.latest originator = request.asking.dataVersion.latest originator) :
    gossipStep request.input self = gossipEnqueueAck request.sequenceNum request.sender self := by
  obtain ⟨msg, arrives, ran⟩ := status_handled connected request.asking asking request.sequenceNum
    request.sender request.beyond request.random
  have acked := gossipEnqueueMessage_same (ackMessage request.sequenceNum) request.sender .direct
    noRandom self
  have fits : (ackMessage request.sequenceNum).Fits := ⟨List.forall_mem_nil _, trivial⟩
  have accepted := gossipEnqueueMessage_accepted fits
    (show messageHeaderSize + 4 ≤ messageMaxSize by decide) request.sender .direct noRandom self
  have equal := vectorClockCompare_of_same ok.readable (arrives.readable asking)
    fun originator => (same originator).trans (latest_congr arrives.live originator).symm
  rw [← acked.dataVersion] at equal
  rw [Request.input, ran, Routine.bind_run, answerStatus, Routine.get_bind_run, equal]
  show (⟨errNone, _, _ ++ []⟩ : Outcome PittacusGossip Event Int) = _
  rw [List.append_nil, gossipEnqueueAck]
  show _ = gossipEnqueueMessage (ackMessage request.sequenceNum) request.sender .direct noRandom self
  rw [accepted]
  rfl

end Pittacus
