import Pittacus.AntiEntropy.Completeness
import Pittacus.Basic.Hearsay
import Pittacus.Cluster.Replication

/-! What a node of a cluster knows reaches every node that hears of it through statuses. -/

namespace Pittacus

/-! ### What is answered to a status -/

/-- The data message an event queues for the sender of a status. -/
def Event.asAnswer : Event → Option MessageData
  | .enqueue _ _ _ (.data msg) .direct => some msg
  | _ => none

/-- A message that is queued for one recipient is an answer if it is a data message. -/
theorem gossipEnqueueMessage_answers (message : Message) (recipient : List UInt8)
    (random : Nat → UInt32) (self : PittacusGossip) :
    (gossipEnqueueMessage message recipient .direct random self).events.filterMap Event.asAnswer =
      (match message with
        | .data msg => [msg]
        | _ => []) := by
  rw [gossipEnqueueMessage_events, enqueueEvents_filterMap _ (fun _ _ => rfl)]
  cases message <;> rfl

/-- A status is no answer. -/
theorem gossipEnqueueStatus_answers (recipient : List UInt8) (self : PittacusGossip) :
    (gossipEnqueueStatus (some recipient) noRandom self).events.filterMap Event.asAnswer = [] :=
  gossipEnqueueMessage_answers self.statusMessage recipient noRandom self

/-- The logged messages a clock is behind of are answered in the order of the log, room or not. -/
theorem gossipEnqueueDataLog_answers (recipientVersion : VectorClock) (recipient : List UInt8)
    (records : List DataLogRecord) (self : PittacusGossip)
    (brief : ∀ record ∈ records,
      (gossipDataLogCreateMessage record).data.length ≤ messageMaxSize - 26) :
    (gossipEnqueueDataLog recipientVersion recipient records errNone self).value = errNone ∧
      (gossipEnqueueDataLog recipientVersion recipient records errNone self).events.filterMap
          Event.asAnswer =
        (records.filter fun record =>
          (vectorClockCompareWithRecord recipientVersion record.version false).1 = .before).map
            gossipDataLogCreateMessage := by
  induction records generalizing self with
  | nil => exact ⟨rfl, rfl⟩
  | cons record rest ih =>
    have others : ∀ other ∈ rest,
        (gossipDataLogCreateMessage other).data.length ≤ messageMaxSize - 26 :=
      fun other member => brief other (List.mem_cons_of_mem _ member)
    rw [gossipEnqueueDataLog]
    by_cases behind :
        (vectorClockCompareWithRecord recipientVersion record.version false).1 = .before
    · have sendable : (gossipDataLogCreateMessage record).Sendable :=
        ⟨⟨rfl, rfl⟩, brief record List.mem_cons_self⟩
      -- A message that fits is queued even if others have to make room for it.
      have accepted := gossipEnqueueMessage_accepted
        (Message.data_fits (gossipDataLogCreateMessage record)) sendable.required_le recipient
        .direct noRandom self
      have answered := gossipEnqueueMessage_answers
        (.data (gossipDataLogCreateMessage record)) recipient noRandom self
      rw [if_pos behind, List.filter_cons_of_pos (by simpa using behind), List.map_cons,
        Routine.bind_run]
      have value : (gossipEnqueueMessage (.data (gossipDataLogCreateMessage record)) recipient
          .direct noRandom self).value = errNone := by rw [accepted]
      rw [value, List.filterMap_append, answered]
      obtain ⟨ends, more⟩ := ih (gossipEnqueueMessage (.data (gossipDataLogCreateMessage record))
        recipient .direct noRandom self).state others
      exact ⟨ends, congrArg (gossipDataLogCreateMessage record :: ·) more⟩
    · rw [if_neg behind, List.filter_cons_of_neg (by simpa using behind)]
      exact ih self others

/-- A node answers a status with the data messages its sender lacks. -/
theorem answerStatus_answers (msg : MessageStatus) (sender : List UInt8) (self : PittacusGossip)
    (coherent : self.Coherent) (current : self.Current) (asked : msg.dataVersion.Readable) :
    (answerStatus msg sender self).events.filterMap Event.asAnswer
      = self.answersTo msg.dataVersion := by
  have clock : self.dataVersion.Ok := coherent.ok.clock
  obtain ⟨ahead, behind, compared, isAhead, -⟩ :=
    vectorClockCompare_verdict clock.readable asked
  obtain ⟨ends, logged⟩ := gossipEnqueueDataLog_answers msg.dataVersion sender
    self.dataLog.live self coherent.brief
  have selected : self.answersTo msg.dataVersion = (self.dataLog.live.filter fun record =>
      (vectorClockCompareWithRecord msg.dataVersion record.version false).1 = .before).map
        gossipDataLogCreateMessage := by
    rw [PittacusGossip.answersTo]
    congr 1
    refine List.filter_congr fun record member => ?_
    rw [decide_eq_decide]
    exact (before_iff_behindOn current msg.dataVersion member).symm
  rw [← selected] at logged
  rw [answerStatus, Routine.get_bind_run]
  cases ahead with
  | false =>
    -- Nobody is behind this node, so it has nothing to answer.
    have none_ : self.answersTo msg.dataVersion = [] := by
      rw [PittacusGossip.answersTo, List.map_eq_nil_iff, List.filter_eq_nil_iff]
      intro record member behindOn
      have some_ := isAhead.mpr ⟨record.originator, by simpa using behindOn⟩
      cases some_
    rw [compared, none_]
    cases behind with
    | false => rfl
    | true => exact gossipEnqueueStatus_answers sender self
  | true =>
    rw [compared]
    cases behind with
    | false => exact logged
    | true =>
      show ((gossipEnqueueDataLog msg.dataVersion sender self.dataLog.live errNone >>=
        fun result => if result < 0 then pure result
          else gossipEnqueueStatus (some sender) noRandom) self).events.filterMap _ = _
      rw [Routine.bind_run, ends, List.filterMap_append, logged, if_neg (by decide),
        gossipEnqueueStatus_answers, List.append_nil]

/-- The receipt of a status of some node. -/
structure Request where
  asking : PittacusGossip
  sequenceNum : UInt32
  sender : List UInt8
  beyond : Nat → UInt8
  random : Nat → UInt32

/-- The call that receives the status. -/
def Request.input (request : Request) : Input :=
  .processReceive (request.asking.statusMessage.datagram request.sequenceNum) request.sender
    request.beyond request.random

/-- A connected node answers the status of another one with all it has that the other one lacks. -/
theorem Request.answers (request : Request) {self : PittacusGossip}
    (connected : self.state = .connected) (coherent : self.Coherent) (current : self.Current)
    (ok : request.asking.dataVersion.Ok) :
    (gossipStep request.input self).events.filterMap Event.asAnswer
      = self.answersTo request.asking.dataVersion := by
  obtain ⟨msg, arrives, ran⟩ := status_handled connected request.asking ok request.sequenceNum
    request.sender request.beyond request.random
  have acked := gossipEnqueueMessage_answers (ackMessage request.sequenceNum) request.sender
    noRandom self
  have same := gossipEnqueueMessage_same (ackMessage request.sequenceNum) request.sender .direct
    noRandom self
  have answered := answerStatus_answers msg request.sender _ (same.coherent coherent)
    (same.current current) (arrives.readable ok)
  rw [same.answersTo, arrives.answersTo self] at answered
  rw [Request.input, ran, Routine.bind_run, List.filterMap_append, acked, answered]
  rfl

/-! ### What a node has seen -/

variable {ι : Type}

/-- The number of the last payload of another node in the clock of a node; zero if there is none. -/
def Cluster.seen (cluster : Cluster ι) (reader poster : ι) : Nat :=
  ((cluster.node reader).dataVersion.latest (cluster.memberId poster)).elim 0 UInt32.toNat

/-- What a cluster shows of a board is what its nodes have seen. -/
theorem Cluster.Shows.seen_eq {cluster : Cluster ι} {board : Board ι (List UInt8)}
    (shows_ : cluster.Shows board) (few : ∀ i, (cluster.sent i).length < 2 ^ 32)
    (reader poster : ι) : board.seen reader poster = cluster.seen reader poster := by
  have clock := shows_.clock reader poster
  have inside := board.within reader poster
  rw [shows_.posted] at inside
  rw [Cluster.seen, clock]
  cases seen : board.seen reader poster with
  | zero => rfl
  | succ number =>
    rw [seen] at inside
    rw [Cluster.sentAs, List.getElem?_eq_getElem inside]
    exact (UInt32.toNat_ofNat_of_lt' (Nat.lt_of_le_of_lt inside (few poster))).symm

variable [Fintype ι] [DecidableEq ι]

/-- A cluster that shows a board, and whose nodes have different ids and are coherent. -/
structure Cluster.InOrder (cluster : Cluster ι) : Prop where
  mirrors : ∃ board, cluster.Mirrors board
  coherent : ∀ i, (cluster.node i).Coherent
  distinct : Function.Injective cluster.memberId
  nodes : Fintype.card ι ≤ maxVectorSize

namespace Cluster.InOrder

variable {cluster : Cluster ι}

/-- A run keeps a cluster in order, and no node sees less than before. -/
theorem run (inOrder : cluster.InOrder) {calls : List (ι × Input)}
    (possible : Machine.Along clusterStep Possible calls cluster)
    (few : ∀ i, ((Machine.run clusterStep calls cluster).sent i).length < 2 ^ 32) :
    (Machine.run clusterStep calls cluster).InOrder ∧
      ∀ reader poster,
        cluster.seen reader poster ≤ (Machine.run clusterStep calls cluster).seen reader poster := by
  obtain ⟨board, mirrors⟩ := inOrder.mirrors
  obtain ⟨sights, later, run, mirrors_, -⟩ :=
    mirrors.run inOrder.distinct inOrder.nodes possible few
  have ids : (Machine.run clusterStep calls cluster).memberId = cluster.memberId :=
    funext (memberId_run calls cluster)
  have coherent : ∀ i, ((Machine.run clusterStep calls cluster).node i).Coherent :=
    Machine.run_invariant (fun state call (coherent : ∀ i, (state.node i).Coherent) possible i => by
      rw [clusterStep_node]
      split
      · exact (coherent call.1).step possible.short
      · exact coherent i) inOrder.coherent possible
  refine ⟨⟨⟨later, mirrors_⟩, coherent, by rw [ids]; exact inOrder.distinct, inOrder.nodes⟩,
    fun reader poster => ?_⟩
  -- On the board, whoever sees something sees something newer.
  have before : ∀ i, (cluster.sent i).length < 2 ^ 32 := fun i =>
    Nat.lt_of_le_of_lt (sent_grows_run calls cluster i).length_le (few i)
  rw [← mirrors.shows_.seen_eq before, ← mirrors_.shows_.seen_eq few]
  exact run.advances.up reader poster

omit [DecidableEq ι] in
/-- What a node holds of another one is the payload it has seen last. -/
theorem held (inOrder : cluster.InOrder) (few : ∀ i, (cluster.sent i).length < 2 ^ 32)
    (reader poster : ι) :
    (cluster.node reader).knowledge.held (cluster.memberId poster)
      = cluster.sentAs poster (cluster.seen reader poster) := by
  obtain ⟨board, mirrors⟩ := inOrder.mirrors
  rw [← mirrors.shows_.seen_eq few]
  exact mirrors.shows_.log reader poster

omit [DecidableEq ι] in
/-- No node mentions anybody who is not in the cluster. -/
theorem mentions (inOrder : cluster.InOrder) (i : ι) :
    (cluster.node i).knowledge.mentions ⊆ cluster.originators := by
  obtain ⟨board, mirrors⟩ := inOrder.mirrors
  have ok := (mirrors.tracks i).ok
  have among := (mirrors.tracks i).among
  intro originator mentioned
  rcases Finset.mem_union.mp mentioned with clock | log
  · obtain ⟨record, used, rfl⟩ := List.mem_map.mp (List.mem_toFinset.mp clock)
    exact among.clock _ _ (ok.clock.latest_of_mem used)
  · obtain ⟨record, used, rfl⟩ := List.mem_map.mp (List.mem_toFinset.mp log)
    exact among.log _ _ (ok.log.latest_of_mem used)

omit [DecidableEq ι] in
theorem few_mentions (inOrder : cluster.InOrder) (i : ι) :
    (cluster.node i).knowledge.mentions.card ≤ maxVectorSize :=
  Nat.le_trans (Finset.card_le_card (inOrder.mentions i))
    (Nat.le_trans Finset.card_image_le inOrder.nodes)

omit [DecidableEq ι] in
/-- Whoever lacks something of a node is answered with the payload the other one saw last. -/
theorem answers (inOrder : cluster.InOrder) {source poster : ι} {asked : VectorClock}
    (behind : asked.BehindOn (cluster.node source).dataVersion (cluster.memberId poster)) :
    ∃ answer ∈ (cluster.node source).answersTo asked, answer.Sendable ∧
      answer.dataVersion.memberId = cluster.memberId poster ∧
      answer.dataVersion.sequenceNumber.toNat = cluster.seen source poster := by
  have coherent := inOrder.coherent source
  have few := inOrder.few_mentions source
  obtain ⟨answer, member, from_⟩ := List.mem_map.mp
    (((answersTo_originators coherent few asked).2 _).mpr behind)
  obtain ⟨record, used, -, rfl⟩ := mem_answersTo member
  have originator : record.originator = cluster.memberId poster := from_
  -- The logged version is the one the clock holds.
  have latest := coherent.current few record used
  rw [originator] at latest
  refine ⟨_, member, ⟨⟨rfl, rfl⟩, coherent.brief record used⟩, from_, ?_⟩
  rw [Cluster.seen, latest]
  rfl

end Cluster.InOrder

/-- Whatever arrives at a node has been seen there afterwards, or something newer. -/
theorem Cluster.InOrder.seen_arrived {cluster : Cluster ι} (inOrder : cluster.InOrder)
    {call : ι × Input} {poster : ι} {msg : MessageData}
    (brought : (cluster.node call.1).news call.2 = .arrived msg)
    (from_ : msg.dataVersion.memberId = cluster.memberId poster) :
    msg.dataVersion.sequenceNumber.toNat ≤ (clusterStep call cluster).state.seen call.1 poster := by
  obtain ⟨board, mirrors⟩ := inOrder.mirrors
  have learned := (gossipStep_learns call.2 (cluster.node call.1)).knowledge
  have inside : msg.dataVersion.memberId ∈ cluster.originators := by
    rw [from_]
    exact cluster.mem_originators poster
  obtain ⟨taken, dropped, -⟩ := Knowledge.learn_arrived (mirrors.tracks call.1).ok
    (mirrors.tracks call.1).among (Nat.le_trans Finset.card_image_le inOrder.nodes) inside
  rw [Cluster.seen, memberId_step, clusterStep_node, if_pos rfl, ← from_]
  show _ ≤ ((gossipStep call.2 (cluster.node call.1)).state.knowledge.clock.latest _).elim _ _
  rw [learned, brought]
  by_cases novel : (cluster.node call.1).knowledge.Novel msg
  · rw [(taken novel).latest]
    exact Nat.le_refl _
  · -- What is not new is not above what the node has seen.
    rw [dropped novel]
    unfold Knowledge.Novel at novel
    push Not at novel
    obtain ⟨held, found, covers⟩ := novel
    rw [show (cluster.node call.1).knowledge.clock.latest msg.dataVersion.memberId = some held
      from found]
    exact UInt32.le_iff_toNat_le.mp (UInt32.not_lt.mp covers)

/-- A connected node has seen a data message after the message arrived. -/
theorem Cluster.InOrder.seen_arrival {cluster : Cluster ι} (inOrder : cluster.InOrder)
    {reader poster : ι} (connected : (cluster.node reader).state = .connected) (arrival : Arrival)
    (sendable : arrival.data.Sendable)
    (from_ : arrival.data.dataVersion.memberId = cluster.memberId poster) :
    arrival.data.dataVersion.sequenceNumber.toNat ≤
      (clusterStep (reader, arrival.input) cluster).state.seen reader poster := by
  let call : ι × Input := (reader, arrival.input)
  have brought : (cluster.node call.1).news call.2 = .arrived arrival.message := by
    show (if (cluster.node reader).state = .connected then _ else _) = _
    rw [if_pos connected, arrival.dataReceived sendable]
  have seen : arrival.message.dataVersion.sequenceNumber.toNat ≤
      (clusterStep call cluster).state.seen call.1 poster := inOrder.seen_arrived brought from_
  exact seen

end Pittacus
