import Pittacus.AntiEntropy.Exchange

/-! What one node answers to the status of another is exactly what the other one lacks. -/

namespace Pittacus

/-! ### Nodes that met few originators -/

/-- With few originators, the clock and the log of a coherent node hold the same ones. -/
theorem PittacusGossip.Coherent.same_originators {node : PittacusGossip} (coherent : node.Coherent)
    (few : node.knowledge.mentions.card ≤ maxVectorSize) (originator : UInt64) :
    node.dataVersion.latest originator = none ↔ node.dataLog.latest originator = none := by
  rcases coherent.inStep with many | same
  · -- A log that is longer than a clock mentions too many originators.
    have size := coherent.ok.size_le_mentions
    omega
  · exact same originator

/-- With few originators, every logged version of a coherent node is the one the clock holds. -/
theorem PittacusGossip.Coherent.current {node : PittacusGossip} (coherent : node.Coherent)
    (few : node.knowledge.mentions.card ≤ maxVectorSize) : node.Current := by
  intro record used
  have logged : node.dataLog.latest record.originator = some record :=
    coherent.ok.log.latest_of_mem used
  -- Whoever is logged is in the clock as well, with the same number.
  cases held : node.dataVersion.latest record.originator with
  | none =>
    rw [(coherent.same_originators few _).mp held] at logged
    cases logged
  | some number => rw [coherent.ok.agree _ _ _ held logged]

/-! ### What is answered -/

/-- There is exactly one answer for each originator the other clock is behind on. -/
theorem answersTo_originators {node : PittacusGossip} (coherent : node.Coherent)
    (few : node.knowledge.mentions.card ≤ maxVectorSize) (asked : VectorClock) :
    ((node.answersTo asked).map (·.dataVersion.memberId)).Nodup ∧
      ∀ originator, originator ∈ (node.answersTo asked).map (·.dataVersion.memberId) ↔
        asked.BehindOn node.dataVersion originator := by
  have originators : (node.answersTo asked).map (·.dataVersion.memberId) =
      (node.dataLog.live.filter fun record =>
        asked.BehindOn node.dataVersion record.originator).map DataLogRecord.originator := by
    rw [PittacusGossip.answersTo, List.map_map]
    rfl
  rw [originators]
  constructor
  · -- No originator is logged twice.
    have distinct : (node.dataLog.live.map DataLogRecord.originator).Nodup :=
      SlotRing.Ok.distinct coherent.ok.log
    exact distinct.sublist (List.filter_sublist.map _)
  · intro originator
    constructor
    · intro member
      obtain ⟨record, selected, rfl⟩ := List.mem_map.mp member
      simpa using (List.mem_filter.mp selected).2
    · intro behind
      obtain ⟨held, latest, smaller⟩ := behind
      -- What the clock holds is logged, since both hold the same originators.
      cases logged : node.dataLog.latest originator with
      | none =>
        rw [Option.mem_def, (coherent.same_originators few _).mpr logged] at latest
        cases latest
      | some record =>
        obtain ⟨used, from_⟩ := mem_of_logged logged
        refine List.mem_map.mpr ⟨record, List.mem_filter.mpr ⟨used, ?_⟩, from_⟩
        rw [from_]
        exact decide_eq_true ⟨held, latest, smaller⟩

/-- Every answer is a logged message that is new to whoever asked. -/
theorem mem_answersTo {node : PittacusGossip} {asked : VectorClock} {answer : MessageData}
    (member : answer ∈ node.answersTo asked) :
    ∃ record ∈ node.dataLog.live, asked.BehindOn node.dataVersion record.originator ∧
      answer = gossipDataLogCreateMessage record := by
  obtain ⟨record, selected, rfl⟩ := List.mem_map.mp member
  obtain ⟨used, behind⟩ := List.mem_filter.mp selected
  exact ⟨record, used, by simpa using behind, rfl⟩

/-! ### Catching up -/

/-- The larger of two sequence numbers, either of which may be missing. -/
def largerOf : Option UInt32 → Option UInt32 → Option UInt32
  | none, number => number
  | number, none => number
  | some first, some second => if first < second then some second else some first

/-- A clock that is behind ends up with the other number. -/
theorem largerOf_behind {lower upper : VectorClock} {originator : UInt64} {held : UInt32}
    (behind : lower.BehindOn upper originator) (latest : upper.latest originator = some held) :
    largerOf (lower.latest originator) (upper.latest originator) = some held := by
  obtain ⟨number, found, smaller⟩ := behind
  rw [Option.mem_def, latest] at found
  cases found
  rw [latest]
  cases own : lower.latest originator with
  | none => rfl
  | some first => exact if_pos (smaller first own)

/-- A clock that is not behind keeps its own number. -/
theorem largerOf_not_behind {lower upper : VectorClock} {originator : UInt64}
    (ahead : ¬lower.BehindOn upper originator) :
    largerOf (lower.latest originator) (upper.latest originator) = lower.latest originator := by
  cases latest : upper.latest originator with
  | none => cases lower.latest originator <;> rfl
  | some held =>
    cases own : lower.latest originator with
    | none => exact absurd ⟨held, latest, fun first none_ => by rw [own] at none_; cases none_⟩ ahead
    | some first =>
      -- A larger number of the other clock would be one this clock is behind on.
      refine if_neg fun smaller => ahead ⟨held, latest, fun number found => ?_⟩
      rw [Option.mem_def, own] at found
      cases found
      exact smaller

/--
One node has caught up with another.

It holds the larger number for each originator, and what it was behind on it logged and delivered.
-/
structure CaughtUp (before other : PittacusGossip) (events : List Event) (after : PittacusGossip) :
    Prop where
  latest : ∀ originator, after.dataVersion.latest originator =
    largerOf (before.dataVersion.latest originator) (other.dataVersion.latest originator)
  logged : ∀ originator, before.dataVersion.BehindOn other.dataVersion originator →
    ∃ record ∈ other.dataLog.live, ∃ record_ ∈ after.dataLog.live,
      record.originator = originator ∧ record_.version = record.version ∧
        (gossipDataLogCreateMessage record_).data = (gossipDataLogCreateMessage record).data ∧
        (before.dataReceiver = true →
          .receive record.version (gossipDataLogCreateMessage record).data ∈ events)

/-- A connected node that receives all answers catches up, in any order and however often. -/
theorem answers_catchUp {node asker : PittacusGossip} (coherent : node.Coherent)
    (connected : asker.state = .connected) (ok : asker.knowledge.Ok)
    (few : (node.knowledge.mentions ∪ asker.knowledge.mentions).card ≤ maxVectorSize)
    (arrivals : List Arrival)
    (sent : ∀ arrival ∈ arrivals, arrival.data ∈ node.answersTo asker.dataVersion)
    (complete : ∀ answer ∈ node.answersTo asker.dataVersion,
      ∃ arrival ∈ arrivals, arrival.data = answer) :
    CaughtUp asker node (Machine.trace gossipStep (arrivals.map Arrival.input) asker)
      (Machine.run gossipStep (arrivals.map Arrival.input) asker) := by
  have few_ : node.knowledge.mentions.card ≤ maxVectorSize :=
    Nat.le_trans (Finset.card_le_card Finset.subset_union_left) few
  have current := coherent.current few_
  have distinct : (node.dataLog.live.map DataLogRecord.originator).Nodup :=
    SlotRing.Ok.distinct coherent.ok.log
  have good : Arrivals (node.knowledge.mentions ∪ asker.knowledge.mentions) arrivals := by
    refine ⟨fun arrival member => ?_, fun arrival member => ?_, fun arrival member other member_ => ?_⟩
    · obtain ⟨record, used, -, same⟩ := mem_answersTo (sent arrival member)
      rw [same]
      exact ⟨⟨rfl, rfl⟩, coherent.brief record used⟩
    · obtain ⟨record, used, -, same⟩ := mem_answersTo (sent arrival member)
      rw [same]
      refine Finset.mem_union_left _ (Finset.mem_union_right _ (List.mem_toFinset.mpr ?_))
      exact List.mem_map.mpr ⟨record, used, rfl⟩
    · -- Two answers for one originator are the same logged message.
      obtain ⟨record, used, -, same⟩ := mem_answersTo (sent arrival member)
      obtain ⟨record_, used_, -, same_⟩ := mem_answersTo (sent other member_)
      rw [same, same_]
      intro originator
      have one := List.inj_on_of_nodup_map distinct used used_ originator
      rw [one]
      exact ⟨rfl, rfl⟩
  have novel : ∀ arrival ∈ arrivals, asker.knowledge.Novel arrival.data := by
    intro arrival member own found
    obtain ⟨record, used, ⟨held, latest, smaller⟩, same⟩ := mem_answersTo (sent arrival member)
    rw [Option.mem_def, current record used] at latest
    cases latest
    rw [same] at found ⊢
    exact smaller own found
  have mentioned : asker.knowledge.mentions ⊆ node.knowledge.mentions ∪ asker.knowledge.mentions :=
    Finset.subset_union_right
  have among := asker.knowledge.among_mentions.mono mentioned
  have takes := arrivals_takesOver few arrivals good asker connected ok among
    fun arrival member => .inl (novel arrival member)
  -- An originator the asker is behind on has an answer, and so an arrival.
  have arrived : ∀ originator, asker.dataVersion.BehindOn node.dataVersion originator →
      ∃ arrival ∈ arrivals, ∃ record ∈ node.dataLog.live, record.originator = originator ∧
        arrival.data = gossipDataLogCreateMessage record := by
    intro originator behind
    have answered := ((answersTo_originators coherent few_ asker.dataVersion).2 originator).mpr behind
    obtain ⟨answer, member, from_⟩ := List.mem_map.mp answered
    obtain ⟨arrival, inside, same⟩ := complete answer member
    obtain ⟨record, used, -, made⟩ := mem_answersTo member
    exact ⟨arrival, inside, record, used, by rw [← from_, made]; rfl, same.trans made⟩
  refine ⟨fun originator => ?_, fun originator behind => ?_⟩
  · by_cases behind : asker.dataVersion.BehindOn node.dataVersion originator
    · obtain ⟨arrival, member, record, used, rfl, same⟩ := arrived originator behind
      have has := (takes.has arrival member).latest
      rw [same] at has
      rw [largerOf_behind behind (current record used)]
      exact has
    · rw [largerOf_not_behind behind]
      refine (takes.others originator fun arrival member named => ?_).latest
      obtain ⟨record, used, behind_, same⟩ := mem_answersTo (sent arrival member)
      rw [same] at named
      exact behind (named ▸ behind_)
  · obtain ⟨arrival, member, record, used, rfl, same⟩ := arrived originator behind
    obtain ⟨record_, found, version, data⟩ := (takes.has arrival member).logged
    have delivered := fun receiving => takes.delivers receiving arrival member (novel arrival member)
    rw [same] at version data delivered
    exact ⟨record, used, record_, (mem_of_logged found).1, rfl, version, data, delivered⟩

/-! ### One exchange -/

/--
What a node answers to a status is exactly what brings the node that sent it up to date.

The answer is one acknowledgement, one data message for each originator the sender is behind on, and
a status if the answering node is itself behind.
Once the data messages were received, in any order and however often, the sender holds all of it.
-/
theorem antiEntropy_complete (setup setup_ : NodeSetup) (inputs inputs_ : List Input)
    (short : ∀ input ∈ inputs, ∀ data ∈ input.payload, data.length ≤ messageMaxSize - 26) :
    let node := Machine.run gossipStep inputs setup.node
    let asker := Machine.run gossipStep inputs_ setup_.node
    node.state = .connected → asker.state = .connected →
    (node.knowledge.mentions ∪ asker.knowledge.mentions).card ≤ maxVectorSize →
    node.outboundMessages = [] →
    ∀ sequenceNum sender beyond random,
      let after := (gossipStep (.processReceive (asker.statusMessage.datagram sequenceNum) sender
        beyond random) node).state
      after.Sends ∧ ∃ answers : List MessageData,
        (answers.map (·.dataVersion.memberId)).Nodup ∧
        (∀ originator, originator ∈ answers.map (·.dataVersion.memberId) ↔
          asker.dataVersion.BehindOn node.dataVersion originator) ∧
        ((∃ originator, node.dataVersion.BehindOn asker.dataVersion originator) →
          after.awaiting = (sender, ackMessage sequenceNum) ::
            answers.map (fun answer => (sender, .data answer)) ++
              [(sender, node.statusMessage)]) ∧
        ((¬∃ originator, node.dataVersion.BehindOn asker.dataVersion originator) →
          after.awaiting = (sender, ackMessage sequenceNum) ::
            answers.map fun answer => (sender, .data answer)) ∧
        ∀ arrivals : List Arrival, (∀ arrival ∈ arrivals, arrival.data ∈ answers) →
          (∀ answer ∈ answers, ∃ arrival ∈ arrivals, arrival.data = answer) →
          CaughtUp asker node (Machine.trace gossipStep (arrivals.map Arrival.input) asker)
            (Machine.run gossipStep (arrivals.map Arrival.input) asker) := by
  intro node asker connected connected_ few idle sequenceNum sender beyond random after
  have coherent : node.Coherent := run_coherent setup short
  have ok : asker.knowledge.Ok := run_ok setup_ inputs_
  have few_ : node.knowledge.mentions.card ≤ maxVectorSize :=
    Nat.le_trans (Finset.card_le_card Finset.subset_union_left) few
  -- Every answer comes out of the log, which is coherent after any run.
  obtain ⟨distinct, exact_⟩ := answersTo_originators coherent few_ asker.dataVersion
  obtain ⟨sends, lacking, complete⟩ := status_answered connected coherent (coherent.current few_) idle asker
    ok.clock sequenceNum sender beyond random
  exact ⟨sends, node.answersTo asker.dataVersion, distinct, exact_, lacking, complete,
    fun arrivals sent received =>
      answers_catchUp coherent connected_ ok few arrivals sent received⟩

/-- Two nodes that each sent a payload of their own exchange them. -/
theorem antiEntropy_complete_two :
    let node := Machine.run gossipStep [.join [], .sendData [42] noRandom] (localSetup 1).node
    let asker := Machine.run gossipStep [.join [], .sendData [7] noRandom] (localSetup 2).node
    ∃ answers : List MessageData,
      (gossipStep (.processReceive (asker.statusMessage.datagram 1) (loopback 2) (fun _ => 0)
        noRandom) node).state.awaiting =
          (loopback 2, ackMessage 1) :: answers.map (fun answer => (loopback 2, .data answer)) ++
            [(loopback 2, node.statusMessage)] ∧
      ∀ arrivals : List Arrival, (∀ arrival ∈ arrivals, arrival.data ∈ answers) →
        (∀ answer ∈ answers, ∃ arrival ∈ arrivals, arrival.data = answer) →
        CaughtUp asker node (Machine.trace gossipStep (arrivals.map Arrival.input) asker)
          (Machine.run gossipStep (arrivals.map Arrival.input) asker) := by
  intro node asker
  obtain ⟨-, answers, -, -, lacking, -, catchUp⟩ := antiEntropy_complete (localSetup 1)
    (localSetup 2) [.join [], .sendData [42] noRandom] [.join [], .sendData [7] noRandom]
    (by decide) (by decide +kernel) (by decide +kernel) (by decide +kernel)
    (List.isEmpty_iff.mp (by decide +kernel)) 1 (loopback 2) (fun _ => 0) noRandom
  -- The first node lacks what the second one sent.
  have lacks : node.dataVersion.BehindOn asker.dataVersion
      (vectorClockCreateMemberId (localSetup 2).node.selfAddress) := by
    decide +kernel
  exact ⟨answers, lacking ⟨_, lacks⟩, catchUp⟩

end Pittacus
