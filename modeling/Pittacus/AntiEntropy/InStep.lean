import Mathlib.Data.List.Perm.Subperm
import Pittacus.AntiEntropy.Comparison
import Pittacus.Knowledge.Delivery
import Pittacus.Wire.Decoders

/-! As long as few originators occur, a node's clock and its log hold the same ones. -/

namespace Pittacus

/-! ### The originators a node mentions -/

/-- The originators in the clock or in the log. -/
def Knowledge.mentions (known : Knowledge) : Finset UInt64 :=
  (known.clock.live.map VectorRecord.memberId).toFinset ∪
    (known.log.live.map DataLogRecord.originator).toFinset

/-- Every originator held is mentioned. -/
theorem Knowledge.among_mentions (known : Knowledge) : known.Among known.mentions where
  clock _ _ found := by
    refine Finset.mem_union_left _ (List.mem_toFinset.mpr ?_)
    exact List.mem_map.mpr ⟨_, mem_of_latest found, rfl⟩
  log _ _ found := by
    obtain ⟨member, same⟩ := mem_of_logged found
    exact Finset.mem_union_right _ (List.mem_toFinset.mpr (List.mem_map.mpr ⟨_, member, same⟩))

/-- Originators held may be more, but not fewer, than those of a larger set. -/
theorem Knowledge.Among.mono {known : Knowledge} {originators wider : Finset UInt64}
    (among : known.Among originators) (inside : originators ⊆ wider) : known.Among wider where
  clock originator held found := inside (among.clock originator held found)
  log originator record found := inside (among.log originator record found)

/-- No log in use is longer than the number of originators it mentions. -/
theorem Knowledge.Ok.size_le_mentions {known : Knowledge} (ok : known.Ok) :
    known.log.size ≤ known.mentions.card := by
  -- Every originator has one slot.
  have distinct : (known.log.live.map DataLogRecord.originator).Nodup := SlotRing.Ok.distinct ok.log
  have length : known.log.messages.length = dataLogSize := SlotRing.Ok.length ok.log
  have bound : known.log.size ≤ dataLogSize := SlotRing.Ok.size_le ok.log
  have used : known.log.live.length = known.log.size := by
    rw [DataLog.live, List.length_take, length]
    exact Nat.min_eq_left bound
  calc
    known.log.size = (known.log.live.map DataLogRecord.originator).toFinset.card := by
      rw [List.toFinset_card_of_nodup distinct, List.length_map, used]
    _ ≤ known.mentions.card := Finset.card_le_card Finset.subset_union_right

/-! ### Clock and log in step -/

/--
Clock and log hold the same originators, unless more were met than a clock has room for.

The log has room for more originators than the clock, so it still tells when that has happened.
-/
def Knowledge.InStep (known : Knowledge) : Prop :=
  maxVectorSize < known.log.size ∨
    ∀ originator, known.clock.latest originator = none ↔ known.log.latest originator = none

/-- Logging a message never shrinks the log, and extends it by an originator not in it yet. -/
theorem gossipDataLog_size (log : DataLog) (msg : MessageData) :
    log.size ≤ (gossipDataLog log msg).size ∧
      (log.latest msg.dataVersion.memberId = none → log.size < dataLogSize →
        (gossipDataLog log msg).size = log.size + 1) := by
  have size : (gossipDataLog log msg).size = (gossipDataLog log msg).ring.size := rfl
  rw [size, gossipDataLog_ring, SlotRing.put]
  -- A logged originator keeps its slot, another takes a new one while there are any.
  cases found : log.ring.findIdx DataLogRecord.originator msg.dataVersion.memberId with
  | some place =>
    refine ⟨Nat.le_refl _, fun absent => ?_⟩
    rw [DataLog.latest, ← SlotRing.findIdx_none, found] at absent
    cases absent
  | none =>
    constructor
    · show log.size ≤ if log.size < dataLogSize then log.size + 1 else log.size
      by_cases room : log.size < dataLogSize
      · rw [if_pos room]
        exact Nat.le_succ _
      · rw [if_neg room]
    · exact fun _ room => if_pos room

/-- A clock whose originators are all logged uses no more slots than the log. -/
theorem Knowledge.Ok.size_le_log {known : Knowledge} (ok : known.Ok)
    (same : ∀ originator,
      known.clock.latest originator = none ↔ known.log.latest originator = none) :
    known.clock.size ≤ known.log.size := by
  have distinct : (known.clock.live.map VectorRecord.memberId).Nodup := SlotRing.Ok.distinct ok.clock
  -- No originator has two slots in the clock, so counting originators counts slots.
  have inside : known.clock.live.map VectorRecord.memberId ⊆
      known.log.live.map DataLogRecord.originator := by
    intro originator member
    obtain ⟨record, used, rfl⟩ := List.mem_map.mp member
    cases logged : known.log.latest record.memberId with
    | none =>
      have held := ok.clock.latest_of_mem used
      rw [(same _).mpr logged] at held
      cases held
    | some found =>
      obtain ⟨member, from_⟩ := mem_of_logged logged
      exact List.mem_map.mpr ⟨found, member, from_⟩
  have shorter := (List.subperm_of_subset distinct inside).length_le
  rw [List.length_map, List.length_map, ok.clock.readable.live_length] at shorter
  exact Nat.le_trans shorter (List.length_take_le _ _)

/-- Whatever a node learns leaves its clock and log in step. -/
theorem Knowledge.InStep.learn {known : Knowledge} (inStep : known.InStep) (ok : known.Ok)
    (news : News) : (known.learn news).InStep := by
  unfold InStep
  rw [learn_clock, learn_log]
  cases taken : known.adopted news with
  | none => exact inStep
  | some msg =>
    obtain ⟨grows, extends_⟩ := gossipDataLog_size known.log msg
    rcases inStep with many | same
    · exact .inl (Nat.lt_of_lt_of_le many grows)
    · by_cases many : maxVectorSize < (gossipDataLog known.log msg).size
      · exact .inl many
      · refine .inr fun originator => ?_
        have small : known.log.size ≤ maxVectorSize := by omega
        have short := ok.size_le_log same
        -- Neither the clock nor the log has to make room.
        have clockKept : known.clock.forgets msg.dataVersion.memberId = none := by
          apply SlotRing.evicted_eq_none
          intro absent
          have unheld : known.clock.latest msg.dataVersion.memberId = none := by
            rw [VectorClock.latest, absent, Option.map_none]
          have next := extends_ ((same _).mp unheld) (Nat.lt_of_le_of_lt small (by decide))
          show known.clock.size < maxVectorSize
          omega
        have logKept : known.log.forgets msg.dataVersion.memberId = none := by
          apply SlotRing.evicted_eq_none
          exact fun _ => Nat.lt_of_le_of_lt small (by decide)
        obtain ⟨slot, logged⟩ := ok.log.latest_log msg
        simp only [ok.clock.latest_set, logged, clockKept, logKept, reduceCtorEq, if_false]
        by_cases own : originator = msg.dataVersion.memberId
        · simp [own]
        · simp only [if_neg own]
          exact same originator

/-- Whatever happens to a node, its clock and its log stay in step. -/
theorem run_inStep (setup : NodeSetup) (inputs : List Input) :
    (Machine.run gossipStep inputs setup.node).knowledge.InStep := by
  -- Nothing is held in the beginning, and every call is a piece of news.
  have start : setup.node.knowledge.InStep := .inr fun _ => ⟨fun _ => rfl, fun _ => rfl⟩
  induction inputs using List.reverseRecOn with
  | nil => exact start
  | append_singleton earlier input ih =>
    rw [Machine.run_append]
    show (gossipStep input _).state.knowledge.InStep
    rw [(gossipStep_learns input _).knowledge]
    exact ih.learn (run_ok setup earlier) _

/-! ### Payloads -/

/-- Every logged payload fits a message. -/
def Knowledge.Brief (known : Knowledge) : Prop :=
  ∀ record ∈ known.log.live,
    (gossipDataLogCreateMessage record).data.length ≤ messageMaxSize - 26

/-- A log of payloads that fit takes over another one. -/
theorem Knowledge.Brief.learn {known : Knowledge} (brief : known.Brief) (ok : known.Ok)
    {news : News}
    (short : ∀ msg ∈ known.adopted news, msg.data.length ≤ messageMaxSize - 26) :
    (known.learn news).Brief := by
  unfold Brief
  rw [learn_log]
  cases taken : known.adopted news with
  | none => exact brief
  | some msg =>
    intro record used
    -- A logged payload is the new one, or was logged before.
    rcases ok.log.mem_live_log used with ⟨slot, rfl⟩ | old
    · rw [logged_data]
      exact short msg taken
    · exact brief record old

/-- A datagram is received into a buffer that leaves no room for a longer payload. -/
theorem dataReceived_short {datagram : List UInt8} {beyond : Nat → UInt8} {msg : MessageData}
    (received : dataReceived datagram beyond = some msg) :
    msg.data.length ≤ messageMaxSize - 26 := by
  have bound : (datagram.take messageMaxSize).length ≤ messageMaxSize := List.length_take_le _ _
  simp only [dataReceived, messageDataDecode_result] at received
  split at received
  · rename_i count found accepted
    cases received
    split at accepted
    · cases accepted
    split at accepted
    · cases accepted
    · -- The size checked is that of the datagram, which the buffer bounds.
      rename_i size
      cases accepted
      rw [dataAt, Decoder.slice_length]
      simp only [ne_eq, not_not, messageMaxSize] at size bound ⊢
      omega
  · cases received

/-- What a node takes over is short, if what it is given to send is. -/
theorem adopted_short {self : PittacusGossip} {input : Input}
    (short : ∀ data ∈ input.payload, data.length ≤ messageMaxSize - 26) :
    ∀ msg ∈ self.knowledge.adopted (self.news input),
      msg.data.length ≤ messageMaxSize - 26 := by
  intro msg taken
  cases input with
  | sendData data random =>
    simp only [PittacusGossip.news] at taken
    split at taken
    · -- Narrowing the size of a payload never makes the payload longer.
      cases taken
      have given := short data rfl
      exact Nat.le_trans (List.length_take_le' _ _) given
    · cases taken
  | processReceive datagram sender beyond random =>
    simp only [PittacusGossip.news] at taken
    split at taken
    · cases found : dataReceived datagram beyond with
      | none => rw [found] at taken; cases taken
      | some arrived =>
        rw [found] at taken
        simp only [Knowledge.adopted, Knowledge.received] at taken
        split at taken
        · cases taken
          exact dataReceived_short found
        · cases taken
    · cases taken
  | _ => cases taken

/-! ### Runs -/

/-- Clock and log of a node are consistent and in step, and its payloads fit. -/
structure PittacusGossip.Coherent (node : PittacusGossip) : Prop where
  ok : node.knowledge.Ok
  inStep : node.knowledge.InStep
  brief : node.knowledge.Brief

/-- A new node is coherent. -/
theorem NodeSetup.coherent (setup : NodeSetup) : setup.node.Coherent where
  ok := (create_tracks ∅ setup.selfAddress setup.bounded setup.now setup.dataReceiver
    setup.fresh).ok
  inStep := .inr fun _ => ⟨fun _ => rfl, fun _ => rfl⟩
  brief := List.forall_mem_nil _

/-- Every call leaves a node coherent that is given only payloads that fit. -/
theorem PittacusGossip.Coherent.step {self : PittacusGossip} {input : Input}
    (coherent : self.Coherent)
    (short : ∀ data ∈ input.payload, data.length ≤ messageMaxSize - 26) :
    (gossipStep input self).state.Coherent := by
  have learned := (gossipStep_learns input self).knowledge
  refine ⟨?_, ?_, ?_⟩ <;> rw [learned]
  · exact coherent.ok.learn _
  · exact coherent.inStep.learn coherent.ok _
  · exact coherent.brief.learn coherent.ok (adopted_short short)

/-- Every node that was given only payloads that fit is coherent. -/
theorem run_coherent (setup : NodeSetup) {inputs : List Input}
    (short : ∀ input ∈ inputs, ∀ data ∈ input.payload, data.length ≤ messageMaxSize - 26) :
    (Machine.run gossipStep inputs setup.node).Coherent := by
  have start := setup.coherent
  generalize setup.node = self at start
  -- The node generalizes: the run goes on from whatever the first call leaves.
  induction inputs generalizing self with
  | nil => exact start
  | cons input rest ih =>
    refine ih (fun later member => short later (List.mem_cons_of_mem _ member)) _ ?_
    exact start.step (short input List.mem_cons_self)

end Pittacus
