import Pittacus.AntiEntropy.CatchUp
import Pittacus.Ownership.Queues

/-! A node answers a status with an acknowledgement, what the sender lacks, and its own status. -/

namespace Pittacus

/-! ### What is answered -/

/-- The logged messages that a clock is behind of are queued in the order of the log. -/
theorem gossipEnqueueDataLog_queues (recipientVersion : VectorClock) (recipient : List UInt8)
    (records : List DataLogRecord) (self : PittacusGossip)
    (brief : ∀ record ∈ records,
      (gossipDataLogCreateMessage record).data.length ≤ messageMaxSize - 26)
    (roomy : self.awaiting.length + records.length ≤ maxOutputMessages) :
    Queues
      ((records.filter fun record =>
          (vectorClockCompareWithRecord recipientVersion record.version false).1 = .before).map
        fun record => (recipient, .data (gossipDataLogCreateMessage record)))
      self (gossipEnqueueDataLog recipientVersion recipient records errNone self) := by
  induction records generalizing self with
  | nil => exact queues_nil self []
  | cons record rest ih =>
    rw [List.length_cons] at roomy
    have others : ∀ other ∈ rest,
        (gossipDataLogCreateMessage other).data.length ≤ messageMaxSize - 26 :=
      fun other member => brief other (List.mem_cons_of_mem _ member)
    rw [gossipEnqueueDataLog]
    by_cases behind :
        (vectorClockCompareWithRecord recipientVersion record.version false).1 = .before
    · -- The message takes one slot, and leaves one for each record behind it.
      have sendable : (gossipDataLogCreateMessage record).Sendable :=
        ⟨⟨rfl, rfl⟩, brief record List.mem_cons_self⟩
      have first := gossipEnqueueMessage_queues
        (Message.data_fits (gossipDataLogCreateMessage record)) sendable.required_le recipient
        noRandom self (by omega)
      have second := ih (gossipEnqueueMessage (.data (gossipDataLogCreateMessage record)) recipient
        .direct noRandom self).state others (by
          rw [first.awaiting, List.length_append, List.length_singleton]
          omega)
      rw [if_pos behind, List.filter_cons_of_pos (by simpa using behind), List.map_cons]
      exact first.andThen second
    · rw [if_neg behind, List.filter_cons_of_neg (by simpa using behind)]
      exact ih self others (by omega)

/-- The status that announces a node's clock. -/
def PittacusGossip.statusMessage (node : PittacusGossip) : Message :=
  .status ⟨messageHeaderInit messageStatusType 0, vectorClockCopy vectorClockInit node.dataVersion⟩

/-- The status of a clock in order fits the output buffer. -/
theorem statusMessage_room {node : PittacusGossip} (ok : node.dataVersion.Ok) :
    node.statusMessage.Fits ∧ node.statusMessage.required ≤ messageMaxSize := by
  have few : node.dataVersion.size ≤ maxVectorSize := SlotRing.Ok.size_le ok
  refine ⟨⟨List.forall_mem_nil _, ok.copy_fits⟩, ?_⟩
  simp only [PittacusGossip.statusMessage, Message.required, vectorClockCopy, messageHeaderSize,
    vectorRecordSize, memberIdSize, messageMaxSize, maxVectorSize] at few ⊢
  omega

/-- A node queues its status for whoever it is to be sent to. -/
theorem gossipEnqueueStatus_queues (recipient : List UInt8) (self : PittacusGossip)
    (ok : self.dataVersion.Ok) (roomy : self.awaiting.length < maxOutputMessages) :
    Queues [(recipient, self.statusMessage)] self
      (gossipEnqueueStatus (some recipient) noRandom self) := by
  obtain ⟨fits, room⟩ := statusMessage_room ok
  exact gossipEnqueueMessage_queues fits room recipient noRandom self roomy

/-- The messages a node has logged, and another clock is behind of. -/
def PittacusGossip.answersTo (node : PittacusGossip) (asked : VectorClock) : List MessageData :=
  (node.dataLog.live.filter fun record =>
    asked.BehindOn node.dataVersion record.originator).map gossipDataLogCreateMessage

/-- Every logged version is the one that the clock holds. -/
def PittacusGossip.Current (node : PittacusGossip) : Prop :=
  ∀ record ∈ node.dataLog.live,
    node.dataVersion.latest record.originator = some record.version.sequenceNumber

/-- For a version the clock holds, being behind a record is being behind the clock. -/
theorem before_iff_behindOn {node : PittacusGossip} (current : node.Current) (asked : VectorClock)
    {record : DataLogRecord} (logged : record ∈ node.dataLog.live) :
    (vectorClockCompareWithRecord asked record.version false).1 = .before ↔
      asked.BehindOn node.dataVersion record.originator := by
  rw [vectorClockCompareWithRecord_before]
  -- A logged version is the one the clock holds, so it speaks for its originator.
  have latest := current record logged
  constructor
  · exact fun smaller => ⟨_, latest, smaller⟩
  · rintro ⟨held, found, smaller⟩
    rw [Option.mem_def, latest] at found
    cases found
    exact smaller

/-- A node answers a status with what the sender lacks, and with its own status if it lacks some. -/
theorem answerStatus_queues (msg : MessageStatus) (sender : List UInt8) (self : PittacusGossip)
    (coherent : self.Coherent) (current : self.Current) (asked : msg.dataVersion.Readable)
    (roomy : self.awaiting.length + dataLogSize < maxOutputMessages) :
    ((∃ originator, self.dataVersion.BehindOn msg.dataVersion originator) →
      Queues ((self.answersTo msg.dataVersion).map (fun answer => (sender, .data answer)) ++
        [(sender, self.statusMessage)]) self (answerStatus msg sender self)) ∧
    ((¬∃ originator, self.dataVersion.BehindOn msg.dataVersion originator) →
      Queues ((self.answersTo msg.dataVersion).map fun answer => (sender, .data answer)) self
        (answerStatus msg sender self)) := by
  have clock : self.dataVersion.Ok := coherent.ok.clock
  obtain ⟨ahead, behind, compared, isAhead, isBehind⟩ :=
    vectorClockCompare_verdict clock.readable asked
  have length : self.dataLog.live.length ≤ dataLogSize := by
    have slots : self.dataLog.messages.length = dataLogSize := SlotRing.Ok.length coherent.ok.log
    rw [DataLog.live, List.length_take, slots]
    exact Nat.min_le_right _ _
  have logged := gossipEnqueueDataLog_queues msg.dataVersion sender self.dataLog.live self
    coherent.brief (by omega)
  have selected : (self.answersTo msg.dataVersion).map (fun answer => (sender, Message.data answer))
      = (self.dataLog.live.filter fun record =>
          (vectorClockCompareWithRecord msg.dataVersion record.version false).1 = .before).map
        fun record => (sender, .data (gossipDataLogCreateMessage record)) := by
    rw [PittacusGossip.answersTo, List.map_map]
    congr 1
    refine List.filter_congr fun record member => ?_
    rw [decide_eq_decide]
    exact (before_iff_behindOn current msg.dataVersion member).symm
  rw [← selected] at logged
  -- Nothing is selected when the sender is behind on nothing.
  have unselected : ahead = false → self.answersTo msg.dataVersion = [] := by
    intro none_
    rw [PittacusGossip.answersTo, List.map_eq_nil_iff, List.filter_eq_nil_iff]
    intro record member behindOn
    have some_ := isAhead.mpr ⟨record.originator, by simpa using behindOn⟩
    rw [none_] at some_
    cases some_
  have many : (self.answersTo msg.dataVersion).length ≤ dataLogSize := by
    rw [PittacusGossip.answersTo, List.length_map]
    exact Nat.le_trans (List.length_filter_le _ _) length
  have status := fun (node : PittacusGossip) (same : SameBesidesQueue self node) (free : _) =>
    gossipEnqueueStatus_queues sender node (same.dataVersion ▸ clock) free
  have announced : ∀ node : PittacusGossip, SameBesidesQueue self node →
      node.statusMessage = self.statusMessage := by
    intro node same
    rw [PittacusGossip.statusMessage, same.dataVersion]
    rfl
  rw [answerStatus, Routine.get_bind_run, compared]
  cases ahead with
  | false =>
    rw [unselected rfl]
    cases behind with
    | false => exact ⟨fun some_ => absurd (isBehind.mpr some_) (by simp), fun _ => queues_nil self []⟩
    | true =>
      refine ⟨fun _ => ?_, fun none_ => absurd (isBehind.mp rfl) none_⟩
      exact status self (.refl self) (by omega)
  | true =>
    cases behind with
    | false => exact ⟨fun some_ => absurd (isBehind.mpr some_) (by simp), fun _ => logged⟩
    | true =>
      refine ⟨fun _ => ?_, fun none_ => absurd (isBehind.mp rfl) none_⟩
      have follows := status _ logged.same (by
        rw [logged.awaiting, List.length_append, List.length_map]
        omega)
      rw [announced _ logged.same] at follows
      exact logged.andThen follows

end Pittacus
