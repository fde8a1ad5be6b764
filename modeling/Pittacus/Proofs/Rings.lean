import Pittacus.Gossip.Api

/-! The vector clock and the data log are rings keyed by originator. -/

namespace Pittacus

/-- A clock as a ring of records. -/
def VectorClock.ring (clock : VectorClock) : SlotRing VectorRecord :=
  ⟨clock.size, clock.currentIdx, clock.records⟩

/-- A log as a ring of records. -/
def DataLog.ring (log : DataLog) : SlotRing DataLogRecord := ⟨log.size, log.currentIdx, log.messages⟩

/-- The originator a logged message came from. -/
def DataLogRecord.originator (record : DataLogRecord) : UInt64 := record.version.memberId

/-- The bookkeeping of a clock is in order. -/
def VectorClock.Ok (clock : VectorClock) : Prop :=
  clock.ring.Ok maxVectorSize VectorRecord.memberId

/-- The bookkeeping of a log is in order. -/
def DataLog.Ok (log : DataLog) : Prop := log.ring.Ok dataLogSize DataLogRecord.originator

/-- The sequence number a clock holds for an originator. -/
def VectorClock.latest (clock : VectorClock) (originator : UInt64) : Option UInt32 :=
  (clock.ring.find VectorRecord.memberId originator).map (·.sequenceNumber)

/-- The record a log holds for an originator. -/
def DataLog.latest (log : DataLog) (originator : UInt64) : Option DataLogRecord :=
  log.ring.find DataLogRecord.originator originator

/-- The originator a clock forgets when it makes room for another one. -/
def VectorClock.forgets (clock : VectorClock) (originator : UInt64) : Option UInt64 :=
  clock.ring.evicted maxVectorSize VectorRecord.memberId originator

/-- The originator a log forgets when it makes room for another one. -/
def DataLog.forgets (log : DataLog) (originator : UInt64) : Option UInt64 :=
  log.ring.evicted dataLogSize DataLogRecord.originator originator

/-! ### The vector clock -/

/-- The slot the code searches for is the one the ring knows. -/
theorem vectorClockFindByMemberId_ring (clock : VectorClock) (originator : UInt64) :
    vectorClockFindByMemberId clock originator
      = clock.ring.findIdx VectorRecord.memberId originator := rfl

/-- A member has no slot exactly when the clock holds nothing for it. -/
theorem latest_none {clock : VectorClock} {originator : UInt64} :
    clock.latest originator = none ↔ vectorClockFindByMemberId clock originator = none := by
  rw [vectorClockFindByMemberId_ring, SlotRing.findIdx_none, VectorClock.latest, Option.map_eq_none_iff]

/-- The slot found for a member holds the sequence number of that member. -/
theorem latest_some {clock : VectorClock} {originator : UInt64} {idx : Nat}
    (found : vectorClockFindByMemberId clock originator = some idx) :
    ∃ record, clock.records[idx]? = some record ∧ record.memberId = originator ∧
      clock.latest originator = some record.sequenceNumber := by
  rw [vectorClockFindByMemberId_ring] at found
  obtain ⟨inside, here, first⟩ := SlotRing.findIdx_some found
  refine ⟨clock.ring.live[idx], ?_, here, by rw [VectorClock.latest, first]; rfl⟩
  -- A slot in use is a slot of the array.
  have bound : idx < clock.records.length := by
    simp only [SlotRing.live, VectorClock.ring, List.length_take] at inside
    omega
  rw [List.getElem?_eq_getElem bound]
  simp [SlotRing.live, VectorClock.ring]

/-- A record in use is the latest one of its originator. -/
theorem VectorClock.Ok.latest_of_mem {clock : VectorClock} (ok : clock.Ok)
    {record : VectorRecord} (member : record ∈ clock.live) :
    clock.latest record.memberId = some record.sequenceNumber := by
  have found := SlotRing.Ok.find_of_mem ok member
  rw [VectorClock.latest, found, Option.map_some]

/-- Whatever a clock holds for an originator comes from a record in use. -/
theorem mem_of_latest {clock : VectorClock} {originator : UInt64} {seqNum : UInt32}
    (held : clock.latest originator = some seqNum) : ⟨seqNum, originator⟩ ∈ clock.live := by
  obtain ⟨record, found, rfl⟩ := Option.map_eq_some_iff.mp held
  obtain ⟨member, rfl⟩ := SlotRing.find_some found
  exact member

/-- Setting a member's sequence number writes one record of the ring. -/
theorem vectorClockSetById_ring (clock : VectorClock) (originator : UInt64) (seqNum : UInt32) :
    (vectorClockSetById clock originator seqNum).ring =
      clock.ring.put maxVectorSize VectorRecord.memberId originator
        (fun _ => ⟨seqNum, originator⟩) := by
  rw [vectorClockSetById, SlotRing.put, ← vectorClockFindByMemberId_ring]
  cases found : vectorClockFindByMemberId clock originator with
  | none =>
    rw [VectorClock.ring, VectorClock.ring, List.set_eq_modify]
  | some idx =>
    -- The record in the slot already carries the member's id.
    obtain ⟨record, held, same, _⟩ := latest_some found
    simp only [VectorClock.ring, SlotRing.mk.injEq, true_and]
    apply List.ext_getElem?
    intro position
    rw [List.getElem?_modify, List.getElem?_modify]
    by_cases here : idx = position
    · subst position
      simp [held, ← same]
    · simp [here]

/-- Setting a sequence number keeps the bookkeeping in order. -/
theorem VectorClock.Ok.set {clock : VectorClock} (ok : clock.Ok) (originator : UInt64)
    (seqNum : UInt32) : (vectorClockSetById clock originator seqNum).Ok := by
  rw [VectorClock.Ok, vectorClockSetById_ring]
  exact SlotRing.Ok.put ok fun _ => rfl

/-- What a clock holds after one of its sequence numbers was set. -/
theorem VectorClock.Ok.latest_set {clock : VectorClock} (ok : clock.Ok) (originator : UInt64)
    (seqNum : UInt32) (other : UInt64) :
    (vectorClockSetById clock originator seqNum).latest other =
      if other = originator then some seqNum
      else if clock.forgets originator = some other then none
      else clock.latest other := by
  -- In the ring, setting is putting a record whatever the slot held before.
  let write : VectorRecord → VectorRecord := fun _ => ⟨seqNum, originator⟩
  have written : ∀ record, (write record).memberId = originator := fun _ => rfl
  rw [VectorClock.latest, vectorClockSetById_ring, SlotRing.Ok.find_put ok written, VectorClock.forgets]
  by_cases same : other = originator
  · simp [same, write]
  · simp only [if_neg same]
    split
    · rfl
    · rfl

/-- In use after setting a sequence number are the record that was set, and some in use before. -/
theorem VectorClock.Ok.mem_live_set {clock : VectorClock} (ok : clock.Ok) {originator : UInt64}
    {seqNum : UInt32} {record : VectorRecord}
    (used : record ∈ (vectorClockSetById clock originator seqNum).live) :
    record = ⟨seqNum, originator⟩ ∨ record ∈ clock.live := by
  let write : VectorRecord → VectorRecord := fun _ => ⟨seqNum, originator⟩
  have written : ∀ record, (write record).memberId = originator := fun _ => rfl
  have inRing : record ∈ (vectorClockSetById clock originator seqNum).ring.live := used
  rw [vectorClockSetById_ring] at inRing
  rcases SlotRing.Ok.mem_live_put ok written inRing with ⟨-, same⟩ | ⟨-, old⟩
  · exact .inl same
  · exact .inr old

/-- A new clock is in order and holds nothing. -/
theorem vectorClockInit_ok : vectorClockInit.Ok := SlotRing.ok_empty (by decide) (by decide)

@[simp] theorem vectorClockInit_latest (originator : UInt64) :
    vectorClockInit.latest originator = none := rfl

/-- A clock in order is one whose copy can be sent. -/
theorem VectorClock.Ok.copy_fits {clock : VectorClock} (ok : clock.Ok) :
    (vectorClockCopy vectorClockInit clock).Fits := by
  have few : clock.size ≤ maxVectorSize := SlotRing.Ok.size_le ok
  have length : clock.records.length = maxVectorSize := SlotRing.Ok.length ok
  refine ⟨few, ?_⟩
  simp only [vectorClockCopy, List.length_append, VectorClock.live, List.length_take, length]
  omega

/-- Raising a clock to a record is setting that record's sequence number, if it is higher. -/
theorem vectorClockCompareWithRecord_merge (clock : VectorClock) (record : VectorRecord) :
    (vectorClockCompareWithRecord clock record true).2 =
      if (vectorClockCompareWithRecord clock record true).1 = .before then
        vectorClockSetById clock record.memberId record.sequenceNumber
      else clock := by
  -- Only the two branches that answer "before" touch the clock.
  unfold vectorClockCompareWithRecord
  cases found : vectorClockFindByMemberId clock record.memberId with
  | none => rfl
  | some idx =>
    simp only
    split
    · simp
    · split
      · simp [vectorClockSetById, found]
      · simp

/-- The verdict on a record does not depend on whether the clock is raised to it. -/
theorem vectorClockCompareWithRecord_verdict (clock : VectorClock) (record : VectorRecord)
    (merge : Bool) :
    (vectorClockCompareWithRecord clock record merge).1 =
      match clock.latest record.memberId with
      | none => .before
      | some held =>
        if held > record.sequenceNumber then .after
        else if held < record.sequenceNumber then .before
        else .equal := by
  unfold vectorClockCompareWithRecord
  cases found : vectorClockFindByMemberId clock record.memberId with
  | none => rw [latest_none.mpr found]
  | some idx =>
    obtain ⟨held, here, _, latest⟩ := latest_some found
    simp only [here, latest, Option.map_some, Option.getD_some]
    split
    · rfl
    · split <;> rfl

/-- A record is news exactly when the clock holds nothing as recent from its originator. -/
theorem vectorClockCompareWithRecord_before {clock : VectorClock} {record : VectorRecord}
    {merge : Bool} :
    (vectorClockCompareWithRecord clock record merge).1 = .before ↔
      ∀ held, clock.latest record.memberId = some held → held < record.sequenceNumber := by
  rw [vectorClockCompareWithRecord_verdict]
  cases clock.latest record.memberId with
  | none => simp
  | some held =>
    simp only [Option.some.injEq, forall_eq']
    constructor
    · intro verdict
      -- Of the three verdicts the middle one is wanted.
      by_cases above : held > record.sequenceNumber
      · simp [above] at verdict
      · by_cases below : held < record.sequenceNumber
        · exact below
        · simp [above, below] at verdict
    · intro below
      have notAbove : ¬ held > record.sequenceNumber := UInt32.lt_asymm below
      simp [notAbove, below]

/-! ### The data log -/

/-- A record rewritten for a message carries that message's version. -/
def DataLogRecord.logged (msg : MessageData) (record : DataLogRecord) : DataLogRecord :=
  { record with version := msg.dataVersion }.withPayload msg

/-- Logging a message writes one record of the ring. -/
theorem gossipDataLog_ring (log : DataLog) (msg : MessageData) :
    (gossipDataLog log msg).ring =
      log.ring.put dataLogSize DataLogRecord.originator msg.dataVersion.memberId
        (DataLogRecord.logged msg) := by
  unfold gossipDataLog SlotRing.put
  have slots : (log.live.findIdx? fun record => record.version.memberId = msg.dataVersion.memberId)
      = log.ring.findIdx DataLogRecord.originator msg.dataVersion.memberId := rfl
  rw [slots]
  cases found : log.ring.findIdx DataLogRecord.originator msg.dataVersion.memberId with
  | none => rfl
  | some i =>
    -- The record in the slot already names the originator of the message.
    obtain ⟨inside, same, _⟩ := SlotRing.findIdx_some found
    have bound : i < log.messages.length := by
      simp only [SlotRing.live, DataLog.ring, List.length_take] at inside
      omega
    have here : log.messages[i].version.memberId = msg.dataVersion.memberId := by
      simpa [SlotRing.live, DataLog.ring, DataLogRecord.originator] using same
    simp only [DataLog.ring, SlotRing.mk.injEq, true_and]
    apply List.ext_getElem?
    intro position
    rw [List.getElem?_modify, List.getElem?_modify]
    by_cases at_ : i = position
    · subst position
      simp [List.getElem?_eq_getElem bound, DataLogRecord.logged, here]
    · simp [at_]

/-- Logging a message keeps the bookkeeping in order. -/
theorem DataLog.Ok.log {log : DataLog} (ok : log.Ok) (msg : MessageData) :
    (gossipDataLog log msg).Ok := by
  rw [DataLog.Ok, gossipDataLog_ring]
  exact SlotRing.Ok.put ok fun _ => rfl

/-- What a log holds after a message was logged. -/
theorem DataLog.Ok.latest_log {log : DataLog} (ok : log.Ok) (msg : MessageData) :
    ∃ record : DataLogRecord, ∀ other, (gossipDataLog log msg).latest other =
      if other = msg.dataVersion.memberId then some (record.logged msg)
      else if log.forgets msg.dataVersion.memberId = some other then none
      else log.latest other := by
  have written : ∀ record, (DataLogRecord.logged msg record).originator = msg.dataVersion.memberId :=
    fun _ => rfl
  have found := SlotRing.Ok.find_put ok written
  rw [← gossipDataLog_ring] at found
  exact ⟨_, found⟩

/-- In use after logging are the record written for the message, and some in use before. -/
theorem DataLog.Ok.mem_live_log {log : DataLog} (ok : log.Ok) {msg : MessageData}
    {record : DataLogRecord} (used : record ∈ (gossipDataLog log msg).live) :
    (∃ slot : DataLogRecord, record = slot.logged msg) ∨ record ∈ log.live := by
  -- Logging writes a record that bears the id of the message.
  have written : ∀ record, (DataLogRecord.logged msg record).originator = msg.dataVersion.memberId :=
    fun _ => rfl
  have inRing : record ∈ (gossipDataLog log msg).ring.live := used
  rw [gossipDataLog_ring] at inRing
  rcases SlotRing.Ok.mem_live_put ok written inRing with ⟨-, same⟩ | ⟨-, old⟩
  · exact .inl ⟨_, same⟩
  · exact .inr old

/-- A logged message is read back as it was logged. -/
theorem logged_data (msg : MessageData) (record : DataLogRecord) :
    (gossipDataLogCreateMessage (record.logged msg)).data = msg.data := by
  -- Older bytes may follow the payload, but the size leaves them out.
  show (msg.data ++ record.data.drop msg.data.length).take msg.dataSize.toNat = msg.data
  rw [MessageData.dataSize_toNat, List.take_left]

/-- A record in use is the latest one of its originator. -/
theorem DataLog.Ok.latest_of_mem {log : DataLog} (ok : log.Ok) {record : DataLogRecord}
    (member : record ∈ log.live) : log.latest record.originator = some record :=
  SlotRing.Ok.find_of_mem ok member

/-- Whatever a log holds for an originator is in use and carries its id. -/
theorem mem_of_logged {log : DataLog} {originator : UInt64} {record : DataLogRecord}
    (held : log.latest originator = some record) :
    record ∈ log.live ∧ record.originator = originator :=
  SlotRing.find_some held

end Pittacus
