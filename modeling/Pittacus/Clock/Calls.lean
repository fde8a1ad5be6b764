import Pittacus.Clock.Scan

/-! The calls on a clock, and the one record each of the writing ones sets. -/

namespace Pittacus

/-- A call that writes a single record of a clock. -/
inductive ClockWrite where
  | set (member : ClusterMember) (seqNum : UInt32)
  | increment (member : ClusterMember)
  /-- A merging comparison with a record. -/
  | merge (record : VectorRecord)

/-- What a call returns: the record behind the pointer, if there is one, or a verdict. -/
inductive ClockAnswer where
  | record (held : Option VectorRecord)
  | compared (result : VectorClockCompRes)
  deriving DecidableEq, Repr

/-- The answer of a writing call, and the clock it leaves behind. -/
def ClockWrite.call : ClockWrite → VectorClock → ClockAnswer × VectorClock
  | .set member seqNum, clock =>
    let (record, after) := vectorClockSet clock member seqNum
    (.record (some record), after)
  | .increment member, clock =>
    match vectorClockIncrement clock member with
    | none => (.record none, clock)
    | some after =>
      (.record ((vectorClockFindRecord after member).bind fun idx => after.records[idx]?), after)
  | .merge record, clock =>
    let (result, after) := vectorClockCompareWithRecord clock record true
    (.compared result, after)

/-- A call on a clock. -/
inductive ClockCall where
  | write (single : ClockWrite)
  /-- A comparison with a record that does not merge. -/
  | compareWithRecord (record : VectorRecord)
  | compare (second : VectorClock) (merge : Bool)

/-- The answer of a call, and the clock it leaves behind. -/
def ClockCall.call : ClockCall → VectorClock → ClockAnswer × VectorClock
  | .write single, clock => single.call clock
  | .compareWithRecord record, clock =>
    let (result, after) := vectorClockCompareWithRecord clock record false
    (.compared result, after)
  | .compare second merge, clock =>
    let (result, after) := vectorClockCompare clock second merge
    (.compared result, after)

/-- A call as a step that shows its answer. -/
def clockStep (call : ClockCall) : Routine VectorClock ClockAnswer Unit := fun clock =>
  ⟨(), (call.call clock).2, [(call.call clock).1]⟩

/-! ### Writing calls -/

/-- The record a writing call sets, if it sets one. -/
def ClockWrite.written (clock : VectorClock) : ClockWrite → Option VectorRecord
  | .set member seqNum => some ⟨seqNum, vectorClockCreateMemberId member⟩
  | .increment member =>
    let memberId := vectorClockCreateMemberId member
    (clock.latest memberId).map fun number => ⟨number + 1, memberId⟩
  | .merge record =>
    if (vectorClockCompareWithRecord clock record false).1 = .before then some record else none

/-- Counting a member up is setting its record to the next number. -/
theorem vectorClockIncrement_eq (clock : VectorClock) (member : ClusterMember) :
    vectorClockIncrement clock member =
      (clock.latest (vectorClockCreateMemberId member)).map fun number =>
        clock.setRecord ⟨number + 1, vectorClockCreateMemberId member⟩ := by
  unfold vectorClockIncrement vectorClockFindRecord VectorClock.setRecord vectorClockSetById
  cases found : vectorClockFindByMemberId clock (vectorClockCreateMemberId member) with
  | none => rw [latest_none.mpr found, Option.map_none, Option.map_none]
  | some idx =>
    -- The slot that is counted up holds the latest number.
    obtain ⟨record, stored, -, latest⟩ := latest_some found
    rw [latest, Option.map_some, Option.map_some]
    simp only [found, Option.some.injEq, VectorClock.mk.injEq, true_and]
    apply List.ext_getElem?
    intro position
    rw [List.getElem?_modify, List.getElem?_modify]
    by_cases here : idx = position
    · subst position
      simp [stored]
    · simp [here]

/-- A writing call sets the record it is said to set, and no other. -/
theorem ClockWrite.call_snd (write : ClockWrite) (clock : VectorClock) :
    (write.call clock).2 = (write.written clock).elim clock clock.setRecord := by
  cases write with
  | set member seqNum => rfl
  | increment member =>
    simp only [call, written, vectorClockIncrement_eq]
    cases clock.latest (vectorClockCreateMemberId member) <;> rfl
  | merge record =>
    -- Whether to merge does not change the verdict, only what becomes of the clock.
    have verdict : (vectorClockCompareWithRecord clock record true).1 =
        (vectorClockCompareWithRecord clock record false).1 := by
      rw [vectorClockCompareWithRecord_verdict, vectorClockCompareWithRecord_verdict]
    simp only [call, written, vectorClockCompareWithRecord_merge, verdict]
    split <;> rfl

theorem VectorClock.Ok.setRecord {clock : VectorClock} (ok : clock.Ok) (record : VectorRecord) :
    (clock.setRecord record).Ok :=
  ok.set _ _

/-- A writing call keeps the bookkeeping in order. -/
theorem VectorClock.Ok.write {clock : VectorClock} (ok : clock.Ok) (write : ClockWrite) :
    (write.call clock).2.Ok := by
  rw [write.call_snd]
  cases write.written clock with
  | none => exact ok
  | some record => exact ok.setRecord record

/-! ### Runs of calls -/

/-- The records in use of a raised clock are the raised ones. -/
theorem raisedUpTo_live (first second : VectorClock) (stored : first.size ≤ first.records.length) :
    (first.raisedUpTo second first.size).live = first.live.map (·.raised second) := by
  have front : (first.live.map (·.raised second)).length = first.size := by
    rw [List.length_map, VectorClock.live, List.length_take, Nat.min_eq_left stored]
  exact List.take_left' front

/-- Raising a clock keeps its bookkeeping in order. -/
theorem VectorClock.Ok.raisedUpTo {first : VectorClock} (ok : first.Ok) (second : VectorClock) :
    (first.raisedUpTo second first.size).Ok := by
  have stored := ok.readable.stored
  have distinct := ok.readable.distinct
  have keys : (first.raisedUpTo second first.size).live.map VectorRecord.memberId =
      first.live.map VectorRecord.memberId := by
    rw [raisedUpTo_live first second stored, List.map_map]
    exact List.map_congr_left fun record _ => record.raised_memberId second
  obtain ⟨length, few, next, filling, -⟩ := ok
  refine ⟨?_, few, next, filling, ?_⟩
  · -- The array keeps its length.
    rw [← length]
    simp only [VectorClock.ring, VectorClock.raisedUpTo, List.length_append, List.length_map,
      List.length_take, List.length_drop]
    omega
  · show ((first.raisedUpTo second first.size).live.map VectorRecord.memberId).Nodup
    rw [keys]
    exact distinct

/-- Inserting missing records keeps the bookkeeping in order, whichever the mask names. -/
theorem VectorClock.Ok.mergeMissing {first : VectorClock} (ok : first.Ok) (second : VectorClock)
    (rounds i : Nat) (mask : UInt32) : (mergeMissing second rounds i mask first).Ok := by
  induction rounds generalizing i mask first with
  | zero => exact ok
  | succ rounds ih =>
    rw [Pittacus.mergeMissing]
    by_cases empty : mask = 0
    · rw [if_pos empty]
      exact ok
    · rw [if_neg empty]
      refine ih ?_ _ _
      -- A bit of the mask that is set names a record of the other clock, which is stored.
      split
      · split
        · exact ok.set _ _
        · exact ok
      · exact ok

/-- A comparison keeps the bookkeeping of the first clock in order, whatever the second one is. -/
theorem VectorClock.Ok.compare {first : VectorClock} (ok : first.Ok) (second : VectorClock)
    (merge : Bool) : (vectorClockCompare first second merge).2.Ok := by
  -- A merge raises records in place, and then sets the missing ones.
  cases merge with
  | false =>
    rw [vectorClockCompare_snd]
    exact ok
  | true =>
    have raised := ok.raisedUpTo second
    unfold vectorClockCompare
    simp only [scan_merge second ok.readable.stored]
    split
    · exact raised.mergeMissing second _ _ _
    · exact raised

/-- Comparing a clock with a record without merging leaves the clock as it was. -/
theorem vectorClockCompareWithRecord_snd (clock : VectorClock) (record : VectorRecord) :
    (vectorClockCompareWithRecord clock record false).2 = clock := by
  unfold vectorClockCompareWithRecord
  cases vectorClockFindByMemberId clock record.memberId with
  | none => rfl
  | some idx =>
    simp only [Bool.false_eq_true, if_false]
    split
    · rfl
    · split <;> rfl

/-- Every call keeps the bookkeeping in order. -/
theorem VectorClock.Ok.call {clock : VectorClock} (ok : clock.Ok) (call : ClockCall) :
    (clockStep call clock).state.Ok := by
  cases call with
  | write single => exact ok.write single
  | compareWithRecord record =>
    show (vectorClockCompareWithRecord clock record false).2.Ok
    rw [vectorClockCompareWithRecord_snd]
    exact ok
  | compare second merge => exact ok.compare second merge

/-- Whatever is called, a clock built from a new one is in order. -/
theorem built_ok (calls : List ClockCall) : (Machine.run clockStep calls vectorClockInit).Ok :=
  Machine.run_meets (Routine.keeps_chains VectorClock.Ok) (fun call _ ok => ok.call call) calls
    vectorClockInit vectorClockInit_ok

end Pittacus
