import Pittacus.Basic.Fifo
import Pittacus.Clock.Calls

/-! A clock is a bounded map that pushes out the originator inserted first. -/

namespace Pittacus

/-- A record that was written, and whether its originator was inserted for it. -/
structure Written where
  record : VectorRecord
  inserted : Bool

/-- A writing call as a step that shows what it wrote. -/
def clockWriteStep (write : ClockWrite) : Routine VectorClock Written Unit := fun clock =>
  let written := (write.written clock).map fun record =>
    ⟨record, (clock.latest record.memberId).isNone⟩
  ⟨(), (write.call clock).2, written.toList⟩

/-- The originators that were inserted, in the order of their insertions. -/
def insertions (history : List Written) : List UInt64 :=
  (history.filter Written.inserted).map fun written => written.record.memberId

/-- The number last given to an originator. -/
def lastGiven (history : List Written) (originator : UInt64) : Option UInt32 :=
  (history.reverse.find? fun written => written.record.memberId = originator).map
    fun written => written.record.sequenceNumber

/-- The records in use, oldest insertion first. -/
def VectorClock.aged (clock : VectorClock) : List VectorRecord := clock.ring.aged

/-- A clock that is a bounded first-in-first-out map of what was written into it. -/
structure VectorClock.Recalls (clock : VectorClock) (history : List Written) : Prop where
  size_le : clock.size ≤ maxVectorSize
  currentIdx_lt : clock.currentIdx < maxVectorSize
  filling : clock.size < maxVectorSize → clock.currentIdx = clock.size
  distinct : (clock.live.map VectorRecord.memberId).Nodup
  /-- The originators are those of the most recent insertions, in that order by age. -/
  recent : clock.aged.Perm clock.live ∧
    clock.aged.map VectorRecord.memberId = (insertions history).rtake maxVectorSize
  /-- Each of them has the number last given to it. -/
  latest : ∀ originator, clock.latest originator =
    if originator ∈ (insertions history).rtake maxVectorSize then lastGiven history originator
    else none

/-- Setting a record changes that record, or makes room for it at the cost of the oldest. -/
structure VectorClock.Takes (clock : VectorClock) (record : VectorRecord) (after : VectorClock) :
    Prop where
  present : clock.latest record.memberId ≠ none →
    after.size = clock.size ∧ after.currentIdx = clock.currentIdx ∧
      after.live = clock.live.map fun held =>
        if held.memberId = record.memberId then record else held
  room : clock.latest record.memberId = none → clock.size < maxVectorSize →
    after.live = clock.live ++ [record]
  full : clock.latest record.memberId = none → clock.size = maxVectorSize →
    after.aged = clock.aged.tail ++ [record]

/-- Setting a record gives it to the bounded map. -/
theorem VectorClock.Ok.aged_setRecord {clock : VectorClock} (ok : clock.Ok)
    (record : VectorRecord) :
    (clock.setRecord record).aged =
      Fifo.put maxVectorSize VectorRecord.memberId record clock.aged := by
  let write : VectorRecord → VectorRecord := fun _ => ⟨record.sequenceNumber, record.memberId⟩
  have written : ∀ held, (write held).memberId = record.memberId := fun _ => rfl
  have given := SlotRing.Ok.aged_put ok written
  rw [← vectorClockSetById_ring] at given
  exact given

/-- An originator is in use exactly when the clock holds a number for it. -/
theorem mem_aged_keys {clock : VectorClock} {originator : UInt64} :
    originator ∈ clock.aged.map VectorRecord.memberId ↔ clock.latest originator ≠ none := by
  have rotated : ∀ record, record ∈ clock.aged ↔ record ∈ clock.ring.live :=
    fun record => List.mem_rotate
  rw [Ne, latest_none, vectorClockFindByMemberId_ring, SlotRing.findIdx_none, SlotRing.find_none]
  simp [List.mem_map, rotated]

/-- What a step wrote is given to the bounded map, which takes it in if it was inserted. -/
theorem recalls_step {clock : VectorClock} (ok : clock.Ok) {taken : List UInt64}
    {given : List VectorRecord}
    (recalls : Fifo.Recalls maxVectorSize VectorRecord.memberId taken given clock.aged)
    (write : ClockWrite) :
    Fifo.Recalls maxVectorSize VectorRecord.memberId
      (taken ++ insertions (clockWriteStep write clock).events)
      (given ++ (clockWriteStep write clock).events.map Written.record)
      (clockWriteStep write clock).state.aged := by
  have after : (clockWriteStep write clock).state =
      (write.written clock).elim clock clock.setRecord := write.call_snd clock
  rw [after]
  unfold clockWriteStep
  cases wrote : write.written clock with
  | none => simpa [insertions] using recalls
  | some record =>
    -- A clock shows its records as they are.
    let write_ : VectorRecord → VectorRecord := fun _ => ⟨record.sequenceNumber, record.memberId⟩
    have written : ∀ held, (write_ held).memberId = record.memberId := fun _ => rfl
    have next := SlotRing.Ok.recalls_put ok (fun _ => rfl) written (fun _ => rfl)
      (by rw [List.map_id']; exact recalls)
    rw [← vectorClockSetById_ring, List.map_id'] at next
    have inserted : (if (clock.ring.find VectorRecord.memberId record.memberId).isNone
        then [record.memberId] else []) =
        insertions [⟨record, (clock.latest record.memberId).isNone⟩] := by
      rw [VectorClock.latest, Option.isNone_map]
      cases (clock.ring.find VectorRecord.memberId record.memberId).isNone <;> rfl
    simp only [Option.map_some, Option.toList_some, List.map_singleton, Option.elim_some,
      ← inserted]
    exact next

theorem insertions_append (early late : List Written) :
    insertions (early ++ late) = insertions early ++ insertions late := by
  simp [insertions]

/-- A clock in order whose records are recalled from what was inserted and given. -/
structure Kept (taken : List UInt64) (given : List VectorRecord) (clock : VectorClock) : Prop where
  ok : clock.Ok
  recalls : Fifo.Recalls maxVectorSize VectorRecord.memberId taken given clock.aged

/-- What was kept so far is kept by writing calls together with what they wrote. -/
def Keeping (before : VectorClock) (events : List Written) (after : VectorClock) : Prop :=
  ∀ taken given, Kept taken given before →
    Kept (taken ++ insertions events) (given ++ events.map Written.record) after

theorem keeping_chains : Routine.Chains Keeping where
  rest clock taken given kept := by simpa [insertions] using kept
  join first second taken given kept := by
    -- What the first stretch added is what the second one starts with.
    have later := second _ _ (first taken given kept)
    rwa [insertions_append, List.map_append, ← List.append_assoc, ← List.append_assoc]

theorem clockWriteStep_keeping (write : ClockWrite) :
    Routine.Meets Keeping (clockWriteStep write) :=
  fun _ _ _ kept => ⟨kept.ok.write write, recalls_step kept.ok kept.recalls write⟩

/-- The number last given is that of the record last given. -/
theorem lastGiven_eq (history : List Written) (originator : UInt64) :
    lastGiven history originator =
      ((history.map Written.record).reverse.find? fun record =>
        record.memberId = originator).map VectorRecord.sequenceNumber := by
  rw [← List.map_reverse, List.find?_map, Option.map_map]
  rfl

/-- A clock that kept what was written into it is a bounded map of it. -/
theorem Kept.recallsAll {clock : VectorClock} {history : List Written}
    (kept : Kept (insertions history) (history.map Written.record) clock) :
    clock.Recalls history := by
  obtain ⟨ok, recalls⟩ := kept
  refine ⟨SlotRing.Ok.size_le ok, SlotRing.Ok.next_lt ok, SlotRing.Ok.filling ok,
    SlotRing.Ok.distinct ok, ⟨List.rotate_perm _ _, recalls.keys⟩, fun originator => ?_⟩
  rw [← recalls.keys, lastGiven_eq]
  cases held : clock.latest originator with
  | none => rw [if_neg (mt mem_aged_keys.mp (not_not.mpr held))]
  | some number =>
    rw [if_pos (mem_aged_keys.mpr (held ▸ Option.some_ne_none number))]
    -- The record in use is the one last given under its originator.
    have used : (⟨number, originator⟩ : VectorRecord) ∈ clock.aged :=
      List.mem_rotate.mpr (mem_of_latest held)
    have last := recalls.latest _ used
    rw [last, Option.map_some]

/-- Setting a record in a clock in order writes that record only, or pushes out the oldest. -/
theorem VectorClock.Ok.takes {clock : VectorClock} (ok : clock.Ok) (record : VectorRecord) :
    clock.Takes record (clock.setRecord record) := by
  refine ⟨fun present => ?_, fun absent room => ?_, fun absent full => ?_⟩
  · obtain ⟨idx, found⟩ := Option.ne_none_iff_exists'.mp (mt latest_none.mpr present)
    obtain ⟨inside, here⟩ := lt_of_find found
    have written : clock.setRecord record =
        { clock with records := clock.records.modify idx fun held =>
            { held with sequenceNumber := record.sequenceNumber } } := by
      rw [VectorClock.setRecord, vectorClockSetById, found]
    have slot : ({ clock.live[idx] with
        sequenceNumber := record.sequenceNumber } : VectorRecord) = record := by
      show (⟨record.sequenceNumber, clock.live[idx].memberId⟩ : VectorRecord) = record
      rw [here]
    rw [written]
    refine ⟨rfl, rfl, ?_⟩
    show (clock.records.modify idx _).take clock.size = _
    rw [List.take_modify]
    exact SlotRing.modify_eq_map inside ok.readable.distinct here record slot
  · have missing : clock.ring.findIdx VectorRecord.memberId record.memberId = none :=
      latest_none.mp absent
    obtain ⟨_, appended⟩ := SlotRing.Ok.live_put_filling ok missing room fun _ => record
    have same : (fun _ => record : VectorRecord → VectorRecord) =
        fun _ => ⟨record.sequenceNumber, record.memberId⟩ := rfl
    rw [same, ← vectorClockSetById_ring] at appended
    exact appended
  · rw [ok.aged_setRecord, Fifo.put, if_neg (mt mem_aged_keys.mp (not_not.mpr absent))]
    -- A full clock holds as many records as there is room for.
    have length : clock.aged.length = maxVectorSize := by
      rw [VectorClock.aged, SlotRing.aged, List.length_rotate]
      exact (ok.readable.live_length).trans full
    cases aged : clock.aged with
    | nil =>
      rw [aged] at length
      cases length
    | cons oldest rest =>
      rw [aged] at length
      have one : (oldest :: rest ++ [record]).length - maxVectorSize = 1 := by
        rw [List.length_append, length, List.length_singleton, Nat.add_sub_cancel_left]
      rw [List.rtake, one]
      rfl

/-- Whatever is written into a new clock, the clock is a bounded first-in-first-out map of it. -/
theorem clockWrites_fifo (writes : List ClockWrite) :
    let clock := Machine.run clockWriteStep writes vectorClockInit
    clock.Recalls (Machine.trace clockWriteStep writes vectorClockInit) ∧
    ∀ write : ClockWrite,
      match write.written clock with
      | none => (write.call clock).2 = clock
      | some record => clock.Takes record (write.call clock).2 := by
  intro clock
  -- The run keeps the history along with the clock, so its end speaks of all the writes.
  have kept : Kept _ _ clock := Machine.run_meets keeping_chains clockWriteStep_keeping writes
    vectorClockInit [] [] ⟨vectorClockInit_ok, Fifo.recalls_nil _ _⟩
  refine ⟨kept.recallsAll, fun write => ?_⟩
  rw [write.call_snd]
  cases write.written clock with
  | none => rfl
  | some record => exact kept.ok.takes record

end Pittacus
