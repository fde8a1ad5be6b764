import Mathlib.Data.List.Perm.Subperm
import Pittacus.Clock.Fifo
import Pittacus.Wire.Fields

/-! What a clock that went over the wire has in common with the one that was sent. -/

namespace Pittacus

/-! ### Clocks that answer alike -/

/-- Two clocks in order that differ at most in slots not in use. -/
structure VectorClock.Twins (first second : VectorClock) : Prop where
  ok : first.Ok
  ok_ : second.Ok
  size : second.size = first.size
  currentIdx : second.currentIdx = first.currentIdx
  live : second.live = first.live

namespace VectorClock.Twins

variable {first second : VectorClock}

/-- Whom a record in use is from is found in the same slot. -/
theorem find (twins : first.Twins second) (memberId : UInt64) :
    vectorClockFindByMemberId second memberId = vectorClockFindByMemberId first memberId := by
  rw [vectorClockFindByMemberId, vectorClockFindByMemberId, twins.live]

theorem latest (twins : first.Twins second) : second.latest = first.latest := by
  -- What is held for an originator is looked up among the records in use.
  have rings : second.ring.live = first.ring.live := twins.live
  funext originator
  rw [VectorClock.latest, VectorClock.latest, SlotRing.find, SlotRing.find, rings]

/-- A slot in use holds the same record. -/
theorem getElem? (twins : first.Twins second) {place : Nat} (used : place < first.size) :
    second.records[place]? = first.records[place]? := by
  have same : second.live[place]? = first.live[place]? := by rw [twins.live]
  rwa [VectorClock.live, VectorClock.live, List.getElem?_take_of_lt used,
    List.getElem?_take_of_lt (twins.size ▸ used)] at same

/-- Setting a record in both leaves them alike. -/
theorem setRecord (twins : first.Twins second) (record : VectorRecord) :
    (first.setRecord record).Twins (second.setRecord record) := by
  have found := twins.find record.memberId
  have next : (second.setRecord record).currentIdx = (first.setRecord record).currentIdx := by
    simp only [VectorClock.setRecord, vectorClockSetById, found]
    split <;> simp only [twins.currentIdx]
  refine ⟨twins.ok.setRecord record, twins.ok_.setRecord record, ?_, next, ?_⟩
  · simp only [VectorClock.setRecord, vectorClockSetById, found]
    split <;> simp only [twins.size]
  · -- By age the records are the same before, and so they are afterwards.
    have before : second.aged = first.aged := by
      show second.live.rotate second.currentIdx = first.live.rotate first.currentIdx
      rw [twins.live, twins.currentIdx]
    have after : (second.setRecord record).aged = (first.setRecord record).aged := by
      rw [twins.ok_.aged_setRecord, twins.ok.aged_setRecord, before]
    have turned : (second.setRecord record).live.rotate (first.setRecord record).currentIdx =
        (first.setRecord record).live.rotate (first.setRecord record).currentIdx := by
      rw [← next]
      exact after.trans (by rw [next]; rfl)
    exact List.rotate_injective _ turned

/-- Inserting missing records in both leaves them alike. -/
theorem mergeMissing (twins : first.Twins second) (other : VectorClock) (rounds i : Nat)
    (mask : UInt32) :
    (mergeMissing other rounds i mask first).Twins (mergeMissing other rounds i mask second) := by
  induction rounds generalizing i mask first second with
  | zero => exact twins
  | succ rounds ih =>
    rw [Pittacus.mergeMissing, Pittacus.mergeMissing]
    by_cases empty : mask = 0
    · rw [if_pos empty, if_pos empty]
      exact twins
    · rw [if_neg empty, if_neg empty]
      refine ih ?_ _ _
      -- The mask is that of the other clock's scan, so both insert the same records.
      by_cases bit : mask &&& 1 ≠ 0
      · rw [if_pos bit, if_pos bit]
        cases other.records[i]? with
        | none => exact twins
        | some record => exact twins.setRecord record
      · rw [if_neg bit, if_neg bit]
        exact twins

/-- Without merging, the scan of either clock comes to the same result. -/
theorem scan (twins : first.Twins second) (other : VectorClock) :
    (List.range second.size).foldl (compareRecordAt other false) ⟨.equal, 0, second⟩ =
      { (List.range first.size).foldl (compareRecordAt other false) ⟨.equal, 0, first⟩ with
        first := second } := by
  have upTo : ∀ count ≤ first.size,
      (List.range count).foldl (compareRecordAt other false) ⟨.equal, 0, second⟩ =
        { (List.range count).foldl (compareRecordAt other false) ⟨.equal, 0, first⟩ with
          first := second } := by
    intro count
    induction count with
    | zero =>
      intro _
      rfl
    | succ count ih =>
      intro inside
      have plain : ((List.range count).foldl (compareRecordAt other false)
          ⟨.equal, 0, first⟩).first = first := compareRecords_first other _ _
      rw [List.range_succ, List.foldl_append, List.foldl_append, ih (Nat.le_of_lt inside)]
      generalize (List.range count).foldl (compareRecordAt other false) ⟨.equal, 0, first⟩ =
        state at plain
      subst plain
      -- The next record is in use, and so the same in both.
      have here := twins.getElem? (Nat.lt_of_succ_le inside)
      simp only [List.foldl_cons, List.foldl_nil, compareRecordAt, here]
      cases state.first.records[count]? with
      | none => rfl
      | some record =>
        simp only [Bool.false_eq_true, if_false]
        cases vectorClockFindByMemberId other record.memberId with
        | none => rfl
        | some otherIdx =>
          simp only
          split
          · rfl
          · split <;> rfl
  rw [twins.size]
  exact upTo first.size (Nat.le_refl _)

/-- Raising the records in use of both leaves them alike. -/
theorem raisedUpTo (twins : first.Twins second) (other : VectorClock) :
    (first.raisedUpTo other first.size).Twins (second.raisedUpTo other second.size) := by
  refine ⟨twins.ok.raisedUpTo other, twins.ok_.raisedUpTo other, twins.size, twins.currentIdx, ?_⟩
  rw [raisedUpTo_live _ _ twins.ok_.readable.stored, raisedUpTo_live _ _ twins.ok.readable.stored,
    twins.live]

/-- Comparing both with another clock comes to the same result, and leaves them alike. -/
theorem compare (twins : first.Twins second) (other : VectorClock) (merge : Bool) :
    (vectorClockCompare second other merge).1 = (vectorClockCompare first other merge).1 ∧
      (vectorClockCompare first other merge).2.Twins (vectorClockCompare second other merge).2 := by
  have plain := compareRecords_first other (List.range first.size) ⟨.equal, 0, first⟩
  have raised := twins.raisedUpTo other
  unfold vectorClockCompare
  -- Merging raises the first clock during the scan and fills in the missing after it.
  cases merge with
  | false =>
    simp only [twins.scan other, plain, Bool.false_eq_true, if_false]
    split <;> exact ⟨rfl, twins⟩
  | true =>
    simp only [scan_merge other twins.ok.readable.stored, scan_merge other twins.ok_.readable.stored,
      twins.scan other, if_true]
    split
    · exact ⟨rfl, raised.mergeMissing other _ _ _⟩
    · exact ⟨rfl, raised⟩

/-- A writing call on both has the same answer, and leaves them alike. -/
theorem write (twins : first.Twins second) (single : ClockWrite) :
    (single.call second).1 = (single.call first).1 ∧
      (single.call first).2.Twins (single.call second).2 := by
  have verdict : ∀ record merge, (vectorClockCompareWithRecord second record merge).1 =
      (vectorClockCompareWithRecord first record merge).1 := by
    intro record merge
    rw [vectorClockCompareWithRecord_verdict, vectorClockCompareWithRecord_verdict, twins.latest]
  have written : single.written second = single.written first := by
    cases single with
    | set member seqNum => rfl
    | increment member => simp only [ClockWrite.written, twins.latest]
    | merge record => simp only [ClockWrite.written, verdict]
  have after : (single.call first).2.Twins (single.call second).2 := by
    rw [single.call_snd, single.call_snd, written]
    cases single.written first with
    | none => exact twins
    | some record => exact twins.setRecord record
  refine ⟨?_, after⟩
  cases single with
  | set member seqNum => rfl
  | increment member =>
    simp only [ClockWrite.call] at after ⊢
    simp only [vectorClockIncrement_eq, twins.latest] at after ⊢
    cases held : first.latest (vectorClockCreateMemberId member) with
    | none => rfl
    | some number =>
      simp only [held, Option.map_some] at after ⊢
      rw [vectorClockFindRecord, vectorClockFindRecord, after.find]
      -- The record that was counted up is in use in both.
      cases found : vectorClockFindByMemberId
          (first.setRecord ⟨number + 1, vectorClockCreateMemberId member⟩)
          (vectorClockCreateMemberId member) with
      | none => rfl
      | some idx =>
        obtain ⟨inside, -⟩ := lt_of_find found
        rw [after.ok.readable.live_length] at inside
        rw [Option.bind_some, Option.bind_some, after.getElem? inside]
  | merge record => exact congrArg ClockAnswer.compared (verdict record true)

/-- Any call on both has the same answer, and leaves them alike. -/
theorem call (twins : first.Twins second) (call : ClockCall) :
    (clockStep call second).events = (clockStep call first).events ∧
      (clockStep call first).state.Twins (clockStep call second).state := by
  -- Only a write changes the clocks, and it changes both in the same way.
  cases call with
  | write single =>
    obtain ⟨answer, after⟩ := twins.write single
    exact ⟨congrArg (fun answer => [answer]) answer, after⟩
  | compareWithRecord record =>
    have verdict : (vectorClockCompareWithRecord second record false).1 =
        (vectorClockCompareWithRecord first record false).1 := by
      rw [vectorClockCompareWithRecord_verdict, vectorClockCompareWithRecord_verdict, twins.latest]
    refine ⟨congrArg (fun answer => [ClockAnswer.compared answer]) verdict, ?_⟩
    show (vectorClockCompareWithRecord first record false).2.Twins
      (vectorClockCompareWithRecord second record false).2
    rw [vectorClockCompareWithRecord_snd, vectorClockCompareWithRecord_snd]
    exact twins
  | compare other merge =>
    obtain ⟨answer, after⟩ := twins.compare other merge
    exact ⟨congrArg (fun answer => [ClockAnswer.compared answer]) answer, after⟩

end VectorClock.Twins

/-! ### Clocks that went over the wire -/

/-- Further calls, whichever they are, answer alike and leave the same records in use. -/
def VectorClock.Indistinguishable (first second : VectorClock) : Prop :=
  ∀ later : List ClockCall,
    Machine.trace clockStep later second = Machine.trace clockStep later first ∧
    ∀ record, record ∈ (Machine.run clockStep later second).live ↔
      record ∈ (Machine.run clockStep later first).live

/-- What a decoder makes of the bytes of a clock, over a clock of unspecified content. -/
def VectorClock.decoded (clock prior : VectorClock) : VectorClock where
  size := clock.size
  currentIdx := 0
  records := clock.live ++ prior.records.drop clock.size

/-- The bytes of a clock are read back as its records in use, at the start of the array. -/
theorem vectorClockDecode_wire {clock : VectorClock} (fits : clock.Fits) (prior : VectorClock)
    (memory : Nat → UInt8) (base : Nat) {bufferSize : Nat} (room : 2 + clock.size * 12 ≤ bufferSize) :
    (vectorClockDecode base bufferSize prior).result
        (Encoder.store memory base (Encoder.located 0 clock.wire)) =
      .ok (2 + clock.size * 12, clock.decoded prior) := by
  have few : clock.size ≤ 20 := fits.1
  have held : Decoder.Holds (Encoder.store memory base (Encoder.located 0 clock.wire)) base
      clock.wire := Encoder.slice_store_zero memory base clock.wire
  generalize Encoder.store memory base (Encoder.located 0 clock.wire) = written at held ⊢
  rw [VectorClock.wire, Decoder.holds_append, Words.toBytes_length] at held
  obtain ⟨count, records⟩ := held
  -- At most twenty records are counted, so the sixteen-bit count is the true one.
  have size : (uint16At written base).toNat = clock.size := by
    rw [uint16At_of_holds count, UInt16.toNat_ofNat_of_lt' (by simp only [UInt16.size]; omega)]
  have live := recordsAt_of_holds clock.live (base + 2) records
  rw [fits.live_length] at live
  rw [vectorClockDecode_result written base bufferSize prior (by omega), size,
    if_neg (Nat.not_lt.mpr room), live]
  rfl

/-- The records in use are the same ones in the same slots. -/
theorem VectorClock.Ok.decoded_live {clock : VectorClock} (ok : clock.Ok) (prior : VectorClock) :
    (clock.decoded prior).live = clock.live :=
  List.take_left' ok.readable.live_length

/-- With the next insertion in the first slot anyway, nothing is lost on the wire. -/
theorem VectorClock.Ok.decoded_twins {clock : VectorClock} (ok : clock.Ok)
    (start : clock.currentIdx = 0) {prior : VectorClock}
    (slots : prior.records.length = maxVectorSize) : clock.Twins (clock.decoded prior) := by
  have live := ok.decoded_live prior
  -- Only the write position could differ, and it is zero on both sides.
  obtain ⟨-, few, next, filling, distinct⟩ := id ok
  refine ⟨ok, ⟨?_, few, ?_, ?_, ?_⟩, rfl, start.symm, live⟩
  · show (clock.live ++ prior.records.drop clock.size).length = maxVectorSize
    have few_ : clock.size ≤ maxVectorSize := few
    rw [List.length_append, List.length_drop, ok.readable.live_length, slots]
    omega
  · show 0 < maxVectorSize
    decide
  · intro room
    exact start.symm.trans (filling room)
  · show ((clock.decoded prior).live.map VectorRecord.memberId).Nodup
    rw [live]
    exact distinct

/-- Every id is that of some member. -/
theorem exists_member (memberId : UInt64) :
    ∃ member, vectorClockCreateMemberId member = memberId := by
  have width := memberIdBytes_length memberId
  have back := memberId_roundTrip memberId
  generalize memberIdBytes memberId = bytes at width back
  match bytes, width with
  | [a, b, c, d, e, f, g, h], _ =>
    -- An IPv4 address with the first six bytes, and a uid that starts with the last two.
    refine ⟨⟨0, UInt32.ofNat (Words.ofBytes [g, h, 0, 0]), [2, 0, e, f, a, b, c, d], by simp⟩, ?_⟩
    have family : Words.ofBytes ([2, 0] : List UInt8).reverse = afInet := by decide
    have front : Decoder.slice (fun position =>
        ([2, 0, e, f, a, b, c, d] : List UInt8).getD position 0) 0 2 = [2, 0] := rfl
    simp only [vectorClockCreateMemberId, front, family, if_true]
    rw [uint32_bytes rfl]
    exact back

/-- Few ids leave one that is not among them. -/
theorem exists_fresh_id (used : List UInt64) (few : used.length ≤ maxVectorSize) :
    ∃ memberId, memberId ∉ used := by
  by_contra all_
  push Not at all_
  -- The first ids there are would all be among those used.
  let some_ : List UInt64 := (List.range (maxVectorSize + 1)).map UInt64.ofNat
  have distinct : some_.Nodup := by decide
  have many := (List.subperm_of_subset distinct fun memberId _ => all_ memberId).length_le
  have length : some_.length = maxVectorSize + 1 := by simp [some_]
  omega

/-- A number is followed by another one, also when counting wraps around. -/
theorem number_ne_next (number : UInt32) : number ≠ number + 1 := by simp

/-- Setting the first record of a clock and then one from someone new. -/
def tellApart (first new : ClusterMember) (number : UInt32) : List ClockCall :=
  [.write (.set first number), .write (.set new 0)]

/-- Someone new takes the next slot, and the first one keeps its record unless it is that. -/
theorem tellApart_run {clock : VectorClock} {held : VectorRecord} {rest : List VectorRecord}
    (records : clock.records = held :: rest) (used : 0 < clock.size) {first new : ClusterMember}
    (known : vectorClockCreateMemberId first = held.memberId)
    (unknown : vectorClockCreateMemberId new ∉ clock.live.map VectorRecord.memberId)
    (number : UInt32) :
    (Machine.run clockStep (tellApart first new number) clock).live =
      (((⟨number, held.memberId⟩ : VectorRecord) :: rest).set clock.currentIdx
        ⟨0, vectorClockCreateMemberId new⟩).take
          (if clock.size < maxVectorSize then clock.size + 1 else clock.size) := by
  have live : clock.live = held :: rest.take (clock.size - 1) := by
    rw [VectorClock.live, records, List.take_cons used]
  have foundFirst : vectorClockFindByMemberId clock held.memberId = some 0 := by
    rw [vectorClockFindByMemberId, live, List.findIdx?_cons]
    simp
  -- The first call writes the slot the record is in.
  have afterFirst : (vectorClockSetById clock held.memberId number) =
      { clock with records := ⟨number, held.memberId⟩ :: rest } := by
    rw [vectorClockSetById, foundFirst, records]
    rfl
  have foundNone : vectorClockFindByMemberId { clock with records := ⟨number, held.memberId⟩ :: rest }
      (vectorClockCreateMemberId new) = none := by
    have live_ : ({ clock with records := ⟨number, held.memberId⟩ :: rest } : VectorClock).live =
        ⟨number, held.memberId⟩ :: rest.take (clock.size - 1) := by
      rw [VectorClock.live, List.take_cons used]
    rw [live, List.map_cons, List.mem_cons, not_or] at unknown
    rw [vectorClockFindByMemberId, live_, List.findIdx?_eq_none_iff]
    intro record member
    rcases List.mem_cons.mp member with rfl | other
    · simpa using Ne.symm unknown.1
    · have apart : record.memberId ≠ vectorClockCreateMemberId new := fun same =>
        unknown.2 (same ▸ List.mem_map_of_mem other)
      simpa using apart
  show (vectorClockSetById (vectorClockSetById clock (vectorClockCreateMemberId first) number)
    (vectorClockCreateMemberId new) 0).live = _
  rw [known, afterFirst, vectorClockSetById, foundNone]
  rfl

/-- Unless someone new takes the first slot, the first record stays in use. -/
theorem mem_tellApart {clock : VectorClock} {held : VectorRecord} {rest : List VectorRecord}
    (records : clock.records = held :: rest) (used : 0 < clock.size)
    (elsewhere : clock.currentIdx ≠ 0) {first new : ClusterMember}
    (known : vectorClockCreateMemberId first = held.memberId)
    (unknown : vectorClockCreateMemberId new ∉ clock.live.map VectorRecord.memberId)
    (number : UInt32) :
    ⟨number, held.memberId⟩ ∈ (Machine.run clockStep (tellApart first new number) clock).live := by
  obtain ⟨place, after⟩ := Nat.exists_eq_succ_of_ne_zero elsewhere
  rw [tellApart_run records used known unknown number, after, List.set_cons_succ,
    List.take_cons (by split <;> omega)]
  exact List.mem_cons_self

/-- If someone new takes the first slot, the first record is gone unless another slot has it. -/
theorem not_mem_tellApart {clock : VectorClock} {held : VectorRecord} {rest : List VectorRecord}
    (records : clock.records = held :: rest) (used : 0 < clock.size) (start : clock.currentIdx = 0)
    {first new : ClusterMember} (known : vectorClockCreateMemberId first = held.memberId)
    (unknown : vectorClockCreateMemberId new ∉ clock.live.map VectorRecord.memberId)
    {number : UInt32} (apart : ⟨number, held.memberId⟩ ∉ rest.take clock.size) :
    ⟨number, held.memberId⟩ ∉ (Machine.run clockStep (tellApart first new number) clock).live := by
  rw [tellApart_run records used known unknown number, start, List.set_cons_zero,
    List.take_cons (by split <;> omega)]
  intro still
  rcases List.mem_cons.mp still with now | later
  · -- The new record has another id.
    have live : clock.live = held :: rest.take (clock.size - 1) := by
      rw [VectorClock.live, records, List.take_cons used]
    rw [live, List.map_cons, List.mem_cons, not_or] at unknown
    exact unknown.1 (congrArg VectorRecord.memberId now).symm
  · refine apart (List.take_subset_take_left rest ?_ later)
    split <;> omega

/-- Some number is not the one an entry holds. -/
theorem exists_unheld (entry : Option VectorRecord) :
    ∃ number, ∀ junk, entry = some junk → junk.sequenceNumber ≠ number := by
  cases entry with
  | none => exact ⟨0, fun junk none_ => by cases none_⟩
  | some junk =>
    refine ⟨junk.sequenceNumber + 1, fun _ same => ?_⟩
    cases same
    exact number_ne_next _

/-- When the next insertion is not due in the first slot, two calls tell the clocks apart. -/
theorem VectorClock.Ok.decoded_differs {clock : VectorClock} (ok : clock.Ok)
    (elsewhere : clock.currentIdx ≠ 0) (prior : VectorClock) :
    ¬clock.Indistinguishable (clock.decoded prior) := by
  intro alike
  have few : clock.size ≤ maxVectorSize := SlotRing.Ok.size_le ok
  have length := ok.readable.live_length
  have used : 0 < clock.size := by
    by_contra none_
    have filling : clock.currentIdx = clock.size :=
      SlotRing.Ok.filling ok (Nat.lt_of_not_le fun full => none_ (Nat.lt_of_lt_of_le (by decide) full))
    omega
  have distinct := ok.readable.distinct
  cases live : clock.live with
  | nil =>
    rw [live] at length
    exact absurd length (Nat.ne_of_lt used)
  | cons held rest =>
    have records : clock.records = held :: (rest ++ clock.records.drop clock.size) := by
      rw [← List.cons_append, ← live, VectorClock.live, List.take_append_drop]
    have records_ : (clock.decoded prior).records =
        held :: (rest ++ prior.records.drop clock.size) := by
      rw [VectorClock.decoded, live]
      rfl
    obtain ⟨fresh, absent⟩ := exists_fresh_id (clock.live.map VectorRecord.memberId)
      (by rw [List.length_map, length]; exact few)
    obtain ⟨first, known⟩ := exists_member held.memberId
    obtain ⟨new, rfl⟩ := exists_member fresh
    have absent_ := absent
    rw [← ok.decoded_live prior] at absent_
    -- A number that the slot behind those in use does not happen to hold.
    obtain ⟨number, differs⟩ := exists_unheld prior.records[clock.size]?
    have apart : ⟨number, held.memberId⟩ ∉
        (rest ++ prior.records.drop clock.size).take (clock.decoded prior).size := by
      intro found
      rw [live] at distinct length
      rw [List.map_cons, List.nodup_cons] at distinct
      have one : (clock.decoded prior).size = rest.length + 1 := length.symm
      rw [one, List.take_length_add_append] at found
      rcases List.mem_append.mp found with other | junk
      · -- No other record in use is from the same originator.
        exact distinct.1 (List.mem_map.mpr ⟨_, other, rfl⟩)
      · rw [List.take_one, List.head?_drop] at junk
        exact differs _ (Option.mem_toList.mp junk) rfl
    -- After the wire, the first record gave way.
    have kept := mem_tellApart records used elsewhere known absent number
    have lost := not_mem_tellApart records_ used rfl known absent_ apart
    exact lost (((alike (tellApart first new number)).2 _).mpr kept)

end Pittacus
