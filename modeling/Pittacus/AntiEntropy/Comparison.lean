import Pittacus.Basic.Mask
import Pittacus.Proofs.Rings

/-! The comparison of two clocks answers which of them is behind the other on some originator. -/

namespace Pittacus

/-! ### Being behind -/

/-- A clock is behind another on an originator it lacks, or holds a smaller number for. -/
def VectorClock.BehindOn (lower upper : VectorClock) (originator : UInt64) : Prop :=
  ∃ held ∈ upper.latest originator, ∀ own ∈ lower.latest originator, own < held

instance (lower upper : VectorClock) (originator : UInt64) :
    Decidable (lower.BehindOn upper originator) :=
  have (held : UInt32) : Decidable (∀ own ∈ lower.latest originator, own < held) :=
    Option.decidableForallMem _
  inferInstanceAs (Decidable (∃ held ∈ upper.latest originator, ∀ own ∈ _, own < held))

/-- A clock of which every record in use can be read, and no originator occurs twice. -/
structure VectorClock.Readable (clock : VectorClock) : Prop where
  few : clock.size ≤ maxVectorSize
  stored : clock.size ≤ clock.records.length
  distinct : (clock.live.map VectorRecord.memberId).Nodup

/-- A clock in good order is readable. -/
theorem VectorClock.Ok.readable {clock : VectorClock} (ok : clock.Ok) : clock.Readable where
  few := SlotRing.Ok.size_le ok
  stored := by
    have length : clock.records.length = maxVectorSize := SlotRing.Ok.length ok
    rw [length]
    exact SlotRing.Ok.size_le ok
  distinct := SlotRing.Ok.distinct ok

namespace VectorClock.Readable

variable {clock : VectorClock}

theorem live_length (readable : clock.Readable) : clock.live.length = clock.size := by
  rw [VectorClock.live, List.length_take]
  exact Nat.min_eq_left readable.stored

/-- A slot in use holds a record in use. -/
theorem getElem?_records (readable : clock.Readable) {place : Nat}
    (inside : place < clock.live.length) :
    clock.records[place]? = some clock.live[place] := by
  rw [readable.live_length] at inside
  have bound : place < clock.records.length := Nat.lt_of_lt_of_le inside readable.stored
  rw [List.getElem?_eq_getElem bound]
  simp [VectorClock.live]

/-- A record in use is the latest one of its originator. -/
theorem latest_of_mem (readable : clock.Readable) {record : VectorRecord}
    (member : record ∈ clock.live) :
    clock.latest record.memberId = some record.sequenceNumber := by
  have found : clock.ring.find VectorRecord.memberId record.memberId = some record :=
    SlotRing.find_of_mem readable.distinct member
  rw [VectorClock.latest, found, Option.map_some]

/-- The originator of a slot in use is found in that slot. -/
theorem find_getElem (readable : clock.Readable) {place : Nat}
    (inside : place < clock.live.length) :
    vectorClockFindByMemberId clock clock.live[place].memberId = some place := by
  have inside_ : place < clock.ring.live.length := inside
  rw [vectorClockFindByMemberId_ring]
  exact SlotRing.findIdx_of_getElem readable.distinct inside_

end VectorClock.Readable

/-- The slot that is found is one in use. -/
theorem lt_of_find {clock : VectorClock} {originator : UInt64} {place : Nat}
    (found : vectorClockFindByMemberId clock originator = some place) :
    ∃ inside : place < clock.live.length, clock.live[place].memberId = originator := by
  rw [vectorClockFindByMemberId_ring] at found
  obtain ⟨inside, same, -⟩ := SlotRing.findIdx_some found
  exact ⟨inside, same⟩

/-! ### Verdicts -/

/-- The outcome of a comparison, by whether either clock is ahead of the other. -/
def verdict : (ahead behind : Bool) → VectorClockCompRes
  | false, false => .equal
  | true, false => .after
  | false, true => .before
  | true, true => .conflict

/-- Finding the first clock ahead adds to what was found so far. -/
@[simp] theorem resolve_after (ahead behind : Bool) :
    vectorClockResolveCompResult (verdict ahead behind) .after = verdict true behind := by
  cases ahead <;> cases behind <;> rfl

/-- Finding the first clock behind adds to what was found so far. -/
@[simp] theorem resolve_before (ahead behind : Bool) :
    vectorClockResolveCompResult (verdict ahead behind) .before = verdict ahead true := by
  cases ahead <;> cases behind <;> rfl

/-- What the comparison knows after the given records of the first clock. -/
structure Scanned (first second : VectorClock) (seen : List VectorRecord)
    (state : ComparisonState) : Prop where
  kept : state.first = first
  result : ∃ ahead behind, state.result = verdict ahead behind ∧
    (ahead = true ↔ ∃ record ∈ seen, second.BehindOn first record.memberId) ∧
    (behind = true ↔ ∃ record ∈ seen, first.BehindOn second record.memberId)
  visited : Marks state.secondVisitedIdxs fun place =>
    ∃ record ∈ seen, vectorClockFindByMemberId second record.memberId = some place

/-- The next record adds a verdict and a mark to what is known. -/
theorem Scanned.step {first second : VectorClock} (readable : first.Readable)
    (readable_ : second.Readable) {place : Nat} (inside : place < first.live.length)
    {state : ComparisonState} (scanned : Scanned first second (first.live.take place) state) :
    Scanned first second (first.live.take (place + 1))
      (compareRecordAt second false state place) := by
  obtain ⟨same, ⟨ahead, behind, result, isAhead, isBehind⟩, visited⟩ := scanned
  have seen : first.live.take (place + 1) = first.live.take place ++ [first.live[place]] := by
    rw [List.take_succ_eq_append_getElem inside]
  have added : ∀ property : VectorRecord → Prop,
      (∃ record ∈ first.live.take (place + 1), property record) ↔
        (∃ record ∈ first.live.take place, property record) ∨ property first.live[place] := by
    intro property
    rw [seen]
    simp only [List.mem_append, List.mem_singleton, or_and_right, exists_or, exists_eq_left]
  have member := List.getElem_mem inside
  have own := readable.latest_of_mem member
  have here := readable.getElem?_records inside
  generalize first.live[place] = record at *
  rw [← same] at here
  cases found : vectorClockFindByMemberId second record.memberId with
  | none =>
    -- The second clock lacks the originator.
    have missing := latest_none.mpr found
    have lacks : second.BehindOn first record.memberId :=
      ⟨_, own, fun held none_ => by rw [missing] at none_; cases none_⟩
    have holds : ¬first.BehindOn second record.memberId := by
      rintro ⟨held, none_, -⟩
      rw [missing] at none_
      cases none_
    have next : compareRecordAt second false state place =
        { state with result := vectorClockResolveCompResult state.result .after } := by
      simp only [compareRecordAt, here, found]
    rw [next]
    refine ⟨same, ⟨true, behind, ?_, ?_, ?_⟩, ?_⟩
    · simp only [result, resolve_after]
    · simp [added, lacks]
    · rw [added, isBehind]
      simp [holds]
    · refine visited.congr fun position => ?_
      rw [added, found]
      simp
  | some secondIdx =>
    obtain ⟨other, stored, -, latest⟩ := latest_some found
    have bit : secondIdx < 32 := by
      obtain ⟨bound, -⟩ := lt_of_find found
      rw [readable_.live_length] at bound
      exact Nat.lt_of_lt_of_le bound (Nat.le_trans readable_.few (by decide))
    have marked : Marks (_ ||| 1 <<< UInt32.ofNat secondIdx) fun position =>
        ∃ record ∈ first.live.take (place + 1),
          vectorClockFindByMemberId second record.memberId = some position :=
      (visited.or (Marks.shifted secondIdx bit)).congr fun position => by
        rw [added, found, Option.some.injEq, eq_comm (a := position)]
    have isLower : second.BehindOn first record.memberId ↔
        other.sequenceNumber < record.sequenceNumber := by
      simp [VectorClock.BehindOn, own, latest]
    have isUpper : first.BehindOn second record.memberId ↔
        record.sequenceNumber < other.sequenceNumber := by
      simp [VectorClock.BehindOn, own, latest]
    simp only [compareRecordAt, here, found, stored, Option.map_some, Option.getD_some,
      Bool.false_eq_true, if_false]
    by_cases above : record.sequenceNumber > other.sequenceNumber
    · -- The second clock holds a smaller number.
      rw [if_pos above]
      refine ⟨same, ⟨true, behind, ?_, ?_, ?_⟩, marked⟩
      · simp only [result, resolve_after]
      · simp [added, isLower.mpr above]
      · rw [added, isBehind, isUpper]
        simp [UInt32.lt_asymm above]
    · rw [if_neg above]
      by_cases below : other.sequenceNumber > record.sequenceNumber
      · -- The second clock holds a larger number.
        rw [if_pos below]
        refine ⟨same, ⟨ahead, true, ?_, ?_, ?_⟩, marked⟩
        · simp only [result, resolve_before]
        · rw [added, isAhead, isLower]
          simp [UInt32.lt_asymm below]
        · simp [added, isUpper.mpr below]
      · -- Both hold the same number.
        rw [if_neg below]
        refine ⟨same, ⟨ahead, behind, result, ?_, ?_⟩, marked⟩
        · rw [added, isAhead, isLower]
          simp [above]
        · rw [added, isBehind, isUpper]
          simp [below]

/-- What is known once every record of the first clock was compared. -/
theorem scanned_all {first second : VectorClock} (readable : first.Readable)
    (readable_ : second.Readable) :
    Scanned first second first.live
      ((List.range first.size).foldl (compareRecordAt second false) ⟨.equal, 0, first⟩) := by
  have upTo : ∀ count ≤ first.size, Scanned first second (first.live.take count)
      ((List.range count).foldl (compareRecordAt second false) ⟨.equal, 0, first⟩) := by
    intro count
    -- The scan compared a prefix of the records so far, and one more in each step.
    induction count with
    | zero =>
      intro _
      refine ⟨rfl, ⟨false, false, rfl, ?_, ?_⟩, Marks.zero.congr fun position => ?_⟩
      all_goals simp
    | succ count ih =>
      intro inside
      rw [List.range_succ, List.foldl_append]
      exact (ih (Nat.le_of_lt inside)).step readable readable_ (by
        rw [readable.live_length]
        exact inside)
  have whole := upTo first.size (Nat.le_refl _)
  rw [← readable.live_length, List.take_length, readable.live_length] at whole
  exact whole

/-- A clock is behind another on some originator only if the other one holds a record for it. -/
theorem exists_behindOn {lower upper : VectorClock} :
    (∃ originator, lower.BehindOn upper originator) ↔
      ∃ record ∈ upper.live, lower.BehindOn upper record.memberId := by
  constructor
  · rintro ⟨originator, held, latest, smaller⟩
    exact ⟨_, mem_of_latest latest, held, latest, smaller⟩
  · rintro ⟨record, -, behind⟩
    exact ⟨_, behind⟩

/-- The comparison without merging tells which clock is behind the other on some originator. -/
theorem vectorClockCompare_verdict {first second : VectorClock} (readable : first.Readable)
    (readable_ : second.Readable) :
    ∃ ahead behind, (vectorClockCompare first second false).1 = verdict ahead behind ∧
      (ahead = true ↔ ∃ originator, second.BehindOn first originator) ∧
      (behind = true ↔ ∃ originator, first.BehindOn second originator) := by
  obtain ⟨-, ⟨ahead, behind, result, isAhead, isBehind⟩, visited⟩ :=
    scanned_all readable readable_
  have mask := Marks.below second.size (Nat.lt_of_le_of_lt readable_.few (by decide))
  rw [← exists_behindOn] at isAhead
  -- Every record of the second clock was visited unless the first clock lacks its originator.
  have complete : ((List.range first.size).foldl (compareRecordAt second false)
        ⟨.equal, 0, first⟩).secondVisitedIdxs ^^^ ((1 <<< UInt32.ofNat second.size) - 1) = 0 ↔
      ∀ record ∈ second.live, ∃ record_ ∈ first.live, record_.memberId = record.memberId := by
    rw [visited.xor_eq_zero_iff mask]
    constructor
    · intro same record member
      obtain ⟨place, inside, rfl⟩ := List.getElem_of_mem member
      have below : place < second.size := by
        rw [← readable_.live_length]
        exact inside
      have bit : place < 32 :=
        Nat.lt_of_lt_of_le below (Nat.le_trans readable_.few (by decide))
      obtain ⟨record_, present, found⟩ := (same place bit).mpr below
      obtain ⟨inside_, same_⟩ := lt_of_find found
      exact ⟨record_, present, same_.symm⟩
    · intro known place bit
      constructor
      · rintro ⟨record_, -, found⟩
        obtain ⟨inside, -⟩ := lt_of_find found
        rw [← readable_.live_length]
        exact inside
      · intro below
        rw [← readable_.live_length] at below
        obtain ⟨record_, present, same⟩ := known _ (List.getElem_mem below)
        exact ⟨record_, present, by rw [same]; exact readable_.find_getElem below⟩
  have lacking : (∃ originator, first.BehindOn second originator) ↔
      (∃ record ∈ first.live, first.BehindOn second record.memberId) ∨
        ¬∀ record ∈ second.live, ∃ record_ ∈ first.live, record_.memberId = record.memberId := by
    constructor
    · rintro ⟨originator, held, latest, smaller⟩
      cases own : first.latest originator with
      | some number => exact .inl ⟨_, mem_of_latest own, held, latest, smaller⟩
      | none =>
        refine .inr fun known => ?_
        obtain ⟨record_, present, same⟩ := known _ (mem_of_latest latest)
        have latest_ := readable.latest_of_mem present
        rw [same, own] at latest_
        cases latest_
    · rintro (⟨record, -, behindOn⟩ | unknown)
      · exact ⟨_, behindOn⟩
      · push Not at unknown
        obtain ⟨record, member, apart⟩ := unknown
        refine ⟨record.memberId, _, readable_.latest_of_mem member, fun own latest => ?_⟩
        exact absurd rfl (apart ⟨own, record.memberId⟩ (mem_of_latest latest))
  unfold vectorClockCompare
  by_cases all_ : ∀ record ∈ second.live, ∃ record_ ∈ first.live, record_.memberId = record.memberId
  · refine ⟨ahead, behind, ?_, isAhead, ?_⟩
    · simp only [ne_eq, complete.mpr all_, not_true, if_false, result]
    · rw [lacking, isBehind]
      exact ⟨.inl, fun either => either.resolve_right (not_not.mpr all_)⟩
  · refine ⟨ahead, true, ?_, isAhead, ?_⟩
    · have missing := mt complete.mp all_
      simp only [ne_eq, missing, not_false_eq_true, if_true, result, resolve_before]
    · rw [lacking]
      exact ⟨fun _ => .inr all_, fun _ => rfl⟩

end Pittacus
