import Pittacus.Clock.Order

/-! A merging comparison raises the records the first clock has, and then inserts the others. -/

namespace Pittacus

/-- A record raised to the number another clock holds for its originator. -/
def VectorRecord.raised (second : VectorClock) (record : VectorRecord) : VectorRecord :=
  match second.latest record.memberId with
  | none => record
  | some held =>
    if held > record.sequenceNumber then { record with sequenceNumber := held } else record

@[simp] theorem VectorRecord.raised_memberId (second : VectorClock) (record : VectorRecord) :
    (record.raised second).memberId = record.memberId := by
  unfold raised
  split
  · rfl
  · split <;> rfl

/-- A clock of which the records in the given number of slots were raised to another clock. -/
def VectorClock.raisedUpTo (first second : VectorClock) (count : Nat) : VectorClock :=
  { first with
    records := (first.records.take count).map (·.raised second) ++ first.records.drop count }

/-! ### Raising -/

/-- Raising one more record changes the slot it is in. -/
theorem raisedUpTo_succ (first second : VectorClock) {place : Nat}
    (inside : place < first.records.length) (change : VectorRecord → VectorRecord)
    (changed : change first.records[place] = first.records[place].raised second) :
    { first.raisedUpTo second place with
      records := (first.raisedUpTo second place).records.modify place change } =
        first.raisedUpTo second (place + 1) := by
  -- The slots in front of it are raised already, and those behind it are as before.
  have front : ((first.records.take place).map (·.raised second)).length = place := by
    rw [List.length_map, List.length_take, Nat.min_eq_left (Nat.le_of_lt inside)]
  have slots : (first.raisedUpTo second place).records.modify place change =
      (first.raisedUpTo second (place + 1)).records := by
    simp only [VectorClock.raisedUpTo]
    have behind := SlotRing.modify_behind ((first.records.take place).map (·.raised second))
      (first.records.drop (place + 1)) first.records[place] change
    rw [front, changed] at behind
    rw [List.drop_eq_getElem_cons inside, behind, List.take_succ_eq_append_getElem inside,
      List.map_append, List.append_assoc]
    rfl
  rw [slots]
  rfl

/-- A record that is as high already is not changed by raising it. -/
theorem raisedUpTo_succ_same (first second : VectorClock) {place : Nat}
    (inside : place < first.records.length)
    (same : first.records[place].raised second = first.records[place]) :
    first.raisedUpTo second (place + 1) = first.raisedUpTo second place := by
  rw [← raisedUpTo_succ first second inside id same.symm, List.modify_id]

/-- The next record to be compared is still as it was. -/
theorem raisedUpTo_getElem? (first second : VectorClock) {place : Nat}
    (inside : place < first.records.length) :
    (first.raisedUpTo second place).records[place]? = some first.records[place] := by
  have front : ((first.records.take place).map (·.raised second)).length = place := by
    rw [List.length_map, List.length_take, Nat.min_eq_left (Nat.le_of_lt inside)]
  simp only [VectorClock.raisedUpTo]
  rw [List.getElem?_append_right (Nat.le_of_eq front), front, Nat.sub_self,
    List.drop_eq_getElem_cons inside]
  rfl

/-- Merging, the comparison of one record answers as without, and raises that record. -/
theorem compareRecordAt_merge (first second : VectorClock) {place : Nat}
    (inside : place < first.records.length) (result : VectorClockCompRes) (visited : UInt32) :
    compareRecordAt second true ⟨result, visited, first.raisedUpTo second place⟩ place =
      { compareRecordAt second false ⟨result, visited, first⟩ place with
        first := first.raisedUpTo second (place + 1) } := by
  have here := raisedUpTo_getElem? first second inside
  have here_ : first.records[place]? = some first.records[place] := List.getElem?_eq_getElem inside
  have step := @raisedUpTo_succ first second place inside
  have stay := raisedUpTo_succ_same first second inside
  generalize first.records[place] = record at *
  cases found : vectorClockFindByMemberId second record.memberId with
  | none =>
    -- The second clock lacks the originator.
    have same : record.raised second = record := by
      rw [VectorRecord.raised, latest_none.mpr found]
    simp only [compareRecordAt, here, here_, found, stay same]
  | some secondIdx =>
    obtain ⟨other, stored, -, latest⟩ := latest_some found
    simp only [compareRecordAt, here, here_, found, stored, Option.map_some, Option.getD_some,
      if_true, Bool.false_eq_true, if_false]
    by_cases below : other.sequenceNumber > record.sequenceNumber
    · -- This is the one case in which merging writes the record.
      have above : ¬record.sequenceNumber > other.sequenceNumber := UInt32.lt_asymm below
      have changed : ({ record with sequenceNumber := other.sequenceNumber } : VectorRecord) =
          record.raised second := by
        rw [VectorRecord.raised, latest]
        exact (if_pos below).symm
      simp only [if_neg above, if_pos below]
      rw [step (fun held => { held with sequenceNumber := other.sequenceNumber }) changed]
    · have same : record.raised second = record := by
        rw [VectorRecord.raised, latest]
        exact if_neg below
      rw [stay same]
      by_cases above : record.sequenceNumber > other.sequenceNumber
      · simp only [if_pos above]
      · simp only [if_neg above, if_neg below]

/-- Merging, the scan of the first clock answers as without, and raises every record of it. -/
theorem scan_merge {first : VectorClock} (second : VectorClock)
    (stored : first.size ≤ first.records.length) :
    (List.range first.size).foldl (compareRecordAt second true) ⟨.equal, 0, first⟩ =
      { (List.range first.size).foldl (compareRecordAt second false) ⟨.equal, 0, first⟩ with
        first := first.raisedUpTo second first.size } := by
  have upTo : ∀ count ≤ first.size,
      (List.range count).foldl (compareRecordAt second true) ⟨.equal, 0, first⟩ =
        { (List.range count).foldl (compareRecordAt second false) ⟨.equal, 0, first⟩ with
          first := first.raisedUpTo second count } := by
    intro count
    -- The scans are compared up to each position, since a record is raised as it is passed.
    induction count with
    | zero =>
      intro _
      rfl
    | succ count ih =>
      intro inside
      have plain : ((List.range count).foldl (compareRecordAt second false)
          ⟨.equal, 0, first⟩).first = first := compareRecords_first second _ _
      rw [List.range_succ, List.foldl_append, List.foldl_append, ih (Nat.le_of_lt inside)]
      generalize (List.range count).foldl (compareRecordAt second false) ⟨.equal, 0, first⟩ =
        state at plain
      subst plain
      exact compareRecordAt_merge state.first second (Nat.lt_of_lt_of_le inside stored) _ _
  exact upTo first.size (Nat.le_refl _)

/-! ### Inserting -/

/-- The records whose bits are set in the mask are inserted in the order of their slots. -/
theorem mergeMissing_eq {second : VectorClock} (few : second.live.length ≤ 32)
    (unknown : VectorRecord → Bool) (rounds i : Nat) (mask : UInt32) (first : VectorClock)
    (enough : second.live.length ≤ i + rounds)
    (marks : Marks mask fun position =>
      ∃ record, second.live[i + position]? = some record ∧ unknown record) :
    mergeMissing second rounds i mask first =
      ((second.live.drop i).filter unknown).foldl VectorClock.setRecord first := by
  -- Each round looks at one slot, and shifts the bit of the next one to the front.
  induction rounds generalizing i mask first with
  | zero =>
    rw [List.drop_eq_nil_of_le (by omega)]
    rfl
  | succ rounds ih =>
    have low := marks.low
    have ends : ¬∃ record, second.live[i + 32]? = some record ∧ unknown record := by
      rintro ⟨record, beyond, -⟩
      obtain ⟨inside, -⟩ := List.getElem?_eq_some_iff.mp beyond
      omega
    have shifted : Marks (mask >>> 1) fun position =>
        ∃ record, second.live[i + 1 + position]? = some record ∧ unknown record :=
      (marks.shiftRight ends).congr fun position => by rw [Nat.add_right_comm, Nat.add_assoc]
    rw [mergeMissing]
    by_cases empty : mask = 0
    · -- No bit is left, so no record is.
      rw [if_pos empty]
      have nobody : (second.live.drop i).filter unknown = [] := by
        rw [List.filter_eq_nil_iff]
        intro record member chosen
        obtain ⟨position, inside, rfl⟩ := List.getElem_of_mem member
        rw [List.length_drop] at inside
        rw [List.getElem_drop] at chosen
        have set := (marks position (by omega)).mpr ⟨_, List.getElem?_eq_getElem (by omega), chosen⟩
        rw [empty] at set
        simp at set
      rw [nobody]
      rfl
    · rw [if_neg empty, ih (i + 1) _ _ (by omega) shifted]
      by_cases inside : i < second.live.length
      · have slot : second.records[i]? = some second.live[i] := by
          have below : i < second.size := by
            simp only [VectorClock.live, List.length_take] at inside
            omega
          rw [← List.getElem?_eq_getElem inside]
          exact (List.getElem?_take_of_lt below).symm
        rw [List.drop_eq_getElem_cons inside]
        by_cases chosen : unknown second.live[i] = true
        · have set := low.mpr ⟨_, List.getElem?_eq_getElem inside, chosen⟩
          rw [if_pos set, slot, List.filter_cons_of_pos chosen]
          rfl
        · have clear : ¬mask &&& 1 ≠ 0 := by
            rintro set
            obtain ⟨record, here, taken⟩ := low.mp set
            rw [Nat.add_zero, List.getElem?_eq_getElem inside, Option.some.injEq] at here
            exact chosen (here ▸ taken)
          rw [if_neg clear, List.filter_cons_of_neg chosen]
      · -- There is no slot, and so no bit.
        have clear : ¬mask &&& 1 ≠ 0 := by
          rintro set
          obtain ⟨record, here, -⟩ := low.mp set
          obtain ⟨inside_, -⟩ := List.getElem?_eq_some_iff.mp here
          omega
        rw [if_neg clear, List.drop_eq_nil_of_le (Nat.le_of_not_lt inside),
          List.drop_eq_nil_of_le (by omega)]

/-- The mask of the records the first clock lacks. -/
theorem missing_marks {first second : VectorClock} (readable : first.Readable)
    (readable_ : second.Readable) :
    Marks (((List.range first.size).foldl (compareRecordAt second false)
        ⟨.equal, 0, first⟩).secondVisitedIdxs ^^^ ((1 <<< UInt32.ofNat second.size) - 1))
      fun position => ∃ record, second.live[position]? = some record ∧
        decide (first.latest record.memberId = none) := by
  have visited := (scanned_all readable readable_).visited
  have below := Marks.below second.size (Nat.lt_of_le_of_lt readable_.few (by decide))
  refine (visited.xor below).congr fun position => ?_
  by_cases inside : position < second.live.length
  · -- The slot was visited exactly when the first clock holds a number for its originator.
    have used : position < second.size := readable_.live_length ▸ inside
    have known : (∃ record ∈ first.live,
        vectorClockFindByMemberId second record.memberId = some position) ↔
          first.latest second.live[position].memberId ≠ none := by
      constructor
      · rintro ⟨record, member, found⟩
        obtain ⟨_, same⟩ := lt_of_find found
        rw [same, readable.latest_of_mem member]
        exact Option.some_ne_none _
      · intro held
        obtain ⟨number, latest⟩ := Option.ne_none_iff_exists'.mp held
        exact ⟨_, mem_of_latest latest, readable_.find_getElem inside⟩
    rw [known, List.getElem?_eq_getElem inside]
    simp [used]
  · -- Neither mask has a bit behind the slots in use.
    have unused : ¬position < second.size := readable_.live_length ▸ inside
    have apart : ¬∃ record ∈ first.live,
        vectorClockFindByMemberId second record.memberId = some position := by
      rintro ⟨record, -, found⟩
      obtain ⟨inside_, -⟩ := lt_of_find found
      exact inside inside_
    rw [List.getElem?_eq_none (Nat.le_of_not_lt inside)]
    simp [apart, unused]

/-- A merging comparison answers as without, raises what the first clock has, and adds the rest. -/
theorem vectorClockCompare_merge {first second : VectorClock} (readable : first.Readable)
    (readable_ : second.Readable) :
    vectorClockCompare first second true =
      ((vectorClockCompare first second false).1,
        (second.live.filter fun record => first.latest record.memberId = none).foldl
          VectorClock.setRecord (first.raisedUpTo second first.size)) := by
  have marks := missing_marks readable readable_
  have few : second.live.length ≤ 32 := by
    rw [readable_.live_length]
    exact Nat.le_trans readable_.few (by decide)
  have inserted := mergeMissing_eq few
    (fun record => decide (first.latest record.memberId = none)) 32 0 _
    (first.raisedUpTo second first.size) (by omega) (marks.congr fun position => by
      rw [Nat.zero_add])
  rw [List.drop_zero] at inserted
  unfold vectorClockCompare
  simp only [scan_merge second readable.stored]
  split
  · rw [← inserted]
    rfl
  · rename_i none_
    -- An empty mask inserts nothing.
    rw [not_not] at none_
    rw [none_] at inserted
    rw [← inserted]
    rfl

end Pittacus
