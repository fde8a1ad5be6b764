import Mathlib.Data.List.InsertIdx
import Pittacus.Basic.Machine
import Pittacus.Proofs.Members

/-! The member set is an ordered set without duplicates, however it is grown and shrunk. -/

namespace Pittacus

/-! ### Calls -/

/--
Remove the member a pointer refers to, and tell whether there was one.

The pointer is known by the slots that hold it.
-/
def clusterMemberSetRemove (members : ClusterMemberSet) (held : Nat → Bool) :
    Bool × ClusterMemberSet :=
  match (List.range members.size).find? held with
  | some idx => (true, clusterMemberSetShift members idx)
  | none => (false, members)

/-- A call that changes a member set. -/
inductive MemberSetCall where
  | put (newMembers : List ClusterMember)
  | remove (held : Nat → Bool)
  | removeByAddr (unset address : Nat → UInt8) (addressSize : Nat)

/-- Whether a call removed a member, and the set it leaves behind. -/
def MemberSetCall.call : MemberSetCall → ClusterMemberSet → Bool × ClusterMemberSet
  | .put newMembers, members => (false, clusterMemberSetPut members newMembers)
  | .remove held, members => clusterMemberSetRemove members held
  | .removeByAddr unset address addressSize, members =>
    ((clusterMemberSetFindByAddr unset members address addressSize).isSome,
      clusterMemberSetRemoveByAddr unset members address addressSize)

/-- A call as a step that shows whether it removed a member. -/
def memberSetStep (call : MemberSetCall) : Routine ClusterMemberSet Bool Unit := fun members =>
  ⟨(), (call.call members).2, [(call.call members).1]⟩

/-- The most members a set may be asked to hold before thirty-two bits run out. -/
def memberSetLimit : Nat := 3 * 2 ^ 29

/-- A call asks for fewer members in total than thirty-two bits allow for. -/
def MemberSetCall.Bounded (members : ClusterMemberSet) : MemberSetCall → Prop
  | .put newMembers => members.size + newMembers.length < memberSetLimit
  | _ => True

instance (members : ClusterMemberSet) : DecidablePred (MemberSetCall.Bounded members)
  | .put newMembers => inferInstanceAs (Decidable (members.size + newMembers.length < memberSetLimit))
  | .remove _ => .isTrue trivial
  | .removeByAddr _ _ _ => .isTrue trivial

/-! ### Growing in thirty-two bits -/

/-- The loop that extends the capacity, in thirty-two bits, or nothing if the rounds run out. -/
def extendedCapacityLoop (requiredSize : UInt32) : Nat → UInt32 → Option UInt32
  | 0, _ => none
  | rounds + 1, capacity =>
    if reachesLoadFactor requiredSize.toNat capacity.toNat then
      extendedCapacityLoop requiredSize rounds (capacity * UInt32.ofNat membersExtensionFactor)
    else some capacity

/-- Below the limit, the loop ends after some rounds with the capacity it is said to find. -/
theorem extendedCapacityLoop_eq {requiredSize : Nat} (small : requiredSize < memberSetLimit)
    (rounds capacity : Nat) (word : capacity < 2 ^ 32)
    (enough : 4 * requiredSize < 3 * (capacity * 2 ^ rounds)) :
    extendedCapacity requiredSize rounds capacity < 2 ^ 32 ∧
      extendedCapacityLoop (UInt32.ofNat requiredSize) (rounds + 1) (UInt32.ofNat capacity) =
        some (UInt32.ofNat (extendedCapacity requiredSize rounds capacity)) := by
  have size : (UInt32.ofNat requiredSize).toNat = requiredSize :=
    UInt32.toNat_ofNat_of_lt' (by simp only [memberSetLimit, UInt32.size] at *; omega)
  have read : (UInt32.ofNat capacity).toNat = capacity := UInt32.toNat_ofNat_of_lt' word
  rw [extendedCapacityLoop, size, read]
  induction rounds generalizing capacity with
  | zero =>
    have roomy : reachesLoadFactor requiredSize capacity = false := by
      rw [reachesLoadFactor_false]
      simpa using enough
    rw [roomy]
    exact ⟨word, rfl⟩
  | succ rounds ih =>
    rw [extendedCapacity]
    cases reached : reachesLoadFactor requiredSize capacity with
    | false => exact ⟨word, rfl⟩
    | true =>
      -- A capacity that is reached is less than half of what thirty-two bits hold.
      have half : 3 * capacity ≤ 4 * requiredSize := by simpa [reachesLoadFactor] using reached
      have doubled : capacity * membersExtensionFactor < 2 ^ 32 := by
        simp only [memberSetLimit, membersExtensionFactor] at *
        omega
      have product : UInt32.ofNat capacity * UInt32.ofNat membersExtensionFactor =
          UInt32.ofNat (capacity * membersExtensionFactor) := (UInt32.ofNat_mul _ _).symm
      have read_ : (UInt32.ofNat (capacity * membersExtensionFactor)).toNat =
          capacity * membersExtensionFactor := UInt32.toNat_ofNat_of_lt' doubled
      have enough_ : 4 * requiredSize < 3 * (capacity * membersExtensionFactor * 2 ^ rounds) := by
        have same : capacity * 2 ^ (rounds + 1) = capacity * membersExtensionFactor * 2 ^ rounds := by
          rw [Nat.pow_succ', ← Nat.mul_assoc]
          rfl
        rw [← same]
        exact enough
      rw [if_pos rfl, if_pos rfl, product, extendedCapacityLoop, size, read_]
      exact ih _ doubled enough_ read_

/-- Add members as `clusterMemberSetPut` does, in thirty-two bits, for at most so many rounds. -/
def clusterMemberSetPutWords (rounds : Nat) (members : ClusterMemberSet)
    (newMembers : List ClusterMember) : Option ClusterMemberSet :=
  let newSize := UInt32.ofNat (members.size + newMembers.length)
  if reachesLoadFactor newSize.toNat members.capacity then
    (extendedCapacityLoop newSize rounds (UInt32.ofNat members.capacity)).map fun newCapacity =>
      newMembers.foldl clusterMemberSetAdd
        { members with
          set := members.set.take members.size ++
            List.replicate (newCapacity.toNat - members.size) none
          capacity := newCapacity.toNat }
  else some (newMembers.foldl clusterMemberSetAdd members)

/-- Adding one member leaves the capacity as it was. -/
theorem clusterMemberSetAdd_capacity (members : ClusterMemberSet) (current : ClusterMember) :
    (clusterMemberSetAdd members current).capacity = members.capacity := by
  unfold clusterMemberSetAdd
  split <;> rfl

theorem clusterMemberSetAdds_capacity (newMembers : List ClusterMember)
    (members : ClusterMemberSet) :
    (newMembers.foldl clusterMemberSetAdd members).capacity = members.capacity := by
  induction newMembers generalizing members with
  | nil => rfl
  | cons current rest ih => rw [List.foldl_cons, ih, clusterMemberSetAdd_capacity]

/-- Below the limit, adding members in thirty-two bits terminates, and nothing wraps around. -/
theorem ClusterMemberSet.Ok.put_words {members : ClusterMemberSet} (ok : members.Ok)
    (word : members.capacity < 2 ^ 32) {newMembers : List ClusterMember}
    (small : members.size + newMembers.length < memberSetLimit) :
    (clusterMemberSetPut members newMembers).capacity < 2 ^ 32 ∧
      ∃ rounds, clusterMemberSetPutWords rounds members newMembers =
        some (clusterMemberSetPut members newMembers) := by
  have size : (UInt32.ofNat (members.size + newMembers.length)).toNat =
      members.size + newMembers.length :=
    UInt32.toNat_ofNat_of_lt' (by simp only [memberSetLimit, UInt32.size] at *; omega)
  unfold clusterMemberSetPut clusterMemberSetPutWords
  dsimp only
  rw [size]
  cases reached : reachesLoadFactor (members.size + newMembers.length) members.capacity with
  | false =>
    simp only [Bool.false_eq_true, if_false, clusterMemberSetAdds_capacity]
    exact ⟨word, 0, trivial⟩
  | true =>
    -- As many rounds as members are asked for are enough.
    have room := reachesLoadFactor_false.mp ok.roomy
    have positive : 1 ≤ members.capacity := by omega
    have enough : 4 * (members.size + newMembers.length) <
        3 * (members.capacity * 2 ^ (members.size + newMembers.length + 1)) := by
      have power : members.size + newMembers.length < 2 ^ (members.size + newMembers.length) :=
        Nat.lt_two_pow_self
      have least :=
        Nat.mul_le_mul_right (2 ^ (members.size + newMembers.length + 1)) positive
      rw [Nat.pow_succ] at least ⊢
      omega
    obtain ⟨word_, loops⟩ := extendedCapacityLoop_eq small _ _ word enough
    have read : (UInt32.ofNat (extendedCapacity (members.size + newMembers.length)
        (members.size + newMembers.length + 1) members.capacity)).toNat = _ :=
      UInt32.toNat_ofNat_of_lt' word_
    simp only [if_true, clusterMemberSetAdds_capacity]
    refine ⟨word_, members.size + newMembers.length + 1 + 1, ?_⟩
    rw [loops, Option.map_some, read]
    rfl

/-! ### Slots -/

/-- Every slot in use holds a member. -/
def ClusterMemberSet.Filled (members : ClusterMemberSet) : Prop :=
  members.set.take members.size = members.live.map some

/-- Options as many as the values among them are all values. -/
theorem eq_map_some_of_length {α : Type} {slots : List (Option α)}
    (full : (slots.filterMap id).length = slots.length) :
    slots = (slots.filterMap id).map some := by
  induction slots with
  | nil => rfl
  | cons slot rest ih =>
    -- An empty slot would make the values fewer than the slots.
    cases slot with
    | none =>
      have few := List.length_filterMap_le (fun slot : Option α => slot) rest
      simp only [List.filterMap_cons, id, List.length_cons] at full
      omega
    | some value =>
      simp only [List.filterMap_cons, id, List.length_cons, Nat.add_right_cancel_iff] at full
      simp only [List.filterMap_cons, id, List.map_cons, List.cons.injEq, true_and]
      exact ih full

/-- A set that knows as many members as it has slots in use has a member in each of them. -/
theorem filled_of_live_length {members : ClusterMemberSet}
    (room : members.size ≤ members.set.length) (full : members.live.length = members.size) :
    members.Filled := by
  refine eq_map_some_of_length ?_
  rw [List.length_take, Nat.min_eq_left room]
  exact full

/-- What the slots in use hold is what is known of the set. -/
theorem live_of_slots {members : ClusterMemberSet} {held : List ClusterMember}
    (slots : members.set.take members.size = held.map some) : members.live = held := by
  rw [ClusterMemberSet.live, slots, List.filterMap_map]
  exact List.filterMap_some

theorem ClusterMemberSet.Filled.live_length {members : ClusterMemberSet} (filled : members.Filled)
    (ok : members.Ok) : members.live.length = members.size := by
  have room := reachesLoadFactor_false.mp ok.roomy
  have length := congrArg List.length filled
  rw [List.length_take, List.length_map, ok.allocated] at length
  omega

/-- Adding a member to a set with room fills the next slot. -/
theorem ClusterMemberSet.Filled.add {members : ClusterMemberSet} (filled : members.Filled)
    (current : ClusterMember) (room : members.size < members.set.length) :
    (clusterMemberSetAdd members current).Filled := by
  have live := clusterMemberSetAdd_live current room
  unfold ClusterMemberSet.Filled
  rw [live]
  rw [clusterMemberSetAdd] at live ⊢
  have present : (members.live.any fun member => clusterMemberEquals member current) = true ↔
      current ∈ members.live := by
    simp only [List.any_eq_true, clusterMemberEquals_iff, exists_eq_right]
  by_cases known : current ∈ members.live
  · rw [if_pos (present.mpr known), if_pos known]
    exact filled
  · rw [if_neg (fun any => known (present.mp any)), if_neg known]
    -- The new member goes behind the slots in use, which stay as they are.
    have unchanged : (members.set.set members.size (some current)).take members.size
        = members.set.take members.size := List.take_set_of_le (Nat.le_refl _)
    show (members.set.set members.size (some current)).take (members.size + 1) = _
    rw [List.take_add_one, unchanged, List.getElem?_set_self room, filled, List.map_append]
    rfl

/-- Members that are added one by one stand behind those present, in the order they were given. -/
theorem foldl_clusterMemberSetAdd_live (newMembers : List ClusterMember)
    (members : ClusterMemberSet) (filled : members.Filled)
    (room : members.size + newMembers.length ≤ members.set.length) :
    (newMembers.foldl clusterMemberSetAdd members).Filled ∧
      (newMembers.foldl clusterMemberSetAdd members).live =
        members.live ++ (newMembers.filter fun member => member ∉ members.live).eraseDups := by
  induction newMembers generalizing members with
  | nil => exact ⟨filled, (List.append_nil _).symm⟩
  | cons current rest ih =>
    rw [List.length_cons] at room
    have fits : members.size < members.set.length := by omega
    obtain ⟨length, -, size, -⟩ := foldl_clusterMemberSetAdd [current] members
      (by rw [List.length_singleton]; omega)
    have length_ : (clusterMemberSetAdd members current).set.length = members.set.length := length
    have size_ : (clusterMemberSetAdd members current).size ≤ members.size + 1 := size
    obtain ⟨filled_, live_⟩ := ih _ (filled.add current fits) (by omega)
    refine ⟨filled_, ?_⟩
    rw [List.foldl_cons, live_, clusterMemberSetAdd_live current fits]
    by_cases known : current ∈ members.live
    · rw [if_pos known, List.filter_cons_of_neg (by simpa using known)]
    · -- Later members equal to this one are left out as well.
      rw [if_neg known, List.filter_cons_of_pos (by simpa using known), List.eraseDups_cons,
        List.filter_filter, List.append_assoc, List.singleton_append]
      congr 3
      refine List.filter_congr fun member _ => ?_
      by_cases same : member = current
      · simp [same]
      · simp [same]

/-- A put appends the members that are new, each once, and fills the slots behind those in use. -/
theorem ClusterMemberSet.Ok.put_live {members : ClusterMemberSet} (ok : members.Ok)
    (filled : members.Filled) (newMembers : List ClusterMember) :
    (clusterMemberSetPut members newMembers).Filled ∧
      (clusterMemberSetPut members newMembers).live =
        members.live ++ (newMembers.filter fun member => member ∉ members.live).eraseDups := by
  obtain ⟨roomy, added, allocated, size, live, below⟩ := ok.put_eq newMembers
  have bound := reachesLoadFactor_false.mp below
  -- Extending the set may move the members, but leaves none of its slots empty.
  have filled_ : roomy.Filled := by
    have held := filled.live_length ok
    rw [← live, ← size] at held
    exact filled_of_live_length (by omega) held
  rw [added, ← live]
  exact foldl_clusterMemberSetAdd_live newMembers roomy filled_ (by omega)

/-- Closing a gap leaves out one member, and keeps the others in their order. -/
theorem ClusterMemberSet.Filled.shift {members : ClusterMemberSet} (filled : members.Filled)
    (ok : members.Ok) {idx : Nat} (inside : idx < members.size) :
    (clusterMemberSetShift members idx).Filled ∧
      (clusterMemberSetShift members idx).live = members.live.eraseIdx idx := by
  have room := reachesLoadFactor_false.mp ok.roomy
  have allocated := ok.allocated
  have front : (members.set.take idx ++ (members.set.take members.size).drop (idx + 1)).length
      = members.size - 1 := by
    simp only [List.length_append, List.length_take, List.length_drop]
    omega
  -- The slots in use afterwards are those before, less the one that was closed.
  have slots : (clusterMemberSetShift members idx).set.take (clusterMemberSetShift members idx).size =
      (members.live.eraseIdx idx).map some := by
    show (members.set.take idx ++ (members.set.take members.size).drop (idx + 1) ++
      members.set.drop (members.size - 1)).take (members.size - 1) = _
    have early : members.set.take idx = (members.set.take members.size).take idx := by
      rw [List.take_take, Nat.min_eq_left (Nat.le_of_lt inside)]
    rw [List.take_left' front, early, ← List.eraseIdx_eq_take_drop_succ, filled, List.eraseIdx_map]
  have live := live_of_slots slots
  refine ⟨?_, live⟩
  unfold ClusterMemberSet.Filled
  rw [slots, live]

/-! ### Runs -/

/-- The slot a removing call is after. -/
def MemberSetCall.Chooses (members : ClusterMemberSet) : MemberSetCall → Nat → Prop
  | .put _, _ => False
  | .remove held, slot => held slot = true
  | .removeByAddr unset address addressSize, slot =>
    ∃ member, members.live[slot]? = some member ∧
      memcmpEqual (Decoder.memoryOf member.address unset) address addressSize = true

/-- A set in order, with a member in every slot in use and none of them twice. -/
structure ClusterMemberSet.Kept (members : ClusterMemberSet) : Prop where
  ok : members.Ok
  word : members.capacity < 2 ^ 32
  filled : members.Filled
  distinct : members.live.Nodup

theorem clusterMemberSetInit_kept : clusterMemberSetInit.Kept where
  ok := clusterMemberSetInit_ok
  word := by decide
  filled := rfl
  distinct := List.nodup_nil

/-- A call that removes a member removes the one it is after, and closes the gap. -/
theorem ClusterMemberSet.Kept.removes {members : ClusterMemberSet} (kept : members.Kept)
    {call : MemberSetCall} (removed : (call.call members).1 = true) :
    ∃ slot < members.size, call.Chooses members slot ∧
      (call.call members).2 = clusterMemberSetShift members slot := by
  -- Either removal finds a slot first and shifts the ones behind it down.
  cases call with
  | put newMembers => cases removed
  | remove held =>
    simp only [MemberSetCall.call, clusterMemberSetRemove] at removed ⊢
    cases found : (List.range members.size).find? held with
    | none =>
      rw [found] at removed
      cases removed
    | some slot =>
      exact ⟨slot, List.mem_range.mp (List.mem_of_find?_eq_some found), List.find?_some found, rfl⟩
  | removeByAddr unset address addressSize =>
    simp only [MemberSetCall.call, clusterMemberSetRemoveByAddr] at removed ⊢
    cases found : clusterMemberSetFindByAddr unset members address addressSize with
    | none =>
      rw [found] at removed
      cases removed
    | some slot =>
      obtain ⟨inside, matching, -⟩ := List.findIdx?_eq_some_iff_getElem.mp found
      refine ⟨slot, kept.filled.live_length kept.ok ▸ inside, ?_, rfl⟩
      exact ⟨_, List.getElem?_eq_getElem inside, matching⟩

/-- A call that removes nothing and puts nothing changes nothing. -/
theorem MemberSetCall.call_unchanged {members : ClusterMemberSet} {call : MemberSetCall}
    (nothing : (call.call members).1 = false) (removing : ∀ newMembers, call ≠ .put newMembers) :
    (call.call members).2 = members := by
  -- A removal that finds a slot answers that it did.
  cases call with
  | put newMembers => exact absurd rfl (removing newMembers)
  | remove held =>
    simp only [MemberSetCall.call, clusterMemberSetRemove] at nothing ⊢
    cases found : (List.range members.size).find? held with
    | none => rfl
    | some slot =>
      rw [found] at nothing
      cases nothing
  | removeByAddr unset address addressSize =>
    simp only [MemberSetCall.call, clusterMemberSetRemoveByAddr] at nothing ⊢
    cases found : clusterMemberSetFindByAddr unset members address addressSize with
    | none => rfl
    | some slot =>
      rw [found] at nothing
      cases nothing

/-- Every call keeps the set in order, as long as it stays below the limit. -/
theorem ClusterMemberSet.Kept.step {members : ClusterMemberSet} (kept : members.Kept)
    {call : MemberSetCall} (bounded : call.Bounded members) :
    (memberSetStep call members).state.Kept := by
  show (call.call members).2.Kept
  -- A call that removes nothing adds members, or leaves the set as it was.
  cases removed : (call.call members).1 with
  | true =>
    obtain ⟨slot, inside, -, after⟩ := kept.removes removed
    obtain ⟨filled, live⟩ := kept.filled.shift kept.ok inside
    rw [after]
    refine ⟨(kept.ok.shift inside).1, kept.word, filled, ?_⟩
    rw [live]
    exact kept.distinct.eraseIdx slot
  | false =>
    cases call with
    | put newMembers =>
      exact ⟨(kept.ok.put newMembers).1, (kept.ok.put_words kept.word bounded).1,
        (kept.ok.put_live kept.filled newMembers).1, kept.ok.put_nodup kept.distinct newMembers⟩
    | remove held =>
      rw [MemberSetCall.call_unchanged removed fun _ => by simp]
      exact kept
    | removeByAddr unset address addressSize =>
      rw [MemberSetCall.call_unchanged removed fun _ => by simp]
      exact kept

theorem memberSet_kept {calls : List MemberSetCall} {members : ClusterMemberSet}
    (start : members.Kept)
    (bounded : Machine.Along memberSetStep (fun members call => call.Bounded members) calls members) :
    (Machine.run memberSetStep calls members).Kept := by
  have preserved : ∀ (members : ClusterMemberSet) (call : MemberSetCall), members.Kept →
      call.Bounded members → (memberSetStep call members).state.Kept :=
    fun _ _ kept bounded => kept.step bounded
  exact Machine.run_invariant preserved start bounded

/-- A member set whose slots in use lie inside its array, are filled, and differ from each other. -/
structure ClusterMemberSet.Sound (members : ClusterMemberSet) : Prop where
  allocated : members.set.length = members.capacity
  roomy : members.size * 4 < members.capacity * 3
  word : members.capacity < 2 ^ 32
  filled : ∀ slot < members.size, ∃ member, members.set[slot]? = some (some member) ∧
    members.live[slot]? = some member
  whole : members.live.length = members.size
  different : members.live.Pairwise fun first second => clusterMemberEquals first second = false

theorem ClusterMemberSet.Kept.sound {members : ClusterMemberSet} (kept : members.Kept) :
    members.Sound where
  allocated := kept.ok.allocated
  roomy := by
    have roomy := reachesLoadFactor_false.mp kept.ok.roomy
    omega
  word := kept.word
  filled := by
    intro slot inside
    have length := kept.filled.live_length kept.ok
    have bound : slot < members.live.length := length ▸ inside
    -- The slot and the place among the members are the same, as no slot is empty.
    have here := congrArg (fun slots => slots[slot]?) kept.filled
    simp only [List.getElem?_take_of_lt inside, List.getElem?_map,
      List.getElem?_eq_getElem bound, Option.map_some] at here
    exact ⟨_, here, List.getElem?_eq_getElem bound⟩
  whole := kept.filled.live_length kept.ok
  different := by
    refine kept.distinct.imp fun apart => ?_
    rw [← Bool.not_eq_true, clusterMemberEquals_iff]
    exact apart

/--
Whatever is put and removed, the member set is an ordered set without duplicates.

A put terminates without wrapping around, and appends what is new in order of first occurrence.
A removal leaves out one member and keeps the order of the others.
-/
theorem memberSet_ordered (calls : List MemberSetCall)
    (bounded : Machine.Along memberSetStep (fun members call => call.Bounded members) calls
      clusterMemberSetInit) :
    let members := Machine.run memberSetStep calls clusterMemberSetInit
    members.Sound ∧
    (∀ newMembers : List ClusterMember, members.size + newMembers.length < memberSetLimit →
      (∃ rounds, clusterMemberSetPutWords rounds members newMembers =
        some (clusterMemberSetPut members newMembers)) ∧
      (clusterMemberSetPut members newMembers).live =
        members.live ++ (newMembers.filter fun member => member ∉ members.live).eraseDups) ∧
    ∀ call : MemberSetCall,
      ((call.call members).1 = true → ∃ slot < members.size, call.Chooses members slot ∧
        (call.call members).2.live = members.live.eraseIdx slot) ∧
      ((call.call members).1 = false → (∀ newMembers, call ≠ .put newMembers) →
        (call.call members).2 = members) := by
  intro members
  have kept : members.Kept := memberSet_kept clusterMemberSetInit_kept bounded
  -- The invariant of the whole run answers for the next call, whichever it is.
  refine ⟨kept.sound, fun newMembers small => ⟨?_, ?_⟩, fun call => ⟨fun removed => ?_, ?_⟩⟩
  · exact (kept.ok.put_words kept.word small).2
  · exact (kept.ok.put_live kept.filled newMembers).2
  · obtain ⟨slot, inside, chosen, after⟩ := kept.removes removed
    refine ⟨slot, inside, chosen, ?_⟩
    rw [after]
    exact (kept.filled.shift kept.ok inside).2
  · exact MemberSetCall.call_unchanged

/-- The same member given twice stays in the set once, behind the one that was there before. -/
theorem memberSet_ordered_twice :
    let first : ClusterMember := ⟨1, 7, [2, 0], by decide⟩
    let second : ClusterMember := ⟨1, 8, [2, 0], by decide⟩
    let members := Machine.run memberSetStep [.put [first], .put [second, first, second]]
      clusterMemberSetInit
    members.Sound ∧ members.live = [first, second] :=
  ⟨(memberSet_ordered [.put [⟨1, 7, [2, 0], by decide⟩],
      .put [⟨1, 8, [2, 0], by decide⟩, ⟨1, 7, [2, 0], by decide⟩, ⟨1, 8, [2, 0], by decide⟩]]
      (by decide +kernel)).1, by decide +kernel⟩

end Pittacus
