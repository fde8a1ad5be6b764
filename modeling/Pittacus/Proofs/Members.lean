import Pittacus.Member

/-! The member set keeps room for its members, and loses none of those it takes in. -/

namespace Pittacus

/-- The array is as long as the capacity says, and its size stays below the load factor. -/
structure ClusterMemberSet.Ok (members : ClusterMemberSet) : Prop where
  allocated : members.set.length = members.capacity
  roomy : reachesLoadFactor members.size members.capacity = false

theorem reachesLoadFactor_false {size capacity : Nat} :
    reachesLoadFactor size capacity = false ↔ 4 * size < 3 * capacity := by
  simp [reachesLoadFactor]

theorem clusterMemberSetInit_ok : clusterMemberSetInit.Ok where
  allocated := by simp [clusterMemberSetInit]
  roomy := rfl

/-- Two members are found equal exactly when they are. -/
theorem clusterMemberEquals_iff (first second : ClusterMember) :
    clusterMemberEquals first second = true ↔ first = second := by
  constructor
  · intro equal
    simp only [clusterMemberEquals, Bool.and_eq_true, beq_iff_eq] at equal
    -- The length follows from the address.
    obtain ⟨⟨⟨uid, version⟩, -⟩, address⟩ := equal
    cases first
    cases second
    simp_all
  · rintro rfl
    simp [clusterMemberEquals]

/-! ### Growing -/

/-- Enough rounds of doubling outgrow any size. -/
theorem extendedCapacity_roomy (requiredSize : Nat) (rounds capacity : Nat)
    (enough : 4 * requiredSize < 3 * (capacity * 2 ^ rounds)) :
    reachesLoadFactor requiredSize (extendedCapacity requiredSize rounds capacity) = false := by
  induction rounds generalizing capacity with
  | zero =>
    rw [extendedCapacity, reachesLoadFactor_false]
    simpa using enough
  | succ rounds ih =>
    rw [extendedCapacity]
    -- Each round that the loop goes on doubles the capacity and uses up one power.
    by_cases reached : reachesLoadFactor requiredSize capacity = true
    · rw [if_pos reached]
      have doubled : capacity * 2 ^ (rounds + 1) = capacity * membersExtensionFactor * 2 ^ rounds := by
        rw [Nat.pow_succ', ← Nat.mul_assoc]
        rfl
      exact ih _ (doubled ▸ enough)
    · rw [if_neg reached]
      exact Bool.not_eq_true _ ▸ reached

/-- A set that was extended has room for the size it was extended to, and the same members. -/
theorem clusterMemberSetExtend_spec {members : ClusterMemberSet} (ok : members.Ok)
    {requiredSize : Nat} (grows : members.size ≤ requiredSize) :
    let extended := clusterMemberSetExtend members requiredSize
    extended.set.length = extended.capacity ∧ extended.size = members.size ∧
      reachesLoadFactor requiredSize extended.capacity = false ∧ extended.live = members.live := by
  have room := reachesLoadFactor_false.mp ok.roomy
  have positive : 1 ≤ members.capacity := by omega
  -- Doubling once for each required member makes more room than the loop can ask for.
  have power : requiredSize < 2 ^ requiredSize := Nat.lt_two_pow_self
  have enough : 4 * requiredSize < 3 * (members.capacity * 2 ^ (requiredSize + 1)) := by
    have least := Nat.mul_le_mul_right (2 ^ (requiredSize + 1)) positive
    rw [Nat.pow_succ] at least ⊢
    omega
  have roomy := extendedCapacity_roomy requiredSize (requiredSize + 1) members.capacity enough
  have larger := reachesLoadFactor_false.mp roomy
  have held : (members.set.take members.size).length = members.size := by
    rw [List.length_take, ok.allocated]
    omega
  refine ⟨?_, rfl, roomy, ?_⟩
  · simp only [clusterMemberSetExtend, List.length_append, held, List.length_replicate]
    omega
  · simp only [clusterMemberSetExtend, ClusterMemberSet.live]
    rw [List.take_left' held]

/-! ### Adding -/

/-- A member that is added stands behind those already present, unless it is one of them. -/
theorem clusterMemberSetAdd_live {members : ClusterMemberSet} (current : ClusterMember)
    (room : members.size < members.set.length) :
    (clusterMemberSetAdd members current).live =
      if current ∈ members.live then members.live else members.live ++ [current] := by
  have present : (members.live.any fun member => clusterMemberEquals member current) = true ↔
      current ∈ members.live := by
    simp only [List.any_eq_true, clusterMemberEquals_iff, exists_eq_right]
  rw [clusterMemberSetAdd]
  by_cases known : current ∈ members.live
  · rw [if_pos (present.mpr known), if_pos known]
  · rw [if_neg (fun any => known (present.mp any)), if_neg known]
    -- The member goes to the slot behind those in use.
    have unchanged : (members.set.set members.size (some current)).take members.size
        = members.set.take members.size := List.take_set_of_le (Nat.le_refl _)
    simp only [ClusterMemberSet.live]
    rw [List.take_add_one, unchanged, List.getElem?_set_self room]
    simp

/-- Adding members one by one keeps those present, and takes in exactly the given ones. -/
theorem foldl_clusterMemberSetAdd (newMembers : List ClusterMember) (members : ClusterMemberSet)
    (room : members.size + newMembers.length ≤ members.set.length) :
    let added := newMembers.foldl clusterMemberSetAdd members
    added.set.length = members.set.length ∧ added.capacity = members.capacity ∧
      added.size ≤ members.size + newMembers.length ∧
      ∀ member, member ∈ added.live ↔ member ∈ members.live ∨ member ∈ newMembers := by
  induction newMembers generalizing members with
  | nil => simp
  | cons current rest ih =>
    rw [List.length_cons] at room
    have fits : members.size < members.set.length := by omega
    have live := clusterMemberSetAdd_live current fits
    -- One addition uses up at most one slot and moves nothing.
    have shape : (clusterMemberSetAdd members current).set.length = members.set.length ∧
        (clusterMemberSetAdd members current).capacity = members.capacity ∧
        (clusterMemberSetAdd members current).size ≤ members.size + 1 := by
      unfold clusterMemberSetAdd
      split
      · exact ⟨rfl, rfl, Nat.le_add_right _ _⟩
      · exact ⟨List.length_set, rfl, Nat.le_refl _⟩
    obtain ⟨length, capacity, size⟩ := shape
    obtain ⟨length_, capacity_, size_, members_⟩ :=
      ih (clusterMemberSetAdd members current) (by rw [length]; omega)
    refine ⟨length_.trans length, capacity_.trans capacity, ?_, ?_⟩
    · rw [List.length_cons]
      exact Nat.le_trans size_ (by omega)
    · intro member
      rw [List.foldl_cons, members_, live, List.mem_cons]
      split
      · constructor
        · tauto
        · rintro (known | rfl | new)
          · exact .inl known
          · exact .inl ‹_›
          · exact .inr new
      · rw [List.mem_append, List.mem_singleton, or_assoc]

/-- Members are added one by one to a set with the same members that has room for all of them. -/
theorem ClusterMemberSet.Ok.put_eq {members : ClusterMemberSet} (ok : members.Ok)
    (newMembers : List ClusterMember) :
    ∃ roomy : ClusterMemberSet,
      clusterMemberSetPut members newMembers = newMembers.foldl clusterMemberSetAdd roomy ∧
      roomy.set.length = roomy.capacity ∧ roomy.size = members.size ∧
      roomy.live = members.live ∧
      reachesLoadFactor (members.size + newMembers.length) roomy.capacity = false := by
  unfold clusterMemberSetPut
  dsimp only
  -- The set is extended first if all the new members might not fit.
  by_cases reached : reachesLoadFactor (members.size + newMembers.length) members.capacity = true
  · obtain ⟨allocated, size, below, live⟩ :=
      clusterMemberSetExtend_spec ok (Nat.le_add_right members.size newMembers.length)
    rw [if_pos reached]
    exact ⟨_, rfl, allocated, size, live, below⟩
  · rw [if_neg reached]
    exact ⟨members, rfl, ok.allocated, rfl, rfl, Bool.not_eq_true _ ▸ reached⟩

/-- Putting members into a set keeps it in order, and it then consists of the old and the new. -/
theorem ClusterMemberSet.Ok.put {members : ClusterMemberSet} (ok : members.Ok)
    (newMembers : List ClusterMember) :
    (clusterMemberSetPut members newMembers).Ok ∧
      ∀ member, member ∈ (clusterMemberSetPut members newMembers).live ↔
        member ∈ members.live ∨ member ∈ newMembers := by
  obtain ⟨roomy, added, allocated, size, live, below⟩ := ok.put_eq newMembers
  have bound := reachesLoadFactor_false.mp below
  obtain ⟨length, capacity, grown, found⟩ := foldl_clusterMemberSetAdd newMembers roomy (by omega)
  rw [added]
  rw [live] at found
  refine ⟨⟨by rw [length, capacity, allocated], ?_⟩, found⟩
  rw [reachesLoadFactor_false, capacity]
  omega

/-- No member gets into a set twice. -/
theorem ClusterMemberSet.Ok.put_nodup {members : ClusterMemberSet} (ok : members.Ok)
    (distinct : members.live.Nodup) (newMembers : List ClusterMember) :
    (clusterMemberSetPut members newMembers).live.Nodup := by
  obtain ⟨roomy, added, allocated, size, live, below⟩ := ok.put_eq newMembers
  have bound := reachesLoadFactor_false.mp below
  have room : roomy.size + newMembers.length ≤ roomy.set.length := by omega
  rw [← live] at distinct
  rw [added]
  clear added live below bound allocated size
  -- Each of them is added only if it is not there yet.
  induction newMembers generalizing roomy with
  | nil => exact distinct
  | cons current rest ih =>
    rw [List.length_cons] at room
    obtain ⟨length, -, grown, -⟩ := foldl_clusterMemberSetAdd [current] roomy
      (by rw [List.length_singleton]; omega)
    rw [List.length_singleton] at grown
    refine ih _ ?_ ?_
    · rw [clusterMemberSetAdd_live current (by omega)]
      by_cases known : current ∈ roomy.live
      · rw [if_pos known]
        exact distinct
      · rw [if_neg known]
        refine List.nodup_append.mpr ⟨distinct, by simp, ?_⟩
        intro held before new added same
        exact known ((same.trans (List.mem_singleton.mp added)) ▸ before)
    · have same : (clusterMemberSetAdd roomy current).set.length = roomy.set.length := length
      have more : (clusterMemberSetAdd roomy current).size ≤ roomy.size + 1 := grown
      omega

/-- A member that is put into a set alone stands behind the others, unless it is one of them. -/
theorem ClusterMemberSet.Ok.put_one {members : ClusterMemberSet} (ok : members.Ok)
    (current : ClusterMember) :
    (clusterMemberSetPut members [current]).live =
      if current ∈ members.live then members.live else members.live ++ [current] := by
  obtain ⟨roomy, added, allocated, size, live, below⟩ := ok.put_eq [current]
  have bound := reachesLoadFactor_false.mp below
  rw [List.length_singleton] at bound
  have room : roomy.size < roomy.set.length := by omega
  rw [added, ← live]
  exact clusterMemberSetAdd_live current room

/-! ### Removing -/

/-- Closing a gap keeps the set in order and takes in nobody. -/
theorem ClusterMemberSet.Ok.shift {members : ClusterMemberSet} (ok : members.Ok) {idx : Nat}
    (inside : idx < members.size) :
    (clusterMemberSetShift members idx).Ok ∧
      ∀ member ∈ (clusterMemberSetShift members idx).live, member ∈ members.live := by
  have room := reachesLoadFactor_false.mp ok.roomy
  have allocated := ok.allocated
  -- What is kept is the part before the gap and the part behind it.
  have front : (members.set.take idx ++ (members.set.take members.size).drop (idx + 1)).length
      = members.size - 1 := by
    simp only [List.length_append, List.length_take, List.length_drop]
    omega
  refine ⟨⟨?_, ?_⟩, ?_⟩
  · simp only [clusterMemberSetShift, List.length_append, List.length_take, List.length_drop]
    omega
  · rw [reachesLoadFactor_false]
    simp only [clusterMemberSetShift]
    omega
  · intro member kept
    simp only [ClusterMemberSet.live, clusterMemberSetShift] at kept ⊢
    rw [List.take_left' front] at kept
    obtain ⟨slot, found, here⟩ := List.mem_filterMap.mp kept
    refine List.mem_filterMap.mpr ⟨slot, ?_, here⟩
    rcases List.mem_append.mp found with early | late
    · exact List.take_subset_take_left _ (Nat.le_of_lt inside) early
    · exact List.mem_of_mem_drop late

/-- Removing by address keeps the set in order and takes in nobody. -/
theorem ClusterMemberSet.Ok.removeByAddr {members : ClusterMemberSet} (ok : members.Ok)
    (unset address : Nat → UInt8) (addressSize : Nat) :
    (clusterMemberSetRemoveByAddr unset members address addressSize).Ok ∧
      ∀ member ∈ (clusterMemberSetRemoveByAddr unset members address addressSize).live,
        member ∈ members.live := by
  unfold clusterMemberSetRemoveByAddr
  cases found : clusterMemberSetFindByAddr unset members address addressSize with
  | none => exact ⟨ok, fun member present => present⟩
  | some idx =>
    have slot := (List.findIdx?_eq_some_iff_findIdx_eq.mp found).1
    -- No more members are listed than there are slots in use.
    have live : members.live.length ≤ members.size :=
      Nat.le_trans (List.length_filterMap_le _ _) (List.length_take_le _ _)
    exact ok.shift (Nat.lt_of_lt_of_le slot live)

end Pittacus
