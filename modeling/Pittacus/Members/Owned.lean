import Pittacus.Members.Ordered
import Pittacus.Members.Stored

/-! The member set owns its blocks of memory, loses none of them, and releases each of them once. -/

namespace Pittacus.Stored

open Storage

/-! ### What a set owns -/

/-- A member of a set: the block it lies in, and that of its address, unless there is none. -/
structure Held where
  place : Nat
  address : Option Nat
  member : ClusterMember

/-- What the block of a member contains. -/
def Held.record (held : Held) : MemberRecord :=
  ⟨held.member.version, held.member.uid, held.member.addressLen, held.address⟩

/-- The blocks of a member. -/
def Held.blocks (held : Held) : List (Nat × MemberBlock) :=
  (held.place, .record held.record) ::
    held.address.toList.map fun address => (address, .address held.member.address)

/-- The slots that point to some members. -/
def places (held : List Held) : List (Option Nat) := held.map fun one => some one.place

/-- A set lies in memory, with some members in order and some spare slots, beside other blocks. -/
structure Lies (memory : Blocks MemberBlock) (members : MemberSet) (held : List Held)
    (spare : List (Option Nat)) (others : List (Nat × MemberBlock)) : Prop where
  holds : memory.Holds ((members.set, .pointers (places held ++ spare)) ::
    (held.flatMap Held.blocks ++ others))
  size : members.size = held.length
  capacity : held.length + spare.length = members.capacity

/-- A set owns its array and the blocks of its members, and has room for more of them. -/
def Owns (memory : Blocks MemberBlock) (members : MemberSet) (held : List Held)
    (others : List (Nat × MemberBlock)) : Prop :=
  reachesLoadFactor members.size members.capacity = false ∧
    ∃ spare, Lies memory members held spare others

variable {refuses : Nat → MemberBlock → Bool} {memory : Blocks MemberBlock} {mayFail : Prop}
  {blocks others : List (Nat × MemberBlock)} {members : MemberSet} {held : List Held}
  {spare : List (Option Nat)}

/-! ### Reading -/

/-- A slot inside an array that is held can be read. -/
theorem loadSlot_spec {set slot : Nat} {slots : List (Option Nat)} {pointer : Option Nat}
    (holds : memory.Holds blocks) (listed : (set, .pointers slots) ∈ blocks)
    (inside : slots[slot]? = some pointer) :
    (loadSlot set slot).Ensures refuses memory mayFail fun found after =>
      found = pointer ∧ after = memory := by
  refine (ensures_load holds listed).bind ?_
  rintro _ _ ⟨rfl, rfl⟩
  simp only [inside]
  exact ensures_pure ⟨rfl, rfl⟩

/-- A member that is held can be read. -/
theorem loadRecord_spec {one : Held} (holds : memory.Holds blocks) (owned : one.blocks ⊆ blocks) :
    (loadRecord (some one.place)).Ensures refuses memory mayFail fun fields after =>
      fields = one.record ∧ after = memory := by
  refine (ensures_load holds (owned List.mem_cons_self)).bind ?_
  rintro _ _ ⟨rfl, rfl⟩
  exact ensures_pure ⟨rfl, rfl⟩

/-- The address of a member is compared, if there is one that is long enough. -/
theorem memcmp_spec {one : Held} (holds : memory.Holds blocks) (owned : one.blocks ⊆ blocks)
    (bytes : List UInt8) :
    (memcmp one.address bytes).Ensures refuses memory
      (one.address = none ∨ one.member.address.length < bytes.length) fun answer after =>
        answer = (one.member.address.take bytes.length == bytes) ∧
          bytes.length ≤ one.member.address.length ∧ after = memory := by
  cases present : one.address with
  | none => exact ensures_fault (.inl rfl)
  | some address =>
    have listed : (address, MemberBlock.address one.member.address) ∈ blocks := by
      refine owned (List.mem_cons_of_mem _ ?_)
      rw [present]
      exact List.mem_singleton.mpr rfl
    refine (ensures_load holds listed).bind ?_
    rintro _ _ ⟨rfl, rfl⟩
    dsimp only
    split
    · rename_i short
      exact ensures_fault (.inr short)
    · rename_i long
      exact ensures_pure ⟨rfl, Nat.le_of_not_lt long, rfl⟩

/-- A member is compared with another one, which takes an address if they agree otherwise. -/
theorem clusterMemberEquals_spec {one : Held} (holds : memory.Holds blocks)
    (owned : one.blocks ⊆ blocks) (current : ClusterMember) :
    (clusterMemberEquals (some one.place) current).Ensures refuses memory (one.address = none)
      fun answer after => answer = decide (one.member = current) ∧ after = memory := by
  refine (loadRecord_spec holds owned).bind ?_
  rintro _ _ ⟨rfl, rfl⟩
  split
  · -- Lengths that agree leave only the bytes to be compared.
    rename_i agree
    obtain ⟨uid, version, lengths⟩ := agree
    have lengths : one.member.address.length = current.address.length := by
      have same := congrArg UInt32.toNat lengths
      rwa [Held.record, ClusterMember.addressLen_toNat, ClusterMember.addressLen_toNat] at same
    refine (memcmp_spec holds owned current.address).imp ?_ ?_
    · rintro (missing | short)
      · exact missing
      · omega
    · rintro answer after ⟨rfl, -, rfl⟩
      refine ⟨?_, rfl⟩
      rw [← lengths, List.take_length, Bool.eq_iff_iff, beq_iff_eq, decide_eq_true_iff]
      constructor
      · intro bytes
        refine (clusterMemberEquals_iff _ _).mp ?_
        simp only [Pittacus.clusterMemberEquals, Bool.and_eq_true, beq_iff_eq]
        exact ⟨⟨⟨uid, version⟩, by simp only [ClusterMember.addressLen, bytes]⟩, bytes⟩
      · intro same
        rw [same]
  · rename_i differ
    refine ensures_pure ⟨(decide_eq_false fun same => differ ?_).symm, rfl⟩
    rw [Held.record, same]
    exact ⟨rfl, rfl, rfl⟩

/-- The first slot whose pointer passes a test is found by testing the members in order. -/
theorem firstSlot_spec {set : Nat} {slots : List (Option Nat)} (front : List Held)
    {passes : Option Nat → Storage MemberBlock Bool} {test : Held → Bool}
    (holds : memory.Holds blocks) (listed : (set, .pointers slots) ∈ blocks)
    (points : ∃ spare, slots = places (front ++ held) ++ spare)
    (tested : ∀ one ∈ held, (passes (some one.place)).Ensures refuses memory mayFail
      fun answer after => answer = test one ∧ after = memory) :
    (firstSlot set passes (List.range' front.length held.length)).Ensures refuses memory mayFail
      fun found after =>
        found = (held.findIdx? test).map (front.length + ·) ∧ after = memory := by
  induction held generalizing front with
  | nil => exact ensures_pure ⟨rfl, rfl⟩
  | cons one rest ih =>
    obtain ⟨spare, points⟩ := points
    rw [List.length_cons, List.range'_succ, firstSlot]
    have here : slots[front.length]? = some (some one.place) := by
      rw [points]
      simp [places]
    refine (loadSlot_spec holds listed here).bind ?_
    rintro _ _ ⟨rfl, rfl⟩
    refine (tested one List.mem_cons_self).bind ?_
    rintro _ _ ⟨rfl, rfl⟩
    cases passed : test one with
    | true =>
      refine ensures_pure ⟨?_, rfl⟩
      rw [List.findIdx?_cons, passed]
      rfl
    | false =>
      -- The rest is searched with this member among those in front.
      have further := ih (front ++ [one]) ⟨spare, by rw [points]; simp⟩
        fun other member => tested other (List.mem_cons_of_mem _ member)
      rw [List.length_append, List.length_singleton] at further
      refine further.imp id ?_
      rintro found after ⟨rfl, rfl⟩
      refine ⟨?_, rfl⟩
      rw [List.findIdx?_cons, passed, if_neg (by decide), Option.map_map]
      congr 1
      funext slot
      simp only [Function.comp]
      omega

/-- A whole set is searched member by member. -/
theorem Lies.firstSlot {passes : Option Nat → Storage MemberBlock Bool} (test : Held → Bool)
    (lies : Lies memory members held spare others)
    (tested : ∀ one ∈ held, (passes (some one.place)).Ensures refuses memory mayFail
      fun answer after => answer = test one ∧ after = memory) :
    (Stored.firstSlot members.set passes (List.range members.size)).Ensures refuses memory mayFail
      fun found after => found = held.findIdx? test ∧ after = memory := by
  rw [lies.size, List.range_eq_range']
  refine (firstSlot_spec [] lies.holds List.mem_cons_self ⟨spare, rfl⟩ tested).imp id ?_
  rintro found after ⟨rfl, rfl⟩
  simp

/-- The blocks of a member are among those of its set. -/
theorem blocks_subset {one : Held} (member : one ∈ held) (array : Nat × MemberBlock)
    (others : List (Nat × MemberBlock)) :
    one.blocks ⊆ array :: (held.flatMap Held.blocks ++ others) := fun _ listed =>
  List.mem_cons_of_mem _ (List.mem_append_left _ (List.mem_flatMap.mpr ⟨one, member, listed⟩))

/-- The blocks of one member may be listed in front of all others. -/
theorem blocks_apart (front : List Held) (one : Held) (back : List Held)
    (array : Nat × MemberBlock) (others : List (Nat × MemberBlock)) :
    (array :: ((front ++ one :: back).flatMap Held.blocks ++ others)).Perm
      (one.blocks ++ array :: ((front ++ back).flatMap Held.blocks ++ others)) := by
  refine List.Perm.trans (List.Perm.cons _ ?_) List.perm_middle.symm
  simp only [List.flatMap_append, List.flatMap_cons, List.append_assoc]
  exact List.perm_append_comm_assoc _ _ _

/-! ### Writing -/

/-- A slot inside an array that is held can be written. -/
theorem storeSlot_spec {set slot : Nat} {slots : List (Option Nat)}
    (holds : memory.Holds ((set, .pointers slots) :: blocks)) (inside : slot < slots.length)
    (pointer : Option Nat) :
    (storeSlot set slot pointer).Ensures refuses memory mayFail fun _ after =>
      after.Holds ((set, .pointers (slots.set slot pointer)) :: blocks) := by
  refine (ensures_load holds List.mem_cons_self).bind ?_
  rintro _ _ ⟨rfl, rfl⟩
  dsimp only
  rw [if_pos inside]
  exact ensures_store holds _

/-- A member and its address are released, and nothing else. -/
theorem clusterMemberSetItemDestroy_spec {one : Held} (holds : memory.Holds (one.blocks ++ others)) :
    (clusterMemberSetItemDestroy (some one.place)).Ensures refuses memory mayFail fun _ after =>
      after.Holds others := by
  have destroyed : (clusterMemberDestroy (some one.place)).Ensures refuses memory mayFail
      fun _ after => after.Holds ((one.place, .record one.record) :: others) := ?_
  · exact destroyed.bind fun _ after kept => ensures_free kept
  refine (loadRecord_spec holds (List.subset_append_left _ _)).bind ?_
  rintro _ _ ⟨rfl, rfl⟩
  -- The address goes first, as the member points to it.
  show (Storage.free one.address).Ensures _ _ _ _
  cases present : one.address with
  | none =>
    rw [Held.blocks, present] at holds
    exact ensures_free_none holds
  | some address =>
    rw [Held.blocks, present] at holds
    exact ensures_free (holds.perm (List.Perm.swap _ _ _))

/-- A copy of a member gets an address of its own, unless the request for it is refused. -/
theorem clusterMemberCopy_spec {dst : Nat} (holds : memory.Holds ((dst, .unset) :: others))
    (src : ClusterMember) :
    (clusterMemberCopy dst src).Ensures refuses memory mayFail fun _ after =>
      ∃ address, after.Holds ((Held.mk dst address src).blocks ++ others) ∧
        (address = none → ∃ number, refuses number (.address src.address) = true) := by
  refine (ensures_malloc holds (.address src.address)).bind ?_
  rintro (_ | address) granted answer
  · obtain ⟨refused, kept⟩ := answer
    refine (ensures_store kept _).bind fun _ after written => ensures_pure ?_
    exact ⟨none, written, fun _ => refused⟩
  · refine (ensures_store (answer.perm (List.Perm.swap _ _ _)) _).bind fun _ after written =>
      ensures_pure ?_
    exact ⟨some address, written, fun none => by cases none⟩

/-! ### Growing -/

/-- Doubling as often as the required size says, and once more, makes room for it. -/
theorem extendedCapacity_enough (requiredSize : Nat) {capacity : Nat} (positive : 0 < capacity) :
    reachesLoadFactor requiredSize (extendedCapacity requiredSize (requiredSize + 1) capacity)
      = false := by
  have power : requiredSize < 2 ^ requiredSize := Nat.lt_two_pow_self
  have least := Nat.mul_le_mul_right (2 ^ (requiredSize + 1)) positive
  refine extendedCapacity_roomy requiredSize (requiredSize + 1) capacity ?_
  rw [Nat.pow_succ] at least ⊢
  omega

/-- The slots of some members are copied to the front of another array. -/
theorem copySlots_spec {set newMemberSet : Nat} (front : List Held) {empty : List (Option Nat)}
    (holds : memory.Holds ((newMemberSet, .pointers (places front ++ empty)) ::
      (set, .pointers (places (front ++ held) ++ spare)) :: others))
    (room : held.length ≤ empty.length) :
    (copySlots set newMemberSet (List.range' front.length held.length)).Ensures refuses memory
      mayFail fun _ after =>
        after.Holds
          ((newMemberSet, .pointers (places (front ++ held) ++ empty.drop held.length)) ::
            (set, .pointers (places (front ++ held) ++ spare)) :: others) := by
  induction held generalizing front empty memory with
  | nil =>
    refine ensures_pure ?_
    rw [List.append_nil] at holds ⊢
    exact holds
  | cons one rest ih =>
    obtain _ | ⟨slot, empty⟩ := empty
    · cases room
    rw [List.length_cons, List.range'_succ, copySlots]
    have here : (places (front ++ one :: rest) ++ spare)[front.length]? = some (some one.place) := by
      simp [places]
    refine (loadSlot_spec holds (List.mem_cons_of_mem _ List.mem_cons_self) here).bind ?_
    rintro _ _ ⟨rfl, rfl⟩
    refine (storeSlot_spec holds (by simp [places]) (some one.place)).bind fun _ after stored => ?_
    -- The slot that was written is the last one of those in front from here on.
    have moved : (places front ++ slot :: empty).set front.length (some one.place) =
        places (front ++ [one]) ++ empty := by
      simp [places]
    have joined : front ++ one :: rest = (front ++ [one]) ++ rest := by simp
    rw [moved, joined] at stored
    have further := ih (front ++ [one]) stored (Nat.le_of_succ_le_succ room)
    rw [List.length_append, List.length_singleton] at further
    rw [joined]
    exact further

/-- A set that is extended has room for what is required, or there was no memory for its array. -/
theorem clusterMemberSetExtend_stored {requiredSize : Nat}
    (lies : Lies memory members held spare others)
    (roomy : reachesLoadFactor members.size members.capacity = false)
    (grows : members.size ≤ requiredSize) :
    (clusterMemberSetExtend members requiredSize).Ensures refuses memory mayFail
      fun extended after =>
        match extended with
        | none => (∃ number content, refuses number content = true) ∧
            Lies after members held spare others
        | some larger => larger.size = members.size ∧
            reachesLoadFactor requiredSize larger.capacity = false ∧
              ∃ spare, Lies after larger held spare others := by
  have room := reachesLoadFactor_false.mp roomy
  have positive : 0 < members.capacity := by omega
  have larger := extendedCapacity_enough requiredSize positive
  have below := reachesLoadFactor_false.mp larger
  have size := lies.size
  refine (ensures_malloc lies.holds _).bind ?_
  rintro (_ | newMemberSet) after answer
  · obtain ⟨⟨number, refused⟩, kept⟩ := answer
    exact ensures_pure ⟨⟨number, _, refused⟩, kept, lies.size, lies.capacity⟩
  · have copied : (copySlots members.set newMemberSet
        (List.range' [].length held.length)).Ensures refuses after mayFail _ :=
      copySlots_spec [] answer (by rw [List.length_replicate]; omega)
    rw [← lies.size, List.length_nil, ← List.range_eq_range', List.nil_append] at copied
    refine copied.bind fun _ after copied => ?_
    -- The old array is the second block now, and goes.
    refine (ensures_free (copied.perm (List.Perm.swap _ _ _))).bind fun _ after freed =>
      ensures_pure ⟨rfl, larger, _, freed, lies.size, ?_⟩
    show _ = extendedCapacity requiredSize (requiredSize + 1) members.capacity
    rw [List.length_drop, List.length_replicate]
    omega

/-! ### Adding -/

/-- Add a member to a list behind the others, unless it is one of them. -/
def enlist (known : List ClusterMember) (current : ClusterMember) : List ClusterMember :=
  if current ∈ known then known else known ++ [current]

/-- Every member has its address. -/
def Full (held : List Held) : Prop := ∀ one ∈ held, one.address ≠ none

/-- There is always memory for an address. -/
def Lends (refuses : Nat → MemberBlock → Bool) : Prop :=
  ∀ number bytes, refuses number (.address bytes) = false

/-- Some request for memory is refused. -/
def Refuses (refuses : Nat → MemberBlock → Bool) : Prop :=
  ∃ number content, refuses number content = true

/-- A put took in the first of the new members, and all of them unless it ran out of memory. -/
structure Taken (refuses : Nat → MemberBlock → Bool) (before newMembers after : List ClusterMember)
    (answer : Int) : Prop where
  some_ : ∃ taken, taken <+: newMembers ∧ after = taken.foldl enlist before ∧
    (answer = errNone → taken = newMembers)
  answer : answer = errNone ∨ answer = PittacusError.allocationFailed.code ∧ Refuses refuses

/-- One member more was taken in, or passed over as known. -/
theorem Taken.cons {before rest after : List ClusterMember} {current : ClusterMember} {answer : Int}
    (taken : Taken refuses (enlist before current) rest after answer) :
    Taken refuses before (current :: rest) after answer where
  some_ := by
    obtain ⟨some_, first, same, all⟩ := taken.some_
    refine ⟨current :: some_, List.cons_prefix_cons.mpr ⟨rfl, first⟩, same, fun answered => ?_⟩
    rw [all answered]
  answer := taken.answer

/-- The slot behind the members points to the new one from then on. -/
theorem places_set (held : List Held) (slot : Option Nat) (one : Held) :
    (places held ++ slot :: spare).set held.length (some one.place) =
      places (held ++ [one]) ++ spare := by
  simp [places]

/-- A new member is linked in the slot behind the others. -/
theorem Lies.link {one : Held} {slot : Option Nat}
    (holds : memory.Holds (one.blocks ++ (members.set, .pointers (places held ++ slot :: spare)) ::
      (held.flatMap Held.blocks ++ others)))
    (size : members.size = held.length)
    (capacity : held.length + (slot :: spare).length = members.capacity) :
    (storeSlot members.set members.size (some one.place)).Ensures refuses memory mayFail
      fun _ after =>
        Lies after { members with size := members.size + 1 } (held ++ [one]) spare others := by
  have array := holds.perm List.perm_middle
  refine (storeSlot_spec array (by rw [size]; simp [places]) (some one.place)).imp id ?_
  rintro _ after stored
  rw [size, places_set] at stored
  refine ⟨stored.perm (List.Perm.cons _ ?_), ?_, ?_⟩
  · rw [List.flatMap_append, List.flatMap_singleton, List.append_assoc]
    exact List.perm_append_comm_assoc _ _ _
  · rw [List.length_append, List.length_singleton, size]
  · show _ = members.capacity
    rw [List.length_cons] at capacity
    rw [List.length_append, List.length_singleton]
    omega

/-- Members are added one after the other, each with blocks of its own. -/
theorem clusterMemberSetAdd_spec {newMembers : List ClusterMember}
    (lies : Lies memory members held spare others) (room : newMembers.length ≤ spare.length) :
    (clusterMemberSetAdd members newMembers).Ensures refuses memory
      (¬(Lends refuses ∧ Full held)) fun result after => ∃ heldAfter spareAfter,
        Lies after result.2 heldAfter spareAfter others ∧
        result.2.capacity = members.capacity ∧
        spare.length ≤ spareAfter.length + newMembers.length ∧
        (Lends refuses → Full held → Full heldAfter) ∧
        Taken refuses (held.map Held.member) newMembers (heldAfter.map Held.member) result.1 := by
  induction newMembers generalizing memory members held spare with
  | nil =>
    exact ensures_pure ⟨held, spare, lies, rfl, Nat.le_refl _, fun _ full => full,
      ⟨[], List.prefix_rfl, rfl, fun _ => rfl⟩, .inl rfl⟩
  | cons current rest ih =>
    obtain _ | ⟨slot, spare⟩ := spare
    · cases room
    have fewer : rest.length ≤ spare.length := Nat.le_of_succ_le_succ room
    rw [clusterMemberSetAdd]
    refine (lies.firstSlot (fun one => decide (one.member = current)) fun one member =>
      (clusterMemberEquals_spec lies.holds (blocks_subset member _ _) current).imp
        (fun missing trusted => trusted.2 one member missing) fun _ _ same => same).bind ?_
    rintro _ _ ⟨rfl, rfl⟩
    cases found : held.findIdx? fun one => decide (one.member = current) with
    | some slot_ =>
      -- A member that is known already changes nothing.
      obtain ⟨inside, same, -⟩ := List.findIdx?_eq_some_iff_getElem.mp found
      have known : enlist (held.map Held.member) current = held.map Held.member := by
        refine if_pos (List.mem_map.mpr ⟨held[slot_], List.getElem_mem inside, ?_⟩)
        exact of_decide_eq_true same
      refine (ih lies (by rw [List.length_cons]; omega)).imp id ?_
      rintro result after ⟨heldAfter, spareAfter, lies_, capacity, left, full, taken⟩
      rw [List.length_cons] at left
      refine ⟨heldAfter, spareAfter, lies_, capacity, ?_, full, Taken.cons (known.symm ▸ taken)⟩
      simp only [List.length_cons]
      omega
    | none =>
      have unknown : enlist (held.map Held.member) current = held.map Held.member ++ [current] := by
        refine if_neg fun listed => ?_
        obtain ⟨one, member, same⟩ := List.mem_map.mp listed
        have different := List.findIdx?_eq_none_iff.mp found one member
        exact of_decide_eq_false different same
      refine (ensures_malloc lies.holds .unset).bind ?_
      rintro (_ | newMember) granted answer
      · -- There is no memory for the member itself.
        obtain ⟨⟨number, refused⟩, kept⟩ := answer
        refine ensures_pure ⟨held, slot :: spare, ⟨kept, lies.size, lies.capacity⟩, rfl, ?_,
          fun _ full => full, ⟨[], List.nil_prefix, rfl, fun none => ?_⟩,
          .inr ⟨rfl, number, _, refused⟩⟩
        · omega
        · cases none
      · refine (clusterMemberCopy_spec answer current).bind ?_
        rintro copied after ⟨address, kept, lent⟩
        have fuller : Lends refuses → Full held → Full (held ++ [⟨newMember, address, current⟩]) := by
          intro lends full one member
          rcases List.mem_append.mp member with old | new
          · exact full one old
          · rw [List.mem_singleton.mp new]
            intro missing
            obtain ⟨number, refused⟩ := lent missing
            exact absurd ((lends number _).symm.trans refused) (by decide)
        refine (Lies.link kept lies.size lies.capacity).bind fun _ linked lies_ => ?_
        refine (ih lies_ fewer).imp ?_ ?_
        · rintro untrusted ⟨lends, full⟩
          exact untrusted ⟨lends, fuller lends full⟩
        · rintro result final ⟨heldAfter, spareAfter, lies_, capacity, left, full, taken⟩
          rw [List.map_append, List.map_singleton, ← unknown] at taken
          refine ⟨heldAfter, spareAfter, lies_, capacity, ?_,
            fun lends whole => full lends (fuller lends whole), Taken.cons taken⟩
          simp only [List.length_cons]
          omega

/-- A put leaves a set that owns its blocks, the ones of the new members among them. -/
theorem Owns.put (owns : Owns memory members held others) (newMembers : List ClusterMember) :
    (clusterMemberSetPut members newMembers).Ensures refuses memory (¬(Lends refuses ∧ Full held))
      fun result after => ∃ heldAfter, Owns after result.2 heldAfter others ∧
        (Lends refuses → Full held → Full heldAfter) ∧
        Taken refuses (held.map Held.member) newMembers (heldAfter.map Held.member) result.1 := by
  obtain ⟨roomy, spare, lies⟩ := owns
  -- What there is room for may be added.
  have added : ∀ {larger : MemberSet} {spare : List (Option Nat)} {memory : Blocks MemberBlock},
      Lies memory larger held spare others →
      reachesLoadFactor (members.size + newMembers.length) larger.capacity = false →
      (clusterMemberSetAdd larger newMembers).Ensures refuses memory (¬(Lends refuses ∧ Full held))
        fun result after => ∃ heldAfter, Owns after result.2 heldAfter others ∧
          (Lends refuses → Full held → Full heldAfter) ∧
          Taken refuses (held.map Held.member) newMembers (heldAfter.map Held.member) result.1 := by
    intro larger spare memory lies_ below
    have room := reachesLoadFactor_false.mp below
    have size := lies.size
    have whole := lies_.capacity
    refine (clusterMemberSetAdd_spec lies_ (by omega)).imp id ?_
    rintro result after ⟨heldAfter, spareAfter, lies_, capacity, left, full, taken⟩
    refine ⟨heldAfter, ⟨reachesLoadFactor_false.mpr ?_, spareAfter, lies_⟩, full, taken⟩
    have more := lies_.size
    have all := lies_.capacity
    omega
  unfold clusterMemberSetPut
  dsimp only
  by_cases reached : reachesLoadFactor (members.size + newMembers.length) members.capacity = true
  · rw [if_pos reached]
    refine (clusterMemberSetExtend_stored lies roomy (Nat.le_add_right _ _)).bind ?_
    rintro (_ | larger) after answer
    · -- There is no memory for a larger array.
      obtain ⟨refused, lies_⟩ := answer
      exact ensures_pure ⟨held, ⟨roomy, spare, lies_⟩, fun _ full => full,
        ⟨[], List.nil_prefix, rfl, fun none => by cases none⟩, .inr ⟨rfl, refused⟩⟩
    · obtain ⟨-, below, spare, lies_⟩ := answer
      exact added lies_ below
  · rw [if_neg reached]
    exact added lies (Bool.not_eq_true _ ▸ reached)

/-! ### Removing -/

/-- The pointers behind a gap move one slot down, and some pointer is left behind them. -/
theorem shiftSlots_spec {set : Nat} {front moved rest : List (Option Nat)} {gap : Option Nat}
    (holds : memory.Holds ((set, .pointers (front ++ gap :: (moved ++ rest))) :: others)) :
    (shiftSlots set (List.range' front.length moved.length)).Ensures refuses memory mayFail
      fun _ after => ∃ stale,
        after.Holds ((set, .pointers (front ++ moved ++ stale :: rest)) :: others) := by
  induction moved generalizing front gap memory with
  | nil => exact ensures_pure ⟨gap, by simpa using holds⟩
  | cons next moved ih =>
    rw [List.length_cons, List.range'_succ, shiftSlots]
    have behind : (front ++ gap :: (next :: moved ++ rest))[front.length + 1]? = some next := by
      simp
    refine (loadSlot_spec holds List.mem_cons_self behind).bind ?_
    rintro pointer _ ⟨pointed, rfl⟩
    rw [pointed]
    refine (storeSlot_spec holds (by simp) next).bind fun _ after stored => ?_
    -- The slot the pointer came from is the gap now.
    have down : (front ++ gap :: (next :: moved ++ rest)).set front.length next =
        (front ++ [next]) ++ next :: (moved ++ rest) := by simp
    rw [down] at stored
    have further := ih stored
    rw [List.length_append, List.length_singleton] at further
    refine further.imp id ?_
    rintro _ final ⟨stale, kept⟩
    exact ⟨stale, by simpa using kept⟩

/-- A member in a slot is released, and the set owns the blocks of the others. -/
theorem Owns.removeSlot {slot : Nat} (owns : Owns memory members held others)
    (inside : slot < held.length) :
    (Stored.removeSlot members slot).Ensures refuses memory mayFail fun left after =>
      Owns after left (held.eraseIdx slot) others := by
  obtain ⟨roomy, spare, lies⟩ := owns
  have holds := lies.holds
  have size := lies.size
  have whole := lies.capacity
  -- The members in front of the one in the slot, and those behind it.
  obtain ⟨front, one, back, rfl, length⟩ : ∃ front one back, held = front ++ one :: back ∧
      front.length = slot :=
    ⟨held.take slot, held[slot], held.drop (slot + 1), by simp, by simp; omega⟩
  subst length
  simp only [List.length_append, List.length_cons] at size whole
  have here : (places (front ++ one :: back) ++ spare)[front.length]? = some (some one.place) := by
    simp [places]
  refine (loadSlot_spec holds List.mem_cons_self here).bind ?_
  rintro _ _ ⟨rfl, rfl⟩
  have apart := holds.perm (blocks_apart front one back _ others)
  refine (clusterMemberSetItemDestroy_spec apart).bind fun _ after kept => ?_
  have slots : places (front ++ one :: back) ++ spare =
      places front ++ some one.place :: (places back ++ spare) := by simp [places]
  rw [slots] at kept
  have shifted : (shiftSlots members.set (List.range' (places front).length
      (places back).length)).Ensures refuses after mayFail _ := shiftSlots_spec kept
  have moved : members.size - 1 - front.length = back.length := by omega
  rw [places, places, List.length_map, List.length_map] at shifted
  unfold clusterMemberSetShift
  rw [moved]
  refine shifted.bind ?_
  rintro _ final ⟨stale, kept⟩
  have rest : (front ++ one :: back).eraseIdx front.length = front ++ back := by
    rw [List.eraseIdx_append_of_length_le (Nat.le_refl _), Nat.sub_self]
    rfl
  have room := reachesLoadFactor_false.mp roomy
  rw [rest]
  refine ensures_pure ⟨reachesLoadFactor_false.mpr ?_, stale :: spare, ?_, ?_, ?_⟩
  · show 4 * (members.size - 1) < 3 * members.capacity
    omega
  · simpa [places] using kept
  · show members.size - 1 = _
    rw [List.length_append]
    omega
  · show _ = members.capacity
    simp only [List.length_append, List.length_cons]
    omega

/-- The first member that passes a test is removed, if one does. -/
theorem Owns.removeFirst {passes : Option Nat → Storage MemberBlock Bool} (test : Held → Bool)
    (owns : Owns memory members held others)
    (tested : ∀ one ∈ held, (passes (some one.place)).Ensures refuses memory mayFail
      fun answer after => answer = test one ∧ after = memory) :
    (Stored.removeFirst members passes).Ensures refuses memory mayFail fun result after =>
      result.1 = (held.findIdx? test).isSome ∧
        Owns after result.2 ((held.findIdx? test).elim held held.eraseIdx) others := by
  obtain ⟨spare, lies⟩ := owns.2
  refine (lies.firstSlot test tested).bind ?_
  rintro _ _ ⟨rfl, rfl⟩
  cases found : held.findIdx? test with
  | none => exact ensures_pure ⟨rfl, owns⟩
  | some slot =>
    obtain ⟨inside, -⟩ := List.findIdx?_eq_some_iff_getElem.mp found
    exact (owns.removeSlot inside).bind fun left after owned => ensures_pure ⟨rfl, owned⟩

/-! ### Releasing -/

/-- The members in the slots of an array are released. -/
theorem destroySlots_spec {set : Nat} (front : List Held)
    (holds : memory.Holds ((set, .pointers (places (front ++ held) ++ spare)) ::
      (held.flatMap Held.blocks ++ others))) :
    (destroySlots set (List.range' front.length held.length)).Ensures refuses memory mayFail
      fun _ after => after.Holds ((set, .pointers (places (front ++ held) ++ spare)) :: others) := by
  induction held generalizing front memory with
  | nil => exact ensures_pure holds
  | cons one rest ih =>
    rw [List.length_cons, List.range'_succ, destroySlots]
    have here : (places (front ++ one :: rest) ++ spare)[front.length]? = some (some one.place) := by
      simp [places]
    refine (loadSlot_spec holds List.mem_cons_self here).bind ?_
    rintro _ _ ⟨rfl, rfl⟩
    have apart := holds.perm (blocks_apart [] one rest _ others)
    refine (clusterMemberSetItemDestroy_spec apart).bind fun _ after kept => ?_
    -- The array is left as it is, with pointers to what was released.
    have joined : front ++ one :: rest = (front ++ [one]) ++ rest := by simp
    rw [joined] at kept ⊢
    have further := ih (front ++ [one]) kept
    rw [List.length_append, List.length_singleton] at further
    exact further

/-- A set that is destroyed leaves nothing behind. -/
theorem Owns.destroy (owns : Owns memory members held others) :
    (clusterMemberSetDestroy members).Ensures refuses memory mayFail fun _ after =>
      after.Holds others := by
  obtain ⟨-, spare, lies⟩ := owns
  have released : (destroySlots members.set (List.range' [].length held.length)).Ensures refuses
      memory mayFail _ := destroySlots_spec [] lies.holds
  rw [← lies.size, List.length_nil, ← List.range_eq_range'] at released
  exact released.bind fun _ after kept => ensures_free kept

/-- A new set owns its array, or there was no memory for it. -/
theorem clusterMemberSetInit_spec (holds : memory.Holds others) :
    clusterMemberSetInit.Ensures refuses memory mayFail fun made after =>
      match made with
      | none => Refuses refuses ∧ after.Holds others
      | some members => Owns after members [] others := by
  refine (ensures_malloc holds _).bind ?_
  rintro (_ | set) after answer
  · obtain ⟨⟨number, refused⟩, kept⟩ := answer
    exact ensures_pure ⟨⟨number, _, refused⟩, kept⟩
  · exact ensures_pure ⟨rfl, List.replicate membersInitialCapacity none, answer, rfl, rfl⟩

end Pittacus.Stored
