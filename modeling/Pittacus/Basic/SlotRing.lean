import Mathlib.Data.Finset.Card
import Mathlib.Data.List.Nodup

/-! Fixed arrays used as keyed maps, overwriting the oldest insertion once they are full. -/

/-- An array with the number of slots in use and the slot the next insertion takes. -/
structure SlotRing (ρ : Type) where
  size : Nat
  next : Nat
  slots : List ρ

namespace SlotRing

variable {ρ κ : Type} [DecidableEq κ]

/-- The records in use, in slot order. -/
def live (ring : SlotRing ρ) : List ρ := ring.slots.take ring.size

/-- The record in use under a key. -/
def find (key : ρ → κ) (wanted : κ) (ring : SlotRing ρ) : Option ρ :=
  ring.live.find? fun record => key record = wanted

/-- The slot in use under a key. -/
def findIdx (key : ρ → κ) (wanted : κ) (ring : SlotRing ρ) : Option Nat :=
  ring.live.findIdx? fun record => key record = wanted

/-- Write the slot of a key in place, or take the next slot for it when it has none. -/
def put (capacity : Nat) (key : ρ → κ) (wanted : κ) (write : ρ → ρ) (ring : SlotRing ρ) : SlotRing ρ :=
  match ring.findIdx key wanted with
  | some present => { ring with slots := ring.slots.modify present write }
  | none =>
    { size := if ring.size < capacity then ring.size + 1 else ring.size
      next := if ring.next + 1 ≥ capacity then 0 else ring.next + 1
      slots := ring.slots.modify ring.next write }

/-- The key a write pushes out: that of the next slot, when the ring is full and lacks the key. -/
def evicted (capacity : Nat) (key : ρ → κ) (wanted : κ) (ring : SlotRing ρ) : Option κ :=
  if ring.findIdx key wanted = none ∧ capacity ≤ ring.size then
    ring.slots[ring.next]?.map key
  else none

/-- The bookkeeping every sequence of writes maintains. -/
structure Ok (capacity : Nat) (key : ρ → κ) (ring : SlotRing ρ) : Prop where
  /-- The array never changes its length. -/
  length : ring.slots.length = capacity
  /-- No more slots are in use than there are. -/
  size_le : ring.size ≤ capacity
  /-- The next insertion has a slot to take. -/
  next_lt : ring.next < capacity
  /-- Until the ring is full, slots are taken in order. -/
  filling : ring.size < capacity → ring.next = ring.size
  /-- No key is in use twice. -/
  distinct : (ring.live.map key).Nodup

/-! ### Searching -/

section Search

variable {capacity : Nat} {key : ρ → κ} {wanted : κ} {ring : SlotRing ρ}

/-- A record in use answers for its key. -/
theorem find_some {record : ρ} (found : ring.find key wanted = some record) :
    record ∈ ring.live ∧ key record = wanted :=
  ⟨List.mem_of_find?_eq_some found, by simpa using List.find?_some found⟩

/-- A key nobody answers for is not in use. -/
theorem find_none : ring.find key wanted = none ↔ ∀ record ∈ ring.live, key record ≠ wanted := by
  simp [find]

/-- A slot is found exactly when a record is. -/
theorem findIdx_none : ring.findIdx key wanted = none ↔ ring.find key wanted = none := by
  simp [find, findIdx]

/-- The slot found for a key holds the record found for it. -/
theorem findIdx_some {present : Nat} (found : ring.findIdx key wanted = some present) :
    ∃ inside : present < ring.live.length, key ring.live[present] = wanted ∧
      ring.find key wanted = some ring.live[present] := by
  obtain ⟨inside, here, before⟩ := List.findIdx?_eq_some_iff_getElem.mp found
  refine ⟨inside, by simpa using here, ?_⟩
  -- No earlier slot carries the key, so the search stops at this one.
  rw [find, List.find?_eq_some_iff_getElem]
  exact ⟨here, present, inside, rfl, fun earlier below => by simpa using before earlier below⟩

/-- With distinct keys, a record in use is the one found under its key. -/
theorem find_of_mem (distinct : (ring.live.map key).Nodup) {record : ρ}
    (member : record ∈ ring.live) : ring.find key (key record) = some record := by
  -- The search finds some record with this key, and only one record has it.
  cases found : ring.find key (key record) with
  | none => exact absurd rfl (find_none.mp found record member)
  | some other =>
    obtain ⟨present, same⟩ := find_some found
    rw [List.inj_on_of_nodup_map distinct present member same]

/-- With distinct keys, the slot found under the key of a slot in use is that slot. -/
theorem findIdx_of_getElem (distinct : (ring.live.map key).Nodup) {place : Nat}
    (inside : place < ring.live.length) :
    ring.findIdx key (key ring.live[place]) = some place := by
  refine List.findIdx?_eq_some_iff_getElem.mpr ⟨inside, by simp, fun earlier before => ?_⟩
  -- An earlier slot with this key would hold the same record.
  have left : earlier < (ring.live.map key).length := by
    rw [List.length_map]
    omega
  have right : place < (ring.live.map key).length := by
    rw [List.length_map]
    exact inside
  have apart : (ring.live.map key)[earlier] ≠ (ring.live.map key)[place] :=
    fun same => absurd ((List.Nodup.getElem_inj_iff distinct).mp same) (Nat.ne_of_lt before)
  simpa using apart

theorem Ok.find_of_mem (ok : ring.Ok capacity key) {record : ρ} (member : record ∈ ring.live) :
    ring.find key (key record) = some record :=
  SlotRing.find_of_mem ok.distinct member

end Search

/-! ### Writing -/

/-- Changing the element behind a front leaves the front and what follows as they were. -/
theorem modify_behind {α : Type} (front back : List α) (element : α) (change : α → α) :
    (front ++ element :: back).modify front.length change = front ++ change element :: back := by
  induction front with
  | nil => rfl
  | cons first rest ih => exact congrArg (List.cons first) ih

/-- Writing one element of a list with distinct keys changes what is found under its keys only. -/
theorem find?_modify {key : ρ → κ} {wanted : κ} {write : ρ → ρ} (other : κ) :
    ∀ (records : List ρ) (place : Nat) (inside : place < records.length),
      key (write records[place]) = wanted →
      (∀ elsewhere (bound : elsewhere < records.length),
        elsewhere ≠ place → key records[elsewhere] ≠ wanted) →
      (records.map key).Nodup →
      (records.modify place write).find? (fun record => key record = other) =
        if other = wanted then some (write records[place])
        else if key records[place] = other then none
        else records.find? (fun record => key record = other) := by
  -- The place is reached one element at a time, and the keys before it are not the wanted one.
  intro records
  induction records with
  | nil => intro place inside; simp at inside
  | cons first rest ih =>
    intro place inside written apart distinct
    obtain ⟨fresh, distinct⟩ := List.nodup_cons.mp distinct
    cases place with
    | zero =>
      simp only [List.getElem_cons_zero] at written
      have unused : key first = other → rest.find? (fun record => key record = other) = none := by
        rintro rfl
        simpa [List.find?_eq_none] using fun record member same =>
          fresh (List.mem_map.mpr ⟨record, member, same⟩)
      by_cases same : other = wanted
      · simp [List.modify, written, same]
      · by_cases head : key first = other
        · simp [List.modify, written, Ne.symm same, same, head, unused head]
        · simp [List.modify, written, Ne.symm same, same, head]
    | succ place =>
      have within : place < rest.length := by simpa using inside
      have notFirst : key first ≠ wanted := apart 0 (by simp) (by omega)
      have further := ih place within (by simpa using written)
        (fun elsewhere bound differs =>
          apart (elsewhere + 1) (Nat.succ_lt_succ bound) (by omega)) distinct
      have keyElsewhere : key rest[place] ≠ key first := fun same =>
        fresh (List.mem_map.mpr ⟨rest[place], List.getElem_mem within, same⟩)
      by_cases head : key first = other
      · subst other
        simp [notFirst, keyElsewhere]
      · simp [head, further]

variable {capacity : Nat} {key : ρ → κ} {wanted : κ} {write : ρ → ρ} {ring : SlotRing ρ}

/-- The slot a write lands in. -/
def target (key : ρ → κ) (wanted : κ) (ring : SlotRing ρ) : Nat :=
  (ring.findIdx key wanted).getD ring.next

/-- A write always lands inside the array. -/
theorem Ok.target_lt (ok : ring.Ok capacity key) (wanted : κ) :
    ring.target key wanted < ring.slots.length := by
  rw [ok.length, target]
  cases found : ring.findIdx key wanted with
  | none => simpa using ok.next_lt
  | some present =>
    -- A slot in use lies before the end of the slots in use.
    obtain ⟨inside, _⟩ := findIdx_some found
    have := ok.size_le
    simp only [live, List.length_take, ok.length] at inside
    simp only [Option.getD_some]
    omega

/-- The records in use after a write into a present key. -/
theorem live_put_present {present : Nat} (found : ring.findIdx key wanted = some present) :
    (ring.put capacity key wanted write).live = ring.live.modify present write := by
  simp [put, found, live, List.take_modify]

/-- The records in use after an insertion that overwrites the next slot. -/
theorem Ok.live_put_full (ok : ring.Ok capacity key) (absent : ring.findIdx key wanted = none)
    (full : ring.size = capacity) :
    (ring.put capacity key wanted write).live = ring.live.modify ring.next write := by
  have := ok.next_lt
  simp [put, absent, live, List.take_modify, full]

/-- The records in use after an insertion into a ring with room. -/
theorem Ok.live_put_filling (ok : ring.Ok capacity key)
    (absent : ring.findIdx key wanted = none) (room : ring.size < capacity) (write : ρ → ρ) :
    ∃ inside : ring.next < ring.slots.length,
      (ring.put capacity key wanted write).live = ring.live ++ [write ring.slots[ring.next]] := by
  have inside : ring.next < ring.slots.length := by rw [ok.length]; exact ok.next_lt
  refine ⟨inside, ?_⟩
  -- The slot taken is the first one that was not in use.
  have place := ok.filling room
  simp only [put, absent, live, if_pos room]
  rw [← place, List.take_succ_eq_append_getElem (by simpa using inside)]
  have before : (ring.slots.take ring.next).modify ring.next write = ring.slots.take ring.next :=
    List.modify_eq_self (by simp)
  simp [List.take_modify, before]

/-- What is found after a write: the written record, nothing for a key pushed out, or as before. -/
theorem Ok.find_put (ok : ring.Ok capacity key) (written : ∀ record, key (write record) = wanted)
    (other : κ) :
    (ring.put capacity key wanted write).find key other =
      if other = wanted then
        some (write (ring.slots.get ⟨ring.target key wanted, ok.target_lt wanted⟩))
      else if ring.evicted capacity key wanted = some other then none
      else ring.find key other := by
  cases found : ring.findIdx key wanted with
  | some present =>
    -- The key keeps its slot, and the written record still carries it.
    obtain ⟨inside, here, first⟩ := findIdx_some found
    have apart : ∀ elsewhere (bound : elsewhere < ring.live.length), elsewhere ≠ present →
        key ring.live[elsewhere] ≠ wanted := by
      intro elsewhere bound differs same
      have left : elsewhere < (ring.live.map key).length := by simpa using bound
      have right : present < (ring.live.map key).length := by simpa using inside
      have equal : (ring.live.map key)[elsewhere] = (ring.live.map key)[present] := by
        rw [List.getElem_map, List.getElem_map, same, here]
      exact differs ((List.Nodup.getElem_inj_iff ok.distinct).mp equal)
    have slot : ring.live[present] = ring.slots.get ⟨ring.target key wanted, ok.target_lt wanted⟩ := by
      simp [live, target, found]
    rw [find, live_put_present found,
      find?_modify other ring.live present inside (written _) apart ok.distinct, slot]
    have kept : ring.evicted capacity key wanted = none := by simp [evicted, found]
    simp only [kept, find, reduceCtorEq, if_false]
    by_cases same : other = wanted
    · simp [same]
    · have other' : ¬ key (ring.slots.get ⟨ring.target key wanted, ok.target_lt wanted⟩) = other := by
        rw [← slot, here]
        exact Ne.symm same
      rw [if_neg same, if_neg other', if_neg same]
  | none =>
    have absent : ∀ record ∈ ring.live, key record ≠ wanted :=
      find_none.mp (findIdx_none.mp found)
    by_cases room : ring.size < capacity
    · -- Nothing is pushed out while the ring is filling.
      obtain ⟨inside, appended⟩ := ok.live_put_filling found room write
      have kept : ring.evicted capacity key wanted = none := by
        simp [evicted, found, Nat.not_le.mpr room]
      have slot : ring.target key wanted = ring.next := by simp [target, found]
      rw [find, appended, List.find?_append]
      simp only [kept, slot, find, reduceCtorEq, if_false, List.find?_cons, List.find?_nil, written]
      by_cases same : other = wanted
      · subst other
        have none : ring.live.find? (fun record => key record = wanted) = none := by
          simpa [List.find?_eq_none] using absent
        simp [none]
      · simp [same, Ne.symm same]
    · -- The next slot is in use, and its record gives way.
      have full : ring.size = capacity := Nat.le_antisymm ok.size_le (Nat.not_lt.mp room)
      have inside : ring.next < ring.live.length := by
        simp only [live, List.length_take, ok.length, full, Nat.min_self]; exact ok.next_lt
      have slot : ring.live[ring.next] =
          ring.slots.get ⟨ring.target key wanted, ok.target_lt wanted⟩ := by
        simp [live, target, found]
      have gone : ring.evicted capacity key wanted = some (key ring.live[ring.next]) := by
        have bound : ring.next < ring.slots.length := by rw [ok.length]; exact ok.next_lt
        simp [evicted, found, full, live, List.getElem?_eq_getElem bound]
      rw [find, ok.live_put_full found full,
        find?_modify other ring.live ring.next inside (written _)
          (fun elsewhere bound _ => absent _ (List.getElem_mem bound)) ok.distinct, slot, gone, slot]
      simp only [find, Option.some.injEq]

omit [DecidableEq κ] in
/-- A write keeps the keys of an in-place slot, and replaces a key by one not yet in use. -/
theorem map_modify_key (written : ∀ record, key (write record) = wanted) (records : List ρ)
    (place : Nat) :
    (records.modify place write).map key = (records.map key).set place wanted := by
  induction records generalizing place with
  | nil => simp
  | cons first rest ih => cases place <;> simp [written, ih]

/-- Every write leaves the bookkeeping in order. -/
theorem Ok.put (ok : ring.Ok capacity key) (written : ∀ record, key (write record) = wanted) :
    (ring.put capacity key wanted write).Ok capacity key := by
  have := ok.size_le
  have := ok.next_lt
  cases found : ring.findIdx key wanted with
  | some present =>
    -- Rewriting in place leaves every key where it was.
    obtain ⟨inside, here, _⟩ := findIdx_some found
    have keys : ((ring.put capacity key wanted write).live.map key) = ring.live.map key := by
      have bound : present < (ring.live.map key).length := by simpa using inside
      have same : (ring.live.map key)[present] = wanted := by rw [List.getElem_map, here]
      rw [live_put_present found, map_modify_key written, ← same, List.set_getElem_self]
    refine ⟨?_, ?_, ?_, ?_, by rw [keys]; exact ok.distinct⟩
    · simpa [SlotRing.put, found] using ok.length
    · simpa [SlotRing.put, found] using ok.size_le
    · simpa [SlotRing.put, found] using ok.next_lt
    · simpa [SlotRing.put, found] using ok.filling
  | none =>
    have fresh : wanted ∉ ring.live.map key := by
      intro member
      obtain ⟨record, used, same⟩ := List.mem_map.mp member
      exact find_none.mp (findIdx_none.mp found) record used same
    have distinct : ((ring.put capacity key wanted write).live.map key).Nodup := by
      by_cases room : ring.size < capacity
      · obtain ⟨_, appended⟩ := ok.live_put_filling found room write
        rw [appended, List.map_append, List.map_singleton, written]
        exact List.Nodup.append ok.distinct (List.nodup_singleton _)
          (by simpa [List.disjoint_singleton] using fresh)
      · have full : ring.size = capacity := Nat.le_antisymm ok.size_le (Nat.not_lt.mp room)
        rw [ok.live_put_full found full, map_modify_key written]
        exact ok.distinct.set fresh
    refine ⟨?_, ?_, ?_, ?_, distinct⟩
    · simpa [SlotRing.put, found] using ok.length
    · simp only [SlotRing.put, found]; split <;> omega
    · simp only [SlotRing.put, found]; split <;> omega
    · -- The next slot runs ahead of the slots in use until the last one is taken.
      have := ok.filling
      simp only [SlotRing.put, found]
      intro short
      split at short
      · rw [if_neg (by omega), if_pos (by omega)]; omega
      · omega

omit [DecidableEq κ] in
/-- Nothing in use is an empty ring in good order. -/
theorem ok_empty {slots : List ρ} (length : slots.length = capacity) (positive : 0 < capacity) :
    (⟨0, 0, slots⟩ : SlotRing ρ).Ok capacity key :=
  ⟨length, Nat.zero_le _, positive, fun _ => rfl, by simp [live]⟩

/-- The records in use after a write are the written one and some of those in use before. -/
theorem Ok.mem_live_put (ok : ring.Ok capacity key)
    (written : ∀ record, key (write record) = wanted) {record : ρ}
    (member : record ∈ (ring.put capacity key wanted write).live) :
    (key record = wanted ∧
      record = write (ring.slots.get ⟨ring.target key wanted, ok.target_lt wanted⟩)) ∨
    (key record ≠ wanted ∧ record ∈ ring.live) := by
  -- With distinct keys, being in use means being found.
  have found := (ok.put written).find_of_mem member
  rw [ok.find_put written] at found
  split at found
  · rename_i same
    exact .inl ⟨same, by simpa using found.symm⟩
  · rename_i other
    split at found
    · cases found
    · exact .inr ⟨other, (find_some found).1⟩

omit [DecidableEq κ] in
/-- Changing one element leaves the elements there were, and the changed one. -/
theorem mem_of_mem_modify {records : List ρ} {place : Nat} {record : ρ}
    (member : record ∈ records.modify place write) :
    record ∈ records ∨ ∃ old ∈ records, record = write old := by
  obtain ⟨position, inside, rfl⟩ := List.mem_iff_getElem.mp member
  have bound : position < records.length := by simpa using inside
  rw [List.getElem_modify]
  split
  · exact .inr ⟨records[position], List.getElem_mem bound, rfl⟩
  · exact .inl (List.getElem_mem bound)

/-- Every slot holds what it held before a write, or what was written over that. -/
theorem mem_slots_put {record : ρ}
    (stored : record ∈ (ring.put capacity key wanted write).slots) :
    record ∈ ring.slots ∨ ∃ old ∈ ring.slots, record = write old := by
  unfold put at stored
  split at stored
  · exact mem_of_mem_modify stored
  · exact mem_of_mem_modify stored

/-- A ring whose keys all belong to a set no larger than itself has room for a new one of them. -/
theorem Ok.room (ok : ring.Ok capacity key) {keys : Finset κ} (fits : keys.card ≤ capacity)
    (known : ∀ record ∈ ring.live, key record ∈ keys) (member : wanted ∈ keys)
    (absent : ring.find key wanted = none) : ring.size < capacity := by
  -- The keys in use together with the new one are distinct members of the set.
  have fresh : wanted ∉ ring.live.map key := by
    intro used
    obtain ⟨record, present, same⟩ := List.mem_map.mp used
    exact find_none.mp absent record present same
  have distinct : (wanted :: ring.live.map key).Nodup := List.nodup_cons.mpr ⟨fresh, ok.distinct⟩
  have inside : (wanted :: ring.live.map key).toFinset ⊆ keys := by
    intro used
    simp only [List.mem_toFinset, List.mem_cons, List.mem_map]
    rintro (rfl | ⟨record, present, rfl⟩)
    · exact member
    · exact known record present
  have counted := Finset.card_le_card inside
  rw [List.toFinset_card_of_nodup distinct] at counted
  have taken : ring.live.length = ring.size := by
    simp only [live, List.length_take, ok.length]
    exact Nat.min_eq_left ok.size_le
  simp only [List.length_cons, List.length_map, taken] at counted
  omega

/-- A write into a ring with room for its key pushes nothing out. -/
theorem evicted_eq_none (room : ring.find key wanted = none → ring.size < capacity) :
    ring.evicted capacity key wanted = none := by
  unfold evicted
  split
  · rename_i pushed
    have := room (findIdx_none.mp pushed.1)
    omega
  · rfl

end SlotRing
