import Mathlib.Data.List.DropRight
import Mathlib.Data.List.Rotate
import Pittacus.Basic.SlotRing

/-! Bounded maps that push out their oldest entry first, and rings as such maps. -/

namespace Fifo

variable {ρ κ : Type} [DecidableEq κ]

/-- Give an entry to a bounded map: in place of the entry with its key, else behind all others. -/
def put (capacity : Nat) (key : ρ → κ) (entry : ρ) (entries : List ρ) : List ρ :=
  if key entry ∈ entries.map key then
    entries.map fun held => if key held = key entry then entry else held
  else (entries ++ [entry]).rtake capacity

/-- What a bounded map recalls of the keys it took in and of the entries given to it. -/
structure Recalls (capacity : Nat) (key : ρ → κ) (taken : List κ) (given entries : List ρ) :
    Prop where
  /-- The keys in use are those taken in last, in that order. -/
  keys : entries.map key = taken.rtake capacity
  /-- Each entry in use is the last one given under its key. -/
  latest : ∀ entry ∈ entries,
    given.reverse.find? (fun held => key held = key entry) = some entry

/-- Taking from the right twice takes the fewer. -/
theorem rtake_rtake_succ {α : Type} (elements : List α) (count : Nat) :
    (elements.rtake (count + 1)).rtake count = elements.rtake count := by
  simp only [List.rtake_eq_reverse_take_reverse, List.reverse_reverse, List.take_take]
  rw [Nat.min_eq_left (Nat.le_succ count)]

/-- What falls off at the left before an element is appended does not come back afterwards. -/
theorem rtake_concat_rtake {α : Type} (elements : List α) (element : α) (count : Nat) :
    (elements.rtake count ++ [element]).rtake count = (elements ++ [element]).rtake count := by
  cases count with
  | zero => simp
  | succ count =>
    rw [List.rtake_concat_succ, List.rtake_concat_succ, rtake_rtake_succ]

theorem recalls_nil (capacity : Nat) (key : ρ → κ) : Recalls capacity key [] [] [] where
  keys := by simp
  latest := by simp

/-- A bounded map recalls the entry it is given, and counts its key as taken in if it is new. -/
theorem Recalls.put {capacity : Nat} {key : ρ → κ} {taken : List κ} {given entries : List ρ}
    (recalls : Recalls capacity key taken given entries) (entry : ρ) :
    Recalls capacity key
      (if key entry ∈ entries.map key then taken else taken ++ [key entry])
      (given ++ [entry]) (put capacity key entry entries) := by
  have newest : ∀ held : ρ, (held = entry ∨ key held ≠ key entry ∧ held ∈ entries) →
      (given ++ [entry]).reverse.find? (fun other => key other = key held) = some held := by
    intro held given_
    rw [List.reverse_append, List.reverse_singleton, List.singleton_append, List.find?_cons]
    rcases given_ with rfl | ⟨apart, member⟩
    · simp
    · -- The entry given now has another key, so what was given before counts.
      rw [decide_eq_false (Ne.symm apart)]
      exact recalls.latest held member
  by_cases present : key entry ∈ entries.map key
  · rw [if_pos present, Fifo.put, if_pos present]
    refine ⟨?_, fun held member => newest held ?_⟩
    · rw [List.map_map, ← recalls.keys]
      refine List.map_congr_left fun held _ => ?_
      simp only [Function.comp_apply]
      split
      · exact (‹key held = key entry›).symm
      · rfl
    · obtain ⟨old, used, rfl⟩ := List.mem_map.mp member
      split
      · exact .inl rfl
      · exact .inr ⟨‹_›, used⟩
  · rw [if_neg present, Fifo.put, if_neg present]
    refine ⟨?_, fun held member => newest held ?_⟩
    · rw [← rtake_concat_rtake taken, ← recalls.keys, List.rtake, List.rtake, List.map_drop]
      simp
    · -- Appending keeps the entries in use, and the new one is the only one with its key.
      rcases List.mem_append.mp (List.mem_of_mem_drop member) with used | last
      · refine .inr ⟨fun same => present ?_, used⟩
        exact same ▸ List.mem_map_of_mem used
      · exact .inl (List.mem_singleton.mp last)

/-- Seen through a view that shows the keys, a bounded map is given the view of an entry. -/
theorem map_put {ν : Type} {capacity : Nat} {key : ρ → κ} {seen : ν → κ} {view : ρ → ν}
    (shown : ∀ held, seen (view held) = key held) (entry : ρ) (entries : List ρ) :
    (put capacity key entry entries).map view
      = put capacity seen (view entry) (entries.map view) := by
  have keys : (entries.map view).map seen = entries.map key := by
    rw [List.map_map]
    exact List.map_congr_left fun held _ => shown held
  unfold put
  rw [keys, shown]
  split
  · -- Replacing an entry and looking at it is looking and replacing what is seen.
    rw [List.map_map, List.map_map]
    refine List.map_congr_left fun held _ => ?_
    simp only [Function.comp_apply, shown]
    split
    · rfl
    · rfl
  · simp [List.rtake, List.map_drop]

end Fifo

/-! ### Rings -/

namespace SlotRing

variable {ρ κ : Type}

/-- The records in use, oldest insertion first. -/
def aged (ring : SlotRing ρ) : List ρ := ring.live.rotate ring.next

variable [DecidableEq κ] {capacity : Nat} {key : ρ → κ} {wanted : κ} {write : ρ → ρ}
  {ring : SlotRing ρ}

omit [DecidableEq κ] in
theorem Ok.live_length (ok : ring.Ok capacity key) : ring.live.length = ring.size := by
  rw [live, List.length_take, ok.length]
  exact Nat.min_eq_left ok.size_le

/-- With distinct keys, changing the slot of a key is changing whatever has that key. -/
theorem modify_eq_map {place : Nat} {records : List ρ} (inside : place < records.length)
    (distinct : (records.map key).Nodup) (here : key records[place] = wanted) (changed : ρ)
    (same : write records[place] = changed) :
    records.modify place write = records.map fun held => if key held = wanted then changed else held := by
  apply List.ext_getElem?
  intro position
  rw [List.getElem?_modify, List.getElem?_map]
  by_cases bound : position < records.length
  · rw [List.getElem?_eq_getElem bound]
    by_cases at_ : place = position
    · subst position
      simp [here, same]
    · -- Another slot has another key.
      have apart : key records[position] ≠ wanted := by
        intro equal
        have left : place < (records.map key).length := by simpa using inside
        have right : position < (records.map key).length := by simpa using bound
        have keys : (records.map key)[place] = (records.map key)[position] := by
          rw [List.getElem_map, List.getElem_map, here, equal]
        exact at_ ((List.Nodup.getElem_inj_iff distinct).mp keys)
      simp [at_, apart]
  · rw [List.getElem?_eq_none (Nat.le_of_not_lt bound)]
    rfl

omit [DecidableEq κ] in
theorem Ok.aged_length (ok : ring.Ok capacity key) : ring.aged.length = ring.size := by
  rw [aged, List.length_rotate, ok.live_length]

/-- Changing the element at the turn of a list and turning past it moves it to the end. -/
theorem rotate_modify (front back : List ρ) (oldest : ρ) (write : ρ → ρ) :
    ((front ++ oldest :: back).modify front.length write).rotate (front.length + 1) =
      ((front ++ oldest :: back).rotate front.length).drop 1 ++ [write oldest] := by
  have turned : (front ++ oldest :: back).rotate front.length = oldest :: back ++ front :=
    List.rotate_append_length_eq front (oldest :: back)
  have regrouped : front ++ write oldest :: back = (front ++ [write oldest]) ++ back := by
    rw [List.append_assoc, List.singleton_append]
  have past : (front ++ [write oldest]).length = front.length + 1 := by
    rw [List.length_append, List.length_singleton]
  rw [turned, modify_behind, regrouped, ← past, List.rotate_append_length_eq, ← List.append_assoc]
  rfl

/-- An insertion into a ring with room puts the record behind all others. -/
theorem Ok.aged_put_filling (ok : ring.Ok capacity key) (absent : ring.findIdx key wanted = none)
    (room : ring.size < capacity) (write : ρ → ρ) :
    ∃ inside : ring.next < ring.slots.length,
      (ring.put capacity key wanted write).aged = ring.aged ++ [write ring.slots[ring.next]] := by
  -- The slots were taken in order, so the oldest record is in the first one.
  obtain ⟨inside, appended⟩ := ok.live_put_filling absent room write
  have place := ok.filling room
  have front : ring.aged = ring.live := by
    rw [aged, place, ← ok.live_length, List.rotate_length]
  have all_ : (ring.live ++ [write ring.slots[ring.next]]).length = ring.next + 1 := by
    rw [List.length_append, ok.live_length, List.length_singleton, place]
  have after : (ring.put capacity key wanted write).next =
      if ring.next + 1 ≥ capacity then 0 else ring.next + 1 := by simp [SlotRing.put, absent]
  refine ⟨inside, ?_⟩
  rw [front, aged, appended, after]
  split
  · rw [List.rotate_zero]
  · rw [← all_, List.rotate_length]

/-- An insertion into a full ring drops the oldest record and puts the new one behind the others. -/
theorem Ok.aged_put_full (ok : ring.Ok capacity key) (absent : ring.findIdx key wanted = none)
    (full : ring.size = capacity) (write : ρ → ρ) :
    ∃ inside : ring.next < ring.slots.length,
      (ring.put capacity key wanted write).aged =
        ring.aged.drop 1 ++ [write ring.slots[ring.next]] := by
  have next := ok.next_lt
  have length : ring.live.length = capacity := ok.live_length.trans full
  have inside : ring.next < ring.live.length := by omega
  have bound : ring.next < ring.slots.length := by
    rw [ok.length]
    exact next
  have slot : ring.live[ring.next] = ring.slots[ring.next] := List.getElem_take
  have after : (ring.put capacity key wanted write).next =
      if ring.next + 1 ≥ capacity then 0 else ring.next + 1 := by simp [SlotRing.put, absent]
  -- The record in the next slot is the oldest one, and gives way.
  have parts : ring.live =
      ring.live.take ring.next ++ ring.live[ring.next] :: ring.live.drop (ring.next + 1) := by
    rw [← List.drop_eq_getElem_cons inside, List.take_append_drop]
  have front : (ring.live.take ring.next).length = ring.next := List.length_take_of_le (by omega)
  have moved := rotate_modify (ring.live.take ring.next) (ring.live.drop (ring.next + 1))
    ring.live[ring.next] write
  rw [← parts, front] at moved
  have wrapped : (ring.live.modify ring.next write).rotate
      (if ring.next + 1 ≥ capacity then 0 else ring.next + 1) =
        (ring.live.modify ring.next write).rotate (ring.next + 1) := by
    split
    · -- The last slot was written, and the turn starts over.
      have last : ring.next + 1 = (ring.live.modify ring.next write).length := by
        rw [List.length_modify]
        omega
      rw [last, List.rotate_length, List.rotate_zero]
    · rfl
  refine ⟨bound, ?_⟩
  rw [aged, ok.live_put_full absent full, after, wrapped, moved, slot, aged]

/-- A write into a ring gives the written record to the bounded map the ring holds. -/
theorem Ok.aged_put (ok : ring.Ok capacity key) (written : ∀ record, key (write record) = wanted) :
    (ring.put capacity key wanted write).aged =
      Fifo.put capacity key
        (write (ring.slots.get ⟨ring.target key wanted, ok.target_lt wanted⟩)) ring.aged := by
  have few := ok.size_le
  have keys : wanted ∈ ring.aged.map key ↔ ring.findIdx key wanted ≠ none := by
    rw [Ne, findIdx_none, find_none, aged]
    simp [List.mem_map, List.mem_rotate]
  rw [Fifo.put, written]
  cases found : ring.findIdx key wanted with
  | some present =>
    -- The record is rewritten in its slot.
    obtain ⟨inside, here, -⟩ := findIdx_some found
    have slot : ring.live[present] =
        ring.slots.get ⟨ring.target key wanted, ok.target_lt wanted⟩ := by
      simp [live, target, found]
    have same : (ring.put capacity key wanted write).next = ring.next := by simp [SlotRing.put, found]
    rw [if_pos (keys.mpr (found ▸ Option.some_ne_none _)), aged, same, live_put_present found,
      modify_eq_map inside ok.distinct here _ (congrArg write slot), aged, List.map_rotate]
  | none =>
    rw [if_neg (mt keys.mp (not_not.mpr found)), List.rtake, List.length_append, ok.aged_length,
      List.length_singleton]
    by_cases room : ring.size < capacity
    · obtain ⟨inside, appended⟩ := ok.aged_put_filling found room write
      have slot : ring.slots[ring.next] =
          ring.slots.get ⟨ring.target key wanted, ok.target_lt wanted⟩ := by
        simp [target, found]
      rw [appended, slot, Nat.sub_eq_zero_of_le room, List.drop_zero]
    · have full : ring.size = capacity := Nat.le_antisymm few (Nat.not_lt.mp room)
      obtain ⟨inside, shifted⟩ := ok.aged_put_full found full write
      have slot : ring.slots[ring.next] =
          ring.slots.get ⟨ring.target key wanted, ok.target_lt wanted⟩ := by
        simp [target, found]
      have some_ : 1 ≤ ring.aged.length := by
        rw [ok.aged_length, full]
        exact Nat.lt_of_le_of_lt (Nat.zero_le _) ok.next_lt
      rw [shifted, slot, full, Nat.add_sub_cancel_left, List.drop_append_of_le_length some_]

/-- A write into a ring is recalled as what is seen of it, and as an insertion if it is one. -/
theorem Ok.recalls_put {ν : Type} {seen : ν → κ} {view : ρ → ν} {entry : ν} {taken : List κ}
    {given : List ν} (ok : ring.Ok capacity key) (shown : ∀ held, seen (view held) = key held)
    (written : ∀ record, key (write record) = wanted) (viewed : ∀ record, view (write record) = entry)
    (recalls : Fifo.Recalls capacity seen taken given (ring.aged.map view)) :
    Fifo.Recalls capacity seen
      (taken ++ if (ring.find key wanted).isNone then [wanted] else [])
      (given ++ [entry]) ((ring.put capacity key wanted write).aged.map view) := by
  have named : seen entry = wanted := by
    rw [← viewed (ring.slots.get ⟨ring.target key wanted, ok.target_lt wanted⟩), shown, written]
  -- The entry is known by its key exactly when the search finds the key.
  have keys : seen entry ∈ (ring.aged.map view).map seen ↔ ring.find key wanted ≠ none := by
    rw [named, Ne, find_none, aged]
    simp [List.mem_map, List.mem_rotate, shown]
  have next := recalls.put entry
  rw [ok.aged_put written, Fifo.map_put shown, viewed]
  cases held : ring.find key wanted with
  | none =>
    rw [if_neg (mt keys.mp (not_not.mpr held)), named] at next
    exact next
  | some record =>
    rw [if_pos (keys.mpr (held ▸ Option.some_ne_none record))] at next
    simpa using next

end SlotRing
