import Mathlib.Data.List.Perm.Subperm
import Pittacus.Basic.Grouped
import Pittacus.Proofs.Enqueue

/-! How a slot of the output buffer is chosen, and when the choice takes it from nobody. -/

namespace Pittacus

/-- An envelope is the first of those with the most attempts. -/
structure FirstOldest (ahead : List MessageEnvelopeOut) (oldest : MessageEnvelopeOut)
    (behind : List MessageEnvelopeOut) : Prop where
  ahead : ∀ envelope ∈ ahead, envelope.attemptNum < oldest.attemptNum
  behind : ∀ envelope ∈ behind, envelope.attemptNum ≤ oldest.attemptNum

/--
Reclaiming a slot of this queue takes it from nobody.

Where every slot is occupied, the first of the oldest envelopes shares its slot with none ahead of it.
-/
def Spares (queue : List MessageEnvelopeOut) : Prop :=
  (∀ i < maxOutputMessages, bufferIsOccupied queue i = true) →
    ∀ ahead oldest behind, queue = ahead ++ oldest :: behind → FirstOldest ahead oldest behind →
      ∀ envelope ∈ ahead, envelope.buffer ≠ oldest.buffer

/-- Going on from the first of the oldest envelopes so far finds the first of the oldest of all. -/
theorem findOldestEnvelope_from (rest ahead : List MessageEnvelopeOut) (oldest : MessageEnvelopeOut)
    (behind : List MessageEnvelopeOut) (first : FirstOldest ahead oldest behind) :
    ∃ before found after,
      findOldestEnvelope (ahead.length + (behind.length + 1)) (some (ahead.length, oldest)) rest
          = some (before.length, found) ∧
        ahead ++ oldest :: behind ++ rest = before ++ found :: after ∧
        FirstOldest before found after := by
  induction rest generalizing ahead oldest behind with
  | nil => exact ⟨ahead, oldest, behind, rfl, List.append_nil _, first⟩
  | cons head rest ih =>
    by_cases older : head.attemptNum > oldest.attemptNum
    · -- Everything before the head has fewer attempts than it.
      have replaced : FirstOldest (ahead ++ oldest :: behind) head [] := by
        refine ⟨fun envelope member => ?_, fun envelope member => absurd member List.not_mem_nil⟩
        rcases List.mem_append.mp member with early | late
        · exact Nat.lt_trans (first.ahead envelope early) older
        · cases late with
          | head => exact older
          | tail _ late => exact Nat.lt_of_le_of_lt (first.behind envelope late) older
      obtain ⟨before, found, after, ran, split, spared⟩ := ih _ head [] replaced
      refine ⟨before, found, after, ?_, ?_, spared⟩
      · rw [findOldestEnvelope, if_pos older, ← ran]
        simp only [List.length_append, List.length_cons, List.length_nil]
      · rw [← split]
        simp
    · have kept : FirstOldest ahead oldest (behind ++ [head]) := by
        refine ⟨first.ahead, fun envelope member => ?_⟩
        rcases List.mem_append.mp member with early | late
        · exact first.behind envelope early
        · rw [List.mem_singleton.mp late]
          exact Nat.not_lt.mp older
      obtain ⟨before, found, after, ran, split, spared⟩ := ih ahead oldest _ kept
      refine ⟨before, found, after, ?_, ?_, spared⟩
      · rw [findOldestEnvelope, if_neg older, ← ran]
        simp only [List.length_append, List.length_cons, List.length_nil]
        rfl
      · rw [← split]
        simp

/-- A queue that is not empty has a first oldest envelope, and the search finds it. -/
theorem findOldestEnvelope_spec {queue : List MessageEnvelopeOut} (some_ : queue ≠ []) :
    ∃ ahead oldest behind, findOldestEnvelope 0 none queue = some (ahead.length, oldest) ∧
      queue = ahead ++ oldest :: behind ∧ FirstOldest ahead oldest behind := by
  cases queue with
  | nil => exact absurd rfl some_
  | cons head rest =>
    have alone : FirstOldest [] head [] :=
      ⟨List.forall_mem_nil _, List.forall_mem_nil _⟩
    exact findOldestEnvelope_from rest [] head [] alone

/-- There is only one first oldest envelope. -/
theorem FirstOldest.unique {ahead ahead_ behind behind_ : List MessageEnvelopeOut}
    {oldest oldest_ : MessageEnvelopeOut} (first : FirstOldest ahead oldest behind)
    (first_ : FirstOldest ahead_ oldest_ behind_)
    (same : ahead ++ oldest :: behind = ahead_ ++ oldest_ :: behind_) :
    ahead = ahead_ ∧ oldest = oldest_ := by
  -- Of two, the earlier one would have fewer attempts and at least as many.
  rcases List.append_eq_append_iff.mp same with ⟨gap, early, late⟩ | ⟨gap, early, late⟩
  · cases gap with
    | nil =>
      rw [List.append_nil] at early
      exact ⟨early.symm, (List.cons.inj late).1⟩
    | cons next rest =>
      obtain ⟨rfl, rest_⟩ := List.cons.inj late
      have fewer := first_.ahead oldest (by rw [early]; simp)
      have more := first.behind oldest_ (by rw [rest_]; simp)
      omega
  · cases gap with
    | nil =>
      rw [List.append_nil] at early
      exact ⟨early, (List.cons.inj late).1.symm⟩
    | cons next rest =>
      obtain ⟨rfl, rest_⟩ := List.cons.inj late
      have fewer := first.ahead oldest_ (by rw [early]; simp)
      have more := first_.behind oldest (by rw [rest_]; simp)
      omega

/-- Whether reclaiming takes the slot from nobody is seen at the envelope the search finds. -/
theorem spares_iff (queue : List MessageEnvelopeOut) :
    Spares queue ↔
      ((∀ i < maxOutputMessages, bufferIsOccupied queue i = true) →
        ∀ found ∈ findOldestEnvelope 0 none queue,
          ∀ envelope ∈ queue.take found.1, envelope.buffer ≠ found.2.buffer) := by
  -- With a slot free nothing is taken; otherwise the search fixes the split in question.
  refine forall_congr' fun _ => ⟨fun spares found search => ?_, fun spares => ?_⟩
  · have some_ : queue ≠ [] := by
      rintro rfl
      cases search
    obtain ⟨ahead, oldest, behind, search_, split, first⟩ := findOldestEnvelope_spec some_
    rw [search_] at search
    cases search
    rw [split, List.take_left]
    exact spares ahead oldest behind split first
  · intro ahead oldest behind split first
    have some_ : queue ≠ [] := by
      rw [split]
      simp
    obtain ⟨ahead_, oldest_, behind_, search, split_, first_⟩ := findOldestEnvelope_spec some_
    obtain ⟨rfl, rfl⟩ := first_.unique first (split_ ▸ split)
    have apart := spares _ search
    rw [split_, List.take_left] at apart
    exact apart

instance (queue : List MessageEnvelopeOut) : Decidable (Spares queue) :=
  decidable_of_iff _ (spares_iff queue).symm

/-- An envelope refers to one of the slots of the output buffer. -/
def MessageEnvelopeOut.Slotted (envelope : MessageEnvelopeOut) : Prop :=
  ∃ i < maxOutputMessages, envelope.buffer = i * messageMaxSize

/-- A slot is occupied exactly when some envelope refers to it. -/
theorem bufferIsOccupied_iff {queue : List MessageEnvelopeOut}
    (slotted : ∀ envelope ∈ queue, envelope.Slotted) (i : Nat) :
    bufferIsOccupied queue i = true ↔ ∃ envelope ∈ queue, envelope.buffer = i * messageMaxSize := by
  simp only [bufferIsOccupied, List.any_eq_true, beq_iff_eq]
  refine exists_congr fun envelope => and_congr_right fun member => ?_
  obtain ⟨j, _, here⟩ := slotted envelope member
  -- Envelopes start at multiples of the slot size, so the division gives the slot back.
  rw [here, Nat.mul_div_cancel j (by decide)]
  constructor
  · rintro rfl
    rfl
  · exact Nat.eq_of_mul_eq_mul_right (by decide)

/-- Where a slot is free, none is taken from anybody. -/
theorem spares_of_free {queue : List MessageEnvelopeOut}
    (free : ∃ i < maxOutputMessages, bufferIsOccupied queue i = false) : Spares queue := by
  obtain ⟨i, inside, unoccupied⟩ := free
  intro occupied
  rw [occupied i inside] at unoccupied
  cases unoccupied

/-- Where a slot is free, no envelope has to make room. -/
theorem placement_of_free {queue : List MessageEnvelopeOut}
    (free : ∃ i < maxOutputMessages, bufferIsOccupied queue i = false) :
    (placement queue).2.1 = queue := by
  unfold placement
  split
  · rfl
  · unfold chooseOutputBuffer
    cases found : (List.range maxOutputMessages).find? fun i => !bufferIsOccupied queue i with
    | some i => rfl
    | none =>
      -- The search would have come across the free slot.
      obtain ⟨i, inside, unoccupied⟩ := free
      have occupied := List.find?_eq_none.mp found i (List.mem_range.mpr inside)
      rw [unoccupied] at occupied
      exact absurd rfl occupied

/-- Fewer envelopes than slots leave a slot free. -/
theorem free_of_roomy {queue : List MessageEnvelopeOut}
    (roomy : queue.length < maxOutputMessages) :
    ∃ i < maxOutputMessages, bufferIsOccupied queue i = false := by
  by_contra full
  push Not at full
  -- Otherwise each slot has an envelope of its own.
  have inside : List.range maxOutputMessages ⊆
      queue.map fun envelope => envelope.buffer / messageMaxSize := by
    intro i slot
    have occupied := full i (List.mem_range.mp slot)
    rw [Bool.ne_false_iff] at occupied
    simp only [bufferIsOccupied, List.any_eq_true, beq_iff_eq] at occupied
    exact List.mem_map.mpr occupied
  have many := (List.subperm_of_subset List.nodup_range inside).length_le
  rw [List.length_range, List.length_map] at many
  omega

/-- The slot for the next message is one no envelope left in the queue refers to. -/
theorem placement_spares {queue : List MessageEnvelopeOut}
    (slotted : ∀ envelope ∈ queue, envelope.Slotted)
    (grouped : Grouped (queue.map (·.buffer))) (spares : Spares queue) :
    (∃ i < maxOutputMessages, (placement queue).1 = i * messageMaxSize) ∧
      (placement queue).2.1.Sublist queue ∧
      ∀ envelope ∈ (placement queue).2.1, envelope.buffer ≠ (placement queue).1 := by
  unfold placement
  by_cases empty : queue.isEmpty = true
  · have none_ : queue = [] := List.isEmpty_iff.mp empty
    subst none_
    exact ⟨⟨0, by decide, rfl⟩, List.Sublist.refl _, List.forall_mem_nil _⟩
  · rw [if_neg empty, chooseOutputBuffer]
    cases free : (List.range maxOutputMessages).find? fun i => !bufferIsOccupied queue i with
    | some i =>
      have inside := List.mem_range.mp (List.mem_of_find?_eq_some free)
      have unoccupied := List.find?_some free
      refine ⟨⟨i, inside, rfl⟩, List.Sublist.refl _, fun envelope member same => ?_⟩
      rw [(bufferIsOccupied_iff slotted i).mpr ⟨envelope, member, same⟩] at unoccupied
      cases unoccupied
    | none =>
      -- Every slot is occupied, and that of the oldest envelope is reclaimed.
      have occupied : ∀ i < maxOutputMessages, bufferIsOccupied queue i = true := by
        intro i inside
        simpa using List.find?_eq_none.mp free i (List.mem_range.mpr inside)
      obtain ⟨ahead, oldest, behind, found, split, first⟩ :=
        findOldestEnvelope_spec fun none_ => empty (List.isEmpty_iff.mpr none_)
      have apart := spares occupied ahead oldest behind split first
      have member : oldest ∈ queue := by rw [split]; simp
      subst split
      have run : Grouped ((oldest :: behind).map (·.buffer)) :=
        grouped.sublist ((List.sublist_append_right ahead _).map _)
      simp only [found, List.take_left, List.drop_left]
      refine ⟨slotted oldest member, (List.dropWhile_sublist _).append_left ahead, ?_⟩
      intro envelope kept
      rcases List.mem_append.mp kept with early | late
      · exact apart envelope early
      · exact run.not_mem_dropWhile envelope late

/-- Where the slot chosen is one nobody left refers to, reclaiming took it from nobody. -/
theorem spares_of_placement {queue : List MessageEnvelopeOut}
    (free : ∀ envelope ∈ (placement queue).2.1, envelope.buffer ≠ (placement queue).1) :
    Spares queue := by
  intro occupied ahead oldest behind split first envelope early
  have some_ : queue ≠ [] := by
    rw [split]
    simp
  have full : ((List.range maxOutputMessages).find? fun i => !bufferIsOccupied queue i) = none := by
    refine List.find?_eq_none.mpr fun i inside => ?_
    rw [occupied i (List.mem_range.mp inside)]
    simp
  obtain ⟨ahead_, oldest_, behind_, search, split_, first_⟩ := findOldestEnvelope_spec some_
  obtain ⟨rfl, rfl⟩ := first_.unique first (split_ ▸ split)
  -- With all slots in use the placement gives up the first of the oldest envelopes.
  have chosen : placement queue = (oldest_.buffer,
      ahead_ ++ (oldest_ :: behind_).dropWhile (fun queued => queued.buffer == oldest_.buffer),
      (oldest_ :: behind_).takeWhile fun queued => queued.buffer == oldest_.buffer) := by
    rw [placement, if_neg (by simp [some_]), chooseOutputBuffer, full]
    simp only [search]
    rw [split_, List.take_left, List.drop_left]
  rw [chosen] at free
  exact free envelope (List.mem_append_left _ early)

end Pittacus
