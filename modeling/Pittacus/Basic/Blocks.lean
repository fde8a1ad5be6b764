import Mathlib.Data.List.Nodup
import Mathlib.Logic.Function.Basic

/-! Memory in blocks, programs that allocate and release them, and rules about such programs. -/

/-- The blocks that are allocated, and the number the next one gets; no number is used twice. -/
structure Blocks (β : Type) where
  block : Nat → Option β
  next : Nat

/--
A program on memory, which fails when it touches a block that is not allocated.

Its first argument tells which requests for memory are refused.
-/
def Storage (β α : Type) : Type := (Nat → β → Bool) → Blocks β → Option (α × Blocks β)

namespace Storage

variable {α β γ : Type}

instance : Monad (Storage β) where
  pure answer := fun _ memory => some (answer, memory)
  bind program next := fun refuses memory =>
    match program refuses memory with
    | none => none
    | some (answer, after) => next answer refuses after

/-- Touch memory that is not allocated. -/
def fault : Storage β α := fun _ _ => none

/-- Allocate a block, if the request is granted. -/
def malloc (content : β) : Storage β (Option Nat) := fun refuses memory =>
  if refuses memory.next content then some (none, { memory with next := memory.next + 1 })
  else
    some (some memory.next,
      { block := Function.update memory.block memory.next (some content)
        next := memory.next + 1 })

/-- Read a block. -/
def load (address : Nat) : Storage β β := fun _ memory =>
  (memory.block address).map fun content => (content, memory)

/-- Overwrite a block. -/
def store (address : Nat) (content : β) : Storage β Unit := fun _ memory =>
  (memory.block address).map fun _ =>
    ((), { memory with block := Function.update memory.block address (some content) })

/-- Release a block; the null pointer refers to none. -/
def free (pointer : Option Nat) : Storage β Unit := fun _ memory =>
  match pointer with
  | none => some ((), memory)
  | some address => (memory.block address).map fun _ =>
      ((), { memory with block := Function.update memory.block address none })

end Storage

namespace Blocks

variable {β : Type}

/-- Memory in which nothing is allocated. -/
def empty : Blocks β := ⟨fun _ => none, 0⟩

/-- These blocks are allocated, and no others. -/
structure Holds (memory : Blocks β) (blocks : List (Nat × β)) : Prop where
  distinct : (blocks.map Prod.fst).Nodup
  block : ∀ address content, memory.block address = some content ↔ (address, content) ∈ blocks
  numbered : ∀ entry ∈ blocks, entry.1 < memory.next

/-- Nothing is held where nothing is allocated. -/
theorem empty_holds : (empty : Blocks β).Holds [] where
  distinct := List.nodup_nil
  block _ _ := iff_of_false (fun stored => nomatch stored) List.not_mem_nil
  numbered _ listed := by cases listed

variable {memory : Blocks β} {blocks others : List (Nat × β)} {address : Nat} {content : β}

namespace Holds

/-- The blocks may be listed in any order. -/
theorem perm (holds : memory.Holds blocks) (same : blocks.Perm others) : memory.Holds others where
  distinct := (same.map Prod.fst).nodup_iff.mp holds.distinct
  block address content := (holds.block address content).trans same.mem_iff
  numbered entry listed := holds.numbered entry (same.mem_iff.mpr listed)

/-- A block that is listed is stored. -/
theorem stored (holds : memory.Holds blocks) (listed : (address, content) ∈ blocks) :
    memory.block address = some content :=
  (holds.block address content).mpr listed

/-- No other block has the number of the first one. -/
theorem apart (holds : memory.Holds ((address, content) :: blocks)) {entry : Nat × β}
    (listed : entry ∈ blocks) : entry.1 ≠ address := fun same =>
  (List.nodup_cons.mp holds.distinct).1 (List.mem_map.mpr ⟨entry, listed, same⟩)

/-- A block that is written anew is held with what was written. -/
theorem write (holds : memory.Holds ((address, content) :: blocks)) (written : β) :
    Blocks.Holds { memory with block := Function.update memory.block address (some written) }
      ((address, written) :: blocks) where
  distinct := holds.distinct
  numbered entry listed := by
    rcases List.mem_cons.mp listed with same | behind
    · rw [same]
      exact holds.numbered (address, content) List.mem_cons_self
    · exact holds.numbered entry (List.mem_cons_of_mem _ behind)
  block place found := by
    show Function.update memory.block address (some written) place = some found ↔ _
    rw [Function.update_apply, List.mem_cons]
    split
    · rename_i here
      subst here
      constructor
      · rintro ⟨⟩
        exact .inl rfl
      · rintro (same | behind)
        · cases same
          rfl
        · exact absurd rfl (holds.apart behind)
    · rename_i elsewhere
      rw [holds.block, List.mem_cons]
      -- Only the block that was written is listed differently.
      have other : ∀ {content : β}, (place, found) ≠ (address, content) := fun same =>
        elsewhere (congrArg Prod.fst same)
      simp only [other, false_or]

/-- A block that is released is held no more. -/
theorem release (holds : memory.Holds ((address, content) :: blocks)) :
    Blocks.Holds { memory with block := Function.update memory.block address none } blocks where
  distinct := (List.nodup_cons.mp holds.distinct).2
  numbered entry listed := holds.numbered entry (List.mem_cons_of_mem _ listed)
  block place found := by
    show Function.update memory.block address none place = some found ↔ _
    rw [Function.update_apply]
    split
    · rename_i here
      subst here
      exact iff_of_false (fun stored => nomatch stored) fun listed => holds.apart listed rfl
    · rename_i elsewhere
      rw [holds.block, List.mem_cons]
      have other : (place, found) ≠ (address, content) := fun same =>
        elsewhere (congrArg Prod.fst same)
      simp only [other, false_or]

/-- A request that is refused uses up a number only. -/
theorem refuse (holds : memory.Holds blocks) :
    Blocks.Holds { memory with next := memory.next + 1 } blocks where
  distinct := holds.distinct
  block := holds.block
  numbered entry listed := Nat.lt_succ_of_lt (holds.numbered entry listed)

/-- A block that is allocated is held besides the others. -/
theorem grant (holds : memory.Holds blocks) (content : β) :
    Blocks.Holds
      { block := Function.update memory.block memory.next (some content)
        next := memory.next + 1 }
      ((memory.next, content) :: blocks) where
  distinct := by
    refine List.nodup_cons.mpr ⟨fun listed => ?_, holds.distinct⟩
    -- All numbers in use are smaller than the new one.
    obtain ⟨entry, member, same⟩ := List.mem_map.mp listed
    have below := holds.numbered entry member
    omega
  numbered entry listed := by
    rcases List.mem_cons.mp listed with same | behind
    · rw [same]
      exact Nat.lt_succ_self _
    · exact Nat.lt_succ_of_lt (holds.numbered entry behind)
  block place found := by
    show Function.update memory.block memory.next (some content) place = some found ↔ _
    rw [Function.update_apply, List.mem_cons]
    split
    · rename_i here
      subst here
      constructor
      · rintro ⟨⟩
        exact .inl rfl
      · rintro (same | behind)
        · cases same
          rfl
        · exact absurd (holds.numbered _ behind) (Nat.lt_irrefl _)
    · rename_i elsewhere
      have other : (place, found) ≠ (memory.next, content) := fun same =>
        elsewhere (congrArg Prod.fst same)
      rw [holds.block]
      simp only [other, false_or]

end Holds

end Blocks

/-! ### What a program ensures -/

namespace Storage

variable {α β γ : Type}

/-- A program fails only if it may, and what it answers and leaves behind is as stated. -/
def Ensures (program : Storage β α) (refuses : Nat → β → Bool) (memory : Blocks β)
    (mayFail : Prop) (post : α → Blocks β → Prop) : Prop :=
  match program refuses memory with
  | none => mayFail
  | some (answer, after) => post answer after

section Rules

variable {refuses : Nat → β → Bool} {memory : Blocks β} {mayFail : Prop}
  {blocks : List (Nat × β)} {address : Nat} {content : β}

/-- What is ensured may be weakened. -/
theorem Ensures.imp {program : Storage β α} {mayFailToo : Prop} {mid post : α → Blocks β → Prop}
    (ensures : program.Ensures refuses memory mayFail mid) (fails : mayFail → mayFailToo)
    (imp : ∀ answer after, mid answer after → post answer after) :
    program.Ensures refuses memory mayFailToo post := by
  unfold Ensures at ensures ⊢
  split
  · rename_i failed
    rw [failed] at ensures
    exact fails ensures
  · rename_i answered
    rw [answered] at ensures
    exact imp _ _ ensures

/-- An answer is given at once. -/
theorem ensures_pure {answer : α} {post : α → Blocks β → Prop} (meets : post answer memory) :
    (pure answer : Storage β α).Ensures refuses memory mayFail post := meets

/-- A failure has to be allowed. -/
theorem ensures_fault {post : α → Blocks β → Prop} (fails : mayFail) :
    (fault : Storage β α).Ensures refuses memory mayFail post := fails

/-- What follows a program that did not fail starts with its answer and its memory. -/
theorem bind_of_run {program : Storage β α} {answer : α} {after : Blocks β}
    (ran : program refuses memory = some (answer, after)) (next : α → Storage β γ) :
    (program >>= next) refuses memory = next answer refuses after := by
  simp only [Bind.bind, ran]

/-- Nothing follows a program that failed. -/
theorem bind_of_fault {program : Storage β α} (failed : program refuses memory = none)
    (next : α → Storage β γ) : (program >>= next) refuses memory = none := by
  simp only [Bind.bind, failed]

/-- One program after the other. -/
theorem Ensures.bind {program : Storage β α} {next : α → Storage β γ}
    {mid : α → Blocks β → Prop} {post : γ → Blocks β → Prop}
    (first : program.Ensures refuses memory mayFail mid)
    (second : ∀ answer after, mid answer after →
      (next answer).Ensures refuses after mayFail post) :
    (program >>= next).Ensures refuses memory mayFail post := by
  unfold Ensures at first
  cases ran : program refuses memory with
  | none =>
    rw [ran] at first
    unfold Ensures
    rw [bind_of_fault ran]
    exact first
  | some result =>
    rw [ran] at first
    unfold Ensures
    rw [bind_of_run ran]
    exact second result.1 result.2 first

/-- A request is granted with a new block, or refused without an effect. -/
theorem ensures_malloc (holds : memory.Holds blocks) (content : β) :
    (malloc content).Ensures refuses memory mayFail fun pointer after =>
      match pointer with
      | none => (∃ number, refuses number content = true) ∧ after.Holds blocks
      | some address => after.Holds ((address, content) :: blocks) := by
  unfold Ensures malloc
  cases refused : refuses memory.next content with
  | true => exact ⟨⟨_, refused⟩, holds.refuse⟩
  | false => exact holds.grant content

/-- A block that is held can be read. -/
theorem ensures_load (holds : memory.Holds blocks) (listed : (address, content) ∈ blocks) :
    (load address).Ensures refuses memory mayFail fun found after =>
      found = content ∧ after = memory := by
  unfold Ensures load
  rw [holds.stored listed]
  exact ⟨rfl, rfl⟩

/-- A block that is held can be written. -/
theorem ensures_store (holds : memory.Holds ((address, content) :: blocks)) (written : β) :
    (store address written).Ensures refuses memory mayFail fun _ after =>
      after.Holds ((address, written) :: blocks) := by
  unfold Ensures store
  rw [holds.stored List.mem_cons_self]
  exact holds.write written

/-- A block that is held can be released. -/
theorem ensures_free (holds : memory.Holds ((address, content) :: blocks)) :
    (free (some address)).Ensures refuses memory mayFail fun _ after => after.Holds blocks := by
  unfold Ensures free
  simp only [holds.stored List.mem_cons_self, Option.map_some]
  exact holds.release

/-- Releasing the null pointer does nothing. -/
theorem ensures_free_none {post : Unit → Blocks β → Prop} (meets : post () memory) :
    (free none).Ensures refuses memory mayFail post := meets

/-- A program that may not fail has an answer that is as stated. -/
theorem Ensures.exists {program : Storage β α} {post : α → Blocks β → Prop}
    (ensures : program.Ensures refuses memory mayFail post) (never : ¬mayFail) :
    ∃ answer after, program refuses memory = some (answer, after) ∧ post answer after := by
  unfold Ensures at ensures
  split at ensures
  · exact absurd ensures never
  · rename_i answer after ran
    exact ⟨answer, after, ran, ensures⟩

/-- What a program answered is as stated. -/
theorem Ensures.of_run {program : Storage β α} {post : α → Blocks β → Prop}
    (ensures : program.Ensures refuses memory mayFail post) {answer : α} {after : Blocks β}
    (ran : program refuses memory = some (answer, after)) : post answer after := by
  unfold Ensures at ensures
  rw [ran] at ensures
  exact ensures

end Rules

end Storage
