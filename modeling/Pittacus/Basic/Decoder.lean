import Mathlib.Data.List.GetD

/-! Computations that read memory by position and remember every position they looked at. -/

/-- A computation that reads memory, answers or fails, and keeps the positions it read. -/
def Decoder (ε α : Type) : Type := (Nat → UInt8) → Except ε α × List Nat

namespace Decoder

variable {ε α β : Type}

/-- The bytes held at `count` consecutive positions. -/
def slice (memory : Nat → UInt8) (start count : Nat) : List UInt8 :=
  (List.range' start count).map memory

/-- Memory that starts with the given bytes and continues with whatever lies beyond them. -/
def memoryOf (bytes : List UInt8) (beyond : Nat → UInt8) : Nat → UInt8 :=
  fun position => bytes.getD position (beyond position)

/-- What a computation answers on the given memory. -/
def result (decoder : Decoder ε α) (memory : Nat → UInt8) : Except ε α := (decoder memory).1

/-- The positions a computation looks at on the given memory, in order. -/
def reads (decoder : Decoder ε α) (memory : Nat → UInt8) : List Nat := (decoder memory).2

/-- Fail without looking at anything. -/
def fail (error : ε) : Decoder ε α := fun _ => (.error error, [])

/-- Look at `count` consecutive positions. -/
def bytesAt (start count : Nat) : Decoder ε (List UInt8) :=
  fun memory => (.ok (slice memory start count), List.range' start count)

/-- The bytes at `count` consecutive positions, pointed to rather than looked at. -/
def pointAt (start count : Nat) : Decoder ε {bytes : List UInt8 // bytes.length = count} :=
  fun memory => (.ok ⟨slice memory start count, by simp [slice]⟩, [])

instance : Monad (Decoder ε) where
  pure answer := fun _ => (.ok answer, [])
  bind decoder next := fun memory =>
    match decoder memory with
    | (.error error, looked) => (.error error, looked)
    | (.ok answer, looked) => ((next answer memory).1, looked ++ (next answer memory).2)

/-! ### Answers -/

@[simp] theorem result_pure (answer : α) (memory : Nat → UInt8) :
    (pure answer : Decoder ε α).result memory = .ok answer := rfl

@[simp] theorem result_fail (error : ε) (memory : Nat → UInt8) :
    (fail error : Decoder ε α).result memory = .error error := rfl

@[simp] theorem result_bytesAt (start count : Nat) (memory : Nat → UInt8) :
    (bytesAt start count : Decoder ε _).result memory = .ok (slice memory start count) := rfl

@[simp] theorem result_pointAt (start count : Nat) (memory : Nat → UInt8) :
    (pointAt start count : Decoder ε _).result memory =
      .ok ⟨slice memory start count, by simp [slice]⟩ := rfl

/-- A failure ends the computation, and an answer is handed to what follows. -/
@[simp] theorem result_bind (decoder : Decoder ε α) (next : α → Decoder ε β)
    (memory : Nat → UInt8) :
    (decoder >>= next).result memory =
      match decoder.result memory with
      | .error error => .error error
      | .ok answer => (next answer).result memory := by
  -- The step is decided by the first computation's answer alone.
  simp only [result, Bind.bind]
  rcases decoder memory with ⟨error | answer, looked⟩ <;> rfl

/-- What follows an answer decides the outcome. -/
theorem result_bind_of_ok {decoder : Decoder ε α} {memory : Nat → UInt8} {answer : α}
    (answered : decoder.result memory = .ok answer) (next : α → Decoder ε β) :
    (decoder >>= next).result memory = (next answer).result memory := by
  rw [result_bind, answered]

/-- Nothing follows a failure. -/
theorem result_bind_of_error {decoder : Decoder ε α} {memory : Nat → UInt8} {error : ε}
    (failed : decoder.result memory = .error error) (next : α → Decoder ε β) :
    (decoder >>= next).result memory = .error error := by
  rw [result_bind, failed]

/-- A branch answers as the side it takes. -/
@[simp] theorem result_ite (condition : Prop) [Decidable condition] (yes no : Decoder ε α)
    (memory : Nat → UInt8) :
    (if condition then yes else no).result memory =
      if condition then yes.result memory else no.result memory := by
  split <;> rfl

/-! ### Positions read -/

/-- Every position the computation looks at lies below the limit. -/
def Within (limit : Nat) (decoder : Decoder ε α) (memory : Nat → UInt8) : Prop :=
  ∀ position ∈ decoder.reads memory, position < limit

theorem within_pure (limit : Nat) (answer : α) (memory : Nat → UInt8) :
    (pure answer : Decoder ε α).Within limit memory := by
  intro position member
  exact absurd member List.not_mem_nil

theorem within_fail (limit : Nat) (error : ε) (memory : Nat → UInt8) :
    (fail error : Decoder ε α).Within limit memory := by
  intro position member
  exact absurd member List.not_mem_nil

/-- A run of positions is within the limit when its end is. -/
theorem within_bytesAt {limit start count : Nat} (fits : start + count ≤ limit)
    (memory : Nat → UInt8) : (bytesAt start count : Decoder ε _).Within limit memory := by
  intro position member
  have bound := (List.mem_range'_1.mp member).2
  omega

/-- Pointing at bytes is not looking at them. -/
theorem within_pointAt (limit start count : Nat) (memory : Nat → UInt8) :
    (pointAt start count : Decoder ε _).Within limit memory := by
  intro position member
  exact absurd member List.not_mem_nil

/-- The positions a computation looks at are its own, then those of what follows its answer. -/
theorem reads_bind_of_ok {decoder : Decoder ε α} {memory : Nat → UInt8} {answer : α}
    (answered : decoder.result memory = .ok answer) (next : α → Decoder ε β) :
    (decoder >>= next).reads memory = decoder.reads memory ++ (next answer).reads memory := by
  simp only [reads, result, Bind.bind] at answered ⊢
  rcases ran : decoder memory with ⟨error | found, looked⟩
  · simp [ran] at answered
  · simp only [ran, Except.ok.injEq] at answered
    subst found
    rfl

theorem reads_bind_of_error {decoder : Decoder ε α} {memory : Nat → UInt8} {error : ε}
    (failed : decoder.result memory = .error error) (next : α → Decoder ε β) :
    (decoder >>= next).reads memory = decoder.reads memory := by
  simp only [reads, result, Bind.bind] at failed ⊢
  rcases ran : decoder memory with ⟨found | answer, looked⟩
  · rfl
  · simp [ran] at failed

/-- Reads stay within the limit exactly when those of both steps do. -/
theorem within_bind_of_ok {limit : Nat} {decoder : Decoder ε α} {memory : Nat → UInt8} {answer : α}
    (answered : decoder.result memory = .ok answer) (next : α → Decoder ε β) :
    (decoder >>= next).Within limit memory ↔
      decoder.Within limit memory ∧ (next answer).Within limit memory := by
  rw [Within, reads_bind_of_ok answered]
  exact List.forall_mem_append

theorem within_bind_of_error {limit : Nat} {decoder : Decoder ε α} {memory : Nat → UInt8}
    {error : ε} (failed : decoder.result memory = .error error) (next : α → Decoder ε β) :
    (decoder >>= next).Within limit memory ↔ decoder.Within limit memory := by
  rw [Within, reads_bind_of_error failed]
  rfl

/-- A computation whose reads stay within the limit starts with one whose reads do. -/
theorem within_of_bind {limit : Nat} {decoder : Decoder ε α} {next : α → Decoder ε β}
    {memory : Nat → UInt8} (within : (decoder >>= next).Within limit memory) :
    decoder.Within limit memory := by
  cases ran : decoder.result memory with
  | error error => exact (within_bind_of_error ran next).mp within
  | ok answer => exact ((within_bind_of_ok ran next).mp within).1

/-! ### Slices of memory -/

@[simp] theorem slice_length (memory : Nat → UInt8) (start count : Nat) :
    (slice memory start count).length = count := by simp [slice]

/-- A slice splits at any point inside it. -/
theorem slice_add (memory : Nat → UInt8) (start first second : Nat) :
    slice memory start (first + second)
      = slice memory start first ++ slice memory (start + first) second := by
  simp [slice, ← List.range'_append_1]

/-- The first bytes of a slice are a shorter slice. -/
theorem slice_take (memory : Nat → UInt8) (start : Nat) {first count : Nat} (inside : first ≤ count) :
    (slice memory start count).take first = slice memory start first := by
  obtain ⟨rest, rfl⟩ := Nat.exists_eq_add_of_le inside
  rw [slice_add, List.take_left' (slice_length _ _ _)]

/-- The bytes of a slice behind some of them are a slice from there on. -/
theorem slice_drop (memory : Nat → UInt8) (start : Nat) {first count : Nat} (inside : first ≤ count) :
    (slice memory start count).drop first = slice memory (start + first) (count - first) := by
  obtain ⟨rest, rfl⟩ := Nat.exists_eq_add_of_le inside
  rw [slice_add, List.drop_left' (slice_length _ _ _), Nat.add_sub_cancel_left]

/-- Reading one position of a slice reads memory at that offset. -/
theorem slice_getElem (memory : Nat → UInt8) {start count position : Nat}
    (inside : position < (slice memory start count).length) :
    (slice memory start count)[position] = memory (start + position) := by
  simp [slice]

/-- Slices of memories that agree there are equal. -/
theorem slice_congr {memory other : Nat → UInt8} {start count : Nat}
    (agree : ∀ position, start ≤ position → position < start + count →
      memory position = other position) :
    slice memory start count = slice other start count := by
  -- Only the positions of the slice are ever looked at.
  apply List.map_congr_left
  intro position member
  have bounds := List.mem_range'_1.mp member
  exact agree position bounds.1 bounds.2

/-- A slice that lies inside the leading bytes is a part of them. -/
theorem slice_memoryOf {bytes : List UInt8} {start count : Nat} (beyond : Nat → UInt8)
    (inside : start + count ≤ bytes.length) :
    slice (memoryOf bytes beyond) start count = (bytes.drop start).take count := by
  -- Both sides have the same length, and hold the same byte at each position.
  apply List.ext_getElem
  · simp only [slice_length, List.length_take, List.length_drop]
    omega
  · intro position left right
    have within : position < count := by simpa using left
    rw [slice_getElem, List.getElem_take, List.getElem_drop, memoryOf,
      List.getD_eq_getElem _ _ (by omega)]

@[simp] theorem slice_one (memory : Nat → UInt8) (start : Nat) :
    slice memory start 1 = [memory start] := rfl

/-- Memory holds the given bytes from a position on. -/
def Holds (memory : Nat → UInt8) (start : Nat) (bytes : List UInt8) : Prop :=
  slice memory start bytes.length = bytes

/-- Holding bytes one after the other is holding the first and, behind them, the others. -/
theorem holds_append {memory : Nat → UInt8} {start : Nat} {left right : List UInt8} :
    Holds memory start (left ++ right) ↔
      Holds memory start left ∧ Holds memory (start + left.length) right := by
  unfold Holds
  rw [List.length_append, slice_add]
  -- Both halves have a known length, so the bytes split at one place only.
  constructor
  · intro held
    exact List.append_inj held (slice_length _ _ _)
  · rintro ⟨first, second⟩
    rw [first, second]

/-- Memory that starts with some bytes holds them at its start. -/
theorem holds_memoryOf (bytes : List UInt8) (beyond : Nat → UInt8) :
    Holds (memoryOf bytes beyond) 0 bytes := by
  unfold Holds
  rw [slice_memoryOf beyond (Nat.le_of_eq (Nat.zero_add _)), List.drop_zero, List.take_length]

/-- The bytes at the start of such memory are a part of those it starts with. -/
theorem slice_memoryOf_zero {bytes : List UInt8} {count : Nat} (beyond : Nat → UInt8)
    (inside : count ≤ bytes.length) : slice (memoryOf bytes beyond) 0 count = bytes.take count := by
  rw [slice_memoryOf beyond (by omega), List.drop_zero]

end Decoder
