import Pittacus.Basic.Decoder

/-! Computations that write memory through a cursor and remember every byte they wrote. -/

/-- A computation that answers or fails, with the writes it made relative to its buffer. -/
structure Encoder (ε α : Type) where
  /-- What the computation answers. -/
  result : Except ε α
  /-- The bytes it writes, each with its place in the buffer, in order. -/
  writes : List (Int × UInt8)

namespace Encoder

variable {ε α β : Type}

/-- Bytes laid out one after the other from a cursor. -/
def located : Int → List UInt8 → List (Int × UInt8)
  -- Nothing is left to place.
  | _, [] => []
  | cursor, byte :: rest => (cursor, byte) :: located (cursor + 1) rest

/-- Memory after a sequence of writes into the buffer that starts at `base`. -/
def store (memory : Nat → UInt8) (base : Nat) (writes : List (Int × UInt8)) : Nat → UInt8 :=
  -- A later write to the same position hides an earlier one.
  writes.foldl (fun held write position =>
    if (position : Int) = base + write.1 then write.2 else held position) memory

/-- Fail without writing anything. -/
def fail (error : ε) : Encoder ε α := ⟨.error error, []⟩

/-- Copy bytes into the buffer, the first of them to the cursor. -/
def putAt (cursor : Int) (bytes : List UInt8) : Encoder ε Unit := ⟨.ok (), located cursor bytes⟩

/-- Go on with the code a failed computation returned, as if it had succeeded with it. -/
def unchecked (encoder : Encoder ε ε) : Encoder ε ε :=
  match encoder.result with
  | .ok code => ⟨.ok code, encoder.writes⟩
  | .error code => ⟨.ok code, encoder.writes⟩

instance : Monad (Encoder ε) where
  pure answer := ⟨.ok answer, []⟩
  bind encoder next :=
    match encoder.result with
    | .error error => ⟨.error error, encoder.writes⟩
    | .ok answer => ⟨(next answer).result, encoder.writes ++ (next answer).writes⟩

/-! ### Whole runs -/

/-- What follows an answer writes after it. -/
theorem ok_bind (answer : α) (wrote : List (Int × UInt8)) (next : α → Encoder ε β) :
    (⟨.ok answer, wrote⟩ : Encoder ε α) >>= next
      = ⟨(next answer).result, wrote ++ (next answer).writes⟩ := rfl

/-- A computation that did not fail goes on with its own answer. -/
theorem unchecked_ok (code : ε) (wrote : List (Int × UInt8)) :
    unchecked ⟨.ok code, wrote⟩ = ⟨.ok code, wrote⟩ := rfl

/-- A copy is followed by the rest of the computation. -/
theorem putAt_bind (cursor : Int) (bytes : List UInt8) (next : Unit → Encoder ε β) :
    putAt cursor bytes >>= next
      = ⟨(next ()).result, located cursor bytes ++ (next ()).writes⟩ := rfl

/-! ### Located bytes -/

@[simp] theorem located_nil (cursor : Int) : located cursor [] = [] := rfl

@[simp] theorem located_append (cursor : Int) (left right : List UInt8) :
    located cursor (left ++ right)
      = located cursor left ++ located (cursor + left.length) right := by
  -- The right part starts one position further for every byte of the left part.
  induction left generalizing cursor with
  | nil => simp [located]
  | cons byte rest ih =>
    simp only [List.cons_append, located, ih, List.length_cons, List.cons.injEq, true_and]
    congr 2
    push_cast
    omega

/-- Memory after bytes were copied holds them where they went and is unchanged elsewhere. -/
theorem store_located (memory : Nat → UInt8) (base cursor : Nat) (bytes : List UInt8)
    (position : Nat) :
    store memory base (located cursor bytes) position =
      if base + cursor ≤ position then
        bytes.getD (position - (base + cursor)) (memory position)
      else memory position := by
  -- The first byte goes to the cursor itself, and the rest starts one position further.
  induction bytes generalizing memory cursor with
  | nil => simp [located, store]
  | cons byte rest ih =>
    have next := ih (fun held => if (held : Int) = base + (cursor : Int) then byte else memory held)
      (cursor + 1)
    simp only [located, store, List.foldl_cons] at next ⊢
    push_cast at next
    rw [next]
    by_cases here : position = base + cursor
    · -- Only the first byte reaches this position.
      subst position
      have beyond : ¬ base + (cursor + 1) ≤ base + cursor := by omega
      simp [beyond]
    · have elsewhere : ¬ (position : Int) = base + (cursor : Int) := by omega
      simp only [if_neg elsewhere]
      by_cases past : base + (cursor + 1) ≤ position
      · have gap : position - (base + cursor) = position - (base + (cursor + 1)) + 1 := by omega
        simp [past, gap, show base + cursor ≤ position by omega]
      · simp [past, show ¬ base + cursor ≤ position by omega]

/-! ### Slices of written memory -/

/-- Bytes that were copied are what memory then holds where they went. -/
theorem slice_store (memory : Nat → UInt8) (base cursor : Nat) (bytes : List UInt8) :
    Decoder.slice (store memory base (located cursor bytes)) (base + cursor) bytes.length
      = bytes := by
  apply List.ext_getElem
  · exact Decoder.slice_length _ _ _
  · intro position left right
    have offset : base + cursor + position - (base + cursor) = position := by omega
    rw [Decoder.slice_getElem, store_located, if_pos (Nat.le_add_right _ _), offset,
      List.getD_eq_getElem _ _ right]

/-- Bytes copied to the start of a buffer are what the buffer then starts with. -/
theorem slice_store_zero (memory : Nat → UInt8) (base : Nat) (bytes : List UInt8) :
    Decoder.slice (store memory base (located 0 bytes)) base bytes.length = bytes :=
  slice_store memory base 0 bytes

/-- A slice that lies apart from the bytes that were copied is unchanged. -/
theorem slice_store_apart (memory : Nat → UInt8) (base cursor : Nat) (bytes : List UInt8)
    {start count : Nat}
    (apart : start + count ≤ base + cursor ∨ base + cursor + bytes.length ≤ start) :
    Decoder.slice (store memory base (located cursor bytes)) start count
      = Decoder.slice memory start count := by
  apply Decoder.slice_congr
  intro position low high
  rw [store_located]
  -- A position before the bytes is not reached, one behind them is past their end.
  by_cases reached : base + cursor ≤ position
  · have beyond : bytes.length ≤ position - (base + cursor) := by omega
    rw [if_pos reached, List.getD_eq_default _ _ beyond]
  · rw [if_neg reached]

end Encoder
