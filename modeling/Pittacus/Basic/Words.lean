import Mathlib.Algebra.Group.Int.Defs
import Mathlib.Algebra.Group.Nat.Defs
import Mathlib.Data.List.Basic

/-! Base-256 digit strings, and the integer conversions C performs without a cast. -/

namespace Words

/-- The natural number a digit string denotes, most significant byte first. -/
def ofBytes (bytes : List UInt8) : Nat :=
  -- Each further byte shifts the digits already read by one place.
  bytes.foldl (fun value byte => value * 256 + byte.toNat) 0

/-- The `width` low digits of a number, most significant byte first. -/
def toBytes : Nat → Nat → List UInt8
  -- No digit is left to write.
  | 0, _ => []
  | width + 1, value => UInt8.ofNat (value / 256 ^ width) :: toBytes width value

/-- A digit string has exactly the width it was asked for. -/
@[simp] theorem toBytes_length (width value : Nat) : (toBytes width value).length = width := by
  induction width with
  | zero => rfl
  | succ width ih => simp [toBytes, ih]

/-- Reading continues from whatever value the earlier digits left behind. -/
theorem foldl_digits (bytes : List UInt8) (start : Nat) :
    bytes.foldl (fun value byte => value * 256 + byte.toNat) start
      = start * 256 ^ bytes.length + ofBytes bytes := by
  -- The start is shifted once per byte, independently of the digits being read.
  induction bytes generalizing start with
  | nil => simp [ofBytes]
  | cons byte rest ih =>
    simp only [List.foldl_cons, ofBytes, List.length_cons, Nat.zero_mul, Nat.zero_add]
    rw [ih (start * 256 + byte.toNat), ih byte.toNat, Nat.pow_succ]
    grind

/-- The first byte is the leading digit of the number. -/
theorem ofBytes_cons (byte : UInt8) (rest : List UInt8) :
    ofBytes (byte :: rest) = byte.toNat * 256 ^ rest.length + ofBytes rest := by
  -- Starting from the first byte is the general fold started at its value.
  simpa [ofBytes] using foldl_digits rest byte.toNat

/-- A digit string denotes a number below the next power of the base. -/
theorem ofBytes_lt (bytes : List UInt8) : ofBytes bytes < 256 ^ bytes.length := by
  induction bytes with
  | nil => simp [ofBytes]
  | cons byte rest ih =>
    -- The leading digit is at most 255, so one more unit of its place bounds the rest.
    have digit : byte.toNat + 1 ≤ 256 := byte.toNat_lt
    have scaled := Nat.mul_le_mul_right (256 ^ rest.length) digit
    rw [ofBytes_cons, List.length_cons, Nat.pow_succ]
    grind

/-- Reading back the digits of a number gives its residue at that width. -/
theorem ofBytes_toBytes (width value : Nat) :
    ofBytes (toBytes width value) = value % 256 ^ width := by
  induction width with
  | zero => simp [toBytes, ofBytes, Nat.mod_one]
  | succ width ih =>
    -- The leading digit contributes the quotient at its place, the rest its remainder.
    rw [toBytes, ofBytes_cons, toBytes_length, ih, Nat.pow_succ, Nat.mod_mul]
    simp only [UInt8.toNat_ofNat']
    grind

/-- The low digits of a number do not depend on its digits above them. -/
theorem toBytes_add_mul (width value carry : Nat) :
    toBytes width (carry * 256 ^ width + value) = toBytes width value := by
  induction width generalizing carry with
  | zero => rfl
  | succ width ih =>
    have split : carry * 256 ^ (width + 1) = carry * 256 * 256 ^ width := by
      rw [Nat.pow_succ]; grind
    rw [toBytes, toBytes, split, ih (carry * 256)]
    -- The leading digit is taken modulo the base, which absorbs the carry.
    have leading : (carry * 256 * 256 ^ width + value) / 256 ^ width
        = carry * 256 + value / 256 ^ width := by
      rw [Nat.add_comm, Nat.add_mul_div_right _ _ (Nat.pow_pos (by decide))]
      omega
    rw [leading]
    congr 1
    apply UInt8.toNat_inj.mp
    simp only [UInt8.toNat_ofNat']
    omega

/-- The digits of the number a byte string denotes are that byte string. -/
theorem toBytes_ofBytes (bytes : List UInt8) :
    toBytes bytes.length (ofBytes bytes) = bytes := by
  induction bytes with
  | nil => rfl
  | cons byte rest ih =>
    -- The leading quotient recovers the first byte, and the rest sits below its place.
    have below := ofBytes_lt rest
    rw [ofBytes_cons, List.length_cons, toBytes, toBytes_add_mul, ih]
    congr 1
    rw [Nat.add_comm, Nat.add_mul_div_right _ _ (Nat.pow_pos (by decide)), Nat.div_eq_of_lt below]
    simp

/-- The leading digits of a number are those of its quotient. -/
theorem take_toBytes (width rest value : Nat) :
    (toBytes (width + rest) value).take width = toBytes width (value / 256 ^ rest) := by
  induction width with
  | zero => rfl
  | succ width ih =>
    -- Dividing by the places left out first and by the own place after them divides by both.
    have place : value / 256 ^ rest / 256 ^ width = value / 256 ^ (width + rest) := by
      rw [Nat.div_div_eq_div_mul, ← Nat.pow_add, Nat.add_comm]
    rw [Nat.add_right_comm, toBytes, List.take_succ_cons, ih, toBytes, place]

/-- A C `int` holds the low thirty-two bits of a wider value, in two's complement. -/
def toInt (value : Int) : Int := Int.bmod value (2 ^ 32)

/-- A value already in the range of `int` is stored unchanged. -/
theorem toInt_of_small {value : Int} (low : 0 ≤ value) (high : value < 2 ^ 31) :
    toInt value = value := by
  -- Balanced residues keep everything in the half-open range around zero.
  unfold toInt
  rw [Int.bmod_eq_of_le] <;> omega

/-- A `ptrdiff_t` turned into `size_t` wraps around below zero. -/
def toSize (difference : Int) : Nat :=
  -- Converting a negative difference adds one more than the largest size.
  if difference < 0 then (2 ^ 64 + difference).toNat else difference.toNat

/-- A nonnegative difference is its own size. -/
@[simp] theorem toSize_ofNat (difference : Nat) : toSize (difference : Int) = difference := by
  -- The wraparound branch is taken below zero only.
  unfold toSize
  rw [if_neg (by omega), Int.toNat_natCast]

/-- The space left behind a cursor inside the buffer is the plain difference. -/
theorem toSize_sub {cursor bound : Nat} (inside : cursor ≤ bound) :
    toSize ((bound : Int) - cursor) = bound - cursor := by
  -- No wraparound happens while the cursor has not passed the end.
  unfold toSize
  rw [if_neg (by omega)]
  omega

end Words
