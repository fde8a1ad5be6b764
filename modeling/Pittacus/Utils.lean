import Pittacus.Basic.Words
import Pittacus.Basic.Decoder
import Pittacus.Basic.Encoder
import Pittacus.Config

/-! Network-order integers in buffers, and the way decoders and encoders report a byte count. -/

namespace Pittacus

/-- Read two bytes in network order. -/
def uint16Decode (buffer : Nat) : Decoder Int UInt16 := do
  let bytes ← Decoder.bytesAt buffer 2
  return UInt16.ofNat (Words.ofBytes bytes)

/-- Write two bytes in network order. -/
def uint16Encode (n : UInt16) (buffer : Int) : Encoder Int Unit :=
  Encoder.putAt buffer (Words.toBytes 2 n.toNat)

/-- Read four bytes in network order. -/
def uint32Decode (buffer : Nat) : Decoder Int UInt32 := do
  let bytes ← Decoder.bytesAt buffer 4
  return UInt32.ofNat (Words.ofBytes bytes)

/-- Write four bytes in network order. -/
def uint32Encode (n : UInt32) (buffer : Int) : Encoder Int Unit :=
  Encoder.putAt buffer (Words.toBytes 4 n.toNat)

/--
Return a byte count together with the decoded value.

The count becomes a C `int` on the way out, and every caller takes a negative one for an error.
-/
def decodedBytes {α : Type} (count : Nat) (value : α) : Decoder Int (Nat × α) :=
  let code := Words.toInt count
  if code < 0 then Decoder.fail code else pure (code.toNat, value)

/-- Return a byte count from an encoder, as the C `int` its callers test for a negative value. -/
def encodedBytes (count : Int) : Encoder Int Int :=
  let code := Words.toInt count
  if code < 0 then Encoder.fail code else pure code

/-- A two-byte integer survives being written and read back. -/
theorem uint16_roundTrip (n : UInt16) : UInt16.ofNat (Words.ofBytes (Words.toBytes 2 n.toNat)) = n := by
  -- The integer is below the second power of the base, so no digit is lost.
  have bound := n.toNat_lt
  rw [Words.ofBytes_toBytes, Nat.mod_eq_of_lt (by simpa using bound), UInt16.ofNat_toNat]

/-- A four-byte integer survives being written and read back. -/
theorem uint32_roundTrip (n : UInt32) : UInt32.ofNat (Words.ofBytes (Words.toBytes 4 n.toNat)) = n := by
  have bound := n.toNat_lt
  rw [Words.ofBytes_toBytes, Nat.mod_eq_of_lt (by simpa using bound), UInt32.ofNat_toNat]

/-- Two bytes survive being read as an integer and written again. -/
theorem uint16_bytes {bytes : List UInt8} (width : bytes.length = 2) :
    Words.toBytes 2 (UInt16.ofNat (Words.ofBytes bytes)).toNat = bytes := by
  -- Two bytes denote a number that sixteen bits hold.
  have bound := Words.ofBytes_lt bytes
  rw [width] at bound
  rw [UInt16.toNat_ofNat_of_lt' (by simpa using bound), ← width, Words.toBytes_ofBytes]

/-- Four bytes survive being read as an integer and written again. -/
theorem uint32_bytes {bytes : List UInt8} (width : bytes.length = 4) :
    Words.toBytes 4 (UInt32.ofNat (Words.ofBytes bytes)).toNat = bytes := by
  have bound := Words.ofBytes_lt bytes
  rw [width] at bound
  rw [UInt32.toNat_ofNat_of_lt' (by simpa using bound), ← width, Words.toBytes_ofBytes]

/-- A byte count that fits a C `int` is reported as it is. -/
theorem decodedBytes_of_small {α : Type} {count : Nat} (small : count < 2 ^ 31) (value : α) :
    (decodedBytes count value) = pure (count, value) := by
  simp only [decodedBytes, Words.toInt_of_small (Int.natCast_nonneg count) (by exact_mod_cast small)]
  rw [if_neg (by omega), Int.toNat_natCast]

theorem encodedBytes_of_small {count : Nat} (small : count < 2 ^ 31) :
    encodedBytes count = ⟨.ok (count : Int), []⟩ := by
  simp only [encodedBytes, Words.toInt_of_small (Int.natCast_nonneg count) (by exact_mod_cast small)]
  rw [if_neg (by omega)]
  rfl

end Pittacus
