import Pittacus.Wire.Header
import Pittacus.Wire.Layout

/-! The fields of messages as they lie in memory, and that decoders read them from there. -/

namespace Pittacus

open Decoder

/-! ### Fields in memory -/

/-- The two-byte integer at a position. -/
def uint16At (memory : Nat → UInt8) (buffer : Nat) : UInt16 :=
  UInt16.ofNat (Words.ofBytes (slice memory buffer 2))

/-- The four-byte integer at a position. -/
def uint32At (memory : Nat → UInt8) (buffer : Nat) : UInt32 :=
  UInt32.ofNat (Words.ofBytes (slice memory buffer 4))

/-- The header at the start of memory. -/
def headerAt (memory : Nat → UInt8) : MessageHeader where
  protocolId := Vector.ofFn fun i => (slice memory 0 5).getD i 0
  messageType := memory 5
  reserved := uint16At memory 6
  sequenceNum := uint32At memory 8

/-- The member at a position. -/
def memberAt (memory : Nat → UInt8) (buffer : Nat) : ClusterMemberRef where
  version := uint16At memory buffer
  uid := uint32At memory (buffer + 2)
  addressLen := uint32At memory (buffer + 6)
  address := buffer + 10

/-- The version at a position. -/
def recordAt (memory : Nat → UInt8) (buffer : Nat) : VectorRecord :=
  ⟨uint32At memory buffer, memberIdOfBytes (slice memory (buffer + 4) 8)⟩

/-- The given number of versions from a position on. -/
def recordsAt (memory : Nat → UInt8) (cursor count : Nat) : List VectorRecord :=
  (List.range count).map fun i => recordAt memory (cursor + i * 12)

/-- The versions from a position on are the first one and those behind it. -/
theorem recordsAt_succ (memory : Nat → UInt8) (cursor count : Nat) :
    recordsAt memory cursor (count + 1) =
      recordAt memory cursor :: recordsAt memory (cursor + 12) count := by
  have first : cursor + 0 * 12 = cursor := by omega
  have shifted : ∀ i, cursor + (i + 1) * 12 = cursor + 12 + i * 12 := by
    intro i
    omega
  rw [recordsAt, List.range_succ_eq_map, List.map_cons, List.map_map, first]
  refine congrArg (List.cons _) (List.map_congr_left fun i _ => ?_)
  exact congrArg (recordAt memory) (shifted i)

/-! ### Reading fields -/

@[simp] theorem uint16Decode_result (memory : Nat → UInt8) (buffer : Nat) :
    (uint16Decode buffer).result memory = .ok (uint16At memory buffer) := rfl

@[simp] theorem uint32Decode_result (memory : Nat → UInt8) (buffer : Nat) :
    (uint32Decode buffer).result memory = .ok (uint32At memory buffer) := rfl

theorem headerDecode_result (memory : Nat → UInt8) {bufferSize : Nat}
    (long : messageHeaderSize ≤ bufferSize) :
    (messageHeaderDecode bufferSize).result memory = .ok (12, headerAt memory) :=
  messageHeaderDecode_result memory long

theorem clusterMemberDecode_result (memory : Nat → UInt8) (buffer bufferSize : Nat) :
    (clusterMemberDecode buffer bufferSize).result memory =
      if bufferSize < 2 * 4 + 2 then .error PittacusError.bufferNotEnough.code
      else (decodedBytes (10 + (memberAt memory buffer).addressLen.toNat)
        (memberAt memory buffer)).result memory := by
  simp only [clusterMemberDecode, result_ite, result_fail, result_bind, uint16Decode_result,
    uint32Decode_result]
  rfl

theorem vectorClockRecordDecode_result (memory : Nat → UInt8) {bufferSize : Nat} (buffer : Nat)
    (long : vectorRecordSize ≤ bufferSize) :
    (vectorClockRecordDecode buffer bufferSize).result memory =
      .ok (vectorRecordSize, recordAt memory buffer) := by
  simp only [vectorClockRecordDecode, if_neg (Nat.not_lt.mpr long), result_bind,
    uint32Decode_result, result_bytesAt]
  rfl

/-- Any number of versions is read, as far as the buffer reaches. -/
theorem vectorClockRecordsDecode_result (memory : Nat → UInt8) (bufferEnd : Nat) (count : Nat)
    (cursor : Nat) (room : cursor + count * 12 ≤ bufferEnd) :
    (vectorClockRecordsDecode bufferEnd cursor count).result memory =
      .ok (recordsAt memory cursor count) := by
  induction count generalizing cursor with
  | zero => rfl
  | succ count ih =>
    have left : Words.toSize ((bufferEnd : Int) - (cursor : Int)) = bufferEnd - cursor :=
      Words.toSize_sub (by omega)
    -- There is room for the records left, so for the next one.
    have long : vectorRecordSize ≤ bufferEnd - cursor := by
      simp only [vectorRecordSize, memberIdSize]
      omega
    have first := vectorClockRecordDecode_result memory cursor long
    have rest := ih (cursor + 12) (by omega)
    simp only [vectorClockRecordsDecode, left, result_bind, first]
    rw [show cursor + vectorRecordSize = cursor + 12 from rfl, rest, recordsAt_succ]
    rfl

/-- A clock is read if the buffer holds as many records as it counts. -/
theorem vectorClockDecode_result (memory : Nat → UInt8) (buffer bufferSize : Nat)
    (prior : VectorClock) (long : 2 ≤ bufferSize) :
    (vectorClockDecode buffer bufferSize prior).result memory =
      if bufferSize < 2 + (uint16At memory buffer).toNat * 12 then
        .error PittacusError.bufferNotEnough.code
      else
        .ok (2 + (uint16At memory buffer).toNat * 12,
          { size := (uint16At memory buffer).toNat
            currentIdx := 0
            records := recordsAt memory (buffer + 2) (uint16At memory buffer).toNat ++
              prior.records.drop (uint16At memory buffer).toNat }) := by
  have few := (uint16At memory buffer).toNat_lt
  have left : Words.toSize (((buffer + bufferSize : Nat) : Int) - ((buffer + 2 : Nat) : Int))
      = bufferSize - 2 := by
    rw [Words.toSize_sub (by omega)]
    omega
  simp only [vectorClockDecode, result_bind, uint16Decode_result, left, result_ite, result_fail,
    vectorRecordSize, memberIdSize]
  -- Whether there is room for all records is checked before the first is read.
  by_cases short : bufferSize < 2 + (uint16At memory buffer).toNat * 12
  · rw [if_pos short, if_pos (by omega)]
  · have read := vectorClockRecordsDecode_result memory (buffer + bufferSize)
      (uint16At memory buffer).toNat (buffer + 2) (by omega)
    rw [if_neg short, if_neg (by omega), read]
    simp only
    rw [decodedBytes_of_small (by omega)]
    rfl

/-! ### Fields written and read back -/

theorem uint16At_of_holds {memory : Nat → UInt8} {buffer : Nat} {n : UInt16}
    (held : Holds memory buffer (Words.toBytes 2 n.toNat)) : uint16At memory buffer = n := by
  unfold Holds at held
  rw [Words.toBytes_length] at held
  rw [uint16At, held, uint16_roundTrip]

theorem uint32At_of_holds {memory : Nat → UInt8} {buffer : Nat} {n : UInt32}
    (held : Holds memory buffer (Words.toBytes 4 n.toNat)) : uint32At memory buffer = n := by
  unfold Holds at held
  rw [Words.toBytes_length] at held
  rw [uint32At, held, uint32_roundTrip]

theorem toBytes_uint16At (memory : Nat → UInt8) (buffer : Nat) :
    Words.toBytes 2 (uint16At memory buffer).toNat = slice memory buffer 2 :=
  uint16_bytes (slice_length _ _ _)

theorem toBytes_uint32At (memory : Nat → UInt8) (buffer : Nat) :
    Words.toBytes 4 (uint32At memory buffer).toNat = slice memory buffer 4 :=
  uint32_bytes (slice_length _ _ _)

/-- A member id survives being written and read back. -/
theorem memberId_roundTrip (memberId : UInt64) :
    memberIdOfBytes (memberIdBytes memberId) = memberId := by
  have bound := memberId.toNat_lt
  rw [memberIdOfBytes, memberIdBytes, List.reverse_reverse, Words.ofBytes_toBytes,
    Nat.mod_eq_of_lt (by simpa using bound), UInt64.ofNat_toNat]

/-- Eight bytes survive being read as a member id and written again. -/
theorem memberIdBytes_of {bytes : List UInt8} (width : bytes.length = 8) :
    memberIdBytes (memberIdOfBytes bytes) = bytes := by
  have reversed : bytes.reverse.length = 8 := by rw [List.length_reverse, width]
  have bound := Words.ofBytes_lt bytes.reverse
  rw [reversed] at bound
  rw [memberIdBytes, memberIdOfBytes, UInt64.toNat_ofNat_of_lt' (by simpa using bound), ← reversed,
    Words.toBytes_ofBytes, List.reverse_reverse]

/-- Different bytes are different ids. -/
theorem memberIdOfBytes_injective {bytes other : List UInt8} (width : bytes.length = 8)
    (width_ : other.length = 8) (same : memberIdOfBytes bytes = memberIdOfBytes other) :
    bytes = other := by
  rw [← memberIdBytes_of width, same, memberIdBytes_of width_]

/-- A header that lies in memory is found there. -/
theorem headerAt_of_holds {memory : Nat → UInt8} {header : MessageHeader}
    (held : Holds memory 0 header.wire) : headerAt memory = header := by
  rw [MessageHeader.wire, holds_append, holds_append, holds_append] at held
  obtain ⟨id, type, reserved, sequenceNum⟩ := held
  simp only [Vector.length_toList, List.length_singleton, Words.toBytes_length] at type reserved sequenceNum
  -- The header on the wire is split into its four fields.
  have named : slice memory 0 5 = header.protocolId.toList := by
    simpa [Holds] using id
  have typed : memory 5 = header.messageType := by
    simpa [Holds] using type
  rw [headerAt, named, typed, uint16At_of_holds reserved, uint32At_of_holds sequenceNum]
  congr 1
  apply Vector.ext
  intro i inside
  simp

/-- The bytes of the header found in memory are those that lie there. -/
theorem headerAt_wire (memory : Nat → UInt8) : (headerAt memory).wire = slice memory 0 12 := by
  have id : (headerAt memory).protocolId.toList = slice memory 0 5 := by
    simp [headerAt, slice, Vector.ofFn, List.range']
  rw [MessageHeader.wire, id]
  simp only [headerAt, toBytes_uint16At, toBytes_uint32At]
  rw [show 12 = 5 + (1 + (2 + 4)) from rfl, slice_add, slice_add, slice_add, slice_one]

/-- A member that lies in memory is found there. -/
theorem memberAt_of_holds {memory : Nat → UInt8} {buffer : Nat} {member : ClusterMember}
    (held : Holds memory buffer member.wire) :
    (memberAt memory buffer).load memory = member ∧
      (memberAt memory buffer).addressLen = member.addressLen := by
  rw [ClusterMember.wire, holds_append, holds_append, holds_append] at held
  obtain ⟨version, uid, addressLen, address⟩ := held
  simp only [Words.toBytes_length] at uid addressLen address
  have length := uint32At_of_holds addressLen
  refine ⟨?_, length⟩
  -- The address is read where it lies, as far as its length says.
  have bytes : slice memory (buffer + 10) member.addressLen.toNat = member.address := by
    rw [ClusterMember.addressLen_toNat]
    exact address
  simp only [ClusterMemberRef.load, memberAt, uint16At_of_holds version, uint32At_of_holds uid,
    length, bytes]

/-- The bytes of the member found in memory are those that lie there. -/
theorem memberAt_wire (memory : Nat → UInt8) (buffer : Nat) :
    ((memberAt memory buffer).load memory).wire =
      slice memory buffer (10 + (memberAt memory buffer).addressLen.toNat) := by
  -- The address loaded is as long as the length field says.
  have length : ((memberAt memory buffer).load memory).addressLen
      = (memberAt memory buffer).addressLen := by
    apply UInt32.toNat_inj.mp
    rw [ClusterMember.addressLen_toNat]
    exact slice_length _ _ _
  rw [ClusterMember.wire, length]
  simp only [ClusterMemberRef.load, memberAt, toBytes_uint16At, toBytes_uint32At]
  rw [show 10 + (uint32At memory (buffer + 6)).toNat
      = 2 + (4 + (4 + (uint32At memory (buffer + 6)).toNat)) from by omega,
    slice_add, slice_add, slice_add]

/-- A version that lies in memory is found there. -/
theorem recordAt_of_holds {memory : Nat → UInt8} {buffer : Nat} {record : VectorRecord}
    (held : Holds memory buffer record.wire) : recordAt memory buffer = record := by
  rw [VectorRecord.wire, holds_append] at held
  obtain ⟨sequenceNumber, memberId⟩ := held
  simp only [Words.toBytes_length] at memberId
  have bytes : slice memory (buffer + 4) 8 = memberIdBytes record.memberId := by
    simpa [Holds] using memberId
  rw [recordAt, uint32At_of_holds sequenceNumber, bytes, memberId_roundTrip]

/-- The bytes of the version found in memory are those that lie there. -/
theorem recordAt_wire (memory : Nat → UInt8) (buffer : Nat) :
    (recordAt memory buffer).wire = slice memory buffer 12 := by
  rw [VectorRecord.wire]
  simp only [recordAt, toBytes_uint32At, memberIdBytes_of (slice_length memory (buffer + 4) 8)]
  rw [show 12 = 4 + 8 from rfl, slice_add]

@[simp] theorem recordsAt_length (memory : Nat → UInt8) (cursor count : Nat) :
    (recordsAt memory cursor count).length = count := by simp [recordsAt]

/-- Versions that lie in memory one after the other are found there. -/
theorem recordsAt_of_holds {memory : Nat → UInt8} (records : List VectorRecord) (cursor : Nat)
    (held : Holds memory cursor (records.flatMap VectorRecord.wire)) :
    recordsAt memory cursor records.length = records := by
  induction records generalizing cursor with
  | nil => rfl
  | cons record rest ih =>
    rw [List.flatMap_cons, holds_append, VectorRecord.wire_length] at held
    rw [List.length_cons, recordsAt_succ, recordAt_of_holds held.1, ih _ held.2]

/-- The bytes of the versions found in memory are those that lie there. -/
theorem recordsAt_wire (memory : Nat → UInt8) (cursor count : Nat) :
    (recordsAt memory cursor count).flatMap VectorRecord.wire = slice memory cursor (count * 12) := by
  induction count generalizing cursor with
  | zero => simp [recordsAt, slice]
  | succ count ih =>
    rw [recordsAt_succ, List.flatMap_cons, recordAt_wire, ih,
      show (count + 1) * 12 = 12 + count * 12 from by omega, slice_add]

end Pittacus
