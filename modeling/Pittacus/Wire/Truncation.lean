import Pittacus.Wire.Acceptance

/-! Where the decoders of acknowledgements, payloads and statuses look, for every datagram. -/

namespace Pittacus

open Decoder

/-- A record is read only where it fits. -/
theorem within_vectorClockRecordDecode {limit buffer bufferSize : Nat}
    (fits : vectorRecordSize ≤ bufferSize → buffer + vectorRecordSize ≤ limit)
    (memory : Nat → UInt8) : (vectorClockRecordDecode buffer bufferSize).Within limit memory := by
  unfold vectorClockRecordDecode
  split
  · exact within_fail _ _ _
  · rename_i long
    have room : buffer + 12 ≤ limit := fits (Nat.le_of_not_lt long)
    rw [within_bind_of_ok (uint32Decode_result memory buffer),
      within_bind_of_ok (result_bytesAt _ _ _)]
    exact ⟨within_uint32Decode (by omega) memory,
      within_bytesAt (by simp only [memberIdSize]; omega) memory, within_decodedBytes _ _ _ _⟩

/-- Records that end inside the buffer are read inside it. -/
theorem within_vectorClockRecordsDecode {limit : Nat} (memory : Nat → UInt8) (count cursor : Nat)
    (room : cursor + count * vectorRecordSize ≤ limit) :
    (vectorClockRecordsDecode limit cursor count).Within limit memory := by
  -- Each record leaves the room of one record less for the others.
  induction count generalizing cursor with
  | zero => exact within_pure _ _ _
  | succ count ih =>
    rw [Nat.succ_mul] at room
    have left : Words.toSize ((limit : Int) - cursor) = limit - cursor :=
      Words.toSize_sub (by omega)
    have first : (vectorClockRecordDecode cursor (Words.toSize ((limit : Int) - cursor))).Within
        limit memory := within_vectorClockRecordDecode (fun _ => by omega) memory
    have found := vectorClockRecordDecode_result memory cursor
      (show vectorRecordSize ≤ Words.toSize ((limit : Int) - cursor) by rw [left]; omega)
    have others := ih (cursor + vectorRecordSize) (by omega)
    rw [vectorClockRecordsDecode, within_bind_of_ok found]
    refine ⟨first, ?_⟩
    cases read : (vectorClockRecordsDecode limit (cursor + vectorRecordSize) count).result
        memory with
    | error code => exact (within_bind_of_error read _).mpr others
    | ok records => exact (within_bind_of_ok read _).mpr ⟨others, within_pure _ _ _⟩

/-- A clock whose count fits the buffer is read inside it. -/
theorem within_vectorClockDecode {buffer bufferSize : Nat} (prior : VectorClock)
    (long : 2 ≤ bufferSize) (memory : Nat → UInt8) :
    (vectorClockDecode buffer bufferSize prior).Within (buffer + bufferSize) memory := by
  have left : Words.toSize (((buffer + bufferSize : Nat) : Int) - ((buffer + 2 : Nat) : Int))
      = buffer + bufferSize - (buffer + 2) := Words.toSize_sub (by omega)
  simp only [vectorClockDecode]
  rw [within_bind_of_ok (uint16Decode_result memory buffer)]
  refine ⟨within_uint16Decode (by omega) memory, ?_⟩
  split
  · exact within_fail _ _ _
  · -- The number of records was checked against the bytes that are left.
    rename_i enough
    rw [left] at enough
    have records : (vectorClockRecordsDecode (buffer + bufferSize) (buffer + 2)
        (uint16At memory buffer).toNat).Within (buffer + bufferSize) memory :=
      within_vectorClockRecordsDecode memory _ _ (by omega)
    cases read : (vectorClockRecordsDecode (buffer + bufferSize) (buffer + 2)
        (uint16At memory buffer).toNat).result memory with
    | error code => exact (within_bind_of_error read _).mpr records
    | ok found => exact (within_bind_of_ok read _).mpr ⟨records, within_decodedBytes _ _ _ _⟩

/-- An acknowledgement is never read past the end of its datagram. -/
theorem within_messageAckDecode (memory : Nat → UInt8) (length : Nat) :
    (messageAckDecode length).Within length memory := by
  rw [messageAckDecode, within_returnIfInvalidPayload]
  intro announced
  by_cases short : length < messageHeaderSize + 4
  · rw [if_pos short]
    exact within_fail _ _ _
  · have long : 16 ≤ length := Nat.not_lt.mp short
    rw [if_neg short, within_bind_of_ok (headerDecode_result memory announced.1),
      within_bind_of_ok (uint32Decode_result memory messageHeaderSize)]
    exact ⟨within_messageHeaderDecode announced.1 memory,
      within_uint32Decode (by simp only [messageHeaderSize]; omega) memory,
      within_decodedBytes _ _ _ _⟩

/-- A status is never read past the end of its datagram. -/
theorem within_messageStatusDecode (memory : Nat → UInt8) (length : Nat) (prior : VectorClock) :
    (messageStatusDecode length prior).Within length memory := by
  rw [messageStatusDecode, within_returnIfInvalidPayload]
  intro announced
  by_cases short : length < messageHeaderSize + 2
  · rw [if_pos short]
    exact within_fail _ _ _
  · have long : 14 ≤ length := Nat.not_lt.mp short
    have left : Words.toSize ((length : Int) - (messageHeaderSize : Nat))
        = length - messageHeaderSize := Words.toSize_sub announced.1
    have whole : messageHeaderSize + (length - messageHeaderSize) = length :=
      Nat.add_sub_cancel' announced.1
    -- The clock is given what is left of the datagram, and checks its count against that.
    have clock : (vectorClockDecode messageHeaderSize (length - messageHeaderSize) prior).Within
        (messageHeaderSize + (length - messageHeaderSize)) memory :=
      within_vectorClockDecode prior (by simp only [messageHeaderSize]; omega) memory
    rw [whole, ← left] at clock
    rw [if_neg short, within_bind_of_ok (headerDecode_result memory announced.1)]
    refine ⟨within_messageHeaderDecode announced.1 memory, ?_⟩
    cases read : (vectorClockDecode messageHeaderSize
        (Words.toSize ((length : Int) - (messageHeaderSize : Nat))) prior).result memory with
    | error code => exact (within_bind_of_error read _).mpr clock
    | ok found => exact (within_bind_of_ok read _).mpr ⟨clock, within_decodedBytes _ _ _ _⟩

/-- A data message that ends inside the field with the size of its payload. -/
def SizeCut (memory : Nat → UInt8) (length : Nat) : Prop :=
  Announces memory length messageDataType ∧ (length = 24 ∨ length = 25)

/-- The size of a payload is read where it stands, inside the datagram or not. -/
theorem within_uint16Decode_iff {limit buffer : Nat} (memory : Nat → UInt8) :
    (uint16Decode buffer).Within limit memory ↔ buffer + 2 ≤ limit := by
  refine ⟨fun within => ?_, fun fits => within_uint16Decode fits memory⟩
  have last : buffer + 1 ∈ (uint16Decode buffer).reads memory := by
    rw [uint16Decode, reads_bind_of_ok rfl]
    exact List.mem_append_left _ (List.mem_range'_1.mpr ⟨by omega, by omega⟩)
  have inside := within (buffer + 1) last
  omega

/-- A data message is read past its end exactly when it ends inside the size of its payload. -/
theorem within_messageDataDecode_iff (memory : Nat → UInt8) (length : Nat) :
    (messageDataDecode length).Within length memory ↔ ¬SizeCut memory length := by
  rw [messageDataDecode, within_returnIfInvalidPayload, SizeCut, not_and]
  refine forall_congr' fun announced => ?_
  have headed : 12 ≤ length := announced.1
  have left : Words.toSize ((length : Int) - ((12 : Nat) : Int)) = length - 12 :=
    Words.toSize_sub headed
  have header := within_messageHeaderDecode announced.1 memory
  have record : (vectorClockRecordDecode 12 (length - 12)).Within length memory :=
    within_vectorClockRecordDecode (fun fits => by simp only [vectorRecordSize] at fits ⊢; omega)
      memory
  rw [within_bind_of_ok (headerDecode_result memory announced.1)]
  simp only [left]
  by_cases short : length - 12 < vectorRecordSize
  · -- The record is refused before anything behind it is looked at.
    have refused : (vectorClockRecordDecode 12 (length - 12)).result memory
        = .error PittacusError.bufferNotEnough.code := by
      rw [vectorClockRecordDecode, if_pos short, result_fail]
    have before : length - 12 < 12 := short
    rw [within_bind_of_error refused]
    exact iff_of_true ⟨header, record⟩ (by omega)
  · have behind : 12 ≤ length - 12 := Nat.le_of_not_lt short
    have found := vectorClockRecordDecode_result memory 12 (Nat.le_of_not_lt short)
    rw [within_bind_of_ok found, within_bind_of_ok (uint16Decode_result memory _),
      within_uint16Decode_iff]
    have cursor : 12 + vectorRecordSize = 24 := rfl
    rw [cursor]
    constructor
    · rintro ⟨-, -, size, -⟩
      omega
    · intro whole
      refine ⟨header, record, by omega, ?_⟩
      by_cases other : length ≠ messageHeaderSize + vectorRecordSize + 2 + (uint16At memory 24).toNat
      · rw [if_pos other]
        exact within_fail _ _ _
      · rw [if_neg other]
        exact (within_bind_of_ok (result_pointAt _ _ _) _).mpr
          ⟨within_pointAt _ _ _ _, within_decodedBytes _ _ _ _⟩

/-! ### Whole datagrams -/

/-- A decoder looks at no position past the end, and accepts at most as many bytes as there are. -/
structure KeepsToDatagram {α : Type} (decoder : Decoder Int (Nat × α)) (length : Nat)
    (memory : Nat → UInt8) : Prop where
  within : decoder.Within length memory
  counted : ∀ count message, decoder.result memory = .ok (count, message) → count ≤ length

theorem messageAckDecode_keeps (memory : Nat → UInt8) (length : Nat) :
    KeepsToDatagram (messageAckDecode length) length memory := by
  refine ⟨within_messageAckDecode memory length, fun count message accepted => ?_⟩
  rw [messageAckDecode_result] at accepted
  split at accepted
  · cases accepted
  · split at accepted
    · cases accepted
    · cases accepted
      omega

theorem messageStatusDecode_keeps (memory : Nat → UInt8) (length : Nat) (prior : VectorClock) :
    KeepsToDatagram (messageStatusDecode length prior) length memory := by
  refine ⟨within_messageStatusDecode memory length prior, fun count message accepted => ?_⟩
  rw [messageStatusDecode_result] at accepted
  split at accepted
  · cases accepted
  · split at accepted
    · cases accepted
    · cases accepted
      omega

/-- An accepted data message takes the whole datagram, and its payload is the end of it. -/
theorem messageDataDecode_ends {bytes : List UInt8} {beyond : Nat → UInt8} {count : Nat}
    {msg : MessageData}
    (accepted : (messageDataDecode bytes.length).result (memoryOf bytes beyond)
      = .ok (count, msg)) :
    count = bytes.length ∧ 26 + msg.data.length = bytes.length ∧ msg.data = bytes.drop 26 := by
  rw [messageDataDecode_result] at accepted
  split at accepted
  · cases accepted
  · split at accepted
    · cases accepted
    · rename_i whole
      rw [not_not] at whole
      cases accepted
      -- The size that was read is the number of bytes behind it.
      have payload : (dataAt (memoryOf bytes beyond)).data = (bytes.drop 26).take
          (uint16At (memoryOf bytes beyond) 24).toNat :=
        slice_memoryOf beyond (Nat.le_of_eq whole.symm)
      have all : (bytes.drop 26).length = (uint16At (memoryOf bytes beyond) 24).toNat := by
        rw [List.length_drop]
        omega
      rw [← all, List.take_length] at payload
      refine ⟨rfl, ?_, payload⟩
      rw [payload, all]
      exact whole.symm

/--
The three decoders keep to the datagram unless it ends inside the size of a payload.

The fixed fields of every other message are read only once they are known to be there.
-/
theorem keepToDatagram_iff (bytes : List UInt8) (beyond : Nat → UInt8) (prior : VectorClock) :
    (KeepsToDatagram (messageAckDecode bytes.length) bytes.length (memoryOf bytes beyond) ∧
      KeepsToDatagram (messageStatusDecode bytes.length prior) bytes.length
        (memoryOf bytes beyond) ∧
      KeepsToDatagram (messageDataDecode bytes.length) bytes.length (memoryOf bytes beyond) ∧
      ∀ count msg,
        (messageDataDecode bytes.length).result (memoryOf bytes beyond) = .ok (count, msg) →
          count = bytes.length ∧ 26 + msg.data.length = bytes.length ∧
            msg.data = bytes.drop 26) ↔
      ¬SizeCut (memoryOf bytes beyond) bytes.length := by
  -- Only the data decoder can leave the datagram, when it ends inside the size field.
  rw [← within_messageDataDecode_iff]
  constructor
  · rintro ⟨-, -, data, -⟩
    exact data.within
  · intro within
    refine ⟨messageAckDecode_keeps _ _, messageStatusDecode_keeps _ _ _, ⟨within, ?_⟩,
      fun _ _ accepted => messageDataDecode_ends accepted⟩
    intro count msg accepted
    exact Nat.le_of_eq (messageDataDecode_ends accepted).1

/-- A data message cut behind its record; the size of its payload would be the next two bytes. -/
def cutData : List UInt8 := headerOf messageDataType ++ List.replicate 12 0

/-- Cut there, a data message is refused only after its size was read behind it. -/
theorem cutData_not_kept :
    cutData.length = 24 ∧
      ¬KeepsToDatagram (messageDataDecode cutData.length) cutData.length
        (memoryOf cutData fun _ => 0) :=
  ⟨by decide +kernel, fun kept => absurd (kept.within 25 (by decide +kernel)) (by decide +kernel)⟩

end Pittacus
