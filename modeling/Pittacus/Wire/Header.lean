import Pittacus.Messages

/-! The checks every decoder starts with. -/

namespace Pittacus

/-- The buffer starts with a whole header of this protocol, and of the given type. -/
def Announces (memory : Nat → UInt8) (bufferSize : Nat) (type : UInt8) : Prop :=
  messageHeaderSize ≤ bufferSize ∧ memory 5 = type ∧ Decoder.slice memory 0 5 = protocolId

instance (memory : Nat → UInt8) (bufferSize : Nat) (type : UInt8) :
    Decidable (Announces memory bufferSize type) :=
  inferInstanceAs (Decidable (_ ∧ _ ∧ _))

/-- The type of a message is the sixth byte of a whole header. -/
theorem messageTypeDecode_result (memory : Nat → UInt8) (bufferSize : Nat) :
    (messageTypeDecode bufferSize).result memory =
      if bufferSize < messageHeaderSize then .error PittacusError.bufferNotEnough.code
      else .ok (memory 5) := by
  simp only [messageTypeDecode, Decoder.result_ite, Decoder.result_fail, Decoder.result_bind,
    Decoder.result_bytesAt, Decoder.result_pure]
  rfl

/-- The type of a message that is announced is read off its header. -/
theorem messageTypeDecode_announced {memory : Nat → UInt8} {bufferSize : Nat} {type : UInt8}
    (announced : Announces memory bufferSize type) :
    (messageTypeDecode bufferSize).result memory = .ok type := by
  rw [messageTypeDecode_result, if_neg (Nat.not_lt.mpr announced.1), announced.2.1]

/-- A decoder goes on exactly when the buffer announces its type. -/
theorem returnIfInvalidPayload_result {α : Type} (memory : Nat → UInt8) (bufferSize : Nat)
    (type : UInt8) (decode : Decoder Int α) :
    (returnIfInvalidPayload bufferSize type decode).result memory =
      if Announces memory bufferSize type then decode.result memory
      else .error PittacusError.invalidMessage.code := by
  simp only [returnIfInvalidPayload, Decoder.result_ite, Decoder.result_fail, Decoder.result_bind,
    messageTypeDecode_result, Announces]
  -- Three checks stand in a row, and each of them fails with the same error.
  by_cases short : bufferSize < messageHeaderSize
  · simp [short, Nat.not_le.mpr short]
  · have long : messageHeaderSize ≤ bufferSize := Nat.not_lt.mp short
    simp only [if_neg short, long, true_and, Decoder.result_bytesAt, protocolIdLength]
    by_cases typed : memory 5 = type
    · by_cases named : Decoder.slice memory 0 5 = protocolId
      · simp [typed, named]
      · simp [typed, named]
    · simp [typed]

/-- Whatever a decoder accepts announces its type. -/
theorem announces_of_accepted {α : Type} {memory : Nat → UInt8} {bufferSize : Nat} {type : UInt8}
    {decode : Decoder Int α} {answer : α}
    (accepted : (returnIfInvalidPayload bufferSize type decode).result memory = .ok answer) :
    Announces memory bufferSize type ∧ decode.result memory = .ok answer := by
  rw [returnIfInvalidPayload_result] at accepted
  split at accepted
  · exact ⟨‹_›, accepted⟩
  · cases accepted

/-- A whole header decodes to its fields. -/
theorem messageHeaderDecode_result (memory : Nat → UInt8) {bufferSize : Nat}
    (long : messageHeaderSize ≤ bufferSize) :
    (messageHeaderDecode bufferSize).result memory =
      .ok (messageHeaderSize,
        { protocolId := Vector.ofFn fun i => (Decoder.slice memory 0 5).getD i 0
          messageType := memory 5
          reserved := UInt16.ofNat (Words.ofBytes (Decoder.slice memory 6 2))
          sequenceNum := UInt32.ofNat (Words.ofBytes (Decoder.slice memory 8 4)) }) := by
  simp only [messageHeaderDecode, if_neg (Nat.not_lt.mpr long), Decoder.result_bind,
    Decoder.result_bytesAt, Decoder.result_pure, uint16Decode, uint32Decode, protocolIdLength]
  rfl

end Pittacus
