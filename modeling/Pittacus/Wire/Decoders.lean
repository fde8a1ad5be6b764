import Pittacus.Wire.Fields

/-! What each decoder answers, in terms of the fields that lie in memory. -/

namespace Pittacus

open Decoder

/-- A byte count as it comes back in a C `int`, a negative one being an error. -/
def narrow (count : Nat) : Except Int Nat :=
  if Words.toInt count < 0 then .error (Words.toInt count) else .ok (Words.toInt count).toNat

/-- A count that an `int` holds comes back as it is. -/
theorem narrow_of_small {count : Nat} (small : count < 2 ^ 31) : narrow count = .ok count := by
  have same := Words.toInt_of_small (Int.natCast_nonneg count) (by exact_mod_cast small)
  rw [narrow, same, if_neg (by omega), Int.toNat_natCast]

theorem decodedBytes_result {α : Type} (memory : Nat → UInt8) (count : Nat) (value : α) :
    (decodedBytes count value).result memory = (narrow count).map fun bytes => (bytes, value) := by
  simp only [decodedBytes, narrow, result_ite, result_fail, result_pure]
  split <;> rfl

/-- What follows a count that fits is decided by the count. -/
theorem ok_bind {α β : Type} (answer : α) (next : α → Except Int β) :
    (Except.ok answer).bind next = next answer := rfl

/-- An answer computed from a count comes from a count that fits. -/
theorem map_eq_ok {α β : Type} {answer : Except Int α} {make : α → β} {made : β}
    (mapped : answer.map make = .ok made) : ∃ found, answer = .ok found ∧ make found = made := by
  cases answer with
  | error code => cases mapped
  | ok found =>
    cases mapped
    exact ⟨found, rfl, rfl⟩

/-- What follows a count answers only if the count fits. -/
theorem bind_eq_ok {α β : Type} {answer : Except Int α} {next : α → Except Int β} {made : β}
    (bound : answer.bind next = .ok made) : ∃ found, answer = .ok found ∧ next found = .ok made := by
  cases answer with
  | error code => cases bound
  | ok found => exact ⟨found, rfl, bound⟩

/-- An answer behind two checks has passed them both. -/
theorem ok_of_checked {α : Type} {first second : Prop} [Decidable first] [Decidable second]
    {code other : Int} {rest : Except Int α} {answer : α}
    (accepted : (if first then .error code else if second then .error other else rest)
      = .ok answer) :
    ¬first ∧ ¬second ∧ rest = .ok answer := by
  split at accepted
  · cases accepted
  split at accepted
  · cases accepted
  exact ⟨‹¬first›, ‹¬second›, accepted⟩

/-- A member is read whenever its fixed fields fit, wherever its address ends. -/
theorem clusterMemberDecode_narrow (memory : Nat → UInt8) {buffer bufferSize : Nat}
    (room : 10 ≤ bufferSize) :
    (clusterMemberDecode buffer bufferSize).result memory =
      (narrow (10 + (memberAt memory buffer).addressLen.toNat)).map fun bytes =>
        (bytes, memberAt memory buffer) := by
  rw [clusterMemberDecode_result, if_neg (by omega), decodedBytes_result]

/-- A member behind other fields ends the message. -/
theorem memberLast_result {α : Type} (memory : Nat → UInt8) (cursor : Nat) {bufferSize : Nat}
    (room : 10 ≤ bufferSize) (message : ClusterMemberRef → α) :
    (do
      let (memberBytes, member) ← clusterMemberDecode cursor bufferSize
      decodedBytes (cursor + memberBytes) (message member)).result memory =
      (narrow (10 + (memberAt memory cursor).addressLen.toNat)).bind fun memberBytes =>
        (narrow (cursor + memberBytes)).map fun bytes =>
          (bytes, message (memberAt memory cursor)) := by
  have read : (clusterMemberDecode cursor bufferSize).result memory = _ :=
    clusterMemberDecode_narrow memory room
  -- The size of the member is an `int` of its own before it is added to the cursor.
  cases narrowed : narrow (10 + (memberAt memory cursor).addressLen.toNat) with
  | error code =>
    rw [narrowed] at read
    exact result_bind_of_error read _
  | ok memberBytes =>
    rw [narrowed] at read
    rw [result_bind_of_ok read, ok_bind]
    exact decodedBytes_result memory (cursor + memberBytes) (message (memberAt memory cursor))

/-- A hello is its header and a member behind it. -/
theorem messageHelloDecode_result (memory : Nat → UInt8) (bufferSize : Nat) :
    (messageHelloDecode bufferSize).result memory =
      if ¬Announces memory bufferSize messageHelloType then
        .error PittacusError.invalidMessage.code
      else if bufferSize < 28 then .error PittacusError.bufferNotEnough.code
      else (narrow (10 + (memberAt memory 12).addressLen.toNat)).bind fun memberBytes =>
        (narrow (12 + memberBytes)).map fun bytes =>
          (bytes, ⟨headerAt memory, memberAt memory 12⟩) := by
  rw [messageHelloDecode, returnIfInvalidPayload_result, ite_not]
  by_cases announced : Announces memory bufferSize messageHelloType
  · rw [if_pos announced, if_pos announced, result_ite, result_fail,
      show messageHeaderSize + clusterMemberStructSize - pointerSize = 28 from rfl]
    by_cases short : bufferSize < 28
    · rw [if_pos short, if_pos short]
    · -- The room asked for is more than the fixed part of a member takes.
      have room : 10 ≤ bufferSize - 12 := by omega
      rw [if_neg short, if_neg short, result_bind_of_ok (headerDecode_result memory announced.1)]
      exact memberLast_result memory 12 room (MessageHello.mk (headerAt memory))
  · rw [if_neg announced, if_neg announced]

/-- A welcome is its header, a sequence number, and a member behind these. -/
theorem messageWelcomeDecode_result (memory : Nat → UInt8) (bufferSize : Nat) :
    (messageWelcomeDecode bufferSize).result memory =
      if ¬Announces memory bufferSize messageWelcomeType then
        .error PittacusError.invalidMessage.code
      else if bufferSize < 32 then .error PittacusError.bufferNotEnough.code
      else (narrow (10 + (memberAt memory 16).addressLen.toNat)).bind fun memberBytes =>
        (narrow (16 + memberBytes)).map fun bytes =>
          (bytes, ⟨headerAt memory, uint32At memory 12, memberAt memory 16⟩) := by
  rw [messageWelcomeDecode, returnIfInvalidPayload_result, ite_not]
  by_cases announced : Announces memory bufferSize messageWelcomeType
  · -- The room asked for is that of the struct without its pointer, so the fixed part is there.
    rw [if_pos announced, if_pos announced, result_ite, result_fail,
      show messageHeaderSize + 4 + clusterMemberStructSize - pointerSize = 32 from rfl]
    by_cases short : bufferSize < 32
    · rw [if_pos short, if_pos short]
    · have left : Words.toSize ((bufferSize : Int) - ((16 : Nat) : Int)) = bufferSize - 16 :=
        Words.toSize_sub (by omega)
      have room : 10 ≤ bufferSize - 16 := by omega
      have last := memberLast_result memory 16 room
        (MessageWelcome.mk (headerAt memory) (uint32At memory 12))
      rw [← left] at last
      rw [if_neg short, if_neg short, result_bind_of_ok (headerDecode_result memory announced.1),
        result_bind_of_ok (uint32Decode_result memory 12)]
      exact last
  · rw [if_neg announced, if_neg announced]

/-- A member list is its header, a count, and that many members behind it. -/
theorem messageMemberListDecode_result (memory : Nat → UInt8) (bufferSize : Nat) :
    (messageMemberListDecode bufferSize).result memory =
      if ¬Announces memory bufferSize messageMemberListType then
        .error PittacusError.invalidMessage.code
      else if bufferSize < 14 then .error PittacusError.bufferNotEnough.code
      else
        ((clusterMembersDecode bufferSize 14 (uint16At memory 12).toNat).result memory).bind
          fun read => (narrow read.1).map fun bytes =>
            (bytes, ⟨headerAt memory, read.2.1, by rw [read.2.2]; exact UInt16.toNat_lt _⟩) := by
  rw [messageMemberListDecode, returnIfInvalidPayload_result, ite_not]
  by_cases announced : Announces memory bufferSize messageMemberListType
  · rw [if_pos announced, if_pos announced, result_ite, result_fail,
      show messageHeaderSize + 2 = 14 from rfl]
    by_cases short : bufferSize < 14
    · rw [if_pos short, if_pos short]
    · rw [if_neg short, if_neg short, result_bind_of_ok (headerDecode_result memory announced.1),
        result_bind_of_ok (uint16Decode_result memory 12)]
      -- The members decide: their error is passed on, their end becomes the size.
      cases read : (clusterMembersDecode bufferSize 14 (uint16At memory 12).toNat).result memory with
      | error code => exact result_bind_of_error read _
      | ok members =>
        rw [result_bind_of_ok read, ok_bind]
        exact decodedBytes_result memory members.1
          (⟨headerAt memory, members.2.1, by rw [members.2.2]; exact UInt16.toNat_lt _⟩ :
            MessageMemberList ClusterMemberRef)
  · rw [if_neg announced, if_neg announced]

/-- An acknowledgement is its header and a sequence number. -/
theorem messageAckDecode_result (memory : Nat → UInt8) (bufferSize : Nat) :
    (messageAckDecode bufferSize).result memory =
      if ¬Announces memory bufferSize messageAckType then
        .error PittacusError.invalidMessage.code
      else if bufferSize < 16 then .error PittacusError.bufferNotEnough.code
      else .ok (16, ⟨headerAt memory, uint32At memory 12⟩) := by
  rw [messageAckDecode, returnIfInvalidPayload_result, ite_not]
  by_cases announced : Announces memory bufferSize messageAckType
  · rw [if_pos announced, if_pos announced, result_ite, result_fail,
      show messageHeaderSize + 4 = 16 from rfl]
    by_cases short : bufferSize < 16
    · rw [if_pos short, if_pos short]
    · have small : 16 < 2 ^ 31 := by decide
      rw [if_neg short, if_neg short, result_bind_of_ok (headerDecode_result memory announced.1),
        result_bind_of_ok (uint32Decode_result memory messageHeaderSize),
        decodedBytes_of_small small]
      rfl
  · rw [if_neg announced, if_neg announced]

/-- The data message at the start of memory. -/
def dataAt (memory : Nat → UInt8) : MessageData where
  header := headerAt memory
  dataVersion := recordAt memory 12
  data := slice memory 26 (uint16At memory 24).toNat
  bounded := by
    rw [slice_length]
    exact UInt16.toNat_lt _

/-- A data message is its header, a version, a size, and exactly that many bytes. -/
theorem messageDataDecode_result (memory : Nat → UInt8) (bufferSize : Nat) :
    (messageDataDecode bufferSize).result memory =
      if ¬Announces memory bufferSize messageDataType then
        .error PittacusError.invalidMessage.code
      else if bufferSize ≠ 26 + (uint16At memory 24).toNat then
        .error PittacusError.bufferNotEnough.code
      else .ok (bufferSize, dataAt memory) := by
  rw [messageDataDecode, returnIfInvalidPayload_result, ite_not]
  by_cases announced : Announces memory bufferSize messageDataType
  · rw [if_pos announced, if_pos announced]
    have long : 12 ≤ bufferSize := announced.1
    have left : Words.toSize ((bufferSize : Int) - ((12 : Nat) : Int)) = bufferSize - 12 :=
      Words.toSize_sub long
    have few := (uint16At memory 24).toNat_lt
    have total : messageHeaderSize + vectorRecordSize + 2 + (uint16At memory 24).toNat
        = 26 + (uint16At memory 24).toNat := rfl
    simp only [result_bind, headerDecode_result memory announced.1, left]
    by_cases short : bufferSize - 12 < vectorRecordSize
    · -- The version does not fit, and neither does a message of any size.
      have other : bufferSize ≠ 26 + (uint16At memory 24).toNat := by
        simp only [vectorRecordSize, memberIdSize] at short
        omega
      rw [vectorClockRecordDecode, if_pos short, result_fail, if_pos other]
    · have cursor : 12 + vectorRecordSize = 24 := rfl
      rw [vectorClockRecordDecode_result memory 12 (Nat.not_lt.mp short)]
      simp only [cursor, result_bind, uint16Decode_result, total, result_ite, result_fail,
        result_pointAt]
      by_cases exact_ : bufferSize = 26 + (uint16At memory 24).toNat
      · rw [if_neg (not_not.mpr exact_), if_neg (not_not.mpr exact_),
          decodedBytes_of_small (by omega), exact_]
        rfl
      · rw [if_pos exact_, if_pos exact_]
  · rw [if_neg announced, if_neg announced]

/-- The clock at a position, read over a clock of unspecified content. -/
def clockAt (memory : Nat → UInt8) (buffer : Nat) (prior : VectorClock) : VectorClock where
  size := (uint16At memory buffer).toNat
  currentIdx := 0
  records := recordsAt memory (buffer + 2) (uint16At memory buffer).toNat ++
    prior.records.drop (uint16At memory buffer).toNat

/-- The records in use of such a clock are those in memory. -/
theorem clockAt_live (memory : Nat → UInt8) (prior : VectorClock) :
    (clockAt memory 12 prior).live = recordsAt memory 14 (uint16At memory 12).toNat :=
  List.take_left' (recordsAt_length memory 14 _)

/-- A status is its header and a clock with as many records as it counts. -/
theorem messageStatusDecode_result (memory : Nat → UInt8) (bufferSize : Nat)
    (prior : VectorClock) :
    (messageStatusDecode bufferSize prior).result memory =
      if ¬Announces memory bufferSize messageStatusType then
        .error PittacusError.invalidMessage.code
      else if bufferSize < 14 + (uint16At memory 12).toNat * 12 then
        .error PittacusError.bufferNotEnough.code
      else .ok (14 + (uint16At memory 12).toNat * 12, ⟨headerAt memory, clockAt memory 12 prior⟩) := by
  rw [messageStatusDecode, returnIfInvalidPayload_result, ite_not]
  by_cases announced : Announces memory bufferSize messageStatusType
  · rw [if_pos announced, if_pos announced, result_ite, result_fail,
      show messageHeaderSize + 2 = 14 from rfl]
    have few := (uint16At memory 12).toNat_lt
    -- Too short for the count, or for the records counted: the error is the same.
    by_cases short : bufferSize < 14
    · rw [if_pos short, if_pos (by omega)]
    · have left : Words.toSize ((bufferSize : Int) - ((12 : Nat) : Int)) = bufferSize - 12 :=
        Words.toSize_sub (by omega)
      have start : vectorClockDecode messageHeaderSize
          (Words.toSize ((bufferSize : Int) - (messageHeaderSize : Nat))) prior
          = vectorClockDecode 12 (Words.toSize ((bufferSize : Int) - ((12 : Nat) : Int))) prior := rfl
      rw [if_neg short]
      simp only [start, result_bind, headerDecode_result memory announced.1, left]
      rw [vectorClockDecode_result memory 12 (bufferSize - 12) prior (by omega)]
      by_cases lacking : bufferSize < 14 + (uint16At memory 12).toNat * 12
      · rw [if_pos lacking, if_pos (by omega)]
      · rw [if_neg lacking, if_neg (by omega)]
        have small : messageHeaderSize + (2 + (uint16At memory 12).toNat * 12) < 2 ^ 31 := by
          simp only [messageHeaderSize]
          omega
        simp only
        rw [decodedBytes_of_small small, result_pure, ← Nat.add_assoc]
        rfl
  · rw [if_neg announced, if_neg announced]

end Pittacus
