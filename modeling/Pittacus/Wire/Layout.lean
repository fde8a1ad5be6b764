import Pittacus.Messages

/-! The bytes each message consists of, and that the encoders write exactly these. -/

namespace Pittacus

/-! ### Layout -/

/-- The bytes of a header. -/
def MessageHeader.wire (header : MessageHeader) : List UInt8 :=
  header.protocolId.toList ++ ([header.messageType] ++
    (Words.toBytes 2 header.reserved.toNat ++ Words.toBytes 4 header.sequenceNum.toNat))

/-- The bytes of a member, its address included. -/
def ClusterMember.wire (member : ClusterMember) : List UInt8 :=
  Words.toBytes 2 member.version.toNat ++ (Words.toBytes 4 member.uid.toNat ++
    (Words.toBytes 4 member.addressLen.toNat ++ member.address))

/-- The bytes of a version. -/
def VectorRecord.wire (record : VectorRecord) : List UInt8 :=
  Words.toBytes 4 record.sequenceNumber.toNat ++ memberIdBytes record.memberId

/-- The bytes of a clock: the number of records in use, and these records. -/
def VectorClock.wire (clock : VectorClock) : List UInt8 :=
  Words.toBytes 2 (UInt16.ofNat clock.size).toNat ++ clock.live.flatMap VectorRecord.wire

/-- What a message starts with. -/
def Message.header : Message → MessageHeader
  | .hello msg => msg.header
  | .welcome msg => msg.header
  | .memberList msg => msg.header
  | .ack msg => msg.header
  | .data msg => msg.header
  | .status msg => msg.header

/-- The type byte a message is sent under. -/
def Message.type : Message → UInt8
  | .hello _ => messageHelloType
  | .welcome _ => messageWelcomeType
  | .memberList _ => messageMemberListType
  | .ack _ => messageAckType
  | .data _ => messageDataType
  | .status _ => messageStatusType

/-- The header of a message names this protocol and the type of the message. -/
def Message.Typed (message : Message) : Prop :=
  message.header.protocolId.toList = protocolId ∧ message.header.messageType = message.type

/-- The bytes of a message behind its header. -/
def Message.body : Message → List UInt8
  | .hello msg => msg.thisMember.wire
  | .welcome msg => Words.toBytes 4 msg.helloSequenceNum.toNat ++ msg.thisMember.wire
  | .memberList msg =>
    Words.toBytes 2 msg.membersN.toNat ++ msg.members.flatMap ClusterMember.wire
  | .ack msg => Words.toBytes 4 msg.ackSequenceNum.toNat
  | .data msg => msg.dataVersion.wire ++ (Words.toBytes 2 msg.dataSize.toNat ++ msg.data)
  | .status msg => msg.dataVersion.wire

/-- The bytes of a message. -/
def Message.wire (message : Message) : List UInt8 := message.header.wire ++ message.body

/-- The buffer size the encoder of a message insists on. -/
def Message.required : Message → Nat
  | .hello msg =>
    messageHeaderSize + clusterMemberStructSize - pointerSize + msg.thisMember.address.length
  | .welcome msg =>
    messageHeaderSize + 4 + clusterMemberStructSize - pointerSize + msg.thisMember.address.length
  | .memberList msg => messageHeaderSize + 2 + msg.members.length * clusterMemberSize
  | .ack _ => messageHeaderSize + 4
  | .data msg => messageHeaderSize + vectorRecordSize + 2 + msg.data.length
  | .status msg => messageHeaderSize + 2 + msg.dataVersion.size * vectorRecordSize

/-- The members a message carries. -/
def Message.members : Message → List ClusterMember
  | .hello msg => [msg.thisMember]
  | .welcome msg => [msg.thisMember]
  | .memberList msg => msg.members
  | _ => []

/-- A clock whose record count is that of an array within the limit. -/
def VectorClock.Fits (clock : VectorClock) : Prop :=
  clock.size ≤ maxVectorSize ∧ clock.size ≤ clock.records.length

/-- The clock a message carries fits its array. -/
def Message.ClockFits : Message → Prop
  | .status msg => msg.dataVersion.Fits
  | _ => True

/-- Every address a message carries fits the structure for addresses, and so does its clock. -/
def Message.Fits (message : Message) : Prop :=
  (∀ member ∈ message.members, member.address.length ≤ sockaddrStorageSize) ∧ message.ClockFits

/-- Data fits whatever it is. -/
theorem Message.data_fits (msg : MessageData) : (Message.data msg).Fits :=
  ⟨List.forall_mem_nil _, trivial⟩

/-! ### Lengths -/

@[simp] theorem MessageHeader.wire_length (header : MessageHeader) : header.wire.length = 12 := by
  simp [MessageHeader.wire]

@[simp] theorem ClusterMember.wire_length (member : ClusterMember) :
    member.wire.length = 10 + member.address.length := by
  simp only [ClusterMember.wire, List.length_append, Words.toBytes_length]
  omega

@[simp] theorem memberIdBytes_length (memberId : UInt64) : (memberIdBytes memberId).length = 8 := by
  simp [memberIdBytes]

@[simp] theorem VectorRecord.wire_length (record : VectorRecord) : record.wire.length = 12 := by
  simp [VectorRecord.wire]

theorem records_wire_length (records : List VectorRecord) :
    (records.flatMap VectorRecord.wire).length = records.length * 12 := by
  induction records with
  | nil => rfl
  | cons record rest ih =>
    rw [List.flatMap_cons, List.length_append, ih, VectorRecord.wire_length, List.length_cons]
    omega

/-- A clock that fits has as many records in use as it counts. -/
theorem VectorClock.Fits.live_length {clock : VectorClock} (fits : clock.Fits) :
    clock.live.length = clock.size := by
  rw [VectorClock.live, List.length_take]
  exact Nat.min_eq_left fits.2

theorem VectorClock.Fits.wire_length {clock : VectorClock} (fits : clock.Fits) :
    clock.wire.length = 2 + clock.size * 12 := by
  rw [VectorClock.wire, List.length_append, records_wire_length, fits.live_length,
    Words.toBytes_length]

/-- Members with addresses that fit take at most the space set aside for them. -/
theorem members_wire_length {members : List ClusterMember}
    (fits : ∀ member ∈ members, member.address.length ≤ sockaddrStorageSize) :
    (members.flatMap ClusterMember.wire).length ≤ members.length * clusterMemberSize := by
  induction members with
  | nil => exact Nat.zero_le _
  | cons member rest ih =>
    have further := ih fun other member => fits other (List.mem_cons_of_mem _ member)
    have here := fits member List.mem_cons_self
    rw [List.flatMap_cons, List.length_append, ClusterMember.wire_length, List.length_cons]
    simp only [clusterMemberSize, sockaddrStorageSize] at *
    omega

/-- No message is longer than the buffer its encoder insists on. -/
theorem Message.Fits.wire_length_le {message : Message} (fits : message.Fits) :
    message.wire.length ≤ message.required := by
  rw [Message.wire, List.length_append, MessageHeader.wire_length]
  -- Members are counted by the size of their structs; the other messages are counted exactly.
  cases message with
  | hello msg =>
    simp only [Message.body, Message.required, ClusterMember.wire_length, messageHeaderSize,
      clusterMemberStructSize, pointerSize]
    omega
  | welcome msg =>
    simp only [Message.body, Message.required, List.length_append, Words.toBytes_length,
      ClusterMember.wire_length, messageHeaderSize, clusterMemberStructSize, pointerSize]
    omega
  | memberList msg =>
    have members := members_wire_length fits.1
    simp only [Message.members] at members
    simp only [Message.body, Message.required, List.length_append, Words.toBytes_length,
      messageHeaderSize]
    omega
  | ack msg =>
    simp [Message.body, Message.required, messageHeaderSize]
  | data msg =>
    simp only [Message.body, Message.required, List.length_append, Words.toBytes_length,
      VectorRecord.wire_length, messageHeaderSize, vectorRecordSize, memberIdSize]
    omega
  | status msg =>
    have clock := VectorClock.Fits.wire_length fits.2
    simp only [Message.body, Message.required, clock, messageHeaderSize, vectorRecordSize,
      memberIdSize]
    omega

/-- The buffer an encoder insists on is small enough for its size to be an `int`. -/
theorem Message.Fits.required_lt {message : Message} (fits : message.Fits) :
    message.required < 2 ^ 31 := by
  -- Each part counts at most sixteen bits of items, or is bounded by a constant.
  cases message with
  | hello msg =>
    have here := fits.1 msg.thisMember (List.mem_singleton.mpr rfl)
    simp only [Message.required, messageHeaderSize, clusterMemberStructSize, pointerSize,
      sockaddrStorageSize] at *
    omega
  | welcome msg =>
    have here := fits.1 msg.thisMember (List.mem_singleton.mpr rfl)
    simp only [Message.required, messageHeaderSize, clusterMemberStructSize, pointerSize,
      sockaddrStorageSize] at *
    omega
  | memberList msg =>
    have bounded := msg.bounded
    simp only [Message.required, messageHeaderSize, clusterMemberSize, sockaddrStorageSize]
    omega
  | ack msg =>
    simp [Message.required, messageHeaderSize]
  | data msg =>
    have bounded := msg.bounded
    simp only [Message.required, messageHeaderSize, vectorRecordSize, memberIdSize]
    omega
  | status msg =>
    have bounded : msg.dataVersion.size ≤ 20 := fits.2.1
    simp only [Message.required, messageHeaderSize, vectorRecordSize, memberIdSize]
    omega

/-! ### Encoders -/

/-- Bytes written one after the other are written as one string. -/
theorem putAt_then {cursor start : Int} {bytes rest : List UInt8} {next : Unit → Encoder Int Int}
    {answer : Except Int Int} (at_ : start = cursor)
    (follows : next () = ⟨answer, Encoder.located (cursor + bytes.length) rest⟩) :
    Encoder.putAt cursor bytes >>= next = ⟨answer, Encoder.located start (bytes ++ rest)⟩ := by
  rw [Encoder.putAt_bind, follows, Encoder.located_append, at_]

/-- The last bytes written end the string. -/
theorem putAt_last {cursor start : Int} {bytes : List UInt8} {next : Unit → Encoder Int Int}
    {answer : Except Int Int} (at_ : start = cursor) (follows : next () = ⟨answer, []⟩) :
    Encoder.putAt cursor bytes >>= next = ⟨answer, Encoder.located start bytes⟩ := by
  rw [Encoder.putAt_bind, follows, List.append_nil, at_]

/-- What was written before an answer stands in front of what is written after it. -/
theorem located_then {cursor start count : Int} {bytes rest : List UInt8}
    {next : Int → Encoder Int Int} {answer : Except Int Int} (at_ : start = cursor)
    (follows : next count = ⟨answer, Encoder.located (cursor + bytes.length) rest⟩) :
    (⟨.ok count, Encoder.located cursor bytes⟩ : Encoder Int Int) >>= next
      = ⟨answer, Encoder.located start (bytes ++ rest)⟩ := by
  rw [Encoder.ok_bind, follows, Encoder.located_append, at_]

/-- What was written before an answer is all that is written if nothing follows. -/
theorem located_last {cursor start count : Int} {bytes : List UInt8}
    {next : Int → Encoder Int Int} {answer : Except Int Int} (at_ : start = cursor)
    (follows : next count = ⟨answer, []⟩) :
    (⟨.ok count, Encoder.located cursor bytes⟩ : Encoder Int Int) >>= next
      = ⟨answer, Encoder.located start bytes⟩ := by
  rw [Encoder.ok_bind, follows, List.append_nil, at_]

/-- A header is written at the start of the buffer. -/
theorem messageHeaderEncode_eq (header : MessageHeader) {bufferSize : Nat}
    (room : messageHeaderSize ≤ bufferSize) :
    messageHeaderEncode header bufferSize = ⟨.ok 12, Encoder.located 0 header.wire⟩ := by
  rw [messageHeaderEncode, if_neg (Nat.not_lt.mpr room), MessageHeader.wire]
  simp only [uint16Encode, uint32Encode]
  -- The id, the type, the reserved bytes, and the sequence number.
  apply putAt_then
  · rfl
  apply putAt_then
  · simp
  apply putAt_then
  · simp
  apply putAt_last
  · simp
  rfl

/-- A member is written at the cursor if it fits. -/
theorem clusterMemberEncode_eq (member : ClusterMember) (cursor : Int) (bufferSize : Nat)
    (room : 10 + member.address.length ≤ bufferSize)
    (small : 10 + member.address.length < 2 ^ 31) :
    clusterMemberEncode member cursor bufferSize =
      ⟨.ok ((10 + member.address.length : Nat) : Int), Encoder.located cursor member.wire⟩ := by
  have fits : ¬bufferSize < 2 * 4 + 2 + member.addressLen.toNat := by
    rw [ClusterMember.addressLen_toNat]
    omega
  rw [clusterMemberEncode, if_neg fits, ClusterMember.wire]
  -- The version, the uid, the length of the address, and the address itself.
  simp only [uint16Encode, uint32Encode]
  apply putAt_then
  · rfl
  apply putAt_then
  · rw [Words.toBytes_length]
    rfl
  apply putAt_then
  · rw [Words.toBytes_length]
    omega
  apply putAt_last
  · rw [Words.toBytes_length]
    omega
  have count : (10 + member.addressLen.toNat : Int) = ((10 + member.address.length : Nat) : Int) := by
    rw [ClusterMember.addressLen_toNat]
    omega
  rw [count, encodedBytes_of_small small]

/-- A version is written at the cursor. -/
theorem vectorClockRecordEncode_eq (record : VectorRecord) (cursor : Int) (bufferSize : Nat)
    (room : vectorRecordSize ≤ bufferSize) :
    vectorClockRecordEncode record cursor bufferSize =
      ⟨.ok 12, Encoder.located cursor record.wire⟩ := by
  rw [vectorClockRecordEncode, if_neg (Nat.not_lt.mpr room), VectorRecord.wire]
  simp only [uint32Encode]
  -- The number in network order, and the id as it lies in memory.
  apply putAt_then
  · rfl
  apply putAt_last
  · rw [Words.toBytes_length]
    rfl
  rfl

/-- Members that fit together are written one after the other. -/
theorem clusterMembersEncode_room {bufferEnd : Nat} (members : List ClusterMember) (cursor : Nat)
    (room : cursor + (members.flatMap ClusterMember.wire).length ≤ bufferEnd)
    (small : (members.flatMap ClusterMember.wire).length < 2 ^ 31) :
    clusterMembersEncode bufferEnd cursor members =
      ⟨.ok ((cursor + (members.flatMap ClusterMember.wire).length : Nat) : Int),
        Encoder.located cursor (members.flatMap ClusterMember.wire)⟩ := by
  induction members generalizing cursor with
  | nil => rfl
  | cons member rest ih =>
    rw [List.flatMap_cons, List.length_append, ClusterMember.wire_length] at room small
    have left : Words.toSize ((bufferEnd : Int) - (cursor : Int)) = bufferEnd - cursor :=
      Words.toSize_sub (by omega)
    have written := clusterMemberEncode_eq member cursor (bufferEnd - cursor) (by omega) (by omega)
    -- The members left start where this one ends.
    have further := ih (cursor + (10 + member.address.length)) (by omega) (by omega)
    rw [clusterMembersEncode, left, written, Encoder.unchecked_ok, List.flatMap_cons]
    apply located_then
    · rfl
    rw [ClusterMember.wire_length, List.length_append, ClusterMember.wire_length, ← Nat.add_assoc,
      ← Int.natCast_add, further]

/-- Versions are written one after the other. -/
theorem vectorClockRecordsEncode_eq (bufferEnd : Nat) (records : List VectorRecord) (cursor : Nat)
    (room : cursor + records.length * 12 ≤ bufferEnd) :
    vectorClockRecordsEncode bufferEnd cursor records =
      ⟨.ok ((cursor + records.length * 12 : Nat) : Int),
        Encoder.located cursor (records.flatMap VectorRecord.wire)⟩ := by
  induction records generalizing cursor with
  | nil => rfl
  | cons record rest ih =>
    simp only [List.length_cons] at room
    have left : Words.toSize ((bufferEnd : Int) - (cursor : Int)) = bufferEnd - cursor :=
      Words.toSize_sub (by omega)
    -- Each record has its twelve bytes of what is left of the buffer.
    have written := vectorClockRecordEncode_eq record cursor (bufferEnd - cursor)
      (by simp only [vectorRecordSize, memberIdSize]; omega)
    have further := ih (cursor + 12) (by omega)
    have total : cursor + (rest.length + 1) * 12 = cursor + 12 + rest.length * 12 := by omega
    rw [vectorClockRecordsEncode, left, written, List.flatMap_cons]
    apply located_then
    · rfl
    rw [VectorRecord.wire_length, List.length_cons, total]
    exact further

/-- A clock that fits is written at the cursor. -/
theorem vectorClockEncode_eq {clock : VectorClock} (fits : clock.Fits) (cursor : Nat)
    (bufferSize : Nat) (room : 2 + clock.size * 12 ≤ bufferSize) :
    vectorClockEncode clock cursor bufferSize =
      ⟨.ok ((2 + clock.size * 12 : Nat) : Int), Encoder.located cursor clock.wire⟩ := by
  have enough : ¬bufferSize < 2 + clock.size * vectorRecordSize := Nat.not_lt.mpr room
  have few : clock.size ≤ 20 := fits.1
  have records := vectorClockRecordsEncode_eq (cursor + bufferSize) clock.live (cursor + 2)
    (by rw [fits.live_length]; omega)
  -- The count is written first, and the records behind it.
  rw [vectorClockEncode, if_neg enough, VectorClock.wire]
  simp only [uint16Encode]
  apply putAt_then
  · rfl
  rw [Words.toBytes_length]
  have start : ((cursor : Int) + (2 : Nat)) = ((cursor + 2 : Nat) : Int) := by omega
  have stop : ((cursor : Int) + (bufferSize : Int)) = ((cursor + bufferSize : Nat) : Int) := by omega
  have same : ((cursor : Int) + 2) = ((cursor + 2 : Nat) : Int) := by omega
  rw [start, stop, same, records, fits.live_length]
  have count : ((cursor + 2 + clock.size * 12 : Nat) : Int) - (cursor : Int)
      = ((2 + clock.size * 12 : Nat) : Int) := by omega
  rw [Encoder.ok_bind, count, encodedBytes_of_small (by omega), List.append_nil]

/-! ### Whole messages -/

/-- A buffer smaller than a message insists on is left alone. -/
theorem messageEncode_short {message : Message} {bufferSize : Nat}
    (short : bufferSize < message.required) :
    messageEncode message bufferSize = Encoder.fail PittacusError.bufferNotEnough.code := by
  -- Every encoder looks at the room before it writes.
  cases message with
  | hello msg =>
    simp only [Message.required] at short
    rw [messageEncode, messageHelloEncode, ClusterMember.addressLen_toNat, if_pos short]
  | welcome msg =>
    simp only [Message.required] at short
    rw [messageEncode, messageWelcomeEncode, ClusterMember.addressLen_toNat, if_pos short]
  | memberList msg =>
    simp only [Message.required] at short
    rw [messageEncode, messageMemberListEncode, MessageMemberList.membersN_toNat, if_pos short]
  | ack msg => exact if_pos short
  | data msg =>
    simp only [Message.required] at short
    rw [messageEncode, messageDataEncode, MessageData.dataSize_toNat, if_pos short]
  | status msg => exact if_pos short

/-- A member that fits follows what was written before it. -/
theorem memberAfter_eq (member : ClusterMember) (cursor bufferSize : Nat)
    (room : cursor + (10 + member.address.length) ≤ bufferSize)
    (small : cursor + (10 + member.address.length) < 2 ^ 31) :
    (do
      let memberBytes ← Encoder.unchecked
        (clusterMemberEncode member (cursor : Int) (Words.toSize ((bufferSize : Int) - cursor)))
      encodedBytes ((cursor : Int) + memberBytes)) =
      ⟨.ok ((cursor + (10 + member.address.length) : Nat) : Int),
        Encoder.located cursor member.wire⟩ := by
  have left : Words.toSize ((bufferSize : Int) - (cursor : Int)) = bufferSize - cursor :=
    Words.toSize_sub (by omega)
  have written := clusterMemberEncode_eq member cursor (bufferSize - cursor) (by omega) (by omega)
  -- The member's own count moves the cursor to the end of the message.
  have total : ((cursor : Int) + ((10 + member.address.length : Nat) : Int))
      = ((cursor + (10 + member.address.length) : Nat) : Int) := by omega
  have counted := encodedBytes_of_small small
  rw [left, written, Encoder.unchecked_ok]
  apply located_last
  · rfl
  · rw [total, counted]

/-- Every message insists on room for its header. -/
theorem Message.Fits.headed {message : Message} (fits : message.Fits) {bufferSize : Nat}
    (room : message.required ≤ bufferSize) : messageHeaderSize ≤ bufferSize := by
  have shortest := fits.wire_length_le
  rw [Message.wire, List.length_append, MessageHeader.wire_length] at shortest
  simp only [messageHeaderSize]
  omega

section Encoding

variable {bufferSize : Nat}

/-- Behind its header, a hello is this member. -/
theorem messageHelloEncode_eq {msg : MessageHello ClusterMember} (fits : (Message.hello msg).Fits)
    (room : (Message.hello msg).required ≤ bufferSize) :
    messageHelloEncode msg bufferSize =
      ⟨.ok ((Message.hello msg).wire.length : Int), Encoder.located 0 (Message.hello msg).wire⟩ := by
  have header := messageHeaderEncode_eq msg.header (fits.headed room)
  have small := fits.required_lt
  simp only [Message.required, messageHeaderSize, clusterMemberStructSize, pointerSize]
    at room small
  -- The check in front leaves room for the member, whose result is not checked.
  have member := memberAfter_eq msg.thisMember 12 bufferSize (by omega) (by omega)
  have enough : ¬bufferSize < messageHeaderSize + clusterMemberStructSize - pointerSize +
      msg.thisMember.addressLen.toNat := by
    rw [ClusterMember.addressLen_toNat]
    simp only [messageHeaderSize, clusterMemberStructSize, pointerSize]
    omega
  rw [messageHelloEncode, if_neg enough, header]
  apply located_then
  · rfl
  simp only [Message.body, Message.wire, Message.header, List.length_append,
    MessageHeader.wire_length, ClusterMember.wire_length]
  exact member

/-- Behind its header, a welcome is the sequence number of the hello and this member. -/
theorem messageWelcomeEncode_eq {msg : MessageWelcome ClusterMember}
    (fits : (Message.welcome msg).Fits)
    (room : (Message.welcome msg).required ≤ bufferSize) :
    messageWelcomeEncode msg bufferSize =
      ⟨.ok ((Message.welcome msg).wire.length : Int),
        Encoder.located 0 (Message.welcome msg).wire⟩ := by
  have header := messageHeaderEncode_eq msg.header (fits.headed room)
  have small := fits.required_lt
  simp only [Message.required, messageHeaderSize, clusterMemberStructSize, pointerSize]
    at room small
  have member := memberAfter_eq msg.thisMember 16 bufferSize (by omega) (by omega)
  have enough : ¬bufferSize < messageHeaderSize + 4 + clusterMemberStructSize - pointerSize +
      msg.thisMember.addressLen.toNat := by
    rw [ClusterMember.addressLen_toNat]
    simp only [messageHeaderSize, clusterMemberStructSize, pointerSize]
    omega
  rw [messageWelcomeEncode, if_neg enough, header, Encoder.unchecked_ok]
  apply located_then
  · rfl
  simp only [Message.body, Message.wire, Message.header, List.length_append,
    MessageHeader.wire_length, ClusterMember.wire_length, Words.toBytes_length, uint32Encode]
  apply putAt_then
  · rfl
  -- The member starts behind the header and the sequence number.
  rw [Words.toBytes_length]
  have total : 12 + (4 + (10 + msg.thisMember.address.length))
      = 16 + (10 + msg.thisMember.address.length) := by omega
  rw [total]
  exact member

/-- Behind its header, a member list is the number of members and the members. -/
theorem messageMemberListEncode_eq {msg : MessageMemberList ClusterMember}
    (fits : (Message.memberList msg).Fits)
    (room : (Message.memberList msg).required ≤ bufferSize) :
    messageMemberListEncode msg bufferSize =
      ⟨.ok ((Message.memberList msg).wire.length : Int),
        Encoder.located 0 (Message.memberList msg).wire⟩ := by
  have header := messageHeaderEncode_eq msg.header (fits.headed room)
  have small := fits.required_lt
  have sized := fits.wire_length_le
  have enough : ¬bufferSize < messageHeaderSize + 2 + msg.membersN.toNat * clusterMemberSize := by
    rw [MessageMemberList.membersN_toNat]
    exact Nat.not_lt.mpr room
  have filled := members_wire_length fits.1
  simp only [Message.members] at filled
  simp only [Message.required, messageHeaderSize] at room small
  have members := @clusterMembersEncode_room bufferSize msg.members 14 (by omega) (by omega)
  rw [messageMemberListEncode, if_neg enough, header]
  apply located_then
  · rfl
  simp only [Message.body, Message.wire, Message.header, List.length_append,
    MessageHeader.wire_length, Words.toBytes_length, uint16Encode] at sized ⊢
  apply putAt_then
  · rfl
  -- The members start behind the header and their number.
  rw [Words.toBytes_length]
  have total : 12 + (2 + (msg.members.flatMap ClusterMember.wire).length)
      = 14 + (msg.members.flatMap ClusterMember.wire).length := by omega
  rw [total] at sized ⊢
  have start : (12 : Int) + 2 = ((14 : Nat) : Int) := rfl
  have same : (12 : Int) + (2 : Nat) = ((14 : Nat) : Int) := rfl
  rw [start, same, members]
  apply located_last
  · rfl
  · exact encodedBytes_of_small (Nat.lt_of_le_of_lt sized small)

/-- Behind its header, an acknowledgement is a sequence number. -/
theorem messageAckEncode_eq {msg : MessageAck} (fits : (Message.ack msg).Fits)
    (room : (Message.ack msg).required ≤ bufferSize) :
    messageAckEncode msg bufferSize =
      ⟨.ok ((Message.ack msg).wire.length : Int), Encoder.located 0 (Message.ack msg).wire⟩ := by
  have header := messageHeaderEncode_eq msg.header (fits.headed room)
  have enough : ¬bufferSize < messageHeaderSize + 4 := Nat.not_lt.mpr room
  rw [messageAckEncode, if_neg enough, header]
  apply located_then
  · rfl
  simp only [Message.body, Message.wire, Message.header, List.length_append,
    MessageHeader.wire_length, Words.toBytes_length, uint32Encode]
  apply putAt_last
  · rfl
  · rfl

/-- Behind its header, a data message is its version, the size of the payload, and the payload. -/
theorem messageDataEncode_eq {msg : MessageData} (fits : (Message.data msg).Fits)
    (room : (Message.data msg).required ≤ bufferSize) :
    messageDataEncode msg bufferSize =
      ⟨.ok ((Message.data msg).wire.length : Int), Encoder.located 0 (Message.data msg).wire⟩ := by
  have long : 12 ≤ bufferSize := fits.headed room
  have header := messageHeaderEncode_eq msg.header (fits.headed room)
  have small := fits.required_lt
  have enough : ¬bufferSize < messageHeaderSize + vectorRecordSize + 2 + msg.dataSize.toNat := by
    rw [MessageData.dataSize_toNat]
    exact Nat.not_lt.mpr room
  simp only [Message.required, messageHeaderSize, vectorRecordSize, memberIdSize]
    at room small
  have left : Words.toSize ((bufferSize : Int) - 12) = bufferSize - 12 := Words.toSize_sub long
  have version := vectorClockRecordEncode_eq msg.dataVersion 12 (bufferSize - 12)
    (by simp only [vectorRecordSize, memberIdSize]; omega)
  rw [messageDataEncode, if_neg enough, header]
  -- The writes follow each other, so each starts where the length so far ends.
  apply located_then
  · rfl
  rw [left, version, MessageHeader.wire_length]
  apply located_then
  · rfl
  simp only [Message.body, Message.wire, Message.header, List.length_append,
    MessageHeader.wire_length, Words.toBytes_length, uint16Encode, VectorRecord.wire_length]
  apply putAt_then
  · rfl
  apply putAt_last
  · rfl
  · have total : (12 + 12 + 2 + (msg.dataSize.toNat : Int))
        = ((12 + (12 + (2 + msg.data.length)) : Nat) : Int) := by
      rw [MessageData.dataSize_toNat]
      omega
    rw [total]
    exact encodedBytes_of_small (by omega)

/-- Behind its header, a status is a vector clock. -/
theorem messageStatusEncode_eq {msg : MessageStatus} (fits : (Message.status msg).Fits)
    (room : (Message.status msg).required ≤ bufferSize) :
    messageStatusEncode msg bufferSize =
      ⟨.ok ((Message.status msg).wire.length : Int),
        Encoder.located 0 (Message.status msg).wire⟩ := by
  have long : 12 ≤ bufferSize := fits.headed room
  have header := messageHeaderEncode_eq msg.header (fits.headed room)
  have small := fits.required_lt
  have enough : ¬bufferSize < messageHeaderSize + 2 + msg.dataVersion.size * vectorRecordSize :=
    Nat.not_lt.mpr room
  simp only [Message.required, messageHeaderSize, vectorRecordSize, memberIdSize]
    at room small
  have left : Words.toSize ((bufferSize : Int) - 12) = bufferSize - 12 := Words.toSize_sub long
  have clock := vectorClockEncode_eq fits.2 12 (bufferSize - 12) (by omega)
  rw [messageStatusEncode, if_neg enough, header]
  -- The clock is told how much of the buffer is left behind the header.
  apply located_then
  · rfl
  have start : (12 : Int) = ((12 : Nat) : Int) := rfl
  rw [left, start, clock, MessageHeader.wire_length]
  apply located_last
  · rfl
  · simp only [Message.body, Message.wire, Message.header, List.length_append,
      MessageHeader.wire_length, VectorClock.Fits.wire_length fits.2]
    exact encodedBytes_of_small (by omega)

end Encoding

/-- A buffer as large as a message insists on receives its bytes. -/
theorem messageEncode_eq {message : Message} (fits : message.Fits) {bufferSize : Nat}
    (room : message.required ≤ bufferSize) :
    messageEncode message bufferSize =
      ⟨.ok (message.wire.length : Int), Encoder.located 0 message.wire⟩ := by
  cases message with
  | hello msg => exact messageHelloEncode_eq fits room
  | welcome msg => exact messageWelcomeEncode_eq fits room
  | memberList msg => exact messageMemberListEncode_eq fits room
  | ack msg => exact messageAckEncode_eq fits room
  | data msg => exact messageDataEncode_eq fits room
  | status msg => exact messageStatusEncode_eq fits room

end Pittacus
