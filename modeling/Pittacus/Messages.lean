import Pittacus.VectorClock

/-! The six messages of the protocol, and their encoders and decoders. -/

namespace Pittacus

/-- The first bytes of every message: `ptcs` and a terminating zero. -/
def protocolId : List UInt8 := [112, 116, 99, 115, 0]

/-- The number of bytes in the protocol id. -/
def protocolIdLength : Nat := 5

/-- Size in bytes of a message header, in memory and on the wire. -/
def messageHeaderSize : Nat := 12

/-- What every message starts with. -/
structure MessageHeader where
  protocolId : Vector UInt8 5
  messageType : UInt8
  reserved : UInt16
  sequenceNum : UInt32
  deriving DecidableEq

def messageHelloType : UInt8 := 0x01
def messageWelcomeType : UInt8 := 0x02
def messageMemberListType : UInt8 := 0x03
def messageAckType : UInt8 := 0x04
def messageDataType : UInt8 := 0x05
def messageStatusType : UInt8 := 0x06

/-- A newcomer introduces itself. -/
structure MessageHello (Member : Type) where
  header : MessageHeader
  thisMember : Member

/-- The answer to a newcomer, naming the sequence number it introduced itself with. -/
structure MessageWelcome (Member : Type) where
  header : MessageHeader
  helloSequenceNum : UInt32
  thisMember : Member

/-- A part of the sender's member set. -/
structure MessageMemberList (Member : Type) where
  header : MessageHeader
  members : List Member
  /-- The number of members is a sixteen-bit field. -/
  bounded : members.length < 2 ^ 16

/-- The confirmation of one received message. -/
structure MessageAck where
  header : MessageHeader
  ackSequenceNum : UInt32

/-- A payload with the version its originator gave it. -/
structure MessageData where
  header : MessageHeader
  dataVersion : VectorRecord
  data : List UInt8
  /-- The payload size is a sixteen-bit field. -/
  bounded : data.length < 2 ^ 16

/-- The latest version the sender holds of every originator. -/
structure MessageStatus where
  header : MessageHeader
  dataVersion : VectorClock

/-- The number of payload bytes. -/
def MessageData.dataSize (msg : MessageData) : UInt16 := UInt16.ofNat msg.data.length

@[simp] theorem MessageData.dataSize_toNat (msg : MessageData) :
    msg.dataSize.toNat = msg.data.length :=
  UInt16.toNat_ofNat_of_lt' msg.bounded

/-- The number of members listed. -/
def MessageMemberList.membersN {Member : Type} (msg : MessageMemberList Member) : UInt16 :=
  UInt16.ofNat msg.members.length

@[simp] theorem MessageMemberList.membersN_toNat {Member : Type}
    (msg : MessageMemberList Member) : msg.membersN.toNat = msg.members.length :=
  UInt16.toNat_ofNat_of_lt' msg.bounded

/-- Follow the address of the member into the buffer the message was decoded from. -/
def MessageHello.load (msg : MessageHello ClusterMemberRef) (memory : Nat → UInt8) :
    MessageHello ClusterMember :=
  ⟨msg.header, msg.thisMember.load memory⟩

/-- Follow the address of the member into the buffer the message was decoded from. -/
def MessageWelcome.load (msg : MessageWelcome ClusterMemberRef) (memory : Nat → UInt8) :
    MessageWelcome ClusterMember :=
  ⟨msg.header, msg.helloSequenceNum, msg.thisMember.load memory⟩

/-- Follow the addresses of the members into the buffer the message was decoded from. -/
def MessageMemberList.load (msg : MessageMemberList ClusterMemberRef) (memory : Nat → UInt8) :
    MessageMemberList ClusterMember :=
  ⟨msg.header, msg.members.map (·.load memory), by simpa using msg.bounded⟩

/-- The type byte of a message, once there is room for a whole header. -/
def messageTypeDecode (bufferSize : Nat) : Decoder Int UInt8 :=
  if bufferSize < messageHeaderSize then Decoder.fail PittacusError.bufferNotEnough.code
  else do
    -- The type is the byte behind the protocol id.
    let bytes ← Decoder.bytesAt protocolIdLength 1
    return bytes.headD 0

/-- A header with the given type and sequence number. -/
def messageHeaderInit (messageType : UInt8) (sequenceNumber : UInt32) : MessageHeader where
  protocolId := #v[112, 116, 99, 115, 0]
  messageType := messageType
  reserved := 0
  sequenceNum := sequenceNumber

/--
Go on decoding a message of the expected type, or give up on it as invalid.

A buffer too short for a header fails the type comparison as well.
-/
def returnIfInvalidPayload {α : Type} (bufferSize : Nat) (type : UInt8) (decode : Decoder Int α) :
    Decoder Int α :=
  if bufferSize < messageHeaderSize then Decoder.fail PittacusError.invalidMessage.code
  else do
    let messageType ← messageTypeDecode bufferSize
    if messageType ≠ type then Decoder.fail PittacusError.invalidMessage.code
    else do
      -- The type is looked at first, and its own check has made sure of the id.
      let id ← Decoder.bytesAt 0 protocolIdLength
      if id ≠ protocolId then Decoder.fail PittacusError.invalidMessage.code
      else decode

/-- Write a header at the start of the buffer. -/
def messageHeaderEncode (msg : MessageHeader) (bufferSize : Nat) : Encoder Int Int :=
  if bufferSize < messageHeaderSize then Encoder.fail PittacusError.bufferNotEnough.code
  else do
    Encoder.putAt 0 msg.protocolId.toList
    Encoder.putAt 5 [msg.messageType]
    -- The fields lie as in memory, where the structure has no padding.
    uint16Encode msg.reserved 6
    uint32Encode msg.sequenceNum 8
    return messageHeaderSize

/-- Read a header from the start of the buffer. -/
def messageHeaderDecode (bufferSize : Nat) : Decoder Int (Nat × MessageHeader) :=
  if bufferSize < messageHeaderSize then Decoder.fail PittacusError.bufferNotEnough.code
  else do
    let id ← Decoder.bytesAt 0 protocolIdLength
    let messageType ← Decoder.bytesAt protocolIdLength 1
    let reserved ← uint16Decode 6
    let sequenceNum ← uint32Decode 8
    return (messageHeaderSize,
      { protocolId := Vector.ofFn fun i => id.getD i 0
        messageType := messageType.headD 0
        reserved := reserved
        sequenceNum := sequenceNum })

/-! ### Hello -/

/-- Read a hello; the fixed part is measured by the padded structure it is stored in. -/
def messageHelloDecode (bufferSize : Nat) : Decoder Int (Nat × MessageHello ClusterMemberRef) :=
  returnIfInvalidPayload bufferSize messageHelloType <|
    if bufferSize < messageHeaderSize + clusterMemberStructSize - pointerSize then
      Decoder.fail PittacusError.bufferNotEnough.code
    else do
      -- The check above covers the header, whose result is not looked at.
      let (_, header) ← messageHeaderDecode bufferSize
      let (memberBytes, member) ←
        clusterMemberDecode messageHeaderSize (bufferSize - messageHeaderSize)
      decodedBytes (messageHeaderSize + memberBytes) ⟨header, member⟩

/-- Write a hello, if the padded structure and the address would fit. -/
def messageHelloEncode (msg : MessageHello ClusterMember) (bufferSize : Nat) : Encoder Int Int :=
  if bufferSize < messageHeaderSize + clusterMemberStructSize - pointerSize +
      msg.thisMember.addressLen.toNat then
    Encoder.fail PittacusError.bufferNotEnough.code
  else do
    let cursor ← messageHeaderEncode msg.header bufferSize
    -- The result of the member moves the cursor without a look at its sign.
    let memberBytes ← Encoder.unchecked
      (clusterMemberEncode msg.thisMember cursor (Words.toSize (bufferSize - cursor)))
    encodedBytes (cursor + memberBytes)

/-! ### Welcome -/

/-- Read a welcome. -/
def messageWelcomeDecode (bufferSize : Nat) :
    Decoder Int (Nat × MessageWelcome ClusterMemberRef) :=
  returnIfInvalidPayload bufferSize messageWelcomeType <|
    if bufferSize < messageHeaderSize + 4 + clusterMemberStructSize - pointerSize then
      Decoder.fail PittacusError.bufferNotEnough.code
    else do
      let (cursor, header) ← messageHeaderDecode bufferSize
      let helloSequenceNum ← uint32Decode cursor
      let cursor := cursor + 4
      -- The address may claim to reach past the end: only the fixed part was checked.
      let (memberBytes, member) ←
        clusterMemberDecode cursor (Words.toSize ((bufferSize : Int) - cursor))
      decodedBytes (cursor + memberBytes) ⟨header, helloSequenceNum, member⟩

/-- Write a welcome, if the padded structure and the address would fit. -/
def messageWelcomeEncode (msg : MessageWelcome ClusterMember) (bufferSize : Nat) :
    Encoder Int Int :=
  if bufferSize < messageHeaderSize + 4 + clusterMemberStructSize - pointerSize +
      msg.thisMember.addressLen.toNat then
    Encoder.fail PittacusError.bufferNotEnough.code
  else do
    -- Unlike in the other encoders, the header's result is not checked either.
    let cursor ← Encoder.unchecked (messageHeaderEncode msg.header bufferSize)
    uint32Encode msg.helloSequenceNum cursor
    let cursor := cursor + 4
    let memberBytes ← Encoder.unchecked
      (clusterMemberEncode msg.thisMember cursor (Words.toSize (bufferSize - cursor)))
    encodedBytes (cursor + memberBytes)

/-! ### Data -/

/-- Read a data message; the size field is read before the buffer is known to hold it. -/
def messageDataDecode (bufferSize : Nat) : Decoder Int (Nat × MessageData) :=
  returnIfInvalidPayload bufferSize messageDataType do
    let (cursor, header) ← messageHeaderDecode bufferSize
    let (recordBytes, version) ←
      vectorClockRecordDecode cursor (Words.toSize ((bufferSize : Int) - cursor))
    let cursor := cursor + recordBytes
    let dataSize ← uint16Decode cursor
    let cursor := cursor + 2
    -- The datagram has to end with the payload: a longer one is refused like a shorter one.
    if bufferSize ≠ messageHeaderSize + vectorRecordSize + 2 + dataSize.toNat then
      Decoder.fail PittacusError.bufferNotEnough.code
    else do
      -- The payload stays where it is; whoever consumes the message reads it from there.
      let data ← Decoder.pointAt cursor dataSize.toNat
      decodedBytes (cursor + dataSize.toNat)
        { header := header
          dataVersion := version
          data := data.1
          bounded := by rw [data.2]; exact dataSize.toNat_lt }

/-- Write a data message. -/
def messageDataEncode (msg : MessageData) (bufferSize : Nat) : Encoder Int Int :=
  if bufferSize < messageHeaderSize + vectorRecordSize + 2 + msg.dataSize.toNat then
    Encoder.fail PittacusError.bufferNotEnough.code
  else do
    -- Whatever can fail below was checked above, so the errors passed on do not occur.
    let cursor ← messageHeaderEncode msg.header bufferSize
    let recordBytes ←
      vectorClockRecordEncode msg.dataVersion cursor (Words.toSize (bufferSize - cursor))
    let cursor := cursor + recordBytes
    uint16Encode msg.dataSize cursor
    let cursor := cursor + 2
    Encoder.putAt cursor msg.data
    encodedBytes (cursor + msg.dataSize.toNat)

/-! ### Member list -/

/-- Read the given number of members, each where the previous one claims to end. -/
def clusterMembersDecode (bufferEnd : Nat) : Nat → (count : Nat) →
    Decoder Int (Nat × {members : List ClusterMemberRef // members.length = count})
  | cursor, 0 => pure (cursor, ⟨[], rfl⟩)
  | cursor, count + 1 => do
    -- Each member is checked against what is left of the buffer, as a C size.
    let (memberBytes, member) ←
      clusterMemberDecode cursor (Words.toSize ((bufferEnd : Int) - cursor))
    let (cursor, rest) ← clusterMembersDecode bufferEnd (cursor + memberBytes) count
    return (cursor, ⟨member :: rest.1, by simp [rest.2]⟩)

/-- Read a member list. -/
def messageMemberListDecode (bufferSize : Nat) :
    Decoder Int (Nat × MessageMemberList ClusterMemberRef) :=
  returnIfInvalidPayload bufferSize messageMemberListType <|
    if bufferSize < messageHeaderSize + 2 then Decoder.fail PittacusError.bufferNotEnough.code
    else do
      let (cursor, header) ← messageHeaderDecode bufferSize
      -- The count is not checked against the buffer: that is left to each member.
      let membersN ← uint16Decode cursor
      let (cursor, members) ← clusterMembersDecode bufferSize (cursor + 2) membersN.toNat
      decodedBytes cursor ⟨header, members.1, by rw [members.2]; exact membersN.toNat_lt⟩

/-- Write the given members one after the other, moving the cursor by whatever is returned. -/
def clusterMembersEncode (bufferEnd : Int) : Int → List ClusterMember → Encoder Int Int
  | cursor, [] => pure cursor
  | cursor, member :: rest => do
    -- A member that does not fit returns an error code, which moves the cursor backwards.
    let memberBytes ← Encoder.unchecked
      (clusterMemberEncode member cursor (Words.toSize (bufferEnd - cursor)))
    clusterMembersEncode bufferEnd (cursor + memberBytes) rest

/-- Write a member list, if that many members of full size would fit. -/
def messageMemberListEncode (msg : MessageMemberList ClusterMember) (bufferSize : Nat) :
    Encoder Int Int :=
  if bufferSize < messageHeaderSize + 2 + msg.membersN.toNat * clusterMemberSize then
    Encoder.fail PittacusError.bufferNotEnough.code
  else do
    let cursor ← messageHeaderEncode msg.header bufferSize
    uint16Encode msg.membersN cursor
    -- The room asked for is that of full-size socket addresses; a longer one may still not fit.
    let cursor ← clusterMembersEncode bufferSize (cursor + 2) msg.members
    encodedBytes cursor

/-! ### Ack -/

/-- Read an acknowledgement. -/
def messageAckDecode (bufferSize : Nat) : Decoder Int (Nat × MessageAck) :=
  returnIfInvalidPayload bufferSize messageAckType <|
    if bufferSize < messageHeaderSize + 4 then Decoder.fail PittacusError.bufferNotEnough.code
    else do
      let (_, header) ← messageHeaderDecode bufferSize
      let ackSequenceNum ← uint32Decode messageHeaderSize
      decodedBytes (messageHeaderSize + 4) ⟨header, ackSequenceNum⟩

/-- Write an acknowledgement. -/
def messageAckEncode (msg : MessageAck) (bufferSize : Nat) : Encoder Int Int :=
  if bufferSize < messageHeaderSize + 4 then Encoder.fail PittacusError.bufferNotEnough.code
  else do
    let cursor ← messageHeaderEncode msg.header bufferSize
    uint32Encode msg.ackSequenceNum cursor
    encodedBytes (cursor + 4)

/-! ### Status -/

/-- Read a status into a message of unspecified content. -/
def messageStatusDecode (bufferSize : Nat) (result : VectorClock) :
    Decoder Int (Nat × MessageStatus) :=
  returnIfInvalidPayload bufferSize messageStatusType <|
    if bufferSize < messageHeaderSize + 2 then Decoder.fail PittacusError.bufferNotEnough.code
    else do
      let (_, header) ← messageHeaderDecode bufferSize
      let cursor := messageHeaderSize
      -- The clock is read in place, over whatever the message held before.
      let (clockBytes, clock) ←
        vectorClockDecode cursor (Words.toSize ((bufferSize : Int) - cursor)) result
      decodedBytes (cursor + clockBytes) ⟨header, clock⟩

/-- Write a status. -/
def messageStatusEncode (msg : MessageStatus) (bufferSize : Nat) : Encoder Int Int :=
  if bufferSize < messageHeaderSize + 2 + msg.dataVersion.size * vectorRecordSize then
    Encoder.fail PittacusError.bufferNotEnough.code
  else do
    let cursor ← messageHeaderEncode msg.header bufferSize
    -- The clock gets as much of the buffer as the header leaves.
    let clockBytes ←
      vectorClockEncode msg.dataVersion cursor (Words.toSize (bufferSize - cursor))
    encodedBytes (cursor + clockBytes)

/-- Any of the six messages, ready to be sent. -/
inductive Message where
  | hello (msg : MessageHello ClusterMember)
  | welcome (msg : MessageWelcome ClusterMember)
  | memberList (msg : MessageMemberList ClusterMember)
  | ack (msg : MessageAck)
  | data (msg : MessageData)
  | status (msg : MessageStatus)

/-- Serialize a message by its type. -/
def messageEncode (message : Message) (bufferSize : Nat) : Encoder Int Int :=
  match message with
  | .hello msg => messageHelloEncode msg bufferSize
  | .welcome msg => messageWelcomeEncode msg bufferSize
  | .memberList msg => messageMemberListEncode msg bufferSize
  | .ack msg => messageAckEncode msg bufferSize
  | .data msg => messageDataEncode msg bufferSize
  | .status msg => messageStatusEncode msg bufferSize

end Pittacus
