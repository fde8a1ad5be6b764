import Pittacus.Wire.Decoders

/-! What an encoder writes, the matching decoder reads back, and the other way round. -/

namespace Pittacus

open Decoder

/-! ### The decoder of each message -/

/--
What the decoder of a message type makes of a buffer, with member addresses followed into it.

A status is decoded over a clock of unspecified content.
-/
def messageDecode (type : UInt8) (bufferSize : Nat) (prior : VectorClock) (memory : Nat → UInt8) :
    Except Int (Nat × Message) :=
  if type = messageHelloType then
    ((messageHelloDecode bufferSize).result memory).map fun decoded =>
      (decoded.1, .hello (decoded.2.load memory))
  else if type = messageWelcomeType then
    ((messageWelcomeDecode bufferSize).result memory).map fun decoded =>
      (decoded.1, .welcome (decoded.2.load memory))
  else if type = messageMemberListType then
    ((messageMemberListDecode bufferSize).result memory).map fun decoded =>
      (decoded.1, .memberList (decoded.2.load memory))
  else if type = messageAckType then
    ((messageAckDecode bufferSize).result memory).map fun decoded => (decoded.1, .ack decoded.2)
  else if type = messageDataType then
    ((messageDataDecode bufferSize).result memory).map fun decoded => (decoded.1, .data decoded.2)
  else if type = messageStatusType then
    ((messageStatusDecode bufferSize prior).result memory).map fun decoded =>
      (decoded.1, .status decoded.2)
  else .error PittacusError.invalidMessage.code

/-- Two messages are the same; of a clock only the records in use count. -/
def Message.Same : Message → Message → Prop
  | .status first, .status second =>
    first.header = second.header ∧ first.dataVersion.size = second.dataVersion.size ∧
      first.dataVersion.live = second.dataVersion.live
  | first, second => first = second

/-- The number of records of the clock a message carries. -/
def Message.clockSize : Message → Nat
  | .status msg => msg.dataVersion.size
  | _ => 0

/-! ### Reading what was written -/

theorem announces_of_holds {memory : Nat → UInt8} {header : MessageHeader} {bufferSize : Nat}
    (held : Holds memory 0 header.wire) (named : header.protocolId.toList = protocolId)
    (long : messageHeaderSize ≤ bufferSize) :
    Announces memory bufferSize header.messageType := by
  refine ⟨long, ?_, ?_⟩
  · rw [← headerAt_of_holds held]
    rfl
  · -- The id is the first of the header's fields.
    rw [MessageHeader.wire, holds_append] at held
    have id := held.1
    unfold Holds at id
    rw [← named, ← id, Vector.length_toList]

/-- A member of ordinary length that lies in memory is read with that length. -/
theorem memberLength_of_holds {memory : Nat → UInt8} {buffer : Nat} {member : ClusterMember}
    (held : Holds memory buffer member.wire) :
    (memberAt memory buffer).addressLen.toNat = member.address.length := by
  rw [(memberAt_of_holds held).2, ClusterMember.addressLen_toNat]

/-- Members that lie in memory one after the other are read in order. -/
theorem clusterMembersDecode_of_holds {memory : Nat → UInt8} {bufferEnd : Nat}
    (members : List ClusterMember) (cursor count : Nat) (counted : count = members.length)
    (held : Holds memory cursor (members.flatMap ClusterMember.wire))
    (small : ∀ member ∈ members, member.address.length ≤ sockaddrStorageSize)
    (room : cursor + (members.flatMap ClusterMember.wire).length ≤ bufferEnd) :
    ∃ refs, (clusterMembersDecode bufferEnd cursor count).result memory =
        .ok (cursor + (members.flatMap ClusterMember.wire).length, refs) ∧
      refs.1.map (·.load memory) = members := by
  induction members generalizing cursor count with
  | nil =>
    subst counted
    exact ⟨⟨[], rfl⟩, rfl, rfl⟩
  | cons member rest ih =>
    subst counted
    rw [List.flatMap_cons, holds_append, ClusterMember.wire_length] at held
    rw [List.flatMap_cons, List.length_append, ClusterMember.wire_length] at room ⊢
    have short := small member List.mem_cons_self
    simp only [sockaddrStorageSize] at short
    have left : Words.toSize ((bufferEnd : Int) - (cursor : Int)) = bufferEnd - cursor :=
      Words.toSize_sub (by omega)
    -- The members are short, so the size of each is far from being negative.
    have within : 10 ≤ bufferEnd - cursor := by omega
    have first : (clusterMemberDecode cursor (bufferEnd - cursor)).result memory =
        .ok (10 + member.address.length, memberAt memory cursor) := by
      rw [clusterMemberDecode_narrow memory within, memberLength_of_holds held.1,
        narrow_of_small (by omega)]
      rfl
    obtain ⟨refs, read, loaded⟩ := ih (cursor + (10 + member.address.length)) rest.length rfl
      held.2 (fun other inside => small other (List.mem_cons_of_mem _ inside)) (by omega)
    refine ⟨⟨memberAt memory cursor :: refs.1, by simp [refs.2]⟩, ?_, ?_⟩
    · change (clusterMembersDecode bufferEnd cursor (rest.length + 1)).result memory = _
      rw [clusterMembersDecode, left, result_bind_of_ok first, result_bind_of_ok read,
        ← Nat.add_assoc cursor (10 + member.address.length)]
      rfl
    · rw [List.map_cons, (memberAt_of_holds held.1).1, loaded]

/-- Memory starts with the header of a message, announces its type, and holds its body. -/
structure Opens (memory : Nat → UInt8) (message : Message) : Prop where
  header : headerAt memory = message.header
  announced : Announces memory (12 + message.body.length) message.type
  body : Holds memory 12 message.body
  small : 12 + message.body.length < 2 ^ 31

/-- The decoder of its type reads a message from memory, and consumes all of it. -/
def Reads (memory : Nat → UInt8) (prior : VectorClock) (message : Message) : Prop :=
  ∃ decoded, messageDecode message.type (12 + message.body.length) prior memory =
    .ok (12 + message.body.length, decoded) ∧ decoded.Same message

/-- The body of a message lies behind its header. -/
theorem Message.wire_length (message : Message) :
    message.wire.length = 12 + message.body.length := by
  rw [Message.wire, List.length_append, MessageHeader.wire_length]

/-- Memory that holds a message starts with its header. -/
theorem opens_of_holds {message : Message} (typed : message.Typed) (fits : message.Fits)
    {memory : Nat → UInt8} (held : Holds memory 0 message.wire) : Opens memory message := by
  have small := Nat.lt_of_le_of_lt fits.wire_length_le fits.required_lt
  have long : messageHeaderSize ≤ message.wire.length := by
    rw [message.wire_length]
    exact Nat.le_add_right 12 _
  rw [Message.wire, holds_append, MessageHeader.wire_length] at held
  obtain ⟨header, body⟩ := held
  -- A typed message announces its type by the header it starts with.
  have announced := announces_of_holds header typed.1 long
  rw [typed.2, message.wire_length] at announced
  rw [message.wire_length] at small
  exact ⟨headerAt_of_holds header, announced, body, small⟩

namespace Opens

variable {memory : Nat → UInt8} {prior : VectorClock}

theorem hello {msg : MessageHello ClusterMember} (opens : Opens memory (.hello msg))
    (length : 16 ≤ msg.thisMember.address.length) : Reads memory prior (.hello msg) := by
  obtain ⟨found, announced, body, small⟩ := opens
  unfold Reads
  simp only [Message.body, Message.header, Message.type, ClusterMember.wire_length]
    at body announced small found ⊢
  have decoded := messageHelloDecode_result memory (12 + (10 + msg.thisMember.address.length))
  rw [if_neg (not_not.mpr announced), if_neg (by omega), memberLength_of_holds body,
    narrow_of_small (by omega), ok_bind, narrow_of_small small] at decoded
  refine ⟨.hello ⟨msg.header, msg.thisMember⟩, ?_, rfl⟩
  rw [messageDecode, if_pos rfl, decoded, ← (memberAt_of_holds body).1, ← found]
  rfl

theorem welcome {msg : MessageWelcome ClusterMember} (opens : Opens memory (.welcome msg))
    (length : 16 ≤ msg.thisMember.address.length) : Reads memory prior (.welcome msg) := by
  obtain ⟨found, announced, body, small⟩ := opens
  unfold Reads
  simp only [Message.body, Message.header, Message.type, List.length_append,
    Words.toBytes_length, ClusterMember.wire_length, holds_append]
    at body announced small found ⊢
  obtain ⟨helloSequenceNum, member⟩ := body
  have same : 12 + (4 + (10 + msg.thisMember.address.length))
      = 16 + (10 + msg.thisMember.address.length) := by omega
  rw [same] at announced small ⊢
  -- The decoder is run on a datagram of just the message's length.
  have decoded := messageWelcomeDecode_result memory (16 + (10 + msg.thisMember.address.length))
  rw [if_neg (not_not.mpr announced), if_neg (by omega), memberLength_of_holds member,
    narrow_of_small (by omega), ok_bind, narrow_of_small small,
    uint32At_of_holds helloSequenceNum] at decoded
  refine ⟨.welcome ⟨msg.header, msg.helloSequenceNum, msg.thisMember⟩, ?_, rfl⟩
  rw [messageDecode, if_neg (by decide), if_pos rfl, decoded, ← (memberAt_of_holds member).1,
    ← found]
  rfl

theorem memberList {msg : MessageMemberList ClusterMember}
    (opens : Opens memory (.memberList msg)) (fits : (Message.memberList msg).Fits) :
    Reads memory prior (.memberList msg) := by
  obtain ⟨found, announced, body, small⟩ := opens
  unfold Reads
  simp only [Message.body, Message.header, Message.type, List.length_append,
    Words.toBytes_length, holds_append] at body announced small found ⊢
  obtain ⟨membersN, members⟩ := body
  have same : 12 + (2 + (msg.members.flatMap ClusterMember.wire).length)
      = 14 + (msg.members.flatMap ClusterMember.wire).length := by omega
  rw [same] at announced small ⊢
  -- The number on the wire is the number of members that follow.
  have count : (uint16At memory 12).toNat = msg.members.length := by
    rw [uint16At_of_holds membersN, MessageMemberList.membersN_toNat]
  obtain ⟨refs, read, loaded⟩ := clusterMembersDecode_of_holds msg.members 14 _ count members
    fits.1 (Nat.le_refl _)
  have decoded := messageMemberListDecode_result memory
    (14 + (msg.members.flatMap ClusterMember.wire).length)
  rw [if_neg (not_not.mpr announced), if_neg (by omega), read, ok_bind,
    narrow_of_small small] at decoded
  refine ⟨.memberList ⟨headerAt memory, refs.1.map (·.load memory), ?_⟩, ?_, ?_⟩
  · rw [loaded]
    exact msg.bounded
  · rw [messageDecode, if_neg (by decide), if_neg (by decide), if_pos rfl, decoded]
    rfl
  · simp only [Message.Same, found, loaded]

theorem ack {msg : MessageAck} (opens : Opens memory (.ack msg)) :
    Reads memory prior (.ack msg) := by
  obtain ⟨found, announced, body, small⟩ := opens
  unfold Reads
  simp only [Message.body, Message.header, Message.type, Words.toBytes_length]
    at body announced small found ⊢
  have decoded := messageAckDecode_result memory 16
  rw [if_neg (not_not.mpr announced), if_neg (by decide), found, uint32At_of_holds body]
    at decoded
  refine ⟨.ack msg, ?_, rfl⟩
  rw [messageDecode, if_neg (by decide), if_neg (by decide), if_neg (by decide), if_pos rfl,
    decoded]
  rfl

theorem data {msg : MessageData} (opens : Opens memory (.data msg)) :
    Reads memory prior (.data msg) := by
  obtain ⟨found, announced, body, small⟩ := opens
  unfold Reads
  simp only [Message.body, Message.header, Message.type, List.length_append,
    Words.toBytes_length, VectorRecord.wire_length, holds_append] at body announced small found ⊢
  obtain ⟨version, dataSize, data⟩ := body
  -- The size on the wire is the number of payload bytes behind it.
  have size : (uint16At memory 24).toNat = msg.data.length := by
    rw [uint16At_of_holds dataSize, MessageData.dataSize_toNat]
  have same : 12 + (12 + (2 + msg.data.length)) = 26 + msg.data.length := by omega
  rw [same] at announced small ⊢
  have decoded := messageDataDecode_result memory (26 + msg.data.length)
  rw [if_neg (not_not.mpr announced), size, if_neg (not_not.mpr rfl)] at decoded
  have whole : dataAt memory = msg := by
    have payload : slice memory 26 (uint16At memory 24).toNat = msg.data := by
      rw [size]
      exact data
    simp only [dataAt, found, recordAt_of_holds version, payload]
  refine ⟨.data msg, ?_, rfl⟩
  rw [messageDecode, if_neg (by decide), if_neg (by decide), if_neg (by decide),
    if_neg (by decide), if_pos rfl, decoded, whole]
  rfl

theorem status {msg : MessageStatus} (opens : Opens memory (.status msg))
    (clockFits : msg.dataVersion.Fits) : Reads memory prior (.status msg) := by
  obtain ⟨found, announced, body, small⟩ := opens
  unfold Reads
  have few : msg.dataVersion.size ≤ 20 := clockFits.1
  have length := clockFits.wire_length
  simp only [Message.body, Message.header, Message.type, length] at body announced small found ⊢
  rw [VectorClock.wire, holds_append, Words.toBytes_length] at body
  have count : (uint16At memory 12).toNat = msg.dataVersion.size := by
    rw [uint16At_of_holds body.1, UInt16.toNat_ofNat_of_lt' (by simp only [UInt16.size]; omega)]
  have records := recordsAt_of_holds msg.dataVersion.live 14 body.2
  rw [clockFits.live_length] at records
  have same : 12 + (2 + msg.dataVersion.size * 12) = 14 + msg.dataVersion.size * 12 := by omega
  rw [same] at announced small ⊢
  have decoded := messageStatusDecode_result memory (14 + msg.dataVersion.size * 12) prior
  rw [if_neg (not_not.mpr announced), count, if_neg (Nat.lt_irrefl _)] at decoded
  refine ⟨.status ⟨headerAt memory, clockAt memory 12 prior⟩, ?_, found, count, ?_⟩
  · rw [messageDecode, if_neg (by decide), if_neg (by decide), if_neg (by decide),
      if_neg (by decide), if_neg (by decide), if_pos rfl, decoded]
    rfl
  · -- The records read are followed by those that were there before.
    have taken (rest : List VectorRecord) :
        (msg.dataVersion.live ++ rest).take msg.dataVersion.size = msg.dataVersion.live := by
      rw [← clockFits.live_length]
      exact List.take_left
    rw [VectorClock.live, clockAt, count, records]
    exact taken _

end Opens

/-- A decoder reads a message of its type from memory that holds it. -/
theorem messageDecode_of_holds {message : Message} (typed : message.Typed) (fits : message.Fits)
    (addresses : ∀ member ∈ message.members, 16 ≤ member.address.length)
    {memory : Nat → UInt8} (held : Holds memory 0 message.wire) (prior : VectorClock) :
    ∃ decoded, messageDecode message.type message.wire.length prior memory =
        .ok (message.wire.length, decoded) ∧ decoded.Same message := by
  have opens := opens_of_holds typed fits held
  rw [message.wire_length]
  -- One lemma for each type, from the same opening.
  cases message with
  | hello msg => exact opens.hello (addresses msg.thisMember (List.mem_singleton.mpr rfl))
  | welcome msg => exact opens.welcome (addresses msg.thisMember (List.mem_singleton.mpr rfl))
  | memberList msg => exact opens.memberList fits
  | ack msg => exact opens.ack
  | data msg => exact opens.data
  | status msg => exact opens.status fits.2

/-! ### Writing what was read -/

/-- A member that was decoded is the one at the cursor, its length having fitted an `int`. -/
theorem memberAt_of_decoded {memory : Nat → UInt8} {buffer bufferSize memberBytes : Nat}
    {member : ClusterMemberRef}
    (decoded : (clusterMemberDecode buffer bufferSize).result memory = .ok (memberBytes, member)) :
    10 ≤ bufferSize ∧ member = memberAt memory buffer ∧
      narrow (10 + member.addressLen.toNat) = .ok memberBytes := by
  rw [clusterMemberDecode_result] at decoded
  by_cases short : bufferSize < 2 * 4 + 2
  · rw [if_pos short] at decoded
    cases decoded
  · rw [if_neg short, decodedBytes_result] at decoded
    obtain ⟨bytes, narrowed, paired⟩ := map_eq_ok decoded
    cases paired
    exact ⟨by omega, rfl, narrowed⟩

/-- The bytes of a member read from memory lie there. -/
theorem memberAt_holds (memory : Nat → UInt8) (buffer : Nat) :
    Holds memory buffer ((memberAt memory buffer).load memory).wire := by
  rw [Holds, memberAt_wire, slice_length]

/-- A member read from memory is as long as its length field says. -/
theorem memberAt_address_length (memory : Nat → UInt8) (buffer : Nat) :
    ((memberAt memory buffer).load memory).address.length
      = (memberAt memory buffer).addressLen.toNat :=
  slice_length _ _ _

/-- The bytes of the members that were decoded lie where they were read. -/
theorem holds_of_clusterMembersDecode {memory : Nat → UInt8} {bufferEnd count : Nat} (cursor : Nat)
    {stop : Nat} {refs : {members : List ClusterMemberRef // members.length = count}}
    (decoded : (clusterMembersDecode bufferEnd cursor count).result memory = .ok (stop, refs))
    (small : ∀ member ∈ refs.1.map (·.load memory), member.address.length ≤ sockaddrStorageSize) :
    Holds memory cursor ((refs.1.map (·.load memory)).flatMap ClusterMember.wire) ∧
      stop = cursor + ((refs.1.map (·.load memory)).flatMap ClusterMember.wire).length := by
  -- Every member is read where the one before it ended.
  induction count generalizing cursor with
  | zero =>
    rw [clusterMembersDecode, result_pure] at decoded
    cases decoded
    exact ⟨rfl, rfl⟩
  | succ count ih =>
    rw [clusterMembersDecode] at decoded
    cases first : (clusterMemberDecode cursor
        (Words.toSize ((bufferEnd : Int) - cursor))).result memory with
    | error code =>
      rw [result_bind_of_error first] at decoded
      cases decoded
    | ok found =>
      obtain ⟨memberBytes, member⟩ := found
      obtain ⟨-, same, narrowed⟩ := memberAt_of_decoded first
      subst same
      rw [result_bind_of_ok first] at decoded
      cases rest : (clusterMembersDecode bufferEnd (cursor + memberBytes) count).result memory with
      | error code =>
        rw [result_bind_of_error rest] at decoded
        cases decoded
      | ok found =>
        obtain ⟨last, others⟩ := found
        rw [result_bind_of_ok rest, result_pure] at decoded
        cases decoded
        simp only [List.map_cons, List.mem_cons, forall_eq_or_imp, memberAt_address_length]
          at small
        obtain ⟨here, further⟩ := small
        simp only [sockaddrStorageSize] at here
        rw [narrow_of_small (by omega)] at narrowed
        cases narrowed
        obtain ⟨held, stopped⟩ := ih _ rest further
        rw [List.map_cons, List.flatMap_cons, holds_append, List.length_append,
          ClusterMember.wire_length, memberAt_address_length, stopped]
        exact ⟨⟨memberAt_holds memory cursor, held⟩, by omega⟩

/-- A decoder has consumed the header in memory and, behind it, the body of a message. -/
structure Consumes (memory : Nat → UInt8) (consumed : Nat) (message : Message) : Prop where
  fits : message.Fits
  header : message.header = headerAt memory
  body : Holds memory 12 message.body
  length : consumed = 12 + message.body.length

/-- A member at the end of a message is consumed up to the end of its address. -/
theorem memberLast_ok {α : Type} {memory : Nat → UInt8} {cursor : Nat} {message : α}
    {answer : Nat × α} (short : (memberAt memory cursor).addressLen.toNat ≤ 128)
    (near : cursor ≤ 16)
    (accepted : ((narrow (10 + (memberAt memory cursor).addressLen.toNat)).bind fun memberBytes =>
      (narrow (cursor + memberBytes)).map fun bytes => (bytes, message)) = .ok answer) :
    answer = (cursor + (10 + (memberAt memory cursor).addressLen.toNat), message) := by
  rw [narrow_of_small (by omega), ok_bind, narrow_of_small (by omega)] at accepted
  cases accepted
  rfl

section Accepting

variable {bufferSize : Nat} {memory : Nat → UInt8} {consumed : Nat}

theorem consumes_hello {msg : MessageHello ClusterMemberRef}
    (decoded : (messageHelloDecode bufferSize).result memory = .ok (consumed, msg))
    (addresses : ∀ member ∈ (Message.hello (msg.load memory)).members,
      member.address.length ≤ sockaddrStorageSize) :
    Consumes memory consumed (.hello (msg.load memory)) := by
  rw [messageHelloDecode_result] at decoded
  obtain ⟨-, -, decoded⟩ := ok_of_checked decoded
  obtain ⟨memberBytes, -, rest⟩ := bind_eq_ok decoded
  obtain ⟨bytes, -, paired⟩ := map_eq_ok rest
  cases paired
  have short := addresses _ (List.mem_singleton.mpr rfl)
  simp only [MessageHello.load, memberAt_address_length, sockaddrStorageSize] at short
  -- A short address is not narrowed, so the size reported is the true one.
  cases memberLast_ok short (by decide) decoded
  refine ⟨⟨addresses, trivial⟩, rfl, memberAt_holds memory 12, ?_⟩
  simp only [Message.body, MessageHello.load, ClusterMember.wire_length, memberAt_address_length]

theorem consumes_welcome {msg : MessageWelcome ClusterMemberRef}
    (decoded : (messageWelcomeDecode bufferSize).result memory = .ok (consumed, msg))
    (addresses : ∀ member ∈ (Message.welcome (msg.load memory)).members,
      member.address.length ≤ sockaddrStorageSize) :
    Consumes memory consumed (.welcome (msg.load memory)) := by
  rw [messageWelcomeDecode_result] at decoded
  obtain ⟨-, -, decoded⟩ := ok_of_checked decoded
  obtain ⟨memberBytes, -, rest⟩ := bind_eq_ok decoded
  obtain ⟨bytes, -, paired⟩ := map_eq_ok rest
  cases paired
  have short := addresses _ (List.mem_singleton.mpr rfl)
  simp only [MessageWelcome.load, memberAt_address_length, sockaddrStorageSize] at short
  cases memberLast_ok short (by decide) decoded
  have member : Holds memory 16 ((memberAt memory 16).load memory).wire := memberAt_holds memory 16
  refine ⟨⟨addresses, trivial⟩, rfl, ?_, ?_⟩
  · rw [Message.body, MessageWelcome.load, holds_append, Words.toBytes_length]
    refine ⟨?_, member⟩
    rw [Holds, toBytes_uint32At, slice_length]
  · simp only [Message.body, MessageWelcome.load, List.length_append, ClusterMember.wire_length,
      memberAt_address_length, Words.toBytes_length]
    omega

theorem consumes_memberList {msg : MessageMemberList ClusterMemberRef}
    (decoded : (messageMemberListDecode bufferSize).result memory = .ok (consumed, msg))
    (addresses : ∀ member ∈ (Message.memberList (msg.load memory)).members,
      member.address.length ≤ sockaddrStorageSize) :
    Consumes memory consumed (.memberList (msg.load memory)) := by
  rw [messageMemberListDecode_result] at decoded
  obtain ⟨-, -, decoded⟩ := ok_of_checked decoded
  obtain ⟨⟨stop, refs⟩, read, rest⟩ := bind_eq_ok decoded
  obtain ⟨bytes, total, paired⟩ := map_eq_ok rest
  cases paired
  obtain ⟨held, stopped⟩ := holds_of_clusterMembersDecode 14 read addresses
  have fits : (Message.memberList (MessageMemberList.load ⟨headerAt memory, refs.1,
      by rw [refs.2]; exact UInt16.toNat_lt _⟩ memory)).Fits := ⟨addresses, trivial⟩
  have count : (uint16At memory 12).toNat = (refs.1.map (·.load memory)).length := by
    rw [List.length_map, refs.2]
  have length : 12 + (Message.memberList (MessageMemberList.load ⟨headerAt memory, refs.1,
      by rw [refs.2]; exact UInt16.toNat_lt _⟩ memory)).body.length = stop := by
    rw [stopped]
    simp only [Message.body, MessageMemberList.load, List.length_append, Words.toBytes_length]
    omega
  -- A list of short members is small, so its size was not narrowed to another one.
  have small := Nat.lt_of_le_of_lt fits.wire_length_le fits.required_lt
  rw [Message.wire_length, length] at small
  rw [narrow_of_small small] at total
  cases total
  refine ⟨fits, rfl, ?_, length.symm⟩
  rw [Message.body, MessageMemberList.membersN_toNat, MessageMemberList.load, ← count,
    holds_append, Words.toBytes_length]
  refine ⟨?_, held⟩
  rw [toBytes_uint16At, Holds, slice_length]

theorem consumes_ack {msg : MessageAck}
    (decoded : (messageAckDecode bufferSize).result memory = .ok (consumed, msg)) :
    Consumes memory consumed (.ack msg) := by
  rw [messageAckDecode_result] at decoded
  obtain ⟨-, -, decoded⟩ := ok_of_checked decoded
  cases decoded
  refine ⟨⟨fun member none_ => absurd none_ List.not_mem_nil, trivial⟩, rfl, ?_, ?_⟩
  · rw [Message.body, Holds, toBytes_uint32At, slice_length]
  · simp only [Message.body, Words.toBytes_length]

theorem consumes_data {msg : MessageData}
    (decoded : (messageDataDecode bufferSize).result memory = .ok (consumed, msg)) :
    Consumes memory consumed (.data msg) := by
  rw [messageDataDecode_result] at decoded
  obtain ⟨-, whole, decoded⟩ := ok_of_checked decoded
  cases decoded
  -- The payload read is as long as the size field says.
  have size : (dataAt memory).data.length = (uint16At memory 24).toNat := slice_length _ _ _
  refine ⟨⟨fun member none_ => absurd none_ List.not_mem_nil, trivial⟩, rfl, ?_, ?_⟩
  · rw [Message.body, MessageData.dataSize_toNat, size, holds_append, holds_append,
      VectorRecord.wire_length, Words.toBytes_length, toBytes_uint16At]
    refine ⟨?_, ?_, ?_⟩
    · rw [Holds, VectorRecord.wire_length]
      exact (recordAt_wire memory 12).symm
    · rw [Holds, slice_length]
    · rw [Holds, size]
      rfl
  · simp only [Message.body, List.length_append, VectorRecord.wire_length, Words.toBytes_length,
      size]
    omega

theorem consumes_status {msg : MessageStatus} {prior : VectorClock}
    (decoded : (messageStatusDecode bufferSize prior).result memory = .ok (consumed, msg))
    (clock : msg.dataVersion.size ≤ maxVectorSize) : Consumes memory consumed (.status msg) := by
  rw [messageStatusDecode_result] at decoded
  obtain ⟨-, -, decoded⟩ := ok_of_checked decoded
  cases decoded
  have few : (uint16At memory 12).toNat ≤ 20 := clock
  -- A clock of at most twenty records is one the encoder takes.
  have fits : (clockAt memory 12 prior).Fits := by
    refine ⟨few, ?_⟩
    simp only [clockAt, List.length_append, recordsAt_length]
    exact Nat.le_add_right _ _
  have size : UInt16.ofNat (clockAt memory 12 prior).size = uint16At memory 12 :=
    UInt16.ofNat_toNat
  refine ⟨⟨fun member none_ => absurd none_ List.not_mem_nil, fits⟩, rfl, ?_, ?_⟩
  · rw [Message.body, VectorClock.wire, clockAt_live, recordsAt_wire, size, toBytes_uint16At,
      holds_append, slice_length]
    exact ⟨by rw [Holds, slice_length], by rw [Holds, slice_length]⟩
  · have counted : (clockAt memory 12 prior).size = (uint16At memory 12).toNat := rfl
    simp only [Message.body, fits.wire_length, counted]
    omega

/-- An accepted message is what one of the six decoders made of the datagram. -/
theorem messageDecode_elim {motive : Message → Prop} {type : UInt8} {prior : VectorClock}
    {message : Message}
    (accepted : messageDecode type bufferSize prior memory = .ok (consumed, message))
    (hello : ∀ msg, (messageHelloDecode bufferSize).result memory = .ok (consumed, msg) →
      motive (.hello (msg.load memory)))
    (welcome : ∀ msg, (messageWelcomeDecode bufferSize).result memory = .ok (consumed, msg) →
      motive (.welcome (msg.load memory)))
    (memberList : ∀ msg, (messageMemberListDecode bufferSize).result memory = .ok (consumed, msg) →
      motive (.memberList (msg.load memory)))
    (ack : ∀ msg, (messageAckDecode bufferSize).result memory = .ok (consumed, msg) →
      motive (.ack msg))
    (data : ∀ msg, (messageDataDecode bufferSize).result memory = .ok (consumed, msg) →
      motive (.data msg))
    (status : ∀ msg, (messageStatusDecode bufferSize prior).result memory = .ok (consumed, msg) →
      motive (.status msg)) : motive message := by
  unfold messageDecode at accepted
  split at accepted
  · obtain ⟨answer, decoded, made⟩ := map_eq_ok accepted
    cases made
    exact hello _ decoded
  split at accepted
  · obtain ⟨answer, decoded, made⟩ := map_eq_ok accepted
    cases made
    exact welcome _ decoded
  split at accepted
  · obtain ⟨answer, decoded, made⟩ := map_eq_ok accepted
    cases made
    exact memberList _ decoded
  split at accepted
  · obtain ⟨answer, decoded, made⟩ := map_eq_ok accepted
    cases made
    exact ack _ decoded
  split at accepted
  · obtain ⟨answer, decoded, made⟩ := map_eq_ok accepted
    cases made
    exact data _ decoded
  split at accepted
  · obtain ⟨answer, decoded, made⟩ := map_eq_ok accepted
    cases made
    exact status _ decoded
  · cases accepted

/-- Whatever decoder accepts a message has consumed it. -/
theorem consumes_of_messageDecode {type : UInt8} {prior : VectorClock} {message : Message}
    (accepted : messageDecode type bufferSize prior memory = .ok (consumed, message))
    (addresses : ∀ member ∈ message.members, member.address.length ≤ sockaddrStorageSize)
    (clock : message.clockSize ≤ maxVectorSize) : Consumes memory consumed message := by
  -- What is asked of the addresses and of the clock is asked of the message that was decoded.
  revert addresses clock
  refine messageDecode_elim (motive := fun message =>
    (∀ member ∈ message.members, member.address.length ≤ sockaddrStorageSize) →
      message.clockSize ≤ maxVectorSize → Consumes memory consumed message)
    accepted ?hello ?welcome ?memberList ?ack ?data ?status
  case hello => exact fun _ decoded addresses _ => consumes_hello decoded addresses
  case welcome => exact fun _ decoded addresses _ => consumes_welcome decoded addresses
  case memberList => exact fun _ decoded addresses _ => consumes_memberList decoded addresses
  case ack => exact fun _ decoded _ _ => consumes_ack decoded
  case data => exact fun _ decoded _ _ => consumes_data decoded
  case status => exact fun _ decoded _ clock => consumes_status decoded clock

end Accepting

/-- Whatever a decoder accepts is a message whose bytes lie at the start of memory. -/
theorem holds_of_messageDecode {type : UInt8} {bufferSize : Nat} {prior : VectorClock}
    {memory : Nat → UInt8} {consumed : Nat} {message : Message}
    (accepted : messageDecode type bufferSize prior memory = .ok (consumed, message))
    (addresses : ∀ member ∈ message.members, member.address.length ≤ sockaddrStorageSize)
    (clock : message.clockSize ≤ maxVectorSize) :
    message.Fits ∧ Holds memory 0 message.wire ∧ consumed = message.wire.length := by
  obtain ⟨fits, same, body, length⟩ := consumes_of_messageDecode accepted addresses clock
  have header : Holds memory 0 (headerAt memory).wire := by
    rw [Holds, headerAt_wire, slice_length]
  refine ⟨fits, ?_, length.trans message.wire_length.symm⟩
  rw [Message.wire, same]
  exact holds_append.mpr ⟨header, by rwa [MessageHeader.wire_length]⟩

/-! ### Both ways -/

/--
The wire format round trips both ways, for all six messages.

What an encoder writes, the matching decoder consumes entirely and reads as the same message.
Whatever a decoder consumes without leaving the datagram, the encoder writes again.
-/
theorem codec_roundTrip :
    (∀ message : Message, message.Typed →
      (∀ member ∈ message.members,
        16 ≤ member.address.length ∧ member.address.length ≤ sockaddrStorageSize) →
      message.ClockFits →
      ∀ (memory : Nat → UInt8) (base bufferSize : Nat) (n : Int),
        (messageEncode message bufferSize).result = .ok n →
        ∀ (prior : VectorClock) (beyond : Nat → UInt8), 0 ≤ n ∧
          ∃ decoded, messageDecode message.type n.toNat prior
              (memoryOf (slice (Encoder.store memory base (messageEncode message bufferSize).writes)
                base n.toNat) beyond) = .ok (n.toNat, decoded) ∧
            decoded.Same message) ∧
    (∀ (type : UInt8) (bytes : List UInt8) (beyond : Nat → UInt8) (prior : VectorClock) (n : Nat)
      (message : Message),
      messageDecode type bytes.length prior (memoryOf bytes beyond) = .ok (n, message) →
      n ≤ bytes.length →
      (∀ member ∈ message.members, member.address.length ≤ sockaddrStorageSize) →
      message.clockSize ≤ maxVectorSize →
      ∀ (memory : Nat → UInt8) (base bufferSize : Nat), message.required ≤ bufferSize →
        (messageEncode message bufferSize).result = .ok (n : Int) ∧
          slice (Encoder.store memory base (messageEncode message bufferSize).writes) base n
            = bytes.take n) := by
  constructor
  · intro message typed addresses clock memory base bufferSize n encoded prior beyond
    have fits : message.Fits := ⟨fun member inside => (addresses member inside).2, clock⟩
    -- An encoder that lacks room fails, so one that answers has written the whole message.
    by_cases room : message.required ≤ bufferSize
    · rw [messageEncode_eq fits room] at encoded ⊢
      cases encoded
      rw [Int.toNat_natCast, Encoder.slice_store_zero]
      exact ⟨Int.natCast_nonneg _, messageDecode_of_holds typed fits
        (fun member inside => (addresses member inside).1) (holds_memoryOf _ beyond) prior⟩
    · rw [messageEncode_short (Nat.not_le.mp room)] at encoded
      cases encoded
  · intro type bytes beyond prior n message accepted inside addresses clock memory base bufferSize
      room
    obtain ⟨fits, held, rfl⟩ := holds_of_messageDecode accepted addresses clock
    rw [messageEncode_eq fits room, Encoder.slice_store_zero]
    refine ⟨rfl, ?_⟩
    rw [Holds, slice_memoryOf_zero beyond inside] at held
    exact held.symm

/-- A hello with an address of sixteen bytes, of which two name the family. -/
def helloSample : Message :=
  .hello ⟨messageHeaderInit messageHelloType 7, ⟨1, 9, 2 :: List.replicate 15 0, by decide⟩⟩

/-- The sample is written into thirty-eight bytes and read back, and written again from there. -/
theorem codec_roundTrip_hello :
    (∃ decoded, messageDecode messageHelloType 38 vectorClockInit
        (memoryOf (slice (Encoder.store (fun _ => 1) 512 (messageEncode helloSample 44).writes)
          512 38) fun _ => 1) = .ok (38, decoded) ∧ decoded.Same helloSample) ∧
    (messageEncode helloSample 44).result = .ok 38 ∧
      slice (Encoder.store (fun _ => 0) 0 (messageEncode helloSample 44).writes) 0 38
        = helloSample.wire := by
  have typed : helloSample.Typed := ⟨rfl, rfl⟩
  have addresses : ∀ member ∈ helloSample.members,
      16 ≤ member.address.length ∧ member.address.length ≤ sockaddrStorageSize := by
    intro member inside
    cases List.mem_singleton.mp inside
    decide
  have fits : helloSample.Fits := ⟨fun member inside => (addresses member inside).2, trivial⟩
  -- The sample's own bytes are read back first, for the direction that writes again.
  have accepted : messageDecode messageHelloType 38 vectorClockInit
      (memoryOf helloSample.wire fun _ => 0) = .ok (38, helloSample) := by
    obtain ⟨decoded, answer, same⟩ := messageDecode_of_holds typed fits
      (fun member inside => (addresses member inside).1) (holds_memoryOf _ fun _ => 0)
      vectorClockInit
    cases decoded with
    | hello msg =>
      have whole : Message.hello msg = helloSample := same
      rw [whole] at answer
      exact answer
    | _ => cases same
  have encoded : (messageEncode helloSample 44).result = .ok 38 := by
    rw [messageEncode_eq fits (by decide)]
    rfl
  have read := codec_roundTrip.1 helloSample typed addresses trivial (fun _ => 1) 512 44 38 encoded
    vectorClockInit (fun _ => 1)
  have written := codec_roundTrip.2 messageHelloType helloSample.wire (fun _ => 0) vectorClockInit
    38 helloSample accepted (Nat.le_refl 38) (fun member inside => (addresses member inside).2)
    (Nat.zero_le _) (fun _ => 0) 0 44 (by decide)
  exact ⟨read.2, written⟩

end Pittacus
