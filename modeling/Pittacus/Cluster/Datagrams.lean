import Pittacus.Ownership.Buffers
import Pittacus.Wire.RoundTrip

/-! What a datagram that a node sent is decoded as by the node it reaches. -/

namespace Pittacus

open Decoder

/-! ### Numbering -/

/-- A header under another sequence number. -/
def MessageHeader.renumbered (header : MessageHeader) (sequenceNum : UInt32) : MessageHeader :=
  { header with sequenceNum := sequenceNum }

/-- A message under another sequence number. -/
def Message.renumbered (message : Message) (sequenceNum : UInt32) : Message :=
  match message with
  | .hello msg => .hello { msg with header := msg.header.renumbered sequenceNum }
  | .welcome msg => .welcome { msg with header := msg.header.renumbered sequenceNum }
  | .memberList msg => .memberList { msg with header := msg.header.renumbered sequenceNum }
  | .ack msg => .ack { msg with header := msg.header.renumbered sequenceNum }
  | .data msg => .data { msg with header := msg.header.renumbered sequenceNum }
  | .status msg => .status { msg with header := msg.header.renumbered sequenceNum }

section Renumbered

variable (message : Message) (sequenceNum : UInt32)

@[simp] theorem Message.renumbered_header :
    (message.renumbered sequenceNum).header = message.header.renumbered sequenceNum := by
  cases message <;> rfl

@[simp] theorem Message.renumbered_type :
    (message.renumbered sequenceNum).type = message.type := by
  cases message <;> rfl

@[simp] theorem Message.renumbered_body :
    (message.renumbered sequenceNum).body = message.body := by
  cases message <;> rfl

@[simp] theorem Message.renumbered_members :
    (message.renumbered sequenceNum).members = message.members := by
  cases message <;> rfl

/-- A number leaves the type of a message alone. -/
theorem Message.Typed.renumbered {message : Message} (typed : message.Typed) :
    (message.renumbered sequenceNum).Typed := by
  -- The protocol id and the type byte of the header stay what they are.
  unfold Message.Typed
  rw [renumbered_header, renumbered_type]
  exact typed

/-- A number does not make a message any longer. -/
theorem Message.Fits.renumbered {message : Message} (fits : message.Fits) :
    (message.renumbered sequenceNum).Fits := by
  refine ⟨by rw [renumbered_members]; exact fits.1, ?_⟩
  -- Only a status has a clock to look at, and its clock is the old one.
  cases message with
  | status msg => exact fits.2
  | _ => trivial

/-- The number of a header is its last four bytes. -/
theorem MessageHeader.wire_split (header : MessageHeader) :
    ∃ front : List UInt8, front.length = 8 ∧
      ∀ number, (header.renumbered number).wire = front ++ Words.toBytes 4 number.toNat := by
  refine ⟨header.protocolId.toList ++ ([header.messageType] ++
    Words.toBytes 2 header.reserved.toNat), by simp, fun number => ?_⟩
  simp [MessageHeader.wire, MessageHeader.renumbered]

/-- What is sent for a message is that message, renumbered. -/
theorem Message.datagram_eq :
    message.datagram sequenceNum = (message.renumbered sequenceNum).wire := by
  obtain ⟨front, width, numbered⟩ := message.header.wire_split
  have own : message.header.wire = front ++ Words.toBytes 4 message.header.sequenceNum.toNat :=
    numbered message.header.sequenceNum
  -- The first eight bytes and those from the thirteenth on surround the number.
  have start : message.wire.take 8 = front := by
    rw [Message.wire, own, List.append_assoc]
    exact List.take_left' width
  have rest : message.wire.drop 12 = message.body := by
    rw [Message.wire]
    exact List.drop_left' message.header.wire_length
  rw [Message.datagram, start, rest, Message.wire, renumbered_header, renumbered_body, numbered,
    List.append_assoc]

end Renumbered

/-! ### Arriving -/

/-- A message fills a received buffer. -/
structure Message.Fills (message : Message) (memory : Nat → UInt8) (bufferSize : Nat) : Prop where
  typed : message.Typed
  fits : message.Fits
  held : Holds memory 0 message.wire
  size : bufferSize = message.wire.length

namespace Message.Fills

variable {message : Message} {memory : Nat → UInt8} {bufferSize : Nat}

/-- What lies behind the header of a message is its body. -/
theorem body (fills : message.Fills memory bufferSize) : Holds memory 12 message.body := by
  have held := fills.held
  rw [Message.wire, holds_append, MessageHeader.wire_length, Nat.zero_add] at held
  exact held.2

/-- The only type a buffer announces is that of the message in it. -/
theorem type_eq (fills : message.Fills memory bufferSize) {type : UInt8}
    (announced : Announces memory bufferSize type) : message.type = type := by
  have held := fills.held
  rw [Message.wire, holds_append] at held
  -- Both read the sixth byte.
  have own := announces_of_holds held.1 fills.typed.1 announced.1
  rw [← fills.typed.2, ← own.2.1, announced.2.1]

/-- The header that is read off a buffer is that of the message in it. -/
theorem header_eq (fills : message.Fills memory bufferSize) : headerAt memory = message.header := by
  have held := fills.held
  rw [Message.wire, holds_append] at held
  exact headerAt_of_holds held.1

/-- A hello that is accepted introduces the member that was sent. -/
theorem hello (fills : message.Fills memory bufferSize) {count : Nat}
    {msg : MessageHello ClusterMemberRef}
    (accepted : (messageHelloDecode bufferSize).result memory = .ok (count, msg)) :
    (msg.load memory).thisMember ∈ message.members := by
  rw [messageHelloDecode_result] at accepted
  by_cases announced : Announces memory bufferSize messageHelloType
  · have typed := fills.type_eq announced
    have body := fills.body
    rw [if_neg (not_not.mpr announced)] at accepted
    split at accepted
    · cases accepted
    · obtain ⟨memberBytes, -, accepted⟩ := bind_eq_ok accepted
      obtain ⟨bytes, -, accepted⟩ := map_eq_ok accepted
      cases accepted
      -- The member is read where the only message of this type keeps it.
      cases message with
      | hello sent =>
        have same := (memberAt_of_holds body).1
        exact List.mem_singleton.mpr same
      | _ =>
        simp only [Message.type] at typed
        exact absurd typed (by decide)
  · rw [if_pos announced] at accepted
    cases accepted

/-- A welcome that is accepted introduces the member that was sent. -/
theorem welcome (fills : message.Fills memory bufferSize) {count : Nat}
    {msg : MessageWelcome ClusterMemberRef}
    (accepted : (messageWelcomeDecode bufferSize).result memory = .ok (count, msg)) :
    (msg.load memory).thisMember ∈ message.members := by
  rw [messageWelcomeDecode_result] at accepted
  by_cases announced : Announces memory bufferSize messageWelcomeType
  · have typed := fills.type_eq announced
    have body := fills.body
    rw [if_neg (not_not.mpr announced)] at accepted
    split at accepted
    · cases accepted
    · obtain ⟨memberBytes, -, accepted⟩ := bind_eq_ok accepted
      obtain ⟨bytes, -, accepted⟩ := map_eq_ok accepted
      cases accepted
      cases message with
      | welcome sent =>
        -- The member follows the number of the hello that is answered.
        rw [Message.body, holds_append, Words.toBytes_length] at body
        have same := (memberAt_of_holds body.2).1
        exact List.mem_singleton.mpr same
      | _ =>
        simp only [Message.type] at typed
        exact absurd typed (by decide)
  · rw [if_pos announced] at accepted
    cases accepted

/-- A member list that is accepted names the members that were sent. -/
theorem memberList (fills : message.Fills memory bufferSize) {count : Nat}
    {msg : MessageMemberList ClusterMemberRef}
    (accepted : (messageMemberListDecode bufferSize).result memory = .ok (count, msg)) :
    ∀ member ∈ (msg.load memory).members, member ∈ message.members := by
  have fits := fills.fits
  have size := fills.size
  rw [messageMemberListDecode_result] at accepted
  by_cases announced : Announces memory bufferSize messageMemberListType
  · have typed := fills.type_eq announced
    have body := fills.body
    rw [if_neg (not_not.mpr announced)] at accepted
    split at accepted
    · cases accepted
    · obtain ⟨read, found, accepted⟩ := bind_eq_ok accepted
      obtain ⟨bytes, -, accepted⟩ := map_eq_ok accepted
      cases accepted
      cases message with
      | memberList sent =>
        -- As many members are read as were written, one behind the other.
        rw [Message.body, holds_append, Words.toBytes_length] at body
        have counted : (uint16At memory 12).toNat = sent.members.length := by
          rw [uint16At_of_holds body.1, MessageMemberList.membersN_toNat]
        have room : 14 + (sent.members.flatMap ClusterMember.wire).length ≤ bufferSize := by
          rw [size]
          simp only [Message.wire, Message.body, List.length_append, MessageHeader.wire_length,
            Words.toBytes_length]
          omega
        obtain ⟨refs, written, loaded⟩ :=
          clusterMembersDecode_of_holds sent.members 14 _ counted body.2 fits.1 room
        rw [written] at found
        cases found
        show ∀ member ∈ refs.1.map (·.load memory), member ∈ sent.members
        rw [loaded]
        exact fun member listed => listed
      | _ =>
        simp only [Message.type] at typed
        exact absurd typed (by decide)
  · rw [if_pos announced] at accepted
    cases accepted

/-- A data message that is accepted is the one that was sent. -/
theorem data (fills : message.Fills memory bufferSize) {count : Nat} {msg : MessageData}
    (accepted : (messageDataDecode bufferSize).result memory = .ok (count, msg)) :
    message = .data msg := by
  have typed_ := fills.typed
  have fits := fills.fits
  have held := fills.held
  have size := fills.size
  have announced : Announces memory bufferSize messageDataType := by
    rw [messageDataDecode_result] at accepted
    by_contra silent
    rw [if_pos silent] at accepted
    cases accepted
  have typed := fills.type_eq announced
  cases message with
  | data sent =>
    -- The decoder of this type reads the message back from memory that holds it.
    obtain ⟨decoded, read, same⟩ := messageDecode_of_holds typed_ fits
      (List.forall_mem_nil _) held vectorClockInit
    rw [← size, typed, messageDecode, if_neg (by decide), if_neg (by decide),
      if_neg (by decide), if_neg (by decide), if_pos rfl, accepted] at read
    cases read
    exact same.symm
  | _ =>
    simp only [Message.type] at typed
    exact absurd typed (by decide)

/-- An acknowledgement that is accepted is the one that was sent. -/
theorem ack (fills : message.Fills memory bufferSize) {count : Nat} {msg : MessageAck}
    (accepted : (messageAckDecode bufferSize).result memory = .ok (count, msg)) :
    message = .ack msg := by
  rw [messageAckDecode_result] at accepted
  by_cases announced : Announces memory bufferSize messageAckType
  · have typed := fills.type_eq announced
    have body := fills.body
    have header := fills.header_eq
    rw [if_neg (not_not.mpr announced)] at accepted
    split at accepted
    · cases accepted
    · cases accepted
      cases message with
      | ack sent =>
        -- The number that is acknowledged is all there is behind the header.
        have number : uint32At memory 12 = sent.ackSequenceNum := uint32At_of_holds body
        rw [header, number]
        rfl
      | _ =>
        simp only [Message.type] at typed
        exact absurd typed (by decide)
  · rw [if_pos announced] at accepted
    cases accepted

/-- A welcome that is accepted answers the hello that the sent one answers. -/
theorem welcomed (fills : message.Fills memory bufferSize) {count : Nat}
    {msg : MessageWelcome ClusterMemberRef}
    (accepted : (messageWelcomeDecode bufferSize).result memory = .ok (count, msg)) :
    ∃ sent, message = .welcome sent ∧ sent.helloSequenceNum = msg.helloSequenceNum := by
  rw [messageWelcomeDecode_result] at accepted
  -- The decoder reads the type off the bytes sent, so the message sent is a welcome too.
  by_cases announced : Announces memory bufferSize messageWelcomeType
  · have typed := fills.type_eq announced
    have body := fills.body
    rw [if_neg (not_not.mpr announced)] at accepted
    split at accepted
    · cases accepted
    · obtain ⟨memberBytes, -, accepted⟩ := bind_eq_ok accepted
      obtain ⟨bytes, -, accepted⟩ := map_eq_ok accepted
      cases accepted
      cases message with
      | welcome sent =>
        rw [Message.body, holds_append] at body
        exact ⟨sent, rfl, (uint32At_of_holds body.1).symm⟩
      | _ =>
        simp only [Message.type] at typed
        exact absurd typed (by decide)
  · rw [if_pos announced] at accepted
    cases accepted

/-- The members a datagram brings along are those of the message in it. -/
theorem brings {envelopeIn : MessageEnvelopeIn}
    (fills : message.Fills envelopeIn.buffer envelopeIn.bufferSize) :
    envelopeIn.Brings fun member => member ∈ message.members where
  hello _ _ accepted := fills.hello accepted
  welcome _ _ accepted := fills.welcome accepted
  memberList _ _ accepted := fills.memberList accepted

/-- The datagram of a message that fits fills the buffer it is received in. -/
theorem of_datagram {message : Message} (typed : message.Typed) (fits : message.Fits)
    (room : message.wire.length ≤ messageMaxSize) (sequenceNum : UInt32) (sender : List UInt8)
    (beyond : Nat → UInt8) :
    let envelopeIn := envelopeOf (message.datagram sequenceNum) sender beyond
    (message.renumbered sequenceNum).Fills envelopeIn.buffer envelopeIn.bufferSize := by
  have same := message.datagram_eq sequenceNum
  -- A datagram of this size is received as a whole.
  have whole : (message.renumbered sequenceNum).wire.length = message.wire.length := by
    simp only [Message.wire, List.length_append, MessageHeader.wire_length, renumbered_body]
  have taken : (message.datagram sequenceNum).take messageMaxSize
      = (message.renumbered sequenceNum).wire := by
    rw [same]
    exact List.take_of_length_le (by rw [whole]; exact room)
  refine ⟨typed.renumbered sequenceNum, fits.renumbered sequenceNum, ?_, ?_⟩
  · rw [envelopeOf, taken]
    exact holds_memoryOf _ beyond
  · rw [envelopeOf, taken]

end Message.Fills

end Pittacus
