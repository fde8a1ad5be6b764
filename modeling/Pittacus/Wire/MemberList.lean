import Mathlib
import Pittacus.Wire.Layout

/-!
Which member lists the encoder handles as its callers expect.

The size it asks for up front takes every member at its largest, while addresses may be longer.
A member that does not fit is skipped, and its error code is added to the cursor.
-/

namespace Pittacus

/-! ### What the encoder promises -/

/-- The number of bytes a member list takes on the wire. -/
def MessageMemberList.wireLength (msg : MessageMemberList ClusterMember) : Nat :=
  14 + (msg.members.map fun member => 10 + member.address.length).sum

/-- The encoder wrote the header, the count and every member in order, and counted them all. -/
def MessageMemberList.Complete (msg : MessageMemberList ClusterMember) (bufferSize : Nat) : Prop :=
  msg.wireLength ≤ bufferSize ∧
    messageMemberListEncode msg bufferSize =
      ⟨.ok (msg.wireLength : Int), Encoder.located 0 (Message.memberList msg).wire⟩

/-- The encoder gave up with an error before it wrote anything. -/
def MessageMemberList.Refused (msg : MessageMemberList ClusterMember) (bufferSize : Nat) : Prop :=
  ∃ code < 0, messageMemberListEncode msg bufferSize = Encoder.fail code

/-- The encoder returned a negative number, whatever it wrote. -/
def MessageMemberList.Negative (msg : MessageMemberList ClusterMember) (bufferSize : Nat) : Prop :=
  ∃ code < 0, (messageMemberListEncode msg bufferSize).result = .error code

/-- The buffer fails the check up front, or it takes all members, counted by a C `int`. -/
def MessageMemberList.Encodable (msg : MessageMemberList ClusterMember) (bufferSize : Nat) : Prop :=
  bufferSize < 14 + msg.members.length * clusterMemberSize ∨
    msg.wireLength ≤ bufferSize ∧ msg.wireLength < 2 ^ 31

/-- Members that can be skipped even at the start of a buffer for `slots` members of full size. -/
def oversized (slots : Nat) (members : List ClusterMember) : List ClusterMember :=
  -- A member of full size takes 138 bytes, and one that is skipped moves the cursor back by five.
  members.filter fun member => slots * 133 < 10 + member.address.length

/-! ### Sizes -/

/-- The bytes of a member list are as many as its length says. -/
theorem MessageMemberList.wire_length (msg : MessageMemberList ClusterMember) :
    (Message.memberList msg).wire.length = msg.wireLength := by
  -- Header and count take fourteen bytes, and each member its own length.
  have members : (msg.members.flatMap ClusterMember.wire).length
      = (msg.members.map fun member => 10 + member.address.length).sum := by
    simp only [List.length_flatMap, ClusterMember.wire_length]
  simp only [Message.wire, Message.header, Message.body, List.length_append,
    MessageHeader.wire_length, Words.toBytes_length, members, MessageMemberList.wireLength]
  omega

/-- The first member of a list is one more that can be skipped, or it is not. -/
theorem oversized_cons (slots : Nat) (member : ClusterMember) (rest : List ClusterMember) :
    (oversized slots (member :: rest)).length
      = (oversized slots rest).length
        + if slots * 133 < 10 + member.address.length then 1 else 0 := by
  rw [oversized, List.filter_cons, oversized]
  split <;> simp_all

/-- No more members can be skipped than there are. -/
theorem oversized_length_le (slots : Nat) (members : List ClusterMember) :
    (oversized slots members).length ≤ members.length :=
  List.length_filter_le _ _

/-! ### The walk over the members -/

/-- A member that does not fit is answered with an error code. -/
theorem clusterMemberEncode_short {member : ClusterMember} {bufferSize : Nat} (cursor : Int)
    (short : bufferSize < 10 + member.address.length) :
    clusterMemberEncode member cursor bufferSize = Encoder.fail (-5) := by
  have lacking : bufferSize < 2 * 4 + 2 + member.addressLen.toNat := by
    rw [ClusterMember.addressLen_toNat]
    omega
  rw [clusterMemberEncode, if_pos lacking]
  rfl

/-- The cursor stays inside the buffer while five bytes are left for each member it may skip. -/
theorem clusterMembersEncode_inside {bufferEnd slots : Nat} (small : bufferEnd < 2 ^ 31)
    (room : slots * clusterMemberSize ≤ bufferEnd) (members : List ClusterMember)
    (few : members.length ≤ slots) (cursor : Nat)
    (low : 5 * (oversized slots members).length ≤ cursor) (high : cursor ≤ bufferEnd) :
    ∃ last : Nat, last ≤ bufferEnd ∧ ∃ writes,
      clusterMembersEncode bufferEnd cursor members = ⟨.ok (last : Int), writes⟩ := by
  induction members generalizing cursor with
  | nil => exact ⟨cursor, high, [], rfl⟩
  | cons member rest ih =>
    have left : Words.toSize ((bufferEnd : Int) - (cursor : Int)) = bufferEnd - cursor :=
      Words.toSize_sub high
    have fewer := oversized_length_le slots rest
    rw [oversized_cons] at low
    simp only [List.length_cons, clusterMemberSize, sockaddrStorageSize] at few low room
    by_cases fits : 10 + member.address.length ≤ bufferEnd - cursor
    · -- A member that fits moves the cursor on.
      have written := clusterMemberEncode_eq member cursor (bufferEnd - cursor) fits (by omega)
      obtain ⟨last, inside, writes, further⟩ :=
        ih (by omega) (cursor + (10 + member.address.length)) (by omega) (by omega)
      refine ⟨last, inside, Encoder.located cursor member.wire ++ writes, ?_⟩
      rw [clusterMembersEncode, left, written, Encoder.unchecked_ok, Encoder.ok_bind,
        ← Int.natCast_add, further]
    · -- A member that does not fit is an oversized one, or the cursor is far into the buffer.
      have skipped := clusterMemberEncode_short (cursor : Int) (Nat.lt_of_not_le fits)
      have back : 5 ≤ cursor ∧ 5 * (oversized slots rest).length ≤ cursor - 5 := by
        by_cases huge : slots * 133 < 10 + member.address.length
        · rw [if_pos huge] at low
          omega
        · omega
      obtain ⟨last, inside, writes, further⟩ := ih (by omega) (cursor - 5) back.2 (by omega)
      have moved : (cursor : Int) + (-5) = ((cursor - 5 : Nat) : Int) := by omega
      refine ⟨last, inside, writes, ?_⟩
      rw [clusterMembersEncode, left, skipped]
      show Encoder.mk _ ([] ++ _) = _
      simp only [moved, further, List.nil_append]

/-! ### The encoder -/

/-- Past the check up front, the header and the count are in front of the members. -/
theorem messageMemberListEncode_walk {msg : MessageMemberList ClusterMember} {bufferSize : Nat}
    (room : 14 + msg.members.length * clusterMemberSize ≤ bufferSize) :
    messageMemberListEncode msg bufferSize =
      ⟨.ok 14, Encoder.located 0 (msg.header.wire ++ Words.toBytes 2 msg.members.length)⟩ >>=
        fun cursor => clusterMembersEncode bufferSize cursor msg.members >>= encodedBytes := by
  have enough : ¬bufferSize < messageHeaderSize + 2 + msg.membersN.toNat * clusterMemberSize := by
    rw [MessageMemberList.membersN_toNat]
    exact Nat.not_lt.mpr room
  have headed : messageHeaderSize ≤ bufferSize := by
    simp only [messageHeaderSize]
    omega
  -- The check in front passes, and what is written before the members cannot fail.
  rw [messageMemberListEncode, if_neg enough, messageHeaderEncode_eq msg.header headed]
  simp only [Encoder.ok_bind, uint16Encode, Encoder.putAt_bind, Encoder.located_append,
    MessageHeader.wire_length, MessageMemberList.membersN_toNat, List.append_assoc]
  rfl

/-- A list whose members all fit is encoded completely. -/
theorem MessageMemberList.complete_of_room {msg : MessageMemberList ClusterMember}
    {bufferSize : Nat} (room : 14 + msg.members.length * clusterMemberSize ≤ bufferSize)
    (fits : msg.wireLength ≤ bufferSize) (small : msg.wireLength < 2 ^ 31) :
    msg.Complete bufferSize := by
  have sized := msg.wire_length
  refine ⟨fits, ?_⟩
  simp only [Message.wire, Message.header, Message.body, List.length_append,
    MessageHeader.wire_length, Words.toBytes_length] at sized
  -- Room for whole members leaves room for each, wherever the ones before it end.
  have members := @clusterMembersEncode_room bufferSize msg.members 14 (by omega) (by omega)
  have last : 14 + (msg.members.flatMap ClusterMember.wire).length = msg.wireLength := by omega
  rw [last] at members
  rw [messageMemberListEncode_walk room, Message.wire, Message.header, Message.body,
    MessageMemberList.membersN_toNat, ← List.append_assoc]
  apply located_then
  · rfl
  have start : (0 : Int) + (msg.header.wire ++ Words.toBytes 2 msg.members.length).length
      = ((14 : Nat) : Int) := by
    simp
  rw [start]
  show clusterMembersEncode bufferSize ((14 : Nat) : Int) msg.members >>= encodedBytes = _
  rw [members]
  apply located_last
  · rfl
  exact encodedBytes_of_small small

/-- A byte count that is returned is in the range of a C `int`. -/
theorem encodedBytes_lt {count answer : Int} (counted : (encodedBytes count).result = .ok answer) :
    answer < 2 ^ 31 := by
  -- Balanced residues modulo the word stay below half of it.
  have below := @Int.bmod_lt count (2 ^ 32) (by decide)
  by_cases negative : Words.toInt count < 0
  · simp only [encodedBytes, if_pos negative] at counted
    cases counted
  · simp only [encodedBytes, if_neg negative] at counted
    cases counted
    exact below

/-- A buffer that fails the check up front is left alone. -/
theorem MessageMemberList.refused_of_short {msg : MessageMemberList ClusterMember}
    {bufferSize : Nat} (short : bufferSize < 14 + msg.members.length * clusterMemberSize) :
    msg.Refused bufferSize :=
  ⟨_, PittacusError.code_neg .bufferNotEnough,
    messageEncode_short (show bufferSize < (Message.memberList msg).required from short)⟩

/-- Only a buffer that fails the check up front is left alone. -/
theorem MessageMemberList.Refused.short {msg : MessageMemberList ClusterMember} {bufferSize : Nat}
    (refused : msg.Refused bufferSize) :
    bufferSize < 14 + msg.members.length * clusterMemberSize := by
  -- Past that check the header is written, whatever becomes of the members.
  by_contra enough
  obtain ⟨code, _, failed⟩ := refused
  have untouched := congrArg Encoder.writes failed
  rw [messageMemberListEncode_walk (Nat.le_of_not_lt enough), Encoder.ok_bind] at untouched
  have nothing := congrArg List.length (List.append_eq_nil_iff.mp untouched).1
  have header : 0 < (msg.header.wire ++ Words.toBytes 2 msg.members.length).length := by simp
  cases bytes : msg.header.wire ++ Words.toBytes 2 msg.members.length with
  | nil => simp [bytes] at header
  | cons byte rest => simp [bytes, Encoder.located] at nothing

/-- A list that is counted completely was small enough for a C `int`. -/
theorem MessageMemberList.Complete.small {msg : MessageMemberList ClusterMember} {bufferSize : Nat}
    (complete : msg.Complete bufferSize)
    (room : 14 + msg.members.length * clusterMemberSize ≤ bufferSize) :
    msg.wireLength < 2 ^ 31 := by
  -- The count is what the last conversion to `int` answered.
  have counted := congrArg Encoder.result complete.2
  rw [messageMemberListEncode_walk room, Encoder.ok_bind] at counted
  cases walked : (clusterMembersEncode bufferSize 14 msg.members).result with
  | error code =>
    simp only [bind, walked] at counted
    cases counted
  | ok last =>
    simp only [bind, walked] at counted
    have below := encodedBytes_lt counted
    omega

/-- With few oversized members the cursor ends inside the buffer and its place is returned. -/
theorem MessageMemberList.not_negative {msg : MessageMemberList ClusterMember} {bufferSize : Nat}
    (room : 14 + msg.members.length * clusterMemberSize ≤ bufferSize)
    (small : bufferSize < 2 ^ 31)
    (few : (oversized msg.members.length msg.members).length < 3) :
    ¬msg.Negative bufferSize := by
  rintro ⟨code, _, failed⟩
  -- The header and the count leave the cursor fourteen bytes in, enough to be moved back twice.
  obtain ⟨last, inside, writes, walked⟩ :=
    clusterMembersEncode_inside small (Nat.le_of_add_left_le room) msg.members
      (Nat.le_refl _) 14 (by omega) (by omega)
  have counted := @encodedBytes_of_small last (by omega)
  rw [messageMemberListEncode_walk room, Encoder.ok_bind] at failed
  have start : clusterMembersEncode bufferSize 14 msg.members = ⟨.ok (last : Int), writes⟩ := walked
  simp only [start, Encoder.ok_bind, counted] at failed
  cases failed

/-! ### Reported failures -/

/--
Past the check up front, a list is encoded completely exactly when all of its members fit.

Every other list is answered with a number although members are missing, and that number is
negative only if at least three members are long enough to move the cursor in front of the buffer.
-/
theorem messageMemberListEncode_reports (msg : MessageMemberList ClusterMember)
    (bufferSize : Nat) :
    (msg.Refused bufferSize ∨ msg.Complete bufferSize ↔ msg.Encodable bufferSize) ∧
      (bufferSize < 2 ^ 31 → (oversized msg.members.length msg.members).length < 3 →
        (msg.Negative bufferSize ∨ msg.Complete bufferSize ↔ msg.Encodable bufferSize)) := by
  by_cases short : bufferSize < 14 + msg.members.length * clusterMemberSize
  · -- The check up front fails, and nothing else is needed.
    have refused := MessageMemberList.refused_of_short short
    have ⟨code, negative, failed⟩ := refused
    have answered : msg.Negative bufferSize := ⟨code, negative, congrArg Encoder.result failed⟩
    exact ⟨iff_of_true (.inl refused) (.inl short),
      fun _ _ => iff_of_true (.inl answered) (.inl short)⟩
  · have room := Nat.le_of_not_lt short
    have exactly : msg.Complete bufferSize ↔ msg.Encodable bufferSize := by
      constructor
      · exact fun complete => .inr ⟨complete.1, complete.small room⟩
      · rintro (early | ⟨fits, small⟩)
        · exact absurd early short
        · exact MessageMemberList.complete_of_room room fits small
    constructor
    · rw [← exactly]
      exact or_iff_right fun refused => short refused.short
    · intro small few
      rw [← exactly]
      exact or_iff_right (MessageMemberList.not_negative room small few)

/-- A member with the given number of address bytes. -/
def memberOfLength (addressLen : Nat) (bounded : addressLen < 2 ^ 32) : ClusterMember where
  version := protocolVersion
  uid := 1
  address := List.replicate addressLen 7
  bounded := by rwa [List.length_replicate]

/-- One member with a short address and one with an address as long as a whole datagram. -/
def mixedMemberList : MessageMemberList ClusterMember where
  header := messageHeaderInit messageMemberListType 1
  members := [memberOfLength 16 (by decide), memberOfLength 500 (by decide)]
  bounded := by decide

/-- The reported failures apply to a list of two members, which are too few to be negative. -/
theorem messageMemberListEncode_reports_mixed :
    (mixedMemberList.Negative 600 ∨ mixedMemberList.Complete 600 ↔
      mixedMemberList.Encodable 600) :=
  (messageMemberListEncode_reports mixedMemberList 600).2 (by decide) (by decide +kernel)

/-- A datagram without the second of two members is answered with a number of bytes. -/
theorem messageMemberListEncode_mixed :
    (messageMemberListEncode mixedMemberList 512).result = .ok 35 ∧
      ¬mixedMemberList.Negative 512 ∧ ¬mixedMemberList.Complete 512 := by
  -- The first member is written, the second moves the cursor back by its error code.
  have answer : (messageMemberListEncode mixedMemberList 512).result = .ok 35 := by
    decide +kernel
  refine ⟨answer, ?_, ?_⟩
  · rintro ⟨code, _, failed⟩
    rw [answer] at failed
    cases failed
  · rintro ⟨fits, _⟩
    exact absurd fits (by decide +kernel)

end Pittacus
