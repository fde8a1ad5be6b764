import Pittacus.Cluster.Datagrams
import Pittacus.Receiving.Accepted

/-! What a message that was sent arrives as. -/

namespace Pittacus

/-- A message that is in order, with addresses that can be sent and fit. -/
structure Message.Deliverable (message : Message) : Prop where
  typed : message.Typed
  fits : message.Fits
  addresses : ∀ member ∈ message.members, 16 ≤ member.address.length
  room : message.required ≤ messageMaxSize

/-- A call that receives the datagram of a message, under some number, from somewhere. -/
def Input.Carries (input : Input) (message : Message) : Prop :=
  ∃ sequenceNum sender beyond random,
    input = .processReceive (message.datagram sequenceNum) sender beyond random

namespace Message.Deliverable

variable {message : Message} (sequenceNum : UInt32) (sender : List UInt8) (beyond : Nat → UInt8)

/-- The datagram of a deliverable message fills the buffer it arrives in. -/
theorem fills (deliverable : message.Deliverable) :
    let envelopeIn := envelopeOf (message.datagram sequenceNum) sender beyond
    (message.renumbered sequenceNum).Fills envelopeIn.buffer envelopeIn.bufferSize :=
  Message.Fills.of_datagram deliverable.typed deliverable.fits
    (Nat.le_trans deliverable.fits.wire_length_le deliverable.room) sequenceNum sender beyond

/-- It is decoded as that message, its number being that of the datagram. -/
theorem decoded (deliverable : message.Deliverable) :
    let envelopeIn := envelopeOf (message.datagram sequenceNum) sender beyond
    ∃ count decoded,
      messageDecode message.type envelopeIn.bufferSize vectorClockInit envelopeIn.buffer
        = .ok (count, decoded) ∧ decoded.Same (message.renumbered sequenceNum) := by
  have fills := deliverable.fills sequenceNum sender beyond
  -- The number in the datagram is the envelope's, which changes no member.
  have addresses : ∀ member ∈ (message.renumbered sequenceNum).members,
      16 ≤ member.address.length := by
    rw [Message.renumbered_members]
    exact deliverable.addresses
  obtain ⟨decoded, read, same⟩ :=
    messageDecode_of_holds fills.typed fills.fits addresses fills.held vectorClockInit
  rw [← fills.size, Message.renumbered_type] at read
  exact ⟨_, decoded, read, same⟩

/-- The hello that introduces a member arrives as such. -/
theorem hello {msg : MessageHello ClusterMember}
    (deliverable : (Message.hello msg).Deliverable) :
    helloReceived ((Message.hello msg).datagram sequenceNum) beyond
      = some { msg with header := msg.header.renumbered sequenceNum } := by
  obtain ⟨count, decoded, read, same⟩ := deliverable.decoded sequenceNum [] beyond
  simp only [messageDecode, Message.type, if_true] at read
  obtain ⟨found, accepted, made⟩ := map_eq_ok read
  rw [← (Prod.mk.inj made).2] at same
  exact (helloReceived_some []).mpr ⟨found, accepted, Message.hello.inj same⟩

/-- The welcome of a seed node arrives as such. -/
theorem welcome {msg : MessageWelcome ClusterMember}
    (deliverable : (Message.welcome msg).Deliverable) :
    welcomeReceived ((Message.welcome msg).datagram sequenceNum) beyond
      = some { msg with header := msg.header.renumbered sequenceNum } := by
  obtain ⟨count, decoded, read, same⟩ := deliverable.decoded sequenceNum [] beyond
  -- The decoder is chosen by the type, so its answer is read as a welcome.
  have type : (Message.welcome msg).type = messageWelcomeType := rfl
  rw [messageDecode, type, if_neg (by decide), if_pos rfl] at read
  obtain ⟨found, accepted, made⟩ := map_eq_ok read
  rw [← (Prod.mk.inj made).2] at same
  exact (welcomeReceived_some []).mpr ⟨found, accepted, Message.welcome.inj same⟩

/-- A member list arrives as such. -/
theorem memberList {msg : MessageMemberList ClusterMember}
    (deliverable : (Message.memberList msg).Deliverable) :
    memberListReceived ((Message.memberList msg).datagram sequenceNum) beyond
      = some { msg with header := msg.header.renumbered sequenceNum } := by
  obtain ⟨count, decoded, read, same⟩ := deliverable.decoded sequenceNum [] beyond
  -- The decoder is chosen by the type, so its answer is read as a member list.
  have type : (Message.memberList msg).type = messageMemberListType := rfl
  rw [messageDecode, type, if_neg (by decide), if_neg (by decide), if_pos rfl] at read
  obtain ⟨found, accepted, made⟩ := map_eq_ok read
  rw [← (Prod.mk.inj made).2] at same
  exact (memberListReceived_some []).mpr ⟨found, accepted, Message.memberList.inj same⟩

end Message.Deliverable

end Pittacus
