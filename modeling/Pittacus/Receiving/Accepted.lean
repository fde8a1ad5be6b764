import Pittacus.Proofs.Stages
import Pittacus.Wire.Header

/-! What a received datagram is accepted as, and the handler it is left to. -/

namespace Pittacus

/-! ### Accepted messages -/

/-- The hello a datagram is accepted as. -/
def helloReceived (datagram : List UInt8) (beyond : Nat → UInt8) :
    Option (MessageHello ClusterMember) :=
  let received := datagram.take messageMaxSize
  match (messageHelloDecode received.length).result (Decoder.memoryOf received beyond) with
  | .ok (_, msg) => some (msg.load (Decoder.memoryOf received beyond))
  | .error _ => none

/-- The member list a datagram is accepted as. -/
def memberListReceived (datagram : List UInt8) (beyond : Nat → UInt8) :
    Option (MessageMemberList ClusterMember) :=
  let received := datagram.take messageMaxSize
  match (messageMemberListDecode received.length).result (Decoder.memoryOf received beyond) with
  | .ok (_, msg) => some (msg.load (Decoder.memoryOf received beyond))
  | .error _ => none

/-- The acknowledgement a datagram is accepted as. -/
def ackReceived (datagram : List UInt8) (beyond : Nat → UInt8) : Option MessageAck :=
  let received := datagram.take messageMaxSize
  match (messageAckDecode received.length).result (Decoder.memoryOf received beyond) with
  | .ok (_, msg) => some msg
  | .error _ => none

/-- The hello a call receives, if it receives one. -/
def Input.hello : Input → Option (MessageHello ClusterMember)
  | .processReceive datagram _ beyond _ => helloReceived datagram beyond
  | _ => none

/-- The member list a call receives, if it receives one. -/
def Input.memberList : Input → Option (MessageMemberList ClusterMember)
  | .processReceive datagram _ beyond _ => memberListReceived datagram beyond
  | _ => none

theorem helloReceived_some {datagram : List UInt8} (sender : List UInt8) {beyond : Nat → UInt8}
    {msg : MessageHello ClusterMember} :
    helloReceived datagram beyond = some msg ↔
      let envelopeIn := envelopeOf datagram sender beyond
      ∃ found, (messageHelloDecode envelopeIn.bufferSize).result envelopeIn.buffer = .ok found ∧
        found.2.load envelopeIn.buffer = msg := by
  simp only [helloReceived, envelopeOf]
  cases (messageHelloDecode (datagram.take messageMaxSize).length).result
    (Decoder.memoryOf (datagram.take messageMaxSize) beyond) with
  | error code => simp
  | ok found => simp

theorem memberListReceived_some {datagram : List UInt8} (sender : List UInt8) {beyond : Nat → UInt8}
    {msg : MessageMemberList ClusterMember} :
    memberListReceived datagram beyond = some msg ↔
      let envelopeIn := envelopeOf datagram sender beyond
      ∃ found, (messageMemberListDecode envelopeIn.bufferSize).result envelopeIn.buffer
        = .ok found ∧ found.2.load envelopeIn.buffer = msg := by
  simp only [memberListReceived, envelopeOf]
  cases (messageMemberListDecode (datagram.take messageMaxSize).length).result
    (Decoder.memoryOf (datagram.take messageMaxSize) beyond) with
  | error code => simp
  | ok found => simp

theorem welcomeReceived_some {datagram : List UInt8} (sender : List UInt8) {beyond : Nat → UInt8}
    {msg : MessageWelcome ClusterMember} :
    welcomeReceived datagram beyond = some msg ↔
      let envelopeIn := envelopeOf datagram sender beyond
      ∃ found, (messageWelcomeDecode envelopeIn.bufferSize).result envelopeIn.buffer = .ok found ∧
        found.2.load envelopeIn.buffer = msg := by
  simp only [welcomeReceived, envelopeOf]
  cases (messageWelcomeDecode (datagram.take messageMaxSize).length).result
    (Decoder.memoryOf (datagram.take messageMaxSize) beyond) with
  | error code => simp
  | ok found => simp

theorem ackReceived_some {datagram : List UInt8} (sender : List UInt8) {beyond : Nat → UInt8}
    {msg : MessageAck} :
    ackReceived datagram beyond = some msg ↔
      let envelopeIn := envelopeOf datagram sender beyond
      ∃ count, (messageAckDecode envelopeIn.bufferSize).result envelopeIn.buffer
        = .ok (count, msg) := by
  simp only [ackReceived, envelopeOf]
  cases (messageAckDecode (datagram.take messageMaxSize).length).result
    (Decoder.memoryOf (datagram.take messageMaxSize) beyond) with
  | error code => simp
  | ok found => simp [Prod.ext_iff]

/-! ### Handlers -/

section Handlers

variable {envelopeIn : MessageEnvelopeIn} (random : Nat → UInt32)

/-- A datagram accepted as a hello is handled as one. -/
theorem gossipHandleNewMessage_hello {found : Nat × MessageHello ClusterMemberRef}
    (accepted : (messageHelloDecode envelopeIn.bufferSize).result envelopeIn.buffer = .ok found) :
    gossipHandleNewMessage envelopeIn random = gossipHandleHello envelopeIn := by
  rw [gossipHandleNewMessage, messageTypeDecode_announced (announces_of_accepted accepted).1]
  rfl

/-- A datagram accepted as a welcome is handled as one. -/
theorem gossipHandleNewMessage_welcome {found : Nat × MessageWelcome ClusterMemberRef}
    (accepted : (messageWelcomeDecode envelopeIn.bufferSize).result envelopeIn.buffer
      = .ok found) :
    gossipHandleNewMessage envelopeIn random = gossipHandleWelcome envelopeIn := by
  rw [gossipHandleNewMessage, messageTypeDecode_announced (announces_of_accepted accepted).1]
  rfl

/-- A datagram accepted as a member list is handled as one. -/
theorem gossipHandleNewMessage_memberList {found : Nat × MessageMemberList ClusterMemberRef}
    (accepted : (messageMemberListDecode envelopeIn.bufferSize).result envelopeIn.buffer
      = .ok found) :
    gossipHandleNewMessage envelopeIn random = gossipHandleMemberList envelopeIn := by
  rw [gossipHandleNewMessage, messageTypeDecode_announced (announces_of_accepted accepted).1]
  rfl

/-- A datagram accepted as an acknowledgement is handled as one. -/
theorem gossipHandleNewMessage_ack {found : Nat × MessageAck}
    (accepted : (messageAckDecode envelopeIn.bufferSize).result envelopeIn.buffer = .ok found) :
    gossipHandleNewMessage envelopeIn random = gossipHandleAck envelopeIn := by
  rw [gossipHandleNewMessage, messageTypeDecode_announced (announces_of_accepted accepted).1]
  rfl

/-- A datagram accepted as a status is handled as one. -/
theorem gossipHandleNewMessage_status {prior : VectorClock} {found : Nat × MessageStatus}
    (accepted : (messageStatusDecode envelopeIn.bufferSize prior).result envelopeIn.buffer
      = .ok found) :
    gossipHandleNewMessage envelopeIn random = gossipHandleStatus envelopeIn := by
  rw [gossipHandleNewMessage, messageTypeDecode_announced (announces_of_accepted accepted).1]
  rfl

end Handlers

/-- A node that takes part in the exchange leaves what it receives to the handler. -/
theorem processReceive_exchanges {self : PittacusGossip} (exchanges : self.exchanges = true)
    {datagram : List UInt8} (some_ : datagram.take messageMaxSize ≠ []) (sender : List UInt8)
    (beyond : Nat → UInt8) (random : Nat → UInt32) :
    gossipStep (.processReceive datagram sender beyond random) self =
      gossipHandleNewMessage (envelopeOf datagram sender beyond) random self := by
  have nonempty : (datagram.take messageMaxSize).isEmpty = false := by simpa using some_
  simp only [gossipStep, pittacusGossipProcessReceive, Routine.get_bind_run, exchanges, nonempty]
  rfl

/-- A datagram that announces a type is not empty. -/
theorem received_of_announced {datagram sender : List UInt8} {beyond : Nat → UInt8} {type : UInt8}
    (announced : Announces (envelopeOf datagram sender beyond).buffer
      (envelopeOf datagram sender beyond).bufferSize type) :
    datagram.take messageMaxSize ≠ [] := by
  intro empty
  have long : messageHeaderSize ≤ (datagram.take messageMaxSize).length := announced.1
  rw [empty] at long
  exact absurd long (by decide)

end Pittacus
