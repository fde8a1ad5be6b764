import Pittacus.Messages
import Pittacus.Basic.Machine

/-! The state of a node: its outbound queue, its data log, and the events it causes. -/

namespace Pittacus

/-- The stages in the life of a node. -/
inductive PittacusGossipState where
  | initialized
  | joining
  | connected
  | leaving
  | disconnected
  | destroyed
  deriving DecidableEq, Repr

/-- How a message is distributed. -/
inductive GossipSpreadingType where
  | direct
  | random
  | broadcast
  deriving DecidableEq, Repr

/-- A received datagram, with the memory it lies at the start of. -/
structure MessageEnvelopeIn where
  sender : List UInt8
  buffer : Nat → UInt8
  bufferSize : Nat

/--
A message waiting in the outbound queue for one recipient.

The bytes themselves lie in the output buffer, possibly shared with other envelopes.
The message they were encoded from is kept for reference only; the code has no such field.
-/
structure MessageEnvelopeOut where
  recipient : List UInt8
  buffer : Nat
  bufferSize : Nat
  sequenceNum : UInt32
  attemptTs : Nat
  attemptNum : Nat
  maxAttempts : Nat
  message : Message

/-- A logged message; the payload array keeps older bytes behind the payload. -/
structure DataLogRecord where
  version : VectorRecord
  dataSize : UInt16
  data : List UInt8
  deriving DecidableEq

/-- The latest messages of the most recently met originators. -/
structure DataLog where
  messages : List DataLogRecord
  size : Nat
  currentIdx : Nat

/-- The logged messages in use, in slot order. -/
def DataLog.live (log : DataLog) : List DataLogRecord := log.messages.take log.size

/-- A node. -/
structure PittacusGossip where
  outputBuffer : Nat → UInt8
  outputBufferOffset : Nat
  outboundMessages : List MessageEnvelopeOut
  sequenceNum : UInt32
  dataCounter : UInt32
  dataVersion : VectorClock
  state : PittacusGossipState
  selfAddress : ClusterMember
  members : ClusterMemberSet
  dataLog : DataLog
  lastGossipTs : Nat
  /-- Whether the user supplied a data receiver. -/
  dataReceiver : Bool
  /-- What memory holds that was allocated but never written. -/
  unset : Nat → UInt8

/-- Why an envelope left the outbound queue. -/
inductive RemovalReason where
  /-- Its sequence number was named by an acknowledgement or a welcome. -/
  | acknowledged
  /-- It was sent, and is not to be sent again. -/
  | sentOnce
  /-- All its attempts were used up. -/
  | exhausted
  /-- It stood directly behind an exhausted envelope for the same recipient. -/
  | sameRecipient
  /-- Its slot of the output buffer was taken for another message. -/
  | reclaimed
  deriving DecidableEq, Repr

/-- What a node does that its environment, or a statement about it, can observe. -/
inductive Event where
  /-- A message was about to be encoded into a slot, chosen for the queue that was found. -/
  | enqueue (found : List MessageEnvelopeOut) (slot : Nat) (left : List MessageEnvelopeOut)
      (message : Message) (spreading : GossipSpreadingType)
  /-- A datagram was handed to the socket. -/
  | sendTo (envelope : MessageEnvelopeOut) (datagram : List UInt8) (now : Nat) (result : Int)
  /-- An envelope left the outbound queue. -/
  | remove (envelope : MessageEnvelopeOut) (reason : RemovalReason)
  /-- A received data message was logged as new. -/
  | log (msg : MessageData)
  /-- The data receiver was invoked. -/
  | receive (version : VectorRecord) (data : List UInt8)

/-! ### The data log -/

/-- The message a record was logged from, under a fresh header. -/
def gossipDataLogCreateMessage (record : DataLogRecord) : MessageData where
  header := messageHeaderInit messageDataType 0
  dataVersion := record.version
  -- The array may hold older bytes behind the payload.
  data := record.data.take record.dataSize.toNat
  bounded := by
    have := record.dataSize.toNat_lt
    simp only [List.length_take]
    omega

/-- Copy the payload of a message over the start of a record's payload array. -/
def DataLogRecord.withPayload (record : DataLogRecord) (msg : MessageData) : DataLogRecord :=
  { record with
    dataSize := msg.dataSize
    data := msg.data ++ record.data.drop msg.data.length }

/-- Save only the latest data message from each originator. -/
def gossipDataLog (log : DataLog) (msg : MessageData) : DataLog :=
  match log.live.findIdx? fun record => record.version.memberId = msg.dataVersion.memberId with
  | some i =>
    -- The originator has a record: its id stays, number and payload are replaced.
    { log with
      messages := log.messages.modify i fun record =>
        { record with
          version := { record.version with sequenceNumber := msg.dataVersion.sequenceNumber }
        }.withPayload msg }
  | none =>
    -- The data message with the same originator was not found.
    { messages := log.messages.modify log.currentIdx fun record =>
        { record with version := msg.dataVersion }.withPayload msg
      size := if log.size < dataLogSize then log.size + 1 else log.size
      currentIdx := if log.currentIdx + 1 ≥ dataLogSize then 0 else log.currentIdx + 1 }

/-! ### The outbound queue -/

/-- The first queued envelope with a sequence number. -/
def gossipEnvelopeFindBySequenceNum (queue : List MessageEnvelopeOut) (sequenceNum : UInt32) :
    Option MessageEnvelopeOut :=
  queue.find? fun envelope => envelope.sequenceNum = sequenceNum

/-- Take the first queued envelope with a sequence number out of the queue, if there is one. -/
def gossipEnvelopeAcknowledge (sequenceNum : UInt32) : Routine PittacusGossip Event Unit := do
  let self ← Routine.get
  match gossipEnvelopeFindBySequenceNum self.outboundMessages sequenceNum with
  | none => return
  | some envelope =>
    Routine.modify fun self =>
      { self with
        outboundMessages := self.outboundMessages.eraseP fun queued =>
          queued.sequenceNum = sequenceNum }
    Routine.emit [.remove envelope .acknowledged]

end Pittacus
