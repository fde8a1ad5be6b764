import Pittacus.Gossip.Handlers
import Pittacus.Wire.Layout

/-! The calls an application makes on a node, and the runs they form. -/

namespace Pittacus

/-- What the allocator handed out for a new node before anything was written to it. -/
structure FreshMemory where
  outputBuffer : Nat → UInt8
  messages : Vector DataLogRecord 25
  unset : Nat → UInt8

/--
A new node, bound to a socket of the given address.

The address is the one the socket reports, which fits the structure it is copied to.
-/
def pittacusGossipCreate (selfAddress : List UInt8)
    (bounded : selfAddress.length ≤ sockaddrStorageSize) (now : Nat) (dataReceiver : Bool)
    (fresh : FreshMemory) : PittacusGossip where
  outputBuffer := fresh.outputBuffer
  outputBufferOffset := 0
  outboundMessages := []
  sequenceNum := 0
  dataCounter := 0
  dataVersion := vectorClockInit
  state := .initialized
  selfAddress := clusterMemberInit selfAddress (Nat.lt_of_le_of_lt bounded (by decide)) now
  members := clusterMemberSetInit
  dataLog := ⟨fresh.messages.toList, 0, 0⟩
  lastGossipTs := 0
  dataReceiver := dataReceiver
  unset := fresh.unset

/-- What a node is created with. -/
structure NodeSetup where
  selfAddress : List UInt8
  bounded : selfAddress.length ≤ sockaddrStorageSize
  now : Nat
  dataReceiver : Bool
  fresh : FreshMemory

/-- The node created with a setup. -/
def NodeSetup.node (setup : NodeSetup) : PittacusGossip :=
  pittacusGossipCreate setup.selfAddress setup.bounded setup.now setup.dataReceiver setup.fresh

/-- Introduce the node to each seed node in turn. -/
def gossipEnqueueHellos : List (List UInt8) → Routine PittacusGossip Event Int
  | [] => do
    Routine.modify fun self => { self with state := .joining }
    return errNone
  | seed :: rest => do
    let res ← gossipEnqueueHello seed
    if res < 0 then return res else gossipEnqueueHellos rest

/-- Join a cluster through the given seed nodes, or start one when there are none. -/
def pittacusGossipJoin (seedNodes : List (List UInt8)) : Routine PittacusGossip Event Int := do
  let self ← Routine.get
  if self.state ≠ .initialized then return PittacusError.badState.code
  else if seedNodes.isEmpty then do
    -- No seed nodes were provided.
    Routine.modify fun self => { self with state := .connected }
    return errNone
  else gossipEnqueueHellos seedNodes

/-- Whether the node takes part in the exchange of datagrams. -/
def PittacusGossip.exchanges (self : PittacusGossip) : Bool :=
  self.state == .joining || self.state == .connected

/--
Read one datagram from the socket and handle it.

No more of the datagram than the input buffer holds is received, and nothing of it is an error.
-/
def pittacusGossipProcessReceive (datagram sender : List UInt8) (beyond : Nat → UInt8)
    (random : Nat → UInt32) : Routine PittacusGossip Event Int := do
  let self ← Routine.get
  if !self.exchanges then return PittacusError.badState.code
  else
    -- What lies behind the datagram in the buffer is left over from earlier ones.
    let received := datagram.take messageMaxSize
    let envelope : MessageEnvelopeIn :=
      { sender := sender
        buffer := Decoder.memoryOf received beyond
        bufferSize := received.length }
    if received.isEmpty then return PittacusError.readFailed.code
    else gossipHandleNewMessage envelope random

/-- The bytes of an envelope's datagram as they lie in the output buffer. -/
def envelopeBytes (outputBuffer : Nat → UInt8) (envelope : MessageEnvelopeOut) : List UInt8 :=
  Decoder.slice outputBuffer envelope.buffer envelope.bufferSize

/-- Write the sequence number of an envelope over that in its buffer. -/
def patchSequenceNum (outputBuffer : Nat → UInt8) (envelope : MessageEnvelopeOut) :
    Nat → UInt8 :=
  -- The sequence number is the last field of the header.
  Encoder.store outputBuffer envelope.buffer
    (Encoder.located ((messageHeaderSize - 4 : Nat) : Int)
      (Words.toBytes 4 envelope.sequenceNum.toNat))

/-- Whether an envelope goes to the recipient of another one, as far as its own address goes. -/
def sharesRecipient (unset : Nat → UInt8) (next current : MessageEnvelopeOut) : Bool :=
  memcmpEqual (Decoder.memoryOf next.recipient unset) (Decoder.memoryOf current.recipient unset)
    next.recipient.length

/--
Walk the outbound queue, having passed the envelopes in `passed`.

While `exhausted` names an envelope given up on, those for its recipient are dropped with it.
The clock is read, and the socket written to, once for each envelope that gets that far.
-/
def processSendFrom (times : Nat → Nat) (results : Nat → Int) :
    Option MessageEnvelopeOut → Nat → Nat → List MessageEnvelopeOut → List MessageEnvelopeOut →
    Routine PittacusGossip Event Int
  | _, _, sent, _, [] => return (sent : Int)
  | exhausted, readings, sent, passed, current :: rest => do
    let self ← Routine.get
    if exhausted.any (sharesRecipient self.unset current) then do
      -- Quite often the same recipient has several messages in a row.
      Routine.modify fun self => { self with outboundMessages := passed ++ rest }
      Routine.emit [.remove current .sameRecipient]
      processSendFrom times results exhausted readings sent passed rest
    else if current.attemptNum ≥ current.maxAttempts then do
      -- The message exceeded the maximum number of attempts.
      Routine.modify fun self => { self with outboundMessages := passed ++ rest }
      Routine.emit [.remove current .exhausted]
      if current.maxAttempts > 1 then do
        -- Remove node from the list since it's unreachable.
        Routine.modify fun self =>
          { self with
            members := clusterMemberSetRemoveByAddr self.unset self.members
              (Decoder.memoryOf current.recipient self.unset) current.recipient.length }
        processSendFrom times results (some current) readings sent passed rest
      else processSendFrom times results none readings sent passed rest
    else
      let currentTs := times readings
      if current.attemptNum ≠ 0 ∧ current.attemptTs + messageRetryInterval > currentTs then
        -- It's not yet time to retry this message.
        processSendFrom times results none (readings + 1) sent (passed ++ [current]) rest
      else do
        -- The envelopes that share a buffer have their numbers written into it in turn.
        Routine.modify fun self =>
          { self with outputBuffer := patchSequenceNum self.outputBuffer current }
        let self ← Routine.get
        let writeResult := results sent
        Routine.emit
          [.sendTo current (envelopeBytes self.outputBuffer current) currentTs writeResult]
        -- A failed write breaks the round off; the envelope stays as if it had not been tried.
        if writeResult < 0 then return PittacusError.writeFailed.code
        else
          let attempted :=
            { current with attemptTs := currentTs, attemptNum := current.attemptNum + 1 }
          if current.maxAttempts ≤ 1 then do
            -- The message must be sent only once. Remove it immediately.
            Routine.modify fun self => { self with outboundMessages := passed ++ rest }
            Routine.emit [.remove attempted .sentOnce]
            processSendFrom times results none (readings + 1) (sent + 1) passed rest
          else do
            Routine.modify fun self =>
              { self with outboundMessages := passed ++ attempted :: rest }
            processSendFrom times results none (readings + 1) (sent + 1) (passed ++ [attempted])
              rest

/-- Send every queued message that is due. -/
def pittacusGossipProcessSend (times : Nat → Nat) (results : Nat → Int) :
    Routine PittacusGossip Event Int := do
  let self ← Routine.get
  if !self.exchanges then return PittacusError.badState.code
  else processSendFrom times results none 0 0 [] self.outboundMessages

/-- Spread a payload within the cluster. -/
def pittacusGossipSendData (data : List UInt8) (random : Nat → UInt32) :
    Routine PittacusGossip Event Int :=
  returnIfNotConnected (gossipEnqueueData data random)

/-- Announce the data version, if the time for it has come. -/
def pittacusGossipTick (now : Nat) (random : Nat → UInt32) :
    Routine PittacusGossip Event Int := do
  let self ← Routine.get
  if self.state ≠ .connected then return (gossipTickInterval : Int)
  else
    let nextGossipTs := self.lastGossipTs + gossipTickInterval
    if nextGossipTs > now then return ((nextGossipTs - now : Nat) : Int)
    else do
      let enqueueResult ← gossipEnqueueStatus none random
      -- The time is noted only once the announcement is queued.
      if enqueueResult < 0 then return enqueueResult
      else do
        Routine.modify fun self => { self with lastGossipTs := now }
        return (gossipTickInterval : Int)

/-- One call on a node, with what the environment supplies while it runs. -/
inductive Input where
  | join (seedNodes : List (List UInt8))
  | sendData (data : List UInt8) (random : Nat → UInt32)
  | tick (now : Nat) (random : Nat → UInt32)
  | processReceive (datagram sender : List UInt8) (beyond : Nat → UInt8) (random : Nat → UInt32)
  | processSend (times : Nat → Nat) (results : Nat → Int)

/-- The payload a call sends, if it sends one. -/
def Input.payload : Input → Option (List UInt8)
  | .sendData data _ => some data
  | _ => none

/-- The datagram a call receives, if it receives one. -/
def Input.datagram : Input → Option (List UInt8)
  | .processReceive datagram _ _ _ => some datagram
  | _ => none

/-- Make one call on a node. -/
def gossipStep : Input → Routine PittacusGossip Event Int
  | .join seedNodes => pittacusGossipJoin seedNodes
  | .sendData data random => pittacusGossipSendData data random
  | .tick now random => pittacusGossipTick now random
  | .processReceive datagram sender beyond random =>
    pittacusGossipProcessReceive datagram sender beyond random
  | .processSend times results => pittacusGossipProcessSend times results

/-! ### Concrete nodes -/

/-- An allocation that happens to be filled with zeros. -/
def FreshMemory.zero : FreshMemory :=
  ⟨fun _ => 0, Vector.replicate 25 ⟨⟨0, 0⟩, 0, []⟩, fun _ => 0⟩

/-- The socket address of a port on the local host. -/
def loopback (port : UInt8) : List UInt8 :=
  [2, 0, 0, port, 127, 0, 0, 1, 0, 0, 0, 0, 0, 0, 0, 0]

/-- A new node on the local host. -/
def localNode (port : UInt8) : PittacusGossip :=
  pittacusGossipCreate (loopback port) (by simp [loopback, sockaddrStorageSize]) 5000 true .zero

/-- What a new node on the local host is created with. -/
def localSetup (port : UInt8) : NodeSetup :=
  ⟨loopback port, by simp [loopback, sockaddrStorageSize], 5000, true, .zero⟩

/-- The arrival of a message, undisturbed, from a port of the local host. -/
def Message.arrivesFrom (message : Message) (port : UInt8) : Input :=
  .processReceive message.wire (loopback port) (fun _ => 0) (fun _ => 0)

/-- A data message with a one-byte payload. -/
def rumor (originator : UInt64) (sequenceNumber : UInt32) (payload : UInt8) : Message :=
  .data
    { header := messageHeaderInit messageDataType 1
      dataVersion := ⟨sequenceNumber, originator⟩
      data := [payload]
      bounded := by simp }

end Pittacus
