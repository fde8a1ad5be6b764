import Pittacus.AntiEntropy.Answer
import Pittacus.Receiving.Accepted

/-! One status brings its sender up to date with the node that answers it. -/

namespace Pittacus

/-! ### What queueing leaves alone -/

namespace SameBesidesQueue

variable {before after : PittacusGossip}

theorem knowledge (same : SameBesidesQueue before after) : after.knowledge = before.knowledge := by
  simp only [PittacusGossip.knowledge, same.selfAddress, same.dataCounter, same.dataVersion,
    same.dataLog]

theorem coherent (same : SameBesidesQueue before after) (coherent : before.Coherent) :
    after.Coherent := by
  refine ⟨?_, ?_, ?_⟩ <;> rw [same.knowledge]
  · exact coherent.ok
  · exact coherent.inStep
  · exact coherent.brief

theorem current (same : SameBesidesQueue before after) (current : before.Current) :
    after.Current := by
  unfold PittacusGossip.Current
  rw [same.dataLog, same.dataVersion]
  exact current

theorem answersTo (same : SameBesidesQueue before after) (asked : VectorClock) :
    after.answersTo asked = before.answersTo asked := by
  unfold PittacusGossip.answersTo
  rw [same.dataLog, same.dataVersion]

theorem statusMessage (same : SameBesidesQueue before after) :
    after.statusMessage = before.statusMessage := by
  unfold PittacusGossip.statusMessage
  rw [same.dataVersion]

end SameBesidesQueue

/-! ### The status as it arrives -/

/-- Two clocks with the same records in use hold the same numbers. -/
theorem latest_congr {first second : VectorClock} (same : first.live = second.live)
    (originator : UInt64) : first.latest originator = second.latest originator := by
  show (first.live.find? _).map _ = (second.live.find? _).map _
  rw [same]

/-- A status arrives with the number of its datagram, and with the records of the sender's clock. -/
structure ArrivesAs (node : PittacusGossip) (sequenceNum : UInt32) (msg : MessageStatus) :
    Prop where
  sequenceNum : msg.header.sequenceNum = sequenceNum
  size : msg.dataVersion.size = node.dataVersion.size
  live : msg.dataVersion.live = node.dataVersion.live

/-- A clock that arrives can be read like the one it was copied from. -/
theorem ArrivesAs.readable {node : PittacusGossip} {sequenceNum : UInt32} {msg : MessageStatus}
    (arrives : ArrivesAs node sequenceNum msg) (ok : node.dataVersion.Ok) :
    msg.dataVersion.Readable where
  few := by
    rw [arrives.size]
    exact ok.readable.few
  stored := by
    -- What lies behind the records in use does not arrive, so they alone bound the size.
    have length := congrArg List.length arrives.live
    rw [ok.readable.live_length, ← arrives.size, VectorClock.live, List.length_take] at length
    omega
  distinct := by
    rw [arrives.live]
    exact ok.readable.distinct

/-- Being behind the clock that arrives is being behind the one it was copied from. -/
theorem ArrivesAs.behindOn_iff {node : PittacusGossip} {sequenceNum : UInt32} {msg : MessageStatus}
    (arrives : ArrivesAs node sequenceNum msg) (clock : VectorClock) (originator : UInt64) :
    clock.BehindOn msg.dataVersion originator ↔ clock.BehindOn node.dataVersion originator := by
  unfold VectorClock.BehindOn
  rw [latest_congr arrives.live]

/-- A status is answered as the clock it was copied from asks for. -/
theorem ArrivesAs.answersTo {node : PittacusGossip} {sequenceNum : UInt32} {msg : MessageStatus}
    (arrives : ArrivesAs node sequenceNum msg) (self : PittacusGossip) :
    self.answersTo msg.dataVersion = self.answersTo node.dataVersion := by
  unfold PittacusGossip.answersTo
  congr 1
  refine List.filter_congr fun record _ => ?_
  rw [decide_eq_decide]
  unfold VectorClock.BehindOn
  rw [latest_congr arrives.live]

/-- The status of a node can be sent, and is decoded as that status. -/
theorem statusMessage_arrives (node : PittacusGossip) (ok : node.dataVersion.Ok)
    (sequenceNum : UInt32) (sender : List UInt8) (beyond : Nat → UInt8) :
    let envelopeIn := envelopeOf (node.statusMessage.datagram sequenceNum) sender beyond
    ∃ count msg, (messageStatusDecode envelopeIn.bufferSize vectorClockInit).result
      envelopeIn.buffer = .ok (count, msg) ∧ ArrivesAs node sequenceNum msg := by
  obtain ⟨fits, room⟩ := statusMessage_room ok
  have typed : node.statusMessage.Typed := ⟨rfl, rfl⟩
  have fills := Message.Fills.of_datagram typed fits
    (Nat.le_trans fits.wire_length_le room) sequenceNum sender beyond
  obtain ⟨decoded, read, same⟩ := messageDecode_of_holds fills.typed fills.fits
    (List.forall_mem_nil _) fills.held vectorClockInit
  have type : (node.statusMessage.renumbered sequenceNum).type = messageStatusType := rfl
  rw [← fills.size, type, messageDecode, if_neg (by decide), if_neg (by decide),
    if_neg (by decide), if_neg (by decide), if_neg (by decide), if_pos rfl] at read
  obtain ⟨found, accepted, made⟩ := map_eq_ok read
  rw [← (Prod.mk.inj made).2] at same
  obtain ⟨header, size, live⟩ := same
  refine ⟨found.1, found.2, accepted, by rw [header]; rfl, size, ?_⟩
  -- The copy has the records in use of the original, in front of what was there before.
  rw [live]
  exact List.take_left' ok.readable.live_length

/-! ### Answering -/

/-- What would be sent for every envelope in the queue is its message. -/
def PittacusGossip.Sends (node : PittacusGossip) : Prop :=
  ∀ envelope ∈ node.outboundMessages,
    envelopeBytes (patchSequenceNum node.outputBuffer envelope) envelope
      = envelope.message.datagram envelope.sequenceNum

/-- A queue that owns its slots sends what was queued. -/
theorem PittacusGossip.Owns.sends {node : PittacusGossip} (owns : node.Owns) : node.Sends :=
  fun envelope waiting => (owns.stored envelope waiting).sent

/-- An acknowledgement is queued for the sender it answers. -/
theorem gossipEnqueueAck_queues (sequenceNum : UInt32) (recipient : List UInt8)
    (self : PittacusGossip) (roomy : self.awaiting.length < maxOutputMessages) :
    Queues [(recipient, ackMessage sequenceNum)] self
      (gossipEnqueueMessage (ackMessage sequenceNum) recipient .direct noRandom self) := by
  have fits : (ackMessage sequenceNum).Fits := ⟨List.forall_mem_nil _, trivial⟩
  have room : (ackMessage sequenceNum).required ≤ messageMaxSize := by
    show messageHeaderSize + 4 ≤ messageMaxSize
    decide
  exact gossipEnqueueMessage_queues fits room recipient noRandom self roomy

/-- A connected node acknowledges the status it receives and goes on to answer it. -/
theorem status_handled {self : PittacusGossip} (connected : self.state = .connected)
    (node : PittacusGossip) (ok : node.dataVersion.Ok) (sequenceNum : UInt32)
    (sender : List UInt8) (beyond : Nat → UInt8) (random : Nat → UInt32) :
    ∃ msg, ArrivesAs node sequenceNum msg ∧
      gossipStep (.processReceive (node.statusMessage.datagram sequenceNum) sender beyond random)
          self =
        (gossipEnqueueMessage (ackMessage sequenceNum) sender .direct noRandom >>= fun _ =>
          answerStatus msg sender) self := by
  obtain ⟨count, msg, decoded, arrives⟩ :=
    statusMessage_arrives node ok sequenceNum sender beyond
  have exchanges : self.exchanges = true := by simp [PittacusGossip.exchanges, connected]
  have some_ := received_of_announced (announces_of_accepted decoded).1
  refine ⟨msg, arrives, ?_⟩
  rw [processReceive_exchanges exchanges some_, gossipHandleNewMessage_status random decoded,
    gossipHandleStatus_eq, returnIfNotConnected, Routine.get_bind_run,
    if_neg (not_not.mpr connected), decoded]
  show (gossipEnqueueAck msg.header.sequenceNum sender >>= fun _ => answerStatus msg sender) self
    = _
  rw [arrives.sequenceNum]
  rfl

/-- A connected node acknowledges a status before it answers it. -/
theorem status_answered {self : PittacusGossip} (connected : self.state = .connected)
    (coherent : self.Coherent) (current : self.Current) (idle : self.outboundMessages = [])
    (node : PittacusGossip) (ok : node.dataVersion.Ok) (sequenceNum : UInt32)
    (sender : List UInt8) (beyond : Nat → UInt8) (random : Nat → UInt32) :
    let after := (gossipStep (.processReceive (node.statusMessage.datagram sequenceNum) sender
      beyond random) self).state
    after.Sends ∧
    ((∃ originator, self.dataVersion.BehindOn node.dataVersion originator) →
      after.awaiting = (sender, ackMessage sequenceNum) ::
        (self.answersTo node.dataVersion).map (fun answer => (sender, .data answer)) ++
          [(sender, self.statusMessage)]) ∧
    ((¬∃ originator, self.dataVersion.BehindOn node.dataVersion originator) →
      after.awaiting = (sender, ackMessage sequenceNum) ::
        (self.answersTo node.dataVersion).map fun answer => (sender, .data answer)) := by
  obtain ⟨msg, arrives, ran⟩ :=
    status_handled connected node ok sequenceNum sender beyond random
  have empty : self.awaiting = [] := by rw [PittacusGossip.awaiting, idle]; rfl
  have acked := gossipEnqueueAck_queues sequenceNum sender self (by rw [empty]; decide)
  -- The acknowledgement changes nothing the answer depends on.
  have answered := answerStatus_queues msg sender
    (gossipEnqueueMessage (ackMessage sequenceNum) sender .direct noRandom self).state
    (acked.same.coherent coherent) (acked.same.current current) (arrives.readable ok) (by
      rw [acked.awaiting, empty]
      show 1 + dataLogSize < maxOutputMessages
      decide)
  rw [acked.same.dataVersion, acked.same.answersTo, acked.same.statusMessage,
    arrives.answersTo self] at answered
  simp only [arrives.behindOn_iff] at answered
  have owns : self.Owns := .idle idle
  rw [ran]
  refine ⟨?_, fun lacks => ?_, fun lacks => ?_⟩
  · by_cases lacks : ∃ originator, self.dataVersion.BehindOn node.dataVersion originator
    · exact ((acked.andThen (answered.1 lacks)).owns owns).sends
    · exact ((acked.andThen (answered.2 lacks)).owns owns).sends
  · rw [(acked.andThen (answered.1 lacks)).awaiting, empty]
    rfl
  · rw [(acked.andThen (answered.2 lacks)).awaiting, empty]
    rfl

end Pittacus
