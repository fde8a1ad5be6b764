import Pittacus.Knowledge.Delivery

/-! What becomes of a payload the application asks a node to spread. -/

namespace Pittacus

/-- The version a node gives its next payload. -/
def PittacusGossip.nextVersion (self : PittacusGossip) : VectorRecord :=
  ⟨self.dataCounter + 1, vectorClockCreateMemberId self.selfAddress⟩

/-- A payload became one new version of the node, logged and encoded as a whole. -/
structure SentWhole (before : PittacusGossip) (data : List UInt8) (events : List Event)
    (after : PittacusGossip) : Prop where
  counted : after.dataCounter = before.dataCounter + 1
  version : before.nextVersion ∈ after.dataVersion.live
  onlyVersion : ∀ record ∈ after.dataVersion.live,
    record = before.nextVersion ∨ record ∈ before.dataVersion.live
  logged : ∃ record ∈ after.dataLog.live, record.version = before.nextVersion ∧
    (gossipDataLogCreateMessage record).data = data
  onlyLogged : ∀ record ∈ after.dataLog.live,
    record.version = before.nextVersion ∨ record ∈ before.dataLog.live
  encoded : ∃ found slot left msg, .enqueue found slot left (.data msg) .random ∈ events ∧
    msg.dataVersion = before.nextVersion ∧ msg.data = data ∧
    Decoder.slice after.outputBuffer slot (26 + data.length) = (Message.data msg).wire

/-- A call that is refused leaves the data and the queue as they were. -/
structure LeftAlone (before after : PittacusGossip) : Prop where
  dataCounter : after.dataCounter = before.dataCounter
  dataVersion : after.dataVersion = before.dataVersion
  dataLog : after.dataLog = before.dataLog
  outboundMessages : after.outboundMessages = before.outboundMessages

/-- Sending a payload is all or nothing, as its result says. -/
structure AllOrNothing (node : PittacusGossip) (data : List UInt8) (random : Nat → UInt32) :
    Prop where
  all : 0 ≤ (gossipStep (.sendData data random) node).value →
    SentWhole node data (gossipStep (.sendData data random) node).events
      (gossipStep (.sendData data random) node).state
  nothing : (gossipStep (.sendData data random) node).value < 0 →
    LeftAlone node (gossipStep (.sendData data random) node).state

/-- A connected node takes the payload over first, and then queues the message. -/
theorem sendData_run {self : PittacusGossip} (connected : self.state = .connected)
    (data : List UInt8) (random : Nat → UInt32) :
    gossipStep (.sendData data random) self =
      gossipEnqueueMessage (.data (self.ownMessage data)) [] .random random
        (({ self with dataCounter := self.dataCounter + 1 } : PittacusGossip).adopting
          (self.ownMessage data)) := by
  have open_ : ¬self.state ≠ .connected := fun other => other connected
  simp only [gossipStep, pittacusGossipSendData, returnIfNotConnected, Routine.get_bind_run,
    if_neg open_, gossipEnqueueData_run]

/-- The message holds as many bytes as sixteen bits count of the payload. -/
theorem ownMessage_length (self : PittacusGossip) (data : List UInt8) :
    (self.ownMessage data).data.length = data.length % 2 ^ 16 := by
  have below := Nat.mod_le data.length (2 ^ 16)
  simp only [PittacusGossip.ownMessage, enqueuedData, List.length_take]
  omega

/-- The encoding of the message takes 26 bytes more than it holds of the payload. -/
theorem ownMessage_size (self : PittacusGossip) (data : List UInt8) :
    (Message.data (self.ownMessage data)).required = 26 + data.length % 2 ^ 16 ∧
      (Message.data (self.ownMessage data)).wire.length = 26 + data.length % 2 ^ 16 := by
  have length := ownMessage_length self data
  -- What the encoder insists on and what it writes are the same for data.
  constructor
  · rw [Message.required, length]
    rfl
  · simp only [Message.wire, Message.body, List.length_append, MessageHeader.wire_length,
      VectorRecord.wire_length, Words.toBytes_length, length]
    omega

/-- A payload whose narrowed size fits is encoded. -/
theorem ownMessage_encoded (self : PittacusGossip) {data : List UInt8}
    (short : data.length % 2 ^ 16 ≤ messageMaxSize - 26) :
    messageEncode (.data (self.ownMessage data)) messageMaxSize =
      ⟨.ok ((26 + data.length % 2 ^ 16 : Nat) : Int),
        Encoder.located 0 (Message.data (self.ownMessage data)).wire⟩ := by
  obtain ⟨required, wire⟩ := ownMessage_size self data
  have room : (Message.data (self.ownMessage data)).required ≤ messageMaxSize := by
    rw [required]
    simp only [messageMaxSize] at short ⊢
    omega
  rw [messageEncode_eq (Message.data_fits _) room, wire]

/-- A payload whose narrowed size does not fit is refused. -/
theorem ownMessage_refused (self : PittacusGossip) {data : List UInt8}
    (long : ¬data.length % 2 ^ 16 ≤ messageMaxSize - 26) :
    encodeCode (.data (self.ownMessage data)) < 0 := by
  have tight : messageMaxSize < (Message.data (self.ownMessage data)).required := by
    rw [(ownMessage_size self data).1]
    simp only [messageMaxSize] at long ⊢
    omega
  rw [encodeCode, messageEncode_short tight]
  decide

/-- Sending a payload that fits succeeds exactly on a connected node. -/
theorem sendData_succeeds (self : PittacusGossip) (random : Nat → UInt32) {data : List UInt8}
    (short : data.length ≤ messageMaxSize - 26) :
    0 ≤ (gossipStep (.sendData data random) self).value ↔ self.state = .connected := by
  simp only [gossipStep, pittacusGossipSendData, returnIfNotConnected, Routine.get_bind_run]
  by_cases connected : self.state = .connected
  · rw [if_neg (not_not.mpr connected), gossipEnqueueData_run, gossipEnqueueMessage_run]
    -- A payload that fits leaves the whole message within one slot.
    have room : (Message.data (self.ownMessage data)).required ≤ messageMaxSize := by
      simp only [messageMaxSize] at short
      simp only [Message.required, ownMessage_data self short, messageHeaderSize, vectorRecordSize,
        memberIdSize, messageMaxSize]
      omega
    have code : 0 ≤ encodeCode (Message.data (self.ownMessage data)) := by
      rw [encodeCode, messageEncode_eq (Message.data_fits _) room]
      exact Int.natCast_nonneg _
    rw [if_neg (Int.not_lt.mpr code)]
    exact ⟨fun _ => connected, fun _ => Int.le_refl 0⟩
  · rw [if_pos connected]
    have failed : ¬0 ≤ PittacusError.badState.code := by decide
    exact ⟨fun success => absurd success failed, fun now => absurd now connected⟩

/-- The payload is counted and taken over, whether or not its message can be encoded. -/
theorem sendData_taken {self : PittacusGossip} (connected : self.state = .connected)
    (data : List UInt8) (random : Nat → UInt32) :
    let after := (gossipStep (.sendData data random) self).state
    after.dataCounter = self.dataCounter + 1 ∧
      after.dataVersion = vectorClockSetById self.dataVersion self.nextVersion.memberId
        self.nextVersion.sequenceNumber ∧
      after.dataLog = gossipDataLog self.dataLog (self.ownMessage data) := by
  have learned := (gossipStep_learns (.sendData data random) self).knowledge
  -- On a connected node the payload is news, whatever the encoder makes of it.
  have news : self.news (.sendData data random) = .sent data := if_pos connected
  rw [news] at learned
  exact ⟨congrArg Knowledge.counter learned, congrArg Knowledge.clock learned,
    congrArg Knowledge.log learned⟩

/-- A payload that fits is sent as a whole. -/
theorem sendData_whole {self : PittacusGossip} (connected : self.state = .connected)
    (ok : self.knowledge.Ok) {data : List UInt8} (short : data.length ≤ messageMaxSize - 26)
    (random : Nat → UInt32) :
    SentWhole self data (gossipStep (.sendData data random) self).events
      (gossipStep (.sendData data random) self).state := by
  have whole := ownMessage_data self short
  have narrowed : data.length % 2 ^ 16 = data.length := by
    rw [← ownMessage_length self data, whole]
  obtain ⟨counter, clock, log⟩ := sendData_taken connected data random
  obtain ⟨slot, logged⟩ := ok.log.latest_log (self.ownMessage data)
  have latest := (ok.clock.latest_set self.nextVersion.memberId self.nextVersion.sequenceNumber
    self.nextVersion.memberId).trans (if_pos rfl)
  have found := (logged self.nextVersion.memberId).trans (if_pos rfl)
  refine ⟨counter, ?_, ?_, ?_, ?_, ?_⟩
  · rw [clock]
    exact mem_of_latest latest
  · intro record used
    rw [clock] at used
    exact ok.clock.mem_live_set used
  · rw [log]
    exact ⟨_, (mem_of_logged found).1, rfl, (logged_data _ _).trans whole⟩
  · intro record used
    rw [log] at used
    rcases ok.log.mem_live_log used with ⟨slot, rfl⟩ | old
    · exact .inl rfl
    · exact .inr old
  · -- The slot the message was placed in holds its bytes, whoever they are queued for.
    have encoded := ownMessage_encoded self (narrowed.trans_le short)
    have accepted : ¬encodeCode (.data (self.ownMessage data)) < 0 := by
      rw [encodeCode, encoded]
      exact Int.not_lt.mpr (Int.natCast_nonneg _)
    have size := (ownMessage_size self data).2
    rw [narrowed] at size
    refine ⟨self.outboundMessages, (placement self.outboundMessages).1,
      (placement self.outboundMessages).2.1, self.ownMessage data, ?_, rfl, whole, ?_⟩
    · rw [sendData_run connected, gossipEnqueueMessage_events, enqueueEvents]
      exact List.mem_append_right _ (List.mem_singleton.mpr rfl)
    · rw [sendData_run connected, gossipEnqueueMessage_run, if_neg accepted, ← size]
      simp only [PittacusGossip.queued, PittacusGossip.placed, encoded]
      exact Encoder.slice_store_zero _ _ _

/-- A payload that is narrowed to a shorter one that fits is accepted, and logged shortened. -/
theorem sendData_shortened {self : PittacusGossip} (connected : self.state = .connected)
    (ok : self.knowledge.Ok) {data : List UInt8} (long : messageMaxSize - 26 < data.length)
    (narrowed : data.length % 2 ^ 16 ≤ messageMaxSize - 26) (random : Nat → UInt32) :
    0 ≤ (gossipStep (.sendData data random) self).value ∧
      ∀ record ∈ (gossipStep (.sendData data random) self).state.dataLog.live,
        record.version = self.nextVersion → (gossipDataLogCreateMessage record).data ≠ data := by
  obtain ⟨-, -, log⟩ := sendData_taken connected data random
  obtain ⟨slot, logged⟩ := ok.log.latest_log (self.ownMessage data)
  have accepted : ¬encodeCode (.data (self.ownMessage data)) < 0 := by
    rw [encodeCode, ownMessage_encoded self narrowed]
    exact Int.not_lt.mpr (Int.natCast_nonneg _)
  constructor
  · rw [sendData_run connected, gossipEnqueueMessage_run, if_neg accepted]
    exact Int.le_refl 0
  · intro record used own whole
    -- Only one record is in use for the node's own id, the one that was just written.
    rw [log] at used
    have latest := (ok.log.log (self.ownMessage data)).latest_of_mem used
    have found := (logged self.nextVersion.memberId).trans (if_pos rfl)
    rw [DataLogRecord.originator, own] at latest
    have same : record = slot.logged (self.ownMessage data) :=
      Option.some.inj (latest.symm.trans found)
    rw [same, logged_data] at whole
    have length := ownMessage_length self data
    rw [whole] at length
    omega

/-- No number follows itself. -/
theorem succ_ne_self (number : UInt32) : number + 1 ≠ number := by
  intro same
  have values := congrArg UInt32.toNat same
  rw [UInt32.toNat_add] at values
  have bound := number.toNat_lt
  have one : (1 : UInt32).toNat = 1 := rfl
  omega

end Pittacus
