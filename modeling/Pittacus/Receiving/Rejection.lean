import Pittacus.AntiEntropy.Exchange
import Pittacus.Wire.Refusals

/-! A datagram that a node answers with an error has no effect on it. -/

namespace Pittacus

open Routine

/-! ### Queueing succeeds -/

/-- Logged messages that are short enough are queued without an error. -/
theorem gossipEnqueueDataLog_accepted (recipientVersion : VectorClock) (recipient : List UInt8)
    (records : List DataLogRecord) (self : PittacusGossip)
    (brief : ∀ record ∈ records,
      (gossipDataLogCreateMessage record).data.length ≤ messageMaxSize - 26) :
    (gossipEnqueueDataLog recipientVersion recipient records errNone self).value = errNone := by
  induction records generalizing self with
  | nil => rfl
  | cons record rest ih =>
    have others : ∀ other ∈ rest,
        (gossipDataLogCreateMessage other).data.length ≤ messageMaxSize - 26 :=
      fun other member => brief other (List.mem_cons_of_mem _ member)
    have sendable : (gossipDataLogCreateMessage record).Sendable :=
      ⟨⟨rfl, rfl⟩, brief record List.mem_cons_self⟩
    rw [gossipEnqueueDataLog, ite_run]
    split
    · -- The result of one message is what the next one starts from.
      rw [bind_of_run (gossipEnqueueMessage_accepted
        (Message.data_fits (gossipDataLogCreateMessage record)) sendable.required_le _ _ _ _)]
      exact ih _ others
    · exact ih _ others

/-- A coherent node has an answer to every status. -/
theorem answerStatus_accepted (msg : MessageStatus) (sender : List UInt8) {self : PittacusGossip}
    (coherent : self.Coherent) : (answerStatus msg sender self).value = errNone := by
  have logged := gossipEnqueueDataLog_accepted msg.dataVersion sender self.dataLog.live self
    coherent.brief
  have announces : ∀ {state : PittacusGossip}, state.dataVersion.Ok →
      (gossipEnqueueStatus (some sender) noRandom state).value = errNone := by
    intro state ok
    obtain ⟨fits, room⟩ := statusMessage_room ok
    exact congrArg Outcome.value
      (gossipEnqueueMessage_accepted fits room sender .direct noRandom state)
  rw [answerStatus, get_bind_run]
  cases (vectorClockCompare self.dataVersion msg.dataVersion false).1 with
  | after => exact logged
  | before => exact announces coherent.ok.clock
  | equal => rfl
  | conflict =>
    -- Sending the log leaves the clock alone.
    have asGiven : ∀ msg, Scope.any.direct (.data msg) sender := fun _ => trivial
    have kept := quiet_duties.enqueueDataLog msg.dataVersion asGiven self.dataLog.live errNone self
      fun _ member => member
    have clock : (gossipEnqueueDataLog msg.dataVersion sender self.dataLog.live errNone
        self).state.dataVersion = self.dataVersion := congrArg Knowledge.clock kept.knowledge
    have ok : (gossipEnqueueDataLog msg.dataVersion sender self.dataLog.live errNone
        self).state.dataVersion.Ok := clock ▸ coherent.ok.clock
    simp only [bind_run, ite_run, logged]
    rw [if_neg (by decide)]
    exact announces ok

/-- A data message that was received fits the output buffer it is spread from. -/
theorem takeData_accepted {msg : MessageData} (short : msg.data.length ≤ messageMaxSize - 26)
    (random : Nat → UInt32) (self : PittacusGossip) : (takeData msg random self).value = errNone := by
  have room : (Message.data msg).required ≤ messageMaxSize := by
    simp only [Message.required, messageHeaderSize, vectorRecordSize, memberIdSize,
      messageMaxSize] at short ⊢
    omega
  rw [takeData_run]
  -- Data that is not new is dropped without an error.
  split
  · exact congrArg Outcome.value
      (gossipEnqueueMessage_accepted (Message.data_fits msg) room [] .random random _)
  · rfl

/-! ### Verdicts -/

/-- A call was refused, and had no effect. -/
structure Untouched (before : PittacusGossip) (ran : Outcome PittacusGossip Event Int) : Prop where
  value : ran.value < 0
  state : ran.state = before
  events : ran.events = []

/-- Giving back an error is all that is done. -/
theorem untouched_error (error : PittacusError) (self : PittacusGossip) :
    Untouched self ⟨error.code, self, []⟩ := ⟨error.code_neg, rfl, rfl⟩

/-- A call succeeds if a condition is met, and has no effect otherwise. -/
structure Verdict (condition : Prop) (before : PittacusGossip)
    (ran : Outcome PittacusGossip Event Int) : Prop where
  accepted : condition → 0 ≤ ran.value
  refused : ¬condition → Untouched before ran

/-- Only the condition itself matters. -/
theorem Verdict.congr {condition other : Prop} {before : PittacusGossip}
    {ran : Outcome PittacusGossip Event Int} (verdict : Verdict condition before ran)
    (same : other ↔ condition) : Verdict other before ran where
  accepted met := verdict.accepted (same.mp met)
  refused unmet := verdict.refused fun met => unmet (same.mpr met)

/-- An answer is given, and not an error. -/
def Answers {α : Type} (answer : Except Int α) : Prop := ∃ found, answer = .ok found

@[simp] theorem answers_map {α β : Type} {answer : Except Int α} {make : α → β} :
    Answers (answer.map make) ↔ Answers answer := by
  constructor
  · rintro ⟨made, mapped⟩
    obtain ⟨found, answered, -⟩ := map_eq_ok mapped
    exact ⟨found, answered⟩
  · rintro ⟨found, rfl⟩
    exact ⟨make found, rfl⟩

/-- A handler that gives back the error of a decoder before it does anything. -/
theorem verdict_decoded {α : Type} {decoded : Except Int α} (fails : FailsBelow decoded)
    {handler : Routine PittacusGossip Event Int} {self : PittacusGossip}
    (refuses : ∀ code, decoded = .error code → handler = pure code)
    (works : ∀ found, decoded = .ok found → 0 ≤ (handler self).value) :
    Verdict (Answers decoded) self (handler self) where
  accepted := fun ⟨found, answered⟩ => works found answered
  refused silent := by
    cases answer : decoded with
    | ok found => exact absurd ⟨found, answer⟩ silent
    | error code =>
      rw [refuses code answer]
      exact ⟨fails code answer, rfl, rfl⟩

/-- A handler that asks for a connection first. -/
theorem verdict_connected {condition : Prop} {handler : Routine PittacusGossip Event Int}
    {self : PittacusGossip} (verdict : Verdict condition self (handler self)) :
    Verdict (self.state = .connected ∧ condition) self (returnIfNotConnected handler self) := by
  by_cases connected : self.state = .connected
  · have open_ : ¬self.state ≠ .connected := fun other => other connected
    rw [returnIfNotConnected, get_bind_run, if_neg open_]
    exact verdict.congr (and_iff_right connected)
  · rw [returnIfNotConnected, get_bind_run, if_pos connected]
    exact ⟨fun met => absurd met.1 connected, fun _ => untouched_error .badState self⟩

/-- The stages at which a node listens to messages of a type. -/
def PittacusGossip.ListensTo (node : PittacusGossip) (type : UInt8) : Prop :=
  node.state = .connected ∨ node.state = .joining ∧ type = messageWelcomeType

/-- A node that takes part in the exchange listens to welcomes, and once connected to all else. -/
theorem listensTo_iff {node : PittacusGossip} (exchanges : node.exchanges = true) (type : UInt8) :
    node.ListensTo type ↔ type = messageWelcomeType ∨ node.state = .connected := by
  have stage : node.state = .joining ∨ node.state = .connected := by
    simpa [PittacusGossip.exchanges] using exchanges
  -- A joining node waits for a welcome only.
  constructor
  · rintro (connected | ⟨-, welcome⟩)
    · exact .inr connected
    · exact .inl welcome
  · rintro (welcome | connected)
    · rcases stage with joining | connected
      · exact .inr ⟨joining, welcome⟩
      · exact .inl connected
    · exact .inl connected

/-- No decoder answers to a datagram that ends inside the header. -/
theorem not_answers_short (type : UInt8) {bufferSize : Nat} (short : bufferSize < messageHeaderSize)
    (prior : VectorClock) (memory : Nat → UInt8) :
    ¬Answers (messageDecode type bufferSize prior memory) := by
  -- A type is announced only by a whole header.
  have silent : ∀ type, ¬Announces memory bufferSize type :=
    fun type announced => Nat.not_le.mpr short announced.1
  have error : ∀ {α : Type} (code : Int), ¬Answers (.error code : Except Int α) := by
    rintro α code ⟨found, answered⟩
    cases answered
  rw [messageDecode, messageHelloDecode_result, messageWelcomeDecode_result,
    messageMemberListDecode_result, messageAckDecode_result, messageDataDecode_result,
    messageStatusDecode_result]
  simp only [if_pos (silent _)]
  repeat' split
  all_goals exact error _

/-- A message of a type is refused without an effect, unless it is listened to and decoded. -/
def TypeVerdict (type : UInt8) (envelopeIn : MessageEnvelopeIn) (self : PittacusGossip)
    (ran : Outcome PittacusGossip Event Int) : Prop :=
  Verdict (self.ListensTo type ∧
    Answers (messageDecode type envelopeIn.bufferSize vectorClockInit envelopeIn.buffer)) self ran

section Types

variable (envelopeIn : MessageEnvelopeIn) {self : PittacusGossip}

/-- All types but one are listened to by connected nodes only. -/
theorem typeVerdict_connected (exchanges : self.exchanges = true) {type : UInt8}
    (other : type ≠ messageWelcomeType) {α : Type} {decoded : Except Int α}
    {make : α → Nat × Message}
    (read : messageDecode type envelopeIn.bufferSize vectorClockInit envelopeIn.buffer
      = decoded.map make)
    {handler : Routine PittacusGossip Event Int}
    (verdict : Verdict (Answers decoded) self (handler self)) :
    TypeVerdict type envelopeIn self (returnIfNotConnected handler self) := by
  refine (verdict_connected verdict).congr ?_
  rw [listensTo_iff exchanges, read, answers_map, or_iff_right other]

theorem gossipHandleHello_verdict (exchanges : self.exchanges = true) :
    TypeVerdict messageHelloType envelopeIn self (gossipHandleHello envelopeIn self) := by
  rw [gossipHandleHello_eq]
  refine typeVerdict_connected envelopeIn exchanges (by decide) rfl (verdict_decoded
    (messageHelloDecode_failsBelow _ _) (fun code failed => ?_) fun found answered => ?_)
  · rw [failed]
  · rw [answered]
    exact Int.le_refl 0

theorem gossipHandleWelcome_verdict (exchanges : self.exchanges = true) :
    TypeVerdict messageWelcomeType envelopeIn self (gossipHandleWelcome envelopeIn self) := by
  have verdict : Verdict (Answers ((messageWelcomeDecode envelopeIn.bufferSize).result
      envelopeIn.buffer)) self (gossipHandleWelcome envelopeIn self) := by
    refine verdict_decoded (messageWelcomeDecode_failsBelow _ _) (fun code failed => ?_)
      fun found answered => ?_
    · rw [gossipHandleWelcome, failed]
    · rw [gossipHandleWelcome, answered]
      exact Int.le_refl 0
  have read : messageDecode messageWelcomeType envelopeIn.bufferSize vectorClockInit
      envelopeIn.buffer = ((messageWelcomeDecode envelopeIn.bufferSize).result
        envelopeIn.buffer).map _ := rfl
  -- A welcome is listened to before the node is connected, unlike the others.
  refine verdict.congr ?_
  rw [listensTo_iff exchanges, read, answers_map]
  exact and_iff_right (.inl rfl)

theorem gossipHandleMemberList_verdict (exchanges : self.exchanges = true) :
    TypeVerdict messageMemberListType envelopeIn self (gossipHandleMemberList envelopeIn self) := by
  refine typeVerdict_connected envelopeIn exchanges (by decide) rfl (verdict_decoded
    (messageMemberListDecode_failsBelow _ _) (fun code failed => ?_) fun found answered => ?_)
  · rw [failed]
  · rw [answered]
    exact Int.le_refl 0

theorem gossipHandleData_verdict (exchanges : self.exchanges = true) (random : Nat → UInt32)
    (short : ∀ count msg,
      (messageDataDecode envelopeIn.bufferSize).result envelopeIn.buffer = .ok (count, msg) →
        msg.data.length ≤ messageMaxSize - 26) :
    TypeVerdict messageDataType envelopeIn self (gossipHandleData envelopeIn random self) := by
  rw [gossipHandleData_eq]
  refine typeVerdict_connected envelopeIn exchanges (by decide) rfl (verdict_decoded
    (messageDataDecode_failsBelow _ _) (fun code failed => ?_) fun found answered => ?_)
  · rw [failed]
  · rw [answered]
    exact (takeData_accepted (short _ _ answered) random _).ge

theorem gossipHandleAck_verdict (exchanges : self.exchanges = true) :
    TypeVerdict messageAckType envelopeIn self (gossipHandleAck envelopeIn self) := by
  refine typeVerdict_connected envelopeIn exchanges (by decide) rfl (verdict_decoded
    (messageAckDecode_failsBelow _ _) (fun code failed => ?_) fun found answered => ?_)
  · rw [failed]
  · rw [answered]
    exact Int.le_refl 0

theorem gossipHandleStatus_verdict (exchanges : self.exchanges = true)
    (coherent : self.Coherent) :
    TypeVerdict messageStatusType envelopeIn self (gossipHandleStatus envelopeIn self) := by
  rw [gossipHandleStatus_eq]
  refine typeVerdict_connected envelopeIn exchanges (by decide) rfl (verdict_decoded
    (messageStatusDecode_failsBelow _ _ _) (fun code failed => ?_) fun found answered => ?_)
  · rw [failed]
  · rw [answered]
    -- The acknowledgement leaves the log as it was, so the answers are still accepted.
    have acked := gossipEnqueueMessage_same (ackMessage found.2.header.sequenceNum)
      envelopeIn.sender .direct noRandom self
    exact (answerStatus_accepted _ _ (acked.coherent coherent)).ge

end Types

/-- A datagram is refused without an effect, unless the node listens to it and it is decoded. -/
theorem gossipHandleNewMessage_verdict (envelopeIn : MessageEnvelopeIn) (random : Nat → UInt32)
    {self : PittacusGossip} (exchanges : self.exchanges = true) (coherent : self.Coherent)
    (short : ∀ count msg,
      (messageDataDecode envelopeIn.bufferSize).result envelopeIn.buffer = .ok (count, msg) →
        msg.data.length ≤ messageMaxSize - 26) :
    TypeVerdict (envelopeIn.buffer 5) envelopeIn self
      (gossipHandleNewMessage envelopeIn random self) := by
  rw [gossipHandleNewMessage, messageTypeDecode_result]
  by_cases tiny : envelopeIn.bufferSize < messageHeaderSize
  · rw [if_pos tiny]
    exact ⟨fun met => absurd met.2 (not_answers_short _ tiny _ _),
      fun _ => untouched_error .invalidMessage self⟩
  rw [if_neg tiny]
  simp only [ite_run]
  split
  · rename_i hello
    rw [hello]
    exact gossipHandleHello_verdict envelopeIn exchanges
  split
  · rename_i welcome
    rw [welcome]
    exact gossipHandleWelcome_verdict envelopeIn exchanges
  split
  · rename_i memberList
    rw [memberList]
    exact gossipHandleMemberList_verdict envelopeIn exchanges
  split
  · rename_i data
    rw [data]
    exact gossipHandleData_verdict envelopeIn exchanges random short
  split
  · rename_i ack
    rw [ack]
    exact gossipHandleAck_verdict envelopeIn exchanges
  split
  · rename_i status
    rw [status]
    exact gossipHandleStatus_verdict envelopeIn exchanges coherent
  · -- No message is of this type.
    rename_i hello welcome memberList data ack status
    have unknown : messageDecode (envelopeIn.buffer 5) envelopeIn.bufferSize vectorClockInit
        envelopeIn.buffer = .error PittacusError.invalidMessage.code := by
      rw [messageDecode, if_neg hello, if_neg welcome, if_neg memberList, if_neg ack,
        if_neg data, if_neg status]
    refine ⟨fun met => ?_, fun _ => untouched_error .invalidMessage self⟩
    obtain ⟨found, answered⟩ := met.2
    rw [unknown] at answered
    cases answered

/-! ### Datagrams -/

/-- The types of messages there are. -/
def messageTypes : List UInt8 :=
  [messageHelloType, messageWelcomeType, messageMemberListType, messageAckType, messageDataType,
    messageStatusType]

/-- Why a datagram is refused, given the type its sixth byte names. -/
inductive Refused (node : PittacusGossip) (received : List UInt8) (beyond : Nat → UInt8) : Prop where
  /-- The node does not listen to messages of this type. -/
  | state : ¬node.ListensTo (Decoder.memoryOf received beyond 5) → Refused node received beyond
  /-- The datagram ends before its type. -/
  | absent : received.length ≤ protocolIdLength → Refused node received beyond
  | unknown : Decoder.memoryOf received beyond 5 ∉ messageTypes → Refused node received beyond
  /-- The decoder of the type rejects the datagram. -/
  | decoder (code : Int) : messageDecode (Decoder.memoryOf received beyond 5) received.length
      vectorClockInit (Decoder.memoryOf received beyond) = .error code →
      Refused node received beyond

/-- A datagram is refused unless the node listens to it and it is decoded. -/
theorem refused_iff {node : PittacusGossip} {received : List UInt8} {beyond : Nat → UInt8} :
    Refused node received beyond ↔
      ¬(node.ListensTo (Decoder.memoryOf received beyond 5) ∧
        Answers (messageDecode (Decoder.memoryOf received beyond 5) received.length
          vectorClockInit (Decoder.memoryOf received beyond))) := by
  constructor
  · rintro refused ⟨listens, answers⟩
    -- Each way to be refused leaves the node deaf, or the decoder without an answer.
    cases refused with
    | state deaf => exact deaf listens
    | absent ends =>
      refine not_answers_short _ (Nat.lt_of_le_of_lt ends (by decide)) _ _ answers
    | unknown other =>
      obtain ⟨found, answered⟩ := answers
      simp only [messageTypes, List.mem_cons, List.not_mem_nil, or_false, not_or] at other
      obtain ⟨hello, welcome, memberList, ack, data, status⟩ := other
      rw [messageDecode, if_neg hello, if_neg welcome, if_neg memberList, if_neg ack, if_neg data,
        if_neg status] at answered
      cases answered
    | decoder code rejected =>
      obtain ⟨found, answered⟩ := answers
      rw [rejected] at answered
      cases answered
  · intro unmet
    by_cases listens : node.ListensTo (Decoder.memoryOf received beyond 5)
    · cases decoded : messageDecode (Decoder.memoryOf received beyond 5) received.length
        vectorClockInit (Decoder.memoryOf received beyond) with
      | error code => exact .decoder code decoded
      | ok found => exact absurd ⟨listens, found, decoded⟩ unmet
    · exact .state listens

/-- A coherent node refuses a datagram without an effect, or accepts it. -/
theorem processReceive_verdict {self : PittacusGossip} (coherent : self.Coherent)
    {datagram : List UInt8} (some_ : datagram ≠ []) (sender : List UInt8) (beyond : Nat → UInt8)
    (random : Nat → UInt32) :
    Verdict (¬Refused self (datagram.take messageMaxSize) beyond) self
      (gossipStep (.processReceive datagram sender beyond random) self) := by
  have taken : datagram.take messageMaxSize ≠ [] := by
    simpa [messageMaxSize] using some_
  by_cases exchanges : self.exchanges = true
  · rw [processReceive_exchanges exchanges taken]
    refine (gossipHandleNewMessage_verdict (envelopeOf datagram sender beyond) random exchanges
      coherent fun count msg decoded => ?_).congr (not_iff_comm.mp refused_iff.symm)
    have received : dataReceived datagram beyond = some msg := by
      have decoded : (messageDataDecode (datagram.take messageMaxSize).length).result
          (Decoder.memoryOf (datagram.take messageMaxSize) beyond) = .ok (count, msg) := decoded
      rw [dataReceived, decoded]
    exact dataReceived_short received
  · -- Neither a joining nor a connected node.
    have deaf : ¬self.ListensTo (Decoder.memoryOf (datagram.take messageMaxSize) beyond 5) := by
      rintro (connected | ⟨joining, -⟩)
      · exact exchanges (by rw [PittacusGossip.exchanges, connected]; rfl)
      · exact exchanges (by rw [PittacusGossip.exchanges, joining]; rfl)
    have refused : gossipStep (.processReceive datagram sender beyond random) self =
        ⟨PittacusError.badState.code, self, []⟩ := by
      rw [gossipStep, pittacusGossipProcessReceive, get_bind_run, if_pos (by simp [exchanges])]
      rfl
    rw [refused]
    exact ⟨fun met => absurd (.state deaf) met, fun _ => untouched_error .badState self⟩

/--
A datagram that is answered with an error leaves a node as it was, and causes nothing.

The error says that the node does not listen to the type, or that the datagram is not decoded.
-/
theorem rejection (setup : NodeSetup) (inputs : List Input)
    (short : ∀ input ∈ inputs, ∀ data ∈ input.payload, data.length ≤ messageMaxSize - 26)
    (datagram : List UInt8) (some_ : datagram ≠ []) (sender : List UInt8) (beyond : Nat → UInt8)
    (random : Nat → UInt32) :
    let self := Machine.run gossipStep inputs setup.node
    let ran := gossipStep (.processReceive datagram sender beyond random) self
    (ran.value < 0 → ran.state = self ∧ ran.events = []) ∧
      (ran.value < 0 ↔ Refused self (datagram.take messageMaxSize) beyond) := by
  intro self ran
  have verdict := processReceive_verdict (run_coherent setup short) some_ sender beyond random
  -- A call that is not refused answers zero or more, so a negative answer is a refusal.
  have refused : ran.value < 0 → Refused self (datagram.take messageMaxSize) beyond := by
    intro failed
    by_contra accepted
    exact absurd (verdict.accepted accepted) (Int.not_le.mpr failed)
  refine ⟨fun failed => ?_, refused, fun refusal => ?_⟩
  · have untouched := verdict.refused (not_not.mpr (refused failed))
    exact ⟨untouched.state, untouched.events⟩
  · exact (verdict.refused (not_not.mpr refusal)).value

/-- A message of an unknown type leaves a node that sent a payload as it was. -/
theorem rejection_unknown :
    let self := Machine.run gossipStep [.join [], .sendData [42] noRandom] (localNode 1)
    let ran := gossipStep
      (.processReceive (protocolId ++ [9, 0, 0, 0, 0, 0, 1]) (loopback 2) (fun _ => 0) noRandom) self
    ran.state = self ∧ ran.events = [] :=
  (rejection (localSetup 1) [.join [], .sendData [42] noRandom]
    (by decide) _ (by decide) (loopback 2) (fun _ => 0) noRandom).1 (by decide +kernel)

end Pittacus
