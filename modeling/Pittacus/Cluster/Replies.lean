import Pittacus.Cluster.Network
import Pittacus.Outbound.Accounting

/-! What the replies of a node name: the messages it accepted, by their numbers. -/

namespace Pittacus

/-! ### Numbers that are named -/

/-- The sequence number a message names as received. -/
def Message.confirms : Message → Option UInt32
  | .ack msg => some msg.ackSequenceNum
  | .welcome msg => some msg.helloSequenceNum
  | _ => none

@[simp] theorem Message.renumbered_confirms (message : Message) (sequenceNum : UInt32) :
    (message.renumbered sequenceNum).confirms = message.confirms := by
  cases message <;> rfl

/-- Only a message that answers another one names a number. -/
theorem Message.replies_of_confirms {message : Message} {sequenceNum : UInt32}
    (named : message.confirms = some sequenceNum) : message.Replies := by
  cases message with
  | welcome _ | ack _ => trivial
  | _ => cases named

/-- The number a call acknowledges is that of the message in the datagram that arrives. -/
theorem Message.Fills.confirms {message : Message} {datagram sender : List UInt8}
    {beyond : Nat → UInt8} {random : Nat → UInt32} {self : PittacusGossip} {sequenceNum : UInt32}
    (fills : message.Fills (envelopeOf datagram sender beyond).buffer
      (envelopeOf datagram sender beyond).bufferSize)
    (named : self.acknowledges (.processReceive datagram sender beyond random) = some sequenceNum) :
    message.confirms = some sequenceNum ∧
      ((welcomeReceived datagram beyond).isSome → message.type = messageWelcomeType) := by
  simp only [PittacusGossip.acknowledges] at named
  cases acked : ackReceived datagram beyond with
  | some msg =>
    obtain ⟨count, accepted⟩ := (ackReceived_some sender).mp acked
    simp only [acked] at named
    split at named
    · refine ⟨?_, fun welcomed => ?_⟩
      · rw [fills.ack accepted]
        exact named
      · -- It cannot be a welcome as well.
        obtain ⟨welcome, received⟩ := Option.isSome_iff_exists.mp welcomed
        obtain ⟨found, welcomed_, -⟩ := (welcomeReceived_some sender).mp received
        exact (not_welcome_of_ack accepted welcomed_).elim
    · cases named
  | none =>
    simp only [acked] at named
    split at named
    · obtain ⟨msg, received, same⟩ := Option.map_eq_some_iff.mp named
      obtain ⟨found, accepted, loaded⟩ := (welcomeReceived_some sender).mp received
      obtain ⟨sent, rfl, number⟩ := fills.welcomed accepted
      refine ⟨?_, fun _ => rfl⟩
      rw [← same, ← loaded]
      exact congrArg some number
    · cases named

/-! ### Accepted messages -/

/-- A decoder that accepts a message reads its header, and makes a message of its own type. -/
theorem messageDecode_named {type : UInt8} {bufferSize : Nat} {prior : VectorClock}
    {memory : Nat → UInt8} {consumed : Nat} {message : Message}
    (accepted : messageDecode type bufferSize prior memory = .ok (consumed, message)) :
    message.header = headerAt memory ∧ Announces memory bufferSize message.type := by
  refine messageDecode_elim (motive := fun message =>
    message.header = headerAt memory ∧ Announces memory bufferSize message.type)
    accepted ?hello ?welcome ?memberList ?ack ?data ?status
  case hello =>
    intro msg decoded
    refine ⟨?_, (announces_of_accepted decoded).1⟩
    rw [messageHelloDecode_result] at decoded
    obtain ⟨-, -, decoded⟩ := ok_of_checked decoded
    obtain ⟨memberBytes, -, rest⟩ := bind_eq_ok decoded
    obtain ⟨bytes, -, paired⟩ := map_eq_ok rest
    cases paired
    rfl
  case welcome =>
    intro msg decoded
    refine ⟨?_, (announces_of_accepted decoded).1⟩
    rw [messageWelcomeDecode_result] at decoded
    obtain ⟨-, -, decoded⟩ := ok_of_checked decoded
    obtain ⟨memberBytes, -, rest⟩ := bind_eq_ok decoded
    obtain ⟨bytes, -, paired⟩ := map_eq_ok rest
    cases paired
    rfl
  case memberList =>
    intro msg decoded
    refine ⟨?_, (announces_of_accepted decoded).1⟩
    rw [messageMemberListDecode_result] at decoded
    obtain ⟨-, -, decoded⟩ := ok_of_checked decoded
    obtain ⟨read, -, rest⟩ := bind_eq_ok decoded
    obtain ⟨bytes, -, paired⟩ := map_eq_ok rest
    cases paired
    rfl
  case ack =>
    intro msg decoded
    refine ⟨?_, (announces_of_accepted decoded).1⟩
    rw [messageAckDecode_result] at decoded
    obtain ⟨-, -, decoded⟩ := ok_of_checked decoded
    cases decoded
    rfl
  case data =>
    intro msg decoded
    refine ⟨?_, (announces_of_accepted decoded).1⟩
    rw [messageDataDecode_result] at decoded
    obtain ⟨-, -, decoded⟩ := ok_of_checked decoded
    cases decoded
    rfl
  case status =>
    intro msg decoded
    refine ⟨?_, (announces_of_accepted decoded).1⟩
    rw [messageStatusDecode_result] at decoded
    obtain ⟨-, -, decoded⟩ := ok_of_checked decoded
    cases decoded
    rfl

/-- The header of a message that is received is that of the message that was sent. -/
theorem Message.Fills.received {message found : Message} {datagram sender : List UInt8}
    {beyond : Nat → UInt8}
    (fills : message.Fills (envelopeOf datagram sender beyond).buffer
      (envelopeOf datagram sender beyond).bufferSize)
    (read : messageReceived datagram beyond = some found) :
    found.header = message.header ∧ found.type = message.type := by
  simp only [messageReceived] at read
  -- Whatever type is announced, the header decoded is the one the bytes hold.
  cases decoded : messageDecode (Decoder.memoryOf (datagram.take messageMaxSize) beyond 5)
      (datagram.take messageMaxSize).length vectorClockInit
      (Decoder.memoryOf (datagram.take messageMaxSize) beyond) with
  | error code => rw [decoded] at read; cases read
  | ok answer =>
    rw [decoded] at read
    cases read
    obtain ⟨header, announced⟩ := messageDecode_named decoded
    exact ⟨header.trans fills.header_eq, (fills.type_eq announced).symm⟩

/-- A connected node accepts what the decoder of the announced type makes of a datagram. -/
theorem accepts_of_decoded {self : PittacusGossip} (connected : self.state = .connected)
    {datagram : List UInt8} (sender : List UInt8) {beyond : Nat → UInt8} (random : Nat → UInt32)
    {type : UInt8} {found : Nat × Message}
    (announced : Announces (envelopeOf datagram sender beyond).buffer
      (envelopeOf datagram sender beyond).bufferSize type)
    (decoded : messageDecode type (envelopeOf datagram sender beyond).bufferSize vectorClockInit
      (envelopeOf datagram sender beyond).buffer = .ok found) :
    self.accepts (.processReceive datagram sender beyond random) = some (sender, found.2) := by
  -- The type the decoder is chosen by is the byte that announces it.
  have named : Decoder.memoryOf (datagram.take messageMaxSize) beyond 5 = type := announced.2.1
  have read : messageDecode type (datagram.take messageMaxSize).length vectorClockInit
      (Decoder.memoryOf (datagram.take messageMaxSize) beyond) = .ok found := decoded
  simp only [PittacusGossip.accepts, if_pos connected, messageReceived, named, read,
    Option.map_some]

/-! ### Replies -/

/-- A message answers the one a node accepts in a call, if it answers any. -/
def PittacusGossip.AnswersTo (node : PittacusGossip) (input : Input) (reply : Message)
    (recipient : List UInt8) : Prop :=
  ∀ sequenceNum ∈ reply.confirms, ∃ message, node.accepts input = some (recipient, message) ∧
    message.header.sequenceNum = sequenceNum ∧
    (reply.type = messageWelcomeType → message.type = messageHelloType)

/-- The scope of a call that is only asked what it answers. -/
def repliesScope (node : PittacusGossip) (input : Input) : Scope :=
  ⟨fun _ => True, fun _ => True, node.AnswersTo input⟩

/-- What does not name a number answers nothing. -/
theorem answersTo_of_silent {node : PittacusGossip} {input : Input} {reply : Message}
    (silent : reply.confirms = none) (recipient : List UInt8) :
    node.AnswersTo input reply recipient := by
  intro sequenceNum named
  rw [silent] at named
  cases named

/-- An accepted message is answered by its acknowledgement. -/
theorem answersTo_ack {node : PittacusGossip} {input : Input} {message : Message}
    {recipient : List UInt8} (accepted : node.accepts input = some (recipient, message)) :
    node.AnswersTo input (ackMessage message.header.sequenceNum) recipient := by
  rintro _ ⟨⟩
  have other : messageAckType ≠ messageWelcomeType := by decide
  exact ⟨message, accepted, rfl, fun welcome => absurd welcome other⟩

/-- A connected node only answers what it accepts. -/
theorem within_replies {self : PittacusGossip} (connected : self.state = .connected)
    (input : Input) : input.Within (repliesScope self input) := by
  cases input with
  | processReceive datagram sender beyond random =>
    refine ⟨⟨fun _ _ _ => trivial, fun _ _ _ => trivial, fun _ _ _ _ _ => trivial⟩,
      ⟨fun _ _ _ => trivial, fun _ _ _ => trivial⟩, ?_⟩
    refine ⟨fun count msg accepted thisMember => ?_, fun count msg accepted => ?_,
      fun count msg accepted => ?_, fun count msg accepted => ?_,
      fun _ => answersTo_of_silent rfl _, fun _ => answersTo_of_silent rfl _,
      fun _ => answersTo_of_silent rfl _⟩
    · -- A welcome answers a hello.
      have read : messageDecode messageHelloType (envelopeOf datagram sender beyond).bufferSize
          vectorClockInit (envelopeOf datagram sender beyond).buffer = _ :=
        congrArg (Except.map _) accepted
      have heard := accepts_of_decoded connected sender random (announces_of_accepted accepted).1 read
      rintro _ ⟨⟩
      exact ⟨_, heard, rfl, fun _ => rfl⟩
    · have read : messageDecode messageMemberListType (envelopeOf datagram sender beyond).bufferSize
          vectorClockInit (envelopeOf datagram sender beyond).buffer = _ :=
        congrArg (Except.map _) accepted
      exact answersTo_ack
        (accepts_of_decoded connected sender random (announces_of_accepted accepted).1 read)
    · have read : messageDecode messageDataType (envelopeOf datagram sender beyond).bufferSize
          vectorClockInit (envelopeOf datagram sender beyond).buffer = _ :=
        congrArg (Except.map _) accepted
      exact answersTo_ack
        (accepts_of_decoded connected sender random (announces_of_accepted accepted).1 read)
    · have read : messageDecode messageStatusType (envelopeOf datagram sender beyond).bufferSize
          vectorClockInit (envelopeOf datagram sender beyond).buffer = _ :=
        congrArg (Except.map _) accepted
      exact answersTo_ack
        (accepts_of_decoded connected sender random (announces_of_accepted accepted).1 read)
  | join seedNodes => exact fun seed _ msg => answersTo_of_silent rfl seed
  | sendData data random => trivial
  | tick now random => trivial
  | processSend times results => trivial

/-- A welcome is answered by nothing. -/
theorem within_of_welcome {datagram sender : List UInt8} {beyond : Nat → UInt8}
    {random : Nat → UInt32} (self : PittacusGossip)
    (welcome : Announces (envelopeOf datagram sender beyond).buffer
      (envelopeOf datagram sender beyond).bufferSize messageWelcomeType) :
    (Input.processReceive datagram sender beyond random).Within
      (repliesScope self (.processReceive datagram sender beyond random)) := by
  -- None of the messages that are answered announces the type of a welcome.
  have other : ∀ {type : UInt8}, type ≠ messageWelcomeType →
      ¬Announces (envelopeOf datagram sender beyond).buffer
        (envelopeOf datagram sender beyond).bufferSize type :=
    fun different announced => different (announced.2.1.symm.trans welcome.2.1)
  refine ⟨⟨fun _ _ _ => trivial, fun _ _ _ => trivial, fun _ _ _ _ _ => trivial⟩,
    ⟨fun _ _ _ => trivial, fun _ _ _ => trivial⟩, ?_⟩
  refine ⟨fun _ _ accepted => ?_, fun _ _ accepted => ?_, fun _ _ accepted => ?_,
    fun _ _ accepted => ?_, fun _ => answersTo_of_silent rfl _, fun _ => answersTo_of_silent rfl _,
    fun _ => answersTo_of_silent rfl _⟩
  · exact absurd (announces_of_accepted accepted).1 (other (by decide))
  · exact absurd (announces_of_accepted accepted).1 (other (by decide))
  · exact absurd (announces_of_accepted accepted).1 (other (by decide))
  · exact absurd (announces_of_accepted accepted).1 (other (by decide))

/-- In every call the queue gets on, and what joins it answers what is accepted. -/
theorem gossipStep_replies (input : Input) (self : PittacusGossip)
    (tries : ∀ envelope ∈ self.outboundMessages, 1 ≤ envelope.maxAttempts) :
    Passes (repliesScope self input) self (gossipStep input self).events
      (gossipStep input self).state := by
  by_cases connected : self.state = .connected
  · exact gossipStep_passes (within_replies connected input) self tries
  · cases input with
    | processReceive datagram sender beyond random =>
      -- A call that is refused changes nothing, so there is nothing to answer for.
      have still : ∀ code, gossipStep (.processReceive datagram sender beyond random) self
          = ⟨code, self, []⟩ →
          Passes (repliesScope self (.processReceive datagram sender beyond random)) self
            (gossipStep (.processReceive datagram sender beyond random) self).events
            (gossipStep (.processReceive datagram sender beyond random) self).state := by
        intro code same
        rw [same]
        exact (passes_chains _).rest self
      cases exchanges : self.exchanges with
      | false =>
        refine still PittacusError.badState.code ?_
        rw [gossipStep, pittacusGossipProcessReceive, Routine.get_bind_run,
          if_pos (by rw [exchanges]; rfl)]
        rfl
      | true =>
        by_cases some_ : datagram.take messageMaxSize = []
        · refine still PittacusError.readFailed.code ?_
          rw [gossipStep, pittacusGossipProcessReceive, Routine.get_bind_run,
            if_neg (by rw [exchanges]; decide)]
          simp only [some_, List.isEmpty_nil, if_true]
          rfl
        · have handled := processReceive_exchanges exchanges some_ sender beyond random
          rcases gossipHandleNewMessage_deaf connected (envelopeOf datagram sender beyond) random
            with ⟨code, same⟩ | ⟨⟨found, welcome⟩, -⟩
          · exact still code (handled.trans same)
          · have announced := (announces_of_accepted welcome).1
            exact gossipStep_passes (within_of_welcome self announced) self tries
    | join seedNodes =>
      have within : (Input.join seedNodes).Within (repliesScope self (.join seedNodes)) :=
        fun seed _ msg => answersTo_of_silent rfl seed
      exact gossipStep_passes within self tries
    | sendData data random => exact @gossipStep_passes _ (.sendData data random) trivial self tries
    | tick now random => exact @gossipStep_passes _ (.tick now random) trivial self tries
    | processSend times results =>
      exact @gossipStep_passes _ (.processSend times results) trivial self tries

end Pittacus
