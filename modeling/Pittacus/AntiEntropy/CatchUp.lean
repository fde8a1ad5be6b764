import Pittacus.AntiEntropy.InStep
import Pittacus.Cluster.Datagrams
import Pittacus.Proofs.Stages

/-! A node that is sent what it lacks takes all of it over, in any order and however often. -/

namespace Pittacus

/-! ### Taking over one message -/

namespace Knowledge

variable {known : Knowledge} {msg other : MessageData}

/-- The version of a message is the latest one, and its payload is logged under it. -/
structure Has (known : Knowledge) (msg : MessageData) : Prop where
  latest : known.clock.latest msg.dataVersion.memberId = some msg.dataVersion.sequenceNumber
  logged : ∃ record, known.log.latest msg.dataVersion.memberId = some record ∧
    record.version = msg.dataVersion ∧ (gossipDataLogCreateMessage record).data = msg.data

/-- Two states of knowledge hold the same of an originator. -/
structure AgreeOn (first second : Knowledge) (originator : UInt64) : Prop where
  latest : first.clock.latest originator = second.clock.latest originator
  logged : first.log.latest originator = second.log.latest originator

/-- What one has, the other has. -/
theorem AgreeOn.has {first second : Knowledge}
    (agree : first.AgreeOn second msg.dataVersion.memberId) (has : second.Has msg) :
    first.Has msg where
  latest := agree.latest.trans has.latest
  logged := by
    rw [agree.logged]
    exact has.logged

/-- What is new to one is new to the other. -/
theorem AgreeOn.novel {first second : Knowledge}
    (agree : first.AgreeOn second msg.dataVersion.memberId) (novel : second.Novel msg) :
    first.Novel msg := by
  intro held found
  rw [agree.latest] at found
  exact novel held found

/-- Two messages carry the same version and payload. -/
structure SameData (first second : MessageData) : Prop where
  version : first.dataVersion = second.dataVersion
  data : first.data = second.data

theorem SameData.has (same : SameData msg other) (has : known.Has msg) : known.Has other where
  latest := by
    rw [← same.version]
    exact has.latest
  logged := by
    rw [← same.version, ← same.data]
    exact has.logged

theorem SameData.novel (same : SameData msg other) (novel : known.Novel msg) :
    known.Novel other := by
  intro held found
  rw [← same.version] at found ⊢
  exact novel held found

/-- A message that arrives is taken over if it is new, and changes nothing otherwise. -/
theorem learn_arrived {originators : Finset UInt64} (ok : known.Ok)
    (among : known.Among originators) (few : originators.card ≤ maxVectorSize)
    (inside : msg.dataVersion.memberId ∈ originators) :
    (known.Novel msg → (known.learn (.arrived msg)).Has msg) ∧
      (¬known.Novel msg → known.learn (.arrived msg) = known) ∧
      ∀ originator, originator ≠ msg.dataVersion.memberId →
        (known.learn (.arrived msg)).AgreeOn known originator := by
  by_cases novel : known.Novel msg
  · have taken : known.adopted (.arrived msg) = some msg := by
      rw [Knowledge.adopted, Knowledge.received, if_pos novel]
      all_goals simp
    have latest := among.latest_learn ok few (admits_arrived inside) taken
    -- The log has room for all the originators as well.
    have kept := among.log_forgets ok (Nat.le_trans few (by decide)) inside
    obtain ⟨slot, logged⟩ := ok.log.latest_log msg
    have log : (known.learn (.arrived msg)).log = gossipDataLog known.log msg := by
      rw [learn_log, taken]
    refine ⟨fun _ => ⟨?_, slot.logged msg, ?_, rfl, logged_data msg slot⟩,
      fun old => absurd novel old, fun originator apart => ⟨?_, ?_⟩⟩
    · rw [latest, if_pos rfl]
    · rw [log, logged, if_pos rfl]
    · rw [latest, if_neg apart]
    · rw [log, logged, if_neg apart, kept, if_neg (by simp)]
  · have dropped : known.adopted (.arrived msg) = none := by
      rw [Knowledge.adopted, Knowledge.received, if_neg novel]
      all_goals simp
    have unchanged : known.learn (.arrived msg) = known := by
      simp only [learn, dropped]
      rfl
    refine ⟨fun new => absurd new novel, fun _ => unchanged, fun originator _ => ?_⟩
    rw [unchanged]
    exact ⟨rfl, rfl⟩

end Knowledge

/-! ### Arrivals -/

/-- The arrival of a data message, under some number, from somewhere. -/
structure Arrival where
  data : MessageData
  sequenceNum : UInt32
  sender : List UInt8
  beyond : Nat → UInt8
  random : Nat → UInt32

/-- The call that receives the datagram. -/
def Arrival.input (arrival : Arrival) : Input :=
  .processReceive ((Message.data arrival.data).datagram arrival.sequenceNum) arrival.sender
    arrival.beyond arrival.random

/-- The message as it is decoded, its number being that of the datagram. -/
def Arrival.message (arrival : Arrival) : MessageData :=
  { arrival.data with header := arrival.data.header.renumbered arrival.sequenceNum }

/-- A message that can be sent: its header is in order, and its payload fits. -/
structure MessageData.Sendable (msg : MessageData) : Prop where
  typed : (Message.data msg).Typed
  short : msg.data.length ≤ messageMaxSize - 26

/-- A sendable message fits the output buffer. -/
theorem MessageData.Sendable.required_le {msg : MessageData} (sendable : msg.Sendable) :
    (Message.data msg).required ≤ messageMaxSize := by
  have short := sendable.short
  simp only [Message.required, messageHeaderSize, vectorRecordSize, memberIdSize,
    messageMaxSize] at short ⊢
  omega

/-- The datagram of a sendable message fills the buffer it arrives in. -/
theorem Arrival.fills (arrival : Arrival) (sendable : arrival.data.Sendable) :
    let envelopeIn := envelopeOf ((Message.data arrival.data).datagram arrival.sequenceNum)
      arrival.sender arrival.beyond
    (Message.data arrival.message).Fills envelopeIn.buffer envelopeIn.bufferSize :=
  Message.Fills.of_datagram sendable.typed (Message.data_fits arrival.data)
    (Nat.le_trans (Message.data_fits arrival.data).wire_length_le sendable.required_le)
    arrival.sequenceNum arrival.sender arrival.beyond

/-- The datagram of a sendable message is received as that message. -/
theorem Arrival.dataReceived (arrival : Arrival) (sendable : arrival.data.Sendable) :
    dataReceived ((Message.data arrival.data).datagram arrival.sequenceNum) arrival.beyond
      = some arrival.message := by
  have fills := arrival.fills sendable
  obtain ⟨decoded, read, same⟩ := messageDecode_of_holds fills.typed fills.fits
    (List.forall_mem_nil _) fills.held vectorClockInit
  have type : (Message.data arrival.message).type = messageDataType := rfl
  rw [← fills.size, type, messageDecode, if_neg (by decide), if_neg (by decide),
    if_neg (by decide), if_neg (by decide), if_pos rfl] at read
  obtain ⟨found, accepted, made⟩ := map_eq_ok read
  rw [← (Prod.mk.inj made).2] at same
  -- Messages of this type are the same only if they are equal.
  have whole : found.2 = arrival.message := Message.data.inj same
  have result : (messageDataDecode
      (((Message.data arrival.data).datagram arrival.sequenceNum).take messageMaxSize).length).result
      (Decoder.memoryOf
        (((Message.data arrival.data).datagram arrival.sequenceNum).take messageMaxSize)
        arrival.beyond) = .ok found := accepted
  rw [Pittacus.dataReceived, result, ← whole]

/-! ### What the receiver makes of it -/

/-- What a connected node learns from an arrival, and what it delivers of it. -/
theorem Arrival.learns (arrival : Arrival) (sendable : arrival.data.Sendable)
    {self : PittacusGossip} (connected : self.state = .connected) :
    Learns (.arrived arrival.message) self (gossipStep arrival.input self).events
      (gossipStep arrival.input self).state := by
  have learned := gossipStep_learns arrival.input self
  -- The datagram is decoded as the message that was put into it.
  have news : self.news arrival.input = .arrived arrival.message := by
    show (if self.state = .connected then _ else _) = _
    rw [if_pos connected, arrival.dataReceived sendable]
  rw [news] at learned
  exact learned

/-- A message that is new to a connected node is logged, and handed to the data receiver. -/
theorem Arrival.delivered (arrival : Arrival) (sendable : arrival.data.Sendable)
    {peer : PittacusGossip} (connected : peer.state = .connected)
    (novel : peer.knowledge.Novel arrival.message) :
    .log arrival.message ∈ (gossipStep arrival.input peer).events ∧
      (peer.dataReceiver = true →
        .receive arrival.data.dataVersion arrival.data.data ∈
          (gossipStep arrival.input peer).events) := by
  have learned := arrival.learns sendable connected
  have received : peer.knowledge.received (.arrived arrival.message) = some arrival.message :=
    if_pos novel
  -- Both events are read off what the step is known to have logged and delivered.
  constructor
  · have logged : arrival.message ∈ (gossipStep arrival.input peer).events.filterMap Event.asLog := by
      rw [learned.logs, received]
      exact List.mem_singleton.mpr rfl
    obtain ⟨event, caused, shows⟩ := List.mem_filterMap.mp logged
    cases event with
    | log msg =>
      cases shows
      exact caused
    | _ => cases shows
  · intro receiving
    have given : (arrival.data.dataVersion, arrival.data.data) ∈
        (gossipStep arrival.input peer).events.filterMap Event.asDelivery := by
      rw [learned.deliveries, if_pos receiving, received]
      exact List.mem_singleton.mpr rfl
    obtain ⟨event, caused, shows⟩ := List.mem_filterMap.mp given
    cases event with
    | receive version data =>
      cases shows
      exact caused
    | _ => cases shows

/-! ### All of it -/

/-- Arrivals of sendable messages from known originators, which agree where they share one. -/
structure Arrivals (originators : Finset UInt64) (arrivals : List Arrival) : Prop where
  sendable : ∀ arrival ∈ arrivals, arrival.data.Sendable
  known : ∀ arrival ∈ arrivals, arrival.data.dataVersion.memberId ∈ originators
  agree : ∀ arrival ∈ arrivals, ∀ other ∈ arrivals,
    arrival.data.dataVersion.memberId = other.data.dataVersion.memberId →
      Knowledge.SameData arrival.data other.data

/-- What a node ends up with after arrivals that were new to it, or that it had already. -/
structure TakesOver (arrivals : List Arrival) (before : PittacusGossip) (events : List Event)
    (after : PittacusGossip) : Prop where
  has : ∀ arrival ∈ arrivals, after.knowledge.Has arrival.data
  others : ∀ originator, (∀ arrival ∈ arrivals, arrival.data.dataVersion.memberId ≠ originator) →
    after.knowledge.AgreeOn before.knowledge originator
  delivers : before.dataReceiver = true → ∀ arrival ∈ arrivals,
    before.knowledge.Novel arrival.data →
      .receive arrival.data.dataVersion arrival.data.data ∈ events

/-- Whatever is new to a node is taken over, and whatever it has it keeps, in any order. -/
theorem arrivals_takesOver {originators : Finset UInt64} (few : originators.card ≤ maxVectorSize)
    (arrivals : List Arrival) (good : Arrivals originators arrivals) (self : PittacusGossip)
    (connected : self.state = .connected) (ok : self.knowledge.Ok)
    (among : self.knowledge.Among originators)
    (pending : ∀ arrival ∈ arrivals,
      self.knowledge.Novel arrival.data ∨ self.knowledge.Has arrival.data) :
    TakesOver arrivals self (Machine.trace gossipStep (arrivals.map Arrival.input) self)
      (Machine.run gossipStep (arrivals.map Arrival.input) self) := by
  -- What was taken over once is not new any more, and the arrivals behind it do not change it.
  induction arrivals generalizing self with
  | nil =>
    exact ⟨List.forall_mem_nil _, fun _ _ => ⟨rfl, rfl⟩,
      fun _ _ member => absurd member List.not_mem_nil⟩
  | cons arrival rest ih =>
    have sendable := good.sendable arrival List.mem_cons_self
    have inside := good.known arrival List.mem_cons_self
    have learned := arrival.learns sendable connected
    have connected_ := connected_step connected arrival.input
    have inside_ : arrival.message.dataVersion.memberId ∈ originators := inside
    obtain ⟨taken, dropped, apart⟩ := Knowledge.learn_arrived ok among few inside_
    have ok_ := ok.learn (.arrived arrival.message)
    have among_ := among.learn ok (Knowledge.admits_arrived inside_)
    rw [← learned.knowledge] at taken dropped apart ok_ among_
    have receiver := learned.dataReceiver
    have delivered := arrival.delivered sendable connected
    show TakesOver (arrival :: rest) self
      ((gossipStep arrival.input self).events ++ Machine.trace gossipStep (rest.map Arrival.input)
        (gossipStep arrival.input self).state)
      (Machine.run gossipStep (rest.map Arrival.input) (gossipStep arrival.input self).state)
    generalize gossipStep arrival.input self = ran at *
    -- After the first arrival, its message is there.
    have first : ran.state.knowledge.Has arrival.data := by
      by_cases novel : self.knowledge.Novel arrival.data
      · exact ⟨(taken novel).latest, (taken novel).logged⟩
      · rw [dropped novel]
        exact (pending arrival List.mem_cons_self).resolve_left novel
    have sameAs : ∀ other ∈ rest,
        other.data.dataVersion.memberId = arrival.data.dataVersion.memberId →
          Knowledge.SameData arrival.data other.data :=
      fun other member same => good.agree arrival List.mem_cons_self other
        (List.mem_cons_of_mem _ member) same.symm
    have pending_ : ∀ other ∈ rest,
        ran.state.knowledge.Novel other.data ∨ ran.state.knowledge.Has other.data := by
      intro other member
      by_cases same : other.data.dataVersion.memberId = arrival.data.dataVersion.memberId
      · exact .inr ((sameAs other member same).has first)
      · rcases pending other (List.mem_cons_of_mem _ member) with novel | has
        · exact .inl ((apart _ same).novel novel)
        · exact .inr ((apart _ same).has has)
    have good_ : Arrivals originators rest :=
      ⟨fun other member => good.sendable other (List.mem_cons_of_mem _ member),
        fun other member => good.known other (List.mem_cons_of_mem _ member),
        fun one member other member_ => good.agree one (List.mem_cons_of_mem _ member) other
          (List.mem_cons_of_mem _ member_)⟩
    obtain ⟨has, others, delivers⟩ := ih good_ ran.state connected_ ok_ among_ pending_
    refine ⟨fun other member => ?_, fun originator unnamed => ?_,
      fun receiving other member novel => ?_⟩
    · rcases List.mem_cons.mp member with rfl | later
      · -- Either it arrives again, or nothing behind it is from its originator.
        by_cases again : ∃ one ∈ rest, one.data.dataVersion.memberId = other.data.dataVersion.memberId
        · obtain ⟨one, member_, same⟩ := again
          have back := good.agree one (List.mem_cons_of_mem _ member_) other List.mem_cons_self same
          exact back.has (has one member_)
        · push Not at again
          exact (others _ again).has first
      · exact has other later
    · have rest_ := others originator fun one member => unnamed one (List.mem_cons_of_mem _ member)
      have here := apart originator (unnamed arrival List.mem_cons_self).symm
      exact ⟨rest_.latest.trans here.latest, rest_.logged.trans here.logged⟩
    · have shown : self.knowledge.Novel arrival.data →
          .receive arrival.data.dataVersion arrival.data.data ∈ ran.events :=
        fun new => (delivered new).2 receiving
      rcases List.mem_cons.mp member with rfl | later
      · exact List.mem_append_left _ (shown novel)
      · by_cases same : other.data.dataVersion.memberId = arrival.data.dataVersion.memberId
        · -- It has the version and the payload of the first arrival.
          have alike := sameAs other later same
          have back := good.agree other member arrival List.mem_cons_self same
          rw [← alike.version, ← alike.data]
          exact List.mem_append_left _ (shown (back.novel novel))
        · refine List.mem_append_right _ (delivers (receiver.trans receiving) other later ?_)
          exact (apart _ same).novel novel

end Pittacus
