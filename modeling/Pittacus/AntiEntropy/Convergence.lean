import Pittacus.AntiEntropy.CatchUp
import Pittacus.Basic.Largest

/-! What a node ends up knowing does not depend on the order in which data messages reach it. -/

namespace Pittacus

/-! ### What is gathered from data messages -/

namespace Knowledge

variable {known : Knowledge} {originators : Finset UInt64} {payload : VectorRecord → List UInt8}
  {offered : VectorRecord → Prop}

/-- The number and the payload that are logged for an originator. -/
def held (known : Knowledge) (originator : UInt64) : Option (UInt32 × List UInt8) :=
  (known.log.latest originator).map fun record =>
    (record.version.sequenceNumber, (gossipDataLogCreateMessage record).data)

/-- Of the versions offered the latest are known, with their payloads. -/
structure Gathers (known : Knowledge) (originators : Finset UInt64)
    (payload : VectorRecord → List UInt8) (offered : VectorRecord → Prop) : Prop where
  ok : known.Ok
  among : known.Among originators
  latest : ∀ originator,
    Largest (fun number => offered ⟨number, originator⟩) (known.clock.latest originator)
  held : ∀ originator, known.held originator =
    (known.clock.latest originator).map fun number => (number, payload ⟨number, originator⟩)

/-- Only which versions were offered matters. -/
theorem Gathers.congr {alike : VectorRecord → Prop}
    (gathers : known.Gathers originators payload offered)
    (same : ∀ version, offered version ↔ alike version) :
    known.Gathers originators payload alike where
  ok := gathers.ok
  among := gathers.among
  latest originator := (gathers.latest originator).congr fun number => same ⟨number, originator⟩
  held := gathers.held

/-- A node in step that met few originators has gathered what is in its clock. -/
theorem Ok.gathers (ok : known.Ok) (inStep : known.InStep)
    (inside : known.mentions ⊆ originators) (few : originators.card ≤ maxVectorSize)
    (logged : ∀ record ∈ known.log.live,
      (gossipDataLogCreateMessage record).data = payload record.version) :
    known.Gathers originators payload
      (fun version => known.clock.latest version.memberId = some version.sequenceNumber) where
  ok := ok
  among := known.among_mentions.mono inside
  latest originator := Largest.single (known.clock.latest originator)
  held originator := by
    -- The log is not longer than the clock has room for, so both hold the same originators.
    have short : known.log.size ≤ maxVectorSize :=
      Nat.le_trans ok.size_le_mentions (Nat.le_trans (Finset.card_le_card inside) few)
    have same := (inStep.resolve_left (Nat.not_lt.mpr short)) originator
    unfold Knowledge.held
    cases found : known.log.latest originator with
    | none => rw [same.mpr found, Option.map_none, Option.map_none]
    | some record =>
      cases latest : known.clock.latest originator with
      | none =>
        rw [same.mp latest] at found
        cases found
      | some number =>
        obtain ⟨member, from_⟩ := mem_of_logged found
        have numbered := ok.agree originator number record latest found
        have version : record.version = ⟨number, originator⟩ := by
          rw [← numbered, ← from_]
          rfl
        rw [Option.map_some, Option.map_some, logged record member, version]

/-- A message that arrives is one more version offered. -/
theorem Gathers.arrive (gathers : known.Gathers originators payload offered)
    (few : originators.card ≤ maxVectorSize) {msg : MessageData}
    (inside : msg.dataVersion.memberId ∈ originators)
    (carries : msg.data = payload msg.dataVersion) :
    (known.learn (.arrived msg)).Gathers originators payload
      (fun version => offered version ∨ version = msg.dataVersion) := by
  obtain ⟨taken, dropped, apart⟩ := learn_arrived gathers.ok gathers.among few inside
  -- Nothing changes for the other originators, and nothing was offered of theirs.
  have others : ∀ originator, originator ≠ msg.dataVersion.memberId → ∀ number,
      offered ⟨number, originator⟩ ↔
        offered ⟨number, originator⟩ ∨ ⟨number, originator⟩ = msg.dataVersion := by
    intro originator other number
    refine ⟨.inl, fun given => given.resolve_right fun same => other ?_⟩
    rw [← same]
  have own : ∀ number,
      offered ⟨number, msg.dataVersion.memberId⟩ ∨ number = msg.dataVersion.sequenceNumber ↔
        offered ⟨number, msg.dataVersion.memberId⟩ ∨
          ⟨number, msg.dataVersion.memberId⟩ = msg.dataVersion := by
    intro number
    refine or_congr_right ⟨fun same => by rw [same], fun same => ?_⟩
    rw [← same]
  refine ⟨gathers.ok.learn _, gathers.among.learn gathers.ok (admits_arrived inside), fun originator => ?_,
    fun originator => ?_⟩
  · by_cases this : originator = msg.dataVersion.memberId
    · subst this
      have before := gathers.latest msg.dataVersion.memberId
      by_cases novel : known.Novel msg
      · rw [(taken novel).latest]
        exact (before.replace novel).congr own
      · rw [dropped novel]
        exact (before.keep novel).congr own
    · rw [(apart originator this).latest]
      exact (gathers.latest originator).congr (others originator this)
  · by_cases this : originator = msg.dataVersion.memberId
    · subst this
      by_cases novel : known.Novel msg
      · obtain ⟨record, found, version, data⟩ := (taken novel).logged
        rw [Knowledge.held, found, (taken novel).latest, Option.map_some, Option.map_some, version,
          data, carries]
      · rw [dropped novel]
        exact gathers.held _
    · rw [Knowledge.held, (apart originator this).logged, (apart originator this).latest]
      exact gathers.held originator

end Knowledge

/-! ### Receipts -/

/-- The data message a call receives, if it receives one. -/
def Input.dataMessage : Input → Option MessageData
  | .processReceive datagram _ beyond _ => dataReceived datagram beyond
  | _ => none

/-- A connected node that sends no payload of its own learns the data message it receives. -/
theorem news_of_silent {self : PittacusGossip} {input : Input} (connected : self.state = .connected)
    (silent : input.payload = none) :
    self.news input = (input.dataMessage.map News.arrived).getD .nothing := by
  -- Without a payload of its own, only a datagram can bring something.
  cases input with
  | sendData data random => cases silent
  | processReceive datagram sender beyond random =>
    simp only [PittacusGossip.news, if_pos connected, Input.dataMessage]
    cases dataReceived datagram beyond with
    | none => rfl
    | some msg => rfl
  | _ => rfl

/-- Calls that bring all messages of a set at least once, and no other data. -/
structure Receives (messages : Finset VectorRecord) (payload : VectorRecord → List UInt8)
    (inputs : List Input) : Prop where
  silent : ∀ input ∈ inputs, input.payload = none
  only : ∀ input ∈ inputs, ∀ msg ∈ input.dataMessage,
    msg.dataVersion ∈ messages ∧ msg.data = payload msg.dataVersion
  all : ∀ version ∈ messages, ∃ input ∈ inputs, ∃ msg ∈ input.dataMessage,
    msg.dataVersion = version

/-- One call gathers the message it brings. -/
theorem gathers_step {originators : Finset UInt64} {payload : VectorRecord → List UInt8}
    {offered : VectorRecord → Prop} {self : PittacusGossip} {input : Input}
    (few : originators.card ≤ maxVectorSize) (connected : self.state = .connected)
    (silent : input.payload = none)
    (carries : ∀ msg ∈ input.dataMessage,
      msg.dataVersion.memberId ∈ originators ∧ msg.data = payload msg.dataVersion)
    (gathers : self.knowledge.Gathers originators payload offered) :
    (gossipStep input self).state.knowledge.Gathers originators payload
      (fun version => offered version ∨ ∃ msg ∈ input.dataMessage, msg.dataVersion = version) := by
  -- Only a data message is news: any other call leaves clock and log as they are.
  rw [(gossipStep_learns input self).knowledge, news_of_silent connected silent]
  cases brought : input.dataMessage with
  | none =>
    refine gathers.congr fun version => ⟨.inl, fun given => given.resolve_right ?_⟩
    rintro ⟨msg, nothing, _⟩
    cases nothing
  | some msg =>
    obtain ⟨inside, data⟩ := carries msg brought
    -- The versions offered grow by the one that the message bears.
    refine (gathers.arrive few inside data).congr fun version => or_congr_right ⟨?_, ?_⟩
    · rintro rfl
      exact ⟨msg, rfl, rfl⟩
    · rintro ⟨other, same, rfl⟩
      rw [Option.some.inj same]

/-- A run gathers all the messages it brings. -/
theorem gathers_run {originators : Finset UInt64} {payload : VectorRecord → List UInt8}
    {offered : VectorRecord → Prop} {self : PittacusGossip} {inputs : List Input}
    (few : originators.card ≤ maxVectorSize) (connected : self.state = .connected)
    (silent : ∀ input ∈ inputs, input.payload = none)
    (carries : ∀ input ∈ inputs, ∀ msg ∈ input.dataMessage,
      msg.dataVersion.memberId ∈ originators ∧ msg.data = payload msg.dataVersion)
    (gathers : self.knowledge.Gathers originators payload offered) :
    (Machine.run gossipStep inputs self).knowledge.Gathers originators payload
      (fun version => offered version ∨
        ∃ input ∈ inputs, ∃ msg ∈ input.dataMessage, msg.dataVersion = version) := by
  -- What was offered by the first call counts among what was offered before the others.
  induction inputs generalizing self offered with
  | nil =>
    refine gathers.congr fun version => ⟨.inl, fun given => given.resolve_right ?_⟩
    rintro ⟨input, nothing, _⟩
    cases nothing
  | cons input rest ih =>
    have now := gathers_step few connected (silent input List.mem_cons_self)
      (carries input List.mem_cons_self) gathers
    have later := ih (connected_step connected input)
      (fun one member => silent one (List.mem_cons_of_mem _ member))
      (fun one member => carries one (List.mem_cons_of_mem _ member)) now
    refine later.congr fun version => ?_
    rw [or_assoc, List.exists_mem_cons_iff]

/-- Calls that bring all messages of a set gather it on top of what the clock held before. -/
theorem Receives.gathers {messages : Finset VectorRecord} {payload : VectorRecord → List UInt8}
    {inputs : List Input} (receives : Receives messages payload inputs) {self : PittacusGossip}
    (connected : self.state = .connected) (ok : self.knowledge.Ok)
    (inStep : self.knowledge.InStep)
    (logged : ∀ record ∈ self.dataLog.live,
      (gossipDataLogCreateMessage record).data = payload record.version)
    (few : (self.knowledge.mentions ∪ messages.image VectorRecord.memberId).card ≤ maxVectorSize) :
    (Machine.run gossipStep inputs self).knowledge.Gathers
      (self.knowledge.mentions ∪ messages.image VectorRecord.memberId) payload
      (fun version =>
        self.dataVersion.latest version.memberId = some version.sequenceNumber ∨
          version ∈ messages) := by
  -- Before the calls, what the clock holds is all that was gathered.
  have start := ok.gathers inStep Finset.subset_union_left few logged
  refine (gathers_run few connected receives.silent (fun input member msg brought => ?_)
    start).congr fun version => or_congr_right ⟨?_, receives.all version⟩
  · obtain ⟨listed, data⟩ := receives.only input member msg brought
    exact ⟨Finset.mem_union_right _ (Finset.mem_image_of_mem _ listed), data⟩
  · rintro ⟨input, member, msg, brought, rfl⟩
    exact (receives.only input member msg brought).1

end Pittacus
