import Pittacus.Knowledge.Delivery

/-! What a node keeps of what it learned: its clock, its log, and how far one covers the other. -/

namespace Pittacus

/-! ### The clock -/

/-- A step neither lowers a sequence number of the clock nor drops an originator from it. -/
def Retains (self : PittacusGossip) (input : Input) : Prop :=
  ∀ record ∈ self.dataVersion.live,
    ∃ later ∈ (gossipStep input self).state.dataVersion.live,
      later.memberId = record.memberId ∧ record.sequenceNumber ≤ later.sequenceNumber

instance (self : PittacusGossip) (input : Input) : Decidable (Retains self input) :=
  inferInstanceAs (Decidable (∀ record ∈ self.dataVersion.live, ∃ later ∈ _, _))

/-- A payload is numbered no lower than what the clock holds under the node's own id. -/
def CounterAhead (self : PittacusGossip) (input : Input) : Prop :=
  ∀ data ∈ (self.news input).payload,
    ∀ held ∈ self.dataVersion.latest self.knowledge.ownId, held ≤ self.dataCounter + 1

/-- Retaining is about what the clock holds for each originator. -/
theorem retains_iff {self : PittacusGossip} {input : Input} (ok : self.knowledge.Ok) :
    Retains self input ↔
      ∀ originator held, self.dataVersion.latest originator = some held →
        ∃ later, (self.knowledge.learn (self.news input)).clock.latest originator = some later ∧
          held ≤ later := by
  have learned := (gossipStep_learns input self).knowledge
  have after : (gossipStep input self).state.dataVersion =
      (self.knowledge.learn (self.news input)).clock := by
    rw [← learned]
    rfl
  have next := (ok.learn (self.news input)).clock
  -- A record of the clock and what is latest for its originator say the same.
  constructor
  · intro retains originator held found
    obtain ⟨later, member, same, above⟩ := retains _ (mem_of_latest found)
    rw [after] at member
    refine ⟨later.sequenceNumber, ?_, above⟩
    rw [← next.latest_of_mem member, same]
  · intro kept record member
    obtain ⟨later, found, above⟩ := kept _ _ (ok.clock.latest_of_mem member)
    refine ⟨⟨later, record.memberId⟩, ?_, rfl, above⟩
    rw [after]
    exact mem_of_latest found

/-- With room for all originators, only the node's own payloads can lower a sequence number. -/
theorem retains_iff_counterAhead {originators : Finset UInt64} {self : PittacusGossip}
    {input : Input} (ok : self.knowledge.Ok) (among : self.knowledge.Among originators)
    (few : originators.card ≤ maxVectorSize) (occurs : OccursAmong originators self input) :
    Retains self input ↔ CounterAhead self input := by
  rw [retains_iff ok]
  cases taken : self.knowledge.adopted (self.news input) with
  | none =>
    -- Nothing is taken over, and no payload is sent.
    have same := Knowledge.learn_clock self.knowledge (self.news input)
    rw [taken] at same
    rw [same]
    constructor
    · intro _ data sent
      cases brought : self.news input with
      | nothing => rw [brought] at sent; cases sent
      | arrived msg => rw [brought] at sent; cases sent
      | sent payload => rw [brought] at taken; cases taken
    · intro _ originator held found
      exact ⟨held, found, UInt32.le_refl held⟩
  | some msg =>
    have latest := among.latest_learn ok few occurs.admits taken
    cases brought : self.news input with
    | nothing => rw [brought] at taken; cases taken
    | sent payload =>
      rw [brought] at taken latest
      cases taken
      constructor
      · intro kept data sent held found
        obtain ⟨later, now, above⟩ := kept _ held found
        have mine : _ = some (self.dataCounter + 1) :=
          (latest self.knowledge.ownId).trans (if_pos rfl)
        rw [mine] at now
        cases now
        exact above
      · intro ahead originator held found
        rw [latest]
        by_cases mine : originator = self.knowledge.ownId
        · rw [mine] at found
          refine ⟨_, if_pos mine, ?_⟩
          exact ahead payload (by rw [brought]; rfl) held found
        · exact ⟨held, (if_neg mine).trans found, UInt32.le_refl held⟩
    | arrived arrival =>
      -- What arrives and is taken over is above what the clock holds.
      rw [brought] at taken latest
      constructor
      · intro _ data sent
        rw [brought] at sent
        cases sent
      · intro _ originator held found
        rw [latest]
        simp only [Knowledge.adopted, Knowledge.received] at taken
        split at taken
        · rename_i novel
          cases taken
          by_cases same : originator = msg.dataVersion.memberId
          · rw [same] at found
            exact ⟨_, if_pos same, UInt32.le_of_lt (novel held found)⟩
          · exact ⟨held, (if_neg same).trans found, UInt32.le_refl held⟩
        · cases taken

/-- Clock and log are consistent, and hold only the given originators. -/
def Consistent (originators : Finset UInt64) (self : PittacusGossip) : Prop :=
  self.knowledge.Ok ∧ self.knowledge.Among originators

theorem create_consistent (originators : Finset UInt64) (selfAddress : List UInt8)
    (bounded : selfAddress.length ≤ sockaddrStorageSize) (now : Nat) (dataReceiver : Bool)
    (fresh : FreshMemory) :
    Consistent originators
      (pittacusGossipCreate selfAddress bounded now dataReceiver fresh) :=
  have tracks := create_tracks originators selfAddress bounded now dataReceiver fresh
  ⟨tracks.ok, tracks.among⟩

/-- Every step keeps clock and log consistent. -/
theorem Consistent.step {originators : Finset UInt64} {self : PittacusGossip} {input : Input}
    (consistent : Consistent originators self) (occurs : OccursAmong originators self input) :
    Consistent originators (gossipStep input self).state := by
  unfold Consistent
  rw [(gossipStep_learns input self).knowledge]
  exact ⟨consistent.1.learn _, consistent.2.learn consistent.1 occurs.admits⟩

/--
No sequence number in the clock decreases exactly as long as own payloads are numbered above it.

This holds for every run of a new node with at most as many originators as the clock has room for.
-/
theorem clock_retained_iff (originators : Finset UInt64) (few : originators.card ≤ maxVectorSize)
    (selfAddress : List UInt8) (bounded : selfAddress.length ≤ sockaddrStorageSize) (now : Nat)
    (dataReceiver : Bool) (fresh : FreshMemory) (inputs : List Input)
    (occurs : Machine.Along gossipStep (OccursAmong originators) inputs
      (pittacusGossipCreate selfAddress bounded now dataReceiver fresh)) :
    Machine.Along gossipStep Retains inputs
        (pittacusGossipCreate selfAddress bounded now dataReceiver fresh) ↔
      Machine.Along gossipStep CounterAhead inputs
        (pittacusGossipCreate selfAddress bounded now dataReceiver fresh) := by
  have start := create_consistent originators selfAddress bounded now dataReceiver fresh
  -- At a consistent state the two conditions on a step say the same.
  have agree : ∀ self input, Consistent originators self → OccursAmong originators self input →
      (Retains self input ↔ CounterAhead self input) :=
    fun self input consistent occurs =>
      retains_iff_counterAhead consistent.1 consistent.2 few occurs
  have preserved : ∀ self input, Consistent originators self → OccursAmong originators self input →
      Consistent originators (gossipStep input self).state :=
    fun self input consistent occurs => consistent.step occurs
  exact Machine.along_congr preserved agree start occurs

/-- A node told of its own message number five forgets it when it sends its own first payload. -/
theorem clock_not_retained :
    let ownId := vectorClockCreateMemberId (localNode 1).selfAddress
    let inputs := [.join [], (rumor ownId 5 10).arrivesFrom 2, .sendData [11] noRandom]
    Machine.Along gossipStep (OccursAmong {ownId}) inputs (localNode 1) ∧
      Machine.Along gossipStep CounterRoom inputs (localNode 1) ∧
      ¬Machine.Along gossipStep Retains inputs (localNode 1) := by
  refine ⟨?_, ?_, ?_⟩
  · decide +kernel
  · decide +kernel
  · decide +kernel

/-- A received message from another originator is retained next to the node's own. -/
theorem clock_retained_iff_one :
    let inputs := [.join [], (rumor 7 1 10).arrivesFrom 2, .sendData [11] noRandom]
    Machine.Along gossipStep Retains inputs (localNode 1) ↔
      Machine.Along gossipStep CounterAhead inputs (localNode 1) :=
  clock_retained_iff {7, vectorClockCreateMemberId (localNode 1).selfAddress} (by decide +kernel)
    (loopback 1) (by decide) 5000 true .zero _ (by decide +kernel)

/-! ### The log covers the clock -/

/-- Every version the clock holds is logged. -/
def Serves (self : PittacusGossip) : Prop :=
  ∀ record ∈ self.dataVersion.live, ∃ logged ∈ self.dataLog.live, logged.version = record

instance (self : PittacusGossip) : Decidable (Serves self) :=
  inferInstanceAs (Decidable (∀ record ∈ self.dataVersion.live, ∃ logged ∈ _, _))

/-- Every originator in the clock is in the log. -/
def Knowledge.Covered (known : Knowledge) : Prop :=
  ∀ originator held, known.clock.latest originator = some held →
    ∃ record, known.log.latest originator = some record

/-- A consistent log that has every originator of the clock has every version of it. -/
theorem serves_of_covered {self : PittacusGossip} (ok : self.knowledge.Ok)
    (covered : self.knowledge.Covered) : Serves self := by
  intro record member
  have held := ok.clock.latest_of_mem member
  obtain ⟨logged, found⟩ := covered _ _ held
  obtain ⟨inside, from_⟩ := mem_of_logged found
  refine ⟨logged, inside, ?_⟩
  -- The log has the originator with the same number, which is the whole version.
  have agree := ok.agree _ _ _ held found
  have sameId : logged.version.memberId = record.memberId := from_
  calc
    logged.version = ⟨logged.version.sequenceNumber, logged.version.memberId⟩ := rfl
    _ = ⟨record.sequenceNumber, record.memberId⟩ := by rw [agree, sameId]
    _ = record := rfl

/-- A log with room for all originators goes on covering the clock. -/
theorem Knowledge.Covered.learn {originators : Finset UInt64} {known : Knowledge} {news : News}
    (covered : known.Covered) (ok : known.Ok) (among : known.Among originators)
    (few : originators.card ≤ dataLogSize) (admitted : known.Admits originators news) :
    (known.learn news).Covered := by
  intro originator held found
  rw [Knowledge.learn_clock] at found
  rw [Knowledge.learn_log]
  -- The log drops nothing of another originator while all of them fit into it.
  cases taken : known.adopted news with
  | none =>
    rw [taken] at found
    exact covered originator held found
  | some msg =>
    rw [taken] at found
    simp only at found ⊢
    obtain ⟨old, logged⟩ := ok.log.latest_log msg
    have kept := among.log_forgets ok few (admitted msg taken)
    rw [ok.clock.latest_set] at found
    rw [logged]
    by_cases same : originator = msg.dataVersion.memberId
    · exact ⟨_, if_pos same⟩
    · rw [if_neg same] at found ⊢
      rw [kept, if_neg (by simp)]
      split at found
      · cases found
      · exact covered originator held found

/-- The arrival of the first message of each of the given originators. -/
def firstRumors (originators : List UInt64) : List Input :=
  originators.map fun originator => (rumor originator 1 10).arrivesFrom 2

/-- Everything a log holds from the originator of a version is older than it. -/
def DataLog.Precedes (log : DataLog) (version : VectorRecord) : Prop :=
  ∀ record ∈ log.live, record.version.memberId = version.memberId →
    record.version.sequenceNumber < version.sequenceNumber

instance (log : DataLog) (version : VectorRecord) : Decidable (log.Precedes version) :=
  inferInstanceAs (Decidable (∀ record ∈ log.live, _))

/-- An event logs or delivers nothing that a log already holds, or holds something newer of. -/
def Event.Advances (log : DataLog) : Event → Prop
  | .log msg => log.Precedes msg.dataVersion
  | .receive version _ => log.Precedes version
  | _ => True

instance (log : DataLog) : (event : Event) → Decidable (event.Advances log)
  | .log msg => inferInstanceAs (Decidable (log.Precedes msg.dataVersion))
  | .receive version _ => inferInstanceAs (Decidable (log.Precedes version))
  | .enqueue _ _ _ _ _ | .sendTo _ _ _ _ | .remove _ _ => .isTrue trivial

/-- Whatever a step logs or delivers is newer than what the log holds of its originator. -/
def LogAdvances (self : PittacusGossip) (input : Input) : Prop :=
  ∀ event ∈ (gossipStep input self).events, event.Advances self.dataLog

instance (self : PittacusGossip) (input : Input) : Decidable (LogAdvances self input) :=
  inferInstanceAs (Decidable (∀ event ∈ _, _))

/-- A message from an originator the clock lacks is newer than what the log holds of it. -/
def ForgottenAreNewer (self : PittacusGossip) (input : Input) : Prop :=
  ∀ msg ∈ (self.news input).arrival, self.dataVersion.latest msg.dataVersion.memberId = none →
    self.dataLog.Precedes msg.dataVersion

/-- A step logs nothing but the message it takes over. -/
theorem mem_log_step {self : PittacusGossip} {input : Input} {msg : MessageData} :
    Event.log msg ∈ (gossipStep input self).events ↔
      self.knowledge.received (self.news input) = some msg := by
  have logs := (gossipStep_learns input self).logs
  -- A log event is one of those the step is known to cause.
  have shown : Event.log msg ∈ (gossipStep input self).events ↔
      msg ∈ (gossipStep input self).events.filterMap Event.asLog := by
    rw [List.mem_filterMap]
    constructor
    · exact fun member => ⟨_, member, rfl⟩
    · rintro ⟨event, member, shows_⟩
      cases event <;> cases shows_
      exact member
  rw [shown, logs, Option.mem_toList]

/-- A step delivers nothing but the message it takes over. -/
theorem received_of_delivered {self : PittacusGossip} {input : Input} {version : VectorRecord}
    {data : List UInt8} (member : Event.receive version data ∈ (gossipStep input self).events) :
    ∃ msg, self.knowledge.received (self.news input) = some msg ∧ msg.dataVersion = version := by
  have deliveries := (gossipStep_learns input self).deliveries
  have shown : (version, data) ∈ (gossipStep input self).events.filterMap Event.asDelivery :=
    List.mem_filterMap.mpr ⟨_, member, rfl⟩
  rw [deliveries] at shown
  -- Nothing is delivered without a receiver.
  split at shown
  · obtain ⟨msg, taken, same⟩ := List.mem_map.mp shown
    exact ⟨msg, Option.mem_toList.mp taken, (Prod.mk.inj same).1⟩
  · cases shown

/-- A step advances the log exactly when the message it takes over, if any, does. -/
theorem logAdvances_iff {self : PittacusGossip} {input : Input} :
    LogAdvances self input ↔
      ∀ msg, self.knowledge.received (self.news input) = some msg →
        self.dataLog.Precedes msg.dataVersion := by
  constructor
  · intro advances msg taken
    exact advances _ (mem_log_step.mpr taken)
  · intro precedes event member
    -- Only a logged and a delivered message have something to advance past.
    cases event with
    | log msg => exact precedes msg (mem_log_step.mp member)
    | receive version data =>
      obtain ⟨msg, taken, rfl⟩ := received_of_delivered member
      exact precedes msg taken
    | enqueue found slot left message spreading => trivial
    | sendTo envelope datagram now result => trivial
    | remove envelope reason => trivial

/-- The clock vouches for the log, except for originators it has forgotten. -/
theorem logAdvances_iff_forgottenAreNewer {self : PittacusGossip} {input : Input}
    (ok : self.knowledge.Ok) : LogAdvances self input ↔ ForgottenAreNewer self input := by
  rw [logAdvances_iff]
  constructor
  · intro precedes msg arrived absent
    have brought : self.news input = .arrived msg := by
      cases news : self.news input with
      | nothing => rw [news] at arrived; cases arrived
      | sent data => rw [news] at arrived; cases arrived
      | arrived other => rw [news] at arrived; cases arrived; rfl
    apply precedes
    rw [brought]
    refine if_pos fun held found => ?_
    rw [Option.mem_def, show self.knowledge.clock = self.dataVersion from rfl, absent] at found
    cases found
  · intro newer msg taken
    cases brought : self.news input with
    | nothing => rw [brought] at taken; cases taken
    | sent data => rw [brought] at taken; cases taken
    | arrived arrival =>
      rw [brought] at taken
      simp only [Knowledge.received] at taken
      split at taken
      · rename_i novel
        cases taken
        cases present : self.dataVersion.latest msg.dataVersion.memberId with
        | none => exact newer msg (by rw [brought]; rfl) present
        | some held =>
          -- The log agrees with the clock, and the clock is behind the message.
          intro record member same
          have logged := ok.log.latest_of_mem member
          have inClock : self.knowledge.clock.latest record.originator = some held := by
            rw [← present, ← same]
            rfl
          have agree := ok.agree _ held record inClock logged
          rw [agree]
          exact novel held present
      · cases taken

end Pittacus
