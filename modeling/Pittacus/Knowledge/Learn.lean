import Pittacus.Proofs.Rings

/-! What a node knows about the data in its cluster, and how a piece of news changes it. -/

namespace Pittacus

/-- The part of a node that concerns data: who it is, what it sent, what it saw, what it keeps. -/
structure Knowledge where
  ownId : UInt64
  counter : UInt32
  clock : VectorClock
  log : DataLog

/-- What one call on a node can tell it about data. -/
inductive News where
  | nothing
  /-- The application has a payload to spread. -/
  | sent (data : List UInt8)
  /-- A data message came in. -/
  | arrived (msg : MessageData)

namespace Knowledge

/-- The message that carries the node's next payload. -/
def own (known : Knowledge) (data : List UInt8) : MessageData :=
  enqueuedData ⟨known.counter + 1, known.ownId⟩ data

/-- Nothing as recent was seen from the originator of a message. -/
def Novel (known : Knowledge) (msg : MessageData) : Prop :=
  ∀ held ∈ known.clock.latest msg.dataVersion.memberId, held < msg.dataVersion.sequenceNumber

instance (known : Knowledge) (msg : MessageData) : Decidable (known.Novel msg) :=
  -- Looking at the one number held, not at all there are.
  show Decidable (∀ held ∈ known.clock.latest _, held < _) from Option.decidableForallMem _

/-- The received message that is taken over. -/
def received (known : Knowledge) : News → Option MessageData
  | .nothing | .sent _ => none
  | .arrived msg => if known.Novel msg then some msg else none

/-- The message that is taken over, be it received or the node's own. -/
def adopted (known : Knowledge) : News → Option MessageData
  | .sent data => some (known.own data)
  | news => known.received news

/-- Take over the version and the payload of a message. -/
def adopt (known : Knowledge) (msg : MessageData) : Knowledge :=
  { known with
    clock :=
      vectorClockSetById known.clock msg.dataVersion.memberId msg.dataVersion.sequenceNumber
    log := gossipDataLog known.log msg }

/-- Count a payload of the node's own. -/
def count (known : Knowledge) : News → Knowledge
  | .sent _ => { known with counter := known.counter + 1 }
  | _ => known

/-- What is known after a piece of news. -/
def learn (known : Knowledge) (news : News) : Knowledge :=
  match known.adopted news with
  | some msg => (known.count news).adopt msg
  | none => known.count news

@[simp] theorem count_clock (known : Knowledge) (news : News) :
    (known.count news).clock = known.clock := by
  cases news <;> rfl

@[simp] theorem count_log (known : Knowledge) (news : News) :
    (known.count news).log = known.log := by
  cases news <;> rfl

@[simp] theorem count_ownId (known : Knowledge) (news : News) :
    (known.count news).ownId = known.ownId := by
  cases news <;> rfl

/-- Nobody's identity changes with what it learns. -/
@[simp] theorem learn_ownId (known : Knowledge) (news : News) :
    (known.learn news).ownId = known.ownId := by
  unfold learn
  cases known.adopted news with
  | none => simp
  | some msg => simp [adopt]

/-- The clock after a piece of news. -/
theorem learn_clock (known : Knowledge) (news : News) :
    (known.learn news).clock =
      match known.adopted news with
      | some msg =>
        vectorClockSetById known.clock msg.dataVersion.memberId msg.dataVersion.sequenceNumber
      | none => known.clock := by
  unfold learn
  cases known.adopted news with
  | none => simp
  | some msg => simp [adopt]

/-- The log after a piece of news. -/
theorem learn_log (known : Knowledge) (news : News) :
    (known.learn news).log =
      match known.adopted news with
      | some msg => gossipDataLog known.log msg
      | none => known.log := by
  unfold learn
  cases known.adopted news with
  | none => simp
  | some msg => simp [adopt]

/-- Only the node's own payloads are counted. -/
theorem learn_counter (known : Knowledge) (news : News) :
    (known.learn news).counter =
      match news with
      | .sent _ => known.counter + 1
      | _ => known.counter := by
  unfold learn
  cases known.adopted news with
  | none => cases news <;> rfl
  | some msg => cases news <;> rfl

/-! ### Consistency of clock and log -/

/-- Clock and log are in order, and agree on every originator both of them hold. -/
structure Ok (known : Knowledge) : Prop where
  clock : known.clock.Ok
  log : known.log.Ok
  agree : ∀ originator held record, known.clock.latest originator = some held →
    known.log.latest originator = some record → record.version.sequenceNumber = held

/-- Whatever a node learns leaves its clock and log consistent. -/
theorem Ok.learn {known : Knowledge} (ok : known.Ok) (news : News) : (known.learn news).Ok := by
  cases taken : known.adopted news with
  | none =>
    refine ⟨?_, ?_, ?_⟩ <;> simp only [learn_clock, learn_log, taken]
    · exact ok.clock
    · exact ok.log
    · exact ok.agree
  | some msg =>
    refine ⟨?_, ?_, ?_⟩ <;> simp only [learn_clock, learn_log, taken]
    · exact ok.clock.set _ _
    · exact ok.log.log msg
    · -- Both now hold the version of the message, and neither gained another originator.
      intro originator held record inClock inLog
      obtain ⟨old, logged⟩ := ok.log.latest_log msg
      rw [ok.clock.latest_set] at inClock
      rw [logged] at inLog
      by_cases same : originator = msg.dataVersion.memberId
      · simp only [if_pos same, Option.some.injEq] at inClock inLog
        rw [← inClock, ← inLog]
        rfl
      · simp only [if_neg same] at inClock inLog
        split at inClock
        · cases inClock
        · split at inLog
          · cases inLog
          · exact ok.agree originator held record inClock inLog

/-! ### Bounded sets of originators -/

/-- Every originator held belongs to a set. -/
structure Among (known : Knowledge) (originators : Finset UInt64) : Prop where
  clock : ∀ originator held, known.clock.latest originator = some held → originator ∈ originators
  log : ∀ originator record, known.log.latest originator = some record → originator ∈ originators

/-- The message a piece of news makes a node take over comes from a set of originators. -/
def Admits (known : Knowledge) (originators : Finset UInt64) (news : News) : Prop :=
  ∀ msg ∈ known.adopted news, msg.dataVersion.memberId ∈ originators

/-- A message that arrives is admitted to a set its originator belongs to. -/
theorem admits_arrived {known : Knowledge} {originators : Finset UInt64} {msg : MessageData}
    (inside : msg.dataVersion.memberId ∈ originators) :
    known.Admits originators (.arrived msg) := by
  intro taken found
  -- Whether it is new or not, no other message is taken over.
  simp only [adopted, received] at found
  split at found
  · cases found
    exact inside
  · cases found

/-- No originator is held that does not belong to the set after news from within it. -/
theorem Among.learn {known : Knowledge} {originators : Finset UInt64} {news : News}
    (among : known.Among originators) (ok : known.Ok) (admitted : known.Admits originators news) :
    (known.learn news).Among originators := by
  -- News that is not taken changes nothing; what is taken comes from within the set.
  cases taken : known.adopted news with
  | none =>
    refine ⟨?_, ?_⟩ <;> simp only [learn_clock, learn_log, taken]
    · exact among.clock
    · exact among.log
  | some msg =>
    have inside := admitted msg taken
    refine ⟨?_, ?_⟩ <;> simp only [learn_clock, learn_log, taken]
    · intro originator held found
      rw [ok.clock.latest_set] at found
      by_cases same : originator = msg.dataVersion.memberId
      · exact same ▸ inside
      · rw [if_neg same] at found
        split at found
        · cases found
        · exact among.clock originator held found
    · intro originator record found
      obtain ⟨old, logged⟩ := ok.log.latest_log msg
      rw [logged] at found
      by_cases same : originator = msg.dataVersion.memberId
      · exact same ▸ inside
      · rw [if_neg same] at found
        split at found
        · cases found
        · exact among.log originator record found

/-- A clock with room for all originators forgets none of them. -/
theorem Among.clock_forgets {known : Knowledge} {originators : Finset UInt64}
    (among : known.Among originators) (ok : known.Ok) (few : originators.card ≤ maxVectorSize)
    {originator : UInt64} (member : originator ∈ originators) :
    known.clock.forgets originator = none := by
  apply SlotRing.evicted_eq_none
  intro absent
  refine SlotRing.Ok.room ok.clock few (fun record used => ?_) member absent
  exact among.clock _ _ (ok.clock.latest_of_mem used)

/-- A log with room for all originators forgets none of them. -/
theorem Among.log_forgets {known : Knowledge} {originators : Finset UInt64}
    (among : known.Among originators) (ok : known.Ok) (few : originators.card ≤ dataLogSize)
    {originator : UInt64} (member : originator ∈ originators) :
    known.log.forgets originator = none := by
  apply SlotRing.evicted_eq_none
  intro absent
  refine SlotRing.Ok.room ok.log few (fun record used => ?_) member absent
  exact among.log _ _ (ok.log.latest_of_mem used)

/-- With room for all originators, taking over a message changes the clock at its originator only. -/
theorem Among.latest_learn {known : Knowledge} {originators : Finset UInt64} {news : News}
    (among : known.Among originators) (ok : known.Ok) (few : originators.card ≤ maxVectorSize)
    (admitted : known.Admits originators news) {msg : MessageData}
    (taken : known.adopted news = some msg) (other : UInt64) :
    (known.learn news).clock.latest other =
      if other = msg.dataVersion.memberId then some msg.dataVersion.sequenceNumber
      else known.clock.latest other := by
  -- The originators fit into the clock, so nobody is pushed out.
  have kept := among.clock_forgets ok few (admitted msg taken)
  rw [learn_clock, taken, ok.clock.latest_set, kept]
  simp

end Knowledge

end Pittacus
