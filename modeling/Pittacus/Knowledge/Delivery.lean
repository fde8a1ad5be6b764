import Pittacus.Knowledge.Refinement

/-! Data is delivered at most once, and in the order it was sent. -/

namespace Pittacus

/-! ### Assumptions on runs -/

/-- The originator a piece of news is about. -/
def News.originator (ownId : UInt64) : News → Option UInt64
  | .nothing => none
  | .sent _ => some ownId
  | .arrived msg => some msg.dataVersion.memberId

/-- The data message a piece of news is about, if it was received. -/
def News.arrival : News → Option MessageData
  | .arrived msg => some msg
  | _ => none

/-- The payload a piece of news is about, if it is to be sent. -/
def News.payload : News → Option (List UInt8)
  | .sent data => some data
  | _ => none

/-- The data sent or received in a step comes from one of the given originators. -/
def OccursAmong (originators : Finset UInt64) (self : PittacusGossip) (input : Input) : Prop :=
  ∀ originator ∈ (self.news input).originator self.knowledge.ownId, originator ∈ originators

instance (originators : Finset UInt64) (self : PittacusGossip) (input : Input) :
    Decidable (OccursAmong originators self input) :=
  show Decidable (∀ originator ∈ (self.news input).originator _, _) from
    Option.decidableForallMem _

/-- A received message that bears the node's own id was numbered by the node itself. -/
def OwnSequenced (self : PittacusGossip) (input : Input) : Prop :=
  ∀ msg ∈ (self.news input).arrival, msg.dataVersion.memberId = self.knowledge.ownId →
    1 ≤ msg.dataVersion.sequenceNumber ∧ msg.dataVersion.sequenceNumber ≤ self.dataCounter

instance (self : PittacusGossip) (input : Input) : Decidable (OwnSequenced self input) :=
  inferInstanceAs (Decidable (∀ msg ∈ (self.news input).arrival, _ → _ ∧ _))

/-- A payload sent in a step does not exhaust the counter. -/
def CounterRoom (self : PittacusGossip) (input : Input) : Prop :=
  ∀ data ∈ (self.news input).payload, self.dataCounter.toNat + 1 < 2 ^ 32

instance (self : PittacusGossip) (input : Input) : Decidable (CounterRoom self input) :=
  inferInstanceAs (Decidable (∀ data ∈ (self.news input).payload, _))

/-- Whether a call sends data. -/
def Input.sendsData : Input → Bool
  | .sendData _ _ => true
  | _ => false

/-- What a step takes over belongs to the originators it is about. -/
theorem OccursAmong.admits {originators : Finset UInt64} {self : PittacusGossip} {input : Input}
    (occurs : OccursAmong originators self input) :
    self.knowledge.Admits originators (self.news input) := by
  intro msg taken
  unfold OccursAmong at occurs
  -- News is taken from the call that brings it, and names the same originator.
  cases brought : self.news input with
  | nothing =>
    rw [brought] at taken
    cases taken
  | sent data =>
    rw [brought] at taken occurs
    cases taken
    exact occurs _ rfl
  | arrived arrival =>
    rw [brought] at taken occurs
    simp only [Knowledge.adopted, Knowledge.received] at taken
    split at taken
    · cases taken
      exact occurs _ rfl
    · cases taken

/-- The counter after a step. -/
theorem dataCounter_step (self : PittacusGossip) (input : Input) :
    (gossipStep input self).state.dataCounter =
      match self.news input with
      | .sent _ => self.dataCounter + 1
      | _ => self.dataCounter := by
  have learned := (gossipStep_learns input self).knowledge
  have counted := Knowledge.learn_counter self.knowledge (self.news input)
  rw [← learned] at counted
  exact counted

/-- Only a call that sends data brings news of a payload. -/
theorem sendsData_of_sent {self : PittacusGossip} {input : Input} {data : List UInt8}
    (sent : self.news input = .sent data) : input.sendsData = true := by
  cases input with
  | sendData payload random => rfl
  | join seedNodes => cases sent
  | tick now random => cases sent
  | processSend times results => cases sent
  | processReceive datagram sender beyond random =>
    simp only [PittacusGossip.news] at sent
    split at sent
    · split at sent <;> cases sent
    · cases sent

/-- As long as fewer payloads are sent than can be counted, the counter has room. -/
theorem counterRoom_along (inputs : List Input) (self : PittacusGossip)
    (calls : self.dataCounter.toNat + inputs.countP Input.sendsData < 2 ^ 32) :
    Machine.Along gossipStep CounterRoom inputs self := by
  -- The counter never runs ahead of the calls made so far.
  induction inputs generalizing self with
  | nil => trivial
  | cons input rest ih =>
    rw [List.countP_cons] at calls
    constructor
    · intro data sent
      cases brought : self.news input with
      | nothing => rw [brought] at sent; cases sent
      | arrived msg => rw [brought] at sent; cases sent
      | sent payload =>
        rw [if_pos (sendsData_of_sent brought)] at calls
        omega
    · apply ih
      rw [dataCounter_step]
      cases brought : self.news input with
      | nothing => simp only; omega
      | arrived msg => simp only; omega
      | sent data =>
        rw [if_pos (sendsData_of_sent brought)] at calls
        simp only [UInt32.toNat_add, UInt32.toNat_one]
        omega

/-! ### The clock keeps track of what was delivered -/

/-- The clock is in order, knows the originators, and follows the node's own counter. -/
structure Tracks (originators : Finset UInt64) (known : Knowledge) : Prop where
  ok : known.Ok
  among : known.Among originators
  own : known.clock.latest known.ownId =
    if known.counter = 0 then none else some known.counter

/-- A sequence number is above everything seen from an originator. -/
def Knowledge.Below (known : Knowledge) (originator : UInt64) (seqNum : UInt32) : Prop :=
  ∀ held ∈ known.clock.latest originator, held < seqNum

/-- The node's own next number is above everything it sent. -/
theorem Tracks.own_below {originators : Finset UInt64} {known : Knowledge}
    (tracks : Tracks originators known) (room : known.counter.toNat + 1 < 2 ^ 32) :
    known.Below known.ownId (known.counter + 1) := by
  intro held found
  rw [Option.mem_def, tracks.own] at found
  split at found
  · cases found
  · cases found
    -- There is room to count, so the next number is the larger one.
    rw [UInt32.lt_iff_toNat_lt, UInt32.toNat_add, UInt32.toNat_one]
    omega

/-- What is taken over is above everything seen from its originator. -/
theorem Tracks.adopted_below {originators : Finset UInt64} {known : Knowledge} {news : News}
    (tracks : Tracks originators known)
    (room : ∀ data ∈ news.payload, known.counter.toNat + 1 < 2 ^ 32) {msg : MessageData}
    (taken : known.adopted news = some msg) :
    known.Below msg.dataVersion.memberId msg.dataVersion.sequenceNumber := by
  -- Own data is numbered above all before; other data is taken only if it is novel.
  cases news with
  | nothing => cases taken
  | sent data =>
    cases taken
    exact tracks.own_below (room data rfl)
  | arrived arrival =>
    simp only [Knowledge.adopted, Knowledge.received] at taken
    split at taken
    · rename_i novel
      cases taken
      exact novel
    · cases taken

/-- A message of the node's own that it numbered itself is never novel. -/
theorem Tracks.own_not_novel {originators : Finset UInt64} {known : Knowledge} {msg : MessageData}
    (tracks : Tracks originators known) (mine : msg.dataVersion.memberId = known.ownId)
    (low : 1 ≤ msg.dataVersion.sequenceNumber)
    (high : msg.dataVersion.sequenceNumber ≤ known.counter) : ¬known.Novel msg := by
  intro novel
  have positive : known.counter ≠ 0 := by
    intro zero
    rw [zero] at high
    exact absurd (UInt32.le_trans low high) (by decide)
  -- The clock holds the counter for the node itself, and the message is not above it.
  have seen : known.counter ∈ known.clock.latest msg.dataVersion.memberId := by
    rw [mine, Option.mem_def, tracks.own, if_neg positive]
  exact absurd (novel _ seen) (UInt32.not_lt.mpr high)

/-- Tracking goes on, whatever news arrives. -/
theorem Tracks.learn {originators : Finset UInt64} {known : Knowledge} {news : News}
    (tracks : Tracks originators known) (few : originators.card ≤ maxVectorSize)
    (admitted : known.Admits originators news)
    (room : ∀ data ∈ news.payload, known.counter.toNat + 1 < 2 ^ 32)
    (sequenced : ∀ msg ∈ news.arrival, msg.dataVersion.memberId = known.ownId →
      1 ≤ msg.dataVersion.sequenceNumber ∧ msg.dataVersion.sequenceNumber ≤ known.counter) :
    Tracks originators (known.learn news) := by
  refine ⟨tracks.ok.learn news, tracks.among.learn tracks.ok admitted, ?_⟩
  rw [Knowledge.learn_ownId, Knowledge.learn_counter]
  cases taken : known.adopted news with
  | none =>
    rw [Knowledge.learn_clock, taken]
    cases news with
    | nothing => exact tracks.own
    | arrived msg => exact tracks.own
    | sent data => cases taken
  | some msg =>
    rw [tracks.among.latest_learn tracks.ok few admitted taken]
    cases news with
    | nothing => cases taken
    | sent data =>
      -- The new number is set for the node itself, and it is not zero.
      cases taken
      have positive : known.counter + 1 ≠ 0 := by
        intro zero
        have wrapped := congrArg UInt32.toNat zero
        have below := room data rfl
        rw [UInt32.toNat_add, UInt32.toNat_one, Nat.mod_eq_of_lt below] at wrapped
        exact absurd wrapped (Nat.succ_ne_zero _)
      simp [Knowledge.own, enqueuedData, positive]
    | arrived arrival =>
      -- Nothing the node numbered itself is taken over.
      simp only [Knowledge.adopted, Knowledge.received] at taken
      split at taken
      · rename_i novel
        cases taken
        have other : known.ownId ≠ msg.dataVersion.memberId := by
          intro mine
          obtain ⟨low, high⟩ := sequenced msg rfl mine.symm
          exact tracks.own_not_novel mine.symm low high novel
        rw [if_neg other]
        exact tracks.own
      · cases taken

/-- What is above everything seen later is above everything seen before. -/
theorem Tracks.below_of_learn {originators : Finset UInt64} {known : Knowledge} {news : News}
    (tracks : Tracks originators known) (few : originators.card ≤ maxVectorSize)
    (admitted : known.Admits originators news)
    (room : ∀ data ∈ news.payload, known.counter.toNat + 1 < 2 ^ 32)
    {originator : UInt64} {seqNum : UInt32}
    (below : (known.learn news).Below originator seqNum) : known.Below originator seqNum := by
  cases taken : known.adopted news with
  | none =>
    unfold Knowledge.Below at below
    rw [Knowledge.learn_clock, taken] at below
    exact below
  | some msg =>
    have latest := tracks.among.latest_learn tracks.ok few admitted taken originator
    unfold Knowledge.Below at below
    rw [latest] at below
    -- Only the originator of the message that was taken has something later held for it.
    by_cases same : originator = msg.dataVersion.memberId
    · rw [if_pos same] at below
      intro held found
      rw [same] at found
      exact UInt32.lt_trans (tracks.adopted_below room taken held found) (below _ rfl)
    · rw [if_neg same] at below
      exact below

/-! ### Runs -/

/-- The sequence number a message shows to whoever watches an originator. -/
def MessageData.numberFrom (originator : UInt64) (msg : MessageData) : Option UInt32 :=
  if msg.dataVersion.memberId = originator then some msg.dataVersion.sequenceNumber else none

/-- The assumptions under which a node tracks everything it delivers. -/
structure Orderly (originators : Finset UInt64) (node : PittacusGossip) (input : Input) :
    Prop where
  occurs : OccursAmong originators node input
  sequenced : OwnSequenced node input
  room : CounterRoom node input

theorem Tracks.step {originators : Finset UInt64} {self : PittacusGossip} {input : Input}
    (tracks : Tracks originators self.knowledge) (few : originators.card ≤ maxVectorSize)
    (orderly : Orderly originators self input) :
    Tracks originators (gossipStep input self).state.knowledge := by
  rw [(gossipStep_learns input self).knowledge]
  exact tracks.learn few orderly.occurs.admits orderly.room orderly.sequenced

/-- A view that shows some of what is taken over shows increasing numbers of each originator. -/
theorem increasing_of_adopted {originators : Finset UInt64} (few : originators.card ≤ maxVectorSize)
    (originator : UInt64) (view : Event → Option UInt32)
    (shows_ : ∀ self input, ((gossipStep input self).events.filterMap view).Sublist
      ((self.knowledge.adopted (self.news input)).toList.filterMap
        (MessageData.numberFrom originator)))
    (inputs : List Input) (self : PittacusGossip) (tracks : Tracks originators self.knowledge)
    (orderly : Machine.Along gossipStep (Orderly originators) inputs self) :
    ((Machine.trace gossipStep inputs self).filterMap view).Pairwise (· < ·) ∧
      ∀ seqNum ∈ (Machine.trace gossipStep inputs self).filterMap view,
        self.knowledge.Below originator seqNum := by
  -- A number shown now is what the clock holds next, and every later one is above that.
  induction inputs generalizing self with
  | nil => exact ⟨List.Pairwise.nil, List.forall_mem_nil _⟩
  | cons input rest ih =>
    obtain ⟨now, later⟩ := orderly
    have next := tracks.step few now
    have learned := (gossipStep_learns input self).knowledge
    obtain ⟨ordered, above⟩ := ih _ next later
    rw [learned] at above
    have kept : ∀ seqNum ∈
        (Machine.trace gossipStep rest (gossipStep input self).state).filterMap view,
        self.knowledge.Below originator seqNum :=
      fun seqNum member =>
        tracks.below_of_learn few now.occurs.admits now.room (above seqNum member)
    simp only [Machine.trace, List.filterMap_append]
    have shown := shows_ self input
    cases taken : self.knowledge.adopted (self.news input) with
    | none =>
      rw [taken] at shown
      rw [List.sublist_nil.mp shown, List.nil_append]
      exact ⟨ordered, kept⟩
    | some msg =>
      by_cases from_ : msg.dataVersion.memberId = originator
      · -- At most this one number is shown, and the clock holds it from here on.
        have numbers : (some msg).toList.filterMap (MessageData.numberFrom originator)
            = [msg.dataVersion.sequenceNumber] := by
          simp [MessageData.numberFrom, from_]
        rw [taken, numbers] at shown
        have only : ∀ seqNum ∈ (gossipStep input self).events.filterMap view,
            seqNum = msg.dataVersion.sequenceNumber :=
          fun seqNum member => List.mem_singleton.mp (shown.subset member)
        have latest := tracks.among.latest_learn tracks.ok few now.occurs.admits taken originator
        rw [if_pos from_.symm] at latest
        refine ⟨List.pairwise_append.mpr ⟨?_, ordered, ?_⟩, ?_⟩
        · exact (List.pairwise_singleton _ _).sublist shown
        · intro early member seqNum further
          rw [only early member]
          exact above seqNum further _ latest
        · intro seqNum member
          rcases List.mem_append.mp member with early | further
          · rw [only seqNum early, ← from_]
            exact tracks.adopted_below now.room taken
          · exact kept seqNum further
      · have numbers : (some msg).toList.filterMap (MessageData.numberFrom originator) = [] := by
          simp [MessageData.numberFrom, from_]
        rw [taken, numbers] at shown
        rw [List.sublist_nil.mp shown, List.nil_append]
        exact ⟨ordered, kept⟩

/-- The sequence number of an originator the data receiver was invoked with. -/
def Event.deliveredFrom (originator : UInt64) (event : Event) : Option UInt32 :=
  event.asDelivery.bind fun delivery =>
    if delivery.1.memberId = originator then some delivery.1.sequenceNumber else none

/-- The sequence number of an originator that was spread to random members. -/
def Event.spreadFrom (originator : UInt64) (event : Event) : Option UInt32 :=
  event.asRumor.bind (MessageData.numberFrom originator)

/-- The data receiver is shown at most the message that is taken over. -/
theorem deliveredFrom_step (originator : UInt64) (self : PittacusGossip) (input : Input) :
    ((gossipStep input self).events.filterMap (Event.deliveredFrom originator)).Sublist
      ((self.knowledge.received (self.news input)).toList.filterMap
        (MessageData.numberFrom originator)) := by
  -- Deliveries of one originator are picked out of all deliveries.
  have split_ : (gossipStep input self).events.filterMap (Event.deliveredFrom originator) =
      ((gossipStep input self).events.filterMap Event.asDelivery).filterMap
        fun delivery =>
          if delivery.1.memberId = originator then some delivery.1.sequenceNumber else none := by
    rw [List.filterMap_filterMap]
    rfl
  rw [split_, (gossipStep_learns input self).deliveries]
  split
  · rw [List.filterMap_map]
    exact List.Sublist.refl _
  · exact List.nil_sublist _

/-- What is received is taken over. -/
theorem received_sublist (known : Knowledge) (news : News) :
    (known.received news).toList.Sublist (known.adopted news).toList := by
  cases news with
  | nothing => exact List.Sublist.refl _
  | sent data => exact List.nil_sublist _
  | arrived msg => exact List.Sublist.refl _

/-- A rumor is started for exactly the message that is taken over. -/
theorem spreadFrom_step (originator : UInt64) (self : PittacusGossip) (input : Input) :
    (gossipStep input self).events.filterMap (Event.spreadFrom originator) =
      (self.knowledge.adopted (self.news input)).toList.filterMap
        (MessageData.numberFrom originator) := by
  rw [← (gossipStep_learns input self).rumors, List.filterMap_filterMap]
  rfl

/-- Nothing of the node's own is handed to its data receiver. -/
theorem no_own_delivery {originators : Finset UInt64} (few : originators.card ≤ maxVectorSize)
    (inputs : List Input) (self : PittacusGossip) (tracks : Tracks originators self.knowledge)
    (orderly : Machine.Along gossipStep (Orderly originators) inputs self) :
    (Machine.trace gossipStep inputs self).filterMap
      (Event.deliveredFrom self.knowledge.ownId) = [] := by
  induction inputs generalizing self with
  | nil => rfl
  | cons input rest ih =>
    obtain ⟨now, later⟩ := orderly
    have learned := (gossipStep_learns input self).knowledge
    have further := ih _ (tracks.step few now) later
    rw [learned, Knowledge.learn_ownId] at further
    simp only [Machine.trace, List.filterMap_append, further, List.append_nil]
    have shown := deliveredFrom_step self.knowledge.ownId self input
    have none : (self.knowledge.received (self.news input)).toList.filterMap
        (MessageData.numberFrom self.knowledge.ownId) = [] := by
      cases brought : self.news input with
      | nothing => rfl
      | sent data => rfl
      | arrived msg =>
        simp only [Knowledge.received]
        split
        · rename_i novel
          -- A novel message has another originator.
          have other : ¬msg.dataVersion.memberId = self.knowledge.ownId := by
            intro mine
            obtain ⟨low, high⟩ := now.sequenced msg (by rw [brought]; rfl) mine
            exact tracks.own_not_novel mine low high novel
          simp [MessageData.numberFrom, other]
        · rfl
    rw [none] at shown
    exact List.sublist_nil.mp shown

/-- A new node tracks what it delivers. -/
theorem create_tracks (originators : Finset UInt64) (selfAddress : List UInt8)
    (bounded : selfAddress.length ≤ sockaddrStorageSize) (now : Nat) (dataReceiver : Bool)
    (fresh : FreshMemory) :
    Tracks originators (pittacusGossipCreate selfAddress bounded now dataReceiver fresh).knowledge
      where
  ok := by
    refine ⟨vectorClockInit_ok, ?_, ?_⟩
    · exact SlotRing.ok_empty fresh.messages.size_toArray (by decide)
    · intro originator held record found
      cases found
  among := by
    refine ⟨?_, ?_⟩
    · intro originator held found
      cases found
    · intro originator record found
      obtain ⟨member, _⟩ := mem_of_logged found
      cases member
  own := rfl

/-- Whatever happens to a node, its clock and its log stay consistent. -/
theorem run_ok (setup : NodeSetup) (inputs : List Input) :
    (Machine.run gossipStep inputs setup.node).knowledge.Ok := by
  -- No set of originators is needed for consistency alone, so the empty one will do.
  have start : setup.node.knowledge.Ok :=
    (create_tracks ∅ setup.selfAddress setup.bounded setup.now setup.dataReceiver setup.fresh).ok
  generalize setup.node = self at start
  induction inputs generalizing self with
  | nil => exact start
  | cons input rest ih =>
    refine ih _ ?_
    rw [(gossipStep_learns input self).knowledge]
    exact start.learn _

/--
Each originator's data is delivered and spread with strictly increasing sequence numbers.

This holds for every run of a new node with at most as many originators as the clock has room for.
Messages that bear the node's own id must have been numbered by it, and are never delivered to it.
-/
theorem delivery_increasing (originators : Finset UInt64)
    (few : originators.card ≤ maxVectorSize) (selfAddress : List UInt8)
    (bounded : selfAddress.length ≤ sockaddrStorageSize) (now : Nat) (dataReceiver : Bool)
    (fresh : FreshMemory) (inputs : List Input)
    (occurs : Machine.Along gossipStep (OccursAmong originators) inputs
      (pittacusGossipCreate selfAddress bounded now dataReceiver fresh))
    (sequenced : Machine.Along gossipStep OwnSequenced inputs
      (pittacusGossipCreate selfAddress bounded now dataReceiver fresh))
    (calls : inputs.countP Input.sendsData < 2 ^ 32) :
    let node := pittacusGossipCreate selfAddress bounded now dataReceiver fresh
    let events := Machine.trace gossipStep inputs node
    (∀ originator, (events.filterMap (Event.deliveredFrom originator)).Pairwise (· < ·)) ∧
      (∀ originator, (events.filterMap (Event.spreadFrom originator)).Pairwise (· < ·)) ∧
      events.filterMap (Event.deliveredFrom (vectorClockCreateMemberId node.selfAddress)) = [] := by
  intro node events
  have tracks := create_tracks originators selfAddress bounded now dataReceiver fresh
  -- Each call that sends data numbers one message, so the counter does not wrap around.
  have room : Machine.Along gossipStep CounterRoom inputs node :=
    counterRoom_along inputs node (by simpa [node, pittacusGossipCreate] using calls)
  have orderly : Machine.Along gossipStep (Orderly originators) inputs node :=
    ((occurs.and sequenced).and room).imp fun state input holds =>
      ⟨holds.1.1, holds.1.2, holds.2⟩
  refine ⟨fun originator => ?_, fun originator => ?_, ?_⟩
  · exact (increasing_of_adopted few originator _
      (fun self input => (deliveredFrom_step originator self input).trans
        ((received_sublist _ _).filterMap _)) inputs node tracks orderly).1
  · exact (increasing_of_adopted few originator _
      (fun self input => by rw [spreadFrom_step]) inputs node tracks orderly).1
  · exact no_own_delivery few inputs node tracks orderly

/-- Two originators, a duplicate and an own payload are among the runs this speaks about. -/
theorem delivery_increasing_two :
    let inputs := [.join [], (rumor 7 1 10).arrivesFrom 2, .sendData [11] noRandom,
      (rumor 7 1 10).arrivesFrom 3, (rumor 7 2 12).arrivesFrom 3]
    let events := Machine.trace gossipStep inputs (localNode 1)
    events.filterMap (Event.deliveredFrom 7) = [1, 2] ∧
      ∀ originator, (events.filterMap (Event.deliveredFrom originator)).Pairwise (· < ·) :=
  ⟨by decide +kernel,
    (delivery_increasing {7, vectorClockCreateMemberId (localNode 1).selfAddress} (by decide +kernel)
      (loopback 1) (by decide) 5000 true .zero _ (by decide +kernel) (by decide +kernel)
      (by decide)).1⟩

end Pittacus
