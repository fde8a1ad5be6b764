import Mathlib.Data.List.TakeWhile
import Pittacus.Outbound.Passage
import Pittacus.Proofs.Calls

/-! Why an envelope leaves the outbound queue of a node. -/

namespace Pittacus

open Routine

/-! ### Reasons -/

/-- An envelope that is to be sent only once was sent. -/
def SentOnce (events : List Event) (envelope : MessageEnvelopeOut) : Prop :=
  envelope.maxAttempts = 1 ∧
    ∃ datagram now result, 0 ≤ result ∧ .sendTo envelope datagram now result ∈ events

/-- No attempt is left for an envelope. -/
def MessageEnvelopeOut.Exhausted (envelope : MessageEnvelopeOut) : Prop :=
  envelope.maxAttempts ≤ envelope.attemptNum

/--
An exhausted envelope stands somewhere in front, and all behind it up to this one share its recipient.

The exhausted one is of those that have to be acknowledged.
-/
def BehindExhausted (unset : Nat → UInt8) (queue : List MessageEnvelopeOut)
    (envelope : MessageEnvelopeOut) : Prop :=
  ∃ front exhausted run back, queue = front ++ exhausted :: (run ++ envelope :: back) ∧
    exhausted.Exhausted ∧ 1 < exhausted.maxAttempts ∧
      ∀ behind ∈ run ++ [envelope], sharesRecipient unset behind exhausted = true

/-- All slots were occupied when a message was placed, and it was placed into that of an envelope. -/
def Reclaimed (events : List Event) (envelope : MessageEnvelopeOut) : Prop :=
  ∃ found left message spreading, .enqueue found envelope.buffer left message spreading ∈ events ∧
    envelope ∈ found ∧ ∀ i < maxOutputMessages, bufferIsOccupied found i = true

theorem SentOnce.mono {events more : List Event} {envelope : MessageEnvelopeOut}
    (sent : SentOnce events envelope) (within : events ⊆ more) : SentOnce more envelope := by
  obtain ⟨once, datagram, now, result, succeeded, caused⟩ := sent
  exact ⟨once, datagram, now, result, succeeded, within caused⟩

theorem Reclaimed.mono {events more : List Event} {envelope : MessageEnvelopeOut}
    (reclaimed : Reclaimed events envelope) (within : events ⊆ more) : Reclaimed more envelope := by
  obtain ⟨found, left, message, spreading, caused, full⟩ := reclaimed
  exact ⟨found, left, message, spreading, within caused, full⟩

/-- What stands behind an exhausted envelope does so in a longer queue. -/
theorem BehindExhausted.cons {unset : Nat → UInt8} {queue : List MessageEnvelopeOut}
    {envelope : MessageEnvelopeOut} (behind : BehindExhausted unset queue envelope)
    (head : MessageEnvelopeOut) : BehindExhausted unset (head :: queue) envelope := by
  obtain ⟨front, exhausted, run, back, rfl, rest⟩ := behind
  exact ⟨head :: front, exhausted, run, back, rfl, rest⟩

/-! ### Sending -/

/-- Why an envelope of the rest of a queue is dropped, the last exhausted one being known. -/
inductive Dropped (unset : Nat → UInt8) (exhausted : Option MessageEnvelopeOut)
    (queue : List MessageEnvelopeOut) (events : List Event) (envelope : MessageEnvelopeOut) : Prop
  | sentOnce : SentOnce events envelope → Dropped unset exhausted queue events envelope
  | exhausted : envelope.Exhausted → Dropped unset exhausted queue events envelope
  | behind : BehindExhausted unset queue envelope → Dropped unset exhausted queue events envelope
  /-- The run behind the last exhausted envelope reaches into the rest of the queue. -/
  | continued (last : MessageEnvelopeOut) (run back : List MessageEnvelopeOut) :
    exhausted = some last → queue = run ++ envelope :: back →
    (∀ behind ∈ run ++ [envelope], sharesRecipient unset behind last = true) →
    Dropped unset exhausted queue events envelope

/-- What is dropped later on is dropped for a reason seen from here, past an envelope that stays. -/
theorem Dropped.past {unset : Nat → UInt8} {exhausted : Option MessageEnvelopeOut}
    {queue : List MessageEnvelopeOut} {events more : List Event} {envelope : MessageEnvelopeOut}
    (dropped : Dropped unset none queue events envelope) (head : MessageEnvelopeOut)
    (within : events ⊆ more) : Dropped unset exhausted (head :: queue) more envelope := by
  cases dropped with
  | sentOnce sent => exact .sentOnce (sent.mono within)
  | exhausted tried => exact .exhausted tried
  | behind stands => exact .behind (stands.cons head)
  | continued last run back none_ => cases none_

/-- The same, past one dropped with the last exhausted envelope. -/
theorem Dropped.pastShared {unset : Nat → UInt8} {last : MessageEnvelopeOut}
    {queue : List MessageEnvelopeOut} {events more : List Event} {envelope : MessageEnvelopeOut}
    (dropped : Dropped unset (some last) queue events envelope) {head : MessageEnvelopeOut}
    (shares : sharesRecipient unset head last = true) (within : events ⊆ more) :
    Dropped unset (some last) (head :: queue) more envelope := by
  cases dropped with
  | sentOnce sent => exact .sentOnce (sent.mono within)
  | exhausted tried => exact .exhausted tried
  | behind stands => exact .behind (stands.cons head)
  | continued last_ run back same split alike =>
    cases same
    -- The envelope at hand joins the run behind the exhausted one.
    subst split
    exact .continued last (head :: run) back rfl rfl (List.forall_mem_cons.mpr ⟨shares, alike⟩)

/-- The same, past one that is exhausted itself. -/
theorem Dropped.pastExhausted {unset : Nat → UInt8} {exhausted : Option MessageEnvelopeOut}
    {queue : List MessageEnvelopeOut} {events more : List Event} {envelope head : MessageEnvelopeOut}
    (dropped : Dropped unset (some head) queue events envelope) (tried : head.Exhausted)
    (repeated : 1 < head.maxAttempts) (within : events ⊆ more) :
    Dropped unset exhausted (head :: queue) more envelope := by
  cases dropped with
  | sentOnce sent => exact .sentOnce (sent.mono within)
  | exhausted tried => exact .exhausted tried
  | behind stands => exact .behind (stands.cons head)
  | continued last run back same split alike =>
    cases same
    -- The run starts right behind the envelope at hand, which is the exhausted one.
    subst split
    exact .behind ⟨[], head, run, back, rfl, tried, repeated, alike⟩

/-- What a walk along the rest of a queue leaves of it. -/
structure Walked (unset : Nat → UInt8) (exhausted : Option MessageEnvelopeOut)
    (passed queue left : List MessageEnvelopeOut) (counter : UInt32)
    (ran : Outcome PittacusGossip Event Int) : Prop where
  waiting : ran.state.outboundMessages = passed ++ left
  kept : (left.map MessageEnvelopeOut.untried).Sublist (queue.map MessageEnvelopeOut.untried)
  numbered : ran.state.sequenceNum = counter
  balance : queue.length = left.length + (ran.events.filterMap Event.removed).length
  departs : ∀ envelope ∈ queue, envelope.untried ∈ left.map MessageEnvelopeOut.untried ∨
    Dropped unset exhausted queue ran.events envelope

section Walk

variable {unset : Nat → UInt8} {exhausted last : Option MessageEnvelopeOut}
  {passed rest left : List MessageEnvelopeOut} {current kept : MessageEnvelopeOut}
  {counter : UInt32} {ran : Outcome PittacusGossip Event Int}

/-- An envelope was dropped, and the walk went on behind it. -/
theorem Walked.dropping (walked : Walked unset last passed rest left counter ran)
    (front : List Event)
    (one : (front.filterMap Event.removed).length = 1)
    (reason : Dropped unset exhausted (current :: rest) (front ++ ran.events) current)
    (later : ∀ envelope, Dropped unset last rest ran.events envelope →
      Dropped unset exhausted (current :: rest) (front ++ ran.events) envelope) :
    Walked unset exhausted passed (current :: rest) left counter
      ⟨ran.value, ran.state, front ++ ran.events⟩ where
  waiting := walked.waiting
  kept := walked.kept.trans (List.sublist_cons_self _ _)
  numbered := walked.numbered
  balance := by
    have balance := walked.balance
    rw [List.filterMap_append, List.length_append, one, List.length_cons]
    omega
  departs := List.forall_mem_cons.mpr
    ⟨.inr reason, fun envelope member => (walked.departs envelope member).imp id (later envelope)⟩

/-- An envelope was left in the queue, and the walk went on behind it. -/
theorem Walked.passing (walked : Walked unset none (passed ++ [kept]) rest left counter ran)
    (same : kept.untried = current.untried)
    (front : List Event) (silent : front.filterMap Event.removed = []) :
    Walked unset exhausted passed (current :: rest) (kept :: left) counter
      ⟨ran.value, ran.state, front ++ ran.events⟩ where
  waiting := by rw [walked.waiting, List.append_assoc, List.singleton_append]
  kept := by
    rw [List.map_cons, List.map_cons, same]
    exact walked.kept.cons_cons _
  numbered := walked.numbered
  balance := by
    have balance := walked.balance
    rw [List.filterMap_append, silent, List.nil_append, List.length_cons, List.length_cons]
    omega
  departs := by
    refine List.forall_mem_cons.mpr ⟨.inl ?_, fun envelope member => ?_⟩
    · rw [List.map_cons, same]
      exact List.mem_cons_self
    · -- Others keep the reason they were dropped for behind one more envelope.
      rcases walked.departs envelope member with stays | dropped
      · exact .inl (List.mem_cons_of_mem _ stays)
      · exact .inr (dropped.past current (List.subset_append_right _ _))

/-- The walk was broken off, and nothing was dropped. -/
theorem walked_off {queue : List MessageEnvelopeOut}
    (waiting : ran.state.outboundMessages = passed ++ queue)
    (numbered : ran.state.sequenceNum = counter)
    (silent : ran.events.filterMap Event.removed = []) :
    Walked unset exhausted passed queue queue counter ran where
  waiting := waiting
  kept := List.Sublist.refl _
  numbered := numbered
  balance := by
    rw [silent]
    rfl
  departs _ member := .inl (List.mem_map_of_mem member)

end Walk

/-- Whatever a walk drops is dropped for a reason. -/
theorem Walk.walked {times : Nat → Nat} {results : Nat → Int}
    {exhausted : Option MessageEnvelopeOut} {readings sent : Nat}
    {passed queue : List MessageEnvelopeOut} {self : PittacusGossip}
    {ran : Outcome PittacusGossip Event Int}
    (walk : Walk times results exhausted readings sent passed queue self ran)
    (whole : self.outboundMessages = passed ++ queue)
    (tries : ∀ envelope ∈ queue, 1 ≤ envelope.maxAttempts) :
    ∃ left, Walked self.unset exhausted passed queue left self.sequenceNum ran := by
  -- Each envelope is dropped or passed over, and the walk goes on behind it.
  induction walk with
  | done => exact ⟨[], walked_off whole rfl rfl⟩
  | dropped shares _ ih =>
    obtain ⟨left, walked⟩ := ih rfl (List.forall_mem_of_forall_mem_cons tries)
    refine ⟨left, walked.dropping [.remove _ .sameRecipient] rfl ?_
      fun envelope dropped => dropped.pastShared shares (List.subset_cons_self _ _)⟩
    exact .continued _ [] _ rfl rfl (List.forall_mem_singleton.mpr shares)
  | givenUp tried repeated _ ih =>
    obtain ⟨left, walked⟩ := ih rfl (List.forall_mem_of_forall_mem_cons tries)
    exact ⟨left, walked.dropping [.remove _ .exhausted] rfl (.exhausted tried)
      fun envelope dropped =>
        dropped.pastExhausted tried repeated (List.subset_cons_self _ _)⟩
  | spent tried _ _ ih =>
    obtain ⟨left, walked⟩ := ih rfl (List.forall_mem_of_forall_mem_cons tries)
    exact ⟨left, walked.dropping [.remove _ .exhausted] rfl (.exhausted tried)
      fun envelope dropped => dropped.past _ (List.subset_cons_self _ _)⟩
  | waits _ ih =>
    obtain ⟨left, walked⟩ := ih (by rw [whole, List.append_assoc]; rfl)
      (List.forall_mem_of_forall_mem_cons tries)
    exact ⟨_ :: left, walked.passing rfl [] rfl⟩
  | refused _ => exact ⟨_, walked_off whole rfl rfl⟩
  | sentOnce _ _ written last _ ih =>
    obtain ⟨left, walked⟩ := ih rfl (List.forall_mem_of_forall_mem_cons tries)
    have once := tries _ List.mem_cons_self
    refine ⟨left, walked.dropping [.sendTo _ _ _ _, .remove _ .sentOnce] rfl
      (.sentOnce ⟨Nat.le_antisymm last once, _, _, _, written, List.mem_cons_self⟩)
      fun envelope dropped => dropped.past _ fun event member =>
        List.mem_cons_of_mem _ (List.mem_cons_of_mem _ member)⟩
  | @attempted _ current readings _ _ _ _ _ _ _ _ _ _ ih =>
    obtain ⟨left, walked⟩ := ih (by rw [List.append_assoc]; rfl)
      (List.forall_mem_of_forall_mem_cons tries)
    have same : { current with
        attemptTs := times readings, attemptNum := current.attemptNum + 1 }.untried
          = current.untried := rfl
    exact ⟨_, walked.passing same [.sendTo current _ _ _] rfl⟩

/-- A round of sending numbers nothing, and drops envelopes for a reason only. -/
theorem processSend_departs (scope : Scope) (times : Nat → Nat) (results : Nat → Int)
    (self : PittacusGossip) (tries : ∀ envelope ∈ self.outboundMessages, 1 ≤ envelope.maxAttempts) :
    let ran := pittacusGossipProcessSend times results self
    Passes scope self ran.events ran.state ∧
      ∀ envelope ∈ self.outboundMessages, envelope.untried ∈ ran.state.pending ∨
        Dropped self.unset none self.outboundMessages ran.events envelope := by
  intro ran
  have walked : ∃ left, Walked self.unset none [] self.outboundMessages left self.sequenceNum ran := by
    show ∃ left, Walked self.unset none [] self.outboundMessages left self.sequenceNum
      (pittacusGossipProcessSend times results self)
    rw [pittacusGossipProcessSend, get_bind_run, ite_run]
    -- A node that takes no part sends nothing; otherwise the walk starts at the first envelope.
    split
    · exact ⟨_, walked_off rfl rfl rfl⟩
    · exact (processSendFrom_walk times results none 0 0 [] _ self).walked rfl tries
  obtain ⟨left, walked⟩ := walked
  have pending : ran.state.pending = left.map MessageEnvelopeOut.untried := by
    rw [PittacusGossip.pending, walked.waiting, List.nil_append]
  refine ⟨⟨left.map MessageEnvelopeOut.untried, [], 0, ?_, walked.kept,
    List.forall_mem_nil _, ?_, ?_, fun _ => .nil _ _⟩, ?_⟩
  · rw [pending, List.append_nil]
  · rw [walked.numbered]
    simp
  · rw [walked.waiting]
    exact walked.balance
  · rw [pending]
    exact walked.departs

/-! ### Handling -/

/-- The queue gets on, and whatever leaves it was named as received, or had to make room. -/
structure Tends (scope : Scope) (before : PittacusGossip) (events : List Event)
    (after : PittacusGossip) : Prop where
  passes : Passes scope before events after
  departs : ∀ envelope ∈ before.outboundMessages, envelope ∈ after.outboundMessages ∨
    scope.retired envelope.sequenceNum ∨ Reclaimed events envelope

theorem tends_chains (scope : Scope) : Chains (Tends scope) where
  rest self := ⟨(passes_chains scope).rest self, fun _ waiting => .inl waiting⟩
  join := by
    intro first middle last early late left right
    refine ⟨(passes_chains scope).join left.passes right.passes, fun envelope waiting => ?_⟩
    -- What leaves either leaves at once, or is still there in the middle.
    rcases left.departs envelope waiting with still | retired | reclaimed
    · refine (right.departs envelope still).imp id (Or.imp id fun reclaimed => ?_)
      exact reclaimed.mono (List.subset_append_right _ _)
    · exact .inr (.inl retired)
    · exact .inr (.inr (reclaimed.mono (List.subset_append_left _ _)))

/-- A change that touches neither the queue nor the numbers is nothing to it. -/
theorem tends_of_same (scope : Scope) {before after : PittacusGossip} {events : List Event}
    (queue : after.outboundMessages = before.outboundMessages)
    (counter : after.sequenceNum = before.sequenceNum)
    (silent : events.filterMap Event.removed = []) : Tends scope before events after :=
  ⟨passes_of_same scope queue counter silent, fun _ waiting => .inl (queue ▸ waiting)⟩

/-- What a placement takes out of the queue refers to the slot that is reused, all being occupied. -/
theorem placement_departs {queue : List MessageEnvelopeOut} {envelope : MessageEnvelopeOut}
    (waiting : envelope ∈ queue) :
    envelope ∈ (placement queue).2.1 ∨
      envelope.buffer = (placement queue).1 ∧
        ∀ i < maxOutputMessages, bufferIsOccupied queue i = true := by
  unfold placement
  split
  · exact .inl waiting
  · unfold chooseOutputBuffer
    cases free : (List.range maxOutputMessages).find? fun i => !bufferIsOccupied queue i with
    | some i => exact .inl waiting
    | none =>
      have occupied : ∀ i < maxOutputMessages, bufferIsOccupied queue i = true := by
        intro i inside
        simpa using List.find?_eq_none.mp free i (List.mem_range.mpr inside)
      cases findOldestEnvelope 0 none queue with
      | none => exact .inl waiting
      | some oldest =>
        -- It stands ahead of the oldest one, shares its slot, or stands behind those that do.
        rw [← List.take_append_drop oldest.1 queue] at waiting
        rcases List.mem_append.mp waiting with ahead | behind
        · exact .inl (List.mem_append_left _ ahead)
        · have parts := List.takeWhile_append_dropWhile
            (p := fun queued : MessageEnvelopeOut => queued.buffer == oldest.2.buffer)
            (l := queue.drop oldest.1)
          rw [← parts] at behind
          rcases List.mem_append.mp behind with sharing | beyond
          · exact .inr ⟨by simpa using List.mem_takeWhile_imp sharing, occupied⟩
          · exact .inl (List.mem_append_right _ beyond)

/-- Queueing a message that may be queued only takes what has to make room. -/
theorem gossipEnqueueMessage_tends {scope : Scope} (message : Message) (recipient : List UInt8)
    (spreading : GossipSpreadingType) (random : Nat → UInt32) (self : PittacusGossip)
    (allowed : scope.Allows message recipient spreading) :
    Tends scope self (gossipEnqueueMessage message recipient spreading random self).events
      (gossipEnqueueMessage message recipient spreading random self).state := by
  refine ⟨gossipEnqueueMessage_passes message recipient spreading random self allowed, ?_⟩
  intro envelope waiting
  rw [gossipEnqueueMessage_events, gossipEnqueueMessage_run]
  -- An envelope that made room did so because every slot was in use.
  rcases placement_departs waiting with stays | ⟨reused, full⟩
  · refine .inl ?_
    split
    · exact stays
    · exact List.mem_append_left _ stays
  · refine .inr (.inr ⟨self.outboundMessages, (placement self.outboundMessages).2.1, message,
      spreading, ?_, waiting, full⟩)
    rw [reused]
    exact List.mem_append_right _ List.mem_cons_self

/-- So do the steps handlers are made of. -/
theorem tends_chores (scope : Scope) : Chores scope (Tends scope) where
  chains := tends_chains scope
  enqueue self message recipient spreading random _ _ allowed :=
    gossipEnqueueMessage_tends message recipient spreading random self allowed
  acknowledge sequenceNum retired self := by
    unfold gossipEnvelopeAcknowledge
    rw [get_bind_run]
    cases found : gossipEnvelopeFindBySequenceNum self.outboundMessages sequenceNum with
    | none => exact (tends_chains scope).rest self
    | some envelope =>
      let named := fun queued : MessageEnvelopeOut => decide (queued.sequenceNum = sequenceNum)
      have present : ∃ queued ∈ self.outboundMessages, named queued = true :=
        ⟨envelope, List.mem_of_find?_eq_some found, List.find?_some found⟩
      refine ⟨⟨(self.outboundMessages.eraseP named).map MessageEnvelopeOut.untried, [], 0, ?_,
        List.eraseP_sublist.map _, List.forall_mem_nil _, ?_, ?_,
        fun _ => .nil _ _⟩, fun queued waiting => ?_⟩
      · exact (List.append_nil _).symm
      · simp
      · -- Exactly one envelope is gone.
        have fewer := List.length_eraseP_of_mem present.choose_spec.1 present.choose_spec.2
        have some_ := List.length_pos_of_mem present.choose_spec.1
        show self.outboundMessages.length + 0 = (self.outboundMessages.eraseP named).length + 1
        omega
      · by_cases same : queued.sequenceNum = sequenceNum
        · exact .inr (.inl (same ▸ retired))
        · exact .inl ((List.mem_eraseP_of_neg (by simpa using same)).mpr waiting)
  remember _ _ self := tends_of_same scope rfl rfl rfl
  introduce newcomer _ :=
    meets_bind (tends_chains scope)
      (fun self => gossipEnqueueMessage_tends (newcomerMessage newcomer) [] .broadcast noRandom self
        id)
      fun _ _ => tends_of_same scope rfl rfl rfl

/-- Data may be spread in any scope. -/
theorem Scope.allows_data (scope : Scope) (msg : MessageData) :
    scope.Allows (.data msg) [] .random := id

/-- So do spreading data, and everything that leaves the queue alone. -/
theorem tends_work (scope : Scope) : Workload scope (Tends scope) where
  toChores := tends_chores scope
  spread msg random self :=
    gossipEnqueueMessage_tends (.data msg) [] .random random self (scope.allows_data msg)
  same before events after same := by
    refine tends_of_same scope same.queue same.counter ?_
    rw [List.filterMap_eq_nil_iff]
    intro event caused
    have quiet := same.quiet event caused
    -- A local event removes nothing.
    cases event with
    | remove envelope reason => exact quiet.elim
    | _ => rfl

/-- A call other than a round of sending only takes what was named, or has to make room. -/
theorem gossipStep_tends {scope : Scope} {input : Input} (within : input.Within scope)
    (handles : ¬input.Sends) : Meets (Tends scope) (gossipStep input) :=
  (tends_work scope).step within handles

/-- The queue gets on with every call. -/
theorem gossipStep_passes {scope : Scope} {input : Input} (within : input.Within scope)
    (self : PittacusGossip)
    (tries : ∀ envelope ∈ self.outboundMessages, 1 ≤ envelope.maxAttempts) :
    Passes scope self (gossipStep input self).events (gossipStep input self).state := by
  cases input with
  | processSend times results => exact (processSend_departs scope times results self tries).1
  | _ => exact (gossipStep_tends within id self).passes

end Pittacus
