import Pittacus.Outbound.Patience
import Pittacus.Outbound.Accounting

/-! No message stays queued through more complete rounds of sending than it has attempts. -/

namespace Pittacus

open Routine

/-! ### One round -/

/-- What becomes of the envelopes of a queue in a round, whichever turn each of them takes. -/
theorem processSendFrom_each {times : Nat → Nat} {results : Nat → Int}
    {before after : MessageEnvelopeOut → Prop}
    (waits : ∀ envelope reading, before envelope → envelope.attemptNum < envelope.maxAttempts →
      ¬envelope.Due (times reading) → after envelope)
    (attempts : ∀ envelope reading, before envelope → envelope.Due (times reading) →
      after (envelope.attempted (times reading)))
    (broken : ∀ sent, results sent < 0 → ∀ envelope, before envelope → after envelope)
    (queue : List MessageEnvelopeOut) {exhausted : Option MessageEnvelopeOut} {readings sent : Nat}
    {passed : List MessageEnvelopeOut} {self : PittacusGossip}
    (whole : self.outboundMessages = passed ++ queue)
    (done : ∀ envelope ∈ passed, after envelope) (waiting : ∀ envelope ∈ queue, before envelope) :
    ∀ envelope ∈ (processSendFrom times results exhausted readings sent passed queue
      self).state.outboundMessages, after envelope := by
  induction queue generalizing exhausted readings sent passed self with
  | nil =>
    show ∀ envelope ∈ self.outboundMessages, after envelope
    rw [whole, List.append_nil]
    exact done
  | cons current rest ih =>
    obtain ⟨first, others⟩ := List.forall_mem_cons.mp waiting
    simp only [processSendFrom, get_bind_run, ite_run, modify_bind_run, emit_bind_run]
    -- An envelope that leaves leaves the rest to the induction.
    split
    · exact ih rfl done others
    split
    · split
      · exact ih rfl done others
      · exact ih rfl done others
    rename_i left
    have left := Nat.lt_of_not_le left
    split
    · rename_i early
      have later : after current := by
        refine waits current readings first left fun due => ?_
        have time := due.2
        omega
      refine ih (by rw [whole, List.append_assoc]; rfl) ?_ others
      exact List.forall_mem_append.mpr ⟨done, List.forall_mem_singleton.mpr later⟩
    rename_i due
    have tried : after (current.attempted (times readings)) := by
      refine attempts current readings first ⟨left, ?_⟩
      omega
    split
    · -- Behind a datagram the socket refuses, everything is left as it is.
      rename_i failed
      have kept := broken sent failed
      show ∀ envelope ∈ self.outboundMessages, after envelope
      rw [whole]
      exact List.forall_mem_append.mpr ⟨done, fun envelope member => kept envelope (waiting envelope member)⟩
    split
    · exact ih rfl done others
    · refine ih (by rw [List.append_assoc]; rfl) ?_ others
      exact List.forall_mem_append.mpr ⟨done, List.forall_mem_singleton.mpr tried⟩

/-! ### Ages -/

/-- An envelope under a number up to some base was tried so often, and not after a time. -/
def MessageEnvelopeOut.Aged (base count now : Nat) (envelope : MessageEnvelopeOut) : Prop :=
  envelope.number ≤ base → count ≤ envelope.attemptNum ∧ envelope.attemptTs ≤ now

/-- It was tried so often at some time, or once more up to a later time. -/
def MessageEnvelopeOut.Ages (base count now upto : Nat) (envelope : MessageEnvelopeOut) : Prop :=
  envelope.number ≤ base →
    count ≤ envelope.attemptNum ∧ envelope.attemptTs ≤ now ∨
      count + 1 ≤ envelope.attemptNum ∧ envelope.attemptTs ≤ upto

/-- The readings of the clock in a call are not after a time. -/
def Input.ReadsBy (upto : Nat) : Input → Prop
  | .processSend times _ => ∀ reading, times reading ≤ upto
  | _ => True

/-- A round, be it broken off or not, only adds to the attempts. -/
theorem Ages.send {base count now upto : Nat} {times : Nat → Nat} {results : Nat → Int}
    {self : PittacusGossip} (reads : ∀ reading, times reading ≤ upto)
    (ages : ∀ envelope ∈ self.outboundMessages, envelope.Ages base count now upto) :
    ∀ envelope ∈ (pittacusGossipProcessSend times results self).state.outboundMessages,
      envelope.Ages base count now upto := by
  rw [pittacusGossipProcessSend, get_bind_run, ite_run]
  split
  · exact ages
  · refine processSendFrom_each (fun envelope _ ages _ _ => ages) (fun envelope reading ages _ old => ?_)
      (fun _ _ envelope ages => ages) _ rfl (List.forall_mem_nil _) ages
    refine .inr ⟨?_, reads reading⟩
    show count + 1 ≤ envelope.attemptNum + 1
    rcases ages old with before | now_
    · omega
    · omega

/-- A complete round, the retry interval later, tries everything once more that was not tried yet. -/
theorem Ages.round {base count now upto : Nat} {times : Nat → Nat} {results : Nat → Int}
    {self : PittacusGossip} (listens : self.exchanges = true)
    (spaced : ∀ reading, now + messageRetryInterval ≤ times reading ∧ times reading ≤ upto)
    (written : ∀ sent, 0 ≤ results sent)
    (ages : ∀ envelope ∈ self.outboundMessages, envelope.Ages base count now upto) :
    ∀ envelope ∈ (pittacusGossipProcessSend times results self).state.outboundMessages,
      envelope.Aged base (count + 1) upto := by
  rw [pittacusGossipProcessSend, get_bind_run, if_neg (by rw [listens]; decide)]
  refine processSendFrom_each (fun envelope reading ages left early old => ?_)
    (fun envelope reading ages _ old => ?_) (fun sent failed => ?_) _ rfl (List.forall_mem_nil _) ages
  · rcases ages old with ⟨-, before⟩ | again
    · -- It would be due.
      refine absurd ⟨left, .inr ?_⟩ early
      have spaced := (spaced reading).1
      omega
    · exact again
  · refine ⟨?_, (spaced reading).2⟩
    show count + 1 ≤ envelope.attemptNum + 1
    rcases ages old with before | now_
    · omega
    · omega
  · exact absurd (written sent) (Int.not_le.mpr failed)

/-! ### Other calls -/

/--
What is queued afterwards was queued before, or was numbered since and not tried yet.

The numbers do not start over, unless so many envelopes are added.
-/
def Joins (before : PittacusGossip) (events : List Event) (after : PittacusGossip) : Prop :=
  ∃ added, after.sequenceNum = before.sequenceNum + UInt32.ofNat added ∧
    before.outboundMessages.length + added =
      after.outboundMessages.length + (events.filterMap Event.removed).length ∧
    (before.sequenceNum.toNat + added < 2 ^ 32 → ∀ envelope ∈ after.outboundMessages,
      envelope ∈ before.outboundMessages ∨ before.sequenceNum.toNat < envelope.number)

theorem joins_chains : Chains Joins where
  rest self := ⟨0, by simp, by simp, fun _ envelope waiting => .inl waiting⟩
  join := by
    rintro first middle last early late ⟨added, counter, balance, old⟩
      ⟨added_, counter_, balance_, old_⟩
    refine ⟨added + added_, ?_, ?_, fun room envelope waiting => ?_⟩
    · rw [counter_, counter, UInt32.ofNat_add, UInt32.add_assoc]
    · rw [List.filterMap_append, List.length_append]
      omega
    · have middle_ := counted_up counter (by omega)
      -- What was numbered in the second stretch was numbered after the first one.
      rcases old_ (by omega) envelope waiting with before | above
      · exact old (by omega) envelope before
      · exact .inr (by omega)

/-- A change that leaves queue and numbers alone joins nothing. -/
theorem joins_of_same {before after : PittacusGossip} {events : List Event}
    (queue : after.outboundMessages = before.outboundMessages)
    (counter : after.sequenceNum = before.sequenceNum)
    (silent : events.filterMap Event.removed = []) : Joins before events after := by
  refine ⟨0, by simp [counter], by simp [queue, silent], fun _ envelope waiting => .inl ?_⟩
  rw [← queue]
  exact waiting

/-- Queueing a message numbers its envelopes on from the last number. -/
theorem gossipEnqueueMessage_joins (message : Message) (recipient : List UInt8)
    (spreading : GossipSpreadingType) (random : Nat → UInt32) :
    Meets Joins (gossipEnqueueMessage message recipient spreading random) := by
  intro self
  have left := placement_sublist self.outboundMessages
  have parts := placement_length self.outboundMessages
  have removed := congrArg List.length
    (removed_enqueueEvents self.outboundMessages message spreading)
  rw [gossipEnqueueMessage_events, gossipEnqueueMessage_run]
  split
  · refine ⟨0, by simp [PittacusGossip.placed], ?_, fun _ envelope waiting => .inl (left.subset waiting)⟩
    simp only [PittacusGossip.placed]
    omega
  · generalize spreadingRecipients self recipient spreading random = recipients
    have count := (@envelopesFor_made message (placement self.outboundMessages).1
      (encodeCode message).toNat self.sequenceNum recipients).1
    refine ⟨recipients.length, rfl, ?_, fun room envelope waiting => ?_⟩
    · simp only [PittacusGossip.queued, List.length_append]
      omega
    · rcases List.mem_append.mp waiting with old | new
      · exact .inl (left.subset old)
      · have climbs := envelopesFor_climbs message (placement self.outboundMessages).1
          (encodeCode message).toNat self.sequenceNum recipients room
        exact .inr (climbs.above _ (List.mem_map_of_mem new))

/-- So do the steps that calls other than rounds of sending are made of. -/
theorem joins_work : Workload Scope.any Joins where
  chains := joins_chains
  enqueue self message recipient spreading random _ _ _ :=
    gossipEnqueueMessage_joins message recipient spreading random self
  acknowledge sequenceNum _ self := by
    unfold gossipEnvelopeAcknowledge
    rw [get_bind_run]
    cases found : gossipEnvelopeFindBySequenceNum self.outboundMessages sequenceNum with
    | none => exact joins_chains.rest self
    | some envelope =>
      refine ⟨0, ?_, ?_, fun _ queued waiting => .inl (List.mem_of_mem_eraseP waiting)⟩
      · simp
      · -- Exactly one envelope is gone.
        have fewer := List.length_eraseP_of_mem (List.mem_of_find?_eq_some found)
          (List.find?_some found)
        have some_ := List.length_pos_of_mem (List.mem_of_find?_eq_some found)
        show self.outboundMessages.length + 0 = (self.outboundMessages.eraseP _).length + 1
        omega
  remember _ _ self := joins_of_same rfl rfl rfl
  introduce newcomer _ :=
    meets_bind joins_chains (gossipEnqueueMessage_joins (newcomerMessage newcomer) [] .broadcast
      noRandom) fun _ self => joins_of_same rfl rfl rfl
  spread msg random := gossipEnqueueMessage_joins (.data msg) [] .random random
  same before events after same := by
    refine joins_of_same same.queue same.counter (List.filterMap_eq_nil_iff.mpr fun event caused => ?_)
    have quiet := same.quiet event caused
    cases event with
    | remove envelope reason => exact quiet.elim
    | _ => rfl

/-- A call under readings up to a time keeps the ages of what was queued. -/
theorem Ages.step {base count now upto : Nat} {self : PittacusGossip} {input : Input}
    (reads : input.ReadsBy upto) (numbered : base ≤ self.sequenceNum.toNat)
    (room : self.sequenceNum.toNat + self.enqueues input < 2 ^ 32)
    (ages : ∀ envelope ∈ self.outboundMessages, envelope.Ages base count now upto) :
    ∀ envelope ∈ (gossipStep input self).state.outboundMessages,
      envelope.Ages base count now upto := by
  have carried : ¬input.Sends → ∀ envelope ∈ (gossipStep input self).state.outboundMessages,
      envelope.Ages base count now upto := by
    intro handles envelope waiting old
    obtain ⟨added, -, balance, joins⟩ := joins_work.step input.within_any handles self
    rw [PittacusGossip.enqueues] at room
    -- Nothing that was numbered since is under a number up to the base.
    rcases joins (by omega) envelope waiting with before | above
    · exact ages envelope before old
    · omega
  cases input with
  | processSend times results => exact Ages.send reads ages
  | _ => exact carried id

/-! ### Laps -/

/-- Some calls, and a complete round of sending after them, with the readings of the clock so far. -/
structure Lap where
  between : List Input
  times : Nat → Nat
  results : Nat → Int
  upto : Nat

/-- The calls of a lap. -/
def Lap.inputs (lap : Lap) : List Input := lap.between ++ [.processSend lap.times lap.results]

/--
The socket takes every datagram of the rounds, each of which comes the retry interval after the last.

What else is called in between is not restricted, nor are the rounds among it.
-/
def Paced : Nat → List Lap → Prop
  | _, [] => True
  | now, lap :: rest =>
    (∀ input ∈ lap.between, input.ReadsBy lap.upto) ∧
      (∀ reading, now + messageRetryInterval ≤ lap.times reading ∧ lap.times reading ≤ lap.upto) ∧
      (∀ sent, 0 ≤ lap.results sent) ∧ Paced lap.upto rest

/-- The queue is in order, and the numbers do not start over with a call. -/
def Numbered (self : PittacusGossip) (input : Input) : Prop :=
  self.Ordered ∧ self.sequenceNum.toNat + self.enqueues input < 2 ^ 32

/-- A node that listens goes on listening. -/
theorem exchanges_step {self : PittacusGossip} (listens : self.exchanges = true) (input : Input) :
    (gossipStep input self).state.exchanges = true := by
  have leads := gossipStep_stage input self
  generalize (gossipStep input self).state = after at leads
  -- A call leads to one of the two stages at which a node listens, or nowhere.
  generalize stage : after.state = target at leads
  cases leads with
  | stays =>
    rw [PittacusGossip.exchanges, stage]
    exact listens
  | starts _ _ | joins _ _ _ _ | admitted _ _ _ => rw [PittacusGossip.exchanges, stage]; rfl

/-- What is known of a queue between two rounds. -/
structure Aging (base count now upto : Nat) (node : PittacusGossip) : Prop where
  listens : node.exchanges = true
  numbered : base ≤ node.sequenceNum.toNat
  ages : ∀ envelope ∈ node.outboundMessages, envelope.Ages base count now upto

/-- It is still known after any calls under the same readings of the clock. -/
theorem Aging.run {base count now upto : Nat} {inputs : List Input} {self : PittacusGossip}
    (aging : Aging base count now upto self) (reads : ∀ input ∈ inputs, input.ReadsBy upto)
    (numbered : Machine.Along gossipStep Numbered inputs self) :
    Aging base count now upto (Machine.run gossipStep inputs self) := by
  induction inputs generalizing self with
  | nil => exact aging
  | cons input rest ih =>
    obtain ⟨first, others⟩ := List.forall_mem_cons.mp reads
    obtain ⟨⟨ordered, room⟩, later⟩ := numbered
    have counted := (ordered.step input room).2
    have above := aging.numbered
    exact ih ⟨exchanges_step aging.listens input, by omega,
      Ages.step first aging.numbered room aging.ages⟩ others later

/-- With every lap, what is left of the old envelopes was tried once more. -/
theorem Aging.laps {base : Nat} {laps : List Lap} {count now : Nat} {self : PittacusGossip}
    (listens : self.exchanges = true) (numbered_ : base ≤ self.sequenceNum.toNat)
    (aged : ∀ envelope ∈ self.outboundMessages, envelope.Aged base count now)
    (paced : Paced now laps)
    (numbered : Machine.Along gossipStep Numbered (laps.flatMap Lap.inputs) self) :
    ∀ envelope ∈ (Machine.run gossipStep (laps.flatMap Lap.inputs) self).outboundMessages,
      envelope.number ≤ base → count + laps.length ≤ envelope.attemptNum := by
  induction laps generalizing count now self with
  | nil => exact fun envelope waiting old => (aged envelope waiting old).1
  | cons lap rest ih =>
    obtain ⟨reads, spaced, written, later⟩ := paced
    rw [List.flatMap_cons, Machine.run_append]
    rw [List.flatMap_cons, Machine.along_append, Lap.inputs, Machine.along_append,
      Machine.run_append] at numbered
    obtain ⟨⟨between, round, -⟩, others⟩ := numbered
    have start : Aging base count now lap.upto self :=
      ⟨listens, numbered_, fun envelope waiting old => .inl (aged envelope waiting old)⟩
    have reached := start.run reads between
    have tried := Ages.round reached.listens spaced written reached.ages
    have counted := (round.1.step _ round.2).2
    have above := reached.numbered
    rw [Lap.inputs, Machine.run_append]
    have next := ih (exchanges_step reached.listens (.processSend lap.times lap.results))
      (by omega) tried later others
    intro envelope waiting old
    have more := next envelope waiting old
    rw [List.length_cons]
    omega

/-! ### Attempts -/

/-- No message is to be sent more often than the most attempts there are. -/
theorem messageMaxAttempts_le (message : Message) :
    messageMaxAttempts message ≤ messageRetryAttempts := by
  cases message <;> simp [messageMaxAttempts, messageRetryAttempts]

/-- Nothing that is queued in a run was tried more often than it may be. -/
theorem attemptNum_le (setup : NodeSetup) (inputs : List Input) :
    ∀ envelope ∈ (Machine.run gossipStep inputs setup.node).outboundMessages,
      envelope.attemptNum ≤ messageRetryAttempts := by
  obtain ⟨ledger, kept⟩ := @Ledger.exists_kept inputs setup.node Ledger.empty rfl
  rw [← kept.agrees rfl]
  -- The account of the envelope knows how often it may be tried.
  intro envelope waiting
  obtain ⟨account, opened, rfl⟩ := List.mem_map.mp waiting
  have agrees := (Ledger.empty_disciplined.run kept).opened account opened
  have few := agrees.few
  rw [agrees.attempts] at few
  exact Nat.le_trans few (messageMaxAttempts_le _)

/-- Nothing was tried after the last reading of the clock. -/
theorem attemptTs_le {now : Nat} {inputs : List Input} {self : PittacusGossip}
    (before : ∀ envelope ∈ self.outboundMessages, envelope.attemptTs ≤ now)
    (reads : ∀ input ∈ inputs, input.ReadsBy now) :
    ∀ envelope ∈ (Machine.run gossipStep inputs self).outboundMessages,
      envelope.attemptTs ≤ now := by
  induction inputs generalizing self with
  | nil => exact before
  | cons input rest ih =>
    obtain ⟨first, others⟩ := List.forall_mem_cons.mp reads
    refine ih ?_ others
    have carried : ¬input.Sends → ∀ envelope ∈ (gossipStep input self).state.outboundMessages,
        envelope.attemptTs ≤ now := by
      intro handles envelope waiting
      obtain ⟨-, kept, fresh, left, sub, made⟩ :=
        (carries_work Scope.any).step input.within_any handles self
      rw [left] at waiting
      rcases List.mem_append.mp waiting with old | new
      · exact before envelope (sub.subset old)
      · rw [← (made envelope new).untried]
        exact Nat.zero_le now
    cases input with
    | processSend times results =>
      rw [gossipStep, pittacusGossipProcessSend, get_bind_run, ite_run]
      split
      · exact before
      · exact processSendFrom_each (fun _ _ early _ _ => early) (fun _ reading _ _ => first reading)
          (fun _ _ _ early => early) _ rfl (List.forall_mem_nil _) before
    | _ => exact carried id

/-! ### Fates -/

/-- What is under the number of a queued envelope after a call is what is left of that envelope. -/
theorem PittacusGossip.Ordered.same {self : PittacusGossip} (ordered : self.Ordered) {input : Input}
    (room : self.sequenceNum.toNat + self.enqueues input < 2 ^ 32)
    {envelope left : MessageEnvelopeOut} (waiting : envelope ∈ self.outboundMessages)
    (still : left ∈ (gossipStep input self).state.outboundMessages)
    (number : left.number = envelope.number) : left.untried = envelope.untried := by
  obtain ⟨-, ⟨kept, fresh, queue, sub, above⟩, -⟩ := ordered.accounted input room
  have listed : left.untried ∈ kept ++ fresh := by
    rw [← queue]
    exact List.mem_map_of_mem still
  rcases List.mem_append.mp listed with old | new
  · obtain ⟨found, waited, same⟩ := List.mem_map.mp (sub.subset old)
    have one := (MessageEnvelopeOut.untried_eq same).2.1
    rw [← same, ordered.numbers.inj waited waiting (one.trans number)]
  · have larger := above _ new _ (List.mem_map_of_mem waiting)
    rw [MessageEnvelopeOut.untried_number, MessageEnvelopeOut.untried_number, number] at larger
    exact absurd larger (Nat.lt_irrefl _)

/-- An envelope that is gone in the end left in some call, for a reason. -/
theorem exists_departure {inputs : List Input} {self : PittacusGossip}
    (numbered : Machine.Along gossipStep Numbered inputs self) {envelope : MessageEnvelopeOut}
    (waiting : envelope ∈ self.outboundMessages)
    (gone : ∀ left ∈ (Machine.run gossipStep inputs self).outboundMessages,
      left.number ≠ envelope.number) :
    ∃ earlier input later, inputs = earlier ++ input :: later ∧
      ∃ current ∈ (Machine.run gossipStep earlier self).outboundMessages,
        current.untried = envelope.untried ∧
          Departure (Machine.run gossipStep earlier self) input current := by
  induction inputs generalizing self envelope with
  | nil => exact absurd rfl (gone envelope waiting)
  | cons input rest ih =>
    obtain ⟨⟨ordered, room⟩, later⟩ := numbered
    by_cases stays : ∃ left ∈ (gossipStep input self).state.outboundMessages,
        left.number = envelope.number
    · -- It is still queued after the first call, so it leaves in a later one.
      obtain ⟨left, still, number⟩ := stays
      obtain ⟨earlier, found, last, rfl, current, waited, same, departs⟩ := ih later still
        fun other member => number ▸ gone other member
      exact ⟨input :: earlier, found, last, rfl, current, waited,
        same.trans (ordered.same room waiting still number), departs⟩
    · have departs := Ordered.departs ordered input waiting fun left still number =>
        stays ⟨left, still, number⟩
      exact ⟨[], input, rest, rfl, envelope, waiting, rfl, departs⟩

/-- A complete round of sending at one reading of the clock, after some calls. -/
def lapAt (now : Nat) (between : List Input) : Lap := ⟨between, fun _ => now, fun _ => 0, now⟩

/-- Four rounds at the right intervals, with another payload before the last one. -/
def fourLaps : List Lap :=
  [lapAt 10000 [], lapAt 20000 [], lapAt 30000 [], lapAt 40000 [.sendData [2] noRandom]]

end Pittacus
