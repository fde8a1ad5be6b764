import Pittacus.Outbound.Rounds

/-! Accounts of when each envelope of a run was transmitted. -/

namespace Pittacus

open Routine

/-! ### Calls other than rounds of sending -/

/-- Envelopes that were queued stay as they are, in order, and new ones stand behind them. -/
def Carries (scope : Scope) (before : PittacusGossip) (events : List Event)
    (after : PittacusGossip) : Prop :=
  events.filterMap Event.transmission = [] ∧
    ∃ kept fresh, after.outboundMessages = kept ++ fresh ∧ kept.Sublist before.outboundMessages ∧
      ∀ envelope ∈ fresh, Made scope envelope

theorem carries_chains (scope : Scope) : Chains (Carries scope) where
  rest self :=
    ⟨rfl, self.outboundMessages, [], (List.append_nil _).symm, List.Sublist.refl _,
      List.forall_mem_nil _⟩
  join := by
    -- Some of the envelopes that were new in the middle may be gone at the end.
    rintro first middle last early late ⟨silent, kept, fresh, left, sub, made⟩
      ⟨silent_, kept_, fresh_, left_, sub_, made_⟩
    rw [left] at sub_
    obtain ⟨old, new, rfl, staying, lasting⟩ := List.sublist_append_iff.mp sub_
    refine ⟨by rw [List.filterMap_append, silent, silent_]; rfl, old, new ++ fresh_, ?_,
      staying.trans sub, ?_⟩
    · rw [left_, List.append_assoc]
    · exact List.forall_mem_append.mpr
        ⟨fun envelope member => made envelope (lasting.subset member), made_⟩

/-- A change that leaves the queue alone carries it on as it is. -/
theorem carries_of_same (scope : Scope) {before after : PittacusGossip} {events : List Event}
    (queue : after.outboundMessages = before.outboundMessages)
    (silent : events.filterMap Event.transmission = []) : Carries scope before events after :=
  ⟨silent, before.outboundMessages, [], by rw [queue, List.append_nil], List.Sublist.refl _,
    List.forall_mem_nil _⟩

/-- Queueing a message transmits nothing. -/
theorem transmission_enqueueEvents (queue : List MessageEnvelopeOut) (message : Message)
    (spreading : GossipSpreadingType) :
    (enqueueEvents queue message spreading).filterMap Event.transmission = [] := by
  rw [enqueueEvents, List.filterMap_append, List.filterMap_map]
  have each : Event.transmission ∘ (fun envelope => .remove envelope .reclaimed)
      = fun _ => none := rfl
  rw [each, List.filterMap_eq_nil_iff.mpr fun _ _ => rfl]
  rfl

/-- Queueing a message carries on what need not make room. -/
theorem gossipEnqueueMessage_carries {scope : Scope} (message : Message) (recipient : List UInt8)
    (spreading : GossipSpreadingType) (random : Nat → UInt32) (self : PittacusGossip)
    (allowed : scope.Allows message recipient spreading) :
    Carries scope self (gossipEnqueueMessage message recipient spreading random self).events
      (gossipEnqueueMessage message recipient spreading random self).state := by
  have left := placement_sublist self.outboundMessages
  rw [gossipEnqueueMessage_events, gossipEnqueueMessage_run]
  refine ⟨transmission_enqueueEvents _ _ _, ?_⟩
  -- A refused message queues nothing, but the room was made.
  split
  · exact ⟨_, [], (List.append_nil _).symm, left, List.forall_mem_nil _⟩
  · exact ⟨_, _, rfl, left, allowed.made self random⟩

/-- So do the steps that calls are made of. -/
theorem carries_work (scope : Scope) : Workload scope (Carries scope) where
  chains := carries_chains scope
  enqueue self message recipient spreading random _ _ allowed :=
    gossipEnqueueMessage_carries message recipient spreading random self allowed
  acknowledge sequenceNum retired self := by
    unfold gossipEnvelopeAcknowledge
    rw [get_bind_run]
    -- Taking out the acknowledged envelope leaves a part of the queue, in its order.
    cases gossipEnvelopeFindBySequenceNum self.outboundMessages sequenceNum with
    | none => exact (carries_chains scope).rest self
    | some envelope =>
      exact ⟨rfl, _, [], (List.append_nil _).symm, List.eraseP_sublist,
        List.forall_mem_nil _⟩
  remember _ _ self := carries_of_same scope rfl rfl
  introduce newcomer _ :=
    meets_bind (carries_chains scope)
      (fun self => gossipEnqueueMessage_carries (newcomerMessage newcomer) [] .broadcast noRandom
        self id)
      fun _ _ => carries_of_same scope rfl rfl
  spread msg random self :=
    gossipEnqueueMessage_carries (.data msg) [] .random random self (scope.allows_data msg)
  same before events after same := by
    refine carries_of_same scope same.queue (List.filterMap_eq_nil_iff.mpr fun event caused => ?_)
    have quiet := same.quiet event caused
    cases event with
    | sendTo envelope datagram now result => exact quiet.elim
    | _ => rfl

/-! ### Accounts -/

/-- An envelope, and the readings of the clock at its transmissions, the latest one first. -/
structure Account where
  envelope : MessageEnvelopeOut
  sentAt : List Nat

/-- The account once a transmission in one call was entered. -/
def Account.entered (account : Account) (fate : Fate) : Account :=
  { account with sentAt := fate.reading.toList ++ account.sentAt }

/-- The account after a call the envelope is still queued after. -/
def Account.carried (turn : Account × Fate) : Option Account :=
  (turn.2.left turn.1.envelope).map fun envelope => ⟨envelope, (turn.1.entered turn.2).sentAt⟩

/-- The account after the call in which the envelope left the queue. -/
def Account.settled (turn : Account × Fate) : Option Account :=
  match turn.2.left turn.1.envelope with
  | some _ => none
  | none => some (turn.1.entered turn.2)

/-- The turn of the envelope of an account. -/
def Account.turn (turn : Account × Fate) : MessageEnvelopeOut × Fate :=
  (turn.1.envelope, turn.2)

/-- The accounts of the envelopes in the queue, and of those that were in it. -/
structure Ledger where
  opened : List Account
  closed : List Account

/-- Nothing was queued yet. -/
def Ledger.empty : Ledger := ⟨[], []⟩

/--
The ledger after a call, given the events of the call and the queue it leaves behind.

Each opened account has one turn, which enters at most one transmission.
-/
structure Ledger.Entered (before : Ledger) (turns : List (Account × Fate)) (fresh : List Account)
    (events : List Event) (queue : List MessageEnvelopeOut) (after : Ledger) : Prop where
  found : turns.map Prod.fst = before.opened
  opened : after.opened = turns.filterMap Account.carried ++ fresh
  closed : after.closed = before.closed ++ turns.filterMap Account.settled
  /-- The transmissions that are entered are those the socket took, in their order. -/
  shown : events.filterMap Event.transmission = (turns.map Account.turn).filterMap turnTransmission
  /-- Accounts are opened for new envelopes only. -/
  made : ∀ account ∈ fresh, account.sentAt = [] ∧ Made Scope.any account.envelope
  agrees : after.opened.map Account.envelope = queue

/-- The ledger is brought up to a call. -/
def Ledger.Follows (before : Ledger) (events : List Event) (queue : List MessageEnvelopeOut)
    (after : Ledger) : Prop :=
  ∃ turns fresh, before.Entered turns fresh events queue after

/-- The ledger is kept along a run. -/
def Ledger.Kept : List Input → PittacusGossip → Ledger → Ledger → Prop
  | [], _, first, last => last = first
  | input :: rest, self, first, last =>
    ∃ next, first.Follows (gossipStep input self).events
        (gossipStep input self).state.outboundMessages next ∧
      Kept rest (gossipStep input self).state next last

/-! ### Keeping a ledger -/

/-- The turns of a queue are turns of the accounts of its envelopes. -/
theorem exists_turns {opened : List Account} {turns : List (MessageEnvelopeOut × Fate)}
    (found : turns.map Prod.fst = opened.map Account.envelope) :
    ∃ pairs : List (Account × Fate), pairs.map Prod.fst = opened ∧
      pairs.map Account.turn = turns := by
  -- Accounts and turns are paired off from the front.
  induction opened generalizing turns with
  | nil => exact ⟨[], rfl, (List.map_eq_nil_iff.mp found).symm⟩
  | cons account rest ih =>
    cases turns with
    | nil => cases found
    | cons turn others =>
      obtain ⟨same, found_⟩ := List.cons.inj found
      obtain ⟨pairs, accounts, turns_⟩ := ih found_
      refine ⟨(account, turn.2) :: pairs, by rw [List.map_cons, accounts], ?_⟩
      rw [List.map_cons, turns_, Account.turn, ← same]

/-- What is left of the envelopes of some accounts are the envelopes of those carried on. -/
theorem carried_envelopes (pairs : List (Account × Fate)) :
    (pairs.filterMap Account.carried).map Account.envelope =
      (pairs.map Account.turn).filterMap fun turn => turn.2.left turn.1 := by
  rw [List.map_filterMap, List.filterMap_map]
  congr 1
  funext pair
  simp only [Account.carried, Account.turn, Option.map_map, Function.comp_apply]
  cases pair.2.left pair.1.envelope <;> rfl

/-- Some of the envelopes of a queue stay, and the others leave. -/
theorem turns_of_sublist {kept queue : List MessageEnvelopeOut} (sub : kept.Sublist queue) :
    ∃ turns : List (MessageEnvelopeOut × Fate), turns.map Prod.fst = queue ∧
      turns.filterMap (fun turn => turn.2.left turn.1) = kept ∧
      turns.filterMap turnTransmission = [] := by
  -- An envelope passed over leaves, one taken up waits.
  induction sub with
  | slnil => exact ⟨[], rfl, rfl, rfl⟩
  | cons envelope _ ih =>
    obtain ⟨turns, rfl, rfl, silent⟩ := ih
    exact ⟨(envelope, .leaves) :: turns, rfl, rfl, silent⟩
  | cons_cons envelope _ ih =>
    obtain ⟨turns, rfl, rfl, silent⟩ := ih
    exact ⟨(envelope, .waits) :: turns, rfl, rfl, silent⟩

/-- One turn for each envelope, of which what is left stays in front of new envelopes. -/
theorem Ledger.exists_next {before : Ledger} {turns : List (MessageEnvelopeOut × Fate)}
    {fresh : List MessageEnvelopeOut} {events : List Event}
    (found : turns.map Prod.fst = before.opened.map Account.envelope)
    (shown : events.filterMap Event.transmission = turns.filterMap turnTransmission)
    (made : ∀ envelope ∈ fresh, Made Scope.any envelope) :
    ∃ after, before.Follows events
      ((turns.filterMap fun turn => turn.2.left turn.1) ++ fresh) after := by
  -- Each account takes the turn of its envelope, and is carried on or settled.
  obtain ⟨pairs, accounts, rfl⟩ := exists_turns found
  refine ⟨⟨pairs.filterMap Account.carried ++ fresh.map (⟨·, []⟩),
    before.closed ++ pairs.filterMap Account.settled⟩, pairs, fresh.map (⟨·, []⟩), accounts, rfl,
    rfl, shown, ?_, ?_⟩
  · intro account opened
    obtain ⟨envelope, new, rfl⟩ := List.mem_map.mp opened
    exact ⟨rfl, made envelope new⟩
  · rw [List.map_append, carried_envelopes, List.map_map]
    exact congrArg _ (List.map_id _)

/-- The ledger can be kept in every call. -/
theorem Ledger.follows_step {before : Ledger} {self : PittacusGossip}
    (agrees : before.opened.map Account.envelope = self.outboundMessages) (input : Input) :
    ∃ after, before.Follows (gossipStep input self).events
      (gossipStep input self).state.outboundMessages after := by
  -- Only a round of sending transmits; any other call takes some out and queues some.
  have carrying : ¬input.Sends → ∃ after, before.Follows (gossipStep input self).events
      (gossipStep input self).state.outboundMessages after := by
    intro handles
    obtain ⟨silent, kept, fresh, left, sub, made⟩ :=
      (carries_work Scope.any).step input.within_any handles self
    obtain ⟨turns, found, rfl, quiet⟩ := turns_of_sublist sub
    rw [left]
    exact before.exists_next (found.trans agrees.symm) (silent.trans quiet.symm) made
  cases input with
  | processSend times results =>
    obtain ⟨turns, round⟩ := processSend_round times results self
    obtain ⟨after, follows⟩ := @Ledger.exists_next before turns []
      (gossipStep (.processSend times results) self).events (round.found.trans agrees.symm)
      round.transmitted (List.forall_mem_nil _)
    rw [List.append_nil] at follows
    refine ⟨after, ?_⟩
    rw [show (gossipStep (.processSend times results) self).state.outboundMessages = _ from
      round.left]
    exact follows
  | _ => exact carrying id

/-- The ledger can be kept along every run. -/
theorem Ledger.exists_kept (inputs : List Input) {self : PittacusGossip} {first : Ledger}
    (agrees : first.opened.map Account.envelope = self.outboundMessages) :
    ∃ last, first.Kept inputs self last := by
  -- One call's ledger is where the next call's begins.
  induction inputs generalizing self first with
  | nil => exact ⟨first, rfl⟩
  | cons input rest ih =>
    obtain ⟨next, follows⟩ := Ledger.follows_step agrees input
    have ⟨_, _, entered⟩ := follows
    obtain ⟨last, kept⟩ := ih entered.agrees
    exact ⟨last, next, follows, kept⟩

end Pittacus
