import Pittacus.Outbound.Accounts

/-! Every envelope is transmitted a few times only, and not too often. -/

namespace Pittacus

open Routine

/-! ### Accounts -/

/-- Consecutive transmissions, the latest one first, lie the retry interval apart. -/
def Spaced (sentAt : List Nat) : Prop :=
  sentAt.IsChain fun later earlier => earlier + messageRetryInterval ≤ later

/-- What holds of the account of an envelope at any time. -/
structure Account.Disciplined (account : Account) : Prop where
  few : account.sentAt.length ≤ account.envelope.maxAttempts
  spaced : Spaced account.sentAt
  once : account.envelope.message.Replies → account.sentAt.length ≤ 1

/-- What holds of it as long as the envelope is queued. -/
structure Account.Agrees (account : Account) : Prop where
  attempts : account.envelope.maxAttempts = messageMaxAttempts account.envelope.message
  /-- The envelope counts its transmissions, and remembers when the latest one was. -/
  count : account.sentAt.length = account.envelope.attemptNum
  latest : ∀ now earlier, account.sentAt = now :: earlier → account.envelope.attemptTs = now
  spaced : Spaced account.sentAt
  few : account.envelope.attemptNum ≤ account.envelope.maxAttempts
  /-- What is to be sent only once was not sent yet. -/
  unsent : account.envelope.maxAttempts ≤ 1 → account.sentAt = []

/-- A message that answers another one is sent once. -/
theorem Message.Replies.once {message : Message} (replies : message.Replies) :
    messageMaxAttempts message = 1 := by
  cases message with
  | welcome msg => rfl
  | ack msg => rfl
  | _ => exact replies.elim

/-- The account of a new envelope is empty, and agrees with it. -/
theorem Made.agrees {account : Account} (made : Made Scope.any account.envelope)
    (unsent : account.sentAt = []) : account.Agrees := by
  have untried : account.envelope.attemptNum = 0 := by
    rw [← made.untried]
    rfl
  refine ⟨made.attempts, by rw [unsent, untried]; rfl, ?_, by rw [unsent]; exact .nil, ?_,
    fun _ => unsent⟩
  · rw [unsent]
    exact fun now earlier none_ => by cases none_
  · rw [untried]
    exact Nat.zero_le _

namespace Account

variable {account : Account} {fate : Fate}

/-- A transmission that is due comes the retry interval after the one before it. -/
theorem Agrees.spaced_cons (agrees : account.Agrees) {now : Nat}
    (due : account.envelope.Due now) : Spaced (now :: account.sentAt) := by
  have count := agrees.count
  cases readings : account.sentAt with
  | nil => exact .singleton now
  | cons last earlier =>
    have spaced := agrees.spaced
    rw [readings] at spaced count
    rw [List.length_cons] at count
    refine List.isChain_cons_cons.mpr ⟨?_, spaced⟩
    -- An attempt was made before, so that the interval was checked.
    rcases due.2 with first | later
    · omega
    · rwa [agrees.latest last earlier readings] at later

/-- Entering a transmission that is due keeps an account disciplined. -/
theorem Agrees.disciplined (agrees : account.Agrees)
    (due : ∀ now, fate = .sent now → account.envelope.Due now) :
    (account.entered fate).Disciplined := by
  have count := agrees.count
  have few := agrees.few
  have once : account.envelope.message.Replies → account.sentAt = [] := fun replies =>
    agrees.unsent (by rw [agrees.attempts, replies.once])
  -- Only a transmission adds an entry, and one that is due has an attempt left.
  cases fate with
  | sent now =>
    have left := (due now rfl).1
    refine ⟨?_, agrees.spaced_cons (due now rfl), fun replies => ?_⟩
    · show account.sentAt.length + 1 ≤ account.envelope.maxAttempts
      omega
    · show account.sentAt.length + 1 ≤ 1
      rw [once replies]
      rfl
  | waits =>
    refine ⟨Nat.le_trans (Nat.le_of_eq count) few, agrees.spaced, fun replies => ?_⟩
    show account.sentAt.length ≤ 1
    rw [once replies]
    exact Nat.zero_le 1
  | leaves =>
    refine ⟨Nat.le_trans (Nat.le_of_eq count) few, agrees.spaced, fun replies => ?_⟩
    show account.sentAt.length ≤ 1
    rw [once replies]
    exact Nat.zero_le 1

/-- The account of an envelope that is still queued agrees with it. -/
theorem Agrees.carried (agrees : account.Agrees)
    (due : ∀ now, fate = .sent now → account.envelope.Due now) {after : Account}
    (carried : carried (account, fate) = some after) : after.Agrees := by
  cases fate with
  | waits =>
    cases carried
    exact agrees
  | leaves => cases carried
  | sent now =>
    have left := (due now rfl).1
    by_cases once : account.envelope.maxAttempts ≤ 1
    · -- What is to be sent only once is not queued any more.
      simp [Account.carried, Fate.left, once] at carried
    · simp only [Account.carried, Fate.left, if_neg once, Option.map_some, Option.some.injEq]
        at carried
      subst carried
      refine ⟨agrees.attempts, ?_, ?_, agrees.spaced_cons (due now rfl), left,
        fun again => absurd again once⟩
      · exact congrArg (· + 1) agrees.count
      · rintro now_ earlier same
        exact (List.cons.inj same).1

end Account

/-! ### Transmissions -/

/-- Only an envelope that is due is transmitted. -/
theorem transmission_due (input : Input) (self : PittacusGossip) {envelope : MessageEnvelopeOut}
    {now : Nat}
    (shown : (envelope, now) ∈ (gossipStep input self).events.filterMap Event.transmission) :
    envelope.Due now := by
  have silent : ¬input.Sends → envelope.Due now := by
    intro handles
    rw [((carries_work Scope.any).step input.within_any handles self).1] at shown
    exact absurd shown List.not_mem_nil
  cases input with
  | processSend times results =>
    obtain ⟨turns, round⟩ := processSend_round times results self
    rw [show (gossipStep (.processSend times results) self).events.filterMap Event.transmission = _
      from round.transmitted] at shown
    obtain ⟨⟨queued, fate⟩, member, read⟩ := List.mem_filterMap.mp shown
    -- Of the turns in a round only those that sent show a transmission.
    cases fate with
    | sent now_ =>
      cases read
      exact round.due _ member now rfl
    | waits => cases read
    | leaves => cases read
  | _ => exact silent id

/-- What a call transmits: each queued envelope at most once, and as many as it says. -/
structure Punctual (self : PittacusGossip) (input : Input) : Prop where
  /-- The envelopes transmitted are some of those queued, in their order. -/
  once : (((gossipStep input self).events.filterMap Event.transmission).map Prod.fst).Sublist
    self.outboundMessages
  answer : input.Sends → 0 ≤ (gossipStep input self).value → (gossipStep input self).value =
    ((gossipStep input self).events.filterMap Event.transmission).length

/-- The envelopes transmitted in some turns are those of some of the turns. -/
theorem transmitted_sublist (turns : List (MessageEnvelopeOut × Fate)) :
    ((turns.filterMap turnTransmission).map Prod.fst).Sublist (turns.map Prod.fst) := by
  induction turns with
  | nil => exact .slnil
  | cons turn rest ih =>
    obtain ⟨envelope, fate⟩ := turn
    -- Only a turn that sent shows its envelope; the others are left out.
    cases fate with
    | sent now => exact ih.cons_cons envelope
    | waits => exact ih.cons envelope
    | leaves => exact ih.cons envelope

/-- Every call is punctual. -/
theorem gossipStep_punctual (self : PittacusGossip) (input : Input) : Punctual self input := by
  -- Calls other than a round of sending transmit nothing.
  have silent : ¬input.Sends → Punctual self input := by
    intro handles
    refine ⟨?_, fun sends => absurd sends handles⟩
    rw [((carries_work Scope.any).step input.within_any handles self).1]
    exact List.nil_sublist _
  cases input with
  | processSend times results =>
    obtain ⟨turns, round⟩ := processSend_round times results self
    have shown : (gossipStep (.processSend times results) self).events.filterMap
        Event.transmission = turns.filterMap turnTransmission := round.transmitted
    refine ⟨?_, fun _ answered => ?_⟩
    · rw [shown, ← round.found]
      exact transmitted_sublist turns
    · rw [shown, ← Nat.zero_add (turns.filterMap turnTransmission).length]
      exact round.answer answered
  | _ => exact silent id

/-! ### Runs -/

/-- What holds of a ledger along a run. -/
structure Ledger.Disciplined (ledger : Ledger) : Prop where
  opened : ∀ account ∈ ledger.opened, account.Agrees
  closed : ∀ account ∈ ledger.closed, account.Disciplined

/-- A call keeps a ledger disciplined. -/
theorem Ledger.Disciplined.step {before after : Ledger} (disciplined : before.Disciplined)
    {input : Input} {self : PittacusGossip}
    (follows : before.Follows (gossipStep input self).events
      (gossipStep input self).state.outboundMessages after) : after.Disciplined := by
  obtain ⟨turns, fresh, entered⟩ := follows
  have agrees : ∀ turn ∈ turns, turn.1.Agrees := by
    intro turn member
    refine disciplined.opened _ ?_
    rw [← entered.found]
    exact List.mem_map_of_mem member
  -- Whatever is entered was shown by an event, and was due.
  have due : ∀ turn ∈ turns, ∀ now, turn.2 = .sent now → turn.1.envelope.Due now := by
    intro turn member now sent
    refine transmission_due input self ?_
    rw [entered.shown]
    refine List.mem_filterMap.mpr ⟨Account.turn turn, List.mem_map_of_mem member, ?_⟩
    simp [turnTransmission, Account.turn, sent, Fate.reading]
  constructor
  · rw [entered.opened]
    refine List.forall_mem_append.mpr ⟨fun account carried => ?_, fun account new => ?_⟩
    · obtain ⟨turn, member, left⟩ := List.mem_filterMap.mp carried
      exact (agrees turn member).carried (due turn member) left
    · obtain ⟨unsent, made⟩ := entered.made account new
      exact made.agrees unsent
  · rw [entered.closed]
    refine List.forall_mem_append.mpr ⟨disciplined.closed, fun account settled => ?_⟩
    obtain ⟨turn, member, left⟩ := List.mem_filterMap.mp settled
    unfold Account.settled at left
    split at left
    · cases left
    · cases left
      exact (agrees turn member).disciplined (due turn member)

/-- So does a run. -/
theorem Ledger.Disciplined.run {inputs : List Input} {self : PittacusGossip} {first last : Ledger}
    (disciplined : first.Disciplined) (kept : first.Kept inputs self last) : last.Disciplined := by
  induction inputs generalizing self first with
  | nil =>
    subst kept
    exact disciplined
  | cons input rest ih =>
    obtain ⟨next, follows, later⟩ := kept
    exact ih (disciplined.step follows) later

/-- The empty ledger is disciplined. -/
theorem Ledger.empty_disciplined : Ledger.empty.Disciplined :=
  ⟨List.forall_mem_nil _, List.forall_mem_nil _⟩

/--
In every run, whatever the clock and the socket do, envelopes are retried with discipline.

However the transmissions are entered call by call into the accounts of the queued envelopes, no
account exceeds the attempts of its envelope, and consecutive entries lie the interval apart.
-/
theorem retry_discipline (setup : NodeSetup) (inputs : List Input) :
    (∃ ledger, Ledger.empty.Kept inputs setup.node ledger) ∧
    (∀ ledger, Ledger.empty.Kept inputs setup.node ledger →
      (∀ account ∈ ledger.opened ++ ledger.closed, account.Disciplined) ∧
      ∀ account ∈ ledger.opened, account.envelope.message.Replies → account.sentAt = []) ∧
    Machine.Along gossipStep Punctual inputs setup.node := by
  refine ⟨Ledger.exists_kept inputs rfl, fun ledger kept => ?_, ?_⟩
  · have disciplined := Ledger.empty_disciplined.run kept
    refine ⟨List.forall_mem_append.mpr ⟨fun account opened => ?_, disciplined.closed⟩,
      fun account opened replies => ?_⟩
    · -- An account that is still open reads like one that is closed without a transmission.
      exact @Account.Agrees.disciplined account .waits (disciplined.opened account opened)
        fun now other => by cases other
    · have agrees := disciplined.opened account opened
      exact agrees.unsent (by rw [agrees.attempts, replies.once])
  · exact Machine.along_iff.mpr fun earlier input _ _ => gossipStep_punctual _ input

/-- A round of sending at a single reading of the clock, with a socket that takes everything. -/
def sendAt (now : Nat) : Input := .processSend (fun _ => now) (fun _ => 0)

/-- A node introduces itself to a seed node that does not answer. -/
def unanswered : List Input := [.join [loopback 2], sendAt 100, sendAt 5000, sendAt 20100]

/-- The introduction is repeated once the interval is over, and not before. -/
theorem retry_discipline_unanswered :
    ((Machine.trace gossipStep unanswered (localSetup 1).node).filterMap
        Event.transmission).map Prod.snd = [100, 20100] ∧
      ∃ ledger, Ledger.empty.Kept unanswered (localSetup 1).node ledger ∧
        ∀ account ∈ ledger.opened ++ ledger.closed, account.Disciplined := by
  obtain ⟨⟨ledger, kept⟩, disciplined, -⟩ := retry_discipline (localSetup 1) unanswered
  exact ⟨by decide +kernel, ledger, kept, (disciplined ledger kept).1⟩

end Pittacus
