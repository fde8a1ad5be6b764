import Pittacus.Outbound.Retries
import Pittacus.Ownership.Runs

/-! How soon after its last transmission an envelope is given up. -/

namespace Pittacus

open Routine

/-! ### Giving up -/

/-- The envelope an event gives up because nobody acknowledged it. -/
def Event.gaveUp : Event → Option MessageEnvelopeOut
  | .remove envelope .exhausted => if 1 < envelope.maxAttempts then some envelope else none
  | _ => none

/-- The envelopes a call gives up because nobody acknowledged them. -/
def PittacusGossip.givesUp (self : PittacusGossip) (input : Input) : List MessageEnvelopeOut :=
  (gossipStep input self).events.filterMap Event.gaveUp

/-- The last transmission entered in an account lies the retry interval back. -/
def Account.LongAgo (account : Account) (now : Nat) : Prop :=
  ∃ last earlier, account.sentAt = last :: earlier ∧ last + messageRetryInterval ≤ now

/--
What a round of sending gives up was transmitted last the retry interval before the round began.

The ledger is that of the run up to the round, which begins at its first reading of the clock.
-/
def Ledger.GivesUpLate (ledger : Ledger) (self : PittacusGossip) (times : Nat → Nat)
    (results : Nat → Int) : Prop :=
  ∀ envelope ∈ self.givesUp (.processSend times results),
    (∃ account ∈ ledger.opened, account.envelope = envelope) ∧
      ∀ account ∈ ledger.opened, account.envelope = envelope → account.LongAgo (times 0)

/--
A round of sending finds no envelope whose last attempt was just made.

This is asked of the envelopes that have to be acknowledged, and of nodes that send at all.
-/
def Patient (self : PittacusGossip) : Input → Prop
  | .processSend times _ =>
    self.exchanges = true → ∀ envelope ∈ self.outboundMessages, 1 < envelope.maxAttempts →
      envelope.Exhausted → envelope.attemptTs + messageRetryInterval ≤ times 0
  | _ => True

instance (envelope : MessageEnvelopeOut) : Decidable envelope.Exhausted :=
  inferInstanceAs (Decidable (_ ≤ _))

instance decidablePatient : ∀ self input, Decidable (Patient self input)
  | self, .processSend times _ =>
    inferInstanceAs (Decidable (self.exchanges = true → ∀ envelope ∈ self.outboundMessages,
      1 < envelope.maxAttempts → envelope.Exhausted →
        envelope.attemptTs + messageRetryInterval ≤ times 0))
  | _, .join _ | _, .sendData _ _ | _, .tick _ _ | _, .processReceive _ _ _ _ => .isTrue trivial

/-- What a round of sending gives up was queued before it, all attempts having been used up. -/
theorem givesUp_exhausted {self : PittacusGossip} {times : Nat → Nat} {results : Nat → Int}
    {envelope : MessageEnvelopeOut} (given : envelope ∈ self.givesUp (.processSend times results)) :
    self.exchanges = true ∧ envelope ∈ self.outboundMessages ∧ envelope.Exhausted ∧
      1 < envelope.maxAttempts := by
  obtain ⟨event, caused, gaveUp⟩ := List.mem_filterMap.mp given
  have removed : event = .remove envelope .exhausted ∧ 1 < envelope.maxAttempts := by
    unfold Event.gaveUp at gaveUp
    split at gaveUp
    · split at gaveUp
      · rename_i repeated
        cases gaveUp
        exact ⟨rfl, repeated⟩
      · cases gaveUp
    · cases gaveUp
  obtain ⟨rfl, repeated⟩ := removed
  obtain ⟨turns, round⟩ := processSend_round times results self
  obtain ⟨waited, tried⟩ := round.givenUp envelope caused
  refine ⟨?_, waited, tried, repeated⟩
  -- A node that does not take part in the exchange of datagrams does nothing.
  by_contra apart
  rw [gossipStep, pittacusGossipProcessSend, get_bind_run, if_pos (by simp [apart])] at caused
  exact absurd caused List.not_mem_nil

/-! ### Runs -/

/-- A ledger lists the accounts of the queue that a run ends with. -/
theorem Ledger.Kept.agrees {inputs : List Input} {self : PittacusGossip} {first last : Ledger}
    (kept : first.Kept inputs self last)
    (start : first.opened.map Account.envelope = self.outboundMessages) :
    last.opened.map Account.envelope = (Machine.run gossipStep inputs self).outboundMessages := by
  -- Each call's ledger agrees with the queue that the call leaves.
  induction inputs generalizing self first with
  | nil =>
    subst kept
    exact start
  | cons input rest ih =>
    obtain ⟨next, ⟨_, _, entered⟩, later⟩ := kept
    exact ih later entered.agrees

/-- The account of an exhausted envelope ends with the time the envelope remembers. -/
theorem Account.Agrees.exhausted {account : Account} (agrees : account.Agrees)
    (tried : account.envelope.Exhausted) (repeated : 1 < account.envelope.maxAttempts) :
    ∃ earlier, account.sentAt = account.envelope.attemptTs :: earlier := by
  have count := agrees.count
  -- An exhausted envelope has used up an attempt, and the account lists each of them.
  cases readings : account.sentAt with
  | nil =>
    rw [readings, List.length_nil] at count
    simp only [MessageEnvelopeOut.Exhausted] at tried
    omega
  | cons last earlier => exact ⟨earlier, by rw [agrees.latest last earlier readings]⟩

/--
In a run whose rounds are patient, whatever is given up was transmitted last an interval before.

The rounds have to be: nothing in the code asks for the time before it gives an envelope up.
-/
theorem gives_up_late (setup : NodeSetup) (inputs : List Input)
    (patient : Machine.Along gossipStep Patient inputs setup.node) :
    ∀ earlier times results later, inputs = earlier ++ .processSend times results :: later →
      ∀ ledger, Ledger.empty.Kept earlier setup.node ledger →
        ledger.GivesUpLate (Machine.run gossipStep earlier setup.node) times results := by
  rintro earlier times results later rfl ledger kept envelope given
  obtain ⟨exchanges, waited, tried, repeated⟩ := givesUp_exhausted given
  have interval := (Machine.along_append.mp patient).2.1 exchanges envelope waited repeated tried
  have agrees := kept.agrees rfl
  constructor
  · rw [← agrees] at waited
    exact List.mem_map.mp waited
  · -- The account names the time of the last attempt, which the round comes long after.
    rintro account opened rfl
    obtain ⟨before, readings⟩ :=
      ((Ledger.empty_disciplined.run kept).opened account opened).exhausted tried repeated
    exact ⟨_, before, readings, interval⟩

/-- Two members are sent a payload three times, at the right intervals. -/
def threeAttempts : List Input := twoMembers ++ [sendAt 10000, sendAt 20000]

/-- A round that comes an interval after the last attempt gives both members up late enough. -/
theorem gives_up_late_three :
    ((Machine.run gossipStep threeAttempts (localSetup 1).node).givesUp (sendAt 30000)).map
        MessageEnvelopeOut.recipient = [loopback 2, loopback 3] ∧
      ∀ ledger, Ledger.empty.Kept threeAttempts (localSetup 1).node ledger →
        ledger.GivesUpLate (Machine.run gossipStep threeAttempts (localSetup 1).node)
          (fun _ => 30000) (fun _ => 0) :=
  ⟨by decide +kernel,
    gives_up_late (localSetup 1) (threeAttempts ++ [sendAt 30000])
      (by decide +kernel) threeAttempts _ _ [] rfl⟩

/-- A round that comes at once gives both members up a millisecond after their last attempt. -/
theorem not_gives_up_late :
    (Machine.run gossipStep threeAttempts (localSetup 1).node).members.live
        = [localMember 2, localMember 3] ∧
      (Machine.run gossipStep (threeAttempts ++ [sendAt 20001]) (localSetup 1).node).members.live
        = [] ∧
      ∃ ledger, Ledger.empty.Kept threeAttempts (localSetup 1).node ledger ∧
        ¬ledger.GivesUpLate (Machine.run gossipStep threeAttempts (localSetup 1).node)
          (fun _ => 20001) (fun _ => 0) := by
  obtain ⟨ledger, kept⟩ := @Ledger.exists_kept threeAttempts (localSetup 1).node .empty rfl
  refine ⟨by decide +kernel, by decide +kernel, ledger, kept, fun late => ?_⟩
  have just : ∃ envelope ∈
      (Machine.run gossipStep threeAttempts (localSetup 1).node).givesUp (sendAt 20001),
        envelope.attemptTs = 20000 := by decide +kernel
  obtain ⟨envelope, given, then_⟩ := just
  obtain ⟨⟨account, opened, same⟩, long⟩ := late envelope given
  obtain ⟨last, earlier, readings, interval⟩ := long account opened same
  -- The last attempt the account remembers is the time stamped on the envelope.
  have latest := ((Ledger.empty_disciplined.run kept).opened account opened).latest _ _ readings
  rw [same, then_] at latest
  simp only [messageRetryInterval] at interval
  omega

end Pittacus
