import Mathlib.Data.List.TakeWhile
import Pittacus.Outbound.LinkedQueue

/-! A round of sending walks the linked queue as it walks the list, and never astray. -/

namespace Pittacus

open Routine

/-- Giving up on a recipient drops the envelopes that follow for it, and then goes on as before. -/
theorem processSendFrom_given_up (times : Nat → Nat) (results : Nat → Int)
    (exhausted : MessageEnvelopeOut) (readings sent : Nat)
    (passed queue : List MessageEnvelopeOut) (self : PittacusGossip)
    (whole : self.outboundMessages = passed ++ queue) :
    ∃ resumed left,
      left = (queue.dropWhile fun envelope => sharesRecipient self.unset envelope exhausted) ∧
      resumed.unset = self.unset ∧ resumed.outboundMessages = passed ++ left ∧
      (processSendFrom times results (some exhausted) readings sent passed queue self).value =
        (processSendFrom times results none readings sent passed left resumed).value ∧
      (processSendFrom times results (some exhausted) readings sent passed queue self).state =
        (processSendFrom times results none readings sent passed left resumed).state := by
  -- The envelopes dropped leave no trace but the shorter queue.
  induction queue generalizing self with
  | nil => exact ⟨self, [], rfl, rfl, whole, rfl, rfl⟩
  | cons current rest ih =>
    by_cases shared : sharesRecipient self.unset current exhausted = true
    · obtain ⟨resumed, left, cut, unset, whole_, value, state⟩ :=
        ih { self with outboundMessages := passed ++ rest } rfl
      refine ⟨resumed, left, ?_, unset, whole_, ?_, ?_⟩
      · rw [cut]
        simp only [List.dropWhile_cons, shared, if_true]
      · rw [← value, processSendFrom]
        simp only [get_bind_run, ite_run, modify_bind_run, emit_bind_run, Option.any_some, shared,
          if_true]
      · rw [← state, processSendFrom]
        simp only [get_bind_run, ite_run, modify_bind_run, emit_bind_run, Option.any_some, shared,
          if_true]
    · have alike : processSendFrom times results (some exhausted) readings sent passed
          (current :: rest) self =
          processSendFrom times results none readings sent passed (current :: rest) self := by
        simp only [processSendFrom, get_bind_run, ite_run, Option.any_some, Option.any_none, shared]
        rfl
      refine ⟨self, current :: rest, ?_, rfl, whole, congrArg Outcome.value alike,
        congrArg Outcome.state alike⟩
      simp only [List.dropWhile_cons, shared]
      rfl

namespace Linked

open LinkedList

variable {list : LinkedList MessageEnvelopeOut}

/-- Whether an envelope goes to the recipient of an exhausted one. -/
def goesTo (unset : Nat → UInt8) (exhausted : MessageEnvelopeOut)
    (node : Nat × MessageEnvelopeOut) : Bool :=
  sharesRecipient unset node.2 exhausted

/-- The envelopes behind an exhausted one are removed until one goes to another recipient. -/
theorem removeSameRecipient_run (unset : Nat → UInt8) {front back : Nodes} {address : Nat}
    {envelope : MessageEnvelopeOut}
    (represents : list.Represents (front ++ (address, envelope) :: back)) {fuel : Nat}
    (enough : back.length ≤ fuel) :
    ∃ after, removeSameRecipient unset address fuel (entry back none) list =
        some ((entry (back.dropWhile (goesTo unset envelope)) none,
          (back.takeWhile (goesTo unset envelope)).map Prod.fst), after) ∧
      after.Represents
        (front ++ (address, envelope) :: back.dropWhile (goesTo unset envelope)) := by
  induction back generalizing list fuel with
  | nil =>
    refine ⟨list, ?_, represents⟩
    cases fuel <;> rfl
  | cons node rest ih =>
    obtain ⟨next, following⟩ := node
    obtain ⟨less, rfl, enough_⟩ := exists_less enough
    have stored := represents.splits.stored
    -- Seen from the envelope at hand, the exhausted one is the last in front of it.
    have shifted : list.Represents ((front ++ [(address, envelope)]) ++ (next, following) :: rest) :=
      by rwa [List.append_assoc]
    rw [entry_cons, removeSameRecipient, Access.load_bind shifted.splits.stored,
      Access.load_bind stored]
    by_cases shared : sharesRecipient unset following envelope = true
    · have here : goesTo unset envelope (next, following) = true := shared
      obtain ⟨closed, removed, represents_⟩ := gossipEnvelopeRemove_run shifted
      rw [List.append_assoc] at represents_
      obtain ⟨after, ran, left⟩ := ih represents_ enough_
      rw [List.dropWhile_cons_of_pos here, List.takeWhile_cons_of_pos here]
      refine ⟨after, ?_, left⟩
      simp [shared, Access.bind_of_run removed, Access.bind_of_run ran]
    · have here : ¬goesTo unset envelope (next, following) = true := shared
      rw [List.dropWhile_cons_of_neg here, List.takeWhile_cons_of_neg here]
      refine ⟨list, ?_, represents⟩
      simp [shared]

/-- A walk over some envelopes ends with an answer and a queue, and visits them in their order. -/
def Mirrors (ran : Option ((Int × List Nat) × LinkedList MessageEnvelopeOut)) (rest : Nodes)
    (value : Int) (queue : List MessageEnvelopeOut) : Prop :=
  ∃ visited after kept, ran = some ((value, visited), after) ∧ after.Represents kept ∧
    kept.map Prod.snd = queue ∧ visited <+: rest.map Prod.fst

/-- Envelopes visited first stand in front of those a walk has still to visit. -/
theorem Mirrors.visiting {walk : Access MessageEnvelopeOut (Int × List Nat)} {rest : Nodes}
    {value : Int} {queue : List MessageEnvelopeOut} (mirrors : Mirrors (walk list) rest value queue)
    (front : Nodes) :
    Mirrors (Linked.visiting (front.map Prod.fst) walk list) (front ++ rest) value queue := by
  obtain ⟨visited, after, kept, ran, represents, left, ahead⟩ := mirrors
  refine ⟨front.map Prod.fst ++ visited, after, kept, ?_, represents, left, ?_⟩
  · rw [Linked.visiting, Access.bind_of_run ran]
    rfl
  · rw [List.map_append]
    exact (List.prefix_append_right_inj _).mpr ahead

/-- The walk along the linked queue does what the walk along the list does. -/
theorem processSendFrom_run (times : Nat → Nat) (results : Nat → Int) (fuel readings sent : Nat)
    {passed rest : Nodes} (represents : list.Represents (passed ++ rest))
    (enough : rest.length ≤ fuel) (self : PittacusGossip)
    (whole : self.outboundMessages = (passed ++ rest).map Prod.snd) :
    Mirrors (processSendFrom self.unset times results fuel readings sent (entry rest none) list)
      rest
      (Pittacus.processSendFrom times results none readings sent (passed.map Prod.snd)
        (rest.map Prod.snd) self).value
      (Pittacus.processSendFrom times results none readings sent (passed.map Prod.snd)
        (rest.map Prod.snd) self).state.outboundMessages := by
  -- Each round of the loop passes over one envelope, and perhaps over those that go with it.
  induction fuel generalizing readings sent passed rest list self with
  | zero =>
    obtain rfl := List.length_eq_zero_iff.mp (Nat.le_zero.mp enough)
    exact ⟨[], list, passed ++ [], rfl, represents, whole.symm, List.nil_prefix⟩
  | succ fuel ih =>
    cases rest with
    | nil => exact ⟨[], list, passed ++ [], rfl, represents, whole.symm, List.nil_prefix⟩
    | cons node rest =>
      obtain ⟨address, envelope⟩ := node
      have shorter : rest.length ≤ fuel := Nat.le_of_succ_le_succ enough
      rw [entry_cons, processSendFrom, Access.load_bind represents.splits.stored]
      simp only [List.map_cons, Pittacus.processSendFrom, get_bind_run, Routine.ite_run,
        modify_bind_run, emit_bind_run, Option.any_none, Bool.false_eq_true, if_false]
      by_cases tried : envelope.attemptNum ≥ envelope.maxAttempts
      · simp only [if_pos tried]
        by_cases several : envelope.maxAttempts > 1
        · -- Given up on, with those behind it that go to the same recipient.
          simp only [if_pos several]
          obtain ⟨cut, skipped, left⟩ := removeSameRecipient_run self.unset represents shorter
          obtain ⟨closed, removed, represents_⟩ := gossipEnvelopeRemove_run left
          rw [Access.bind_of_run skipped, Access.bind_of_run removed]
          obtain ⟨resumed, left_, cut_, unset, whole_, value, state⟩ :=
            processSendFrom_given_up times results envelope readings sent (passed.map Prod.snd)
              (rest.map Prod.snd)
              { self with
                outboundMessages := passed.map Prod.snd ++ rest.map Prod.snd
                members := clusterMemberSetRemoveByAddr self.unset self.members
                  (Decoder.memoryOf envelope.recipient self.unset) envelope.recipient.length } rfl
          rw [List.dropWhile_map] at cut_
          subst cut_
          have fewer := (List.length_dropWhile_le (goesTo self.unset envelope) rest).trans shorter
          have later := ih readings sent represents_ fewer resumed
            (whole_.trans List.map_append.symm)
          have all := later.visiting
            ((address, envelope) :: rest.takeWhile (goesTo self.unset envelope))
          rw [List.cons_append, List.takeWhile_append_dropWhile] at all
          rw [unset] at all
          rw [value, state]
          exact all
        · simp only [if_neg several]
          obtain ⟨closed, removed, represents_⟩ := gossipEnvelopeRemove_run represents
          rw [Access.bind_of_run removed]
          exact (ih readings sent represents_ shorter
            { self with outboundMessages := passed.map Prod.snd ++ rest.map Prod.snd }
            List.map_append.symm).visiting [(address, envelope)]
      simp only [if_neg tried]
      have moved : list.Represents ((passed ++ [(address, envelope)]) ++ rest) := by
        rwa [List.append_assoc]
      by_cases early : envelope.attemptNum ≠ 0 ∧
          envelope.attemptTs + messageRetryInterval > times readings
      · -- Passed over.
        simp only [if_pos early]
        have later := (ih (readings + 1) sent moved shorter self (by
          rw [whole, List.append_assoc]; rfl)).visiting [(address, envelope)]
        rw [List.map_append] at later
        exact later
      simp only [if_neg early]
      by_cases refused : results sent < 0
      · simp only [if_pos refused]
        exact ⟨[address], list, _, rfl, represents, whole.symm, by simp⟩
      simp only [if_neg refused]
      obtain ⟨sent_, written, attempted⟩ := represents.revalue fun envelope =>
        { envelope with attemptTs := times readings, attemptNum := envelope.attemptNum + 1 }
      rw [Access.bind_of_run written]
      by_cases last : envelope.maxAttempts ≤ 1
      · simp only [if_pos last]
        obtain ⟨closed, removed, represents_⟩ := gossipEnvelopeRemove_run attempted
        rw [Access.bind_of_run removed]
        exact (ih (readings + 1) (sent + 1) represents_ shorter
          { self with
            outputBuffer := patchSequenceNum self.outputBuffer envelope
            outboundMessages := passed.map Prod.snd ++ rest.map Prod.snd }
          List.map_append.symm).visiting [(address, envelope)]
      · -- It stays in its place, to be sent again.
        simp only [if_neg last]
        rw [List.append_cons] at attempted
        have later := (ih (readings + 1) (sent + 1) attempted shorter
          { self with
            outputBuffer := patchSequenceNum self.outputBuffer envelope
            outboundMessages := passed.map Prod.snd ++
              { envelope with
                attemptTs := times readings
                attemptNum := envelope.attemptNum + 1 } :: rest.map Prod.snd }
          (by simp)).visiting [(address, envelope)]
        rw [List.map_append] at later
        exact later

end Linked

end Pittacus
