import Pittacus.Gossip.Api

/-! What a round of sending does, one envelope at a time. -/

namespace Pittacus

open Routine

/-! ### Turns -/

/--
A walk along the rest of the outbound queue, with the envelopes passed over in front of it.

Each envelope has one turn, which ends in one of seven ways.
-/
inductive Walk (times : Nat → Nat) (results : Nat → Int) :
    (exhausted : Option MessageEnvelopeOut) → (readings sent : Nat) →
    (passed queue : List MessageEnvelopeOut) → (self : PittacusGossip) →
    (ran : Outcome PittacusGossip Event Int) → Prop
  /-- The end of the queue is reached. -/
  | done (exhausted : Option MessageEnvelopeOut) (readings sent : Nat)
    (passed : List MessageEnvelopeOut) (self : PittacusGossip) :
    Walk times results exhausted readings sent passed [] self ⟨(sent : Int), self, []⟩
  /-- The envelope is dropped with the exhausted one, whose recipient it shares. -/
  | dropped {last current : MessageEnvelopeOut} {readings sent : Nat}
    {passed rest : List MessageEnvelopeOut} {self : PittacusGossip}
    {ran : Outcome PittacusGossip Event Int}
    (shares : sharesRecipient self.unset current last = true)
    (walk : Walk times results (some last) readings sent passed rest
      { self with outboundMessages := passed ++ rest } ran) :
    Walk times results (some last) readings sent passed (current :: rest) self
      ⟨ran.value, ran.state, [.remove current .sameRecipient] ++ ran.events⟩
  /-- The envelope was tried as often as it may be, and its recipient is given up. -/
  | givenUp {exhausted : Option MessageEnvelopeOut} {current : MessageEnvelopeOut}
    {readings sent : Nat} {passed rest : List MessageEnvelopeOut} {self : PittacusGossip}
    {ran : Outcome PittacusGossip Event Int}
    (tried : current.maxAttempts ≤ current.attemptNum) (repeated : 1 < current.maxAttempts)
    (walk : Walk times results (some current) readings sent passed rest
      { self with
        outboundMessages := passed ++ rest
        members := clusterMemberSetRemoveByAddr self.unset self.members
          (Decoder.memoryOf current.recipient self.unset) current.recipient.length } ran) :
    Walk times results exhausted readings sent passed (current :: rest) self
      ⟨ran.value, ran.state, [.remove current .exhausted] ++ ran.events⟩
  /-- The envelope was tried, and is not to be tried more than once. -/
  | spent {exhausted : Option MessageEnvelopeOut} {current : MessageEnvelopeOut}
    {readings sent : Nat} {passed rest : List MessageEnvelopeOut} {self : PittacusGossip}
    {ran : Outcome PittacusGossip Event Int}
    (tried : current.maxAttempts ≤ current.attemptNum) (once : ¬1 < current.maxAttempts)
    (walk : Walk times results none readings sent passed rest
      { self with outboundMessages := passed ++ rest } ran) :
    Walk times results exhausted readings sent passed (current :: rest) self
      ⟨ran.value, ran.state, [.remove current .exhausted] ++ ran.events⟩
  /-- The envelope is not due yet. -/
  | waits {exhausted : Option MessageEnvelopeOut} {current : MessageEnvelopeOut}
    {readings sent : Nat} {passed rest : List MessageEnvelopeOut} {self : PittacusGossip}
    {ran : Outcome PittacusGossip Event Int}
    (walk : Walk times results none (readings + 1) sent (passed ++ [current]) rest self ran) :
    Walk times results exhausted readings sent passed (current :: rest) self ran
  /-- The socket refuses the envelope, and the walk is broken off. -/
  | refused {exhausted : Option MessageEnvelopeOut} {current : MessageEnvelopeOut}
    {readings sent : Nat} {passed rest : List MessageEnvelopeOut} {self : PittacusGossip}
    (failed : results sent < 0) :
    Walk times results exhausted readings sent passed (current :: rest) self
      ⟨PittacusError.writeFailed.code,
        { self with outputBuffer := patchSequenceNum self.outputBuffer current },
        [.sendTo current
          (envelopeBytes (patchSequenceNum self.outputBuffer current) current)
          (times readings) (results sent)]⟩
  /-- The envelope is sent for the only time. -/
  | sentOnce {exhausted : Option MessageEnvelopeOut} {current : MessageEnvelopeOut}
    {readings sent : Nat} {passed rest : List MessageEnvelopeOut} {self : PittacusGossip}
    {ran : Outcome PittacusGossip Event Int}
    (left : current.attemptNum < current.maxAttempts)
    (time : current.attemptNum = 0 ∨
      current.attemptTs + messageRetryInterval ≤ times readings)
    (written : 0 ≤ results sent) (last : current.maxAttempts ≤ 1)
    (walk : Walk times results none (readings + 1) (sent + 1) passed rest
      { self with
        outputBuffer := patchSequenceNum self.outputBuffer current
        outboundMessages := passed ++ rest } ran) :
    Walk times results exhausted readings sent passed (current :: rest) self
      ⟨ran.value, ran.state, [.sendTo current
          (envelopeBytes (patchSequenceNum self.outputBuffer current) current)
          (times readings) (results sent),
        .remove { current with
          attemptTs := times readings, attemptNum := current.attemptNum + 1 } .sentOnce]
        ++ ran.events⟩
  /-- The envelope is sent, and stays in its place to be sent again. -/
  | attempted {exhausted : Option MessageEnvelopeOut} {current : MessageEnvelopeOut}
    {readings sent : Nat} {passed rest : List MessageEnvelopeOut} {self : PittacusGossip}
    {ran : Outcome PittacusGossip Event Int}
    (left : current.attemptNum < current.maxAttempts)
    (time : current.attemptNum = 0 ∨
      current.attemptTs + messageRetryInterval ≤ times readings)
    (written : 0 ≤ results sent) (again : ¬current.maxAttempts ≤ 1)
    (walk : Walk times results none (readings + 1) (sent + 1)
      (passed ++ [{ current with
        attemptTs := times readings, attemptNum := current.attemptNum + 1 }]) rest
      { self with
        outputBuffer := patchSequenceNum self.outputBuffer current
        outboundMessages := passed ++ { current with
          attemptTs := times readings, attemptNum := current.attemptNum + 1 } :: rest } ran) :
    Walk times results exhausted readings sent passed (current :: rest) self
      ⟨ran.value, ran.state, [.sendTo current
          (envelopeBytes (patchSequenceNum self.outputBuffer current) current)
          (times readings) (results sent)] ++ ran.events⟩

/-- The loop over the outbound queue walks along it. -/
theorem processSendFrom_walk (times : Nat → Nat) (results : Nat → Int)
    (exhausted : Option MessageEnvelopeOut) (readings sent : Nat)
    (passed queue : List MessageEnvelopeOut) (self : PittacusGossip) :
    Walk times results exhausted readings sent passed queue self
      (processSendFrom times results exhausted readings sent passed queue self) := by
  -- Every branch of the loop but one goes on with the rest of the queue.
  induction queue generalizing exhausted readings sent passed self with
  | nil => exact .done exhausted readings sent passed self
  | cons current rest ih =>
    simp only [processSendFrom, get_bind_run, ite_run, modify_bind_run, emit_bind_run]
    split
    · rename_i shared
      cases exhausted with
      | none => cases shared
      | some last => exact .dropped shared (ih _ _ _ _ _)
    split
    · rename_i tried
      split
      · rename_i repeated
        exact .givenUp tried repeated (ih _ _ _ _ _)
      · rename_i once
        exact .spent tried once (ih _ _ _ _ _)
    rename_i left
    split
    · exact .waits (ih _ _ _ _ _)
    rename_i due
    have time : current.attemptNum = 0 ∨
        current.attemptTs + messageRetryInterval ≤ times readings := by omega
    split
    · rename_i failed
      exact .refused failed
    rename_i written
    split
    · rename_i last
      exact .sentOnce (Nat.lt_of_not_le left) time (Int.not_lt.mp written) last (ih _ _ _ _ _)
    · rename_i again
      exact .attempted (Nat.lt_of_not_le left) time (Int.not_lt.mp written) again (ih _ _ _ _ _)

/-! ### What a round keeps -/

/--
What a round of sending has to keep, and what its events have to satisfy.

Envelopes leave the queue, or are sent and counted as attempted; members may be given up on.
-/
structure KeepsSending (kept : PittacusGossip → Prop) (shown : Event → Prop) : Prop where
  drop : ∀ self front current back, kept self → self.outboundMessages = front ++ current :: back →
    kept { self with outboundMessages := front ++ back }
  forget : ∀ self address addressSize, kept self →
    kept { self with
      members := clusterMemberSetRemoveByAddr self.unset self.members address addressSize }
  send : ∀ self front current back now result, kept self →
    self.outboundMessages = front ++ current :: back →
    kept { self with outputBuffer := patchSequenceNum self.outputBuffer current } ∧
      shown (.sendTo current
        (envelopeBytes (patchSequenceNum self.outputBuffer current) current) now result)
  attempt : ∀ self front current back now, kept self →
    self.outboundMessages = front ++ current :: back →
    kept { self with
      outboundMessages := front ++
        { current with attemptTs := now, attemptNum := current.attemptNum + 1 } :: back }
  remove : ∀ envelope reason, shown (.remove envelope reason)

/-- What each turn of the walk keeps, the whole round keeps. -/
theorem KeepsSending.walk {kept : PittacusGossip → Prop} {shown : Event → Prop}
    (keeps : KeepsSending kept shown) {times : Nat → Nat} {results : Nat → Int}
    {exhausted : Option MessageEnvelopeOut} {readings sent : Nat}
    {passed queue : List MessageEnvelopeOut} {self : PittacusGossip}
    {ran : Outcome PittacusGossip Event Int}
    (walk : Walk times results exhausted readings sent passed queue self ran) (holds : kept self)
    (whole : self.outboundMessages = passed ++ queue) :
    kept ran.state ∧ ∀ event ∈ ran.events, shown event := by
  -- The envelopes passed over stay in front of the current one, and the walk goes on behind it.
  induction walk with
  | done => exact ⟨holds, List.forall_mem_nil _⟩
  | dropped _ _ ih =>
    obtain ⟨ended, later⟩ := ih (keeps.drop _ _ _ _ holds whole) rfl
    exact ⟨ended, List.forall_mem_cons.mpr ⟨keeps.remove _ _, later⟩⟩
  | givenUp _ _ _ ih =>
    obtain ⟨ended, later⟩ := ih (keeps.forget _ _ _ (keeps.drop _ _ _ _ holds whole)) rfl
    exact ⟨ended, List.forall_mem_cons.mpr ⟨keeps.remove _ _, later⟩⟩
  | spent _ _ _ ih =>
    obtain ⟨ended, later⟩ := ih (keeps.drop _ _ _ _ holds whole) rfl
    exact ⟨ended, List.forall_mem_cons.mpr ⟨keeps.remove _ _, later⟩⟩
  | waits _ ih => exact ih holds (by rw [whole, List.append_assoc]; rfl)
  | refused _ =>
    obtain ⟨patched, shows⟩ := keeps.send _ _ _ _ _ _ holds whole
    exact ⟨patched, List.forall_mem_singleton.mpr shows⟩
  | sentOnce _ _ _ _ _ ih =>
    obtain ⟨patched, shows⟩ := keeps.send _ _ _ _ _ _ holds whole
    obtain ⟨ended, later⟩ := ih (keeps.drop _ _ _ _ patched whole) rfl
    exact ⟨ended, List.forall_mem_cons.mpr ⟨shows,
      List.forall_mem_cons.mpr ⟨keeps.remove _ _, later⟩⟩⟩
  | attempted _ _ _ _ _ ih =>
    obtain ⟨patched, shows⟩ := keeps.send _ _ _ _ _ _ holds whole
    obtain ⟨ended, later⟩ := ih (keeps.attempt _ _ _ _ _ patched whole)
      (by rw [List.append_assoc]; rfl)
    exact ⟨ended, List.forall_mem_cons.mpr ⟨shows, later⟩⟩

/-- What each turn keeps, sending everything that is due keeps. -/
theorem KeepsSending.processSend {kept : PittacusGossip → Prop} {shown : Event → Prop}
    (keeps : KeepsSending kept shown) (times : Nat → Nat) (results : Nat → Int)
    (self : PittacusGossip) (holds : kept self) :
    kept (pittacusGossipProcessSend times results self).state ∧
      ∀ event ∈ (pittacusGossipProcessSend times results self).events, shown event := by
  rw [pittacusGossipProcessSend, get_bind_run, ite_run]
  split
  · exact ⟨holds, List.forall_mem_nil _⟩
  · exact keeps.walk (processSendFrom_walk times results none 0 0 [] self.outboundMessages self)
      holds rfl

end Pittacus
