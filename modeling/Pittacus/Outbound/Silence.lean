import Pittacus.Outbound.GivingUp

/-! A member is forgotten only after a message to it was sent in vain as often as it may be. -/

namespace Pittacus

/-! ### Who is forgotten -/

/-- Putting members into a set removes nobody. -/
theorem put_keeps {members : ClusterMemberSet} (ok : members.Ok) (lists : List (List ClusterMember))
    {member : ClusterMember} (known : member ∈ members.live) :
    member ∈ (lists.foldl clusterMemberSetPut members).live := by
  induction lists generalizing members with
  | nil => exact known
  | cons list rest ih =>
    obtain ⟨ok_, live⟩ := ok.put list
    exact ih ok_ ((live member).mpr (.inl known))

/-- Whoever is removed when a recipient is given up agrees with it in the bytes that are compared. -/
theorem ClusterMemberSet.Whole.removed_mayRemove {members : ClusterMemberSet} (whole : members.Whole)
    {unset : Nat → UInt8} {envelope : MessageEnvelopeOut} {member : ClusterMember}
    (known : member ∈ members.live) (gone : member ∉ (Pittacus.forgets unset members envelope).live) :
    mayRemove unset envelope.recipient member = true := by
  rw [(whole.forgets unset envelope).2] at gone
  cases found : members.live.findIdx? (mayRemove unset envelope.recipient) with
  | none =>
    rw [found] at gone
    exact absurd known gone
  | some place =>
    rw [found] at gone
    obtain ⟨inside, here, -⟩ := List.findIdx?_eq_some_iff_getElem.mp found
    -- Everybody but the one at that place is still there.
    have parts := List.getElem_cons_eraseIdx_perm inside
    rcases List.mem_cons.mp (parts.mem_iff.mpr known) with same | stays
    · rw [same]
      exact here
    · exact absurd stays gone

/-- Of several recipients given up, one agrees with each member that is removed. -/
theorem ClusterMemberSet.Whole.exists_mayRemove {envelopes : List MessageEnvelopeOut}
    {members : ClusterMemberSet} (whole : members.Whole) {unset : Nat → UInt8}
    {member : ClusterMember} (known : member ∈ members.live)
    (gone : member ∉ (envelopes.foldl (Pittacus.forgets unset) members).live) :
    ∃ envelope ∈ envelopes, mayRemove unset envelope.recipient member = true := by
  induction envelopes generalizing members with
  | nil => exact absurd known gone
  | cons envelope rest ih =>
    by_cases stays : member ∈ (Pittacus.forgets unset members envelope).live
    · obtain ⟨other, listed, meant⟩ := ih (whole.forgets unset envelope).1 stays gone
      exact ⟨other, List.mem_cons_of_mem _ listed, meant⟩
    · exact ⟨envelope, List.mem_cons_self, whole.removed_mayRemove known stays⟩

/-- Only a round of sending forgets anybody, together with an envelope it gives up. -/
theorem forgotten_with {self : PittacusGossip} (whole : self.members.Whole) {input : Input}
    {member : ClusterMember} (known : member ∈ self.members.live)
    (gone : member ∉ (gossipStep input self).state.members.live) :
    ∃ times results, input = .processSend times results ∧
      ∃ envelope ∈ self.givesUp (.processSend times results),
        mayRemove self.unset envelope.recipient member = true := by
  have keeps : ¬input.Sends → member ∈ (gossipStep input self).state.members.live := by
    intro handles
    obtain ⟨lists, members, -⟩ := (enlists_work Scope.any).step input.within_any handles self
    rw [members]
    exact put_keeps whole.ok lists known
  cases input with
  | processSend times results =>
    rw [(processSend_forgets times results self).1] at gone
    exact ⟨times, results, rfl, whole.exists_mayRemove known gone⟩
  | _ => exact absurd (keeps id) gone

/-! ### What was tried before -/

/-- The account of an exhausted envelope lists as many transmissions as there are attempts. -/
theorem Account.Agrees.all_tried {account : Account} (agrees : account.Agrees)
    (tried : account.envelope.Exhausted) (repeated : 1 < account.envelope.maxAttempts) :
    account.sentAt.length = messageRetryAttempts := by
  have count := agrees.count
  have few := agrees.few
  have attempts := agrees.attempts
  simp only [MessageEnvelopeOut.Exhausted] at tried
  -- What is to be acknowledged may be tried as often as any message may be.
  have most : messageMaxAttempts account.envelope.message = messageRetryAttempts := by
    rw [attempts] at repeated
    cases message : account.envelope.message with
    | welcome msg | ack msg =>
      rw [message] at repeated
      exact absurd repeated (Nat.lt_irrefl 1)
    | _ => rfl
  omega

/--
A member is forgotten only after a message for its address was sent in vain as often as it may be.

The transmissions of the message lie the retry interval apart. The addresses agree in the bytes the
removal compares.
-/
theorem forgotten_after_silence (setup : NodeSetup) (earlier : List Input) (input : Input)
    (member : ClusterMember) :
    let self := Machine.run gossipStep earlier setup.node
    member ∈ self.members.live → member ∉ (gossipStep input self).state.members.live →
      input.Sends ∧ ∃ ledger, Ledger.empty.Kept earlier setup.node ledger ∧
        ∃ account ∈ ledger.opened, account.sentAt.length = messageRetryAttempts ∧
          Spaced account.sentAt ∧
            mayRemove self.unset account.envelope.recipient member = true := by
  intro self known gone
  obtain ⟨times, results, rfl, envelope, given, meant⟩ :=
    forgotten_with (run_whole setup earlier) known gone
  refine ⟨trivial, ?_⟩
  obtain ⟨-, waited, tried, repeated⟩ := givesUp_exhausted given
  obtain ⟨ledger, kept⟩ := @Ledger.exists_kept earlier setup.node Ledger.empty rfl
  have queued : envelope ∈ ledger.opened.map Account.envelope := by
    rw [kept.agrees rfl]
    exact waited
  -- The account of the envelope that was given up tells when it was transmitted.
  obtain ⟨account, opened, rfl⟩ := List.mem_map.mp queued
  have agrees := (Ledger.empty_disciplined.run kept).opened account opened
  exact ⟨ledger, kept, account, opened, agrees.all_tried tried repeated, agrees.spaced, meant⟩

/-- The second of two members is forgotten after three transmissions of a payload. -/
theorem forgotten_after_silence_three :
    let self := Machine.run gossipStep threeAttempts (localSetup 1).node
    ∃ ledger, Ledger.empty.Kept threeAttempts (localSetup 1).node ledger ∧
      ∃ account ∈ ledger.opened, account.sentAt.length = messageRetryAttempts ∧
        Spaced account.sentAt ∧
          mayRemove self.unset account.envelope.recipient (localMember 3) = true :=
  (forgotten_after_silence (localSetup 1) threeAttempts (sendAt 30000) (localMember 3)
    (by decide +kernel) (by decide +kernel)).2

end Pittacus
