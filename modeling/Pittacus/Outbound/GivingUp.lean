import Mathlib.Data.List.Perm.Basic
import Pittacus.Members.Ordered
import Pittacus.Outbound.Patience

/-! Whom a node gives up together with an envelope. -/

namespace Pittacus

open Routine

/-! ### Removing by address -/

/-- A set in order, with a member in every slot in use. -/
structure ClusterMemberSet.Whole (members : ClusterMemberSet) : Prop where
  ok : members.Ok
  filled : members.Filled

/-- Whether the removal of a recipient may hit a member: its address starts with the same bytes. -/
def mayRemove (unset : Nat → UInt8) (recipient : List UInt8) (member : ClusterMember) : Bool :=
  memcmpEqual (Decoder.memoryOf member.address unset) (Decoder.memoryOf recipient unset)
    recipient.length

/-- A recipient is removed from a member set. -/
def forgets (unset : Nat → UInt8) (members : ClusterMemberSet) (envelope : MessageEnvelopeOut) :
    ClusterMemberSet :=
  clusterMemberSetRemoveByAddr unset members (Decoder.memoryOf envelope.recipient unset)
    envelope.recipient.length

/-- The members with an address are gone, and those with any other address are still there. -/
structure Forgotten (recipient : List UInt8) (before after : List ClusterMember) : Prop where
  gone : ∀ member ∈ after, member.address ≠ recipient
  stays : ∀ member ∈ before, member.address ≠ recipient → member ∈ after

/-- The bytes of an address name at most one member, and name nobody by a part of an address. -/
structure NamesOne (unset : Nat → UInt8) (recipient : List UInt8) (members : List ClusterMember) :
    Prop where
  single : (members.countP fun member => member.address = recipient) ≤ 1
  whole : ∀ member ∈ members, mayRemove unset recipient member = true → member.address = recipient

instance (unset : Nat → UInt8) (recipient : List UInt8) (members : List ClusterMember) :
    Decidable (NamesOne unset recipient members) :=
  decidable_of_iff (_ ∧ _) ⟨fun both => ⟨both.1, both.2⟩, fun names => ⟨names.single, names.whole⟩⟩

/-- An address is removed when it is looked for. -/
theorem mayRemove_self (unset : Nat → UInt8) (member : ClusterMember) :
    mayRemove unset member.address member = true := by
  simp [mayRemove, memcmpEqual]

/-- With fewer members an address does not name more of them. -/
theorem NamesOne.sublist {unset : Nat → UInt8} {recipient : List UInt8}
    {members fewer : List ClusterMember} (names : NamesOne unset recipient members)
    (sub : fewer.Sublist members) : NamesOne unset recipient fewer :=
  ⟨Nat.le_trans sub.countP_le names.single, fun member kept => names.whole member (sub.subset kept)⟩

/-- The first member that may be meant is shifted out of the set. -/
theorem forgets_eq (unset : Nat → UInt8) (members : ClusterMemberSet)
    (envelope : MessageEnvelopeOut) :
    forgets unset members envelope =
      match members.live.findIdx? (mayRemove unset envelope.recipient) with
      | some place => clusterMemberSetShift members place
      | none => members := rfl

/-- Removing by address takes the first member out that may be meant, and closes the gap. -/
theorem ClusterMemberSet.Whole.forgets {members : ClusterMemberSet} (whole : members.Whole)
    (unset : Nat → UInt8) (envelope : MessageEnvelopeOut) :
    (forgets unset members envelope).Whole ∧
      (forgets unset members envelope).live =
        match members.live.findIdx? (mayRemove unset envelope.recipient) with
        | some place => members.live.eraseIdx place
        | none => members.live := by
  rw [forgets_eq]
  cases found : members.live.findIdx? (mayRemove unset envelope.recipient) with
  | none => exact ⟨whole, rfl⟩
  | some place =>
    -- The set is whole, so the place among the members is a slot in use.
    have inside : place < members.size := by
      rw [← whole.filled.live_length whole.ok]
      exact (List.findIdx?_eq_some_iff_findIdx_eq.mp found).1
    obtain ⟨filled, live⟩ := whole.filled.shift whole.ok inside
    exact ⟨⟨(whole.ok.shift inside).1, filled⟩, live⟩

/-- Removing by address only leaves members out. -/
theorem ClusterMemberSet.Whole.forgets_sublist {members : ClusterMemberSet} (whole : members.Whole)
    (unset : Nat → UInt8) (envelope : MessageEnvelopeOut) :
    (Pittacus.forgets unset members envelope).live.Sublist members.live := by
  rw [(whole.forgets unset envelope).2]
  split
  · exact List.eraseIdx_sublist _ _
  · exact List.Sublist.refl _

/-- An address that names one member at most is forgotten with it. -/
theorem ClusterMemberSet.Whole.forgotten {members : ClusterMemberSet} (whole : members.Whole)
    {unset : Nat → UInt8} {envelope : MessageEnvelopeOut}
    (names : NamesOne unset envelope.recipient members.live) :
    Forgotten envelope.recipient members.live (Pittacus.forgets unset members envelope).live := by
  rw [(whole.forgets unset envelope).2]
  cases found : members.live.findIdx? (mayRemove unset envelope.recipient) with
  | none =>
    -- Nobody has the address, since whoever had it would have been found.
    refine ⟨fun member known same => ?_, fun member known _ => known⟩
    have missed := List.findIdx?_eq_none_iff.mp found member known
    rw [← same, mayRemove_self] at missed
    cases missed
  | some place =>
    obtain ⟨inside, here, -⟩ := List.findIdx?_eq_some_iff_getElem.mp found
    have meant := names.whole _ (List.getElem_mem inside) here
    have parts := List.getElem_cons_eraseIdx_perm inside
    constructor
    · -- The one that was removed was the only one with the address.
      have count := parts.countP_eq fun member : ClusterMember =>
        decide (member.address = envelope.recipient)
      rw [List.countP_cons_of_pos (by simpa using meant)] at count
      have single := names.single
      have nobody : ((members.live.eraseIdx place).countP fun member =>
          decide (member.address = envelope.recipient)) = 0 := by omega
      intro member kept
      simpa using List.countP_eq_zero.mp nobody member kept
    · intro member known other
      rcases List.mem_cons.mp (parts.mem_iff.mpr known) with removed | stays
      · rw [removed] at other
        exact absurd meant other
      · exact stays

/-- After some removals the set is still whole, and has fewer members. -/
theorem ClusterMemberSet.Whole.forgets_all {members : ClusterMemberSet} (whole : members.Whole)
    (unset : Nat → UInt8) (envelopes : List MessageEnvelopeOut) :
    (envelopes.foldl (Pittacus.forgets unset) members).Whole ∧
      (envelopes.foldl (Pittacus.forgets unset) members).live.Sublist members.live := by
  induction envelopes generalizing members with
  | nil => exact ⟨whole, List.Sublist.refl _⟩
  | cons envelope rest ih =>
    obtain ⟨whole_, sub⟩ := ih (whole.forgets unset envelope).1
    exact ⟨whole_, sub.trans (whole.forgets_sublist unset envelope)⟩

/-! ### Rounds -/

/-- The envelopes dropped with an exhausted one, each with the last exhausted one before it. -/
def droppedWith : Option MessageEnvelopeOut → List Event →
    List (MessageEnvelopeOut × MessageEnvelopeOut)
  | _, [] => []
  | last, event :: rest =>
    match event with
    | .remove envelope .sameRecipient =>
      (last.toList.map fun exhausted => (exhausted, envelope)) ++ droppedWith last rest
    | .remove envelope .exhausted => droppedWith (some envelope) rest
    | _ => droppedWith last rest

/-- Whatever would be dropped with an exhausted envelope goes to the same recipient. -/
def RunsAlike (unset : Nat → UInt8) : List MessageEnvelopeOut → Prop
  | [] => True
  | current :: rest =>
    (current.Exhausted → 1 < current.maxAttempts →
      ∀ next ∈ rest.takeWhile (sharesRecipient unset · current),
        next.recipient = current.recipient) ∧
    RunsAlike unset rest

instance decidableRunsAlike (unset : Nat → UInt8) : ∀ queue, Decidable (RunsAlike unset queue)
  | [] => .isTrue trivial
  | current :: rest =>
    have := decidableRunsAlike unset rest
    inferInstanceAs (Decidable ((current.Exhausted → 1 < current.maxAttempts →
      ∀ next ∈ rest.takeWhile (sharesRecipient unset · current),
        next.recipient = current.recipient) ∧ _))

/-- A walk forgets the recipients it gives up, and drops with them what goes to the same ones. -/
theorem Walk.gaveUp_forgets {times : Nat → Nat} {results : Nat → Int}
    {exhausted : Option MessageEnvelopeOut} {readings sent : Nat}
    {passed queue : List MessageEnvelopeOut} {self : PittacusGossip}
    {ran : Outcome PittacusGossip Event Int}
    (walk : Walk times results exhausted readings sent passed queue self ran)
    (last : Option MessageEnvelopeOut)
    (seen : ∀ envelope, exhausted = some envelope → last = some envelope) :
    ran.state.members =
        (ran.events.filterMap Event.gaveUp).foldl (forgets self.unset) self.members ∧
      (RunsAlike self.unset queue →
        (∀ envelope, exhausted = some envelope →
          ∀ next ∈ queue.takeWhile (sharesRecipient self.unset · envelope),
            next.recipient = envelope.recipient) →
        ∀ pair ∈ droppedWith last ran.events, pair.2.recipient = pair.1.recipient) := by
  -- After most turns no envelope was just given up.
  have none_ : ∀ {last : Option MessageEnvelopeOut} (envelope : MessageEnvelopeOut),
      none = some envelope → last = some envelope := fun _ other => by cases other
  have nothing : ∀ {unset : Nat → UInt8} {rest : List MessageEnvelopeOut}
      (envelope : MessageEnvelopeOut), none = some envelope →
        ∀ next ∈ rest.takeWhile (sharesRecipient unset · envelope),
          next.recipient = envelope.recipient := fun _ other => by cases other
  induction walk generalizing last with
  | done => exact ⟨rfl, fun _ _ => List.forall_mem_nil _⟩
  | @dropped envelope current _ _ _ rest self _ shares _ ih =>
    obtain ⟨members, dropped⟩ := ih last seen
    refine ⟨members, fun alike run => ?_⟩
    have longer : (current :: rest).takeWhile (sharesRecipient self.unset · envelope) =
        current :: rest.takeWhile (sharesRecipient self.unset · envelope) :=
      List.takeWhile_cons_of_pos shares
    have run_ := run envelope rfl
    rw [longer] at run_
    obtain ⟨same, others⟩ := List.forall_mem_cons.mp run_
    rw [seen envelope rfl] at dropped ⊢
    refine List.forall_mem_cons.mpr ⟨same, dropped alike.2 fun envelope_ same_ => ?_⟩
    cases same_
    exact others
  | @givenUp _ current _ _ _ _ _ _ tried repeated _ ih =>
    -- What goes to the same recipient directly behind is dropped with it.
    obtain ⟨members, dropped⟩ := ih (some current) fun _ same => same
    have given : Event.gaveUp (.remove current .exhausted) = some current := if_pos repeated
    refine ⟨?_, fun alike _ => dropped alike.2 fun envelope same => ?_⟩
    · simp only [List.cons_append, List.nil_append, List.filterMap_cons, given, List.foldl_cons]
      exact members
    · cases same
      exact alike.1 tried repeated
  | @spent _ current _ _ _ _ _ _ _ once _ ih =>
    obtain ⟨members, dropped⟩ := ih (some current) none_
    have kept : Event.gaveUp (.remove current .exhausted) = none := if_neg once
    refine ⟨?_, fun alike _ => dropped alike.2 nothing⟩
    simp only [List.cons_append, List.nil_append, List.filterMap_cons, kept]
    exact members
  | waits _ ih =>
    obtain ⟨members, dropped⟩ := ih last none_
    exact ⟨members, fun alike _ => dropped alike.2 nothing⟩
  | refused _ => exact ⟨rfl, fun _ _ => List.forall_mem_nil _⟩
  | sentOnce _ _ _ _ _ ih =>
    obtain ⟨members, dropped⟩ := ih last none_
    exact ⟨members, fun alike _ => dropped alike.2 nothing⟩
  | attempted _ _ _ _ _ ih =>
    obtain ⟨members, dropped⟩ := ih last none_
    exact ⟨members, fun alike _ => dropped alike.2 nothing⟩

/-- A round of sending forgets the recipients it gives up, one after the other. -/
theorem processSend_forgets (times : Nat → Nat) (results : Nat → Int) (self : PittacusGossip) :
    (gossipStep (.processSend times results) self).state.members =
        (self.givesUp (.processSend times results)).foldl (forgets self.unset) self.members ∧
      (RunsAlike self.unset self.outboundMessages →
        ∀ pair ∈ droppedWith none (gossipStep (.processSend times results) self).events,
          pair.2.recipient = pair.1.recipient) := by
  simp only [PittacusGossip.givesUp, gossipStep, pittacusGossipProcessSend, get_bind_run, ite_run]
  -- Without taking part the node gives nobody up, and the walk starts with nobody given up.
  split
  · exact ⟨rfl, fun _ _ other => absurd other List.not_mem_nil⟩
  · obtain ⟨members, dropped⟩ :=
      (processSendFrom_walk times results none 0 0 [] _ self).gaveUp_forgets none fun _ other => other
    exact ⟨members, fun alike => dropped alike fun _ other => by cases other⟩

/-! ### Runs -/

/-- Putting members into a set leaves no slot in use empty. -/
theorem ClusterMemberSet.Whole.put {members : ClusterMemberSet} (whole : members.Whole)
    (lists : List (List ClusterMember)) : (lists.foldl clusterMemberSetPut members).Whole := by
  induction lists generalizing members with
  | nil => exact whole
  | cons list rest ih =>
    exact ih ⟨(whole.ok.put list).1, (whole.ok.put_live whole.filled list).1⟩

/-- Every call leaves the member set whole. -/
theorem gossipStep_whole (input : Input) (self : PittacusGossip) (whole : self.members.Whole) :
    (gossipStep input self).state.members.Whole := by
  -- Other calls only put members into the set.
  have enlisting : ¬input.Sends → (gossipStep input self).state.members.Whole := by
    intro handles
    obtain ⟨lists, members, -⟩ := (enlists_work Scope.any).step input.within_any handles self
    rw [members]
    exact whole.put lists
  cases input with
  | processSend times results =>
    rw [(processSend_forgets times results self).1]
    exact (whole.forgets_all self.unset _).1
  | _ => exact enlisting id

/-- The member set of a node is whole at the end of every run. -/
theorem run_whole (setup : NodeSetup) (inputs : List Input) :
    (Machine.run gossipStep inputs setup.node).members.Whole := by
  have preserved : ∀ (self : PittacusGossip) input, self.members.Whole → True →
      (gossipStep input self).state.members.Whole :=
    fun self input whole _ => gossipStep_whole input self whole
  exact Machine.run_invariant preserved ⟨clusterMemberSetInit_ok, rfl⟩
    (Machine.along_iff.mpr fun _ _ _ _ => trivial)

/--
Exactly the recipients of what a round of sending gives up are forgotten, and what goes to them.

The recipients are removed one after the other, so that each finds what the ones before it left.
-/
structure GivesUpExactly (self : PittacusGossip) (times : Nat → Nat) (results : Nat → Int) :
    Prop where
  members : (gossipStep (.processSend times results) self).state.members =
    (self.givesUp (.processSend times results)).foldl (forgets self.unset) self.members
  forgotten : ∀ front envelope back,
    self.givesUp (.processSend times results) = front ++ envelope :: back →
      let found := front.foldl (forgets self.unset) self.members
      Forgotten envelope.recipient found.live (forgets self.unset found envelope).live
  /-- What was dropped with an exhausted envelope goes to its recipient. -/
  behind : ∀ pair ∈ droppedWith none (gossipStep (.processSend times results) self).events,
    pair.2.recipient = pair.1.recipient

/--
The recipient of an exhausted envelope names one member at most, and itself in the queue.

Directly behind the envelope no other recipient agrees with it as far as its own address goes.
-/
def Unambiguous (self : PittacusGossip) : Input → Prop
  | .processSend _ _ =>
    self.exchanges = true → RunsAlike self.unset self.outboundMessages ∧
      ∀ envelope ∈ self.outboundMessages, envelope.Exhausted → 1 < envelope.maxAttempts →
        NamesOne self.unset envelope.recipient self.members.live
  | _ => True

instance decidableUnambiguous : ∀ self input, Decidable (Unambiguous self input)
  | self, .processSend _ _ =>
    inferInstanceAs (Decidable (self.exchanges = true →
      RunsAlike self.unset self.outboundMessages ∧
        ∀ envelope ∈ self.outboundMessages, envelope.Exhausted → 1 < envelope.maxAttempts →
          NamesOne self.unset envelope.recipient self.members.live))
  | _, .join _ | _, .sendData _ _ | _, .tick _ _ | _, .processReceive _ _ _ _ => .isTrue trivial

/-- A round of sending that finds unambiguous recipients only gives up exactly. -/
theorem Unambiguous.givesUpExactly {self : PittacusGossip} {times : Nat → Nat}
    {results : Nat → Int} (unambiguous : Unambiguous self (.processSend times results))
    (whole : self.members.Whole) : GivesUpExactly self times results := by
  obtain ⟨members, dropped⟩ := processSend_forgets times results self
  refine ⟨members, fun front envelope back split => ?_, ?_⟩
  · have given : envelope ∈ self.givesUp (.processSend times results) := by
      rw [split]
      exact List.mem_append_right _ List.mem_cons_self
    obtain ⟨exchanges, waited, tried, repeated⟩ := givesUp_exhausted given
    -- Whoever was removed before cannot make the address ambiguous.
    obtain ⟨whole_, sub⟩ := whole.forgets_all self.unset front
    exact whole_.forgotten (((unambiguous exchanges).2 envelope waited tried repeated).sublist sub)
  · by_cases exchanges : self.exchanges = true
    · exact dropped (unambiguous exchanges).1
    · rw [gossipStep, pittacusGossipProcessSend, get_bind_run, if_pos (by simp [exchanges])]
      exact List.forall_mem_nil _

/-- In a run whose rounds find unambiguous recipients, whatever is given up is given up exactly. -/
theorem gives_up_exactly (setup : NodeSetup) (inputs : List Input)
    (unambiguous : Machine.Along gossipStep Unambiguous inputs setup.node) :
    ∀ earlier times results later, inputs = earlier ++ .processSend times results :: later →
      GivesUpExactly (Machine.run gossipStep earlier setup.node) times results := by
  rintro earlier times results later rfl
  have now := (Machine.along_append.mp unambiguous).2.1
  exact Unambiguous.givesUpExactly now (run_whole setup earlier)

/-- Two members with addresses of their own are given up exactly. -/
theorem gives_up_exactly_three :
    ((Machine.run gossipStep threeAttempts (localSetup 1).node).givesUp (sendAt 30000)).map
        MessageEnvelopeOut.recipient = [loopback 2, loopback 3] ∧
      GivesUpExactly (Machine.run gossipStep threeAttempts (localSetup 1).node) (fun _ => 30000)
        (fun _ => 0) :=
  ⟨by decide +kernel,
    gives_up_exactly (localSetup 1) (threeAttempts ++ [sendAt 30000]) (by decide +kernel)
      threeAttempts _ _ [] rfl⟩

/-- The member at a port of the local host once it was started again. -/
def restartedMember (port : UInt8) : ClusterMember := { localMember port with uid := 8 }

/-- A node knows a member from before and after its restart, and sends it a payload in vain. -/
def restarted : List Input :=
  [.join [],
    (Message.memberList ⟨messageHeaderInit messageMemberListType 9,
      [localMember 2, restartedMember 2], by decide⟩).arrivesFrom 3,
    .sendData [1] noRandom, sendAt 0, sendAt 10000, sendAt 20000]

/-- The member is given up, and is still there under the same address. -/
theorem not_gives_up_exactly :
    ((Machine.run gossipStep restarted (localSetup 1).node).givesUp (sendAt 30000)).map
        MessageEnvelopeOut.recipient = [loopback 2] ∧
      (Machine.run gossipStep (restarted ++ [sendAt 30000]) (localSetup 1).node).members.live
        = [restartedMember 2] ∧
      ¬GivesUpExactly (Machine.run gossipStep restarted (localSetup 1).node) (fun _ => 30000)
        (fun _ => 0) := by
  have given : ((Machine.run gossipStep restarted (localSetup 1).node).givesUp
      (sendAt 30000)).map MessageEnvelopeOut.recipient = [loopback 2] := by decide +kernel
  have left : (gossipStep (sendAt 30000)
      (Machine.run gossipStep restarted (localSetup 1).node)).state.members.live
        = [restartedMember 2] := by decide +kernel
  refine ⟨given, by decide +kernel, ?_⟩
  -- What the node looks like does not matter any more, only whom it gives up and who is left.
  generalize Machine.run gossipStep restarted (localSetup 1).node = self at given left ⊢
  intro exactly
  obtain ⟨envelope, only, recipient⟩ := List.map_eq_singleton_iff.mp given
  have forgotten := GivesUpExactly.forgotten exactly [] envelope [] only
  have members : (gossipStep (sendAt 30000) self).state.members =
      (self.givesUp (sendAt 30000)).foldl (forgets self.unset) self.members :=
    GivesUpExactly.members exactly
  rw [only] at members
  rw [members] at left
  -- The member that is left has the address that was to be forgotten.
  have known := List.mem_cons_self (a := restartedMember 2) (l := [])
  rw [← left] at known
  exact forgotten.gone _ known recipient.symm

end Pittacus
