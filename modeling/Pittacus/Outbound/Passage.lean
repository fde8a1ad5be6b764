import Pittacus.Basic.Climbing
import Pittacus.Proofs.Handlers

/-! How the outbound queue of a node gets on: what stays in it, what joins it, and under which numbers. -/

namespace Pittacus

open Routine

/-! ### Envelopes -/

/-- The sequence number of an envelope. -/
def MessageEnvelopeOut.number (envelope : MessageEnvelopeOut) : Nat := envelope.sequenceNum.toNat

/-- An envelope as it was queued, no attempt having been made. -/
def MessageEnvelopeOut.untried (envelope : MessageEnvelopeOut) : MessageEnvelopeOut :=
  { envelope with attemptTs := 0, attemptNum := 0 }

@[simp] theorem MessageEnvelopeOut.untried_number (envelope : MessageEnvelopeOut) :
    envelope.untried.number = envelope.number := rfl

/-- Envelopes that agree apart from their attempts are for the same message and recipient. -/
theorem MessageEnvelopeOut.untried_eq {first second : MessageEnvelopeOut}
    (same : first.untried = second.untried) :
    first.recipient = second.recipient ∧ first.number = second.number ∧
      first.maxAttempts = second.maxAttempts ∧ first.message = second.message := by
  have recipient : first.untried.recipient = second.untried.recipient := by rw [same]
  have number : first.untried.number = second.untried.number := by rw [same]
  have attempts : first.untried.maxAttempts = second.untried.maxAttempts := by rw [same]
  have message : first.untried.message = second.untried.message := by rw [same]
  exact ⟨recipient, number, attempts, message⟩

/-- The queued envelopes, apart from their attempts. -/
def PittacusGossip.pending (node : PittacusGossip) : List MessageEnvelopeOut :=
  node.outboundMessages.map (·.untried)

/-- The envelope an event takes out of the queue. -/
def Event.removed : Event → Option MessageEnvelopeOut
  | .remove envelope _ => some envelope
  | _ => none

/-- An envelope for a message, that answers the one it is for only if a call may answer it so. -/
structure Made (scope : Scope) (envelope : MessageEnvelopeOut) : Prop where
  attempts : envelope.maxAttempts = messageMaxAttempts envelope.message
  untried : envelope.untried = envelope
  reply : envelope.message.Replies → scope.direct envelope.message envelope.recipient

/-! ### Passages -/

/--
Of the envelopes that were queued some are kept, in order, and new ones stand behind them.

The new ones are numbered on from the last number used, unless the numbers start over.
-/
structure Passage (scope : Scope) (kept fresh : List MessageEnvelopeOut) (added : Nat)
    (before : PittacusGossip) (events : List Event) (after : PittacusGossip) : Prop where
  queue : after.pending = kept ++ fresh
  kept : kept.Sublist before.pending
  made : ∀ envelope ∈ fresh, Made scope envelope
  counter : after.sequenceNum = before.sequenceNum + UInt32.ofNat added
  balance : before.outboundMessages.length + added =
    after.outboundMessages.length + (events.filterMap Event.removed).length
  numbers : before.sequenceNum.toNat + added < 2 ^ 32 →
    Climbs before.sequenceNum.toNat (before.sequenceNum.toNat + added)
      (fresh.map MessageEnvelopeOut.number)

/-- The queue gets on in some passage. -/
def Passes (scope : Scope) (before : PittacusGossip) (events : List Event)
    (after : PittacusGossip) : Prop :=
  ∃ kept fresh added, Passage scope kept fresh added before events after

/-- As long as the numbers do not start over, the last one used is the one counted up to. -/
theorem counted_up {first last : UInt32} {added : Nat} (counter : last = first + UInt32.ofNat added)
    (room : first.toNat + added < 2 ^ 32) : last.toNat = first.toNat + added := by
  rw [counter, UInt32.toNat_add, UInt32.toNat_ofNat']
  omega

theorem passes_chains (scope : Scope) : Chains (Passes scope) where
  rest self :=
    ⟨self.pending, [], 0, (List.append_nil _).symm, List.Sublist.refl _,
      List.forall_mem_nil _, by simp, by simp, fun _ => .nil _ _⟩
  join := by
    -- Some of the envelopes that were new in the middle may be gone at the end.
    rintro first middle last early late ⟨kept, fresh, added, left⟩ ⟨kept_, fresh_, added_, right⟩
    have sub := right.kept
    rw [left.queue] at sub
    obtain ⟨old, new, rfl, staying, lasting⟩ := List.sublist_append_iff.mp sub
    refine ⟨old, new ++ fresh_, added + added_, ?_, staying.trans left.kept, ?_, ?_, ?_, ?_⟩
    · rw [right.queue, List.append_assoc]
    · exact List.forall_mem_append.mpr
        ⟨fun envelope member => left.made envelope (lasting.subset member), right.made⟩
    · rw [right.counter, left.counter, UInt32.ofNat_add, UInt32.add_assoc]
    · have balance := left.balance
      have balance_ := right.balance
      rw [List.filterMap_append, List.length_append]
      omega
    · intro room
      have middle_ := counted_up left.counter (by omega)
      have climb := right.numbers (by omega)
      rw [middle_, Nat.add_assoc] at climb
      rw [List.map_append]
      exact ((left.numbers (by omega)).sublist (lasting.map _)).append climb (by omega) (by omega)

/-- Nothing joins the queue, and nothing leaves it. -/
theorem passes_of_same (scope : Scope) {before after : PittacusGossip} {events : List Event}
    (queue : after.outboundMessages = before.outboundMessages)
    (counter : after.sequenceNum = before.sequenceNum)
    (silent : events.filterMap Event.removed = []) : Passes scope before events after := by
  refine ⟨before.pending, [], 0, ?_, List.Sublist.refl _,
    List.forall_mem_nil _, ?_, ?_, fun _ => .nil _ _⟩
  · rw [PittacusGossip.pending, queue, List.append_nil]
    rfl
  · simp [counter]
  · simp [queue, silent]

/-! ### Queueing -/

/-- Envelopes for several recipients are numbered one after the other. -/
theorem envelopesFor_climbs (message : Message) (buffer bufferSize : Nat) (sequenceNum : UInt32)
    (recipients : List (List UInt8)) (room : sequenceNum.toNat + recipients.length < 2 ^ 32) :
    Climbs sequenceNum.toNat (sequenceNum.toNat + recipients.length)
      ((envelopesFor message buffer bufferSize sequenceNum recipients).map
        MessageEnvelopeOut.number) := by
  induction recipients generalizing sequenceNum with
  | nil => exact .nil _ _
  | cons receiver rest ih =>
    rw [List.length_cons] at room ⊢
    -- There is room for all the numbers, so none of the increments wraps around.
    have next : (sequenceNum + 1).toNat = sequenceNum.toNat + 1 := by
      rw [UInt32.toNat_add, UInt32.toNat_one]
      omega
    have others := ih (sequenceNum + 1) (by omega)
    rw [next] at others
    have here : Climbs sequenceNum.toNat (sequenceNum.toNat + 1) [(sequenceNum + 1).toNat] := by
      rw [next]
      exact .single (Nat.lt_succ_self _)
    have all := here.append others (by omega) (by omega)
    rwa [Nat.add_assoc, Nat.add_comm 1] at all

/-- There is one envelope for each recipient, and no attempt was made to send it. -/
theorem envelopesFor_made {message : Message} {buffer bufferSize : Nat} {sequenceNum : UInt32}
    {recipients : List (List UInt8)} :
    (envelopesFor message buffer bufferSize sequenceNum recipients).length = recipients.length ∧
      ∀ envelope ∈ envelopesFor message buffer bufferSize sequenceNum recipients,
        envelope.maxAttempts = messageMaxAttempts envelope.message ∧
          envelope.untried = envelope := by
  -- The number moves on with each recipient; nothing else depends on it.
  induction recipients generalizing sequenceNum with
  | nil => exact ⟨rfl, List.forall_mem_nil _⟩
  | cons receiver rest ih =>
    obtain ⟨count, each⟩ := @ih (sequenceNum + 1)
    exact ⟨congrArg (· + 1) count, List.forall_mem_cons.mpr ⟨⟨rfl, rfl⟩, each⟩⟩

/-- The queue splits into what is left of it and what has to make room. -/
theorem placement_length (queue : List MessageEnvelopeOut) :
    (placement queue).2.1.length + (placement queue).2.2.length = queue.length := by
  unfold placement
  split
  · rfl
  · unfold chooseOutputBuffer
    split
    · rfl
    · split
      · rfl
      · rename_i place oldest _
        -- The envelopes in front of the oldest stay, those from it on are parted in two.
        have whole := congrArg List.length (List.takeWhile_append_dropWhile
          (p := fun envelope : MessageEnvelopeOut => envelope.buffer == oldest.buffer)
          (l := queue.drop place))
        have parts := congrArg List.length (List.take_append_drop place queue)
        simp only [List.length_append] at whole parts ⊢
        omega

/-- The envelopes an enqueueing removes are those that make room. -/
theorem removed_enqueueEvents (queue : List MessageEnvelopeOut) (message : Message)
    (spreading : GossipSpreadingType) :
    (enqueueEvents queue message spreading).filterMap Event.removed = (placement queue).2.2 := by
  rw [enqueueEvents, List.filterMap_append, List.filterMap_map]
  have each : (Event.removed ∘ fun envelope => .remove envelope .reclaimed)
      = (some : MessageEnvelopeOut → _) := rfl
  rw [each, List.filterMap_some]
  exact List.append_nil _

/-- The envelopes of a message that may be queued are made within the scope. -/
theorem Scope.Allows.made {scope : Scope} {message : Message} {recipient : List UInt8}
    {spreading : GossipSpreadingType} (allowed : scope.Allows message recipient spreading)
    (self : PittacusGossip) (random : Nat → UInt32) {buffer bufferSize : Nat}
    {sequenceNum : UInt32} :
    ∀ envelope ∈ envelopesFor message buffer bufferSize sequenceNum
      (spreadingRecipients self recipient spreading random), Made scope envelope := by
  intro envelope member
  obtain ⟨attempts, untried⟩ := envelopesFor_made.2 envelope member
  obtain ⟨carried, listed⟩ := mem_envelopesFor member
  refine ⟨attempts, untried, fun replies => ?_⟩
  rw [carried] at replies ⊢
  -- A reply is allowed directly to one recipient only.
  cases spreading with
  | direct =>
    rw [List.mem_singleton.mp listed]
    exact allowed
  | random => exact absurd replies allowed
  | broadcast => exact absurd replies allowed

/-- A message that may be queued is queued behind everything that stays. -/
theorem gossipEnqueueMessage_passes {scope : Scope} (message : Message) (recipient : List UInt8)
    (spreading : GossipSpreadingType) (random : Nat → UInt32) (self : PittacusGossip)
    (allowed : scope.Allows message recipient spreading) :
    Passes scope self (gossipEnqueueMessage message recipient spreading random self).events
      (gossipEnqueueMessage message recipient spreading random self).state := by
  have left := (placement_sublist self.outboundMessages).map MessageEnvelopeOut.untried
  have parts := placement_length self.outboundMessages
  have removed := congrArg List.length
    (removed_enqueueEvents self.outboundMessages message spreading)
  rw [gossipEnqueueMessage_events, gossipEnqueueMessage_run]
  split
  · -- The message does not fit, but room was made for it.
    refine ⟨_, [], 0, (List.append_nil _).symm, left, List.forall_mem_nil _,
      by simp [PittacusGossip.placed], ?_, fun _ => .nil _ _⟩
    simp only [PittacusGossip.placed]
    omega
  · have made := @Scope.Allows.made scope message recipient spreading allowed self random
      (placement self.outboundMessages).1 (encodeCode message).toNat self.sequenceNum
    generalize spreadingRecipients self recipient spreading random = recipients at made ⊢
    have count := (@envelopesFor_made message (placement self.outboundMessages).1
      (encodeCode message).toNat self.sequenceNum recipients).1
    refine ⟨_, envelopesFor message (placement self.outboundMessages).1 (encodeCode message).toNat
      self.sequenceNum recipients, recipients.length, ?_, left, made, rfl, ?_,
      envelopesFor_climbs _ _ _ _ _⟩
    · simp only [PittacusGossip.pending, PittacusGossip.queued, List.map_append]
      congr 1
      exact (List.map_congr_left fun envelope member => (made envelope member).untried).trans
        (List.map_id _)
    · simp only [PittacusGossip.queued, List.length_append]
      omega

end Pittacus
