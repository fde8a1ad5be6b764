import Pittacus.Outbound.Departures

/-! What a round of sending does with each queued envelope, one turn after the other. -/

namespace Pittacus

open Routine

/-! ### Turns -/

/-- What becomes of a queued envelope in one call. -/
inductive Fate where
  /-- It stays as it is. -/
  | waits
  /-- It is transmitted, at a reading of the clock. -/
  | sent (now : Nat)
  /-- It leaves the queue without being transmitted. -/
  | leaves
  deriving DecidableEq

/-- An envelope after an attempt to send it that succeeded. -/
def MessageEnvelopeOut.attempted (envelope : MessageEnvelopeOut) (now : Nat) :
    MessageEnvelopeOut :=
  { envelope with attemptTs := now, attemptNum := envelope.attemptNum + 1 }

/-- What is left of an envelope in the queue. -/
def Fate.left (envelope : MessageEnvelopeOut) : Fate → Option MessageEnvelopeOut
  | .waits => some envelope
  | .sent now =>
    -- A message that is to be sent only once is gone with its first transmission.
    if envelope.maxAttempts ≤ 1 then none else some (envelope.attempted now)
  | .leaves => none

/-- The reading of the clock at which an envelope is transmitted. -/
def Fate.reading : Fate → Option Nat
  | .sent now => some now
  | _ => none

/-- An attempt to send an envelope is left, and the last one was long enough ago. -/
def MessageEnvelopeOut.Due (envelope : MessageEnvelopeOut) (now : Nat) : Prop :=
  envelope.attemptNum < envelope.maxAttempts ∧
    (envelope.attemptNum = 0 ∨ envelope.attemptTs + messageRetryInterval ≤ now)

/-- The envelope an event transmits, as it was before, and the reading of the clock. -/
def Event.transmission : Event → Option (MessageEnvelopeOut × Nat)
  | .sendTo envelope _ now result => if 0 ≤ result then some (envelope, now) else none
  | _ => none

/-- The transmission in one turn of a walk along a queue. -/
def turnTransmission (turn : MessageEnvelopeOut × Fate) : Option (MessageEnvelopeOut × Nat) :=
  turn.2.reading.map fun now => (turn.1, now)

/-- What a walk along the rest of a queue does, turn by turn. -/
structure Round (passed queue : List MessageEnvelopeOut) (turns : List (MessageEnvelopeOut × Fate))
    (sent : Nat) (ran : Outcome PittacusGossip Event Int) : Prop where
  /-- Every envelope has one turn. -/
  found : turns.map Prod.fst = queue
  left : ran.state.outboundMessages = passed ++ turns.filterMap fun turn => turn.2.left turn.1
  /-- The datagrams the socket took are those of the turns, in their order. -/
  transmitted : ran.events.filterMap Event.transmission = turns.filterMap turnTransmission
  due : ∀ turn ∈ turns, ∀ now, turn.2 = .sent now → turn.1.Due now
  answer : 0 ≤ ran.value → ran.value = (sent + (turns.filterMap turnTransmission).length : Nat)
  givenUp : ∀ envelope, .remove envelope .exhausted ∈ ran.events →
    envelope ∈ queue ∧ envelope.Exhausted

/-- A walk that is broken off, or ends, lets the rest of the queue wait. -/
theorem round_off {passed queue : List MessageEnvelopeOut} {sent : Nat}
    {ran : Outcome PittacusGossip Event Int}
    (left : ran.state.outboundMessages = passed ++ queue)
    (silent : ran.events.filterMap Event.transmission = [])
    (unanswered : 0 ≤ ran.value → ran.value = (sent : Int))
    (kept : ∀ envelope, .remove envelope .exhausted ∉ ran.events) :
    Round passed queue (queue.map fun envelope => (envelope, .waits)) sent ran := by
  have nothing : (queue.map fun envelope => (envelope, Fate.waits)).filterMap turnTransmission
      = [] := by
    rw [List.filterMap_map, List.filterMap_eq_nil_iff]
    exact fun _ _ => rfl
  have same : (queue.map fun envelope => (envelope, Fate.waits)).filterMap
      (fun turn => turn.2.left turn.1) = queue := by
    rw [List.filterMap_map]
    exact List.filterMap_some
  -- Every envelope left waits, so the turns list the queue itself and transmit nothing.
  refine ⟨?_, ?_, ?_, ?_, ?_, ?_⟩
  · rw [List.map_map]
    exact List.map_id _
  · rw [left, same]
  · rw [silent, nothing]
  · intro turn member now sent_
    obtain ⟨envelope, _, rfl⟩ := List.mem_map.mp member
    cases sent_
  · rw [nothing]
    exact unanswered
  · exact fun envelope caused => absurd caused (kept envelope)

/-- One turn in front of a walk. -/
theorem Round.turn {passed passed_ rest : List MessageEnvelopeOut}
    {turns : List (MessageEnvelopeOut × Fate)} {sent sent_ : Nat}
    {ran : Outcome PittacusGossip Event Int} (round : Round passed_ rest turns sent_ ran)
    (current : MessageEnvelopeOut) (fate : Fate) (front : List Event)
    (stays : passed_ = passed ++ (fate.left current).toList)
    (shown : front.filterMap Event.transmission = (turnTransmission (current, fate)).toList)
    (counted : sent_ = sent + (turnTransmission (current, fate)).toList.length)
    (due : ∀ now, fate = .sent now → current.Due now)
    (kept : ∀ envelope, .remove envelope .exhausted ∈ front →
      envelope = current ∧ current.Exhausted) :
    Round passed (current :: rest) ((current, fate) :: turns) sent
      ⟨ran.value, ran.state, front ++ ran.events⟩ where
  found := by rw [List.map_cons, round.found]
  left := by
    -- The envelope stays or goes, and the rest of the walk is as before.
    rw [round.left, stays, List.filterMap_cons, List.append_assoc]
    cases fate.left current <;> rfl
  transmitted := by
    rw [List.filterMap_append, round.transmitted, shown, List.filterMap_cons]
    cases turnTransmission (current, fate) <;> rfl
  due := List.forall_mem_cons.mpr ⟨due, round.due⟩
  answer answered := by
    rw [round.answer answered, counted, List.filterMap_cons]
    cases turnTransmission (current, fate) <;> simp [Nat.add_comm, Nat.add_left_comm]
  givenUp envelope caused := by
    rcases List.mem_append.mp caused with here | later
    · obtain ⟨same, tried⟩ := kept envelope here
      subst same
      exact ⟨List.mem_cons_self, tried⟩
    · obtain ⟨waited, tried⟩ := round.givenUp envelope later
      exact ⟨List.mem_cons_of_mem _ waited, tried⟩

/-- The event of a datagram the socket took transmits its envelope. -/
theorem transmission_taken (envelope : MessageEnvelopeOut) (datagram : List UInt8) (now : Nat)
    {result : Int} (written : 0 ≤ result) :
    Event.transmission (.sendTo envelope datagram now result) = some (envelope, now) :=
  if_pos written

/-- A walk gives every envelope of the rest of the queue one turn. -/
theorem Walk.round {times : Nat → Nat} {results : Nat → Int}
    {exhausted : Option MessageEnvelopeOut} {readings sent : Nat}
    {passed queue : List MessageEnvelopeOut} {self : PittacusGossip}
    {ran : Outcome PittacusGossip Event Int}
    (walk : Walk times results exhausted readings sent passed queue self ran)
    (whole : self.outboundMessages = passed ++ queue) :
    ∃ turns, Round passed queue turns sent ran := by
  -- The envelopes passed over stay in front of the current one, and the walk goes on behind it.
  induction walk with
  | done => exact ⟨_, round_off whole rfl (fun _ => rfl) fun _ none_ => absurd none_ List.not_mem_nil⟩
  | @dropped _ current _ _ _ _ _ _ _ _ ih =>
    obtain ⟨turns, round⟩ := ih rfl
    refine ⟨_, round.turn current .leaves [.remove current .sameRecipient]
      (List.append_nil _).symm rfl rfl (fun _ other => by cases other) fun _ caused => ?_⟩
    cases List.mem_singleton.mp caused
  | @givenUp _ current _ _ _ _ _ _ tried _ _ ih =>
    obtain ⟨turns, round⟩ := ih rfl
    refine ⟨_, round.turn current .leaves [.remove current .exhausted]
      (List.append_nil _).symm rfl rfl (fun _ other => by cases other) fun _ caused => ?_⟩
    cases List.mem_singleton.mp caused
    exact ⟨rfl, tried⟩
  | @spent _ current _ _ _ _ _ _ tried _ _ ih =>
    obtain ⟨turns, round⟩ := ih rfl
    refine ⟨_, round.turn current .leaves [.remove current .exhausted]
      (List.append_nil _).symm rfl rfl (fun _ other => by cases other) fun _ caused => ?_⟩
    cases List.mem_singleton.mp caused
    exact ⟨rfl, tried⟩
  | @waits _ current _ _ _ _ _ _ _ ih =>
    obtain ⟨turns, round⟩ := ih (by rw [whole, List.append_assoc]; rfl)
    exact ⟨_, round.turn current .waits [] rfl rfl rfl (fun _ other => by cases other)
      fun _ none_ => absurd none_ List.not_mem_nil⟩
  | @refused _ current readings sent _ _ self refused =>
    -- The walk is broken off, and the socket took nothing.
    have untaken : Event.transmission (.sendTo current
        (envelopeBytes (patchSequenceNum self.outputBuffer current) current) (times readings)
        (results sent)) = none := if_neg (Int.not_le.mpr refused)
    have failed := Int.not_le.mpr (PittacusError.code_neg .writeFailed)
    refine ⟨_, round_off whole ?_ (fun answered => absurd answered failed) fun _ caused => ?_⟩
    · simp only [List.filterMap_cons, untaken, List.filterMap_nil]
    · cases List.mem_singleton.mp caused
  | @sentOnce _ current readings _ _ _ _ _ left time written last _ ih =>
    obtain ⟨turns, round⟩ := ih rfl
    refine ⟨_, round.turn current (.sent (times readings)) [.sendTo current _ _ _,
      .remove _ .sentOnce] ?_ ?_ rfl ?_ fun _ caused => ?_⟩
    · simp [Fate.left, last]
    · simp only [List.filterMap_cons, transmission_taken _ _ _ written]
      rfl
    · rintro now ⟨⟩
      exact ⟨left, time⟩
    · simp at caused
  | @attempted _ current readings _ _ _ _ _ left time written again _ ih =>
    obtain ⟨turns, round⟩ := ih (by rw [List.append_assoc]; rfl)
    refine ⟨_, round.turn current (.sent (times readings)) [.sendTo current _ _ _] ?_ ?_ rfl ?_
      fun _ caused => ?_⟩
    · simp [Fate.left, again, MessageEnvelopeOut.attempted]
    · simp only [List.filterMap_cons, transmission_taken _ _ _ written]
      rfl
    · rintro now ⟨⟩
      exact ⟨left, time⟩
    · cases List.mem_singleton.mp caused

/-- So does a round of sending with the whole queue. -/
theorem processSend_round (times : Nat → Nat) (results : Nat → Int) (self : PittacusGossip) :
    ∃ turns, Round [] self.outboundMessages turns 0
      (pittacusGossipProcessSend times results self) := by
  rw [pittacusGossipProcessSend, get_bind_run, ite_run]
  split
  · have failed := Int.not_le.mpr (PittacusError.code_neg .badState)
    exact ⟨_, round_off rfl rfl (fun answered => absurd answered failed)
      fun _ none_ => absurd none_ List.not_mem_nil⟩
  · exact (processSendFrom_walk times results none 0 0 [] _ self).round rfl

end Pittacus
