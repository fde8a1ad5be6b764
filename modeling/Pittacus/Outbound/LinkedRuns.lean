import Pittacus.Basic.Machine
import Pittacus.Outbound.LinkedSending
import Pittacus.Outbound.Rounds

/-! Over any run of calls, the linked outbound queue stands for the list the calls describe. -/

namespace Pittacus.Linked

open LinkedList

/-- A call on the outbound queue, with what the allocator or the environment supplies. -/
inductive QueueCall where
  | enqueue (address : Nat) (envelope : MessageEnvelopeOut)
  | remove (place : Nat)
  | acknowledge (sequenceNum : UInt32)
  | clear
  | reclaim
  | send (self : PittacusGossip) (times : Nat → Nat) (results : Nat → Int)

/-- The envelope at a place of the queue, counted from the head. -/
def envelopeAt : Nat → Option Nat → Access MessageEnvelopeOut (Option Nat)
  | _, none => return none
  | 0, some head => return some head
  | place + 1, some head => do
    let cell ← Access.load head
    envelopeAt place cell.next

/-- A call on the linked queue; say which envelopes a loop that removes some of them visits. -/
def QueueCall.linked (fuel : Nat) : QueueCall → Access MessageEnvelopeOut (List Nat)
  | .enqueue address envelope => do
    gossipEnvelopeCreate address envelope
    gossipEnvelopeEnqueue address
    return []
  | .remove place => do
    let head ← Access.head
    match ← envelopeAt place head with
    | none => return []
    | some envelope => do
      gossipEnvelopeRemove envelope
      return []
  | .acknowledge sequenceNum => do
    gossipEnvelopeAcknowledge fuel sequenceNum
    return []
  | .clear => do
    gossipEnvelopeClear fuel
    return []
  | .reclaim => do
    let (_, removed) ← gossipFindAvailableOutputBuffer fuel
    return removed
  | .send self times results => do
    let head ← Access.head
    let (_, visited) ← processSendFrom self.unset times results fuel 0 0 head
    return visited

/-- The same call on a list. -/
def QueueCall.onList (queue : List MessageEnvelopeOut) : QueueCall → List MessageEnvelopeOut
  | .enqueue _ envelope => queue ++ [envelope]
  | .remove place => queue.eraseIdx place
  | .acknowledge sequenceNum => queue.eraseP fun envelope => envelope.sequenceNum = sequenceNum
  | .clear => []
  | .reclaim => (chooseOutputBuffer queue).2.1
  | .send self times results =>
    (Pittacus.processSendFrom times results none 0 0 [] queue
      { self with outboundMessages := queue }).state.outboundMessages

/--
One call on the linked queue, unless an earlier one failed.

It fails when it touches an envelope that is not allocated, or needs more rounds than it may.
-/
def queueStep (fuel : Nat) (call : QueueCall) :
    Routine (Option (LinkedList MessageEnvelopeOut)) (List Nat) Unit := fun state =>
  match state.bind (call.linked fuel) with
  | none => ⟨(), none, []⟩
  | some (visited, after) => ⟨(), some after, [visited]⟩

/--
What the allocator and the callers promise about a call.

A new envelope lies where none is allocated, and refers to a slot of the output buffer.
-/
def Promised : Option (LinkedList MessageEnvelopeOut) → QueueCall → Prop
  | some list, .enqueue address envelope => list.cells address = none ∧ WithinBuffer envelope
  | _, _ => True

instance decidablePromised : ∀ state call, Decidable (Promised state call)
  | some list, .enqueue address envelope =>
    inferInstanceAs (Decidable (list.cells address = none ∧ WithinBuffer envelope))
  | some _, .remove _ | some _, .acknowledge _ | some _, .clear | some _, .reclaim
  | some _, .send _ _ _ | none, _ => .isTrue trivial

/-! ### One call -/

/-- Walking on from the first envelope reaches the one at a place, if there is one. -/
theorem envelopeAt_run (place : Nat) {nodes : Nodes} {first : Option Nat}
    {list : LinkedList MessageEnvelopeOut} (linked : Segment list.cells first nodes none) :
    envelopeAt place (entry nodes none) list = some ((nodes[place]?).map Prod.fst, list) := by
  induction nodes generalizing first place with
  | nil => cases place <;> rfl
  | cons node rest ih =>
    obtain ⟨address, envelope⟩ := node
    -- The place counts down as the walk moves on by one cell.
    cases place with
    | zero => rfl
    | succ place =>
      rw [entry_cons, envelopeAt, Access.load_bind linked.1, List.getElem?_cons_succ]
      exact ih place linked.2

/-- A call on the linked queue does not fail, and does what it does to the list. -/
theorem QueueCall.linked_run (call : QueueCall) {list : LinkedList MessageEnvelopeOut}
    {nodes : Nodes} (represents : list.Represents nodes)
    (within : ∀ node ∈ nodes, WithinBuffer node.2) {fuel : Nat} (enough : nodes.length ≤ fuel)
    (promised : Promised (some list) call) :
    ∃ visited after kept, call.linked fuel list = some (visited, after) ∧
      after.Represents kept ∧ kept.map Prod.snd = call.onList (nodes.map Prod.snd) ∧
      visited.Nodup := by
  cases call with
  | enqueue address envelope =>
    obtain ⟨after, ran, represents_⟩ := gossipEnvelopeEnqueue_run represents promised.1 envelope
    have queued : gossipEnvelopeEnqueue address { list with
        cells := Function.update list.cells address (some ⟨envelope, none, none⟩) }
          = some ((), after) := ran
    refine ⟨[], after, _, ?_, represents_, List.map_append, List.nodup_nil⟩
    exact Access.bind_of_run queued _
  | remove place =>
    rw [QueueCall.linked, Access.head_bind, represents.head,
      Access.bind_of_run (envelopeAt_run place represents.linked)]
    cases found : nodes[place]? with
    | none =>
      have past : nodes.eraseIdx place = nodes :=
        List.eraseIdx_of_length_le (List.getElem?_eq_none_iff.mp found)
      refine ⟨[], list, nodes, rfl, represents, ?_, List.nodup_nil⟩
      rw [QueueCall.onList, List.eraseIdx_map, past]
    | some node =>
      obtain ⟨address, envelope⟩ := node
      obtain ⟨inside, here⟩ := List.getElem?_eq_some_iff.mp found
      -- The cell at the place stands between those in front of it and those behind.
      have split : nodes = nodes.take place ++ (address, envelope) :: nodes.drop (place + 1) := by
        rw [← here, ← List.drop_eq_getElem_cons inside, List.take_append_drop]
      rw [split] at represents
      obtain ⟨after, ran, closed⟩ := gossipEnvelopeRemove_run represents
      refine ⟨[], after, _, ?_, closed, ?_, List.nodup_nil⟩
      · exact Access.bind_of_run ran _
      · rw [QueueCall.onList, List.eraseIdx_map, List.eraseIdx_eq_take_drop_succ]
  | acknowledge sequenceNum =>
    obtain ⟨after, ran, represents_⟩ := gossipEnvelopeAcknowledge_run sequenceNum represents enough
    refine ⟨[], after, _, Access.bind_of_run ran _, represents_, ?_, List.nodup_nil⟩
    rw [QueueCall.onList, List.eraseP_map]
    rfl
  | clear =>
    obtain ⟨after, ran, represents_⟩ := gossipEnvelopeClear_run represents enough
    exact ⟨[], after, [], Access.bind_of_run ran _, represents_, rfl, List.nodup_nil⟩
  | reclaim =>
    obtain ⟨removed, after, kept, ran, represents_, -, same, once⟩ :=
      gossipFindAvailableOutputBuffer_run represents within enough
    exact ⟨removed, after, kept, Access.bind_of_run ran _, represents_, same,
      once.nodup represents.distinct⟩
  | send self times results =>
    have behind : list.Represents ([] ++ nodes) := represents
    obtain ⟨visited, after, kept, ran, represents_, same, ahead⟩ :=
      processSendFrom_run times results fuel 0 0 behind enough
        { self with outboundMessages := nodes.map Prod.snd } rfl
    refine ⟨visited, after, kept, ?_, represents_, same, ahead.sublist.nodup represents.distinct⟩
    rw [QueueCall.linked, Access.head_bind, represents.head]
    exact Access.bind_of_run ran _

/-! ### The slots of a queue -/

/-- The slot an envelope brings into the queue. -/
def QueueCall.slot : QueueCall → Option Nat
  | .enqueue _ envelope => some envelope.buffer
  | _ => none

/-- What is left of an envelope refers to the same slot. -/
theorem fate_buffers (turns : List (MessageEnvelopeOut × Fate)) :
    ((turns.filterMap fun turn => turn.2.left turn.1).map (·.buffer)).Sublist
      ((turns.map Prod.fst).map (·.buffer)) := by
  induction turns with
  | nil => exact List.Sublist.refl _
  | cons turn rest ih =>
    obtain ⟨envelope, fate⟩ := turn
    rw [List.filterMap_cons]
    cases left : fate.left envelope with
    | none => exact ih.cons _
    | some kept =>
      -- An attempt counts up on a copy of the envelope that keeps its slot.
      have same : kept.buffer = envelope.buffer := by
        cases fate with
        | waits =>
          cases left
          rfl
        | sent now =>
          simp only [Fate.left, Option.ite_none_left_eq_some] at left
          cases left.2
          rfl
        | leaves => cases left
      rw [List.map_cons, same]
      exact ih.cons_cons _

/-- Choosing a slot takes envelopes out of the queue, and leaves the others in order. -/
theorem chooseOutputBuffer_sublist (queue : List MessageEnvelopeOut) :
    (chooseOutputBuffer queue).2.1.Sublist queue := by
  cases queue with
  | nil => exact List.Sublist.refl _
  | cons envelope rest => exact placement_sublist (envelope :: rest)

/-- The envelopes left after a call refer to the slots of those before it, and of the new one. -/
theorem QueueCall.onList_buffers (call : QueueCall) (queue : List MessageEnvelopeOut) :
    ((call.onList queue).map (·.buffer)).Sublist (queue.map (·.buffer) ++ call.slot.toList) := by
  -- Every call but queueing leaves some of the envelopes, in their order.
  cases call with
  | enqueue address envelope =>
    rw [QueueCall.onList, List.map_append]
    exact List.Sublist.refl _
  | remove place =>
    exact ((List.eraseIdx_sublist queue place).map _).trans (List.sublist_append_left _ _)
  | acknowledge sequenceNum =>
    exact (List.eraseP_sublist.map _).trans (List.sublist_append_left _ _)
  | clear => exact List.nil_sublist _
  | reclaim =>
    exact ((chooseOutputBuffer_sublist queue).map _).trans (List.sublist_append_left _ _)
  | send self times results =>
    obtain ⟨turns, round⟩ := (processSendFrom_walk times results none 0 0 [] queue
      { self with outboundMessages := queue }).round rfl
    have fewer := fate_buffers turns
    rw [round.found, ← List.nil_append (List.filterMap _ _), ← round.left] at fewer
    exact fewer.trans (List.sublist_append_left _ _)

/-- A call makes the queue longer by one envelope at most. -/
theorem QueueCall.onList_length (call : QueueCall) (queue : List MessageEnvelopeOut) :
    (call.onList queue).length ≤ queue.length + 1 := by
  have slots := (call.onList_buffers queue).length_le
  have one : call.slot.toList.length ≤ 1 := by cases call.slot <;> simp
  simp only [List.length_map, List.length_append] at slots
  omega

/-- Every envelope left after a call refers to a slot of the output buffer. -/
theorem QueueCall.onList_within (call : QueueCall) {list : LinkedList MessageEnvelopeOut}
    (promised : Promised (some list) call) {queue : List MessageEnvelopeOut}
    (within : ∀ envelope ∈ queue, WithinBuffer envelope) :
    ∀ envelope ∈ call.onList queue, WithinBuffer envelope := by
  intro envelope left
  have slot := (call.onList_buffers queue).subset (List.mem_map_of_mem left)
  -- Whatever attempts were counted, the slot is one of those before, or the new one.
  rcases List.mem_append.mp slot with old | new
  · obtain ⟨waited, member, same⟩ := List.mem_map.mp old
    have inside := within waited member
    rwa [WithinBuffer, same] at inside
  · cases call with
    | enqueue address queued =>
      have same : envelope.buffer = queued.buffer := List.mem_singleton.mp new
      have inside := promised.2
      rwa [WithinBuffer, ← same] at inside
    | _ => cases new

/-! ### Runs -/

/-- A linked queue stands for a list of envelopes, read from either end. -/
structure StandsFor (list : LinkedList MessageEnvelopeOut) (fuel : Nat) (nodes : Nodes)
    (queue : List MessageEnvelopeOut) : Prop where
  envelopes : nodes.map Prod.snd = queue
  /-- The envelopes reached from the head by the forward links. -/
  forward : walkOn list.cells fuel list.head = some nodes
  /-- Those reached from the tail by the backward links. -/
  backward : walkBack list.cells fuel list.tail = some nodes.reverse
  distinct : (nodes.map Prod.fst).Nodup
  head : list.head = none ↔ nodes = []
  tail : list.tail = none ↔ nodes = []

/-- A representation can be read from either end. -/
theorem standsFor_of_represents {list : LinkedList MessageEnvelopeOut} {nodes : Nodes}
    (represents : list.Represents nodes) {fuel : Nat} (enough : nodes.length ≤ fuel) :
    StandsFor list fuel nodes (nodes.map Prod.snd) where
  envelopes := rfl
  forward := represents.head ▸ represents.linked.walkOn enough
  backward := represents.tail ▸ represents.linked.walkBack enough
  distinct := represents.distinct
  head := represents.head ▸ entry_none
  tail := represents.tail ▸ exit_none

/-- A run of calls does not fail, and does what it does to the list. -/
theorem run_represents (calls : List QueueCall) {fuel : Nat} {list : LinkedList MessageEnvelopeOut}
    {nodes : Nodes} (represents : list.Represents nodes)
    (within : ∀ node ∈ nodes, WithinBuffer node.2) (room : nodes.length + calls.length ≤ fuel)
    (promised : Machine.Along (queueStep fuel) Promised calls (some list)) :
    ∃ last kept, Machine.run (queueStep fuel) calls (some list) = some last ∧
      last.Represents kept ∧
      kept.map Prod.snd = calls.foldl QueueCall.onList (nodes.map Prod.snd) ∧
      kept.length ≤ fuel ∧
      ∀ visited ∈ Machine.trace (queueStep fuel) calls (some list), visited.Nodup := by
  -- Each call makes the queue longer by one at most, which the calls still to come make up for.
  induction calls generalizing list nodes with
  | nil =>
    exact ⟨list, nodes, rfl, represents, rfl, room, List.forall_mem_nil _⟩
  | cons call rest ih =>
    obtain ⟨now, later⟩ := promised
    obtain ⟨visited, after, kept, ran, represents_, same, once⟩ :=
      call.linked_run represents within (Nat.le_of_add_right_le room) now
    have answered : (some list).bind (call.linked fuel) = some (visited, after) := ran
    have stepped : queueStep fuel call (some list) = ⟨(), some after, [visited]⟩ := by
      rw [queueStep, answered]
    have within_ : ∀ node ∈ kept, WithinBuffer node.2 := by
      have inside := call.onList_within now (List.forall_mem_map.mpr within)
      rw [← same] at inside
      exact List.forall_mem_map.mp inside
    have longer := call.onList_length (nodes.map Prod.snd)
    rw [← same, List.length_map, List.length_map] at longer
    rw [List.length_cons] at room
    rw [stepped] at later
    obtain ⟨last, kept_, ran_, closed, same_, short, once_⟩ :=
      ih represents_ within_ (by omega) later
    refine ⟨last, kept_, ?_, closed, ?_, short, ?_⟩
    · rw [Machine.run, stepped]
      exact ran_
    · rw [List.foldl_cons, ← same]
      exact same_
    · rw [Machine.trace, stepped]
      exact List.forall_mem_cons.mpr ⟨once, once_⟩

/-- Over any run of calls, the linked outbound queue stands for the list they describe. -/
theorem linkedQueue_standsFor (calls : List QueueCall) (fuel : Nat) (enough : calls.length ≤ fuel)
    (promised : Machine.Along (queueStep fuel) Promised calls (some LinkedList.empty)) :
    ∃ list nodes, Machine.run (queueStep fuel) calls (some LinkedList.empty) = some list ∧
      StandsFor list fuel nodes (calls.foldl QueueCall.onList []) ∧
      ∀ visited ∈ Machine.trace (queueStep fuel) calls (some LinkedList.empty),
        visited.Nodup := by
  -- A call queues one envelope at most, so a queue is no longer than its run.
  have room : ([] : Nodes).length + calls.length ≤ fuel := by
    rwa [List.length_nil, Nat.zero_add]
  obtain ⟨list, nodes, ran, represents, same, short, once⟩ := run_represents calls
    represents_empty (List.forall_mem_nil _) room promised
  have stands := standsFor_of_represents represents short
  rw [same] at stands
  exact ⟨list, nodes, ran, stands, once⟩

/-- An envelope waiting in a slot of its own, after some attempts to send it. -/
def waitingIn (slot : Nat) (port : UInt8) (attemptNum : Nat) : MessageEnvelopeOut where
  recipient := loopback port
  buffer := slot * messageMaxSize
  bufferSize := 12
  sequenceNum := UInt32.ofNat slot
  attemptTs := 0
  attemptNum := attemptNum
  maxAttempts := messageRetryAttempts
  message := .ack ⟨messageHeaderInit messageAckType 0, 0⟩

/--
The first envelope is given up on, and the second one goes with it.

The third is sent, the place of the second is used again, and then the third is removed.
-/
def givenUpCalls : List QueueCall :=
  [.enqueue 10 (waitingIn 0 2 messageRetryAttempts), .enqueue 11 (waitingIn 1 2 0),
    .enqueue 12 (waitingIn 2 3 0), .send (localSetup 1).node (fun _ => 100) fun _ => 0,
    .enqueue 11 (waitingIn 3 4 0), .remove 0]

theorem linkedQueue_standsFor_given_up :
    Machine.trace (queueStep 6) givenUpCalls (some LinkedList.empty) =
        [[], [], [], [10, 11, 12], [], []] ∧
      ∃ list nodes, Machine.run (queueStep 6) givenUpCalls (some LinkedList.empty) = some list ∧
        StandsFor list 6 nodes (givenUpCalls.foldl QueueCall.onList []) ∧
        ∀ visited ∈ Machine.trace (queueStep 6) givenUpCalls (some LinkedList.empty),
          visited.Nodup :=
  ⟨by decide +kernel, linkedQueue_standsFor givenUpCalls 6 (by decide) (by decide +kernel)⟩

end Pittacus.Linked
