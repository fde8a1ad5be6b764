import Mathlib.Data.List.Find
import Pittacus.Gossip.Linked
import Pittacus.Ownership.Slots

/-! Each operation on the linked outbound queue does what it says to the list it stands for. -/

namespace Pittacus.Linked

open LinkedList

/-- The places a linked queue holds, each with its envelope. -/
abbrev Nodes : Type := List (Nat × MessageEnvelopeOut)

variable {list : LinkedList MessageEnvelopeOut}

/-! ### Removing -/

/-- Whatever stands in front of an envelope and behind it, removing it closes the gap. -/
theorem gossipEnvelopeRemove_run {front back : Nodes} {address : Nat}
    {envelope : MessageEnvelopeOut}
    (represents : list.Represents (front ++ (address, envelope) :: back)) :
    ∃ after, gossipEnvelopeRemove address list = some ((), after) ∧
      after.Represents (front ++ back) := by
  obtain ⟨between, relinked, ran, ran_, same, closed⟩ := represents.relink
  have stored := represents.splits.stored
  refine ⟨_, ?_, closed⟩
  rw [gossipEnvelopeRemove, Access.load_bind stored, Access.bind_of_run ran,
    Access.bind_of_run ran_]
  exact Access.release_run (same.trans stored)

/-! ### Enqueueing -/

/-- An envelope allocated where nothing was is put behind all others. -/
theorem gossipEnvelopeEnqueue_run {nodes : Nodes} (represents : list.Represents nodes)
    {address : Nat} (fresh : list.cells address = none) (envelope : MessageEnvelopeOut) :
    ∃ after, (do gossipEnvelopeCreate address envelope; gossipEnvelopeEnqueue address) list
        = some ((), after) ∧
      after.Represents (nodes ++ [(address, envelope)]) := by
  have alone : address ∉ nodes.map Prod.fst :=
    fun member => represents.linked.allocated member fresh
  -- The new cell, its forward link null once more.
  let made : LinkedList MessageEnvelopeOut :=
    { list with cells := Function.update list.cells address (some ⟨envelope, none, none⟩) }
  have created : (do gossipEnvelopeCreate address envelope; gossipEnvelopeEnqueue address) list =
      gossipEnvelopeEnqueue address made := rfl
  have stored : made.cells address = some ⟨envelope, none, none⟩ := Function.update_self _ _ _
  have again : Access.update address (fun cell => { cell with next := none }) made =
      some ((), made) := by
    rw [Access.update_run stored]
    simp [made]
  rw [created, gossipEnvelopeEnqueue, Access.bind_of_run again, Access.head_bind, Access.tail_bind]
  rcases List.eq_nil_or_concat' nodes with rfl | ⟨rest, ⟨last, waiting⟩, whole⟩
  · -- The envelope is alone in the queue.
    have noHead : made.head = none := represents.head
    rw [noHead]
    refine ⟨_, rfl, represents.concat fresh trivial stored rfl rfl fun other apart => ?_⟩
    exact iff_of_eq (congrArg (· = none) (Function.update_of_ne apart _ _))
  · -- The last envelope is linked on to the new one, and that back to it.
    have standing : exit none nodes = some last := by
      rw [whole, exit_append]
      rfl
    obtain ⟨first, starts⟩ : ∃ first, entry nodes none = some first := by
      rw [whole, entry_append]
      cases rest with
      | nil => exact ⟨_, rfl⟩
      | cons node others => exact ⟨_, rfl⟩
    have someHead : made.head = some first := represents.head.trans starts
    have someTail : made.tail = some last := represents.tail.trans standing
    rw [someHead, someTail]
    let pointed : LinkedList MessageEnvelopeOut :=
      { made with cells := Function.update made.cells address (some ⟨envelope, some last, none⟩) }
    have backwards : Access.update address (fun cell => { cell with prev := some last }) made =
        some ((), pointed) := Access.update_run stored _
    have still : Segment pointed.cells none nodes none :=
      (represents.linked.update_apart alone _).update_apart alone _
    obtain ⟨joined, ran, linked, newHead, -, spared⟩ :=
      setNextOf_run still represents.distinct represents.head (some address)
    rw [standing] at ran
    have forwards : Access.update last (fun cell => { cell with next := some address }) pointed =
        some ((), joined) := ran
    refine ⟨{ joined with tail := some address }, ?_,
      represents.concat fresh linked ?_ newHead rfl fun other apart => ?_⟩
    · simp only [Access.bind_of_run backwards, Access.bind_of_run forwards]
      rfl
    · rw [spared.rest _ alone, standing]
      exact Function.update_self _ _ _
    · exact (spared.allocated other).trans (iff_of_eq (congrArg (· = none)
        ((Function.update_of_ne apart _ _).trans (Function.update_of_ne apart _ _))))

/-! ### Clearing -/

/-- Every envelope of a stretch is released, and nothing else. -/
theorem gossipEnvelopesDestroy_run {nodes : Nodes} {first : Option Nat}
    (linked : Segment list.cells first nodes none) (distinct : (nodes.map Prod.fst).Nodup)
    {fuel : Nat} (enough : nodes.length ≤ fuel) :
    ∃ after, gossipEnvelopesDestroy fuel (entry nodes none) list = some ((), after) ∧
      (∀ address ∈ nodes.map Prod.fst, after.cells address = none) ∧
      ∀ address ∉ nodes.map Prod.fst, after.cells address = list.cells address := by
  induction nodes generalizing first list fuel with
  | nil =>
    refine ⟨list, ?_, List.forall_mem_nil _, fun _ _ => rfl⟩
    cases fuel <;> rfl
  | cons node rest ih =>
    obtain ⟨address, envelope⟩ := node
    obtain ⟨less, rfl, enough_⟩ := exists_less enough
    obtain ⟨stored, further⟩ := linked
    obtain ⟨alone, others⟩ := List.nodup_cons.mp distinct
    -- The link was read before, and the later envelopes do not depend on this one.
    let freed : LinkedList MessageEnvelopeOut :=
      { list with cells := Function.update list.cells address none }
    have left : Segment freed.cells (some address) rest none := further.update_apart alone none
    obtain ⟨after, ran, released, spared⟩ := ih left others enough_
    refine ⟨after, ?_, fun other member => ?_, fun other apart => ?_⟩
    · rw [entry_cons, gossipEnvelopesDestroy, Access.load_bind stored,
        Access.bind_of_run (Access.release_run stored)]
      exact ran
    · rcases List.mem_cons.mp member with rfl | later
      · exact (spared _ alone).trans (Function.update_self _ _ _)
      · exact released other later
    · have elsewhere : other ≠ address := List.ne_of_not_mem_cons apart
      have notRest : other ∉ rest.map Prod.fst := List.not_mem_of_not_mem_cons apart
      exact (spared other notRest).trans (Function.update_of_ne elsewhere _ _)

/-- A cleared queue is empty, and nothing stays allocated. -/
theorem gossipEnvelopeClear_run {nodes : Nodes} (represents : list.Represents nodes) {fuel : Nat}
    (enough : nodes.length ≤ fuel) :
    ∃ after, gossipEnvelopeClear fuel list = some ((), after) ∧ after.Represents [] := by
  obtain ⟨after, ran, released, spared⟩ :=
    gossipEnvelopesDestroy_run represents.linked represents.distinct enough
  refine ⟨{ after with head := none, tail := none }, ?_,
    ⟨List.nodup_nil, trivial, rfl, rfl, fun address held => ?_⟩⟩
  · rw [gossipEnvelopeClear, Access.head_bind, represents.head, Access.bind_of_run ran]
    rfl
  · -- What was allocated was in the queue, and all of that was released.
    by_cases member : address ∈ nodes.map Prod.fst
    · exact absurd (released address member) held
    · exact absurd (represents.owned address (spared address member ▸ held)) member

/-! ### Searching -/

/-- The search finds the first envelope with the sequence number. -/
theorem gossipEnvelopeFindBySequenceNum_run (sequenceNum : UInt32) {nodes : Nodes}
    {first : Option Nat} (linked : Segment list.cells first nodes none) {fuel : Nat}
    (enough : nodes.length ≤ fuel) :
    gossipEnvelopeFindBySequenceNum sequenceNum fuel (entry nodes none) list =
      some ((nodes.find? fun node => node.2.sequenceNum = sequenceNum).map Prod.fst, list) := by
  induction nodes generalizing first fuel with
  | nil => cases fuel <;> rfl
  | cons node rest ih =>
    obtain ⟨address, envelope⟩ := node
    obtain ⟨less, rfl, enough_⟩ := exists_less enough
    have later := ih linked.2 enough_
    rw [entry_cons, gossipEnvelopeFindBySequenceNum, Access.load_bind linked.1]
    -- The walk stops at the first match, as the search of the list does.
    by_cases here : envelope.sequenceNum = sequenceNum
    · simp [here]
    · simp [here, later]

/-- The first envelope with the sequence number is taken out, if there is one. -/
theorem gossipEnvelopeAcknowledge_run (sequenceNum : UInt32) {nodes : Nodes}
    (represents : list.Represents nodes) {fuel : Nat} (enough : nodes.length ≤ fuel) :
    ∃ after, gossipEnvelopeAcknowledge fuel sequenceNum list = some ((), after) ∧
      after.Represents (nodes.eraseP fun node => node.2.sequenceNum = sequenceNum) := by
  rw [gossipEnvelopeAcknowledge, Access.head_bind, represents.head,
    Access.bind_of_run (gossipEnvelopeFindBySequenceNum_run sequenceNum represents.linked enough)]
  -- The walk finds the same envelope as a search of the list, and unlinks its cell.
  cases found : nodes.find? fun node => node.2.sequenceNum = sequenceNum with
  | none =>
    refine ⟨list, rfl, ?_⟩
    rw [List.eraseP_of_forall_not]
    · exact represents
    · exact fun node member => List.find?_eq_none.mp found node member
  | some node =>
    obtain ⟨named, front, back, split, others⟩ := List.find?_eq_some_iff_append.mp found
    obtain ⟨address, envelope⟩ := node
    subst split
    obtain ⟨after, ran, closed⟩ := gossipEnvelopeRemove_run represents
    have taken : List.eraseP (fun node : Nat × MessageEnvelopeOut => node.2.sequenceNum = sequenceNum)
        ((address, envelope) :: back) = back := List.eraseP_cons_of_pos named
    refine ⟨after, ran, ?_⟩
    rw [List.eraseP_append_right _ (by simpa using others), taken]
    exact closed

/-! ### Reclaiming a slot -/

/-- An envelope refers to a slot of the output buffer. -/
def WithinBuffer (envelope : MessageEnvelopeOut) : Prop :=
  envelope.buffer / messageMaxSize < maxOutputMessages

instance (envelope : MessageEnvelopeOut) : Decidable (WithinBuffer envelope) :=
  inferInstanceAs (Decidable (_ < _))

/-- The oldest envelope so far is known by its place in the queue, and by its address. -/
inductive Known (nodes : Nodes) : Option (Nat × MessageEnvelopeOut) → Option Nat → Prop
  | nobody : Known nodes none none
  | envelope {place address : Nat} {envelope : MessageEnvelopeOut}
      (found : nodes[place]? = some (address, envelope)) :
      Known nodes (some (place, envelope)) (some address)

/-- A slot is marked when it was, or when the envelope at hand refers to it. -/
theorem mark_or {occupied : List Bool} (envelope : MessageEnvelopeOut)
    (inside : envelope.buffer / messageMaxSize < occupied.length)
    {rest : List MessageEnvelopeOut} (i : Nat) :
    ((occupied.set (envelope.buffer / messageMaxSize) true).getD i false ||
        bufferIsOccupied rest i) =
      (occupied.getD i false || bufferIsOccupied (envelope :: rest) i) := by
  by_cases here : envelope.buffer / messageMaxSize = i
  · subst here
    simp [bufferIsOccupied, inside]
  · have elsewhere : (envelope.buffer / messageMaxSize == i) = false := beq_eq_false_iff_ne.mpr here
    simp [bufferIsOccupied, List.getElem?_set_ne here, elsewhere]

/-- The scan meets the same oldest envelope by its address, and marks the slots in use. -/
theorem scanOutputBuffers_run {nodes : Nodes} (linked : Segment list.cells none nodes none)
    (within : ∀ node ∈ nodes, WithinBuffer node.2) (passed rest : Nodes)
    (whole : nodes = passed ++ rest) {oldest : Option (Nat × MessageEnvelopeOut)}
    {found : Option Nat} (known : Known nodes oldest found) {occupied : List Bool}
    (size : occupied.length = maxOutputMessages) {fuel : Nat} (enough : rest.length ≤ fuel) :
    ∃ found_ marks,
      scanOutputBuffers fuel (entry rest none) found occupied list = some ((found_, marks), list) ∧
      Known nodes (findOldestEnvelope passed.length oldest (rest.map Prod.snd)) found_ ∧
      ∀ i, marks.getD i false =
        (occupied.getD i false || bufferIsOccupied (rest.map Prod.snd) i) := by
  -- The scan goes on from any cell, with what it found among the ones it passed.
  induction rest generalizing passed oldest found occupied fuel with
  | nil =>
    refine ⟨found, occupied, ?_, known, fun i => (Bool.or_false _).symm⟩
    cases fuel <;> rfl
  | cons node rest ih =>
    obtain ⟨address, envelope⟩ := node
    obtain ⟨less, rfl, enough_⟩ := exists_less enough
    have here : nodes[passed.length]? = some (address, envelope) := by
      rw [whole, List.getElem?_append_right (Nat.le_refl _), Nat.sub_self]
      rfl
    obtain ⟨-, stored, -⟩ := segment_append.mp (whole ▸ linked)
    have inside : envelope.buffer / messageMaxSize < occupied.length :=
      size ▸ within _ (List.mem_of_getElem? here)
    have marked : (occupied.set (envelope.buffer / messageMaxSize) true).length
        = maxOutputMessages := by rw [List.length_set, size]
    have further := fun {oldest_ found_} (known_ : Known nodes oldest_ found_) =>
      ih (passed ++ [(address, envelope)]) (by rw [whole, List.append_assoc]; rfl) known_ marked
        enough_
    rw [List.length_append, List.length_singleton] at further
    rw [entry_cons, scanOutputBuffers, Access.load_bind stored]
    cases known with
    | nobody =>
      obtain ⟨found_, marks, ran, known_, marks_⟩ := further (.envelope here)
      refine ⟨found_, marks, ?_, known_, fun i => ?_⟩
      · simpa [inside] using ran
      · rw [marks_, mark_or envelope inside]
        rfl
    | @envelope place held oldest_ at_ =>
      obtain ⟨cell, stored_, same⟩ := linked.stored (List.mem_of_getElem? at_)
      by_cases older : envelope.attemptNum > oldest_.attemptNum
      · obtain ⟨found_, marks, ran, known_, marks_⟩ := further (.envelope here)
        refine ⟨found_, marks, ?_, ?_, fun i => ?_⟩
        · simpa [Access.load_bind stored_, inside, same, older] using ran
        · rw [List.map_cons, findOldestEnvelope, if_pos older]
          exact known_
        · rw [marks_, mark_or envelope inside]
          rfl
      · obtain ⟨found_, marks, ran, known_, marks_⟩ := further (.envelope at_)
        refine ⟨found_, marks, ?_, ?_, fun i => ?_⟩
        · simpa [Access.load_bind stored_, inside, same, older] using ran
        · rw [List.map_cons, findOldestEnvelope, if_neg older]
          exact known_
        · rw [marks_, mark_or envelope inside]
          rfl

/-- From one envelope on, those that share a slot are removed until one does not. -/
theorem reclaimOutputBuffer_run (chosen : Nat) {passed rest : Nodes}
    (represents : list.Represents (passed ++ rest)) {fuel : Nat} (enough : rest.length ≤ fuel) :
    ∃ after, reclaimOutputBuffer chosen fuel (entry rest none) list =
        some ((rest.takeWhile fun node => node.2.buffer == chosen).map Prod.fst, after) ∧
      after.Represents (passed ++ rest.dropWhile fun node => node.2.buffer == chosen) := by
  induction rest generalizing list fuel with
  | nil =>
    refine ⟨list, ?_, represents⟩
    cases fuel <;> rfl
  | cons node rest ih =>
    obtain ⟨address, envelope⟩ := node
    obtain ⟨less, rfl, enough_⟩ := exists_less enough
    rw [entry_cons, reclaimOutputBuffer, Access.load_bind represents.splits.stored]
    by_cases shared : envelope.buffer = chosen
    · -- The saved link leads to the rest of the queue, which the removal has linked up.
      obtain ⟨closed, removed, represents_⟩ := gossipEnvelopeRemove_run represents
      obtain ⟨after, ran, left⟩ := ih represents_ enough_
      refine ⟨after, ?_, ?_⟩
      · simp [shared, Access.bind_of_run removed, Access.bind_of_run ran]
      · simpa [shared] using left
    · refine ⟨list, ?_, ?_⟩
      · simp [shared]
      · simpa [shared] using represents

/-- Choosing a slot leaves the queue the choice leaves, and removes no envelope twice. -/
theorem gossipFindAvailableOutputBuffer_run {nodes : Nodes} (represents : list.Represents nodes)
    (within : ∀ node ∈ nodes, WithinBuffer node.2) {fuel : Nat} (enough : nodes.length ≤ fuel) :
    ∃ removed after kept,
      gossipFindAvailableOutputBuffer fuel list =
        some (((chooseOutputBuffer (nodes.map Prod.snd)).1, removed), after) ∧
      after.Represents kept ∧ kept.Sublist nodes ∧
      kept.map Prod.snd = (chooseOutputBuffer (nodes.map Prod.snd)).2.1 ∧
      removed.Sublist (nodes.map Prod.fst) := by
  have unmarked : (List.replicate maxOutputMessages false).length = maxOutputMessages :=
    List.length_replicate
  obtain ⟨found, marks, ran, known, marked⟩ :=
    scanOutputBuffers_run represents.linked within [] nodes rfl .nobody unmarked enough
  have same : ((List.range maxOutputMessages).find? fun i => !(marks.getD i false)) =
      (List.range maxOutputMessages).find? fun i => !bufferIsOccupied (nodes.map Prod.snd) i := by
    refine List.find?_congr fun i slot => ?_
    rw [marked, List.getD_replicate _ (List.mem_range.mp slot), Bool.false_or]
  rw [gossipFindAvailableOutputBuffer, Access.head_bind, represents.head, Access.bind_of_run ran]
  simp only [same]
  cases free : (List.range maxOutputMessages).find? fun i =>
      !bufferIsOccupied (nodes.map Prod.snd) i with
  | some i =>
    rw [chooseOutputBuffer, free]
    exact ⟨[], list, nodes, rfl, represents, List.Sublist.refl _, rfl, List.nil_sublist _⟩
  | none =>
    -- No slot is free, so there are envelopes, and the search finds one of them.
    have waiting : nodes.map Prod.snd ≠ [] := by
      intro none_
      have occupied := List.find?_eq_none.mp free 0 (by decide)
      rw [none_] at occupied
      exact occupied rfl
    obtain ⟨ahead, oldest, behind, search, -, -⟩ := findOldestEnvelope_spec waiting
    rw [List.length_nil, search] at known
    obtain ⟨address, at_, rfl⟩ : ∃ address,
        nodes[ahead.length]? = some (address, oldest) ∧ found = some address := by
      cases known with
      | envelope at_ => exact ⟨_, at_, rfl⟩
    obtain ⟨inside, here⟩ := List.getElem?_eq_some_iff.mp at_
    obtain ⟨cell, stored, value⟩ := represents.linked.stored (List.mem_of_getElem? at_)
    have behind_ : nodes.drop ahead.length = (address, oldest) :: nodes.drop (ahead.length + 1) := by
      rw [List.drop_eq_getElem_cons inside, here]
    have enough_ : (nodes.drop ahead.length).length ≤ fuel :=
      (List.drop_sublist _ _).length_le.trans enough
    have halves := (List.take_append_drop ahead.length nodes).symm
    rw [halves] at represents
    obtain ⟨after, ran_, left⟩ := reclaimOutputBuffer_run oldest.buffer represents enough_
    rw [behind_, entry_cons, ← behind_] at ran_
    let sharing := fun node : Nat × MessageEnvelopeOut => node.2.buffer == oldest.buffer
    refine ⟨((nodes.drop ahead.length).takeWhile sharing).map Prod.fst, after, _, ?_, left, ?_, ?_,
      ?_⟩
    · rw [chooseOutputBuffer, free, search]
      simp only [Access.load_bind stored, value, Access.bind_of_run ran_]
      rfl
    · have fewer := (List.dropWhile_sublist sharing (l := nodes.drop ahead.length)).append_left
        (nodes.take ahead.length)
      rwa [← halves] at fewer
    · simp only [chooseOutputBuffer, free, search]
      rw [List.map_append, List.map_take, ← List.map_drop, List.dropWhile_map]
      rfl
    · exact ((List.takeWhile_sublist _).trans (List.drop_sublist _ _)).map Prod.fst

end Pittacus.Linked
