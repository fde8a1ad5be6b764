import Pittacus.Members.Received
import Pittacus.Outbound.GivingUp
import Pittacus.Receiving.Taking

/-!
A node in memory keeps what the node it stands for knows, in every run.

It never touches memory that is not its own, and gives all of it back but the blocks it loses.
-/

namespace Pittacus.Stored

open Storage

/-! ### Nodes that stand for nodes -/

/-- A node in memory is in the state of another one, and its set consists of the same members. -/
structure Mirrors (least : Nat) (memory : Blocks MemberBlock) (gossip : PittacusGossip) (node : Node)
    (others : List (Nat × MemberBlock)) : Prop where
  state : node.state = gossip.state
  members : ∃ members held, node.members = some members ∧ Owns memory members held others ∧
    Shows gossip.members held ∧ Sound least held

/-- All memory that is asked for is granted. -/
def granted : Nat → MemberBlock → Bool := fun _ _ => false

theorem granted_not_refuses : ¬Refuses granted := fun ⟨_, _, refused⟩ => nomatch refused

variable {least : Nat} {memory : Blocks MemberBlock} {gossip : PittacusGossip} {node : Node}
  {others : List (Nat × MemberBlock)}

/-- What a node in memory stands for does not depend on the blocks beside its own. -/
theorem Mirrors.frame (mirrors : Mirrors least memory gossip node others) :
    ∃ own, memory.Holds (own ++ others) ∧ ∀ {after : Blocks MemberBlock}
      {more : List (Nat × MemberBlock)}, after.Holds (own ++ more) →
        Mirrors least after gossip node more := by
  obtain ⟨state, members, held, made, owns, shows_, sound⟩ := mirrors
  obtain ⟨own, holds, framed⟩ := owns.frame
  exact ⟨own, holds, fun kept => ⟨state, members, held, made, framed kept, shows_, sound⟩⟩

/-- A node stands as well for any other one with the same state and members. -/
theorem Mirrors.congr {other : PittacusGossip} (mirrors : Mirrors least memory gossip node others)
    (state : other.state = gossip.state) (members : other.members = gossip.members) :
    Mirrors least memory other node others where
  state := mirrors.state.trans state.symm
  members := by
    rw [members]
    exact mirrors.members

/-- A step follows another one: a node stands for the next one, and so many blocks are lost. -/
def Follows (least : Nat) (node : Node) (others : List (Nat × MemberBlock))
    (gossip : PittacusGossip) (count : Nat) (next : Node) (after : Blocks MemberBlock) : Prop :=
  ∃ lost, Mirrors least after gossip next (lost ++ others) ∧ lost.length = count ∧
    next.place = node.place ∧ next.selfAddress = node.selfAddress

/-- A node that does nothing goes on standing for one that does nothing. -/
theorem Follows.same {other : PittacusGossip} (mirrors : Mirrors least memory gossip node others)
    (state : other.state = gossip.state) (members : other.members = gossip.members) :
    Follows least node others other 0 node memory :=
  ⟨[], mirrors.congr state members, rfl, rfl, rfl⟩

/-! ### Steps -/

/-- The members of a received message are put into the set of both nodes. -/
theorem putReceived_mirrors {received : Nat} {newMembers : List ClusterMember}
    (mirrors : Mirrors least memory gossip node ((received, .received newMembers) :: others))
    (long : ∀ member ∈ newMembers, least ≤ member.address.length) {next : PittacusGossip}
    (state : next.state = gossip.state)
    (members : next.members = Pittacus.clusterMemberSetPut gossip.members newMembers) :
    (putReceived node received).Ensures granted memory False fun after stored =>
      Mirrors least stored next after ((received, .received newMembers) :: others) ∧
        after.place = node.place ∧ after.selfAddress = node.selfAddress := by
  obtain ⟨same, set, held, made, owns, shows_, sound⟩ := mirrors
  unfold putReceived
  rw [made]
  obtain ⟨own, holds, -⟩ := owns.frame
  have listed : (received, MemberBlock.received newMembers) ∈
      own ++ (received, .received newMembers) :: others :=
    List.mem_append_right _ List.mem_cons_self
  have lends : Lends granted := fun _ _ => rfl
  have put : ((SetCall.put newMembers).call set).Ensures granted memory False _ :=
    (put_goes least owns shows_ newMembers).imp
      (fun trouble => trouble ⟨lends, sound, long⟩) fun _ _ went => went
  refine (ensures_load holds listed).bind ?_
  rintro _ _ ⟨rfl, rfl⟩
  refine put.bind ?_
  rintro result after ⟨heldAfter, standsFor, went⟩
  obtain ⟨taken, -, rfl, whole | refused⟩ := went.stands
  · refine ensures_pure ⟨⟨same.trans state.symm, result.2, heldAfter, rfl, went.owns, ?_,
      went.sound lends sound long⟩, rfl, rfl⟩
    rw [members, ← whole.2]
    exact went.shows_
  · exact absurd refused.2 granted_not_refuses

/-- A released block is no part of what a node stands for. -/
theorem Mirrors.free {address : Nat} {content : MemberBlock}
    (mirrors : Mirrors least memory gossip node ((address, content) :: others)) :
    (Storage.free (some address)).Ensures granted memory False fun _ after =>
      Mirrors least after gossip node others := by
  obtain ⟨own, holds, framed⟩ := mirrors.frame
  exact (ensures_free (holds.perm List.perm_middle)).imp id fun _ after kept => framed kept

/-- A message is taken in by both nodes, or loses its block and is dropped by both. -/
theorem takeReceived_mirrors {β : Type} {decode : Storage MemberBlock (Except Int (Nat × β))}
    {brought : β → List ClusterMember} {whole : Except Int (Nat × β)} {abandoned : Prop}
    [Decidable abandoned] (mirrors : Mirrors least memory gossip node others)
    (reads : Reads granted decode brought whole (if abandoned then 1 else 0))
    (failed : abandoned → whole.isOk = false) {state : PittacusGossipState}
    {next : PittacusGossip} (takes : Takes gossip whole brought state next)
    (long : ∀ member ∈ next.members.live, least ≤ member.address.length) :
    (takeReceived node state decode fun block => Storage.free (some block)).Ensures granted memory
      False (Follows least node others next (if abandoned then 1 else 0)) := by
  obtain ⟨own, holds, framed⟩ := mirrors.frame
  refine (reads holds).bind ?_
  rintro (code | ⟨block, message⟩) after answer
  · obtain ⟨refused, lost, kept, counted⟩ := answer
    have unchanged : next.state = gossip.state ∧ next.members = gossip.members := by
      have failed := refused granted_not_refuses
      cases whole with
      | ok message => cases failed
      | error code => exact takes
    have stays : Mirrors least after next node (lost ++ others) :=
      (framed (kept.perm (List.perm_append_comm_assoc _ _ _))).congr unchanged.1 unchanged.2
    exact ensures_pure ⟨lost, stays, counted.2 granted_not_refuses, rfl, rfl⟩
  · obtain ⟨⟨bytes, same⟩, kept⟩ := answer
    rw [same] at takes
    obtain ⟨entered, members⟩ := takes
    rw [if_neg (not_abandoned failed same)]
    -- Whoever is put is known afterwards.
    have ok : gossip.members.Ok := by
      obtain ⟨_, _, -, -, shows_, -⟩ := mirrors.members
      exact shows_.ok
    have brings : ∀ member ∈ brought message, least ≤ member.address.length := by
      intro member listed
      refine long member ?_
      rw [members]
      exact ((ok.put (brought message)).2 member).mpr (.inr listed)
    have enters : Mirrors least after { gossip with state := state } { node with state := state }
        ((block, .received (brought message)) :: others) := by
      obtain ⟨-, set, held, made, owns, shows_, sound⟩ := framed (kept.perm List.perm_middle.symm)
      exact ⟨rfl, set, held, made, owns, shows_, sound⟩
    refine (putReceived_mirrors enters brings entered members).bind ?_
    rintro taken stored ⟨took, place, address⟩
    exact took.free.bind fun _ final freed =>
      ensures_pure ⟨[], freed, rfl, place, address⟩

/-- What is done only when connected is done by both nodes, or by none of them. -/
theorem guarded_mirrors {handler : Storage MemberBlock Node} {abandoned : Prop}
    [Decidable abandoned] {next : PittacusGossip}
    (mirrors : Mirrors least memory gossip node others)
    (apart : gossip.state ≠ .connected → next = gossip)
    (handles : gossip.state = .connected → handler.Ensures granted memory False
      (Follows least node others next (if abandoned then 1 else 0))) :
    (if node.state ≠ .connected then return node else handler : Storage MemberBlock Node).Ensures
      granted memory False
      (Follows least node others next (if node.state = .connected ∧ abandoned then 1 else 0)) := by
  by_cases connected : node.state = .connected
  · rw [if_neg (not_not.mpr connected)]
    simpa only [connected, true_and] using handles (mirrors.state.symm.trans connected)
  · rw [if_pos connected, if_neg fun both => connected both.1]
    rw [apart fun same => connected (mirrors.state.trans same)]
    exact ensures_pure (Follows.same mirrors rfl rfl)

/-- Both nodes handle a datagram, at the loss of one block if it leaks. -/
theorem gossipHandleNewMessage_mirrors (envelopeIn : MessageEnvelopeIn) (sender : List UInt8)
    (random : Nat → UInt32) (mirrors : Mirrors least memory gossip node others)
    (long : ∀ member ∈ (Pittacus.gossipHandleNewMessage { envelopeIn with sender := sender } random
      gossip).state.members.live, least ≤ member.address.length) :
    (gossipHandleNewMessage envelopeIn node).Ensures granted memory False
      (Follows least node others
        (Pittacus.gossipHandleNewMessage { envelopeIn with sender := sender } random gossip).state
        (if Leaks node.state envelopeIn.buffer envelopeIn.bufferSize then 1 else 0)) := by
  obtain ⟨_, buffer, bufferSize⟩ := envelopeIn
  have leaks : Leaks node.state buffer bufferSize ↔ _ := leaks_iff
  unfold gossipHandleNewMessage
  unfold Pittacus.gossipHandleNewMessage at long ⊢
  dsimp only at long ⊢
  rw [messageTypeDecode_result] at long ⊢
  by_cases short : bufferSize < messageHeaderSize
  · rw [if_pos short, if_neg fun leaks => absurd leaks.long (Nat.not_le.mpr short)]
    exact ensures_pure (Follows.same mirrors rfl rfl)
  · rw [if_neg short] at long ⊢
    dsimp only at long ⊢
    by_cases hello : buffer 5 = messageHelloType
    · rw [if_pos hello] at leaks long ⊢
      rw [if_pos hello, if_congr leaks rfl rfl]
      refine guarded_mirrors mirrors
        (fun apart => congrArg _ (returnIfNotConnected_apart _ apart)) fun connected => ?_
      refine takeReceived_mirrors mirrors (messageHelloDecode_reads buffer bufferSize)
        (fun abandons => abandons.2) ?_ long
      rw [mirrors.state]
      exact gossipHandleHello_changes ⟨sender, buffer, bufferSize⟩ connected
    · rw [if_neg hello] at leaks long ⊢
      rw [if_neg hello]
      by_cases welcome : buffer 5 = messageWelcomeType
      · rw [if_pos welcome] at leaks long ⊢
        rw [if_pos welcome, if_congr leaks rfl rfl]
        exact takeReceived_mirrors mirrors (messageWelcomeDecode_reads buffer bufferSize)
          (fun abandons => abandons.2)
          (gossipHandleWelcome_changes ⟨sender, buffer, bufferSize⟩ gossip) long
      · rw [if_neg welcome] at leaks long ⊢
        rw [if_neg welcome]
        by_cases list : buffer 5 = messageMemberListType
        · rw [if_pos list] at long ⊢
          rw [if_pos list, if_congr leaks rfl rfl]
          refine guarded_mirrors mirrors
            (fun apart => congrArg _ (returnIfNotConnected_apart _ apart)) fun connected => ?_
          refine takeReceived_mirrors mirrors (messageMemberListDecode_reads buffer bufferSize)
            (fun abandons => abandons.2) ?_ long
          rw [mirrors.state]
          exact gossipHandleMemberList_changes ⟨sender, buffer, bufferSize⟩ connected
        · -- Data, acknowledgements and statuses bring no members.
          rw [if_neg list, if_neg list, if_neg fun leaky => list (leaks.mp leaky).2.type]
          have stays := otherTypes_stays ⟨sender, buffer, bufferSize⟩ random (buffer 5) gossip
          exact ensures_pure (Follows.same mirrors stays.1 stays.2)

/-! ### Calls -/

/-- What a call on a node does that concerns its members. -/
def callsFor (gossip : PittacusGossip) : Input → List NodeCall
  | .join seedNodes =>
    [.join seedNodes ((gossipStep (.join seedNodes) gossip).state.state = .joining)]
  | .processReceive datagram _ beyond _ => [.receive datagram beyond]
  | .processSend times results =>
    (gossip.givesUp (.processSend times results)).map fun envelope => .giveUp envelope.recipient
  | .sendData _ _ | .tick _ _ => []

/-- How many blocks a call on a node loses. -/
def lossAt (gossip : PittacusGossip) : Input → Nat
  | .processReceive datagram _ beyond _ => (NodeCall.receive datagram beyond).lost gossip.state
  | _ => 0

/-- No address that is compared is longer than the addresses of the members there are. -/
def Comparable (least : Nat) (gossip : PittacusGossip) (input : Input) : Prop :=
  (∀ member ∈ (gossipStep input gossip).state.members.live, least ≤ member.address.length) ∧
    ∀ envelope ∈ gossip.givesUp input, envelope.recipient.length ≤ least

instance (least : Nat) (gossip : PittacusGossip) (input : Input) :
    Decidable (Comparable least gossip input) :=
  inferInstanceAs (Decidable ((∀ member ∈ (gossipStep input gossip).state.members.live, _) ∧
    ∀ envelope ∈ gossip.givesUp input, _))

/-- One call is carried out like a list of one. -/
theorem run_one {call : NodeCall} {post : Node → Blocks MemberBlock → Prop}
    (ensures : (call.call node).Ensures granted memory False post) :
    (NodeCall.run [call] node).Ensures granted memory False fun result after =>
      post result.2 after :=
  ensures.bind fun _ _ met => ensures_pure met

/-- Both nodes receive a datagram, at the loss of one block if it leaks. -/
theorem processReceive_mirrors (datagram sender : List UInt8) (beyond : Nat → UInt8)
    (random : Nat → UInt32) (mirrors : Mirrors least memory gossip node others)
    (long : ∀ member ∈ (gossipStep (.processReceive datagram sender beyond random)
      gossip).state.members.live, least ≤ member.address.length) :
    (pittacusGossipProcessReceive datagram beyond node).Ensures granted memory False
      (Follows least node others
        (gossipStep (.processReceive datagram sender beyond random) gossip).state
        ((NodeCall.receive datagram beyond).lost gossip.state)) := by
  have exchanges : gossip.exchanges = true ↔ node.state = .joining ∨ node.state = .connected := by
    rw [mirrors.state]
    simp [PittacusGossip.exchanges]
  unfold pittacusGossipProcessReceive NodeCall.lost
  rw [← mirrors.state]
  dsimp only
  by_cases listens : node.state = .joining ∨ node.state = .connected
  · rw [if_neg (not_not.mpr listens)]
    by_cases empty : datagram.take messageMaxSize = []
    · -- Both take an empty datagram for an error of the socket.
      have refused : (gossipStep (.processReceive datagram sender beyond random) gossip).state
          = gossip := by
        simp only [gossipStep, Pittacus.pittacusGossipProcessReceive, Routine.get_bind_run,
          exchanges.mpr listens, empty]
        rfl
      have whole : ¬Leaks node.state _ _ := not_leaks_of_empty beyond empty
      rw [if_pos (List.isEmpty_iff.mpr empty), if_neg fun both => whole both.2, refused]
      exact ensures_pure (Follows.same mirrors rfl rfl)
    · rw [processReceive_exchanges (exchanges.mpr listens) empty] at long ⊢
      rw [if_neg fun nothing => empty (List.isEmpty_iff.mp nothing)]
      simp only [listens, true_and]
      exact gossipHandleNewMessage_mirrors (envelopeOf datagram [] beyond) sender random mirrors long
  · have refused : (gossipStep (.processReceive datagram sender beyond random) gossip).state
        = gossip := by
      have apart : gossip.exchanges = false := Bool.eq_false_iff.mpr fun yes =>
        listens (exchanges.mp yes)
      simp only [gossipStep, Pittacus.pittacusGossipProcessReceive, Routine.get_bind_run, apart]
      rfl
    rw [if_pos listens, if_neg fun both => listens both.1, refused]
    exact ensures_pure (Follows.same mirrors rfl rfl)

/-- Both nodes join, or stay in the state they are in. -/
theorem join_mirrors (seedNodes : List (List UInt8))
    (mirrors : Mirrors least memory gossip node others) :
    let next := (gossipStep (.join seedNodes) gossip).state
    Mirrors least memory next (pittacusGossipJoin seedNodes (next.state = .joining) node) others := by
  intro next
  obtain ⟨same, set, held, made, owns, shows_, sound⟩ := mirrors
  have entered : next.members = gossip.members ∧ next.state =
      (pittacusGossipJoin seedNodes (next.state = .joining) node).state := by
    have ran : next = (Pittacus.pittacusGossipJoin seedNodes gossip).state := rfl
    generalize next = next at ran
    subst ran
    simp only [Pittacus.pittacusGossipJoin, pittacusGossipJoin, Routine.get_bind_run,
      Routine.ite_run, same]
    split
    · exact ⟨rfl, same.symm⟩
    rename_i fresh
    split
    · exact ⟨rfl, rfl⟩
    · refine ⟨gossipEnqueueHellos_members seedNodes gossip, ?_⟩
      rcases gossipEnqueueHellos_stage seedNodes gossip with stays | joined
      · -- A hello that could not be queued leaves the node where it was.
        rw [stays, not_not.mp fresh]
        exact (same.trans (not_not.mp fresh)).symm
      · rw [joined]
        rfl
  obtain ⟨members, state⟩ := entered
  obtain ⟨reached, joined⟩ := pittacusGossipJoin_same seedNodes (next.state = .joining) node
  refine ⟨state.symm, set, held, ?_, owns, members ▸ shows_, sound⟩
  rw [joined]
  exact made

/-- Addresses that are long enough are compared alike, whatever lies behind them. -/
theorem mayRemove_eq_hasAddr {unset : Nat → UInt8} {recipient : List UInt8} {one : Held}
    (long : recipient.length ≤ one.member.address.length) :
    mayRemove unset recipient one.member = one.hasAddr recipient := by
  have bytes : ∀ behind : Nat → UInt8,
      memcmpEqual (Decoder.memoryOf one.member.address behind) (Decoder.memoryOf recipient behind)
        recipient.length = (one.member.address.take recipient.length == recipient) :=
    fun behind => memcmpEqual_of_long behind long
  exact (bytes unset).trans (bytes fun _ => 0).symm

/-- Tests that agree on the members of a list find the same one first. -/
theorem findIdx?_congr {α : Type} {first second : α → Bool} {list : List α}
    (agree : ∀ one ∈ list, first one = second one) :
    list.findIdx? first = list.findIdx? second := by
  induction list with
  | nil => rfl
  | cons head rest ih =>
    rw [List.findIdx?_cons, List.findIdx?_cons, agree head List.mem_cons_self,
      ih fun one member => agree one (List.mem_cons_of_mem _ member)]

/-- Both nodes forget a recipient that is given up. -/
theorem giveUp_mirrors (envelope : MessageEnvelopeOut)
    (mirrors : Mirrors least memory gossip node others)
    (short : envelope.recipient.length ≤ least) :
    (giveUp envelope.recipient node).Ensures granted memory False
      (Follows least node others
        { gossip with members := forgets gossip.unset gossip.members envelope } 0) := by
  obtain ⟨same, set, held, made, owns, shows_, sound⟩ := mirrors
  unfold giveUp
  rw [made]
  obtain ⟨-, spare, lies⟩ := id owns
  have tested : ∀ one ∈ held, (hasAddr envelope.recipient (some one.place)).Ensures granted memory
      False fun answer after => answer = one.hasAddr envelope.recipient ∧ after = memory := by
    intro one member
    refine (hasAddr_spec lies.holds (blocks_subset member _ _) envelope.recipient).imp ?_
      fun _ _ same => same
    rintro (missing | shorter)
    · exact (sound one member).1 missing
    · have long := (sound one member).2
      omega
  -- Both search the same members for the same bytes.
  have searched : gossip.members.live.findIdx? (mayRemove gossip.unset envelope.recipient)
      = held.findIdx? (Held.hasAddr envelope.recipient) := by
    rw [shows_.live, List.findIdx?_map]
    exact findIdx?_congr fun one member =>
      mayRemove_eq_hasAddr (Nat.le_trans short (sound one member).2)
  refine (owns.removeFirst (Held.hasAddr envelope.recipient) tested).bind ?_
  rintro ⟨removed, left⟩ after ⟨-, owned⟩
  refine ensures_pure ⟨[], ⟨same, left, _, rfl, owned, ?_, ?_⟩, rfl, rfl, rfl⟩
  · show Shows (forgets gossip.unset gossip.members envelope) _
    rw [forgets_eq, searched]
    cases found : held.findIdx? (Held.hasAddr envelope.recipient) with
    | none => exact shows_
    | some slot =>
      obtain ⟨inside, -⟩ := List.findIdx?_eq_some_iff_getElem.mp found
      exact shows_.shift inside
  · intro one member
    cases found : held.findIdx? (Held.hasAddr envelope.recipient) with
    | none =>
      rw [found] at member
      exact sound one member
    | some slot =>
      rw [found] at member
      exact sound one (List.mem_of_mem_eraseIdx member)

/-- Both nodes forget the recipients that are given up, one after the other. -/
theorem giveUps_mirror (envelopes : List MessageEnvelopeOut)
    (mirrors : Mirrors least memory gossip node others)
    (short : ∀ envelope ∈ envelopes, envelope.recipient.length ≤ least) :
    (NodeCall.run (envelopes.map fun envelope => .giveUp envelope.recipient) node).Ensures granted
      memory False fun result after => Follows least node others
        { gossip with members := envelopes.foldl (forgets gossip.unset) gossip.members } 0 result.2
        after := by
  induction envelopes generalizing memory gossip node others with
  | nil => exact ensures_pure (Follows.same mirrors rfl rfl)
  | cons envelope rest ih =>
    refine (giveUp_mirrors envelope mirrors (short envelope List.mem_cons_self)).bind ?_
    rintro next after ⟨lost, forgot, nothing, place, address⟩
    -- Nothing was lost, so that the others own what they owned.
    obtain rfl := List.length_eq_zero_iff.mp nothing
    refine (ih forgot fun other member => short other (List.mem_cons_of_mem _ member)).bind ?_
    rintro result final ⟨more, forgotAll, nothingMore, samePlace, sameAddress⟩
    exact ensures_pure ⟨more, forgotAll, nothingMore, samePlace.trans place,
      sameAddress.trans address⟩

/-- A call on a node is mirrored, at the loss of one block if it receives a datagram that leaks. -/
theorem callsFor_mirror (input : Input) (mirrors : Mirrors least memory gossip node others)
    (comparable : Comparable least gossip input) :
    (NodeCall.run (callsFor gossip input) node).Ensures granted memory False fun result after =>
      Follows least node others (gossipStep input gossip).state (lossAt gossip input) result.2
        after := by
  cases input with
  | join seedNodes =>
    have joined := join_mirrors seedNodes mirrors
    obtain ⟨state, same⟩ := pittacusGossipJoin_same seedNodes
      ((gossipStep (.join seedNodes) gossip).state.state = .joining) node
    have called : (NodeCall.join seedNodes ((gossipStep (.join seedNodes) gossip).state.state
        = .joining)).call node = pure _ := rfl
    refine run_one ?_
    rw [called]
    refine ensures_pure ⟨[], joined, rfl, ?_, ?_⟩
    · rw [same]
    · rw [same]
  | sendData data random =>
    have stays := pittacusGossipSendData_stays data random gossip
    exact ensures_pure (Follows.same mirrors stays.1 stays.2)
  | tick now random =>
    have stays := pittacusGossipTick_stays now random gossip
    exact ensures_pure (Follows.same mirrors stays.1 stays.2)
  | processReceive datagram sender beyond random =>
    exact run_one (processReceive_mirrors datagram sender beyond random mirrors comparable.1)
  | processSend times results =>
    have state : (gossipStep (.processSend times results) gossip).state.state = gossip.state :=
      ((stage_sending gossip.state).processSend times results gossip rfl).1
    have members := (processSend_forgets times results gossip).1
    refine (giveUps_mirror (gossip.givesUp (.processSend times results)) mirrors
      comparable.2).imp id ?_
    rintro result after ⟨lost, forgot, follows⟩
    exact ⟨lost, forgot.congr state members, follows⟩

/-! ### Whole runs -/

/-- What the calls of a run do that concerns the members of the node. -/
def runCalls : List Input → PittacusGossip → List NodeCall
  | [], _ => []
  | input :: rest, gossip =>
    callsFor gossip input ++ runCalls rest (gossipStep input gossip).state

/-- Some calls after others start with the node that these leave behind. -/
theorem run_append {early late : List NodeCall} {mid post : Node → Blocks MemberBlock → Prop}
    (first : (NodeCall.run early node).Ensures granted memory False fun result after =>
      mid result.2 after)
    (second : ∀ next after, mid next after →
      (NodeCall.run late next).Ensures granted after False fun result final =>
        post result.2 final) :
    (NodeCall.run (early ++ late) node).Ensures granted memory False fun result after =>
      post result.2 after := by
  induction early generalizing memory node with
  | nil => exact second node memory first
  | cons call rest ih =>
    cases ran : call.call node granted memory with
    | none =>
      unfold Ensures at first
      rw [NodeCall.run, bind_of_fault ran] at first
      exact first.elim
    | some result =>
      have called : (call.call node).Ensures granted memory False fun next after =>
          next = result.1 ∧ after = result.2 := by
        unfold Ensures
        rw [ran]
        exact ⟨rfl, rfl⟩
      refine called.bind ?_
      rintro _ _ ⟨rfl, rfl⟩
      -- What the other calls ensure is what is left of the run.
      have others : (NodeCall.run rest result.1).Ensures granted result.2 False
          fun result after => mid result.2 after := by
        unfold Ensures at first ⊢
        rw [NodeCall.run, bind_of_run ran] at first
        cases onwards : NodeCall.run rest result.1 granted result.2 with
        | none =>
          rw [bind_of_fault onwards] at first
          exact first
        | some left =>
          rw [bind_of_run onwards] at first
          exact first
      exact (ih others).bind fun _ _ met => ensures_pure met

/-- A run of a node is mirrored, at the loss of one block for each datagram that leaks. -/
theorem runCalls_mirror (inputs : List Input) (mirrors : Mirrors least memory gossip node others)
    (comparable : Machine.Along gossipStep (Comparable least) inputs gossip) :
    (NodeCall.run (runCalls inputs gossip) node).Ensures granted memory False fun result after =>
      Follows least node others (Machine.run gossipStep inputs gossip)
        (Machine.total gossipStep lossAt inputs gossip) result.2 after := by
  induction inputs generalizing memory gossip node others with
  | nil => exact ensures_pure (Follows.same mirrors rfl rfl)
  | cons input rest ih =>
    refine run_append (callsFor_mirror input mirrors comparable.1) ?_
    rintro next after ⟨lost, called, counted, place, address⟩
    -- What this call lost lies beside the node for the rest of the run.
    refine (ih called comparable.2).imp id ?_
    rintro result final ⟨more, ran, countedMore, samePlace, sameAddress⟩
    refine ⟨more ++ lost, ?_, ?_, samePlace.trans place, sameAddress.trans address⟩
    · rw [List.append_assoc]
      exact ran
    · rw [List.length_append, Machine.total, counted, countedMore]
      exact Nat.add_comm _ _

/-- A new node stands for a new node, and owns its other blocks besides. -/
theorem pittacusGossipCreate_mirrors (least : Nat) (setup : NodeSetup) (holds : memory.Holds others) :
    (pittacusGossipCreate setup.selfAddress).Ensures granted memory False fun made after =>
      ∃ node, made = some node ∧
        Mirrors least after setup.node node (node.ownBlocks setup.selfAddress ++ others) := by
  -- No request is refused.
  have never : ∀ {content : MemberBlock}, ¬∃ number, granted number content = true :=
    fun ⟨_, refused⟩ => nomatch refused
  refine (ensures_malloc holds .unset).bind ?_
  rintro (_ | place) first answer
  · exact absurd answer.1 never
  · refine (ensures_malloc answer (.address setup.selfAddress)).bind ?_
    rintro (_ | address) second answer
    · exact absurd answer.1 never
    · refine (clusterMemberSetInit_spec answer).bind ?_
      rintro (_ | members) third made
      · exact absurd made.1 granted_not_refuses
      · obtain ⟨own, kept, framed⟩ := made.frame
        have owned := framed (kept.perm ((List.Perm.swap _ _ _).append_left own))
        exact ensures_pure ⟨_, rfl, rfl, members, [], rfl, owned, init_shows,
          fun _ member => absurd member List.not_mem_nil⟩

/--
In every run a node in memory keeps what the node it stands for knows, and touches nothing else.

When it is destroyed, all that is left is one block for each datagram that leaked.
For that, no address may be compared that is longer than those of the members there are.
-/
theorem node_in_memory (setup : NodeSetup) (least : Nat) (inputs : List Input)
    (comparable : Machine.Along gossipStep (Comparable least) inputs setup.node)
    {memory : Blocks MemberBlock} {others : List (Nat × MemberBlock)} (holds : memory.Holds others) :
    let last := Machine.run gossipStep inputs setup.node
    ∃ states node after, nodeLifetime setup.selfAddress (runCalls inputs setup.node) granted memory
        = some (some (states, node), after) ∧
      node.state = last.state ∧
      (∃ members held own, node.members = some members ∧ Owns after members held own ∧
        held.map Held.member = last.members.live) ∧
      ∃ gone lost, pittacusGossipDestroy node granted after = some ((), gone) ∧
        gone.Holds (lost ++ others) ∧
        lost.length = Machine.total gossipStep lossAt inputs setup.node := by
  intro last
  have lived : (nodeLifetime setup.selfAddress (runCalls inputs setup.node)).Ensures granted memory
      False fun made after => ∃ states node, made = some (states, node) ∧ ∃ lost,
        Mirrors least after last node (lost ++ (node.ownBlocks setup.selfAddress ++ others)) ∧
        lost.length = Machine.total gossipStep lossAt inputs setup.node := by
    refine (pittacusGossipCreate_mirrors least setup holds).bind ?_
    rintro made created ⟨node, rfl, mirrors⟩
    refine (runCalls_mirror inputs mirrors comparable).bind ?_
    rintro result final ⟨lost, ran, counted, place, address⟩
    refine ensures_pure ⟨result.1, result.2, rfl, lost, ?_, counted⟩
    rw [Node.ownBlocks, place, address]
    exact ran
  obtain ⟨made, after, ran, states, node, rfl, lost, mirrors, counted⟩ := lived.exists id
  obtain ⟨state, members, held, made, owns, shows_, -⟩ := mirrors
  have owned : node.Owns after (lost ++ (node.ownBlocks setup.selfAddress ++ others)) := by
    unfold Node.Owns
    rw [made]
    exact ⟨held, owns⟩
  have hasSet : node.members ≠ none := by
    rw [made]
    exact Option.some_ne_none members
  have destroyed : (pittacusGossipDestroy node).Ensures granted after False _ :=
    pittacusGossipDestroy_spec hasSet owned
  obtain ⟨_, gone, released, kept⟩ := destroyed.exists id
  exact ⟨states, node, after, ran, state, ⟨members, held, _, made, owns, shows_.live.symm⟩, gone,
    lost, released, kept, counted⟩

/-- A node that starts a cluster, hears of a member, is sent a list that is cut short, and talks. -/
def cutRun : List Input :=
  [.join [], .processReceive (listOfOne 1) (loopback 2) (fun _ => 0) noRandom,
    .processReceive (listOfOne 2) (loopback 2) (fun _ => 0) noRandom,
    .processSend (fun _ => 20000) fun _ => 1]

/-- The list that was cut short costs the node a block. -/
theorem node_in_memory_cut :
    ∃ states node after gone lost, nodeLifetime (loopback 1) (runCalls cutRun (localSetup 1).node)
        granted Blocks.empty = some (some (states, node), after) ∧
      pittacusGossipDestroy node granted after = some ((), gone) ∧
      gone.Holds (lost ++ []) ∧ lost.length = 1 := by
  obtain ⟨states, node, after, ran, -, -, gone, lost, released, kept, counted⟩ :=
    node_in_memory (localSetup 1) 2 cutRun (by decide) Blocks.empty_holds
  exact ⟨states, node, after, gone, lost, ran, released, kept, counted.trans (by decide)⟩

end Pittacus.Stored
