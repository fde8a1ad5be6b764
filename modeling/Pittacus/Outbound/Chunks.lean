import Pittacus.Gossip.Configured
import Pittacus.Proofs.Enqueue

/-! When the member list goes out whole, for whatever message size is configured. -/

namespace Pittacus.Configured

/-- The member lists that were handed on to be queued, in order. -/
def builtMemberLists (events : List Event) : List (MessageMemberList ClusterMember) :=
  events.filterMap fun
    | .enqueue _ _ _ (.memberList msg) _ => some msg
    | _ => none

/-- Every message built is accepted, the call does not fail, and no member is left out. -/
structure SendsWholeList (maxSize : Nat) (recipient : List UInt8) (self : PittacusGossip) :
    Prop where
  accepted : ∀ msg ∈ builtMemberLists (gossipEnqueueMemberList maxSize recipient self).events,
    ∃ size : Nat, (messageMemberListEncode msg maxSize).result = .ok (size : Int)
  returned : (gossipEnqueueMemberList maxSize recipient self).value = errNone
  whole : (builtMemberLists (gossipEnqueueMemberList maxSize recipient self).events).flatMap
    MessageMemberList.members = self.members.live

/-! ### One message -/

@[simp] theorem builtMemberLists_append (early late : List Event) :
    builtMemberLists (early ++ late) = builtMemberLists early ++ builtMemberLists late :=
  List.filterMap_append

/-- Making room for a message builds no member list. -/
theorem gossipUpdateOutputBufferOffset_builds (maxSize : Nat) (self : PittacusGossip) :
    builtMemberLists (gossipUpdateOutputBufferOffset maxSize self).events = [] := by
  -- The only events are removals.
  simp only [gossipUpdateOutputBufferOffset, Routine.get_bind_run]
  cases self.outboundMessages.isEmpty with
  | true => rfl
  | false =>
    simp [gossipFindAvailableOutputBuffer, Routine.bind_run, builtMemberLists, List.filterMap_map]

/-- The value serializing a message returns: its size, or an error. -/
def encodeCode (maxSize : Nat) (message : Message) : Int :=
  match (messageEncode message maxSize).result with
  | .ok size => size
  | .error code => code

/-- Serializing a message returns its code and causes no event. -/
theorem gossipEncodeMessage_outcome (maxSize : Nat) (message : Message) (buffer : Nat)
    (self : PittacusGossip) :
    (gossipEncodeMessage maxSize message buffer self).value = encodeCode maxSize message ∧
      (gossipEncodeMessage maxSize message buffer self).events = [] := by
  unfold gossipEncodeMessage encodeCode
  cases (messageEncode message maxSize).result with
  | error code => exact ⟨rfl, rfl⟩
  | ok size => exact ⟨rfl, rfl⟩

/-- Queueing a member list fails with the code of the encoder, and builds that one message. -/
theorem gossipEnqueueMessage_outcome (maxSize : Nat) (msg : MessageMemberList ClusterMember)
    (recipient : List UInt8) (self : PittacusGossip) :
    let code := encodeCode maxSize (.memberList msg)
    let run := gossipEnqueueMessage maxSize (.memberList msg) recipient .direct noRandom self
    run.value = (if code < 0 then code else errNone) ∧ builtMemberLists run.events = [msg] := by
  intro code run
  have placed := gossipUpdateOutputBufferOffset_builds maxSize self
  obtain ⟨value, silent⟩ := gossipEncodeMessage_outcome maxSize (.memberList msg)
    (gossipUpdateOutputBufferOffset maxSize self).value
    (gossipUpdateOutputBufferOffset maxSize self).state
  simp only [run, gossipEnqueueMessage, Routine.bind_run, Routine.emit_run, Routine.get_run,
    Routine.ite_run, builtMemberLists_append, placed, silent, value]
  -- What follows the encoder only queues envelopes.
  by_cases refused : code < 0
  · simp [code, refused, builtMemberLists]
  · simp [code, refused, gossipEnqueueToEach_run, builtMemberLists]

/-- A chunk that fits a buffer with room for all its members is accepted there. -/
theorem memberListMsg_accepted {chunk : List ClusterMember} {maxSize : Nat}
    (fits : ∀ member ∈ chunk, member.address.length ≤ sockaddrStorageSize)
    (room : messageHeaderSize + 2 + chunk.length * clusterMemberSize ≤ maxSize) :
    messageEncode (.memberList (memberListMsg chunk)) maxSize =
      ⟨.ok ((Message.memberList (memberListMsg chunk)).wire.length : Int),
        Encoder.located 0 (Message.memberList (memberListMsg chunk)).wire⟩ := by
  -- Narrowing the number of members can only make the message shorter.
  have shorter : (memberListMsg chunk).members.length ≤ chunk.length := List.length_take_le' _ _
  have fitting : (Message.memberList (memberListMsg chunk)).Fits :=
    ⟨fun member listed => fits member (List.mem_of_mem_take listed), trivial⟩
  exact messageEncode_eq fitting
    (Nat.le_trans (Nat.add_le_add_left (Nat.mul_le_mul_right _ shorter) _) room)

/-- A chunk that sixteen bits can count is refused by a buffer without room for its members. -/
theorem memberListMsg_refused {chunk : List ClusterMember} {maxSize : Nat}
    (small : chunk.length < 2 ^ 16)
    (short : maxSize < messageHeaderSize + 2 + chunk.length * clusterMemberSize) :
    encodeCode maxSize (.memberList (memberListMsg chunk))
      = PittacusError.bufferNotEnough.code := by
  -- The encoder counts the members by the size of their structs.
  have required : maxSize < (Message.memberList (memberListMsg chunk)).required := by
    rw [Message.required, memberListMsg_members small]
    exact short
  rw [encodeCode, messageEncode_short required]
  rfl

/-! ### All messages -/

section Rounds

variable (maxSize membersNum rounds : Nat) (recipient : List UInt8) {rest : List ClusterMember}
  (result : Int) (self : PittacusGossip)

/-- A message the encoder refuses ends the loop with the code of the encoder. -/
theorem gossipEnqueueMemberChunks_refused (more : rest ≠ [])
    (refused : encodeCode maxSize (.memberList (memberListMsg (rest.take membersNum))) < 0) :
    let run := gossipEnqueueMemberChunks maxSize membersNum recipient (rounds + 1) rest result self
    run.value = encodeCode maxSize (.memberList (memberListMsg (rest.take membersNum))) ∧
      builtMemberLists run.events = [memberListMsg (rest.take membersNum)] := by
  intro run
  obtain ⟨value, built⟩ := gossipEnqueueMessage_outcome maxSize
    (memberListMsg (rest.take membersNum)) recipient self
  rw [if_pos refused] at value
  simp only [run, gossipEnqueueMemberChunks_more maxSize membersNum recipient rounds more,
    Routine.bind_run, Routine.ite_run, value, builtMemberLists_append, built, if_pos refused,
    Routine.pure_run]
  exact ⟨trivial, rfl⟩

/-- After a message the encoder accepts, the loop goes on with the members behind its chunk. -/
theorem gossipEnqueueMemberChunks_accepted (more : rest ≠ [])
    (accepted : ¬encodeCode maxSize (.memberList (memberListMsg (rest.take membersNum))) < 0) :
    let run := gossipEnqueueMemberChunks maxSize membersNum recipient (rounds + 1) rest result self
    ∃ next : PittacusGossip,
      let later := gossipEnqueueMemberChunks maxSize membersNum recipient rounds
        (rest.drop membersNum) errNone next
      run.value = later.value ∧ builtMemberLists run.events =
        memberListMsg (rest.take membersNum) :: builtMemberLists later.events := by
  intro run
  obtain ⟨value, built⟩ := gossipEnqueueMessage_outcome maxSize
    (memberListMsg (rest.take membersNum)) recipient self
  -- A message that is accepted answers no error, so the loop's test lets it pass.
  rw [if_neg accepted] at value
  simp only [run, gossipEnqueueMemberChunks_more maxSize membersNum recipient rounds more,
    Routine.bind_run, Routine.ite_run, value, builtMemberLists_append, built,
    if_neg (show ¬errNone < 0 by decide)]
  exact ⟨_, rfl, rfl⟩

end Rounds

/-- The messages built never list more members than there were. -/
theorem gossipEnqueueMemberChunks_lists_le (maxSize membersNum rounds : Nat)
    (recipient : List UInt8) (rest : List ClusterMember) (result : Int) (self : PittacusGossip) :
    ((builtMemberLists (gossipEnqueueMemberChunks maxSize membersNum recipient rounds rest result
      self).events).flatMap MessageMemberList.members).length ≤ rest.length := by
  induction rounds generalizing rest result self with
  | zero => exact Nat.zero_le _
  | succ rounds ih =>
    cases none_ : rest with
    | nil => exact Nat.zero_le _
    | cons member others =>
      have more : rest ≠ [] := by rw [none_]; exact List.cons_ne_nil _ _
      rw [← none_]
      -- The message of a chunk lists part of it, and the later ones what lies behind it.
      have listed : (memberListMsg (rest.take membersNum)).members.length
          ≤ (rest.take membersNum).length := List.length_take_le' _ _
      have parts := congrArg List.length (List.take_append_drop membersNum rest)
      rw [List.length_append] at parts
      by_cases refused : encodeCode maxSize (.memberList (memberListMsg (rest.take membersNum))) < 0
      · obtain ⟨-, built⟩ := gossipEnqueueMemberChunks_refused maxSize membersNum rounds recipient
          result self more refused
        rw [built, List.flatMap_singleton]
        omega
      · obtain ⟨next, -, built⟩ := gossipEnqueueMemberChunks_accepted maxSize membersNum rounds
          recipient result self more refused
        have later := ih (rest.drop membersNum) errNone next
        rw [built, List.flatMap_cons, List.length_append]
        omega

/-- Where every chunk can be counted and fits the buffer, the loop sends all members. -/
theorem gossipEnqueueMemberChunks_sends {maxSize membersNum : Nat} (positive : 0 < membersNum)
    (small : membersNum < 2 ^ 16)
    (room : messageHeaderSize + 2 + membersNum * clusterMemberSize ≤ maxSize)
    (recipient : List UInt8) {rounds : Nat} {rest : List ClusterMember}
    (enough : rest.length ≤ rounds)
    (fits : ∀ member ∈ rest, member.address.length ≤ sockaddrStorageSize) (self : PittacusGossip) :
    let run := gossipEnqueueMemberChunks maxSize membersNum recipient rounds rest errNone self
    (∀ msg ∈ builtMemberLists run.events,
        ∃ size : Nat, (messageMemberListEncode msg maxSize).result = .ok (size : Int)) ∧
      run.value = errNone ∧
      (builtMemberLists run.events).flatMap MessageMemberList.members = rest := by
  induction rounds generalizing rest self with
  | zero =>
    have none_ : rest = [] := List.length_eq_zero_iff.mp (Nat.le_zero.mp enough)
    subst none_
    exact ⟨fun _ built => (List.not_mem_nil built).elim, rfl, rfl⟩
  | succ rounds ih =>
    cases none_ : rest with
    | nil => exact ⟨fun _ built => (List.not_mem_nil built).elim, rfl, rfl⟩
    | cons member others =>
      have more : rest ≠ [] := by rw [none_]; exact List.cons_ne_nil _ _
      rw [← none_]
      have within : (rest.take membersNum).length ≤ membersNum := List.length_take_le _ _
      have taken := memberListMsg_accepted
        (fun member listed => fits member (List.mem_of_mem_take listed))
        (Nat.le_trans (Nat.add_le_add_left (Nat.mul_le_mul_right _ within) _) room)
      have accepted :
          ¬encodeCode maxSize (.memberList (memberListMsg (rest.take membersNum))) < 0 := by
        rw [encodeCode, taken]
        exact Int.not_lt.mpr (Int.natCast_nonneg _)
      obtain ⟨next, value, built⟩ := gossipEnqueueMemberChunks_accepted maxSize membersNum rounds
        recipient errNone self more accepted
      -- Every round takes at least one member, so the rounds last.
      have shorter : (rest.drop membersNum).length ≤ rounds := by
        rw [List.length_drop]
        omega
      obtain ⟨all, returned, whole⟩ := ih shorter
        (fun member listed => fits member (List.mem_of_mem_drop listed)) next
      refine ⟨fun msg listed => ?_, value.trans returned, ?_⟩
      · rcases List.mem_cons.mp (built ▸ listed) with rfl | later
        · exact ⟨_, congrArg Encoder.result taken⟩
        · exact all msg later
      · rw [built, List.flatMap_cons, whole, memberListMsg_members (by omega),
          List.take_append_drop]

/-! ### The member list -/

/-- A configured size leaves room for the header behind as many members as it is divided into. -/
theorem room_for_chunk (maxSize count : Nat) :
    messageHeaderSize + 2 + min count (memberListSyncSize maxSize) * clusterMemberSize ≤ maxSize ↔
      messageHeaderSize + 2 ≤ maxSize % clusterMemberSize ∨ count < memberListSyncSize maxSize := by
  -- The chunk is either the quotient, which leaves the remainder, or smaller by a whole member.
  simp only [messageHeaderSize, clusterMemberSize, sockaddrStorageSize, memberListSyncSize]
  omega

/-- A first chunk too long to be counted in sixteen bits is not listed whole. -/
theorem gossipEnqueueMemberChunks_narrowed {maxSize membersNum : Nat} (long : 2 ^ 16 ≤ membersNum)
    (recipient : List UInt8) {rounds : Nat} {rest : List ClusterMember}
    (enough : membersNum ≤ rest.length) (self : PittacusGossip) :
    (builtMemberLists (gossipEnqueueMemberChunks maxSize membersNum recipient (rounds + 1) rest
      errNone self).events).flatMap MessageMemberList.members ≠ rest := by
  intro whole
  have more : rest ≠ [] := List.length_pos_iff.mp (by omega)
  have chunk : (rest.take membersNum).length = membersNum := List.length_take_of_le enough
  have listed : (memberListMsg (rest.take membersNum)).members.length = membersNum % 2 ^ 16 := by
    rw [memberListMsg, List.length_take, chunk]
    exact Nat.min_eq_left (Nat.mod_le _ _)
  have lengths := congrArg List.length whole
  by_cases refused : encodeCode maxSize (.memberList (memberListMsg (rest.take membersNum))) < 0
  · obtain ⟨-, built⟩ := gossipEnqueueMemberChunks_refused maxSize membersNum rounds recipient
      errNone self more refused
    rw [built, List.flatMap_singleton] at lengths
    omega
  · obtain ⟨next, -, built⟩ := gossipEnqueueMemberChunks_accepted maxSize membersNum rounds
      recipient errNone self more refused
    -- What lies behind the chunk cannot make up for what the first message leaves out.
    have later := gossipEnqueueMemberChunks_lists_le maxSize membersNum rounds recipient
      (rest.drop membersNum) errNone next
    rw [List.length_drop] at later
    rw [built, List.flatMap_cons, List.length_append] at lengths
    omega

/-- A first chunk without room in the buffer ends the call with an error. -/
theorem gossipEnqueueMemberChunks_short {maxSize membersNum : Nat} (positive : 0 < membersNum)
    (small : membersNum < 2 ^ 16)
    (short : maxSize < messageHeaderSize + 2 + membersNum * clusterMemberSize)
    (recipient : List UInt8) {rounds : Nat} {rest : List ClusterMember}
    (enough : membersNum ≤ rest.length) (self : PittacusGossip) :
    (gossipEnqueueMemberChunks maxSize membersNum recipient (rounds + 1) rest errNone self).value
      ≠ errNone := by
  intro returned
  have more : rest ≠ [] := List.length_pos_iff.mp (by omega)
  have chunk : (rest.take membersNum).length = membersNum := List.length_take_of_le enough
  have refused : encodeCode maxSize (.memberList (memberListMsg (rest.take membersNum)))
      = PittacusError.bufferNotEnough.code :=
    memberListMsg_refused (by omega) (by rw [chunk]; exact short)
  have failed := (gossipEnqueueMemberChunks_refused maxSize membersNum rounds recipient errNone
    self more (by rw [refused]; decide)).1
  rw [returned, refused] at failed
  exact absurd failed (by decide)

/-- A node that knows nobody sends its whole list by sending nothing. -/
theorem sendsWholeList_nobody (maxSize : Nat) (recipient : List UInt8) {self : PittacusGossip}
    (nobody : self.members.live = []) : SendsWholeList maxSize recipient self := by
  have run : gossipEnqueueMemberList maxSize recipient self = ⟨errNone, self, []⟩ := by
    simp only [gossipEnqueueMemberList, Routine.get_bind_run, nobody, List.length_nil,
      Nat.zero_min, if_true, Routine.pure_run]
  refine ⟨fun msg built => ?_, ?_, ?_⟩
  · rw [run] at built
    cases built
  · rw [run]
  · rw [run, nobody]
    rfl

/--
The member list goes out whole under exactly those sizes that leave room for the header.

The chunk is as many members as the whole message would hold without its header and count.
A chunk too long for sixteen bits to count is not listed whole either.
-/
theorem sendsWholeList_iff (maxSize : Nat)
    (large : messageHeaderSize + 2 + clusterMemberSize ≤ maxSize) (recipient : List UInt8)
    (self : PittacusGossip)
    (fits : ∀ member ∈ self.members.live, member.address.length ≤ sockaddrStorageSize) :
    SendsWholeList maxSize recipient self ↔
      (messageHeaderSize + 2 ≤ maxSize % clusterMemberSize ∨
          self.members.live.length < memberListSyncSize maxSize) ∧
        min self.members.live.length (memberListSyncSize maxSize) < 2 ^ 16 := by
  rw [← room_for_chunk]
  generalize chosen : min self.members.live.length (memberListSyncSize maxSize) = membersNum
  have quotient : 0 < memberListSyncSize maxSize := by
    simp only [messageHeaderSize, clusterMemberSize, sockaddrStorageSize, memberListSyncSize]
      at large ⊢
    omega
  by_cases nobody : self.members.live = []
  · -- Without members nothing is sent, and nothing has to be.
    have none_ : membersNum = 0 := by
      rw [← chosen, nobody]
      exact Nat.zero_min _
    rw [none_]
    exact iff_of_true (sendsWholeList_nobody maxSize recipient nobody) ⟨by omega, by decide⟩
  · have positive : 0 < membersNum := by
      have := List.length_pos_iff.mpr nobody
      omega
    have counted : membersNum ≤ self.members.live.length := by omega
    obtain ⟨rounds, length_⟩ : ∃ rounds, self.members.live.length = rounds + 1 :=
      Nat.exists_eq_add_one.mpr (List.length_pos_iff.mpr nobody)
    have run : gossipEnqueueMemberList maxSize recipient self =
        gossipEnqueueMemberChunks maxSize membersNum recipient (rounds + 1) self.members.live
          errNone self := by
      rw [← length_]
      simp only [gossipEnqueueMemberList, Routine.get_bind_run, Routine.ite_run, chosen,
        if_neg (Nat.ne_of_gt positive)]
    constructor
    · rintro ⟨-, returned, whole⟩
      rw [run] at returned whole
      have small : membersNum < 2 ^ 16 := by
        by_contra long
        exact gossipEnqueueMemberChunks_narrowed (Nat.le_of_not_lt long) recipient counted self whole
      refine ⟨?_, small⟩
      by_contra short
      exact gossipEnqueueMemberChunks_short positive small (Nat.lt_of_not_le short) recipient
        counted self returned
    · rintro ⟨room, small⟩
      obtain ⟨accepted, returned, whole⟩ := gossipEnqueueMemberChunks_sends positive small room
        recipient (Nat.le_of_eq length_) fits self
      rw [← run] at accepted returned whole
      exact ⟨accepted, returned, whole⟩

/-- A new node that was told about two members. -/
def pairedNode : PittacusGossip :=
  { localNode 1 with
    members := clusterMemberSetPut (localNode 1).members
      [clusterMemberInit (loopback 2) (by decide) 5000,
        clusterMemberInit (loopback 3) (by decide) 6000] }

/-- With room for two members and their header, a node that knows two sends them. -/
theorem sendsWholeList_pair : SendsWholeList 290 (loopback 4) pairedNode :=
  (sendsWholeList_iff 290 (by decide) (loopback 4) pairedNode (by decide +kernel)).mpr
    (by decide +kernel)

/-- With room for two members but not for their header, the same node sends nothing. -/
theorem not_sendsWholeList_pair :
    messageHeaderSize + 2 + clusterMemberSize ≤ 276 ∧
      (∀ member ∈ pairedNode.members.live, member.address.length ≤ sockaddrStorageSize) ∧
      ¬SendsWholeList 276 (loopback 4) pairedNode :=
  ⟨by decide, by decide +kernel, fun ⟨_, returned, _⟩ => absurd returned (by decide +kernel)⟩

end Pittacus.Configured
