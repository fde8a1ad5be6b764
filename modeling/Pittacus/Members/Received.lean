import Mathlib.Algebra.GroupWithZero.Nat
import Pittacus.Members.Lifetime
import Pittacus.Proofs.Handlers
import Pittacus.Wire.Decoders

/-!
What a node allocates and releases from its creation to its end, datagram by datagram.

A message that is refused once its members were given a block keeps that block for good.
-/

namespace Pittacus.Stored

open Storage Decoder

/-! ### Received messages -/

/-- Read the members of a message into a block of their own, once its front was read. -/
def decodeMembers {α β : Type} (front : Decoder Int α) (body : α → Decoder Int (Nat × β))
    (members : β → List ClusterMember) (buffer : Nat → UInt8) :
    Storage MemberBlock (Except Int (Nat × β)) :=
  match front.result buffer with
  | .error code => return .error code
  | .ok read => do
    match ← Storage.malloc .unset with
    | none => return .error PittacusError.allocationFailed.code
    | some block =>
      match (body read).result buffer with
      -- Nobody is told about the block, which stays allocated.
      | .error code => return .error code
      | .ok (_, message) => do
        Storage.store block (.received (members message))
        return .ok (block, message)

/-- Read a hello, its member into a block of its own. -/
def messageHelloDecode (bufferSize : Nat) (buffer : Nat → UInt8) :
    Storage MemberBlock (Except Int (Nat × MessageHello ClusterMemberRef)) :=
  decodeMembers
    (returnIfInvalidPayload bufferSize messageHelloType <|
      if bufferSize < messageHeaderSize + clusterMemberStructSize - pointerSize then
        Decoder.fail PittacusError.bufferNotEnough.code
      else messageHeaderDecode bufferSize)
    (fun (_, header) => do
      let (memberBytes, member) ←
        clusterMemberDecode messageHeaderSize (bufferSize - messageHeaderSize)
      decodedBytes (messageHeaderSize + memberBytes) ⟨header, member⟩)
    (fun msg => [msg.thisMember.load buffer]) buffer

/-- Read a welcome, its member into a block of its own. -/
def messageWelcomeDecode (bufferSize : Nat) (buffer : Nat → UInt8) :
    Storage MemberBlock (Except Int (Nat × MessageWelcome ClusterMemberRef)) :=
  decodeMembers
    (returnIfInvalidPayload bufferSize messageWelcomeType <|
      if bufferSize < messageHeaderSize + 4 + clusterMemberStructSize - pointerSize then
        Decoder.fail PittacusError.bufferNotEnough.code
      else do
        let (cursor, header) ← messageHeaderDecode bufferSize
        let helloSequenceNum ← uint32Decode cursor
        return (cursor + 4, header, helloSequenceNum))
    (fun (cursor, header, helloSequenceNum) => do
      let (memberBytes, member) ←
        clusterMemberDecode cursor (Words.toSize ((bufferSize : Int) - cursor))
      decodedBytes (cursor + memberBytes) ⟨header, helloSequenceNum, member⟩)
    (fun msg => [msg.thisMember.load buffer]) buffer

/-- As many members as a sixteen-bit count asks for fit in a message. -/
theorem counted_bounded (membersN : UInt16)
    (members : {members : List ClusterMemberRef // members.length = membersN.toNat}) :
    members.1.length < 2 ^ 16 := by
  rw [members.2]
  exact membersN.toNat_lt

/-- Read a member list, its members into a block of their own. -/
def messageMemberListDecode (bufferSize : Nat) (buffer : Nat → UInt8) :
    Storage MemberBlock (Except Int (Nat × MessageMemberList ClusterMemberRef)) :=
  decodeMembers
    (returnIfInvalidPayload bufferSize messageMemberListType <|
      if bufferSize < messageHeaderSize + 2 then Decoder.fail PittacusError.bufferNotEnough.code
      else do
        let (cursor, header) ← messageHeaderDecode bufferSize
        let membersN ← uint16Decode cursor
        return (cursor + 2, header, membersN))
    (fun (cursor, header, membersN) => do
      let (cursor, members) ← clusterMembersDecode bufferSize cursor membersN.toNat
      decodedBytes cursor ⟨header, members.1, counted_bounded membersN members⟩)
    (fun msg => msg.members.map (·.load buffer)) buffer

/-- Release the member of a hello. -/
def messageHelloDestroy (thisMember : Nat) : Storage MemberBlock Unit :=
  Storage.free (some thisMember)

/-- Release the member of a welcome. -/
def messageWelcomeDestroy (thisMember : Nat) : Storage MemberBlock Unit :=
  Storage.free (some thisMember)

/-- Release the members of a member list. -/
def messageMemberListDestroy (members : Nat) : Storage MemberBlock Unit :=
  Storage.free (some members)

/-! ### Nodes -/

/-- A node in memory, as far as its members are concerned. -/
structure Node where
  /-- The block the node itself lies in. -/
  place : Nat
  state : PittacusGossipState
  /-- Where the node's own address lies, unless there was no memory for it. -/
  selfAddress : Option Nat
  /-- The set of members, unless there was no memory for it when the node was made. -/
  members : Option MemberSet

/-- A new node; whether there was memory for its address and its set is not looked at. -/
def pittacusGossipCreate (selfAddress : List UInt8) : Storage MemberBlock (Option Node) := do
  match ← Storage.malloc .unset with
  | none => return none
  | some place => do
    let address ← Storage.malloc (.address selfAddress)
    let members ← clusterMemberSetInit
    return some ⟨place, .initialized, address, members⟩

/-- Release a node with its address and its members. -/
def pittacusGossipDestroy (node : Node) : Storage MemberBlock Unit := do
  Storage.free node.selfAddress
  match node.members with
  | none => Storage.fault
  | some members => clusterMemberSetDestroy members
  Storage.free (some node.place)

/-- Put the members of a received message into the set of a node. -/
def putReceived (node : Node) (received : Nat) : Storage MemberBlock Node :=
  match node.members with
  -- A set that was never made is used all the same.
  | none => Storage.fault
  | some members => do
    match ← Storage.load received with
    | .received newMembers => do
      let put ← clusterMemberSetPut members newMembers
      return { node with members := some put.2 }
    | _ => Storage.fault

/-- Read a message, put its members into the set of a node in a new state, and release it. -/
def takeReceived {β : Type} (node : Node) (state : PittacusGossipState)
    (decode : Storage MemberBlock (Except Int (Nat × β)))
    (destroy : Nat → Storage MemberBlock Unit) : Storage MemberBlock Node := do
  match ← decode with
  | .error _ => return node
  | .ok (received, _) => do
    let after ← putReceived { node with state := state } received
    destroy received
    return after

/-- Remember a newcomer. -/
def gossipHandleHello (envelopeIn : MessageEnvelopeIn) (node : Node) : Storage MemberBlock Node :=
  if node.state ≠ .connected then return node
  else takeReceived node node.state (messageHelloDecode envelopeIn.bufferSize envelopeIn.buffer)
    messageHelloDestroy

/-- Become part of the cluster, and remember the seed node that answered. -/
def gossipHandleWelcome (envelopeIn : MessageEnvelopeIn) (node : Node) :
    Storage MemberBlock Node :=
  takeReceived node .connected (messageWelcomeDecode envelopeIn.bufferSize envelopeIn.buffer)
    messageWelcomeDestroy

/-- Remember the listed members. -/
def gossipHandleMemberList (envelopeIn : MessageEnvelopeIn) (node : Node) :
    Storage MemberBlock Node :=
  if node.state ≠ .connected then return node
  else takeReceived node node.state
    (messageMemberListDecode envelopeIn.bufferSize envelopeIn.buffer) messageMemberListDestroy

/-- Hand a received datagram to the handler of its type; no other type brings members. -/
def gossipHandleNewMessage (envelopeIn : MessageEnvelopeIn) (node : Node) :
    Storage MemberBlock Node :=
  match (messageTypeDecode envelopeIn.bufferSize).result envelopeIn.buffer with
  | .error _ => return node
  | .ok messageType =>
    if messageType = messageHelloType then gossipHandleHello envelopeIn node
    else if messageType = messageWelcomeType then gossipHandleWelcome envelopeIn node
    else if messageType = messageMemberListType then gossipHandleMemberList envelopeIn node
    else return node

/-- Read one datagram, if the node takes part in the exchange, and handle it. -/
def pittacusGossipProcessReceive (datagram : List UInt8) (beyond : Nat → UInt8) (node : Node) :
    Storage MemberBlock Node :=
  if ¬(node.state = .joining ∨ node.state = .connected) then return node
  else if (datagram.take messageMaxSize).isEmpty then return node
  else gossipHandleNewMessage (envelopeOf datagram [] beyond) node

/-- Join a cluster, if all seed nodes could be written to, or start one when there are none. -/
def pittacusGossipJoin (seedNodes : List (List UInt8)) (queued : Bool) (node : Node) : Node :=
  if node.state ≠ .initialized then node
  else if seedNodes.isEmpty then { node with state := .connected }
  else if queued then { node with state := .joining }
  else node

/-- Remove the recipient of a message that was sent as often as it may be. -/
def giveUp (recipient : List UInt8) (node : Node) : Storage MemberBlock Node :=
  match node.members with
  | none => Storage.fault
  | some members => do
    let removed ← clusterMemberSetRemoveByAddr members recipient
    return { node with members := some removed.2 }

/-- What a node does that concerns its members. -/
inductive NodeCall where
  | join (seedNodes : List (List UInt8)) (queued : Bool)
  | receive (datagram : List UInt8) (beyond : Nat → UInt8)
  | giveUp (recipient : List UInt8)

/-- Carry out a call on a node. -/
def NodeCall.call : NodeCall → Node → Storage MemberBlock Node
  | .join seedNodes queued, node => return pittacusGossipJoin seedNodes queued node
  | .receive datagram beyond, node => pittacusGossipProcessReceive datagram beyond node
  | .giveUp recipient, node => Stored.giveUp recipient node

/-- The states some calls find a node in, and the node they leave behind. -/
def NodeCall.run : List NodeCall → Node → Storage MemberBlock (List PittacusGossipState × Node)
  | [], node => return ([], node)
  | call :: rest, node => do
    let next ← call.call node
    let others ← NodeCall.run rest next
    return (node.state :: others.1, others.2)

/-- A node is made, if there is memory for it, and called. -/
def nodeLifetime (selfAddress : List UInt8) (calls : List NodeCall) :
    Storage MemberBlock (Option (List PittacusGossipState × Node)) := do
  match ← pittacusGossipCreate selfAddress with
  | none => return none
  | some node => do
    let result ← NodeCall.run calls node
    return some result

/-! ### Blocks that are lost -/

/-- A message is of a type, is long enough for its members to get a block, and is refused then. -/
def Abandons {β : Type} (buffer : Nat → UInt8) (bufferSize : Nat) (type : UInt8) (least : Nat)
    (decode : Nat → Decoder Int (Nat × β)) : Prop :=
  (Announces buffer bufferSize type ∧ least ≤ bufferSize) ∧
    ((decode bufferSize).result buffer).isOk = false

instance {β : Type} (buffer : Nat → UInt8) (bufferSize : Nat) (type : UInt8) (least : Nat)
    (decode : Nat → Decoder Int (Nat × β)) :
    Decidable (Abandons buffer bufferSize type least decode) :=
  inferInstanceAs (Decidable (_ ∧ _))

/-- A received message is given a block that is never released. -/
def Leaks (state : PittacusGossipState) (buffer : Nat → UInt8) (bufferSize : Nat) : Prop :=
  state = .connected ∧
    Abandons buffer bufferSize messageHelloType 28 Pittacus.messageHelloDecode ∨
  Abandons buffer bufferSize messageWelcomeType 32 Pittacus.messageWelcomeDecode ∨
  state = .connected ∧
    Abandons buffer bufferSize messageMemberListType 14 Pittacus.messageMemberListDecode

instance (state : PittacusGossipState) (buffer : Nat → UInt8) (bufferSize : Nat) :
    Decidable (Leaks state buffer bufferSize) :=
  inferInstanceAs (Decidable (_ ∨ _ ∨ _))

/-- How many blocks a call loses at a node in a state. -/
def NodeCall.lost : NodeCall → PittacusGossipState → Nat
  | .receive datagram beyond, state =>
    let envelopeIn := envelopeOf datagram [] beyond
    if (state = .joining ∨ state = .connected) ∧
      Leaks state envelopeIn.buffer envelopeIn.bufferSize then 1 else 0
  | _, _ => 0

/-- Some blocks are at most as many as were counted, and as many if no memory was refused. -/
def Counted (refuses : Nat → MemberBlock → Bool) (count : Nat)
    (lost : List (Nat × MemberBlock)) : Prop :=
  lost.length ≤ count ∧ (¬Refuses refuses → lost.length = count)

variable {refuses : Nat → MemberBlock → Bool} {memory : Blocks MemberBlock} {mayFail : Prop}
  {blocks others : List (Nat × MemberBlock)}

/-- No block was lost. -/
theorem Counted.none : Counted refuses 0 [] := ⟨Nat.le_refl _, fun _ => rfl⟩

/-- What was lost early is counted together with what was lost late. -/
theorem Counted.append {early late : Nat} {lost more : List (Nat × MemberBlock)}
    (first : Counted refuses early lost) (second : Counted refuses late more) :
    Counted refuses (early + late) (more ++ lost) := by
  obtain ⟨few, all⟩ := first
  obtain ⟨fewMore, allMore⟩ := second
  constructor
  · rw [List.length_append]
    omega
  · intro granted
    rw [List.length_append, all granted, allMore granted]
    exact Nat.add_comm late early

/-! ### Decoding -/

/--
A decoder in two parts reads what a whole one reads.

It gets through with the first part if the message is of the right type and long enough.
-/
def Divides {α β : Type} (buffer : Nat → UInt8) (front : Decoder Int α)
    (body : α → Decoder Int (Nat × β)) (whole : Except Int (Nat × β)) (reached : Prop) : Prop :=
  match front.result buffer with
  | .error code => ¬reached ∧ whole = .error code
  | .ok read => reached ∧ (body read).result buffer = whole

/--
A message is read as it is without a block for its members, which then lie in one.

A message that is not read leaves blocks behind, unless the one for its members was refused.
-/
def Reads {β : Type} (refuses : Nat → MemberBlock → Bool)
    (decode : Storage MemberBlock (Except Int (Nat × β))) (members : β → List ClusterMember)
    (whole : Except Int (Nat × β)) (lost : Nat) : Prop :=
  ∀ {memory : Blocks MemberBlock} {mayFail : Prop} {blocks : List (Nat × MemberBlock)},
    memory.Holds blocks → decode.Ensures refuses memory mayFail fun answer after =>
      match answer with
      | .ok (block, message) => (∃ bytes, whole = .ok (bytes, message)) ∧
          after.Holds ((block, .received (members message)) :: blocks)
      | .error _ => (¬Refuses refuses → whole.isOk = false) ∧
          ∃ left, after.Holds (left ++ blocks) ∧ Counted refuses lost left

/-- Members are read into a block once the front was read, and the block is lost if they are not. -/
theorem decodeMembers_reads {α β : Type} {front : Decoder Int α}
    {body : α → Decoder Int (Nat × β)} {buffer : Nat → UInt8} {whole : Except Int (Nat × β)}
    {reached : Prop} [Decidable reached] (divides : Divides buffer front body whole reached)
    (members : β → List ClusterMember) :
    Reads refuses (decodeMembers front body members buffer) members whole
      (if reached ∧ whole.isOk = false then 1 else 0) := by
  intro memory mayFail blocks holds
  unfold Divides at divides
  unfold decodeMembers
  cases read : front.result buffer with
  | error code =>
    -- Nothing was asked for yet.
    rw [read] at divides
    refine ensures_pure ⟨fun _ => by rw [divides.2]; rfl, [], holds, ?_⟩
    rw [if_neg fun both => divides.1 both.1]
    exact .none
  | ok entered =>
    rw [read] at divides
    obtain ⟨through, same⟩ := divides
    refine (ensures_malloc holds .unset).bind ?_
    rintro (_ | block) after answer
    · -- The block was refused, so that there is none to lose.
      obtain ⟨⟨number, refused⟩, kept⟩ := answer
      have refuses_ : Refuses refuses := ⟨number, _, refused⟩
      exact ensures_pure ⟨fun granted => absurd refuses_ granted, [], kept, Nat.zero_le _,
        fun granted => absurd refuses_ granted⟩
    · dsimp only
      rw [same]
      cases whole with
      | error code =>
        refine ensures_pure ⟨fun _ => rfl, [(block, .unset)], answer, ?_⟩
        rw [if_pos ⟨through, rfl⟩]
        exact ⟨Nat.le_refl _, fun _ => rfl⟩
      | ok message =>
        exact (ensures_store answer _).bind fun _ after stored =>
          ensures_pure ⟨⟨message.1, rfl⟩, stored⟩

/-- The front of a message is read if its type and its size are right. -/
theorem front_result {α : Type} {buffer : Nat → UInt8} {bufferSize : Nat} {type : UInt8}
    {rest : Decoder Int α} (least : Nat) (read : α)
    (result : Announces buffer bufferSize type → rest.result buffer = .ok read) :
    (returnIfInvalidPayload bufferSize type <|
      if bufferSize < least then Decoder.fail PittacusError.bufferNotEnough.code
      else rest).result buffer =
      if ¬Announces buffer bufferSize type then .error PittacusError.invalidMessage.code
      else if bufferSize < least then .error PittacusError.bufferNotEnough.code
      else .ok read := by
  rw [returnIfInvalidPayload_result, ite_not]
  by_cases announced : Announces buffer bufferSize type
  · rw [if_pos announced, if_pos announced, Decoder.result_ite, Decoder.result_fail,
      result announced]
  · rw [if_neg announced, if_neg announced]

/-- Two parts make up a whole if both of them check the type and the size first. -/
theorem divides_of_checks {α β : Type} {buffer : Nat → UInt8} {bufferSize least : Nat}
    {type : UInt8} {front : Decoder Int α} {body : α → Decoder Int (Nat × β)}
    {whole rest : Except Int (Nat × β)} {read : α}
    (first : front.result buffer =
      if ¬Announces buffer bufferSize type then .error PittacusError.invalidMessage.code
      else if bufferSize < least then .error PittacusError.bufferNotEnough.code
      else .ok read)
    (all : whole =
      if ¬Announces buffer bufferSize type then .error PittacusError.invalidMessage.code
      else if bufferSize < least then .error PittacusError.bufferNotEnough.code
      else rest)
    (second : least ≤ bufferSize → (body read).result buffer = rest) :
    Divides buffer front body whole (Announces buffer bufferSize type ∧ least ≤ bufferSize) := by
  unfold Divides
  rw [first, all]
  by_cases announced : Announces buffer bufferSize type
  · rw [if_neg (not_not.mpr announced), if_neg (not_not.mpr announced)]
    by_cases short : bufferSize < least
    · rw [if_pos short, if_pos short]
      exact ⟨fun both => absurd both.2 (Nat.not_le.mpr short), rfl⟩
    · rw [if_neg short, if_neg short]
      exact ⟨⟨announced, Nat.le_of_not_lt short⟩, second (Nat.le_of_not_lt short)⟩
  · rw [if_pos announced, if_pos announced]
    exact ⟨fun both => absurd both.1 announced, rfl⟩

section Decoders

variable (buffer : Nat → UInt8) (bufferSize : Nat)

/-- A hello reads like one without a block. -/
theorem messageHelloDecode_reads :
    Reads refuses (messageHelloDecode bufferSize buffer)
      (fun msg => [msg.thisMember.load buffer])
      ((Pittacus.messageHelloDecode bufferSize).result buffer)
      (if Abandons buffer bufferSize messageHelloType 28 Pittacus.messageHelloDecode then 1
        else 0) := by
  unfold messageHelloDecode
  refine decodeMembers_reads (divides_of_checks (front_result 28 _ fun announced =>
    headerDecode_result buffer announced.1) (messageHelloDecode_result buffer bufferSize)
    fun long => ?_) _
  have room : 10 ≤ bufferSize - 12 := by omega
  exact memberLast_result buffer 12 room (MessageHello.mk (headerAt buffer))

/-- A welcome reads like one without a block. -/
theorem messageWelcomeDecode_reads :
    Reads refuses (messageWelcomeDecode bufferSize buffer)
      (fun msg => [msg.thisMember.load buffer])
      ((Pittacus.messageWelcomeDecode bufferSize).result buffer)
      (if Abandons buffer bufferSize messageWelcomeType 32 Pittacus.messageWelcomeDecode then 1
        else 0) := by
  unfold messageWelcomeDecode
  refine decodeMembers_reads (divides_of_checks (front_result 32
    (16, headerAt buffer, uint32At buffer 12) fun announced => ?_)
    (messageWelcomeDecode_result buffer bufferSize) fun long => ?_) _
  · refine (result_bind_of_ok (headerDecode_result buffer announced.1) _).trans ?_
    exact result_bind_of_ok (uint32Decode_result buffer 12) _
  have left : Words.toSize ((bufferSize : Int) - ((16 : Nat) : Int)) = bufferSize - 16 :=
    Words.toSize_sub (by omega)
  have room : 10 ≤ bufferSize - 16 := by omega
  have last := memberLast_result buffer 16 room
    (MessageWelcome.mk (headerAt buffer) (uint32At buffer 12))
  rw [← left] at last
  exact last

/-- A member list reads like one without a block. -/
theorem messageMemberListDecode_reads :
    Reads refuses (messageMemberListDecode bufferSize buffer)
      (fun msg => msg.members.map (·.load buffer))
      ((Pittacus.messageMemberListDecode bufferSize).result buffer)
      (if Abandons buffer bufferSize messageMemberListType 14 Pittacus.messageMemberListDecode
        then 1 else 0) := by
  unfold messageMemberListDecode
  refine decodeMembers_reads (divides_of_checks (front_result 14
    (14, headerAt buffer, uint16At buffer 12) fun announced => ?_)
    (messageMemberListDecode_result buffer bufferSize) fun long => ?_) _
  · refine (result_bind_of_ok (headerDecode_result buffer announced.1) _).trans ?_
    exact result_bind_of_ok (uint16Decode_result buffer 12) _
  cases read : (clusterMembersDecode bufferSize 14 (uint16At buffer 12).toNat).result buffer with
  | error code => exact result_bind_of_error read _
  | ok members =>
    rw [ok_bind]
    refine (result_bind_of_ok read _).trans ?_
    exact decodedBytes_result buffer members.1
      (⟨headerAt buffer, members.2.1, counted_bounded (uint16At buffer 12) members.2⟩ :
        MessageMemberList ClusterMemberRef)

end Decoders

/-! ### What a node owns -/

/-- A set that owns its blocks does so beside any others. -/
theorem Owns.frame {members : MemberSet} {held : List Held} (owns : Owns memory members held others) :
    ∃ own, memory.Holds (own ++ others) ∧ ∀ {after : Blocks MemberBlock}
      {more : List (Nat × MemberBlock)}, after.Holds (own ++ more) →
        Owns after members held more := by
  obtain ⟨roomy, spare, lies⟩ := owns
  refine ⟨(members.set, .pointers (places held ++ spare)) :: held.flatMap Held.blocks, lies.holds, ?_⟩
  intro after more kept
  exact ⟨roomy, spare, kept, lies.size, lies.capacity⟩

/-- The members of a node own their blocks, unless there is no set of them. -/
def Node.Owns (memory : Blocks MemberBlock) (node : Node) (others : List (Nat × MemberBlock)) :
    Prop :=
  match node.members with
  | none => memory.Holds others
  | some members => ∃ held, Stored.Owns memory members held others

/-- The members of a node own their blocks beside any others. -/
theorem Node.Owns.frame {node : Node} (owns : node.Owns memory others) :
    ∃ own, memory.Holds (own ++ others) ∧ ∀ {after : Blocks MemberBlock}
      {more : List (Nat × MemberBlock)}, after.Holds (own ++ more) → node.Owns after more := by
  unfold Node.Owns at owns ⊢
  cases made : node.members with
  | none =>
    rw [made] at owns
    exact ⟨[], owns, fun kept => kept⟩
  | some members =>
    rw [made] at owns
    obtain ⟨held, owns⟩ := owns
    obtain ⟨own, holds, framed⟩ := owns.frame
    exact ⟨own, holds, fun kept => ⟨held, framed kept⟩⟩

/-- The other blocks may be listed in any order. -/
theorem Node.Owns.perm {node : Node} (owns : node.Owns memory others)
    (same : others.Perm blocks) : node.Owns memory blocks := by
  obtain ⟨own, holds, framed⟩ := owns.frame
  exact framed (holds.perm (same.append_left own))

/-- A block beside the members can be released. -/
theorem Node.Owns.free {node : Node} {address : Nat} {content : MemberBlock}
    (owns : node.Owns memory ((address, content) :: others)) :
    (Storage.free (some address)).Ensures refuses memory mayFail fun _ after =>
      node.Owns after others := by
  obtain ⟨own, holds, framed⟩ := owns.frame
  exact (ensures_free (holds.perm List.perm_middle)).imp id fun _ after kept => framed kept

/-- The members of a received message are put, and the message stays where it is. -/
theorem putReceived_spec {node : Node} {received : Nat} {newMembers : List ClusterMember}
    (owns : node.Owns memory ((received, .received newMembers) :: others)) :
    (putReceived node received).Ensures refuses memory True fun next after =>
      next.Owns after ((received, .received newMembers) :: others) ∧
        next.place = node.place ∧ next.selfAddress = node.selfAddress := by
  unfold putReceived
  cases made : node.members with
  | none => exact ensures_fault trivial
  | some members =>
    unfold Node.Owns at owns
    rw [made] at owns
    obtain ⟨held, owns⟩ := owns
    obtain ⟨own, holds, -⟩ := owns.frame
    have listed : (received, MemberBlock.received newMembers) ∈
        own ++ (received, .received newMembers) :: others :=
      List.mem_append_right _ List.mem_cons_self
    refine (ensures_load holds listed).bind ?_
    rintro _ _ ⟨rfl, rfl⟩
    refine ((owns.put newMembers).imp (fun _ => trivial) fun _ _ put => put).bind ?_
    rintro result after ⟨heldAfter, owned, -⟩
    exact ensures_pure ⟨⟨heldAfter, owned⟩, rfl, rfl⟩

/-- What a step leaves behind: a node that owns its blocks, and blocks that nobody owns. -/
def Leaves (refuses : Nat → MemberBlock → Bool) (node : Node) (others : List (Nat × MemberBlock))
    (count : Nat) (next : Node) (after : Blocks MemberBlock) : Prop :=
  ∃ lost, next.Owns after (lost ++ others) ∧ Counted refuses count lost ∧
    next.place = node.place ∧ next.selfAddress = node.selfAddress

/-- A node that does nothing loses nothing. -/
theorem Leaves.same {node : Node} (owns : node.Owns memory others) :
    Leaves refuses node others 0 node memory := ⟨[], owns, .none, rfl, rfl⟩

/-- A message that is read is not abandoned. -/
theorem not_abandoned {β : Type} {whole : Except Int (Nat × β)} {abandoned : Prop}
    {message : Nat × β} (failed : abandoned → whole.isOk = false) (read : whole = .ok message) :
    ¬abandoned := by
  intro abandons
  have unread := failed abandons
  rw [read] at unread
  cases unread

/-- A message is taken in and released, or loses its block. -/
theorem takeReceived_spec {β : Type} {node : Node}
    {decode : Storage MemberBlock (Except Int (Nat × β))} {members : β → List ClusterMember}
    {whole : Except Int (Nat × β)} {abandoned : Prop} [Decidable abandoned]
    (owns : node.Owns memory others)
    (reads : Reads refuses decode members whole (if abandoned then 1 else 0))
    (failed : abandoned → whole.isOk = false) (state : PittacusGossipState) :
    (takeReceived node state decode fun block => Storage.free (some block)).Ensures refuses memory
      True (Leaves refuses node others (if abandoned then 1 else 0)) := by
  obtain ⟨own, holds, framed⟩ := owns.frame
  refine (reads holds).bind ?_
  rintro (code | ⟨block, message⟩) after answer
  · obtain ⟨-, lost, kept, counted⟩ := answer
    refine ensures_pure ⟨lost, framed (kept.perm ?_), counted, rfl, rfl⟩
    exact List.perm_append_comm_assoc _ _ _
  · obtain ⟨⟨bytes, same⟩, kept⟩ := answer
    rw [if_neg (not_abandoned failed same)]
    have entered : ({ node with state := state } : Node).Owns after
        ((block, .received (members message)) :: others) :=
      framed (kept.perm List.perm_middle.symm)
    refine (putReceived_spec entered).bind ?_
    rintro next stored ⟨owned, place, address⟩
    refine owned.free.bind fun _ final freed => ?_
    exact ensures_pure ⟨[], freed, .none, place, address⟩

/-! ### What a call loses -/

/-- A message that is only looked at when connected loses its block only then. -/
theorem guarded_spec {node : Node} {handler : Storage MemberBlock Node} {abandoned : Prop}
    [Decidable abandoned] (owns : node.Owns memory others)
    (handles : handler.Ensures refuses memory True
      (Leaves refuses node others (if abandoned then 1 else 0))) :
    (if node.state ≠ .connected then return node else handler : Storage MemberBlock Node).Ensures
      refuses memory True
      (Leaves refuses node others (if node.state = .connected ∧ abandoned then 1 else 0)) := by
  by_cases connected : node.state = .connected
  · rw [if_neg (not_not.mpr connected)]
    simpa only [connected, true_and] using handles
  · rw [if_pos connected, if_neg fun both => connected both.1]
    exact ensures_pure (Leaves.same owns)

/-- A message that is abandoned is of the type it is abandoned as. -/
theorem Abandons.type {β : Type} {buffer : Nat → UInt8} {bufferSize least : Nat} {type : UInt8}
    {decode : Nat → Decoder Int (Nat × β)}
    (abandons : Abandons buffer bufferSize type least decode) : buffer 5 = type := abandons.1.1.2.1

/-- A block is lost to a message of one of three types, and only if it may be. -/
theorem leaks_iff {state : PittacusGossipState} {buffer : Nat → UInt8} {bufferSize : Nat} :
    Leaks state buffer bufferSize ↔
      if buffer 5 = messageHelloType then state = .connected ∧
        Abandons buffer bufferSize messageHelloType 28 Pittacus.messageHelloDecode
      else if buffer 5 = messageWelcomeType then
        Abandons buffer bufferSize messageWelcomeType 32 Pittacus.messageWelcomeDecode
      else state = .connected ∧
        Abandons buffer bufferSize messageMemberListType 14 Pittacus.messageMemberListDecode := by
  have distinct : messageHelloType ≠ messageWelcomeType ∧ messageHelloType ≠ messageMemberListType ∧
      messageWelcomeType ≠ messageMemberListType := by decide
  unfold Leaks
  constructor
  · rintro (hello | welcome | list)
    · rw [if_pos hello.2.type]
      exact hello
    · rw [if_neg fun other => distinct.1 (other.symm.trans welcome.type), if_pos welcome.type]
      exact welcome
    · rw [if_neg fun other => distinct.2.1 (other.symm.trans list.2.type),
        if_neg fun other => distinct.2.2 (other.symm.trans list.2.type)]
      exact list
  · split
    · exact .inl
    split
    · exact fun welcome => .inr (.inl welcome)
    · exact fun list => .inr (.inr list)

/-- A datagram that leaks has a whole header. -/
theorem Leaks.long {state : PittacusGossipState} {buffer : Nat → UInt8} {bufferSize : Nat}
    (leaks : Leaks state buffer bufferSize) : messageHeaderSize ≤ bufferSize := by
  rcases leaks with hello | welcome | list
  · exact hello.2.1.1.1
  · exact welcome.1.1.1
  · exact list.2.1.1.1

/-- An empty datagram is too short to leak. -/
theorem not_leaks_of_empty {state : PittacusGossipState} {datagram : List UInt8}
    (beyond : Nat → UInt8) (empty : datagram.take messageMaxSize = []) :
    ¬Leaks state (envelopeOf datagram [] beyond).buffer
      (envelopeOf datagram [] beyond).bufferSize := by
  intro leaks
  have long : 12 ≤ (datagram.take messageMaxSize).length := leaks.long
  rw [empty] at long
  cases long

/-- A datagram is handled at the loss of one block if it leaks, and of none otherwise. -/
theorem gossipHandleNewMessage_spec (envelopeIn : MessageEnvelopeIn) {node : Node}
    (owns : node.Owns memory others) :
    (gossipHandleNewMessage envelopeIn node).Ensures refuses memory True
      (Leaves refuses node others
        (if Leaks node.state envelopeIn.buffer envelopeIn.bufferSize then 1 else 0)) := by
  obtain ⟨sender, buffer, bufferSize⟩ := envelopeIn
  have leaks : Leaks node.state buffer bufferSize ↔ _ := leaks_iff
  unfold gossipHandleNewMessage
  dsimp only
  rw [messageTypeDecode_result]
  by_cases short : bufferSize < messageHeaderSize
  · rw [if_pos short, if_neg fun leaks => absurd leaks.long (Nat.not_le.mpr short)]
    exact ensures_pure (Leaves.same owns)
  · rw [if_neg short]
    dsimp only
    by_cases hello : buffer 5 = messageHelloType
    · rw [if_pos hello] at leaks ⊢
      rw [if_congr leaks rfl rfl]
      exact guarded_spec owns (takeReceived_spec owns (messageHelloDecode_reads buffer bufferSize)
        (fun abandons => abandons.2) node.state)
    · rw [if_neg hello] at leaks ⊢
      by_cases welcome : buffer 5 = messageWelcomeType
      · rw [if_pos welcome] at leaks ⊢
        rw [if_congr leaks rfl rfl]
        exact takeReceived_spec owns (messageWelcomeDecode_reads buffer bufferSize)
          (fun abandons => abandons.2) .connected
      · rw [if_neg welcome] at leaks ⊢
        by_cases list : buffer 5 = messageMemberListType
        · rw [if_pos list]
          rw [if_congr leaks rfl rfl]
          exact guarded_spec owns (takeReceived_spec owns
            (messageMemberListDecode_reads buffer bufferSize) (fun abandons => abandons.2)
            node.state)
        · -- Data, acknowledgements and statuses bring no members.
          rw [if_neg list, if_neg fun leaky => list (leaks.mp leaky).2.type]
          exact ensures_pure (Leaves.same owns)

/-- Joining changes the state of a node and nothing else. -/
theorem pittacusGossipJoin_same (seedNodes : List (List UInt8)) (queued : Bool) (node : Node) :
    ∃ state, pittacusGossipJoin seedNodes queued node = { node with state := state } := by
  unfold pittacusGossipJoin
  split
  · exact ⟨node.state, rfl⟩
  split
  · exact ⟨_, rfl⟩
  split
  · exact ⟨_, rfl⟩
  · exact ⟨node.state, rfl⟩

/-- A datagram is received at the loss of one block if it leaks, and of none otherwise. -/
theorem pittacusGossipProcessReceive_spec (datagram : List UInt8) (beyond : Nat → UInt8)
    {node : Node} (owns : node.Owns memory others) :
    (pittacusGossipProcessReceive datagram beyond node).Ensures refuses memory True
      (Leaves refuses node others ((NodeCall.receive datagram beyond).lost node.state)) := by
  have handled : (gossipHandleNewMessage (envelopeOf datagram [] beyond) node).Ensures refuses
      memory True _ := gossipHandleNewMessage_spec (envelopeOf datagram [] beyond) owns
  unfold pittacusGossipProcessReceive NodeCall.lost
  dsimp only
  by_cases exchanges : node.state = .joining ∨ node.state = .connected
  · rw [if_neg (not_not.mpr exchanges)]
    simp only [exchanges, true_and]
    split
    · rename_i empty
      rw [if_neg (not_leaks_of_empty beyond (List.isEmpty_iff.mp empty))]
      exact ensures_pure (Leaves.same owns)
    · exact handled
  · rw [if_pos exchanges, if_neg fun both => exchanges both.1]
    exact ensures_pure (Leaves.same owns)

/-- A recipient is given up at no loss. -/
theorem giveUp_spec (recipient : List UInt8) {node : Node} (owns : node.Owns memory others) :
    (giveUp recipient node).Ensures refuses memory True (Leaves refuses node others 0) := by
  unfold Node.Owns at owns
  unfold giveUp
  cases made : node.members with
  | none => exact ensures_fault trivial
  | some members =>
    rw [made] at owns
    obtain ⟨held, owns⟩ := owns
    obtain ⟨-, spare, lies⟩ := id owns
    refine (owns.removeFirst (Held.hasAddr recipient) fun one member =>
      (hasAddr_spec lies.holds (blocks_subset member _ _) recipient).imp (fun _ => trivial)
        fun _ _ same => same).bind ?_
    rintro result after ⟨-, owned⟩
    exact ensures_pure ⟨[], ⟨_, owned⟩, .none, rfl, rfl⟩

/-- A call loses as many blocks as it is known to lose. -/
theorem NodeCall.call_spec (call : NodeCall) {node : Node} (owns : node.Owns memory others) :
    (call.call node).Ensures refuses memory True
      (Leaves refuses node others (call.lost node.state)) := by
  cases call with
  | join seedNodes queued =>
    obtain ⟨state, same⟩ := pittacusGossipJoin_same seedNodes queued node
    rw [NodeCall.call, same]
    exact ensures_pure ⟨[], owns, .none, rfl, rfl⟩
  | receive datagram beyond => exact pittacusGossipProcessReceive_spec datagram beyond owns
  | giveUp recipient => exact giveUp_spec recipient owns

/-! ### Whole lives -/

/-- How many blocks some calls lose, in the states they find. -/
def losses (calls : List NodeCall) (states : List PittacusGossipState) : Nat :=
  (List.zipWith NodeCall.lost calls states).sum

/-- The losses of some calls add up. -/
theorem NodeCall.run_spec (calls : List NodeCall) {node : Node} (owns : node.Owns memory others) :
    (NodeCall.run calls node).Ensures refuses memory True fun result after =>
      Leaves refuses node others (losses calls result.1) result.2 after := by
  induction calls generalizing memory node others with
  | nil => exact ensures_pure (Leaves.same owns)
  | cons call rest ih =>
    refine (call.call_spec owns).bind ?_
    rintro next after ⟨lost, owned, counted, place, address⟩
    refine (ih owned).bind ?_
    -- The rest is called on a node in the same place, beside what was lost so far.
    rintro result final ⟨more, owned, further, samePlace, sameAddress⟩
    refine ensures_pure ⟨more ++ lost, ?_, counted.append further, samePlace.trans place,
      sameAddress.trans address⟩
    rw [List.append_assoc]
    exact owned

/-- The blocks of a node besides its members: its own one, and that of its address. -/
def Node.ownBlocks (node : Node) (selfAddress : List UInt8) : List (Nat × MemberBlock) :=
  (node.place, .unset) :: node.selfAddress.toList.map fun address => (address, .address selfAddress)

/-- A new node owns a block, one for its address, and a set, unless they were refused. -/
theorem pittacusGossipCreate_spec (selfAddress : List UInt8) (holds : memory.Holds others) :
    (pittacusGossipCreate selfAddress).Ensures refuses memory mayFail fun made after =>
      match made with
      | none => after.Holds others
      | some node => node.Owns after (node.ownBlocks selfAddress ++ others) := by
  refine (ensures_malloc holds .unset).bind ?_
  rintro (_ | place) granted answer
  · exact ensures_pure answer.2
  · have addressed : (Storage.malloc (.address selfAddress)).Ensures refuses granted mayFail
        fun address after => after.Holds ((Node.mk place .initialized address none).ownBlocks
          selfAddress ++ others) := by
      refine (ensures_malloc answer (.address selfAddress)).imp id ?_
      rintro (_ | address) after kept
      · exact kept.2
      · exact kept.perm (List.Perm.swap _ _ _)
    refine addressed.bind fun address after kept => ?_
    refine (clusterMemberSetInit_spec kept).bind ?_
    rintro (_ | members) final made
    · exact ensures_pure made.2
    · exact ensures_pure ⟨[], made⟩

/-- A node that is destroyed leaves behind what it lost, and nothing else. -/
theorem pittacusGossipDestroy_spec {node : Node} {selfAddress : List UInt8}
    {lost : List (Nat × MemberBlock)} (made : node.members ≠ none)
    (owns : node.Owns memory (lost ++ (node.ownBlocks selfAddress ++ others))) :
    (pittacusGossipDestroy node).Ensures refuses memory mayFail fun _ after =>
      after.Holds (lost ++ others) := by
  -- The address goes first, the node itself last.
  have unaddressed : (Storage.free node.selfAddress).Ensures refuses memory mayFail fun _ after =>
      node.Owns after ((node.place, .unset) :: (lost ++ others)) := by
    unfold Node.ownBlocks at owns
    cases address : node.selfAddress with
    | none =>
      rw [address] at owns
      exact ensures_free_none (owns.perm List.perm_middle)
    | some block =>
      rw [address] at owns
      have apart : node.Owns memory ((block, .address selfAddress) ::
          (node.place, .unset) :: (lost ++ others)) :=
        owns.perm (List.perm_middle.trans
          ((List.Perm.cons _ List.perm_middle).trans (List.Perm.swap _ _ _)))
      exact apart.free
  refine unaddressed.bind fun _ after owned => ?_
  cases set : node.members with
  | none => exact absurd set made
  | some members =>
    unfold Node.Owns at owned
    rw [set] at owned
    obtain ⟨held, owned⟩ := owned
    have destroyed : (clusterMemberSetDestroy members).Ensures refuses after mayFail _ :=
      owned.destroy
    exact destroyed.bind fun _ final kept => ensures_free kept

/--
A node gives back all of its memory in the end, except for the blocks of abandoned messages.

It loses one block for each datagram that leaks in the state it finds, unless that was refused.
-/
theorem node_returns (refuses : Nat → MemberBlock → Bool) (selfAddress : List UInt8)
    (calls : List NodeCall) {memory : Blocks MemberBlock} {others : List (Nat × MemberBlock)}
    (holds : memory.Holds others) (made : Option (List PittacusGossipState × Node))
    (after : Blocks MemberBlock)
    (ran : nodeLifetime selfAddress calls refuses memory = some (made, after)) :
    match made with
    | none => after.Holds others
    | some (states, node) => node.members ≠ none →
        ∃ gone lost, pittacusGossipDestroy node refuses after = some ((), gone) ∧
          gone.Holds (lost ++ others) ∧ Counted refuses (losses calls states) lost := by
  have lived : (nodeLifetime selfAddress calls).Ensures refuses memory True fun made after =>
      match made with
      | none => after.Holds others
      | some (states, node) => ∃ lost, Counted refuses (losses calls states) lost ∧
          node.Owns after (lost ++ (node.ownBlocks selfAddress ++ others)) := by
    refine (pittacusGossipCreate_spec selfAddress holds).bind ?_
    rintro (_ | node) created owns
    · exact ensures_pure owns
    · refine (NodeCall.run_spec calls owns).bind ?_
      rintro result final ⟨lost, owned, counted, place, address⟩
      refine ensures_pure ⟨lost, counted, ?_⟩
      rw [Node.ownBlocks, place, address]
      exact owned
  have went := lived.of_run ran
  cases made with
  | none => exact went
  | some result =>
    intro set
    obtain ⟨lost, counted, owned⟩ := went
    have destroyed : (pittacusGossipDestroy result.2).Ensures refuses after False _ :=
      pittacusGossipDestroy_spec set owned
    obtain ⟨_, gone, released, kept⟩ := destroyed.exists id
    exact ⟨gone, lost, released, kept, counted⟩

/-- A member list that says it has so many members, and has one. -/
def listOfOne (count : UInt8) : List UInt8 :=
  [112, 116, 99, 115, 0, 3, 0, 0, 0, 0, 0, 1, 0, count, 0, 1, 0, 0, 0, 7, 0, 0, 0, 2, 2, 0]

/-- A list that is cut short costs a block, and a whole one does not. -/
theorem node_returns_cut :
    let calls := [NodeCall.join [] true, .receive (listOfOne 1) fun _ => 0,
      .receive (listOfOne 2) fun _ => 0]
    let states := [PittacusGossipState.initialized, .connected, .connected]
    let node : Node := ⟨0, .connected, some 1, some ⟨2, 1, 32⟩⟩
    ∃ after gone lost, nodeLifetime [2, 1] calls (fun _ _ => false) Blocks.empty
        = some (some (states, node), after) ∧
      pittacusGossipDestroy node (fun _ _ => false) after = some ((), gone) ∧
      gone.Holds (lost ++ []) ∧ lost.length = 1 := by
  intro calls states node
  have ran : nodeLifetime [2, 1] calls (fun _ _ => false) Blocks.empty
      = some (some (states, node), _) := rfl
  obtain ⟨gone, lost, released, kept, -, counted⟩ := node_returns (fun _ _ => false) [2, 1] calls
    Blocks.empty_holds _ _ ran (by decide)
  refine ⟨_, gone, lost, ran, released, kept, ?_⟩
  rw [counted fun refused => by obtain ⟨_, _, no⟩ := refused; cases no]
  decide

end Pittacus.Stored
