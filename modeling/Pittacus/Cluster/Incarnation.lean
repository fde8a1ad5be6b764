import Pittacus.AntiEntropy.CatchUp

/-! What tells a restarted node from the one that ran on the same address before. -/

namespace Pittacus

/-! ### Identities -/

/-- The bytes of a member's address, read from memory that is zero behind it. -/
def ClusterMember.addressAt (member : ClusterMember) (start count : Nat) : List UInt8 :=
  Decoder.slice (fun position => member.address.getD position 0) start count

/-- The address family of a member. -/
def ClusterMember.family (member : ClusterMember) : Nat :=
  Words.ofBytes (member.addressAt 0 2).reverse

/--
Two IPv4 members on the same address and port that started at different seconds.

The family, the port and the address are the first eight bytes of the socket address.
-/
structure Incarnations (earlier later : ClusterMember) : Prop where
  ipv4 : earlier.family = afInet
  endpoint : later.address.take 8 = earlier.address.take 8
  apart : earlier.uid ≠ later.uid
  close : earlier.uid.toNat < later.uid.toNat + 65536 ∧ later.uid.toNat < earlier.uid.toNat + 65536

/-- The first bytes of an address decide all that is read of them. -/
theorem addressAt_congr {first second : ClusterMember}
    (same : first.address.take 8 = second.address.take 8) {start count : Nat}
    (within : start + count ≤ 8) : first.addressAt start count = second.addressAt start count := by
  -- Every position read lies below the eighth, where the two lists agree.
  refine List.map_congr_left fun position member => ?_
  have inside : position < 8 := by
    have := List.mem_range'_1.mp member
    omega
  have here := congrArg (·[position]?) same
  simp only [List.getElem?_take, if_pos inside] at here
  simp only [List.getD_eq_getElem?_getD, here]

/-- The id of an IPv4 member is made of its endpoint and of the number of its block of seconds. -/
theorem createMemberId_ipv4 {member : ClusterMember} (ipv4 : member.family = afInet) :
    vectorClockCreateMemberId member =
      memberIdOfBytes (member.addressAt 4 4 ++ member.addressAt 2 2 ++
        Words.toBytes 2 (member.uid.toNat / 65536)) := by
  -- The two leading bytes of four are the digits of what is left without the other two.
  have leading := Words.take_toBytes 2 2 member.uid.toNat
  have family : Words.ofBytes (Decoder.slice
      (fun position => member.address.getD position 0) 0 2).reverse = afInet := ipv4
  simp only [vectorClockCreateMemberId, family, if_true]
  rw [leading]
  rfl

/-- A block of seconds is named by two bytes. -/
theorem toBytes_block_inj {first second : UInt32}
    (same : Words.toBytes 2 (first.toNat / 65536) = Words.toBytes 2 (second.toNat / 65536)) :
    first.toNat / 65536 = second.toNat / 65536 := by
  have read := congrArg Words.ofBytes same
  have below := first.toNat_lt
  have below_ := second.toNat_lt
  rw [Words.ofBytes_toBytes, Words.ofBytes_toBytes] at read
  omega

/-- Two incarnations have the same id exactly when they started in the same block of seconds. -/
theorem Incarnations.same_id_iff {earlier later : ClusterMember}
    (incarnations : Incarnations earlier later) :
    vectorClockCreateMemberId earlier = vectorClockCreateMemberId later ↔
      earlier.uid.toNat / 65536 = later.uid.toNat / 65536 := by
  have endpoint := incarnations.endpoint
  have ipv4 : later.family = afInet := by
    rw [ClusterMember.family, addressAt_congr endpoint (by decide)]
    exact incarnations.ipv4
  have address : later.addressAt 4 4 = earlier.addressAt 4 4 := addressAt_congr endpoint (by decide)
  have port : later.addressAt 2 2 = earlier.addressAt 2 2 := addressAt_congr endpoint (by decide)
  rw [createMemberId_ipv4 incarnations.ipv4, createMemberId_ipv4 ipv4, address, port]
  constructor
  · intro same
    -- The parts before the block have the same width, so equal ids mean equal blocks.
    have width : ∀ block, (earlier.addressAt 4 4 ++ earlier.addressAt 2 2 ++
        Words.toBytes 2 block).length = 8 := by
      intro block
      simp [ClusterMember.addressAt, Decoder.slice_length]
    have bytes := memberIdOfBytes_injective (width _) (width _) same
    exact toBytes_block_inj (List.append_cancel_left bytes)
  · intro same
    rw [same]

/-! ### What a peer makes of them -/

/-- A message is the one a node queues for the first payload it sends after it was started. -/
def PittacusGossip.FirstSends (restarted : PittacusGossip) (data : List UInt8) (msg : MessageData) :
    Prop :=
  restarted.dataCounter = 0 ∧ ∃ random,
    ∃ event ∈ (gossipStep (.sendData data random) restarted).events, event.asRumor = some msg

/-- The first message carries the payload under the number one. -/
theorem PittacusGossip.FirstSends.eq {restarted : PittacusGossip} {data : List UInt8}
    {msg : MessageData} (first : restarted.FirstSends data msg) :
    msg = enqueuedData ⟨1, vectorClockCreateMemberId restarted.selfAddress⟩ data := by
  obtain ⟨fresh, random, event, caused, shows⟩ := first
  -- A call spreads the message it makes the node take over, and no other.
  have spread : msg ∈ (gossipStep (.sendData data random) restarted).events.filterMap
      Event.asRumor := List.mem_filterMap.mpr ⟨event, caused, shows⟩
  rw [(gossipStep_learns _ _).rumors] at spread
  simp only [PittacusGossip.news] at spread
  split at spread
  · have own := List.mem_singleton.mp spread
    rw [own, Knowledge.own, PittacusGossip.knowledge, fresh]
    rfl
  · cases spread

/--
The two incarnations of a node are told apart, by their ids and by every peer.

The peer had recorded nothing of the later one when it set a number for the earlier one.
It is then sent the first message of the later one, in whatever datagram.
-/
structure ToldApart (earlier later : ClusterMember) : Prop where
  ids : vectorClockCreateMemberId earlier ≠ vectorClockCreateMemberId later
  heard : ∀ (peer : PittacusGossip) (before : VectorClock) (seqNum : UInt32),
    peer.state = .connected → before.Ok →
    before.latest (vectorClockCreateMemberId later) = none →
    peer.dataVersion = (vectorClockSet before earlier seqNum).2 →
    ∀ (restarted : PittacusGossip) (data : List UInt8) (arrival : Arrival),
      restarted.selfAddress = later → data.length ≤ messageMaxSize - 26 →
      restarted.FirstSends data arrival.data →
      (vectorClockCompareWithRecord peer.dataVersion arrival.data.dataVersion true).1 = .before ∧
        .log arrival.message ∈ (gossipStep arrival.input peer).events ∧
        (peer.dataReceiver = true →
          .receive arrival.data.dataVersion data ∈ (gossipStep arrival.input peer).events)

/--
Incarnations are told apart exactly when they started in different blocks of 65536 seconds.

Of the four bytes of the start time, the id has room for the two that name the block.
-/
theorem toldApart_iff {earlier later : ClusterMember} (incarnations : Incarnations earlier later) :
    ToldApart earlier later ↔ earlier.uid.toNat / 65536 ≠ later.uid.toNat / 65536 := by
  constructor
  · exact fun told same => told.ids (incarnations.same_id_iff.mpr same)
  · intro different
    have ids : vectorClockCreateMemberId earlier ≠ vectorClockCreateMemberId later :=
      fun same => different (incarnations.same_id_iff.mp same)
    refine ⟨ids, ?_⟩
    intro peer before seqNum connected ok unheard recorded restarted data arrival own short first
    have message := first.eq
    rw [own] at message
    have payload : arrival.data.data = data := by
      rw [message]
      exact ownMessage_data (restarted) short
    have sendable : arrival.data.Sendable := by
      refine ⟨?_, by rw [payload]; exact short⟩
      rw [message]
      exact ⟨rfl, rfl⟩
    -- Setting the number of another originator adds nothing under the later id.
    have novel : peer.knowledge.Novel arrival.message := by
      intro held found
      have latest : peer.dataVersion.latest (vectorClockCreateMemberId later) = some held := by
        have version : arrival.message.dataVersion = arrival.data.dataVersion := rfl
        rw [version, message] at found
        exact found
      rw [recorded, vectorClockSet, ok.latest_set, if_neg (Ne.symm ids), unheard, ite_self] at latest
      cases latest
    obtain ⟨logged, given⟩ := arrival.delivered sendable connected novel
    refine ⟨(novel_iff peer arrival.message).mp novel, logged, ?_⟩
    rw [← payload]
    exact given

/-- A member on the local host that started at the given second. -/
def startedAt (uid : UInt32) : ClusterMember := ⟨1, uid, loopback 1, by simp [loopback]⟩

/-- A restart from the last second of one block to the first second of the next one. -/
theorem toldApart_next_block : ToldApart (startedAt 65535) (startedAt 65536) := by
  refine (toldApart_iff ?_).mpr (by decide)
  exact ⟨by decide, rfl, by decide, by decide⟩

/--
A restart one second later, in the same block, is not noticed.

The payload of the new incarnation is dropped by a peer that took over one of the old one.
-/
theorem not_toldApart :
    Incarnations (startedAt 5) (startedAt 6) ∧ ¬ToldApart (startedAt 5) (startedAt 6) ∧
      (Machine.trace gossipStep
        [.join [],
          (Message.data (enqueuedData ⟨1, vectorClockCreateMemberId (startedAt 5)⟩ [10])).arrivesFrom 1,
          (Message.data (enqueuedData ⟨1, vectorClockCreateMemberId (startedAt 6)⟩ [11])).arrivesFrom 1]
        (localNode 2)).filterMap Event.asDelivery
          = [(⟨1, vectorClockCreateMemberId (startedAt 5)⟩, [10])] := by
  refine ⟨⟨by decide, rfl, by decide, by decide⟩, ?_, by decide +kernel⟩
  exact fun told => told.ids (by decide)

end Pittacus
