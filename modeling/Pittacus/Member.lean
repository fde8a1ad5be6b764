import Pittacus.Utils

/-! Cluster members, their wire format, and the set of members a node knows. -/

namespace Pittacus

/-- Whether `memcmp` finds the first bytes of two memory blocks equal. -/
def memcmpEqual (left right : Nat → UInt8) (count : Nat) : Bool :=
  (List.range count).all fun position => left position == right position

/-- A member of the cluster, with the bytes of its socket address. -/
structure ClusterMember where
  version : UInt16
  uid : UInt32
  address : List UInt8
  /-- The address length is a thirty-two bit field. -/
  bounded : address.length < 2 ^ 32
  deriving DecidableEq

/-- The number of bytes in the address. -/
def ClusterMember.addressLen (member : ClusterMember) : UInt32 :=
  UInt32.ofNat member.address.length

/-- The length field always agrees with the address it describes. -/
@[simp] theorem ClusterMember.addressLen_toNat (member : ClusterMember) :
    member.addressLen.toNat = member.address.length :=
  UInt32.toNat_ofNat_of_lt' member.bounded

/-- A member as it comes out of a decoder, its address still a position in the buffer. -/
structure ClusterMemberRef where
  version : UInt16
  uid : UInt32
  addressLen : UInt32
  address : Nat
  deriving DecidableEq

/-- Follow the address of a decoded member into the buffer it was decoded from. -/
def ClusterMemberRef.load (member : ClusterMemberRef) (memory : Nat → UInt8) : ClusterMember where
  version := member.version
  uid := member.uid
  address := Decoder.slice memory member.address member.addressLen.toNat
  bounded := by simpa using member.addressLen.toNat_lt

/-- Size in bytes of the platform's `cluster_member_t`, padding and address pointer included. -/
def clusterMemberStructSize : Nat := 24

/-- Size in bytes of a pointer. -/
def pointerSize : Nat := 8

/-- The most bytes a member takes on the wire. -/
def clusterMemberSize : Nat := 2 + 4 + 4 + sockaddrStorageSize

/-- A member that starts on the current second and speaks this version of the protocol. -/
def clusterMemberInit (address : List UInt8) (bounded : address.length < 2 ^ 32) (now : Nat) :
    ClusterMember where
  version := protocolVersion
  uid := UInt32.ofNat (now / 1000)
  address := address
  bounded := bounded

/-- Two members are the same when all their fields and the bytes of their addresses are. -/
def clusterMemberEquals (first second : ClusterMember) : Bool :=
  -- The lengths agree before the addresses are compared, so neither is read past its end.
  first.uid == second.uid && first.version == second.version &&
    first.addressLen == second.addressLen && first.address == second.address

/-- Read a member from the buffer. -/
def clusterMemberDecode (buffer bufferSize : Nat) : Decoder Int (Nat × ClusterMemberRef) :=
  -- Only the fixed fields are checked for; the address may reach past the end of the buffer.
  if bufferSize < 2 * 4 + 2 then Decoder.fail PittacusError.bufferNotEnough.code
  else do
    let version ← uint16Decode buffer
    let uid ← uint32Decode (buffer + 2)
    let addressLen ← uint32Decode (buffer + 6)
    decodedBytes (10 + addressLen.toNat)
      { version := version, uid := uid, addressLen := addressLen, address := buffer + 10 }

/-- Write a member into the buffer, if there is room for it and its address. -/
def clusterMemberEncode (member : ClusterMember) (buffer : Int) (bufferSize : Nat) :
    Encoder Int Int :=
  if bufferSize < 2 * 4 + 2 + member.addressLen.toNat then
    Encoder.fail PittacusError.bufferNotEnough.code
  else do
    -- The fields are written one behind the other, without the padding they have in memory.
    uint16Encode member.version buffer
    uint32Encode member.uid (buffer + 2)
    uint32Encode member.addressLen (buffer + 6)
    Encoder.putAt (buffer + 10) member.address
    encodedBytes (10 + member.addressLen.toNat)

/-! ### The member set -/

/-- An array of member pointers, the first `size` of them in use. -/
structure ClusterMemberSet where
  set : List (Option ClusterMember)
  size : Nat
  capacity : Nat

/-- The members in the slots in use, in order. -/
def ClusterMemberSet.live (members : ClusterMemberSet) : List ClusterMember :=
  (members.set.take members.size).filterMap id

/-- The capacity a new set starts with. -/
def membersInitialCapacity : Nat := 32

/-- The factor a full set grows by. -/
def membersExtensionFactor : Nat := 2

/-- A size has reached the load factor of three quarters of a capacity. -/
def reachesLoadFactor (size capacity : Nat) : Bool := 4 * size ≥ 3 * capacity

/-- Extend the capacity until the required size stays below the load factor. -/
def extendedCapacity (requiredSize : Nat) : Nat → Nat → Nat
  -- Each round doubles the capacity, so the required size is outgrown before the rounds run out.
  | 0, capacity => capacity
  | rounds + 1, capacity =>
    if reachesLoadFactor requiredSize capacity then
      extendedCapacity requiredSize rounds (capacity * membersExtensionFactor)
    else capacity

/-- Move the members in use into a larger array, its other slots empty. -/
def clusterMemberSetExtend (members : ClusterMemberSet) (requiredSize : Nat) : ClusterMemberSet :=
  -- As many rounds as the required size, and one more, are certain to make room for it.
  let newCapacity := extendedCapacity requiredSize (requiredSize + 1) members.capacity
  { members with
    set := members.set.take members.size ++ List.replicate (newCapacity - members.size) none
    capacity := newCapacity }

/-- An empty set with the initial capacity. -/
def clusterMemberSetInit : ClusterMemberSet where
  set := List.replicate membersInitialCapacity none
  size := 0
  capacity := membersInitialCapacity

/-- Add one member, unless an equal one is present. -/
def clusterMemberSetAdd (members : ClusterMemberSet) (current : ClusterMember) :
    ClusterMemberSet :=
  if members.live.any fun member => clusterMemberEquals member current then members
  else
    { members with
      set := members.set.set members.size (some current)
      size := members.size + 1 }

/-- Add the given members in order, growing the set beforehand if all of them might not fit. -/
def clusterMemberSetPut (members : ClusterMemberSet) (newMembers : List ClusterMember) :
    ClusterMemberSet :=
  let newSize := members.size + newMembers.length
  let roomy := if reachesLoadFactor newSize members.capacity then
      clusterMemberSetExtend members newSize
    else members
  -- A member given twice is found present the second time.
  newMembers.foldl clusterMemberSetAdd roomy

/-- Close the gap left by a removed member; the last slot in use keeps its stale pointer. -/
def clusterMemberSetShift (members : ClusterMemberSet) (idx : Nat) : ClusterMemberSet :=
  { members with
    set := members.set.take idx ++ (members.set.take members.size).drop (idx + 1) ++
      members.set.drop (members.size - 1)
    size := members.size - 1 }

/-- The slot of the first member whose address starts with the given bytes. -/
def clusterMemberSetFindByAddr (unset : Nat → UInt8) (members : ClusterMemberSet)
    (address : Nat → UInt8) (addressSize : Nat) : Option Nat :=
  -- A shorter address of a member is compared together with what lies behind it in memory.
  members.live.findIdx? fun member =>
    memcmpEqual (Decoder.memoryOf member.address unset) address addressSize

/-- Remove the first member whose address starts with the given bytes. -/
def clusterMemberSetRemoveByAddr (unset : Nat → UInt8) (members : ClusterMemberSet)
    (address : Nat → UInt8) (addressSize : Nat) : ClusterMemberSet :=
  match clusterMemberSetFindByAddr unset members address addressSize with
  | some idx => clusterMemberSetShift members idx
  | none => members

/-- Let each remaining member replace a random entry of the reservoir, or be passed over. -/
def replaceAtRandom (random : Nat → UInt32) :
    Nat → Nat → List ClusterMember → List ClusterMember → List ClusterMember
  | _, _, [], reservoir => reservoir
  | drawn, memberIdx, member :: rest, reservoir =>
    -- The divisor counts the members seen so far, this one included.
    let randomIdx := (random drawn).toNat % (memberIdx + 1)
    replaceAtRandom random (drawn + 1) (memberIdx + 1) rest
      (if randomIdx < reservoir.length then reservoir.set randomIdx member else reservoir)

/-- Choose the given number of members by reservoir sampling, or all of them if they are fewer. -/
def clusterMemberSetRandomMembers (members : ClusterMemberSet) (random : Nat → UInt32)
    (reservoirSize : Nat) : List ClusterMember :=
  let known := members.live
  let actualReservoirSize := if known.length > reservoirSize then reservoirSize else known.length
  replaceAtRandom random 0 actualReservoirSize (known.drop actualReservoirSize)
    (known.take actualReservoirSize)

end Pittacus
