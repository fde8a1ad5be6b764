import Pittacus.Basic.Blocks
import Pittacus.Member

/-!
The member set as it lies in memory, an array of pointers to members that point to their addresses.

Any request for memory may be refused.
-/

namespace Pittacus.Stored

/-! ### Memory -/

/-- A member in memory, its address a pointer. -/
structure MemberRecord where
  version : UInt16
  uid : UInt32
  addressLen : UInt32
  address : Option Nat
  deriving DecidableEq

/-- What a block of memory contains. -/
inductive MemberBlock where
  /-- Nothing was written to it yet. -/
  | unset
  | address (bytes : List UInt8)
  | record (fields : MemberRecord)
  | pointers (slots : List (Option Nat))
  /-- The members of a received message; their addresses lie in the datagram. -/
  | received (members : List ClusterMember)
  deriving DecidableEq

/-- A member set, its array a pointer. -/
structure MemberSet where
  set : Nat
  size : Nat
  capacity : Nat
  deriving DecidableEq

/-- Follow a pointer to a member. -/
def loadRecord : Option Nat → Storage MemberBlock MemberRecord
  | none => Storage.fault
  | some address => do
    match ← Storage.load address with
    | .record fields => return fields
    | _ => Storage.fault

/-- Read a slot of an array of pointers. -/
def loadSlot (set slot : Nat) : Storage MemberBlock (Option Nat) := do
  match ← Storage.load set with
  | .pointers slots =>
    match slots[slot]? with
    | some pointer => return pointer
    | none => Storage.fault
  | _ => Storage.fault

/-- Write a slot of an array of pointers. -/
def storeSlot (set slot : Nat) (pointer : Option Nat) : Storage MemberBlock Unit := do
  match ← Storage.load set with
  | .pointers slots =>
    if slot < slots.length then Storage.store set (.pointers (slots.set slot pointer))
    else Storage.fault
  | _ => Storage.fault

/-- Whether an address in memory starts with the given bytes, all of which are compared. -/
def memcmp (pointer : Option Nat) (bytes : List UInt8) : Storage MemberBlock Bool :=
  match pointer with
  | none => Storage.fault
  | some address => do
    match ← Storage.load address with
    | .address content =>
      -- Reading past the end of the block is an error, whatever the bytes before are.
      if content.length < bytes.length then Storage.fault
      else return content.take bytes.length == bytes
    | _ => Storage.fault

/-! ### Members -/

/-- Copy a member to an allocated block, and its address to a new one. -/
def clusterMemberCopy (dst : Nat) (src : ClusterMember) : Storage MemberBlock Int := do
  let address ← Storage.malloc (.address src.address)
  -- The length is set even if there is no address.
  Storage.store dst (.record ⟨src.version, src.uid, src.addressLen, address⟩)
  match address with
  | none => return PittacusError.allocationFailed.code
  | some _ => return errNone

/-- Whether a pointer refers to a member with the given fields and address. -/
def clusterMemberEquals (first : Option Nat) (second : ClusterMember) : Storage MemberBlock Bool := do
  let fields ← loadRecord first
  if fields.uid = second.uid ∧ fields.version = second.version ∧
      fields.addressLen = second.addressLen then
    memcmp fields.address second.address
  else return false

/-- Release the address of a member. -/
def clusterMemberDestroy (member : Option Nat) : Storage MemberBlock Unit := do
  let fields ← loadRecord member
  Storage.free fields.address

/-- Release a member and its address. -/
def clusterMemberSetItemDestroy (member : Option Nat) : Storage MemberBlock Unit :=
  match member with
  | none => return
  | some _ => do
    clusterMemberDestroy member
    Storage.free member

/-! ### The member set -/

/-- Make an empty set, unless there is no memory for its array. -/
def clusterMemberSetInit : Storage MemberBlock (Option MemberSet) := do
  match ← Storage.malloc (.pointers (List.replicate membersInitialCapacity none)) with
  | none => return none
  | some set => return some ⟨set, 0, membersInitialCapacity⟩

/-- Copy the pointers in some slots of one array to another. -/
def copySlots (set newMemberSet : Nat) : List Nat → Storage MemberBlock Unit
  | [] => return
  | slot :: rest => do
    match ← loadSlot set slot with
    | none => copySlots set newMemberSet rest
    | some held => do
      storeSlot newMemberSet slot (some held)
      copySlots set newMemberSet rest

/-- Move the members into a larger array, unless there is no memory for it. -/
def clusterMemberSetExtend (members : MemberSet) (requiredSize : Nat) :
    Storage MemberBlock (Option MemberSet) := do
  let newCapacity := extendedCapacity requiredSize (requiredSize + 1) members.capacity
  match ← Storage.malloc (.pointers (List.replicate newCapacity none)) with
  | none => return none
  | some newMemberSet => do
    copySlots members.set newMemberSet (List.range members.size)
    Storage.free (some members.set)
    return some { members with capacity := newCapacity, set := newMemberSet }

/-- The first of some slots whose pointer passes a test. -/
def firstSlot (set : Nat) (passes : Option Nat → Storage MemberBlock Bool) :
    List Nat → Storage MemberBlock (Option Nat)
  | [] => return none
  | slot :: rest => do
    let held ← loadSlot set slot
    if ← passes held then return some slot else firstSlot set passes rest

/-- Add the given members in order, until there is no memory for one of them. -/
def clusterMemberSetAdd (members : MemberSet) :
    List ClusterMember → Storage MemberBlock (Int × MemberSet)
  | [] => return (errNone, members)
  | current :: rest => do
    let exists_ ← firstSlot members.set (fun held => clusterMemberEquals held current)
      (List.range members.size)
    match exists_ with
    | some _ => clusterMemberSetAdd members rest
    | none =>
      match ← Storage.malloc .unset with
      | none => return (PittacusError.allocationFailed.code, members)
      | some newMember => do
        -- Whether the address could be copied as well is not looked at.
        let _ ← clusterMemberCopy newMember current
        storeSlot members.set members.size (some newMember)
        clusterMemberSetAdd { members with size := members.size + 1 } rest

/-- Add the given members, growing the set beforehand if all of them might not fit. -/
def clusterMemberSetPut (members : MemberSet) (newMembers : List ClusterMember) :
    Storage MemberBlock (Int × MemberSet) := do
  let newSize := members.size + newMembers.length
  if reachesLoadFactor newSize members.capacity then
    match ← clusterMemberSetExtend members newSize with
    | none => return (PittacusError.allocationFailed.code, members)
    | some roomy => clusterMemberSetAdd roomy newMembers
  else clusterMemberSetAdd members newMembers

/-- Release the members in some slots. -/
def destroySlots (set : Nat) : List Nat → Storage MemberBlock Unit
  | [] => return
  | slot :: rest => do
    let held ← loadSlot set slot
    clusterMemberSetItemDestroy held
    destroySlots set rest

/-- Release all members and the array. -/
def clusterMemberSetDestroy (members : MemberSet) : Storage MemberBlock Unit := do
  destroySlots members.set (List.range members.size)
  Storage.free (some members.set)

/-- Move the pointers behind some slots one slot down. -/
def shiftSlots (set : Nat) : List Nat → Storage MemberBlock Unit
  | [] => return
  | slot :: rest => do
    let next ← loadSlot set (slot + 1)
    storeSlot set slot next
    shiftSlots set rest

/-- Close the gap left by a removed member. -/
def clusterMemberSetShift (members : MemberSet) (idx : Nat) : Storage MemberBlock MemberSet := do
  shiftSlots members.set (List.range' idx (members.size - 1 - idx))
  return { members with size := members.size - 1 }

/-- Release the member in a slot, and close the gap. -/
def removeSlot (members : MemberSet) (slot : Nat) : Storage MemberBlock MemberSet := do
  let held ← loadSlot members.set slot
  clusterMemberSetItemDestroy held
  clusterMemberSetShift members slot

/-- Remove the first member whose pointer passes a test, and tell whether there was one. -/
def removeFirst (members : MemberSet) (passes : Option Nat → Storage MemberBlock Bool) :
    Storage MemberBlock (Bool × MemberSet) := do
  match ← firstSlot members.set passes (List.range members.size) with
  | none => return (false, members)
  | some slot => do
    let after ← removeSlot members slot
    return (true, after)

/-- Remove the member a pointer refers to. -/
def clusterMemberSetRemove (members : MemberSet) (member : Option Nat) :
    Storage MemberBlock (Bool × MemberSet) :=
  removeFirst members fun held => return held == member

/-- Whether the address of a member starts with the given bytes. -/
def hasAddr (addr : List UInt8) (held : Option Nat) : Storage MemberBlock Bool := do
  let fields ← loadRecord held
  memcmp fields.address addr

/-- The first member whose address starts with the given bytes. -/
def clusterMemberSetFindByAddr (members : MemberSet) (addr : List UInt8) :
    Storage MemberBlock (Option Nat) := do
  match ← firstSlot members.set (hasAddr addr) (List.range members.size) with
  | none => return none
  | some slot => loadSlot members.set slot

/-- Remove the first member whose address starts with the given bytes. -/
def clusterMemberSetRemoveByAddr (members : MemberSet) (addr : List UInt8) :
    Storage MemberBlock (Bool × MemberSet) :=
  removeFirst members (hasAddr addr)

end Pittacus.Stored
