import Pittacus.Member
import Pittacus.Basic.SlotRing

/-! Vector clocks: bounded tables from originators to the latest sequence number seen of each. -/

namespace Pittacus

/-- A sequence number together with the originator that issued it. -/
structure VectorRecord where
  sequenceNumber : UInt32
  memberId : UInt64
  deriving DecidableEq, Repr

/-- Size in bytes of a member id. -/
def memberIdSize : Nat := 8

/-- Size in bytes of a record on the wire. -/
def vectorRecordSize : Nat := 4 + memberIdSize

/-- A clock: the records array, how much of it is in use, and where the next insertion goes. -/
structure VectorClock where
  size : Nat
  currentIdx : Nat
  records : List VectorRecord
  deriving DecidableEq, Repr

/-- The records in use, in slot order. -/
def VectorClock.live (clock : VectorClock) : List VectorRecord := clock.records.take clock.size

/-- The outcome of comparing two versions. -/
inductive VectorClockCompRes where
  | before
  | after
  | equal
  | conflict
  deriving DecidableEq, Repr

/-- The integer held in eight bytes, in the byte order of the host. -/
def memberIdOfBytes (bytes : List UInt8) : UInt64 := UInt64.ofNat (Words.ofBytes bytes.reverse)

/-- The eight bytes that hold an integer, in the byte order of the host. -/
def memberIdBytes (memberId : UInt64) : List UInt8 := (Words.toBytes 8 memberId.toNat).reverse

/-- The value of `AF_INET`. -/
def afInet : Nat := 2

/--
The id of a member: four bytes of its address, two of its port, and two of its uid.

An IPv4 address keeps its port at offset two and its four bytes at offset four.
An IPv6 address keeps its port at offset two and its leading four bytes at offset eight.
-/
def vectorClockCreateMemberId (member : ClusterMember) : UInt64 :=
  let at_ (start count : Nat) : List UInt8 :=
    Decoder.slice (fun position => member.address.getD position 0) start count
  -- The address family is a two-byte field in the byte order of the host.
  let family := Words.ofBytes (at_ 0 2).reverse
  let addressBytes := if family = afInet then at_ 4 4 else at_ 8 4
  -- Only the leading two bytes of the uid in network order have room.
  memberIdOfBytes (addressBytes ++ at_ 2 2 ++ (Words.toBytes 4 member.uid.toNat).take 2)

/-- The slot in use for an originator. -/
def vectorClockFindByMemberId (clock : VectorClock) (memberId : UInt64) : Option Nat :=
  clock.live.findIdx? fun record => record.memberId = memberId

/-- The slot in use for a member. -/
def vectorClockFindRecord (clock : VectorClock) (member : ClusterMember) : Option Nat :=
  vectorClockFindByMemberId clock (vectorClockCreateMemberId member)

/-- An empty clock, every byte of it zero. -/
def vectorClockInit : VectorClock where
  size := 0
  currentIdx := 0
  records := List.replicate maxVectorSize ⟨0, 0⟩

/-- Set the sequence number of an originator, taking the next slot for one not in use yet. -/
def vectorClockSetById (clock : VectorClock) (memberId : UInt64) (seqNum : UInt32) : VectorClock :=
  match vectorClockFindByMemberId clock memberId with
  | none =>
    -- The record at the write position is the oldest one once the array is full.
    { size := if clock.size < maxVectorSize then clock.size + 1 else clock.size
      currentIdx := if clock.currentIdx + 1 ≥ maxVectorSize then 0 else clock.currentIdx + 1
      records := clock.records.set clock.currentIdx ⟨seqNum, memberId⟩ }
  | some idx =>
    { clock with
      records := clock.records.modify idx fun record => { record with sequenceNumber := seqNum } }

/-- Count the record of a member up by one, if it has one. -/
def vectorClockIncrement (clock : VectorClock) (member : ClusterMember) : Option VectorClock :=
  (vectorClockFindRecord clock member).map fun idx =>
    { clock with
      -- The counter wraps around like any unsigned integer.
      records := clock.records.modify idx fun record =>
        { record with sequenceNumber := record.sequenceNumber + 1 } }

/-- Set the sequence number of a member; the record set is returned next to the clock. -/
def vectorClockSet (clock : VectorClock) (member : ClusterMember) (seqNum : UInt32) :
    VectorRecord × VectorClock :=
  let memberId := vectorClockCreateMemberId member
  (⟨seqNum, memberId⟩, vectorClockSetById clock memberId seqNum)

/-- Copy the records in use over those of another clock. -/
def vectorClockCopy (destination source : VectorClock) : VectorClock where
  size := source.size
  currentIdx := source.currentIdx
  records := source.live ++ destination.records.drop source.size

/-- Combine the outcome so far with that of one more record. -/
def vectorClockResolveCompResult (prev new : VectorClockCompRes) : VectorClockCompRes :=
  if prev ≠ .equal ∧ new ≠ prev then .conflict else new

/-- Compare a clock with a single record, and raise the clock to it if asked to merge. -/
def vectorClockCompareWithRecord (clock : VectorClock) (record : VectorRecord) (merge : Bool) :
    VectorClockCompRes × VectorClock :=
  match vectorClockFindByMemberId clock record.memberId with
  | none =>
    (.before,
      if merge then vectorClockSetById clock record.memberId record.sequenceNumber else clock)
  | some idx =>
    -- Nothing in the clock but this one record has a say in the outcome.
    let firstSeqNum := ((clock.records[idx]?).map (·.sequenceNumber)).getD 0
    let secondSeqNum := record.sequenceNumber
    if firstSeqNum > secondSeqNum then (.after, clock)
    else if firstSeqNum < secondSeqNum then
      (.before,
        if merge then
          { clock with
            records := clock.records.modify idx fun held =>
              { held with sequenceNumber := secondSeqNum } }
        else clock)
    else (.equal, clock)

/-- The running state of a comparison: the outcome, the visited slots, and the first clock. -/
structure ComparisonState where
  result : VectorClockCompRes
  secondVisitedIdxs : UInt32
  first : VectorClock

/-- Compare one record of the first clock with its counterpart in the second. -/
def compareRecordAt (second : VectorClock) (merge : Bool) (state : ComparisonState) (i : Nat) :
    ComparisonState :=
  match state.first.records[i]? with
  | none => state
  | some record =>
    -- A record that the second clock lacks counts as a later one.
    match vectorClockFindByMemberId second record.memberId with
    | none => { state with result := vectorClockResolveCompResult state.result .after }
    | some secondIdx =>
      let visited := state.secondVisitedIdxs ||| (1 <<< UInt32.ofNat secondIdx)
      let firstSeqNum := record.sequenceNumber
      let secondSeqNum := ((second.records[secondIdx]?).map (·.sequenceNumber)).getD 0
      if firstSeqNum > secondSeqNum then
        { state with
          result := vectorClockResolveCompResult state.result .after
          secondVisitedIdxs := visited }
      else if secondSeqNum > firstSeqNum then
        { result := vectorClockResolveCompResult state.result .before
          secondVisitedIdxs := visited
          first :=
            if merge then
              { state.first with
                records := state.first.records.modify i fun held =>
                  { held with sequenceNumber := secondSeqNum } }
            else state.first }
      else { state with secondVisitedIdxs := visited }

/-- Insert the records of the second clock whose bits are still set in the mask. -/
def mergeMissing (second : VectorClock) : Nat → Nat → UInt32 → VectorClock → VectorClock
  -- Thirty-two shifts empty the mask.
  | 0, _, _, first => first
  | rounds + 1, i, missingIdxs, first =>
    if missingIdxs = 0 then first
    else
      let merged :=
        if missingIdxs &&& 1 ≠ 0 then
          match second.records[i]? with
          | some record => vectorClockSetById first record.memberId record.sequenceNumber
          | none => first
        else first
      mergeMissing second rounds (i + 1) (missingIdxs >>> 1) merged

/-- Compare two clocks, and raise the first to the second if asked to merge. -/
def vectorClockCompare (first second : VectorClock) (merge : Bool) :
    VectorClockCompRes × VectorClock :=
  let scanned := (List.range first.size).foldl (compareRecordAt second merge)
    ⟨.equal, 0, first⟩
  let secondVisitedMask := (1 <<< UInt32.ofNat second.size) - 1
  let missingIdxs := scanned.secondVisitedIdxs ^^^ secondVisitedMask
  if missingIdxs ≠ 0 then
    -- There are some records in the second clock that are missing in the first one.
    (vectorClockResolveCompResult scanned.result .before,
      if merge then mergeMissing second 32 0 missingIdxs scanned.first else scanned.first)
  else (scanned.result, scanned.first)

/-! ### Wire format -/

/-- Read a record from the buffer. -/
def vectorClockRecordDecode (buffer bufferSize : Nat) : Decoder Int (Nat × VectorRecord) :=
  if bufferSize < vectorRecordSize then Decoder.fail PittacusError.bufferNotEnough.code
  else do
    let sequenceNumber ← uint32Decode buffer
    let memberId ← Decoder.bytesAt (buffer + 4) memberIdSize
    decodedBytes vectorRecordSize ⟨sequenceNumber, memberIdOfBytes memberId⟩

/-- Write a record into the buffer. -/
def vectorClockRecordEncode (record : VectorRecord) (buffer : Int) (bufferSize : Nat) :
    Encoder Int Int :=
  if bufferSize < vectorRecordSize then Encoder.fail PittacusError.bufferNotEnough.code
  else do
    uint32Encode record.sequenceNumber buffer
    -- The id is copied as it lies in memory, not in network order.
    Encoder.putAt (buffer + 4) (memberIdBytes record.memberId)
    encodedBytes vectorRecordSize

/-- Read the given number of records, one after the other. -/
def vectorClockRecordsDecode (bufferEnd : Nat) : Nat → Nat → Decoder Int (List VectorRecord)
  | _, 0 => pure []
  | cursor, count + 1 => do
    let (_, record) ← vectorClockRecordDecode cursor (Words.toSize ((bufferEnd : Int) - cursor))
    let rest ← vectorClockRecordsDecode bufferEnd (cursor + vectorRecordSize) count
    return record :: rest

/--
Read a clock from the buffer over a clock of unspecified content.

The record count is checked against the bytes left in the buffer only.
Records past the end of the array are kept where the code would write them.
-/
def vectorClockDecode (buffer bufferSize : Nat) (result : VectorClock) :
    Decoder Int (Nat × VectorClock) := do
  let bufferEnd := buffer + bufferSize
  let size ← uint16Decode buffer
  let cursor := buffer + 2
  if Words.toSize ((bufferEnd : Int) - cursor) < size.toNat * vectorRecordSize then
    Decoder.fail PittacusError.bufferNotEnough.code
  else do
    -- Every record has room, so none of them fails on the way.
    let records ← vectorClockRecordsDecode bufferEnd cursor size.toNat
    decodedBytes (2 + size.toNat * vectorRecordSize)
      { size := size.toNat
        currentIdx := 0
        records := records ++ result.records.drop size.toNat }

/-- Write the given records one after the other. -/
def vectorClockRecordsEncode (bufferEnd : Int) : Int → List VectorRecord → Encoder Int Int
  | cursor, [] => pure cursor
  | cursor, record :: rest => do
    let encodeResult ← vectorClockRecordEncode record cursor (Words.toSize (bufferEnd - cursor))
    vectorClockRecordsEncode bufferEnd (cursor + encodeResult) rest

/-- Write a clock into the buffer. -/
def vectorClockEncode (clock : VectorClock) (buffer : Int) (bufferSize : Nat) : Encoder Int Int :=
  if bufferSize < 2 + clock.size * vectorRecordSize then
    Encoder.fail PittacusError.bufferNotEnough.code
  else do
    -- Neither the write position nor the records out of use are written.
    uint16Encode (UInt16.ofNat clock.size) buffer
    let cursor ← vectorClockRecordsEncode (buffer + bufferSize) (buffer + 2) clock.live
    encodedBytes (cursor - buffer)

end Pittacus
