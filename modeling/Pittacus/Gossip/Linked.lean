import Pittacus.Basic.LinkedList
import Pittacus.Gossip.Api

/-!
The outbound queue as it lies in memory, a doubly linked list of envelopes.

A loop gets a bound on its rounds, and fails like a stray access when it would need more of them.
-/

namespace Pittacus.Linked

/-! ### The queue -/

/-- Allocate an envelope with null links; its other fields are what the caller passes. -/
def gossipEnvelopeCreate (address : Nat) (envelope : MessageEnvelopeOut) :
    Access MessageEnvelopeOut Unit :=
  Access.allocate address envelope

/-- Release the envelopes from one on. -/
def gossipEnvelopesDestroy : Nat → Option Nat → Access MessageEnvelopeOut Unit
  | _, none => return
  | 0, some _ => Access.fault
  | fuel + 1, some current => do
    -- The link is read before the envelope is gone.
    let cell ← Access.load current
    Access.release current
    gossipEnvelopesDestroy fuel cell.next

/-- Release all envelopes. -/
def gossipEnvelopeClear (fuel : Nat) : Access MessageEnvelopeOut Unit := do
  let head ← Access.head
  gossipEnvelopesDestroy fuel head
  Access.setHead none
  Access.setTail none

/-- Put an allocated envelope at the end of the queue. -/
def gossipEnvelopeEnqueue (envelope : Nat) : Access MessageEnvelopeOut Unit := do
  Access.update envelope fun cell => { cell with next := none }
  let head ← Access.head
  let tail ← Access.tail
  match head, tail with
  | some _, some last => do
    Access.update envelope fun cell => { cell with prev := some last }
    -- The new envelope is reached from the old tail, and leads back to it.
    Access.update last fun cell => { cell with next := some envelope }
    Access.setTail (some envelope)
  | _, _ => do
    Access.setHead (some envelope)
    Access.setTail (some envelope)

/-- Take an envelope out of the queue, and release it. -/
def gossipEnvelopeRemove (envelope : Nat) : Access MessageEnvelopeOut Unit := do
  let cell ← Access.load envelope
  -- A neighbour that is missing is the end of the queue, which moves instead.
  Access.setPrevOf cell.next cell.prev
  Access.setNextOf cell.prev cell.next
  Access.release envelope

/-- The first envelope with a sequence number, from one envelope on. -/
def gossipEnvelopeFindBySequenceNum (sequenceNum : UInt32) :
    Nat → Option Nat → Access MessageEnvelopeOut (Option Nat)
  | _, none => return none
  | 0, some _ => Access.fault
  | fuel + 1, some head => do
    let cell ← Access.load head
    if cell.value.sequenceNum = sequenceNum then return some head
    else gossipEnvelopeFindBySequenceNum sequenceNum fuel cell.next

/-- Take the first envelope with a sequence number out of the queue, if there is one. -/
def gossipEnvelopeAcknowledge (fuel : Nat) (sequenceNum : UInt32) :
    Access MessageEnvelopeOut Unit := do
  let head ← Access.head
  match ← gossipEnvelopeFindBySequenceNum sequenceNum fuel head with
  | none => return
  | some envelope => gossipEnvelopeRemove envelope

/-! ### Reclaiming a slot -/

/-- Mark the slots the envelopes from `head` on refer to, and keep the first with most attempts. -/
def scanOutputBuffers : Nat → Option Nat → Option Nat → List Bool →
    Access MessageEnvelopeOut (Option Nat × List Bool)
  | _, none, oldest, occupied => return (oldest, occupied)
  | 0, some _, _, _ => Access.fault
  | fuel + 1, some head, oldest, occupied => do
    let cell ← Access.load head
    -- A tie leaves the earlier envelope the oldest.
    let older ←
      match oldest with
      | none => pure true
      | some held => do
        let oldestCell ← Access.load held
        pure (cell.value.attemptNum > oldestCell.value.attemptNum : Bool)
    let index := cell.value.buffer / messageMaxSize
    -- The array of marks has one place for each slot.
    if index < occupied.length then
      scanOutputBuffers fuel cell.next (if older then some head else oldest)
        (occupied.set index true)
    else Access.fault

/-- Remove the envelopes that share a slot, as long as one follows the other; say which. -/
def reclaimOutputBuffer (chosenBuffer : Nat) :
    Nat → Option Nat → Access MessageEnvelopeOut (List Nat)
  | _, none => return []
  | 0, some _ => Access.fault
  | fuel + 1, some toRemove => do
    let cell ← Access.load toRemove
    if cell.value.buffer = chosenBuffer then do
      -- The link was loaded before the envelope is released.
      gossipEnvelopeRemove toRemove
      let later ← reclaimOutputBuffer chosenBuffer fuel cell.next
      return toRemove :: later
    else return []

/-- Choose a slot of the output buffer; say which envelopes were removed for it. -/
def gossipFindAvailableOutputBuffer (fuel : Nat) : Access MessageEnvelopeOut (Nat × List Nat) := do
  let head ← Access.head
  let (oldest, occupied) ←
    scanOutputBuffers fuel head none (List.replicate maxOutputMessages false)
  match (List.range maxOutputMessages).find? fun i => !(occupied.getD i false) with
  | some i => return (i * messageMaxSize, [])
  | none =>
    match oldest with
    | none => Access.fault
    | some oldestEnvelope => do
      let cell ← Access.load oldestEnvelope
      let removed ← reclaimOutputBuffer cell.value.buffer fuel (some oldestEnvelope)
      return (cell.value.buffer, removed)

/-! ### Sending -/

/-- Go on with a walk, and put the envelopes visited before in front of its own. -/
def visiting (visited : List Nat) (walk : Access MessageEnvelopeOut (Int × List Nat)) :
    Access MessageEnvelopeOut (Int × List Nat) := do
  let (value, later) ← walk
  return (value, visited ++ later)

/-- Remove the envelopes behind an exhausted one that go to its recipient; say where that ends. -/
def removeSameRecipient (unset : Nat → UInt8) (current : Nat) :
    Nat → Option Nat → Access MessageEnvelopeOut (Option Nat × List Nat)
  | _, none => return (none, [])
  | 0, some _ => Access.fault
  | fuel + 1, some next => do
    let cell ← Access.load next
    let exhausted ← Access.load current
    if sharesRecipient unset cell.value exhausted.value then do
      -- The exhausted envelope stays until those behind it were compared with it.
      gossipEnvelopeRemove next
      let (stop, later) ← removeSameRecipient unset current fuel cell.next
      return (stop, next :: later)
    else return (some next, [])

/--
Walk the outbound queue from one envelope on; say which envelopes were visited.

Only what concerns the queue is kept of a round of sending.
The bytes of a datagram, and the members given up on, are apart from it.
-/
def processSendFrom (unset : Nat → UInt8) (times : Nat → Nat) (results : Nat → Int) :
    Nat → Nat → Nat → Option Nat → Access MessageEnvelopeOut (Int × List Nat)
  | _, _, sent, none => return ((sent : Int), [])
  | 0, _, _, some _ => Access.fault
  | fuel + 1, readings, sent, some current => do
    let cell ← Access.load current
    let head := cell.next
    let envelope := cell.value
    if envelope.attemptNum ≥ envelope.maxAttempts then
      -- The message exceeded the maximum number of attempts.
      if envelope.maxAttempts > 1 then do
        let (next, removed) ← removeSameRecipient unset current fuel cell.next
        gossipEnvelopeRemove current
        visiting (current :: removed) (processSendFrom unset times results fuel readings sent next)
      else do
        gossipEnvelopeRemove current
        visiting [current] (processSendFrom unset times results fuel readings sent head)
    else
      let currentTs := times readings
      if envelope.attemptNum ≠ 0 ∧ envelope.attemptTs + messageRetryInterval > currentTs then
        -- It's not yet time to retry this message.
        visiting [current] (processSendFrom unset times results fuel (readings + 1) sent head)
      else if results sent < 0 then return (PittacusError.writeFailed.code, [current])
      else do
        Access.update current fun cell =>
          { cell with value :=
              { cell.value with
                attemptTs := currentTs
                attemptNum := cell.value.attemptNum + 1 } }
        if envelope.maxAttempts ≤ 1 then do
          -- The message must be sent only once. Remove it immediately.
          gossipEnvelopeRemove current
          visiting [current]
            (processSendFrom unset times results fuel (readings + 1) (sent + 1) head)
        else
          visiting [current]
            (processSendFrom unset times results fuel (readings + 1) (sent + 1) head)

end Pittacus.Linked
