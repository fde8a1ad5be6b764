import Pittacus.Ownership.Slots
import Pittacus.Proofs.Handlers

/-! What the output buffer holds for each queued envelope. -/

namespace Pittacus

open Decoder

/-- The bytes of a message under another sequence number. -/
def Message.datagram (message : Message) (sequenceNum : UInt32) : List UInt8 :=
  message.wire.take 8 ++ (Words.toBytes 4 sequenceNum.toNat ++ message.wire.drop 12)

/-- The slot of an envelope holds its message, but for the sequence number. -/
structure Stored (outputBuffer : Nat → UInt8) (envelope : MessageEnvelopeOut) : Prop where
  slotted : envelope.Slotted
  fits : envelope.message.Fits
  room : envelope.message.required ≤ messageMaxSize
  size : envelope.bufferSize = envelope.message.wire.length
  start : slice outputBuffer envelope.buffer 8 = envelope.message.wire.take 8
  rest : slice outputBuffer (envelope.buffer + 12) (envelope.message.wire.length - 12)
    = envelope.message.wire.drop 12

/-- A message is no shorter than its header. -/
theorem Message.twelve_le_wire (message : Message) : 12 ≤ message.wire.length := by
  rw [Message.wire, List.length_append, MessageHeader.wire_length]
  exact Nat.le_add_right 12 _

namespace Stored

variable {outputBuffer : Nat → UInt8} {envelope : MessageEnvelopeOut}

/-- A stored message fits its slot. -/
theorem short (stored : Stored outputBuffer envelope) : envelope.message.wire.length ≤ 512 :=
  Nat.le_trans stored.fits.wire_length_le stored.room

/-- Different slots lie apart. -/
theorem slots_apart {first second : Nat}
    (slot : ∃ i < maxOutputMessages, first = i * messageMaxSize)
    (slot_ : ∃ i < maxOutputMessages, second = i * messageMaxSize) (other : first ≠ second) :
    first + 512 ≤ second ∨ second + 512 ≤ first := by
  obtain ⟨i, -, rfl⟩ := slot
  obtain ⟨j, -, rfl⟩ := slot_
  simp only [messageMaxSize] at other ⊢
  omega

/-- Writing into another slot leaves a stored message alone. -/
theorem apart (stored : Stored outputBuffer envelope) {base : Nat}
    (slot : ∃ i < maxOutputMessages, base = i * messageMaxSize) (other : envelope.buffer ≠ base)
    (cursor : Nat) {bytes : List UInt8} (within : cursor + bytes.length ≤ 512) :
    Stored (Encoder.store outputBuffer base (Encoder.located cursor bytes)) envelope := by
  -- Slots do not overlap, and the message keeps to its own.
  have gap := slots_apart stored.slotted slot other
  have long := envelope.message.twelve_le_wire
  have short := stored.short
  refine ⟨stored.slotted, stored.fits, stored.room, stored.size, ?_, ?_⟩
  · rw [Encoder.slice_store_apart _ _ _ _ (by omega), stored.start]
  · rw [Encoder.slice_store_apart _ _ _ _ (by omega), stored.rest]

/-- Writing a sequence number into its own slot leaves a stored message alone. -/
theorem numbered (stored : Stored outputBuffer envelope) {bytes : List UInt8}
    (width : bytes.length = 4) :
    Stored (Encoder.store outputBuffer envelope.buffer (Encoder.located (8 : Nat) bytes))
      envelope := by
  refine ⟨stored.slotted, stored.fits, stored.room, stored.size, ?_, ?_⟩
  · rw [Encoder.slice_store_apart _ _ _ _ (by omega), stored.start]
  · rw [Encoder.slice_store_apart _ _ _ _ (by omega), stored.rest]

/-- A message that was just written to a slot is stored for the envelopes made for it. -/
theorem placed {message : Message} (fits : message.Fits)
    (room : message.required ≤ messageMaxSize) {slot : Nat}
    (slotted : ∃ i < maxOutputMessages, slot = i * messageMaxSize) (buffer : envelope.buffer = slot)
    (size : envelope.bufferSize = message.wire.length) (same : envelope.message = message) :
    Stored (Encoder.store outputBuffer slot (Encoder.located 0 message.wire)) envelope := by
  subst same buffer
  have written := Encoder.slice_store_zero outputBuffer envelope.buffer envelope.message.wire
  have long := envelope.message.twelve_le_wire
  -- The header's number is left out, as each envelope writes its own there.
  have start := congrArg (List.take 8) written
  rw [slice_take _ _ (by omega)] at start
  have rest := congrArg (List.drop 12) written
  rw [slice_drop _ _ long] at rest
  exact ⟨slotted, fits, room, size, start, rest⟩

/-- Patching the sequence number of one stored message leaves every stored message alone. -/
theorem patched (stored : Stored outputBuffer envelope) {current : MessageEnvelopeOut}
    (stored_ : Stored outputBuffer current) :
    Stored (patchSequenceNum outputBuffer current) envelope := by
  have width := Words.toBytes_length 4 current.sequenceNum.toNat
  -- Envelopes that share a slot share the message, which the number is not part of.
  by_cases same : envelope.buffer = current.buffer
  · have own := stored.numbered width
    rw [same] at own
    exact own
  · have within : 8 + (Words.toBytes 4 current.sequenceNum.toNat).length ≤ 512 := by omega
    exact stored.apart stored_.slotted same 8 within

/-- What is sent for a stored message is that message under the envelope's own number. -/
theorem sent (stored : Stored outputBuffer envelope) :
    envelopeBytes (patchSequenceNum outputBuffer envelope) envelope
      = envelope.message.datagram envelope.sequenceNum := by
  -- The slice of the slot splits in front of and behind the four bytes that were patched.
  have after := stored.patched stored
  have long := envelope.message.twelve_le_wire
  have split : envelope.message.wire.length = 8 + (4 + (envelope.message.wire.length - 12)) := by
    omega
  have width := Words.toBytes_length 4 envelope.sequenceNum.toNat
  have number : slice (patchSequenceNum outputBuffer envelope) (envelope.buffer + 8) 4
      = Words.toBytes 4 envelope.sequenceNum.toNat := by
    have written := Encoder.slice_store outputBuffer envelope.buffer 8
      (Words.toBytes 4 envelope.sequenceNum.toNat)
    rw [width] at written
    exact written
  rw [envelopeBytes, stored.size, split, slice_add, slice_add, after.start, number, Message.datagram,
    Nat.add_assoc, after.rest]

end Stored

/-! ### The queue -/

/-- Every queued envelope owns its slot, and those that share one stand next to each other. -/
structure PittacusGossip.Owns (node : PittacusGossip) : Prop where
  stored : ∀ envelope ∈ node.outboundMessages, Stored node.outputBuffer envelope
  grouped : Grouped (node.outboundMessages.map (·.buffer))

/-- An empty queue owns its slots. -/
theorem PittacusGossip.Owns.idle {node : PittacusGossip} (idle : node.outboundMessages = []) :
    node.Owns := by
  refine ⟨?_, ?_⟩ <;> rw [idle]
  · exact List.forall_mem_nil _
  · exact Grouped.nil

/-- The envelopes of one message differ in their recipients and numbers only. -/
theorem envelopesFor_spec (message : Message) (buffer bufferSize : Nat) (sequenceNum : UInt32)
    (recipients : List (List UInt8)) :
    (∀ envelope ∈ envelopesFor message buffer bufferSize sequenceNum recipients,
      envelope.buffer = buffer ∧ envelope.bufferSize = bufferSize ∧ envelope.message = message) ∧
    (envelopesFor message buffer bufferSize sequenceNum recipients).map (·.buffer)
      = List.replicate recipients.length buffer := by
  -- All envelopes of one message share the slot that was filled for it.
  induction recipients generalizing sequenceNum with
  | nil => exact ⟨List.forall_mem_nil _, rfl⟩
  | cons receiver rest ih =>
    obtain ⟨alike, keys⟩ := ih (sequenceNum + 1)
    refine ⟨List.forall_mem_cons.mpr ⟨⟨rfl, rfl, rfl⟩, alike⟩, ?_⟩
    rw [envelopesFor, List.map_cons, keys]
    rfl

/-- A slot that is chosen is one no queued envelope refers to. -/
def Event.SlotFree : Event → Prop
  | .enqueue _ slot left _ _ => ∀ envelope ∈ left, envelope.buffer ≠ slot
  | _ => True

/-- A datagram is the encoding of its envelope's message, under the envelope's own number. -/
def Event.Faithful : Event → Prop
  | .sendTo envelope datagram _ _ =>
    (messageEncode envelope.message messageMaxSize).result
        = .ok (envelope.message.wire.length : Int) ∧
      (messageEncode envelope.message messageMaxSize).writes
        = Encoder.located 0 envelope.message.wire ∧
      datagram = envelope.message.datagram envelope.sequenceNum
  | _ => True

/-- Slots are chosen, and datagrams sent, as their owners may expect. -/
def Event.Owned (event : Event) : Prop := event.SlotFree ∧ event.Faithful

/-- A message queued where no slot is taken from anybody is owned like those queued before it. -/
theorem PittacusGossip.Owns.enqueue {self : PittacusGossip} (owns : self.Owns) {message : Message}
    (fits : message.Fits) (spares : Spares self.outboundMessages) (recipient : List UInt8)
    (spreading : GossipSpreadingType) (random : Nat → UInt32) :
    (gossipEnqueueMessage message recipient spreading random self).state.Owns ∧
      ∀ event ∈ (gossipEnqueueMessage message recipient spreading random self).events,
        event.Owned := by
  obtain ⟨slot, kept, free⟩ := placement_spares
    (fun envelope member => (owns.stored envelope member).slotted) owns.grouped spares
  have left : ∀ envelope ∈ (placement self.outboundMessages).2.1,
      Stored self.outputBuffer envelope :=
    fun envelope member => owns.stored envelope (kept.subset member)
  have grouped := owns.grouped.sublist (kept.map (·.buffer))
  constructor
  · rw [gossipEnqueueMessage_run]
    -- A message without room is not encoded, and the buffers are those of before.
    by_cases room : message.required ≤ messageMaxSize
    · have encoded := messageEncode_eq fits room
      have code : encodeCode message = message.wire.length := by rw [encodeCode, encoded]
      have within : 0 + message.wire.length ≤ 512 := by
        rw [Nat.zero_add]
        exact Nat.le_trans fits.wire_length_le room
      obtain ⟨alike, keys⟩ := envelopesFor_spec message (placement self.outboundMessages).1
        (encodeCode message).toNat self.sequenceNum
        (spreadingRecipients self recipient spreading random)
      rw [if_neg (by omega)]
      refine ⟨fun envelope member => ?_, ?_⟩
      · simp only [PittacusGossip.queued, PittacusGossip.placed, encoded] at member ⊢
        rcases List.mem_append.mp member with old | new
        · exact (left envelope old).apart slot (free envelope old) 0 within
        · obtain ⟨buffer, size, same⟩ := alike envelope new
          exact Stored.placed fits room slot buffer (size.trans (by rw [code, Int.toNat_natCast])) same
      · simp only [PittacusGossip.queued, List.map_append, keys]
        refine grouped.append_replicate (fun member => ?_) _
        obtain ⟨envelope, old, same⟩ := List.mem_map.mp member
        exact free envelope old same
    · have encoded := messageEncode_short (Nat.not_le.mp room)
      have code : encodeCode message < 0 := by
        rw [encodeCode, encoded]
        decide
      rw [if_pos code]
      refine ⟨fun envelope member => ?_, grouped⟩
      simp only [PittacusGossip.placed, encoded] at member ⊢
      exact left envelope member
  · rw [gossipEnqueueMessage_events, enqueueEvents]
    intro event member
    rcases List.mem_append.mp member with removed | queued
    · obtain ⟨envelope, -, rfl⟩ := List.mem_map.mp removed
      exact ⟨trivial, trivial⟩
    · rw [List.mem_singleton.mp queued]
      exact ⟨free, trivial⟩

end Pittacus
