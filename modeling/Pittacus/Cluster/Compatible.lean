import Pittacus.Cluster.Views
import Pittacus.Receiving.Rejection

/-! No node of a network refuses what another one transmitted, except out of turn. -/

namespace Pittacus

open Decoder

/-! ### One datagram -/

/-- The decoder of a message's type is chosen for a buffer it fills, and reads the message. -/
theorem Message.Fills.read {message : Message} {datagram sender : List UInt8}
    {beyond : Nat → UInt8}
    (fills : message.Fills (envelopeOf datagram sender beyond).buffer
      (envelopeOf datagram sender beyond).bufferSize)
    (addresses : ∀ member ∈ message.members, 16 ≤ member.address.length) :
    Announces (envelopeOf datagram sender beyond).buffer
        (envelopeOf datagram sender beyond).bufferSize message.type ∧
      ∃ found, messageDecode message.type (envelopeOf datagram sender beyond).bufferSize
          vectorClockInit (envelopeOf datagram sender beyond).buffer = .ok found ∧
        found.2.Same message := by
  constructor
  · have header := fills.held
    rw [Message.wire, holds_append] at header
    have long : messageHeaderSize ≤ message.wire.length := by
      rw [Message.wire, List.length_append, MessageHeader.wire_length, messageHeaderSize]
      omega
    have announces := announces_of_holds header.1 fills.typed.1 long
    rw [fills.typed.2] at announces
    rw [fills.size]
    exact announces
  · obtain ⟨decoded, read, same⟩ :=
      messageDecode_of_holds fills.typed fills.fits addresses fills.held vectorClockInit
    rw [fills.size]
    exact ⟨_, read, same⟩

/-- A node answers a message that fills the buffer with success if it listens to its type. -/
theorem PittacusGossip.Coherent.hears {self : PittacusGossip} (coherent : self.Coherent)
    {message : Message} {datagram sender : List UInt8} {beyond : Nat → UInt8}
    (fills : message.Fills (envelopeOf datagram sender beyond).buffer
      (envelopeOf datagram sender beyond).bufferSize)
    (addresses : ∀ member ∈ message.members, 16 ≤ member.address.length)
    (random : Nat → UInt32) :
    0 ≤ (gossipStep (.processReceive datagram sender beyond random) self).value ↔
      self.ListensTo message.type := by
  obtain ⟨⟨long, named, -⟩, found, read, -⟩ := fills.read addresses
  have some_ : datagram ≠ [] := by
    rintro rfl
    exact absurd (show messageHeaderSize ≤ 0 from long) (by decide)
  have verdict := processReceive_verdict coherent some_ sender beyond random
  have type : Decoder.memoryOf (datagram.take messageMaxSize) beyond 5 = message.type := named
  -- The message is read, so that only its type can be a reason to refuse it.
  have refused : Refused self (datagram.take messageMaxSize) beyond ↔
      ¬self.ListensTo message.type := by
    have answered : Answers (messageDecode message.type (datagram.take messageMaxSize).length
        vectorClockInit (Decoder.memoryOf (datagram.take messageMaxSize) beyond)) := ⟨found, read⟩
    rw [refused_iff, type]
    simp only [answered, and_true]
  constructor
  · intro accepted
    by_contra deaf
    have failed := (verdict.refused (not_not.mpr (refused.mpr deaf))).value
    omega
  · intro listens
    exact verdict.accepted fun refusal => refused.mp refusal listens

/-! ### A whole network -/

variable {ι : Type} [DecidableEq ι]

end Pittacus
