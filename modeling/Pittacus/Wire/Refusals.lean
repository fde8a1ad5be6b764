import Pittacus.Wire.RoundTrip

/-! A decoder that refuses a datagram says so with a negative number. -/

namespace Pittacus

open Decoder

/-- An answer that is an error is a negative one. -/
def FailsBelow {α : Type} (answer : Except Int α) : Prop := ∀ code, answer = .error code → code < 0

namespace FailsBelow

variable {α β : Type}

theorem ok (answer : α) : FailsBelow (.ok answer) := fun _ failed => by cases failed

theorem error {code : Int} (negative : code < 0) : FailsBelow (.error code : Except Int α) := by
  intro other failed
  cases failed
  exact negative

theorem ite {condition : Prop} [Decidable condition] {yes no : Except Int α}
    (taken : FailsBelow yes) (skipped : FailsBelow no) :
    FailsBelow (if condition then yes else no) := by
  split
  · exact taken
  · exact skipped

theorem map {answer : Except Int α} (fails : FailsBelow answer) (make : α → β) :
    FailsBelow (answer.map make) := by
  intro code failed
  cases answer with
  | ok found => cases failed
  | error other => exact fails code (by cases failed; rfl)

theorem bind {answer : Except Int α} {next : α → Except Int β} (fails : FailsBelow answer)
    (later : ∀ found, FailsBelow (next found)) : FailsBelow (answer.bind next) := by
  intro code failed
  cases answer with
  | ok found => exact later found code failed
  | error other => exact fails code (by cases failed; rfl)

/-- A count that does not fit an `int` is an error by being negative. -/
theorem narrow (count : Nat) : FailsBelow (Pittacus.narrow count) := by
  rw [Pittacus.narrow]
  split
  · exact error ‹_›
  · exact ok _

end FailsBelow

/-- Reading members fails below zero, at whichever of them. -/
theorem clusterMembersDecode_failsBelow (memory : Nat → UInt8) (bufferEnd count cursor : Nat) :
    FailsBelow ((clusterMembersDecode bufferEnd cursor count).result memory) := by
  induction count generalizing cursor with
  | zero => exact .ok _
  | succ count ih =>
    have member : FailsBelow ((clusterMemberDecode cursor
        (Words.toSize ((bufferEnd : Int) - cursor))).result memory) := by
      rw [clusterMemberDecode_result, decodedBytes_result]
      exact .ite (.error (by decide)) ((FailsBelow.narrow _).map _)
    intro code failed
    rw [clusterMembersDecode] at failed
    -- The first member that fails ends the reading with its error.
    cases read : (clusterMemberDecode cursor
        (Words.toSize ((bufferEnd : Int) - cursor))).result memory with
    | error other =>
      rw [result_bind_of_error read] at failed
      cases failed
      exact member _ read
    | ok found =>
      rw [result_bind_of_ok read] at failed
      cases others : (clusterMembersDecode bufferEnd (cursor + found.1) count).result memory with
      | error other =>
        rw [result_bind_of_error others] at failed
        cases failed
        exact ih _ _ others
      | ok rest =>
        rw [result_bind_of_ok others] at failed
        cases failed

/-! ### The six decoders -/

/-- A message of another type is refused first, and one that is too short next. -/
theorem FailsBelow.checked {α : Type} {announced short : Prop} [Decidable announced]
    [Decidable short] {answer : Except Int α} (fails : FailsBelow answer) :
    FailsBelow (if ¬announced then .error PittacusError.invalidMessage.code
      else if short then .error PittacusError.bufferNotEnough.code else answer) :=
  .ite (.error (PittacusError.code_neg _)) (.ite (.error (PittacusError.code_neg _)) fails)

variable (memory : Nat → UInt8) (bufferSize : Nat)

theorem messageHelloDecode_failsBelow :
    FailsBelow ((messageHelloDecode bufferSize).result memory) := by
  rw [messageHelloDecode_result]
  exact .checked (.bind (.narrow _) fun _ => (FailsBelow.narrow _).map _)

theorem messageWelcomeDecode_failsBelow :
    FailsBelow ((messageWelcomeDecode bufferSize).result memory) := by
  rw [messageWelcomeDecode_result]
  exact .checked (.bind (.narrow _) fun _ => (FailsBelow.narrow _).map _)

theorem messageMemberListDecode_failsBelow :
    FailsBelow ((messageMemberListDecode bufferSize).result memory) := by
  rw [messageMemberListDecode_result]
  exact .checked (.bind (clusterMembersDecode_failsBelow _ _ _ _)
    fun _ => (FailsBelow.narrow _).map _)

theorem messageAckDecode_failsBelow :
    FailsBelow ((messageAckDecode bufferSize).result memory) := by
  rw [messageAckDecode_result]
  exact .checked (.ok _)

theorem messageDataDecode_failsBelow :
    FailsBelow ((messageDataDecode bufferSize).result memory) := by
  rw [messageDataDecode_result]
  exact .checked (.ok _)

theorem messageStatusDecode_failsBelow (prior : VectorClock) :
    FailsBelow ((messageStatusDecode bufferSize prior).result memory) := by
  rw [messageStatusDecode_result]
  exact .checked (.ok _)

end Pittacus
