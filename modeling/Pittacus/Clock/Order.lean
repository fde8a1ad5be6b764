import Mathlib.Order.WithBot
import Pittacus.AntiEntropy.Comparison
import Pittacus.Proofs.Duties

/-! Clocks as maps from originators to numbers, and the order the comparison decides. -/

namespace Pittacus

/-- The number held for an originator, where a missing one is below every number. -/
def VectorClock.versions (clock : VectorClock) (originator : UInt64) : WithBot Nat :=
  match clock.latest originator with
  | none => ⊥
  | some number => WithBot.some number.toNat

namespace VectorClock

variable {clock lower upper : VectorClock} {originator : UInt64} {number : UInt32}

theorem versions_of_none (missing : clock.latest originator = none) :
    clock.versions originator = ⊥ := by
  rw [versions, missing]

theorem versions_of_some (held : clock.latest originator = some number) :
    clock.versions originator = WithBot.some number.toNat := by
  rw [versions, held]

/-- Being behind on an originator is holding a strictly smaller number for it, or none. -/
theorem behindOn_iff :
    lower.BehindOn upper originator ↔ lower.versions originator < upper.versions originator := by
  cases right : upper.latest originator with
  | none =>
    -- Nothing is below a missing number.
    rw [versions_of_none right]
    simp [BehindOn, right]
  | some held =>
    rw [versions_of_some right]
    cases left : lower.latest originator with
    | none =>
      rw [versions_of_none left]
      simp [BehindOn, left, right, WithBot.bot_lt_coe]
    | some own =>
      rw [versions_of_some left, WithBot.coe_lt_coe]
      simp [BehindOn, left, right, UInt32.lt_iff_toNat_lt]

/-- A clock is behind another one somewhere unless its map lies above everywhere. -/
theorem exists_behindOn_iff :
    (∃ originator, lower.BehindOn upper originator) ↔ ¬upper.versions ≤ lower.versions := by
  rw [Pi.le_def, not_forall]
  exact exists_congr fun originator => by rw [behindOn_iff, not_le]

end VectorClock

/-- A comparison without merging answers whether either map lies below the other. -/
theorem vectorClockCompare_below {first second : VectorClock} (readable : first.Readable)
    (readable_ : second.Readable) :
    ∃ ahead behind, (vectorClockCompare first second false).1 = verdict ahead behind ∧
      (ahead = false ↔ first.versions ≤ second.versions) ∧
      (behind = false ↔ second.versions ≤ first.versions) := by
  -- Neither clock is behind on any originator exactly when its map lies above everywhere.
  obtain ⟨ahead, behind, result, isAhead, isBehind⟩ := vectorClockCompare_verdict readable readable_
  rw [VectorClock.exists_behindOn_iff] at isAhead isBehind
  refine ⟨ahead, behind, result, ?_, ?_⟩
  · rw [← Bool.not_eq_true, isAhead, not_not]
  · rw [← Bool.not_eq_true, isBehind, not_not]

/--
The comparison decides the order of the maps, and leaves the first clock as it was.

The order is pointwise, so the places the records have in either clock do not matter.
-/
theorem vectorClockCompare_decides {first second : VectorClock} (readable : first.Readable)
    (readable_ : second.Readable) :
    let result := (vectorClockCompare first second false).1
    (result = .equal ↔ first.versions = second.versions) ∧
    (result = .before ↔ first.versions < second.versions) ∧
    (result = .after ↔ second.versions < first.versions) ∧
    (result = .conflict ↔
      ¬first.versions ≤ second.versions ∧ ¬second.versions ≤ first.versions) ∧
    (vectorClockCompare first second false).2 = first ∧
    (result = .before ↔ (vectorClockCompare second first false).1 = .after) := by
  obtain ⟨ahead, behind, result, isAhead, isBehind⟩ := vectorClockCompare_below readable readable_
  obtain ⟨ahead_, behind_, result_, isAhead_, isBehind_⟩ :=
    vectorClockCompare_below readable_ readable
  -- The comparison the other way round swaps the two answers.
  have swapped : ahead_ = behind := by
    rw [Bool.eq_iff_iff, ← not_iff_not, Bool.not_eq_true, Bool.not_eq_true, isAhead_, isBehind]
  have swapped_ : behind_ = ahead := by
    rw [Bool.eq_iff_iff, ← not_iff_not, Bool.not_eq_true, Bool.not_eq_true, isAhead, isBehind_]
  subst swapped swapped_
  simp only [result, result_]
  refine ⟨?_, ?_, ?_, ?_, vectorClockCompare_snd first second, ?_⟩
  · rw [le_antisymm_iff (a := first.versions), ← isAhead, ← isBehind]
    cases behind_ <;> cases ahead_ <;> simp [verdict]
  · rw [lt_iff_le_not_ge, ← isAhead, ← isBehind]
    cases behind_ <;> cases ahead_ <;> simp [verdict]
  · rw [lt_iff_le_not_ge, ← isAhead, ← isBehind]
    cases behind_ <;> cases ahead_ <;> simp [verdict]
  · rw [← isAhead, ← isBehind]
    cases behind_ <;> cases ahead_ <;> simp [verdict]
  · cases behind_ <;> cases ahead_ <;> simp [verdict]

/-- Set the sequence number a record holds for its originator. -/
def VectorClock.setRecord (clock : VectorClock) (record : VectorRecord) : VectorClock :=
  vectorClockSetById clock record.memberId record.sequenceNumber

/-- A clock that holds the given records, in this order. -/
def clockOf (records : List VectorRecord) : VectorClock :=
  records.foldl VectorClock.setRecord vectorClockInit

/-- Zero is above nothing at all, whichever slots the records take. -/
theorem vectorClockCompare_decides_zero :
    let first := clockOf [⟨5, 1⟩, ⟨7, 2⟩]
    let second := clockOf [⟨0, 3⟩, ⟨7, 2⟩, ⟨5, 1⟩]
    (vectorClockCompare first second false).1 = .before ∧ first.versions < second.versions :=
  ⟨by decide +kernel,
    (vectorClockCompare_decides
      ⟨by decide +kernel, by decide +kernel, by decide +kernel⟩
      ⟨by decide +kernel, by decide +kernel, by decide +kernel⟩).2.1.mp (by decide +kernel)⟩

end Pittacus
