import Mathlib.Data.List.Basic

/-! Thirty-two bit masks as sets of positions. -/

/-- A mask has its bits set at exactly the given positions. -/
def Marks (mask : UInt32) (marked : Nat → Prop) : Prop :=
  ∀ position < 32, mask.toBitVec.getLsbD position = true ↔ marked position

namespace Marks

variable {mask other : UInt32} {marked marked_ : Nat → Prop}

/-- Zero marks nothing. -/
theorem zero : Marks 0 fun _ => False := by
  intro position _
  simp

/-- The bit shifted to a place is set at that place only. -/
theorem shifted : ∀ place < 32, Marks (1 <<< UInt32.ofNat place) fun position => position = place := by
  unfold Marks
  decide +kernel

/-- One less than a shifted bit marks the positions below it. -/
theorem below : ∀ count < 32, Marks ((1 <<< UInt32.ofNat count) - 1) fun position => position < count := by
  unfold Marks
  decide +kernel

/-- A position is marked once it or the mask marks it. -/
theorem or (marks : Marks mask marked) (marks_ : Marks other marked_) :
    Marks (mask ||| other) fun position => marked position ∨ marked_ position := by
  intro position inside
  rw [UInt32.toBitVec_or, BitVec.getLsbD_or, Bool.or_eq_true, marks position inside,
    marks_ position inside]

/-- The same mask may be described in other words. -/
theorem congr (marks : Marks mask marked) (same : ∀ position, marked position ↔ marked_ position) :
    Marks mask marked_ :=
  fun position inside => (marks position inside).trans (same position)

/-- The positions at which two masks differ are those only one of them marks. -/
theorem xor (marks : Marks mask marked) (marks_ : Marks other marked_) :
    Marks (mask ^^^ other) fun position => ¬(marked position ↔ marked_ position) := by
  intro position inside
  have left := marks position inside
  have right := marks_ position inside
  show _ ↔ ¬(marked position ↔ marked_ position)
  rw [UInt32.toBitVec_xor, BitVec.getLsbD_xor, ← left, ← right, ← Bool.eq_iff_iff, bne_iff_ne]

/-- The lowest bit tells about the first position. -/
theorem low (marks : Marks mask marked) : mask &&& 1 ≠ 0 ↔ marked 0 := by
  rw [← marks 0 (by decide), ← UInt32.toBitVec_inj.ne]
  -- All bits but the lowest are cleared, so the result is zero if that one is.
  constructor
  · intro bit
    by_contra clear
    refine bit (BitVec.eq_of_getLsbD_eq fun position inside => ?_)
    cases position with
    | zero => simpa using clear
    | succ position => simp
  · intro set same
    have clear := congrArg (BitVec.getLsbD · 0) same
    simp only [UInt32.toBitVec_and, BitVec.getLsbD_and, set, Bool.true_and] at clear
    exact absurd clear (by decide)

/-- A shift to the right lets the positions move up, when none moves in from beyond. -/
theorem shiftRight (marks : Marks mask marked) (ends : ¬marked 32) :
    Marks (mask >>> 1) fun position => marked (position + 1) := by
  intro position inside
  have shifted : (mask >>> 1).toBitVec.getLsbD position = mask.toBitVec.getLsbD (position + 1) := by
    simp [BitVec.getLsbD_ushiftRight, Nat.add_comm]
  rw [shifted]
  rcases Nat.lt_or_ge (position + 1) 32 with below | beyond
  · exact marks (position + 1) below
  · -- The position that moves in is one behind the last.
    have last : position + 1 = 32 := by omega
    show _ ↔ marked (position + 1)
    rw [last]
    exact iff_of_false (by simp) ends

/-- Two masks differ nowhere exactly when they mark the same positions. -/
theorem xor_eq_zero_iff (marks : Marks mask marked) (marks_ : Marks other marked_) :
    mask ^^^ other = 0 ↔ ∀ position < 32, marked position ↔ marked_ position := by
  rw [UInt32.xor_eq_zero_iff]
  constructor
  · rintro rfl position inside
    rw [← marks position inside, marks_ position inside]
  · intro same
    -- Masks with the same bits are the same.
    apply UInt32.toBitVec_inj.mp
    apply BitVec.eq_of_getLsbD_eq
    intro position inside
    rw [Bool.eq_iff_iff, marks position inside, marks_ position inside]
    exact same position inside

end Marks
