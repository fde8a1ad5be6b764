import Mathlib.Tactic.Push

/-! The largest of the numbers offered so far, kept up to date as more of them are offered. -/

variable {α : Type} [LE α]

/-- What is kept is the largest of the offered numbers, or nothing if none was offered. -/
structure Largest (offered : α → Prop) (kept : Option α) : Prop where
  among : ∀ number ∈ kept, offered number
  bounds : ∀ number, offered number → ∃ largest ∈ kept, number ≤ largest

namespace Largest

variable {offered alike : α → Prop} {kept other : Option α} {number : α}

/-- Only which numbers were offered matters, not how they are described. -/
theorem congr (largest : Largest offered kept)
    (same : ∀ number, offered number ↔ alike number) : Largest alike kept where
  among number member := (same number).mp (largest.among number member)
  bounds number here := largest.bounds number ((same number).mpr here)

variable [Std.IsLinearOrder α]

/-- A number that was offered alone is the largest. -/
theorem single (kept : Option α) : Largest (fun number => kept = some number) kept where
  among _ member := member
  bounds number here := ⟨number, here, Std.le_refl number⟩

/-- There is only one largest number. -/
theorem unique (one : Largest offered kept) (two : Largest offered other) : kept = other := by
  -- Each bounds the other, since each was offered.
  cases kept with
  | none =>
    cases other with
    | none => rfl
    | some largest =>
      obtain ⟨_, nothing, _⟩ := one.bounds largest (two.among largest rfl)
      cases nothing
  | some largest =>
    obtain ⟨above, rfl, below⟩ := two.bounds largest (one.among largest rfl)
    obtain ⟨back, found, beyond⟩ := one.bounds above (two.among above rfl)
    cases found
    rw [Std.le_antisymm below beyond]

variable [LT α] [Std.LawfulOrderLT α]

/-- A number above all others takes their place. -/
theorem replace (largest : Largest offered kept) (above : ∀ held ∈ kept, held < number) :
    Largest (fun any => offered any ∨ any = number) (some number) where
  among any member := .inr (Option.some.inj member).symm
  bounds any given := by
    refine ⟨number, rfl, ?_⟩
    rcases given with before | rfl
    · -- It was at most the one kept, which is below the new one.
      obtain ⟨held, member, below⟩ := largest.bounds any before
      exact Std.le_trans below (Std.le_of_lt (above held member))
    · exact Std.le_refl any

/-- A number that is not above all others leaves the largest where it is. -/
theorem keep (largest : Largest offered kept) (low : ¬∀ held ∈ kept, held < number) :
    Largest (fun any => offered any ∨ any = number) kept where
  among any member := .inl (largest.among any member)
  bounds any given := by
    rcases given with before | rfl
    · exact largest.bounds any before
    · push Not at low
      obtain ⟨held, member, covers⟩ := low
      exact ⟨held, member, Std.not_lt.mp covers⟩

end Largest
