import Pittacus.Basic.Machine

/-! Computations that pay for what they cause out of what they are granted and have saved. -/

/-- What events cost together, and what a state has saved up to pay for later ones. -/
structure Budget (σ ε : Type) where
  spent : List ε → Nat
  saved : σ → Nat
  /-- Nothing costs nothing. -/
  spent_nil : spent [] = 0
  /-- Two stretches of events cost what each of them costs. -/
  spent_append : ∀ early late, spent (early ++ late) = spent early + spent late

namespace Budget

open Routine

variable {σ ε α β ι : Type} (budget : Budget σ ε)

/-- From a state on, a computation spends and saves no more than was saved and is granted. -/
def Covers (grant : Nat) (routine : Routine σ ε α) (state : σ) : Prop :=
  budget.spent (routine state).events + budget.saved (routine state).state
    ≤ budget.saved state + grant

variable {budget} {grant more : Nat} {state : σ}

/-- A larger grant does as well. -/
theorem Covers.mono {routine : Routine σ ε α} (covers : budget.Covers grant routine state)
    (larger : grant ≤ more) : budget.Covers more routine state :=
  Nat.le_trans covers (Nat.add_le_add_left larger _)

/-- Only what a computation does from the state on matters. -/
theorem Covers.congr {routine other : Routine σ ε α} (covers : budget.Covers grant routine state)
    (same : other state = routine state) : budget.Covers grant other state := by
  unfold Covers at covers ⊢
  rw [same]
  exact covers

/-- An answer costs nothing. -/
theorem covers_pure (answer : α) : budget.Covers grant (pure answer) state := by
  show budget.spent [] + budget.saved state ≤ _
  rw [budget.spent_nil]
  omega

/-- A change that causes nothing and saves no more than there was costs nothing. -/
theorem covers_modify {change : σ → σ} (less : budget.saved (change state) ≤ budget.saved state) :
    budget.Covers grant (modify change) state := by
  show budget.spent [] + budget.saved (change state) ≤ _
  rw [budget.spent_nil]
  omega

/-- What two computations cost is granted to both of them together. -/
theorem Covers.bind {routine : Routine σ ε α} {next : α → Routine σ ε β}
    (first : budget.Covers grant routine state)
    (second : budget.Covers more (next (routine state).value) (routine state).state) :
    budget.Covers (grant + more) (routine >>= next) state := by
  unfold Covers at first second ⊢
  rw [bind_run, budget.spent_append]
  -- What the first one saved is there for the second one.
  dsimp only
  omega

/-- What follows a computation and is free of charge adds nothing. -/
theorem Covers.andThen {routine : Routine σ ε α} {next : α → Routine σ ε β}
    (first : budget.Covers grant routine state)
    (second : budget.Covers 0 (next (routine state).value) (routine state).state) :
    budget.Covers grant (routine >>= next) state :=
  first.bind second

/-- Looking at the state costs nothing. -/
theorem Covers.get {next : σ → Routine σ ε β} (rest : budget.Covers grant (next state) state) :
    budget.Covers grant (Routine.get >>= next) state := rest

/-- A branch costs what the side it takes costs. -/
theorem covers_ite {condition : Prop} [Decidable condition] {yes no : Routine σ ε α}
    (taken : condition → budget.Covers grant yes state)
    (skipped : ¬condition → budget.Covers grant no state) :
    budget.Covers grant (if condition then yes else no) state := by
  split
  · exact taken ‹_›
  · exact skipped ‹_›

/-- A run spends and saves no more than its steps are granted, whatever they find saved. -/
theorem covers_run {step : ι → Routine σ ε α} {cost : σ → ι → Nat} {invariant : σ → Prop}
    (keeps : ∀ state input, invariant state → invariant (step input state).state)
    (covers : ∀ state input, invariant state → budget.Covers (cost state input) (step input) state)
    {state : σ} (start : invariant state) (inputs : List ι) :
    budget.spent (Machine.trace step inputs state) + budget.saved (Machine.run step inputs state)
      ≤ budget.saved state + Machine.total step cost inputs state := by
  induction inputs generalizing state with
  | nil =>
    show budget.spent [] + _ ≤ _
    rw [budget.spent_nil]
    exact Nat.le_of_eq (Nat.zero_add _)
  | cons input rest ih =>
    have first := covers state input start
    have later := ih (keeps state input start)
    unfold Covers at first
    rw [Machine.trace, Machine.run, Machine.total, budget.spent_append]
    omega

end Budget
