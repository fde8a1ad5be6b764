import Pittacus.Basic.Routine

/-! Runs of a machine that consumes one input at a time, and invariants along them. -/

namespace Machine

variable {σ ι ε α : Type} (step : ι → Routine σ ε α)

/-- The state reached by consuming the inputs in order. -/
def run : List ι → σ → σ
  | [], state => state
  | input :: rest, state => run rest (step input state).state

/-- The events caused while consuming the inputs in order. -/
def trace : List ι → σ → List ε
  | [], _ => []
  | input :: rest, state => (step input state).events ++ trace rest (step input state).state

/-- Every input satisfies a condition on the state it finds. -/
def Along (condition : σ → ι → Prop) : List ι → σ → Prop
  | [], _ => True
  | input :: rest, state => condition state input ∧ Along condition rest (step input state).state

instance decidableAlong (condition : σ → ι → Prop) [∀ state input, Decidable (condition state input)] :
    ∀ inputs state, Decidable (Along step condition inputs state)
  | [], _ => .isTrue trivial
  | input :: rest, state =>
    have := decidableAlong condition rest (step input state).state
    inferInstanceAs (Decidable (condition state input ∧ _))

variable {step}

@[simp] theorem run_append (first second : List ι) (state : σ) :
    run step (first ++ second) state = run step second (run step first state) := by
  induction first generalizing state with
  | nil => rfl
  | cons input rest ih => exact ih _

@[simp] theorem trace_append (first second : List ι) (state : σ) :
    trace step (first ++ second) state
      = trace step first state ++ trace step second (run step first state) := by
  induction first generalizing state with
  | nil => rfl
  | cons input rest ih => simp [trace, run, ih]

theorem along_append {condition : σ → ι → Prop} {first second : List ι} {state : σ} :
    Along step condition (first ++ second) state ↔
      Along step condition first state ∧ Along step condition second (run step first state) := by
  induction first generalizing state with
  | nil => simp [Along, run]
  | cons input rest ih => simp [Along, run, ih, and_assoc]

/-- A condition holds along a run exactly when it holds at each of its steps. -/
theorem along_iff {condition : σ → ι → Prop} {inputs : List ι} {state : σ} :
    Along step condition inputs state ↔
      ∀ earlier input later, inputs = earlier ++ input :: later →
        condition (run step earlier state) input := by
  constructor
  · rintro along earlier input later rfl
    exact (along_append.mp along).2.1
  · -- The first input splits off with nothing before it, the others with it in front.
    intro each
    induction inputs generalizing state with
    | nil => trivial
    | cons input rest ih =>
      refine ⟨each [] input rest rfl, ih fun earlier next later split => ?_⟩
      exact each (input :: earlier) next later (by rw [split]; rfl)

/-- Conditions that hold along a run may be combined step by step. -/
theorem Along.imp {first second : σ → ι → Prop} {inputs : List ι} {state : σ}
    (along : Along step first inputs state)
    (weaker : ∀ state input, first state input → second state input) :
    Along step second inputs state := by
  induction inputs generalizing state with
  | nil => trivial
  | cons input rest ih => exact ⟨weaker _ _ along.1, ih along.2⟩

theorem Along.and {first second : σ → ι → Prop} {inputs : List ι} {state : σ}
    (left : Along step first inputs state) (right : Along step second inputs state) :
    Along step (fun state input => first state input ∧ second state input) inputs state := by
  induction inputs generalizing state with
  | nil => trivial
  | cons input rest ih => exact ⟨⟨left.1, right.1⟩, ih left.2 right.2⟩

/-- Conditions that each hold along a run hold along it together. -/
theorem along_forall {κ : Type} {condition : κ → σ → ι → Prop} {inputs : List ι} {state : σ}
    (each : ∀ k, Along step (condition k) inputs state) :
    Along step (fun state input => ∀ k, condition k state input) inputs state := by
  induction inputs generalizing state with
  | nil => trivial
  | cons input rest ih => exact ⟨fun k => (each k).1, ih fun k => (each k).2⟩

/-- An invariant each admitted step preserves holds at the end of an admitted run. -/
theorem run_invariant {condition : σ → ι → Prop} {invariant : σ → Prop}
    (preserved : ∀ state input, invariant state → condition state input →
      invariant (step input state).state)
    {inputs : List ι} {state : σ} (start : invariant state)
    (along : Along step condition inputs state) : invariant (run step inputs state) := by
  induction inputs generalizing state with
  | nil => exact start
  | cons input rest ih => exact ih (preserved _ _ start along.1) along.2

/-- What an invariant implies about each step holds along every admitted run. -/
theorem along_of_invariant {condition conclusion : σ → ι → Prop} {invariant : σ → Prop}
    (preserved : ∀ state input, invariant state → condition state input →
      invariant (step input state).state)
    (implied : ∀ state input, invariant state → condition state input → conclusion state input)
    {inputs : List ι} {state : σ} (start : invariant state)
    (along : Along step condition inputs state) : Along step conclusion inputs state := by
  -- The invariant holds at each state reached, so each step is one it speaks about.
  induction inputs generalizing state with
  | nil => trivial
  | cons input rest ih =>
    exact ⟨implied _ _ start along.1, ih (preserved _ _ start along.1) along.2⟩

/-- Conditions that an invariant makes equivalent at each admitted step hold along the same runs. -/
theorem along_congr {condition left right : σ → ι → Prop} {invariant : σ → Prop}
    (preserved : ∀ state input, invariant state → condition state input →
      invariant (step input state).state)
    (agree : ∀ state input, invariant state → condition state input →
      (left state input ↔ right state input))
    {inputs : List ι} {state : σ} (start : invariant state)
    (along : Along step condition inputs state) :
    Along step left inputs state ↔ Along step right inputs state := by
  -- Both runs pass through the same states: only the conditions on the steps differ.
  induction inputs generalizing state with
  | nil => exact Iff.rfl
  | cons input rest ih =>
    have now := agree state input start along.1
    have later := ih (preserved state input start along.1) along.2
    exact and_congr now later

/-- Conditions that an invariant makes equivalent at each step, and that keep it, hold together. -/
theorem along_agree {admitted : ι → Prop} {left right : σ → ι → Prop} {invariant : σ → Prop}
    (agree : ∀ state input, admitted input → invariant state →
      (left state input ↔ right state input))
    (preserved : ∀ state input, admitted input → invariant state → left state input →
      invariant (step input state).state)
    {inputs : List ι} {state : σ} (start : invariant state)
    (given : ∀ input ∈ inputs, admitted input) :
    Along step left inputs state ↔ Along step right inputs state := by
  -- As soon as one of the two fails at a step, so does the other.
  induction inputs generalizing state with
  | nil => exact Iff.rfl
  | cons input rest ih =>
    obtain ⟨now, later⟩ := List.forall_mem_cons.mp given
    have rest_ : left state input →
        (Along step left rest (step input state).state ↔
          Along step right rest (step input state).state) :=
      fun holds => ih (preserved state input now start holds) later
    exact (and_congr_right rest_).trans (and_congr_left' (agree state input now start))

/-- A relation that chains and that every step meets relates the ends of every run. -/
theorem run_meets {relation : σ → List ε → σ → Prop} (chains : Routine.Chains relation)
    (steps : ∀ input, Routine.Meets relation (step input)) (inputs : List ι) (state : σ) :
    relation state (trace step inputs state) (run step inputs state) := by
  induction inputs generalizing state with
  | nil => exact chains.rest state
  | cons input rest ih => exact chains.join (steps input state) (ih _)

/-- States that answer every input alike, and stay so, cannot be told apart by any run. -/
theorem run_alike {alike : σ → σ → Prop}
    (steps : ∀ input first second, alike first second →
      (step input second).events = (step input first).events ∧
        alike (step input first).state (step input second).state)
    (inputs : List ι) {first second : σ} (start : alike first second) :
    trace step inputs second = trace step inputs first ∧
      alike (run step inputs first) (run step inputs second) := by
  -- The induction is on the inputs, with both states moving on together.
  induction inputs generalizing first second with
  | nil => exact ⟨rfl, start⟩
  | cons input rest ih =>
    obtain ⟨same, next⟩ := steps input first second start
    obtain ⟨later, last⟩ := ih next
    exact ⟨by rw [trace, trace, same, later], last⟩

/-- Every event of a run satisfies a condition exactly when those of each of its steps do. -/
theorem forall_trace_iff {shown : ε → Prop} {inputs : List ι} {state : σ} :
    (∀ event ∈ trace step inputs state, shown event) ↔
      Along step (fun state input => ∀ event ∈ (step input state).events, shown event) inputs
        state := by
  induction inputs generalizing state with
  | nil => exact ⟨fun _ => trivial, fun _ event member => absurd member List.not_mem_nil⟩
  | cons input rest ih => rw [trace, List.forall_mem_append, ih, Along]

/-! ### Budgets -/

/-- What the steps of a run cost together. -/
def total (step : ι → Routine σ ε α) (cost : σ → ι → Nat) : List ι → σ → Nat
  | [], _ => 0
  | input :: rest, state => cost state input + total step cost rest (step input state).state

/-- A run that stays within a budget as a whole does so at each of its steps. -/
theorem along_budget {spent : σ → Nat} {cost : σ → ι → Nat} {limit : Nat} {invariant : σ → Prop}
    (counts : ∀ state input, invariant state → spent state + cost state input < limit →
      invariant (step input state).state ∧
        spent (step input state).state = spent state + cost state input)
    {inputs : List ι} {state : σ} (start : invariant state)
    (room : spent state + total step cost inputs state < limit) :
    Along step (fun state input => invariant state ∧ spent state + cost state input < limit) inputs
      state := by
  -- What a step costs is spent when the rest of the run begins.
  induction inputs generalizing state with
  | nil => trivial
  | cons input rest ih =>
    rw [total] at room
    have now : spent state + cost state input < limit := by omega
    obtain ⟨next, sum⟩ := counts state input start now
    exact ⟨⟨start, now⟩, ih next (by omega)⟩

end Machine
