import Mathlib.Data.List.Basic

/-! Computations over an explicit state that record what they did, and rules about them. -/

/-- What a computation leaves behind: its answer, the new state, and the events it caused. -/
structure Outcome (σ ε α : Type) where
  value : α
  state : σ
  events : List ε

/-- A computation that reads and updates a state and records events. -/
def Routine (σ ε α : Type) : Type := σ → Outcome σ ε α

namespace Routine

variable {σ ε α β γ : Type}

/-- The state as it is. -/
def get : Routine σ ε σ := fun state => ⟨state, state, []⟩

/-- Change the state. -/
def modify (change : σ → σ) : Routine σ ε Unit := fun state => ⟨(), change state, []⟩

/-- Record events. -/
def emit (events : List ε) : Routine σ ε Unit := fun state => ⟨(), state, events⟩

instance : Monad (Routine σ ε) where
  pure answer := fun state => ⟨answer, state, []⟩
  bind routine next := fun state =>
    let first := routine state
    let second := next first.value first.state
    ⟨second.value, second.state, first.events ++ second.events⟩

/-! ### Running one step -/

@[simp] theorem pure_run (answer : α) (state : σ) :
    (pure answer : Routine σ ε α) state = ⟨answer, state, []⟩ := rfl

@[simp] theorem get_run (state : σ) : (get : Routine σ ε σ) state = ⟨state, state, []⟩ := rfl

@[simp] theorem modify_run (change : σ → σ) (state : σ) :
    (modify change : Routine σ ε Unit) state = ⟨(), change state, []⟩ := rfl

@[simp] theorem emit_run (events : List ε) (state : σ) :
    (emit events : Routine σ ε Unit) state = ⟨(), state, events⟩ := rfl

theorem bind_run (routine : Routine σ ε α) (next : α → Routine σ ε β) (state : σ) :
    (routine >>= next) state =
      ⟨(next (routine state).value (routine state).state).value,
        (next (routine state).value (routine state).state).state,
        (routine state).events ++ (next (routine state).value (routine state).state).events⟩ := rfl

@[simp] theorem pure_bind_run (answer : α) (next : α → Routine σ ε β) (state : σ) :
    ((pure answer : Routine σ ε α) >>= next) state = next answer state := rfl

@[simp] theorem get_bind_run (next : σ → Routine σ ε β) (state : σ) :
    (get >>= next) state = next state state := rfl

@[simp] theorem modify_bind_run (change : σ → σ) (next : Unit → Routine σ ε β) (state : σ) :
    (modify change >>= next) state = next () (change state) := rfl

@[simp] theorem emit_bind_run (events : List ε) (next : Unit → Routine σ ε β) (state : σ) :
    (emit events >>= next) state =
      ⟨(next () state).value, (next () state).state, events ++ (next () state).events⟩ := rfl

/-- What follows two computations follows the second of them. -/
theorem bind_assoc (routine : Routine σ ε α) (next : α → Routine σ ε β) (last : β → Routine σ ε γ) :
    (routine >>= next) >>= last = routine >>= fun answer => next answer >>= last := by
  funext state
  simp only [bind_run, List.append_assoc]

/-- A computation whose outcome is known hands it to what follows. -/
theorem bind_of_run {routine : Routine σ ε α} {state : σ} {outcome : Outcome σ ε α}
    (ran : routine state = outcome) (next : α → Routine σ ε β) :
    (routine >>= next) state =
      ⟨(next outcome.value outcome.state).value, (next outcome.value outcome.state).state,
        outcome.events ++ (next outcome.value outcome.state).events⟩ := by
  rw [bind_run, ran]

@[simp] theorem ite_run (condition : Prop) [Decidable condition] (yes no : Routine σ ε α)
    (state : σ) :
    (if condition then yes else no) state = if condition then yes state else no state := by
  split <;> rfl

/-! ### Rules -/

/-- A relation between a state, the events since, and a later state that chains along a run. -/
structure Chains (relation : σ → List ε → σ → Prop) : Prop where
  /-- Doing nothing is related to itself. -/
  rest : ∀ state, relation state [] state
  /-- Two related stretches form one. -/
  join : ∀ {first middle last early late}, relation first early middle →
    relation middle late last → relation first (early ++ late) last

/-- Running the computation relates the state before to its events and the state after. -/
def Meets (relation : σ → List ε → σ → Prop) (routine : Routine σ ε α) : Prop :=
  ∀ state, relation state (routine state).events (routine state).state

section Rules

variable {relation : σ → List ε → σ → Prop}

theorem meets_pure (chains : Chains relation) (answer : α) :
    Meets relation (pure answer : Routine σ ε α) :=
  chains.rest

theorem meets_get (chains : Chains relation) : Meets relation (get : Routine σ ε σ) :=
  chains.rest

/-- A computation and its continuation each meeting the relation meet it together. -/
theorem meets_bind (chains : Chains relation) {routine : Routine σ ε α} {next : α → Routine σ ε β}
    (first : Meets relation routine) (second : ∀ answer, Meets relation (next answer)) :
    Meets relation (routine >>= next) :=
  fun state => chains.join (first state) (second _ _)

/-- From a given state, what follows a computation starts where the computation ends. -/
theorem joins_bind (chains : Chains relation) {routine : Routine σ ε α} {next : α → Routine σ ε β}
    {state : σ} (first : relation state (routine state).events (routine state).state)
    (second : relation (routine state).state
      (next (routine state).value (routine state).state).events
      (next (routine state).value (routine state).state).state) :
    relation state ((routine >>= next) state).events ((routine >>= next) state).state :=
  chains.join first second

/-- From a given state, a branch meets what the side it takes meets. -/
theorem joins_ite {condition : Prop} [Decidable condition] {yes no : Routine σ ε α} {state : σ}
    (taken : condition → relation state (yes state).events (yes state).state)
    (skipped : ¬condition → relation state (no state).events (no state).state) :
    relation state ((if condition then yes else no) state).events
      ((if condition then yes else no) state).state := by
  split
  · exact taken ‹_›
  · exact skipped ‹_›

theorem meets_ite {condition : Prop} [Decidable condition] {yes no : Routine σ ε α}
    (taken : condition → Meets relation yes) (skipped : ¬condition → Meets relation no) :
    Meets relation (if condition then yes else no) := by
  split
  · exact taken ‹_›
  · exact skipped ‹_›

end Rules

/-- The view of the state is left as it was. -/
def Frames (view : σ → γ) (before : σ) (_ : List ε) (after : σ) : Prop := view after = view before

theorem frames_chains (view : σ → γ) : Chains (ε := ε) (Frames view) where
  rest _ := rfl
  join first second := second.trans first

/-- An invariant that holds before holds after as well. -/
def Keeps (invariant : σ → Prop) (before : σ) (_ : List ε) (after : σ) : Prop :=
  invariant before → invariant after

theorem keeps_chains (invariant : σ → Prop) : Chains (ε := ε) (Keeps invariant) where
  rest _ := id
  join first second := second ∘ first

end Routine
