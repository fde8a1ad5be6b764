import Mathlib.Order.Basic

/-! Who has heard of whom, when everybody who asks is told all that the one who is asked has heard. -/

variable {ι σ κ β : Type}

/-- After some pulls, each of them by a reader from a source, one has heard of another. -/
def Hears : List (ι × ι) → ι → ι → Prop
  | [], i, j => i = j
  | (reader, source) :: rest, i, j => Hears rest i j ∨ Hears rest i reader ∧ j = source

instance decidableHears [DecidableEq ι] : ∀ (pulls : List (ι × ι)) (i j : ι), Decidable (Hears pulls i j)
  | [], i, j => inferInstanceAs (Decidable (i = j))
  | (reader, source) :: rest, i, j =>
    have := decidableHears rest i j
    have := decidableHears rest i reader
    inferInstanceAs (Decidable (Hears rest i j ∨ Hears rest i reader ∧ j = source))

namespace Hears

/-- Everybody has heard of themselves. -/
theorem self (pulls : List (ι × ι)) (i : ι) : Hears pulls i i := by
  induction pulls with
  | nil => exact rfl
  | cons pull rest ih => exact .inl ih

/-- What is heard early is passed on by what is heard later. -/
theorem append {early late : List (ι × ι)} {i middle j : ι} (second : Hears late i middle)
    (first : Hears early middle j) : Hears (early ++ late) i j := by
  induction early generalizing j with
  | nil => exact (show middle = j from first) ▸ second
  | cons pull rest ih =>
    rcases first with later | ⟨later, source⟩
    · exact .inl (ih later)
    · exact .inr ⟨ih later, source⟩

/-- Whoever pulls from everybody has heard of everybody. -/
theorem gathered {others : List ι} {hub j : ι} (member : j ∈ others) :
    Hears (others.map fun other => (hub, other)) hub j := by
  obtain ⟨before, after, rfl⟩ := List.append_of_mem member
  rw [List.map_append, List.map_cons]
  -- The pull from this one counts, whatever comes before and after it.
  exact append (.inr ⟨self _ hub, rfl⟩) (self _ j)

/-- If everybody pulls from one, all have heard of that one. -/
theorem scattered {others : List ι} {hub i : ι} (member : i ∈ others) :
    Hears (others.map fun other => (other, hub)) i hub := by
  obtain ⟨before, after, rfl⟩ := List.append_of_mem member
  rw [List.map_append, List.map_cons]
  exact append (.inr ⟨self _ i, rfl⟩) (self _ hub)

/-- One who first pulls from all others, and whom they all pull from then, connects everybody. -/
theorem through_hub {others : List ι} {hub : ι} (all : ∀ i, i ∈ others ∨ i = hub) (i j : ι) :
    Hears ((others.map fun other => (hub, other)) ++ others.map fun other => (other, hub)) i j := by
  have gathers : Hears (others.map fun other => (hub, other)) hub j := by
    rcases all j with other | rfl
    · exact gathered other
    · exact self _ j
  have scatters : Hears (others.map fun other => (other, hub)) i hub := by
    rcases all i with other | rfl
    · exact scattered other
    · exact self _ i
  exact append scatters gathers

end Hears

/-- States reached by pulls, one after the other. -/
inductive Pulled (pull : σ → ι → ι → σ → Prop) : σ → List (ι × ι) → σ → Prop where
  | done (state : σ) : Pulled pull state [] state
  | next {first middle last : σ} {reader source : ι} {rest : List (ι × ι)}
      (now : pull first reader source middle) (later : Pulled pull middle rest last) :
      Pulled pull first ((reader, source) :: rest) last

namespace Pulled

variable {pull : σ → ι → ι → σ → Prop} {good : σ → Prop}

/-- What a pull cannot have spoilt was not spoilt by any number of them. -/
theorem down (back : ∀ first reader source last, pull first reader source last →
      good last → good first)
    {pulls : List (ι × ι)} {first last : σ} (pulled : Pulled pull first pulls last)
    (fine : good last) : good first := by
  induction pulled with
  | done state => exact fine
  | next now _ ih => exact back _ _ _ _ now (ih fine)

/-- What somebody knew in the beginning is known in the end to all who have heard of them. -/
theorem le [Preorder β] {knows : σ → ι → κ → β}
    (back : ∀ first reader source last, pull first reader source last →
      good last → good first)
    (up : ∀ first reader source last, pull first reader source last → good last →
      ∀ i about, knows first i about ≤ knows last i about)
    (told : ∀ first reader source last, pull first reader source last → good last →
      ∀ about, knows first source about ≤ knows last reader about)
    {pulls : List (ι × ι)} {first last : σ} (pulled : Pulled pull first pulls last)
    (fine : good last) {i j : ι} (hears : Hears pulls i j) (about : κ) :
    knows first j about ≤ knows last i about := by
  induction pulled generalizing i j with
  | done state => exact (show i = j from hears) ▸ le_refl _
  | next now later ih =>
    have halfway := later.down back fine
    rcases hears with afterwards | ⟨afterwards, rfl⟩
    · exact le_trans (up _ _ _ _ now halfway j about) (ih fine afterwards)
    · -- The reader of this pull was told, and passes it on.
      exact le_trans (told _ _ _ _ now halfway about) (ih fine afterwards)

end Pulled
