import Mathlib.Algebra.BigOperators.Fin
import Mathlib.Data.Fin.Tuple.Basic
import Mathlib.Data.Fintype.BigOperators
import Mathlib.Data.List.GetD
import Mathlib.Data.Nat.Factorial.Basic

/-! Reservoir sampling over positions: which are chosen, and how often each set of them is. -/

namespace Reservoir

variable {α β : Type}

/-- Let an element replace the chosen entry of a reservoir, or be passed over if there is none. -/
def offer (reservoir : List α) (choice : Nat) (element : α) : List α :=
  if choice < reservoir.length then reservoir.set choice element else reservoir

/-- The choices for the elements behind the first ones, each among the elements seen so far. -/
abbrev Choices (size extra : Nat) : Type := (i : Fin extra) → Fin (size + i + 1)

/-- The positions a reservoir of the given size holds after so many further ones were offered. -/
def positions (size : Nat) : (extra : Nat) → Choices size extra → List Nat
  | 0, _ => List.range size
  | extra + 1, choices =>
    offer (positions size extra fun i => choices i.castSucc) (choices (Fin.last extra)) (size + extra)

/-! ### What a reservoir holds -/

@[simp] theorem length_offer (reservoir : List α) (choice : Nat) (element : α) :
    (offer reservoir choice element).length = reservoir.length := by
  unfold offer
  split
  · exact List.length_set
  · rfl

/-- Elements may be relabelled before or after they are offered. -/
theorem map_offer (label : α → β) (reservoir : List α) (choice : Nat) (element : α) :
    (offer reservoir choice element).map label = offer (reservoir.map label) choice (label element) := by
  unfold offer
  rw [List.length_map]
  split
  · exact List.map_set
  · rfl

/-- What is in a reservoir after an offer was there before, or was offered. -/
theorem mem_offer {reservoir : List α} {choice : Nat} {element other : α}
    (member : other ∈ offer reservoir choice element) : other ∈ reservoir ∨ other = element := by
  unfold offer at member
  split at member
  · exact List.mem_or_eq_of_mem_set member
  · exact .inl member

@[simp] theorem length_positions (size extra : Nat) (choices : Choices size extra) :
    (positions size extra choices).length = size := by
  induction extra with
  | zero => exact List.length_range
  | succ extra ih => rw [positions, length_offer, ih]

/-- Only positions seen so far are chosen. -/
theorem lt_of_mem_positions {size extra : Nat} {choices : Choices size extra} {position : Nat}
    (member : position ∈ positions size extra choices) : position < size + extra := by
  induction extra with
  | zero => exact List.mem_range.mp member
  | succ extra ih =>
    rcases mem_offer member with before | rfl
    · exact Nat.lt_succ_of_lt (ih before)
    · exact Nat.lt_succ_self _

/-- The position offered next is not yet in the reservoir. -/
theorem next_not_mem_positions {size extra : Nat} {choices : Choices size extra} :
    size + extra ∉ positions size extra choices :=
  fun member => Nat.lt_irrefl _ (lt_of_mem_positions member)

/-- No position is chosen twice. -/
theorem nodup_positions (size extra : Nat) (choices : Choices size extra) :
    (positions size extra choices).Nodup := by
  induction extra with
  | zero => exact List.nodup_range
  | succ extra ih =>
    rw [positions, offer]
    split
    · exact (ih _).set next_not_mem_positions
    · exact ih _

/-! ### Counting -/

/-- Replacing an entry takes it out of the set of entries, and puts the new one in. -/
theorem toFinset_set {reservoir : List Nat} (distinct : reservoir.Nodup) {choice element : Nat}
    (inside : choice < reservoir.length) (fresh : element ∉ reservoir) :
    (reservoir.set choice element).toFinset =
      insert element (reservoir.toFinset.erase reservoir[choice]) := by
  have parts : reservoir =
      reservoir.take choice ++ reservoir[choice] :: reservoir.drop (choice + 1) := by
    rw [← List.drop_eq_getElem_cons inside, List.take_append_drop]
  rw [List.set_eq_take_append_cons_drop, if_pos inside]
  generalize reservoir[choice] = old at *
  generalize reservoir.take choice = front at *
  generalize reservoir.drop (choice + 1) = back at *
  subst parts
  -- The replaced entry occurs nowhere else.
  obtain ⟨-, distinct_, apart⟩ := List.nodup_append.mp distinct
  obtain ⟨behind, -⟩ := List.nodup_cons.mp distinct_
  have before : old ∉ front := fun member => apart old member old List.mem_cons_self rfl
  ext position
  simp only [List.mem_toFinset, List.mem_append, List.mem_cons, Finset.mem_insert, Finset.mem_erase]
  constructor
  · rintro (held | rfl | held)
    · exact .inr ⟨fun same => before (same ▸ held), .inl held⟩
    · exact .inl rfl
    · exact .inr ⟨fun same => behind (same ▸ held), .inr (.inr held)⟩
  · rintro (rfl | ⟨other, held | same | held⟩)
    · exact .inr (.inl rfl)
    · exact .inl held
    · exact absurd same other
    · exact .inr (.inr held)

/-- A set without the offered element is reached by passing the element over. -/
theorem card_passing {reservoir : List Nat} {subset : Finset Nat} {element bound : Nat}
    (absent : element ∉ subset) :
    ((Finset.range bound).filter fun choice =>
      (offer reservoir choice element).toFinset = subset).card =
        if reservoir.toFinset = subset then bound - reservoir.length else 0 := by
  have only : ∀ choice, (offer reservoir choice element).toFinset = subset ↔
      reservoir.length ≤ choice ∧ reservoir.toFinset = subset := by
    intro choice
    unfold offer
    by_cases inside : choice < reservoir.length
    · -- An element that replaces an entry is in the reservoir.
      rw [if_pos inside]
      refine iff_of_false (fun same => absent ?_) fun both => Nat.not_lt.mpr both.1 inside
      rw [← same, List.mem_toFinset]
      exact List.mem_set inside element
    · rw [if_neg inside]
      exact ⟨fun same => ⟨Nat.le_of_not_lt inside, same⟩, And.right⟩
  by_cases same : reservoir.toFinset = subset
  · have tail : ((Finset.range bound).filter fun choice =>
        (offer reservoir choice element).toFinset = subset) =
          Finset.Ico reservoir.length bound := by
      ext choice
      rw [Finset.mem_filter, only, Finset.mem_range, Finset.mem_Ico]
      exact ⟨fun both => ⟨both.2.1, both.1⟩, fun both => ⟨both.2, both.1, same⟩⟩
    rw [if_pos same, tail, Nat.card_Ico]
  · rw [if_neg same, Finset.card_eq_zero, Finset.filter_eq_empty_iff]
    exact fun choice _ both => same ((only choice).mp both).2

/-- A set with the offered element is reached by replacing one that is not in the set. -/
theorem card_replacing {reservoir : List Nat} (distinct : reservoir.Nodup) {subset : Finset Nat}
    {element bound : Nat} (below : ∀ position ∈ reservoir, position < element)
    (present : element ∈ subset) (room : reservoir.length ≤ bound) :
    ((Finset.range bound).filter fun choice =>
      (offer reservoir choice element).toFinset = subset).card =
        ((Finset.range element \ subset).filter fun old =>
          reservoir.toFinset = insert old (subset.erase element)).card := by
  have fresh : element ∉ reservoir := fun member => Nat.lt_irrefl _ (below _ member)
  have inside : ∀ choice, (offer reservoir choice element).toFinset = subset →
      choice < reservoir.length := by
    intro choice same
    by_contra outside
    rw [offer, if_neg outside] at same
    exact fresh (List.mem_toFinset.mp (same ▸ present))
  -- The choice is known by the entry it replaces.
  refine Finset.card_bij (fun choice _ => reservoir.getD choice 0) ?_ ?_ ?_
  · intro choice member
    have same := (Finset.mem_filter.mp member).2
    have within := inside choice same
    rw [offer, if_pos within, toFinset_set distinct within fresh] at same
    rw [List.getD_eq_getElem _ _ within]
    have held : reservoir[choice] ∈ reservoir := List.getElem_mem within
    have other : reservoir[choice] ≠ element := fun equal => fresh (equal ▸ held)
    have fresh_ : element ∉ reservoir.toFinset.erase reservoir[choice] := fun member =>
      fresh (List.mem_toFinset.mp (Finset.mem_of_mem_erase member))
    refine Finset.mem_filter.mpr ⟨Finset.mem_sdiff.mpr ⟨Finset.mem_range.mpr (below _ held), ?_⟩, ?_⟩
    · rw [← same, Finset.mem_insert, not_or]
      exact ⟨other, Finset.notMem_erase _ _⟩
    · rw [← same, Finset.erase_insert fresh_, Finset.insert_erase (List.mem_toFinset.mpr held)]
  · intro choice member choice_ member_ same
    have within := inside choice (Finset.mem_filter.mp member).2
    have within_ := inside choice_ (Finset.mem_filter.mp member_).2
    rw [List.getD_eq_getElem _ _ within, List.getD_eq_getElem _ _ within_] at same
    exact (List.Nodup.getElem_inj_iff distinct).mp same
  · intro old member
    obtain ⟨outside, before⟩ := Finset.mem_filter.mp member
    obtain ⟨-, missing⟩ := Finset.mem_sdiff.mp outside
    have held : old ∈ reservoir := by
      rw [← List.mem_toFinset, before]
      exact Finset.mem_insert_self _ _
    obtain ⟨choice, within, rfl⟩ := List.getElem_of_mem held
    refine ⟨choice, Finset.mem_filter.mpr ⟨Finset.mem_range.mpr (by omega), ?_⟩,
      List.getD_eq_getElem _ _ within⟩
    have missing_ : reservoir[choice] ∉ subset.erase element := fun member =>
      missing (Finset.mem_of_mem_erase member)
    rw [offer, if_pos within, toFinset_set distinct within fresh, before,
      Finset.erase_insert missing_, Finset.insert_erase present]

/-- The last choice comes on top of the choices before it. -/
theorem card_outcomes_succ (size extra : Nat) (subset : Finset Nat) :
    (Finset.univ.filter fun choices : Choices size (extra + 1) =>
      (positions size (extra + 1) choices).toFinset = subset).card =
        ∑ choices : Choices size extra, ((Finset.range (size + extra + 1)).filter fun choice =>
          (offer (positions size extra choices) choice (size + extra)).toFinset = subset).card := by
  -- Choices are dependent functions, so the last one is split off by an equivalence.
  let family : Fin (extra + 1) → Type := fun i => Fin (size + i + 1)
  have last : ∀ (choices : Choices size extra) (choice : Fin (size + extra + 1)),
      positions size (extra + 1) (Fin.snocEquiv family (choice, choices)) =
        offer (positions size extra choices) choice (size + extra) := by
    intro choices choice
    simp [positions, Fin.snocEquiv, family]
  rw [Finset.card_filter, ← (Fin.snocEquiv family).sum_comp, Fintype.sum_prod_type_right]
  refine Finset.sum_congr rfl fun choices _ => ?_
  rw [Finset.card_filter, ← Fin.sum_univ_eq_sum_range (fun choice =>
    if (offer (positions size extra choices) choice (size + extra)).toFinset = subset then 1 else 0)]
  exact Finset.sum_congr rfl fun choice _ => by rw [last]

/-- Every set of as many positions as the reservoir holds is the outcome equally often. -/
theorem card_outcomes {size : Nat} (positive : 0 < size) (extra : Nat) {subset : Finset Nat}
    (inside : subset ⊆ Finset.range (size + extra)) (card : subset.card = size) :
    (Finset.univ.filter fun choices : Choices size extra =>
      (positions size extra choices).toFinset = subset).card = extra.factorial := by
  induction extra generalizing subset with
  | zero =>
    have all_ : (List.range size).toFinset = subset := by
      rw [Finset.eq_of_subset_of_card_le inside (by rw [card, Finset.card_range]; rfl)]
      ext position
      simp
    simp [positions, all_]
  | succ extra ih =>
    rw [card_outcomes_succ]
    by_cases present : size + extra ∈ subset
    · -- The last position replaced some position that is not in the set.
      have rest : subset.erase (size + extra) ⊆ Finset.range (size + extra) := by
        intro position member
        obtain ⟨other, held⟩ := Finset.mem_erase.mp member
        have below := Finset.mem_range.mp (inside held)
        exact Finset.mem_range.mpr (by omega)
      have fewer : (subset.erase (size + extra)).card = size - 1 := by
        rw [Finset.card_erase_of_mem present, card]
      have replaced : ∀ choices : Choices size extra,
          ((Finset.range (size + extra + 1)).filter fun choice =>
            (offer (positions size extra choices) choice (size + extra)).toFinset = subset).card =
          ((Finset.range (size + extra) \ subset).filter fun old =>
            (positions size extra choices).toFinset =
              insert old (subset.erase (size + extra))).card :=
        fun choices => card_replacing (nodup_positions size extra choices)
          (fun _ => lt_of_mem_positions) present
          (by rw [length_positions]; omega)
      have each : ∀ old ∈ Finset.range (size + extra) \ subset,
          (Finset.univ.filter fun choices : Choices size extra =>
            (positions size extra choices).toFinset =
              insert old (subset.erase (size + extra))).card = extra.factorial := by
        intro old member
        obtain ⟨below, missing⟩ := Finset.mem_sdiff.mp member
        have missing_ : old ∉ subset.erase (size + extra) := fun held =>
          missing (Finset.mem_of_mem_erase held)
        refine ih (Finset.insert_subset below rest) ?_
        rw [Finset.card_insert_of_notMem missing_, fewer]
        omega
      have others : (Finset.range (size + extra) \ subset).card = extra + 1 := by
        have same : Finset.range (size + extra) \ subset =
            Finset.range (size + extra) \ subset.erase (size + extra) := by
          ext position
          simp only [Finset.mem_sdiff, Finset.mem_range, Finset.mem_erase, not_and]
          constructor
          · exact fun both => ⟨both.1, fun _ held => absurd held both.2⟩
          · exact fun both => ⟨both.1, both.2 (Nat.ne_of_lt both.1)⟩
        rw [same, Finset.card_sdiff_of_subset rest, Finset.card_range, fewer]
        omega
      simp only [replaced]
      simp only [Finset.card_filter] at each ⊢
      rw [Finset.sum_comm, Finset.sum_congr rfl each, Finset.sum_const, others, smul_eq_mul,
        Nat.factorial_succ]
    · -- The last position was passed over, whichever of the higher choices was made.
      have inside_ : subset ⊆ Finset.range (size + extra) := by
        intro position member
        have below := Finset.mem_range.mp (inside member)
        have other : position ≠ size + extra := fun same => present (same ▸ member)
        exact Finset.mem_range.mpr (by omega)
      have passed : ∀ choices : Choices size extra,
          ((Finset.range (size + extra + 1)).filter fun choice =>
            (offer (positions size extra choices) choice (size + extra)).toFinset = subset).card =
          (if (positions size extra choices).toFinset = subset then 1 else 0) * (extra + 1) := by
        intro choices
        rw [card_passing present, length_positions]
        split
        · omega
        · omega
      rw [Finset.sum_congr rfl fun choices _ => passed choices, ← Finset.sum_mul,
        ← Finset.card_filter, ih inside_ card, Nat.mul_comm, Nat.factorial_succ]

end Reservoir
