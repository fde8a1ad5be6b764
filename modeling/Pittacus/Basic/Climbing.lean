import Mathlib.Data.List.Nodup
import Mathlib.Order.Basic

/-! Lists that climb from one bound to another. -/

/-- The elements increase strictly, beyond a lower bound and up to an upper one. -/
structure Climbs {α : Type} [Preorder α] (low high : α) (elements : List α) : Prop where
  increasing : elements.Pairwise (· < ·)
  above : ∀ element ∈ elements, low < element
  below : ∀ element ∈ elements, element ≤ high

namespace Climbs

variable {α : Type} [Preorder α] {low middle high : α}

/-- Nothing climbs anywhere. -/
theorem nil (low high : α) : Climbs low high [] :=
  ⟨.nil, List.forall_mem_nil _, List.forall_mem_nil _⟩

/-- Leaving elements out keeps the others climbing. -/
theorem sublist {elements kept : List α} (climbs : Climbs low high elements)
    (sub : kept.Sublist elements) : Climbs low high kept :=
  ⟨climbs.increasing.sublist sub, fun element member => climbs.above element (sub.subset member),
    fun element member => climbs.below element (sub.subset member)⟩

/-- A climb goes on where another one ended. -/
theorem append {early late : List α} (first : Climbs low middle early)
    (second : Climbs middle high late) (up : low ≤ middle) (up_ : middle ≤ high) :
    Climbs low high (early ++ late) where
  increasing := List.pairwise_append.mpr ⟨first.increasing, second.increasing,
    fun _ before _ after => lt_of_le_of_lt (first.below _ before) (second.above _ after)⟩
  above := List.forall_mem_append.mpr ⟨first.above,
    fun element member => lt_of_le_of_lt up (second.above element member)⟩
  below := List.forall_mem_append.mpr ⟨fun element member =>
    le_trans (first.below element member) up_, second.below⟩

/-- One step up is a climb. -/
theorem single (up : low < middle) : Climbs low middle [middle] :=
  ⟨List.pairwise_singleton _ _, List.forall_mem_singleton.mpr up,
    List.forall_mem_singleton.mpr (le_refl _)⟩

/-- Two elements are the same if they stand for the same place of a climb. -/
theorem inj {β : Type} {place : β → α} {items : List β} (climbs : Climbs low high (items.map place))
    {first second : β} (member : first ∈ items) (member_ : second ∈ items)
    (same : place first = place second) : first = second := by
  have distinct : (items.map place).Nodup := climbs.increasing.imp fun less => ne_of_lt less
  exact List.inj_on_of_nodup_map distinct member member_ same

end Climbs
