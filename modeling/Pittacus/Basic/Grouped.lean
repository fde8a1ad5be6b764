import Mathlib.Data.List.Basic

/-! Lists in which items with equal keys stand next to each other. -/

variable {α κ : Type}

/-- Between two equal keys there are only further ones of them. -/
def Grouped (keys : List κ) : Prop := ∀ outer inner, [outer, inner, outer].Sublist keys → inner = outer

namespace Grouped

theorem nil : Grouped ([] : List κ) := by
  intro outer inner between
  cases between

/-- Leaving items out separates nothing. -/
theorem sublist {keys part : List κ} (grouped : Grouped keys) (kept : part.Sublist keys) :
    Grouped part :=
  fun outer inner between => grouped outer inner (between.trans kept)

/-- A new group may be added at the end. -/
theorem append_replicate {keys : List κ} (grouped : Grouped keys) {fresh : κ}
    (absent : fresh ∉ keys) (count : Nat) : Grouped (keys ++ List.replicate count fresh) := by
  -- Either all three keys lie in the old part, or the last one, and so the first one, is new.
  intro outer inner between
  obtain ⟨early, late, split, old, new⟩ := List.sublist_append_iff.mp between
  have added : ∀ key ∈ late, key = fresh := fun key member =>
    List.eq_of_mem_replicate (new.subset member)
  cases early with
  | nil =>
    have first := added outer (by rw [← List.nil_append late, ← split]; simp)
    have second := added inner (by rw [← List.nil_append late, ← split]; simp)
    rw [first, second]
  | cons head tail =>
    have start : head = outer := (List.cons.inj split).1.symm
    subst start
    have missing : head ∉ late := fun member =>
      absurd (added head member ▸ old.subset List.mem_cons_self) absent
    cases late with
    | nil =>
      rw [List.append_nil] at split
      exact grouped _ _ (split ▸ old)
    | cons next others =>
      have last : (next :: others).getLast? = some head := by
        have ends := congrArg List.getLast? split
        rw [List.getLast?_append] at ends
        simpa using ends.symm
      exact absurd (List.mem_of_getLast? last) missing

/-- Behind a run of items with one key that starts the list, no other item has that key. -/
theorem not_mem_dropWhile [DecidableEq κ] {key : α → κ} {first : α} {rest : List α}
    (grouped : Grouped ((first :: rest).map key)) :
    ∀ item ∈ (first :: rest).dropWhile fun item => key item == key first, key item ≠ key first := by
  intro item member same
  have behind : (first :: rest).dropWhile (fun item => key item == key first)
      = rest.dropWhile fun item => key item == key first := by simp
  rw [behind] at member
  cases left : rest.dropWhile fun item => key item == key first with
  | nil =>
    rw [left] at member
    cases member
  | cons second others =>
    -- The run ends at an item with another key, which would stand between two with this one.
    have other : key second ≠ key first := by
      have ended := List.head?_dropWhile_not (fun item => key item == key first) rest
      rw [left] at ended
      simpa using ended
    rw [left] at member
    cases member with
    | head => exact other same
    | tail _ further =>
      have pair : [second, item].Sublist rest := by
        have part : (rest.dropWhile fun item => key item == key first).Sublist rest :=
          List.dropWhile_sublist _
        rw [left] at part
        exact (List.Sublist.cons_cons second (List.singleton_sublist.mpr further)).trans part
      have triple := (List.Sublist.cons_cons first pair).map key
      rw [List.map_cons, List.map_cons, List.map_cons, List.map_nil, same] at triple
      exact other (grouped _ _ triple)

end Grouped
