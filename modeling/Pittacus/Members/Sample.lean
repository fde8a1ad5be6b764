import Pittacus.Basic.Reservoir
import Pittacus.Member

/-! Random members are a fair sample of the positions of the set, none of them chosen twice. -/

namespace Pittacus

/-- The choices that random numbers stand for, each reduced to the elements seen so far. -/
def drawnChoices (random : Nat → UInt32) (size extra : Nat) : Reservoir.Choices size extra :=
  fun i => ⟨(random i).toNat % (size + i + 1), Nat.mod_lt _ (Nat.succ_pos _)⟩

/-- The last member is offered to the reservoir that the members before it leave behind. -/
theorem replaceAtRandom_concat (random : Nat → UInt32) (drawn memberIdx : Nat)
    (rest : List ClusterMember) (last : ClusterMember) (reservoir : List ClusterMember) :
    replaceAtRandom random drawn memberIdx (rest ++ [last]) reservoir =
      Reservoir.offer (replaceAtRandom random drawn memberIdx rest reservoir)
        ((random (drawn + rest.length)).toNat % (memberIdx + rest.length + 1)) last := by
  -- Drawing and counting move on together, one random number for each member offered.
  induction rest generalizing drawn memberIdx reservoir with
  | nil => rfl
  | cons member rest ih =>
    have draws : drawn + 1 + rest.length = drawn + (member :: rest).length := by
      rw [List.length_cons]
      omega
    have seen : memberIdx + 1 + rest.length = memberIdx + (member :: rest).length := by
      rw [List.length_cons]
      omega
    rw [List.cons_append, replaceAtRandom, ih, draws, seen]
    rfl

/-- What is kept of the members offered so far are those at the chosen positions. -/
theorem replaceAtRandom_positions (random : Nat → UInt32) (known : List ClusterMember)
    (size extra : Nat) (inside : size + extra ≤ known.length) :
    (replaceAtRandom random 0 size ((known.drop size).take extra) (known.take size)).map some =
      (Reservoir.positions size extra (drawnChoices random size extra)).map (known[·]?) := by
  induction extra with
  | zero =>
    -- The reservoir starts with the first members.
    rw [List.take_zero]
    show (known.take size).map some = (List.range size).map (known[·]?)
    apply List.ext_getElem?
    intro position
    rw [List.getElem?_map, List.getElem?_map, List.getElem?_take]
    by_cases below : position < size
    · rw [if_pos below, List.getElem?_range below, Option.map_some,
        List.getElem?_eq_getElem (by omega)]
      rfl
    · rw [if_neg below, List.getElem?_eq_none (by rw [List.length_range]; omega)]
      rfl
  | succ extra ih =>
    have bound : extra < (known.drop size).length := by
      rw [List.length_drop]
      omega
    have length : ((known.drop size).take extra).length = extra := by
      rw [List.length_take, Nat.min_eq_left (Nat.le_of_lt bound)]
    have offered : some (known.drop size)[extra] = known[size + extra]? := by
      rw [List.getElem_drop, List.getElem?_eq_getElem (by omega)]
    rw [List.take_succ_eq_append_getElem bound, replaceAtRandom_concat, Reservoir.map_offer,
      ih (by omega), length, Nat.zero_add, offered, Reservoir.positions, Reservoir.map_offer]
    rfl

/--
Random members sit at pairwise different positions, and every set of positions is equally likely.

The positions depend on the random numbers only through the choices they stand for.
-/
theorem randomMembers_fair (members : ClusterMemberSet) (reservoirSize : Nat) :
    let known := members.live
    let size := min known.length reservoirSize
    (∀ random : Nat → UInt32,
      let chosen := Reservoir.positions size (known.length - size)
        (drawnChoices random size (known.length - size))
      (clusterMemberSetRandomMembers members random reservoirSize).length = size ∧
      chosen.Nodup ∧ (∀ position ∈ chosen, position < known.length) ∧
      (clusterMemberSetRandomMembers members random reservoirSize).map some =
        chosen.map (known[·]?)) ∧
    (0 < reservoirSize → ∀ extra, 0 < extra → known.length = reservoirSize + extra →
      ∀ subset ⊆ Finset.range known.length, subset.card = reservoirSize →
        (Finset.univ.filter fun choices : Reservoir.Choices reservoirSize extra =>
          (Reservoir.positions reservoirSize extra choices).toFinset = subset).card =
            extra.factorial) := by
  intro known size
  have within : size ≤ known.length := Nat.min_le_left _ _
  have whole : size + (known.length - size) = known.length := by omega
  refine ⟨fun random => ?_, fun positive extra _ fewer subset inside card => ?_⟩
  · intro chosen
    have actual : (if known.length > reservoirSize then reservoirSize else known.length) = size := by
      simp only [size]
      split <;> omega
    -- The code samples the reservoir's positions: the first members, then one for each of the rest.
    have kept : (clusterMemberSetRandomMembers members random reservoirSize).map some =
        chosen.map (known[·]?) := by
      have rest : (known.drop size).take (known.length - size) = known.drop size :=
        List.take_of_length_le (by rw [List.length_drop])
      have sampled := replaceAtRandom_positions random known size (known.length - size)
        (Nat.le_of_eq whole)
      rw [rest] at sampled
      unfold clusterMemberSetRandomMembers
      dsimp only
      rw [actual]
      exact sampled
    refine ⟨?_, Reservoir.nodup_positions _ _ _, fun position member => ?_, kept⟩
    · have lengths := congrArg List.length kept
      rwa [List.length_map, List.length_map, Reservoir.length_positions] at lengths
    · exact whole ▸ Reservoir.lt_of_mem_positions member
  · rw [fewer] at inside
    exact Reservoir.card_outcomes positive extra inside card

/-- Of three members two are sampled: the last draw decides, and each pair comes up once. -/
theorem randomMembers_fair_three :
    let member (uid : UInt32) : ClusterMember := ⟨1, uid, [2, 0], by decide⟩
    let members := clusterMemberSetPut clusterMemberSetInit [member 1, member 2, member 3]
    members.live.length = 3 ∧
      (Finset.univ.filter fun choices : Reservoir.Choices 2 1 =>
        (Reservoir.positions 2 1 choices).toFinset = {0, 2}).card = 1 :=
  ⟨by decide +kernel,
    (randomMembers_fair (clusterMemberSetPut clusterMemberSetInit
      [⟨1, 1, [2, 0], by decide⟩, ⟨1, 2, [2, 0], by decide⟩, ⟨1, 3, [2, 0], by decide⟩]) 2).2
      (by decide) 1 (by decide) (by decide +kernel) {0, 2} (by decide +kernel) (by decide)⟩

end Pittacus
