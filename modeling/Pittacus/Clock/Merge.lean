import Mathlib
import Pittacus.Clock.Calls

/-! Merging takes the pointwise maximum of two clocks that together have room for all originators. -/

namespace Pittacus

/-- The map that knows of a single record. -/
def VectorRecord.version (record : VectorRecord) (originator : UInt64) : WithBot Nat :=
  if originator = record.memberId then WithBot.some record.sequenceNumber.toNat else ⊥

/-- The originators two clocks mention. -/
def VectorClock.mentions (first second : VectorClock) : Finset UInt64 :=
  ((first.live ++ second.live).map VectorRecord.memberId).toFinset

/-- What the clock makes of a record when asked to merge it. -/
def VectorClock.mergeRecord (clock : VectorClock) (record : VectorRecord) : VectorClock :=
  (vectorClockCompareWithRecord clock record true).2

/-- A map lies above that of a single record once it does so at the record's originator. -/
theorem VectorRecord.version_le {record : VectorRecord} {versions : UInt64 → WithBot Nat} :
    record.version ≤ versions ↔ WithBot.some record.sequenceNumber.toNat ≤ versions record.memberId := by
  -- Elsewhere the map of a single record is at the bottom.
  constructor
  · intro below
    have here := below record.memberId
    rwa [version, if_pos rfl] at here
  · intro here originator
    rw [version]
    split
    · rename_i same
      rw [same]
      exact here
    · exact bot_le

/-- A clock reads as the pointwise maximum of its records. -/
theorem VectorClock.Readable.versions_eq {clock : VectorClock} (readable : clock.Readable) :
    clock.versions = clock.live.toFinset.sup VectorRecord.version := by
  apply le_antisymm
  · -- Whatever is held for an originator comes from one of the records.
    intro originator
    cases held : clock.latest originator with
    | none =>
      rw [versions_of_none held]
      exact bot_le
    | some number =>
      have member := List.mem_toFinset.mpr (mem_of_latest held)
      have below : VectorRecord.version ⟨number, originator⟩ ≤
          clock.live.toFinset.sup VectorRecord.version := Finset.le_sup member
      rw [versions_of_some held]
      exact VectorRecord.version_le.mp below
  · refine Finset.sup_le fun record member => VectorRecord.version_le.mpr ?_
    rw [versions_of_some (readable.latest_of_mem (List.mem_toFinset.mp member))]

/-! ### Records -/

/-- With room for its originator, setting a record pushes none out. -/
theorem VectorClock.Ok.setRecord_versions {clock : VectorClock} (ok : clock.Ok)
    {originators : Finset UInt64} (few : originators.card ≤ maxVectorSize)
    (among : ∀ used ∈ clock.live, used.memberId ∈ originators) {record : VectorRecord}
    (known : record.memberId ∈ originators) :
    (clock.setRecord record).versions =
      fun originator =>
        if originator = record.memberId then WithBot.some record.sequenceNumber.toNat
        else clock.versions originator := by
  -- The originators among the set do not fill the array, or the record is one of them.
  have kept : clock.forgets record.memberId = none := by
    apply SlotRing.evicted_eq_none
    exact fun absent => SlotRing.Ok.room ok few among known absent
  funext originator
  have latest := ok.latest_set record.memberId record.sequenceNumber originator
  rw [kept] at latest
  by_cases same : originator = record.memberId
  · rw [if_pos same] at latest ⊢
    exact versions_of_some latest
  · rw [if_neg same] at latest ⊢
    rw [if_neg (by simp)] at latest
    rw [VectorClock.versions, VectorClock.setRecord, latest, VectorClock.versions]

/-- With room for its originator, merging a record takes the maximum with it. -/
theorem VectorClock.Ok.mergeRecord_versions {clock : VectorClock} (ok : clock.Ok)
    {originators : Finset UInt64} (few : originators.card ≤ maxVectorSize)
    (among : ∀ used ∈ clock.live, used.memberId ∈ originators) {record : VectorRecord}
    (known : record.memberId ∈ originators) :
    (clock.mergeRecord record).versions = clock.versions ⊔ record.version := by
  have news : (vectorClockCompareWithRecord clock record true).1 = .before ↔
      clock.versions record.memberId < WithBot.some record.sequenceNumber.toNat := by
    rw [vectorClockCompareWithRecord_before]
    cases held : clock.latest record.memberId with
    | none => simp [versions_of_none held, WithBot.bot_lt_coe]
    | some number =>
      rw [versions_of_some held, WithBot.coe_lt_coe]
      simp [UInt32.lt_iff_toNat_lt]
  rw [VectorClock.mergeRecord, vectorClockCompareWithRecord_merge]
  by_cases before : (vectorClockCompareWithRecord clock record true).1 = .before
  · rw [if_pos before]
    have below := le_of_lt (news.mp before)
    refine (ok.setRecord_versions few among known).trans (funext fun originator => ?_)
    rw [Pi.sup_apply, VectorRecord.version]
    split
    · rename_i same
      rw [same, sup_eq_right.mpr below]
    · rw [sup_bot_eq]
  · -- What is not news lies below what is known.
    rw [if_neg before]
    have above := not_lt.mp (mt news.mpr before)
    exact (sup_eq_left.mpr (VectorRecord.version_le.mpr above)).symm

/-- Merging a record takes in no originator but that of the record. -/
theorem VectorClock.Ok.mergeRecord_among {clock : VectorClock} (ok : clock.Ok)
    {originators : Finset UInt64} (among : ∀ used ∈ clock.live, used.memberId ∈ originators)
    {record : VectorRecord} (known : record.memberId ∈ originators) :
    ∀ used ∈ (clock.mergeRecord record).live, used.memberId ∈ originators := by
  intro used member
  rw [VectorClock.mergeRecord, vectorClockCompareWithRecord_merge] at member
  -- Merging sets the record or leaves the clock as it was.
  split at member
  · rcases ok.mem_live_set member with rfl | old
    · exact known
    · exact among used old
  · exact among used member

theorem VectorClock.Ok.mergeRecord {clock : VectorClock} (ok : clock.Ok) (record : VectorRecord) :
    (clock.mergeRecord record).Ok :=
  ok.write (.merge record)

/-- Merging records one after the other takes the maximum with all of them. -/
theorem VectorClock.Ok.mergeRecords_versions {clock : VectorClock} (ok : clock.Ok)
    {originators : Finset UInt64} (few : originators.card ≤ maxVectorSize)
    (among : ∀ used ∈ clock.live, used.memberId ∈ originators) {records : List VectorRecord}
    (known : ∀ record ∈ records, record.memberId ∈ originators) :
    (records.foldl VectorClock.mergeRecord clock).versions =
      clock.versions ⊔ records.toFinset.sup VectorRecord.version := by
  -- The supremum over a list grows by one record at a time, as the merge does.
  induction records generalizing clock with
  | nil => simp
  | cons record rest ih =>
    obtain ⟨first, later⟩ := List.forall_mem_cons.mp known
    rw [List.foldl_cons, ih (ok.mergeRecord record) (ok.mergeRecord_among among first) later,
      ok.mergeRecord_versions few among first, List.toFinset_cons, Finset.sup_insert, sup_assoc]

/-! ### Clocks -/

/-- Raising a record takes the maximum with what the other clock holds for its originator. -/
theorem VectorRecord.raised_number (second : VectorClock) (record : VectorRecord) :
    WithBot.some (record.raised second).sequenceNumber.toNat =
      WithBot.some record.sequenceNumber.toNat ⊔ second.versions record.memberId := by
  unfold raised
  cases held : second.latest record.memberId with
  | none => rw [VectorClock.versions_of_none held, sup_bot_eq]
  | some number =>
    rw [VectorClock.versions_of_some held, ← WithBot.coe_max, WithBot.coe_inj]
    -- The words are compared as they are, the maximum is one of numbers.
    by_cases below : number > record.sequenceNumber
    · have order := UInt32.lt_iff_toNat_lt.mp below
      simp only [if_pos below]
      omega
    · have order := mt UInt32.lt_iff_toNat_lt.mpr below
      simp only [if_neg below]
      omega

/-- A raised clock has the originators it had, with the maximum of both numbers for each. -/
theorem raisedUpTo_versions {first : VectorClock} (second : VectorClock)
    (stored : first.size ≤ first.records.length) (originator : UInt64) :
    (first.raisedUpTo second first.size).versions originator =
      if first.latest originator = none then ⊥
      else first.versions originator ⊔ second.versions originator := by
  have latest : (first.raisedUpTo second first.size).latest originator =
      (first.ring.find VectorRecord.memberId originator).map
        fun record => (record.raised second).sequenceNumber := by
    have live : (first.raisedUpTo second first.size).ring.live =
        first.ring.live.map (·.raised second) := raisedUpTo_live first second stored
    rw [VectorClock.latest, SlotRing.find, live, List.find?_map, Option.map_map]
    -- Raising a record does not change whom it is from.
    simp only [Function.comp_def, VectorRecord.raised_memberId]
    rfl
  have own : first.latest originator =
      (first.ring.find VectorRecord.memberId originator).map VectorRecord.sequenceNumber := rfl
  cases found : first.ring.find VectorRecord.memberId originator with
  | none =>
    rw [found] at latest own
    rw [VectorClock.versions_of_none latest, own]
    rfl
  | some record =>
    rw [found, Option.map_some] at latest own
    obtain ⟨-, rfl⟩ := SlotRing.find_some found
    rw [VectorClock.versions_of_some latest, own, if_neg (Option.some_ne_none _),
      VectorClock.versions_of_some own, VectorRecord.raised_number]

/-- Inserting records of originators a clock lacks is merging them. -/
theorem setRecords_eq_mergeRecords {clock : VectorClock} {records : List VectorRecord}
    (ok : clock.Ok) (distinct : (records.map VectorRecord.memberId).Nodup)
    (lacking : ∀ record ∈ records, clock.latest record.memberId = none) :
    records.foldl VectorClock.setRecord clock = records.foldl VectorClock.mergeRecord clock := by
  induction records generalizing clock with
  | nil => rfl
  | cons record rest ih =>
    obtain ⟨first, later⟩ := List.forall_mem_cons.mp lacking
    rw [List.map_cons, List.nodup_cons] at distinct
    obtain ⟨fresh, distinct⟩ := distinct
    have same : clock.mergeRecord record = clock.setRecord record := by
      rw [VectorClock.mergeRecord, vectorClockCompareWithRecord_merge, if_pos]
      · rfl
      · rw [vectorClockCompareWithRecord_before, first]
        rintro held ⟨⟩
    rw [List.foldl_cons, List.foldl_cons, same]
    refine ih (ok.setRecord record) distinct fun other member => ?_
    -- The record just inserted is from someone else, and inserting it adds nobody else.
    have apart : other.memberId ≠ record.memberId := fun same =>
      fresh (List.mem_map.mpr ⟨other, member, same⟩)
    rw [VectorClock.setRecord, ok.latest_set, if_neg apart]
    split
    · rfl
    · exact later other member

/-- With room for the originators of both clocks, merging takes the maximum of their maps. -/
theorem vectorClockCompare_join {first second : VectorClock} (ok : first.Ok)
    (readable : second.Readable) (few : (first.mentions second).card ≤ maxVectorSize) :
    (vectorClockCompare first second true).2.versions = first.versions ⊔ second.versions := by
  have raised := ok.raisedUpTo second
  have numbers := raisedUpTo_versions second ok.readable.stored
  have among : ∀ used ∈ (first.raisedUpTo second first.size).live,
      used.memberId ∈ first.mentions second := by
    intro used member
    rw [raisedUpTo_live first second ok.readable.stored, List.mem_map] at member
    obtain ⟨record, own, rfl⟩ := member
    rw [VectorRecord.raised_memberId, VectorClock.mentions, List.mem_toFinset]
    exact List.mem_map_of_mem (List.mem_append_left _ own)
  have known : ∀ record ∈ second.live.filter fun record => first.latest record.memberId = none,
      record.memberId ∈ first.mentions second := by
    intro record member
    rw [VectorClock.mentions, List.mem_toFinset]
    exact List.mem_map_of_mem (List.mem_append_right _ (List.mem_of_mem_filter member))
  have lacking : ∀ record ∈ second.live.filter fun record => first.latest record.memberId = none,
      (first.raisedUpTo second first.size).latest record.memberId = none := by
    intro record member
    have missing := of_decide_eq_true (List.mem_filter.mp member).2
    have nothing := numbers record.memberId
    rw [if_pos missing] at nothing
    cases held : (first.raisedUpTo second first.size).latest record.memberId with
    | none => rfl
    | some number =>
      rw [VectorClock.versions_of_some held] at nothing
      cases nothing
  have distinct : ((second.live.filter fun record =>
      first.latest record.memberId = none).map VectorRecord.memberId).Nodup :=
    readable.distinct.sublist (List.filter_sublist.map _)
  rw [vectorClockCompare_merge ok.readable readable, setRecords_eq_mergeRecords raised distinct lacking,
    raised.mergeRecords_versions few among known]
  apply le_antisymm
  · refine sup_le (fun originator => ?_) (Finset.sup_le fun record member => ?_)
    · rw [numbers]
      split
      · exact bot_le
      · exact le_refl _
    · -- Each inserted record is one of the second clock.
      have own := List.mem_of_mem_filter (List.mem_toFinset.mp member)
      rw [VectorRecord.version_le, Pi.sup_apply,
        VectorClock.versions_of_some (readable.latest_of_mem own)]
      exact le_sup_right
  · refine sup_le (fun originator => ?_) ?_
    · rw [Pi.sup_apply, numbers]
      split
      · rename_i missing
        rw [VectorClock.versions_of_none missing]
        exact bot_le
      · exact le_sup_of_le_left le_sup_left
    · -- A record of the second clock was inserted, or the first clock was raised to it.
      rw [readable.versions_eq]
      refine Finset.sup_le fun record member => ?_
      have own := List.mem_toFinset.mp member
      by_cases missing : first.latest record.memberId = none
      · refine le_sup_of_le_right (Finset.le_sup ?_)
        exact List.mem_toFinset.mpr (List.mem_filter.mpr ⟨own, decide_eq_true missing⟩)
      · rw [VectorRecord.version_le, Pi.sup_apply, numbers, if_neg missing,
          ← VectorClock.versions_of_some (readable.latest_of_mem own)]
        exact le_sup_of_le_left le_sup_right

/-- Merging a clock whose map lies below changes nothing. -/
theorem vectorClockCompare_absorbs {first second : VectorClock} (readable : first.Readable)
    (readable_ : second.Readable) (below : second.versions ≤ first.versions) :
    (vectorClockCompare first second true).2 = first := by
  have nobody : (second.live.filter fun record => first.latest record.memberId = none) = [] := by
    rw [List.filter_eq_nil_iff]
    intro record member missing
    -- A record of the second clock is from someone the first clock knows.
    have bound := below record.memberId
    rw [VectorClock.versions_of_some (readable_.latest_of_mem member),
      VectorClock.versions_of_none (of_decide_eq_true missing)] at bound
    exact absurd (le_bot_iff.mp bound) WithBot.coe_ne_bot
  have same : ∀ record ∈ first.live, record.raised second = record := by
    intro record member
    have bound := below record.memberId
    unfold VectorRecord.raised
    cases held : second.latest record.memberId with
    | none => rfl
    | some number =>
      rw [VectorClock.versions_of_some held,
        VectorClock.versions_of_some (readable.latest_of_mem member), WithBot.coe_le_coe] at bound
      exact if_neg fun above => Nat.not_lt.mpr bound (UInt32.lt_iff_toNat_lt.mp above)
  have records : (first.raisedUpTo second first.size).records = first.records := by
    show first.live.map (·.raised second) ++ first.records.drop first.size = first.records
    rw [List.map_congr_left same, List.map_id', VectorClock.live, List.take_append_drop]
  rw [vectorClockCompare_merge readable readable_, nobody]
  show { first with records := (first.raisedUpTo second first.size).records } = first
  rw [records]

/-- Merging answers as comparing does. -/
theorem vectorClockCompare_fst {first second : VectorClock} (readable : first.Readable)
    (readable_ : second.Readable) (merge : Bool) :
    (vectorClockCompare first second merge).1 = (vectorClockCompare first second false).1 := by
  cases merge with
  | false => rfl
  | true => rw [vectorClockCompare_merge readable readable_]

/-- A clock with distinct originators is no longer than what it mentions allows. -/
theorem readable_of_mentions {first second : VectorClock}
    (stored : second.size ≤ second.records.length)
    (distinct : (second.live.map VectorRecord.memberId).Nodup)
    (few : (first.mentions second).card ≤ maxVectorSize) : second.Readable := by
  have length : second.live.length = second.size := by
    rw [VectorClock.live, List.length_take, Nat.min_eq_left stored]
  -- Distinct ids are as many as the slots, and all of them are mentioned.
  have counted := List.toFinset_card_of_nodup distinct
  have among : (second.live.map VectorRecord.memberId).toFinset ⊆ first.mentions second := by
    rw [VectorClock.mentions, List.map_append, List.toFinset_append]
    exact Finset.subset_union_right
  have bound := Finset.card_le_card among
  rw [counted, List.length_map, length] at bound
  exact ⟨Nat.le_trans bound few, stored, distinct⟩

/--
Merging is the join of clocks.

The first clock was built by any calls, and there is room for all originators of both.
-/
theorem vectorClockCompare_merges (calls : List ClockCall) {second : VectorClock}
    (stored : second.size ≤ second.records.length)
    (distinct : (second.live.map VectorRecord.memberId).Nodup)
    (few : ((Machine.run clockStep calls vectorClockInit).mentions second).card ≤ maxVectorSize) :
    let first := Machine.run clockStep calls vectorClockInit
    let merged := (vectorClockCompare first second true).2
    (vectorClockCompare first second true).1 = (vectorClockCompare first second false).1 ∧
    merged.versions = first.versions ⊔ second.versions ∧
    (∀ records : List VectorRecord, records.Perm second.live →
      (records.foldl VectorClock.mergeRecord first).versions = merged.versions) ∧
    (∀ merge, (vectorClockCompare merged second merge).1 = .equal ∨
      (vectorClockCompare merged second merge).1 = .after) ∧
    (vectorClockCompare merged second true).2 = merged := by
  intro first merged
  have ok : first.Ok := built_ok calls
  have ok_ : merged.Ok := ok.compare second true
  have readable := readable_of_mentions stored distinct few
  have joined : merged.versions = first.versions ⊔ second.versions :=
    vectorClockCompare_join ok readable few
  have below : second.versions ≤ merged.versions := by
    rw [joined]
    exact le_sup_right
  refine ⟨vectorClockCompare_fst ok.readable readable true, joined, ?_, ?_,
    vectorClockCompare_absorbs ok_.readable readable below⟩
  · -- The maximum of the records does not depend on their order.
    intro records order
    have among : ∀ used ∈ first.live, used.memberId ∈ first.mentions second := fun used member =>
      List.mem_toFinset.mpr (List.mem_map_of_mem (List.mem_append_left _ member))
    have known : ∀ record ∈ records, record.memberId ∈ first.mentions second :=
      fun record member => List.mem_toFinset.mpr
        (List.mem_map_of_mem (List.mem_append_right _ (order.mem_iff.mp member)))
    rw [ok.mergeRecords_versions few among known, List.toFinset_eq_of_perm _ _ order, joined,
      readable.versions_eq]
  · intro merge
    rw [vectorClockCompare_fst ok_.readable readable]
    -- The merged clock is not behind on anything.
    obtain ⟨ahead, behind, result, -, isBehind⟩ := vectorClockCompare_below ok_.readable readable
    rw [result, isBehind.mpr below]
    cases ahead
    · exact .inl rfl
    · exact .inr rfl

/-- Two clocks that conflict are merged into one that has everything of both. -/
theorem vectorClockCompare_merges_two :
    let calls : List ClockCall := [.write (.merge ⟨5, 1⟩), .write (.merge ⟨7, 2⟩)]
    let first := Machine.run clockStep calls vectorClockInit
    let second := clockOf [⟨3, 3⟩, ⟨6, 1⟩]
    (vectorClockCompare first second true).1 = .conflict ∧
      (vectorClockCompare first second true).2.versions = first.versions ⊔ second.versions :=
  ⟨by decide +kernel,
    (vectorClockCompare_merges [.write (.merge ⟨5, 1⟩), .write (.merge ⟨7, 2⟩)]
      (by decide +kernel) (by decide +kernel) (by decide +kernel)).2.1⟩

end Pittacus
