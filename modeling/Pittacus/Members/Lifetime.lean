import Pittacus.Members.Owned

/-!
The member set in memory behaves like the set it stands for, and gives back all of its memory.

This holds from its creation to its end, whatever is put and removed in between.
-/

namespace Pittacus.Stored

open Storage

/-! ### Calls -/

/-- A call that changes a set in memory. -/
inductive SetCall where
  | put (newMembers : List ClusterMember)
  | remove (member : Option Nat)
  | removeByAddr (addr : List UInt8)

/-- What a call answers, and the set it leaves behind; a removal answers one if it removed. -/
def SetCall.call : SetCall → MemberSet → Storage MemberBlock (Int × MemberSet)
  | .put newMembers, members => clusterMemberSetPut members newMembers
  | .remove member, members => do
    let removed ← clusterMemberSetRemove members member
    return (if removed.1 then 1 else 0, removed.2)
  | .removeByAddr addr, members => do
    let removed ← clusterMemberSetRemoveByAddr members addr
    return (if removed.1 then 1 else 0, removed.2)

/-- The answers to some calls, and the set they leave behind. -/
def SetCall.run : List SetCall → MemberSet → Storage MemberBlock (List Int × MemberSet)
  | [], members => return ([], members)
  | call :: rest, members => do
    let first ← call.call members
    let others ← SetCall.run rest first.2
    return (first.1 :: others.1, others.2)

/-- A set is made, if there is memory for it, and called. -/
def lifetime (calls : List SetCall) : Storage MemberBlock (Option (List Int × MemberSet)) := do
  match ← clusterMemberSetInit with
  | none => return none
  | some members => do
    let result ← SetCall.run calls members
    return some result

/-- No removal compares more bytes than each address that is put has. -/
def SetCall.Compares (least : Nat) : SetCall → Prop
  | .put newMembers => ∀ member ∈ newMembers, least ≤ member.address.length
  | .remove _ => True
  | .removeByAddr addr => addr.length ≤ least

instance (least : Nat) : DecidablePred (SetCall.Compares least)
  | .put newMembers =>
    inferInstanceAs (Decidable (∀ member ∈ newMembers, least ≤ member.address.length))
  | .remove _ => .isTrue trivial
  | .removeByAddr addr => inferInstanceAs (Decidable (addr.length ≤ least))

/--
A call in memory with its answer, as a call on a set of members.

A put that runs out of memory is one of some of the members, from the first one on.
-/
def SetCall.StandsFor (refuses : Nat → MemberBlock → Bool) :
    SetCall → Int → MemberSetCall → Prop
  | .put newMembers, answer, call => ∃ taken, taken <+: newMembers ∧ call = .put taken ∧
      (answer = errNone ∧ taken = newMembers ∨
        answer = PittacusError.allocationFailed.code ∧ Refuses refuses)
  | .remove _, _, call => ∃ held, call = .remove held
  | .removeByAddr addr, _, call => call = .removeByAddr (fun _ => 0)
      (Decoder.memoryOf addr fun _ => 0) addr.length

variable {refuses : Nat → MemberBlock → Bool} {memory : Blocks MemberBlock} {mayFail : Prop}
  {blocks others : List (Nat × MemberBlock)} {members : MemberSet} {held : List Held}

/-! ### Addresses -/

/-- Bytes that all lie in a block are compared with the ones it starts with. -/
theorem memcmpEqual_of_long {content bytes : List UInt8} (unset : Nat → UInt8)
    (long : bytes.length ≤ content.length) :
    memcmpEqual (Decoder.memoryOf content unset) (Decoder.memoryOf bytes unset) bytes.length =
      (content.take bytes.length == bytes) := by
  rw [Bool.eq_iff_iff, beq_iff_eq, memcmpEqual, List.all_eq_true]
  have width : (content.take bytes.length).length = bytes.length := by
    rw [List.length_take, Nat.min_eq_left long]
  constructor
  · intro equal
    refine List.ext_getElem width fun position here inside => ?_
    have same := equal position (List.mem_range.mpr inside)
    have there : position < content.length := by omega
    simpa [Decoder.memoryOf, there, inside] using same
  · intro same position below
    have inside := List.mem_range.mp below
    have there : position < content.length := by omega
    have taken : position < (content.take bytes.length).length := by omega
    have byte : (content.take bytes.length)[position] = bytes[position] := by
      simp only [same]
    simpa [Decoder.memoryOf, there, inside] using byte

/-- A member that may be removed by an address. -/
def Held.hasAddr (addr : List UInt8) (one : Held) : Bool :=
  memcmpEqual (Decoder.memoryOf one.member.address fun _ => 0) (Decoder.memoryOf addr fun _ => 0)
    addr.length

/-- The address of a member is missing, or shorter than the one it is compared with. -/
def Held.Lacks (addr : List UInt8) (one : Held) : Prop :=
  one.address = none ∨ one.member.address.length < addr.length

/-- The address of a member is compared with the given one, if it is there and long enough. -/
theorem hasAddr_spec {one : Held} (holds : memory.Holds blocks) (owned : one.blocks ⊆ blocks)
    (addr : List UInt8) :
    (hasAddr addr (some one.place)).Ensures refuses memory (one.Lacks addr) fun answer after =>
      answer = one.hasAddr addr ∧ after = memory := by
  refine (loadRecord_spec holds owned).bind ?_
  rintro _ _ ⟨rfl, rfl⟩
  refine (memcmp_spec holds owned addr).imp id ?_
  rintro answer after ⟨rfl, long, rfl⟩
  exact ⟨(memcmpEqual_of_long _ long).symm, rfl⟩

/-- The blocks of different members of a set are different. -/
theorem Lies.distinct {spare : List (Option Nat)} (lies : Lies memory members held spare others) :
    (held.map Held.place).Nodup := by
  have distinct := lies.holds.distinct
  rw [List.map_cons, List.map_append] at distinct
  refine List.Nodup.sublist ?_ (List.nodup_append.mp (List.nodup_cons.mp distinct).2).1
  clear lies distinct
  -- Each member contributes its own block first.
  induction held with
  | nil => exact List.Sublist.refl _
  | cons one rest ih =>
    rw [List.map_cons, List.flatMap_cons, List.map_append]
    exact (ih.trans (List.sublist_append_right _ _)).cons_cons one.place

/-- Removing what is found by its address is removing by that address. -/
theorem Owns.removeFound (owns : Owns memory members held others) (addr : List UInt8) :
    (do
        let found ← clusterMemberSetFindByAddr members addr
        clusterMemberSetRemove members found).Ensures refuses memory
      (∃ one ∈ held, one.Lacks addr)
      fun result after => result.1 = (held.findIdx? (Held.hasAddr addr)).isSome ∧
        Owns after result.2 ((held.findIdx? (Held.hasAddr addr)).elim held held.eraseIdx)
          others := by
  obtain ⟨-, spare, lies⟩ := id owns
  have searched : (Stored.firstSlot members.set (hasAddr addr) (List.range members.size)).Ensures
      refuses memory
      (∃ one ∈ held, one.Lacks addr) _ :=
    lies.firstSlot (Held.hasAddr addr) fun one member =>
      (hasAddr_spec lies.holds (blocks_subset member _ _) addr).imp
        (fun trouble => ⟨one, member, trouble⟩) fun _ _ same => same
  have removed (pointer : Option Nat) : (clusterMemberSetRemove members pointer).Ensures
      refuses memory
      (∃ one ∈ held, one.Lacks addr) _ :=
    owns.removeFirst (fun one => some one.place == pointer) fun one _ => ensures_pure ⟨rfl, rfl⟩
  cases found : held.findIdx? (Held.hasAddr addr) with
  | none =>
    have nobody : held.findIdx? (fun one => some one.place == none) = none :=
      List.findIdx?_eq_none_iff.mpr fun one _ => rfl
    have last := removed none
    rw [nobody] at last
    have missed : (clusterMemberSetFindByAddr members addr).Ensures refuses memory
        (∃ one ∈ held, one.Lacks addr)
        fun pointer after => pointer = none ∧ after = memory := by
      refine searched.bind ?_
      rintro _ _ ⟨rfl, rfl⟩
      rw [found]
      exact ensures_pure ⟨rfl, rfl⟩
    refine missed.bind ?_
    rintro _ _ ⟨rfl, rfl⟩
    exact last
  | some slot =>
    obtain ⟨inside, -⟩ := List.findIdx?_eq_some_iff_getElem.mp found
    -- No other member lies in the block that was found.
    have only : held.findIdx? (fun one => some one.place == some held[slot].place) = some slot := by
      refine List.findIdx?_eq_some_iff_getElem.mpr ⟨inside, by simp, fun earlier before same => ?_⟩
      have place : held[earlier].place = held[slot].place := by simpa using same
      have width : (held.map Held.place).length = held.length := List.length_map _
      have first : earlier < (held.map Held.place).length := by omega
      have second : slot < (held.map Held.place).length := by omega
      have places_ : (held.map Held.place)[earlier] = (held.map Held.place)[slot] := by
        simpa using place
      have index := (List.Nodup.getElem_inj_iff lies.distinct).mp places_
      omega
    have last := removed (some held[slot].place)
    rw [only] at last
    have met : (clusterMemberSetFindByAddr members addr).Ensures refuses memory
        (∃ one ∈ held, one.Lacks addr)
        fun pointer after => pointer = some held[slot].place ∧ after = memory := by
      refine searched.bind ?_
      rintro _ _ ⟨rfl, rfl⟩
      rw [found]
      refine loadSlot_spec lies.holds List.mem_cons_self ?_
      rw [places, List.getElem?_append_left (by rw [List.length_map]; exact inside)]
      simp [inside]
    refine met.bind ?_
    rintro _ _ ⟨rfl, rfl⟩
    exact last

/-! ### Sets of members -/

/-- A set of members consists of those that a set in memory holds. -/
structure Shows (set : ClusterMemberSet) (held : List Held) : Prop where
  ok : set.Ok
  filled : set.Filled
  live : set.live = held.map Held.member

/-- A new set shows that nothing is held. -/
theorem init_shows : Shows Pittacus.clusterMemberSetInit [] := ⟨clusterMemberSetInit_ok, rfl, rfl⟩

/-- A put adds the members one after the other to those that are known. -/
theorem put_enlist {set : ClusterMemberSet} (ok : set.Ok) (newMembers : List ClusterMember) :
    (Pittacus.clusterMemberSetPut set newMembers).live = newMembers.foldl enlist set.live := by
  obtain ⟨roomy, added, allocated, size, live, below⟩ := ok.put_eq newMembers
  have bound := reachesLoadFactor_false.mp below
  have room : roomy.size + newMembers.length ≤ roomy.set.length := by omega
  rw [added, ← live]
  clear added live below bound allocated size
  induction newMembers generalizing roomy with
  | nil => rfl
  | cons current rest ih =>
    rw [List.length_cons] at room
    obtain ⟨length, -, grown, -⟩ := foldl_clusterMemberSetAdd [current] roomy
      (by rw [List.length_singleton]; omega)
    have length : (Pittacus.clusterMemberSetAdd roomy current).set.length = roomy.set.length := length
    have grown : (Pittacus.clusterMemberSetAdd roomy current).size ≤ roomy.size + 1 := grown
    rw [List.foldl_cons, List.foldl_cons, ih _ (by omega),
      clusterMemberSetAdd_live current (by omega)]
    rfl

/-- A put that took in the first of the new members shows what is held afterwards. -/
theorem Shows.put {set : ClusterMemberSet} {heldAfter : List Held} {taken : List ClusterMember}
    (shows_ : Shows set held)
    (same : heldAfter.map Held.member = taken.foldl enlist (held.map Held.member)) :
    Shows (Pittacus.clusterMemberSetPut set taken) heldAfter where
  ok := (shows_.ok.put taken).1
  filled := (shows_.ok.put_live shows_.filled taken).1
  live := by rw [put_enlist shows_.ok, shows_.live, same]

/-- Closing the gap of a member shows that the others are held. -/
theorem Shows.shift {set : ClusterMemberSet} (shows_ : Shows set held) {slot : Nat}
    (inside : slot < held.length) :
    Shows (Pittacus.clusterMemberSetShift set slot) (held.eraseIdx slot) := by
  have size := shows_.filled.live_length shows_.ok
  rw [shows_.live, List.length_map] at size
  obtain ⟨filled, live⟩ := shows_.filled.shift shows_.ok (size ▸ inside)
  refine ⟨(shows_.ok.shift (size ▸ inside)).1, filled, ?_⟩
  rw [live, shows_.live, List.eraseIdx_map]

/-! ### One call -/

/-- Every member has its address, and no fewer bytes of it than are ever compared. -/
def Sound (least : Nat) (held : List Held) : Prop :=
  ∀ one ∈ held, one.address ≠ none ∧ least ≤ one.member.address.length

/-- A call went well on a set in memory and on the members it shows. -/
structure Went (refuses : Nat → MemberBlock → Bool) (others : List (Nat × MemberBlock)) (least : Nat)
    (set : ClusterMemberSet) (held : List Held) (call : SetCall) (result : Int × MemberSet)
    (after : Blocks MemberBlock) (heldAfter : List Held) (standsFor : MemberSetCall) : Prop where
  owns : Owns after result.2 heldAfter others
  shows_ : Shows (standsFor.call set).2 heldAfter
  sound : Lends refuses → Sound least held → call.Compares least → Sound least heldAfter
  stands : call.StandsFor refuses result.1 standsFor
  removed : (standsFor.call set).1 = (result.1 == 1)

/-- Whoever is known after some were added was known before, or is one of those. -/
theorem mem_enlisted {member : ClusterMember} {taken known : List ClusterMember}
    (listed : member ∈ taken.foldl enlist known) : member ∈ known ∨ member ∈ taken := by
  induction taken generalizing known with
  | nil => exact .inl listed
  | cons current rest ih =>
    rcases ih listed with old | new
    · unfold enlist at old
      split at old
      · exact .inl old
      · rcases List.mem_append.mp old with old | same
        · exact .inl old
        · exact .inr (List.mem_cons.mpr (.inl (List.mem_singleton.mp same)))
    · exact .inr (List.mem_cons_of_mem _ new)

/-- A put goes well, unless a member without an address is compared. -/
theorem put_goes (least : Nat) {set : ClusterMemberSet} (owns : Owns memory members held others)
    (shows_ : Shows set held) (newMembers : List ClusterMember) :
    ((SetCall.put newMembers).call members).Ensures refuses memory
      (¬(Lends refuses ∧ Sound least held ∧ (SetCall.put newMembers).Compares least))
      fun result after => ∃ heldAfter standsFor,
        Went refuses others least set held (.put newMembers) result after heldAfter standsFor := by
  refine (owns.put newMembers).imp ?_ ?_
  · rintro trouble ⟨lends, sound, -⟩
    exact trouble ⟨lends, fun one member => (sound one member).1⟩
  · rintro result after ⟨heldAfter, owned, full, ⟨taken, first, same, all⟩, answer⟩
    refine ⟨heldAfter, .put taken, owned, shows_.put same, ?_, ⟨taken, first, rfl, ?_⟩, ?_⟩
    · intro lends sound compares one member
      refine ⟨full lends (fun one member => (sound one member).1) one member, ?_⟩
      -- Whoever is held was held before, or is one of the new members.
      have listed : one.member ∈ taken.foldl enlist (held.map Held.member) :=
        same ▸ List.mem_map.mpr ⟨one, member, rfl⟩
      rcases mem_enlisted listed with old | new
      · obtain ⟨before, member_, same_⟩ := List.mem_map.mp old
        rw [← same_]
        exact (sound before member_).2
      · exact compares one.member (first.subset new)
    · exact answer.imp (fun none => ⟨none, all none⟩) id
    · rcases answer with none | ⟨failed, -⟩
      · rw [none]
        rfl
      · rw [failed]
        rfl

/-- A removal that finds its member by a test goes well. -/
theorem removal_goes {least : Nat} {set : ClusterMemberSet} (owns : Owns memory members held others)
    (shows_ : Shows set held) {call : SetCall} {passes : Option Nat → Storage MemberBlock Bool}
    (test : Held → Bool) (standsFor : MemberSetCall)
    (tested : ∀ one ∈ held, (passes (some one.place)).Ensures refuses memory mayFail
      fun answer after => answer = test one ∧ after = memory)
    (carried : standsFor.call set = (held.findIdx? test).elim (false, set) fun slot =>
      (true, Pittacus.clusterMemberSetShift set slot))
    (stands : ∀ answer, call.StandsFor refuses answer standsFor) :
    (do
        let removed ← removeFirst members passes
        return ((if removed.1 then 1 else 0 : Int), removed.2)).Ensures refuses memory mayFail
      fun result after => ∃ heldAfter standsFor,
        Went refuses others least set held call result after heldAfter standsFor := by
  refine (owns.removeFirst test tested).bind ?_
  rintro ⟨removed, left⟩ after ⟨found, owned⟩
  cases searched : held.findIdx? test with
  | none =>
    rw [searched] at found owned carried
    cases found
    refine ensures_pure ⟨held, standsFor, owned, ?_, fun _ sound _ => sound, stands _, ?_⟩
    · rw [carried]
      exact shows_
    · rw [carried]
      rfl
  | some slot =>
    obtain ⟨inside, -⟩ := List.findIdx?_eq_some_iff_getElem.mp searched
    rw [searched] at found owned carried
    cases found
    refine ensures_pure ⟨held.eraseIdx slot, standsFor, owned, ?_, ?_, stands _, ?_⟩
    · rw [carried]
      exact shows_.shift inside
    · exact fun _ sound _ one member => sound one (List.mem_of_mem_eraseIdx member)
    · rw [carried]
      rfl

/-- A removal by a pointer is one by the slot it is found in. -/
theorem remove_carried {set : ClusterMemberSet} (shows_ : Shows set held) (test : Held → Bool) :
    ∃ slots, Pittacus.clusterMemberSetRemove set slots =
      (held.findIdx? test).elim (false, set) fun slot =>
        (true, Pittacus.clusterMemberSetShift set slot) := by
  have size := shows_.filled.live_length shows_.ok
  rw [shows_.live, List.length_map] at size
  refine ⟨fun slot => held.findIdx? test == some slot, ?_⟩
  unfold Pittacus.clusterMemberSetRemove
  cases found : held.findIdx? test with
  | none =>
    have nowhere : (List.range set.size).find? (fun slot => none == some slot) = none :=
      List.find?_eq_none.mpr fun slot _ => by simp
    rw [nowhere]
    rfl
  | some slot =>
    obtain ⟨inside, -⟩ := List.findIdx?_eq_some_iff_getElem.mp found
    have there : (List.range set.size).find? (fun other => some slot == some other) = some slot := by
      refine List.find?_range_eq_some.mpr ⟨by simp, List.mem_range.mpr (size ▸ inside), ?_⟩
      intro earlier before
      simp
      omega
    rw [there]
    rfl

/-- Every call goes well, unless an address that is compared is missing or too short. -/
theorem call_goes (least : Nat) {set : ClusterMemberSet} (owns : Owns memory members held others)
    (shows_ : Shows set held) (call : SetCall) :
    (call.call members).Ensures refuses memory
      (¬(Lends refuses ∧ Sound least held ∧ call.Compares least)) fun result after =>
        ∃ heldAfter standsFor, Went refuses others least set held call result after heldAfter
          standsFor := by
  cases call with
  | put newMembers => exact put_goes least owns shows_ newMembers
  | remove member =>
    obtain ⟨slots, carried⟩ := remove_carried shows_ fun one => some one.place == member
    exact removal_goes owns shows_ (fun one => some one.place == member) (.remove slots)
      (fun one _ => ensures_pure ⟨rfl, rfl⟩) carried fun _ => ⟨slots, rfl⟩
  | removeByAddr addr =>
    obtain ⟨-, spare, lies⟩ := id owns
    refine removal_goes owns shows_ (Held.hasAddr addr)
      (.removeByAddr (fun _ => 0) (Decoder.memoryOf addr fun _ => 0) addr.length)
      (fun one member => ?_) ?_ fun _ => rfl
    · refine (hasAddr_spec lies.holds (blocks_subset member _ _) addr).imp ?_ fun _ _ same => same
      rintro trouble ⟨-, sound, short⟩
      have whole := sound one member
      have short : addr.length ≤ least := short
      rcases trouble with missing | shorter
      · exact whole.1 missing
      · omega
    · -- Both search the same members for the same address.
      have same : Pittacus.clusterMemberSetFindByAddr (fun _ => 0) set
          (Decoder.memoryOf addr fun _ => 0) addr.length = held.findIdx? (Held.hasAddr addr) := by
        rw [Pittacus.clusterMemberSetFindByAddr, shows_.live, List.findIdx?_map]
        rfl
      rw [MemberSetCall.call, Pittacus.clusterMemberSetRemoveByAddr, same]
      cases held.findIdx? (Held.hasAddr addr) <;> rfl

/-! ### Whole lives -/

/-- Each of some calls in memory, with its answer, is carried out as one on sets of members. -/
inductive CarriedOut (refuses : Nat → MemberBlock → Bool) :
    List SetCall → List Int → List MemberSetCall → Prop where
  | nil : CarriedOut refuses [] [] []
  | cons {call : SetCall} {answer : Int} {standsFor : MemberSetCall} {calls : List SetCall}
      {answers : List Int} {rest : List MemberSetCall} (stands : call.StandsFor refuses answer standsFor)
      (carried : CarriedOut refuses calls answers rest) :
      CarriedOut refuses (call :: calls) (answer :: answers) (standsFor :: rest)

/-- Some calls went well on a set in memory and on the members it shows. -/
structure Lived (refuses : Nat → MemberBlock → Bool) (others : List (Nat × MemberBlock))
    (set : ClusterMemberSet) (calls : List SetCall) (result : List Int × MemberSet)
    (after : Blocks MemberBlock) (held : List Held) (standsFor : List MemberSetCall) : Prop where
  owns : Owns after result.2 held others
  shows_ : Shows (Machine.run memberSetStep standsFor set) held
  carried : CarriedOut refuses calls result.1 standsFor
  removed : Machine.trace memberSetStep standsFor set = result.1.map (· == 1)

/-- Calls go well one after the other. -/
theorem run_goes (least : Nat) {set : ClusterMemberSet} (owns : Owns memory members held others)
    (shows_ : Shows set held) (calls : List SetCall) :
    (SetCall.run calls members).Ensures refuses memory
      (¬(Lends refuses ∧ Sound least held ∧ ∀ call ∈ calls, call.Compares least))
      fun result after => ∃ held standsFor, Lived refuses others set calls result after held
        standsFor := by
  induction calls generalizing memory members held set with
  | nil => exact ensures_pure ⟨held, [], owns, shows_, .nil, rfl⟩
  | cons call rest ih =>
    refine ((call_goes least owns shows_ call).imp ?_ fun _ _ went => went).bind ?_
    · rintro trouble ⟨lends, sound, compares⟩
      exact trouble ⟨lends, sound, compares call List.mem_cons_self⟩
    · rintro result after ⟨heldAfter, standsFor, went⟩
      refine ((ih went.owns went.shows_).imp ?_ fun _ _ lived => lived).bind ?_
      · rintro trouble ⟨lends, sound, compares⟩
        exact trouble ⟨lends, went.sound lends sound (compares call List.mem_cons_self),
          fun later member => compares later (List.mem_cons_of_mem _ member)⟩
      · rintro last final ⟨heldLast, standsForRest, lived⟩
        refine ensures_pure ⟨heldLast, standsFor :: standsForRest, lived.owns, lived.shows_,
          .cons went.stands lived.carried, ?_⟩
        show (standsFor.call set).1 :: _ = _
        rw [went.removed, List.map_cons, ← lived.removed]
        rfl

/-- A set that could be made lives well. -/
theorem lifetime_goes (least : Nat) (calls : List SetCall) (holds : memory.Holds others) :
    (lifetime calls).Ensures refuses memory
      (¬(Lends refuses ∧ ∀ call ∈ calls, call.Compares least)) fun made after =>
        match made with
        | none => Refuses refuses ∧ after.Holds others
        | some result => ∃ held standsFor, Lived refuses others Pittacus.clusterMemberSetInit calls
            result after held standsFor := by
  refine (clusterMemberSetInit_spec holds).bind ?_
  rintro (_ | members) after made
  · exact ensures_pure made
  · refine ((run_goes least made init_shows calls).imp ?_ fun _ _ lived => lived).bind
      fun result final lived => ensures_pure lived
    rintro trouble ⟨lends, compares⟩
    exact trouble ⟨lends, fun _ none => absurd none List.not_mem_nil, compares⟩

/--
However requests for memory are refused, a set owns its array, its members and their addresses.

It owns each of them once and nothing else, and gives all of it back when it is destroyed.
-/
theorem memberSet_owned (refuses : Nat → MemberBlock → Bool) (calls : List SetCall)
    {memory : Blocks MemberBlock} {others : List (Nat × MemberBlock)} (holds : memory.Holds others)
    (made : Option (List Int × MemberSet)) (after : Blocks MemberBlock)
    (ran : lifetime calls refuses memory = some (made, after)) :
    match made with
    | none => after.Holds others
    | some result => (∃ held, Owns after result.2 held others) ∧
        ∃ gone, clusterMemberSetDestroy result.2 refuses after = some ((), gone) ∧
          gone.Holds others := by
  have went := (lifetime_goes 0 calls holds).of_run ran
  cases made with
  | none => exact went.2
  | some result =>
    obtain ⟨held, standsFor, lived⟩ := went
    have destroyed : (clusterMemberSetDestroy result.2).Ensures refuses after False _ :=
      lived.owns.destroy
    obtain ⟨_, gone, released, kept⟩ := destroyed.exists id
    exact ⟨⟨held, lived.owns⟩, gone, released, kept⟩

/-- A set that runs out of memory for its second member, and loses the first one, keeps nothing. -/
theorem memberSet_owned_refused :
    let calls := [SetCall.put [⟨1, 7, [2, 0], by decide⟩, ⟨1, 8, [2, 1], by decide⟩],
      .removeByAddr [2, 0]]
    let refuses := fun (number : Nat) (_ : MemberBlock) => number == 3
    ∃ after gone, lifetime calls refuses Blocks.empty = some (some ([-2, 1], ⟨0, 0, 32⟩), after) ∧
      clusterMemberSetDestroy ⟨0, 0, 32⟩ refuses after = some ((), gone) ∧ gone.Holds [] := by
  intro calls refuses
  have ran : lifetime calls refuses Blocks.empty = some (some ([-2, 1], ⟨0, 0, 32⟩), _) := rfl
  obtain ⟨-, gone, released, kept⟩ := memberSet_owned refuses calls Blocks.empty_holds _ _ ran
  exact ⟨_, gone, ran, released, kept⟩

end Pittacus.Stored
