import Pittacus.Wire.RoundTrip

/-! Which datagrams the decoders accept although the rest of the code cannot use the outcome. -/

namespace Pittacus

open Decoder

/-! ### Byte counts as C integers -/

/-- A byte count that becomes negative in a C `int`. -/
def Negative (count : Nat) : Prop := 2 ^ 31 ≤ count % 2 ^ 32

instance (count : Nat) : Decidable (Negative count) := inferInstanceAs (Decidable (_ ≤ _))

/-- A negative count is taken for an error. -/
theorem narrow_of_negative {count : Nat} (negative : Negative count) :
    ∃ code, narrow count = .error code := by
  have wrapped : Words.toInt count < 0 := by
    unfold Negative at negative
    rw [Words.toInt, Int.bmod_neg _ _ (by omega)]
    omega
  exact ⟨Words.toInt count, if_pos wrapped⟩

/-- Any other count loses its high bits. -/
theorem narrow_of_not_negative {count : Nat} (kept : ¬Negative count) :
    narrow count = .ok (count % 2 ^ 32) := by
  have low : Words.toInt count = ((count % 2 ^ 32 : Nat) : Int) := by
    unfold Negative at kept
    rw [Words.toInt, Int.bmod_eq_emod_of_lt (by omega)]
    omega
  rw [narrow, low, if_neg (by omega), Int.toNat_natCast]

/-! ### Positions the decoders read -/

theorem within_uint16Decode {limit buffer : Nat} (fits : buffer + 2 ≤ limit)
    (memory : Nat → UInt8) : (uint16Decode buffer).Within limit memory :=
  (within_bind_of_ok rfl _).mpr ⟨within_bytesAt fits memory, within_pure _ _ _⟩

theorem within_uint32Decode {limit buffer : Nat} (fits : buffer + 4 ≤ limit)
    (memory : Nat → UInt8) : (uint32Decode buffer).Within limit memory :=
  (within_bind_of_ok rfl _).mpr ⟨within_bytesAt fits memory, within_pure _ _ _⟩

theorem within_decodedBytes {α : Type} (limit count : Nat) (value : α) (memory : Nat → UInt8) :
    (decodedBytes count value).Within limit memory := by
  unfold decodedBytes
  dsimp only
  split
  · exact within_fail _ _ _
  · exact within_pure _ _ _

/-- Only the fixed fields of a member are read. -/
theorem within_clusterMemberDecode {limit buffer : Nat} (fits : buffer + 10 ≤ limit)
    (bufferSize : Nat) (memory : Nat → UInt8) :
    (clusterMemberDecode buffer bufferSize).Within limit memory := by
  unfold clusterMemberDecode
  split
  · exact within_fail _ _ _
  · rw [within_bind_of_ok (uint16Decode_result memory buffer),
      within_bind_of_ok (uint32Decode_result memory (buffer + 2)),
      within_bind_of_ok (uint32Decode_result memory (buffer + 6))]
    exact ⟨within_uint16Decode (by omega) memory, within_uint32Decode (by omega) memory,
      within_uint32Decode (by omega) memory, within_decodedBytes _ _ _ _⟩

/-- A member that starts past the end is read there if the space left is believed to suffice. -/
theorem not_within_clusterMemberDecode {limit buffer bufferSize : Nat} (past : limit ≤ buffer)
    (believed : 10 ≤ bufferSize) (memory : Nat → UInt8) :
    ¬(clusterMemberDecode buffer bufferSize).Within limit memory := by
  intro within
  rw [clusterMemberDecode, if_neg (by omega),
    within_bind_of_ok (uint16Decode_result memory buffer)] at within
  -- The first byte of the version is already past the end.
  have first : buffer ∈ (uint16Decode buffer).reads memory := by
    rw [uint16Decode, reads_bind_of_ok rfl]
    exact List.mem_append_left _ (List.mem_range'_1.mpr ⟨Nat.le_refl _, by omega⟩)
  exact absurd (within.1 buffer first) (Nat.not_lt.mpr past)

theorem within_messageHeaderDecode {limit : Nat} (long : messageHeaderSize ≤ limit)
    (memory : Nat → UInt8) : (messageHeaderDecode limit).Within limit memory := by
  have twelve : 12 ≤ limit := long
  rw [messageHeaderDecode, if_neg (Nat.not_lt.mpr long), within_bind_of_ok (result_bytesAt _ _ _),
    within_bind_of_ok (result_bytesAt _ _ _), within_bind_of_ok (uint16Decode_result memory 6),
    within_bind_of_ok (uint32Decode_result memory 8)]
  refine ⟨within_bytesAt ?_ memory, within_bytesAt ?_ memory, within_uint16Decode (by omega) memory,
    within_uint32Decode (by omega) memory, within_pure _ _ _⟩
  · simp only [protocolIdLength]
    omega
  · simp only [protocolIdLength]
    omega

/-- The checks at the start stay inside; what is decoded after them has to on its own. -/
theorem within_returnIfInvalidPayload {α : Type} (limit : Nat) (type : UInt8)
    (decode : Decoder Int α) (memory : Nat → UInt8) :
    (returnIfInvalidPayload limit type decode).Within limit memory ↔
      (Announces memory limit type → decode.Within limit memory) := by
  unfold returnIfInvalidPayload
  by_cases short : limit < messageHeaderSize
  · rw [if_pos short]
    have silent : ¬Announces memory limit type :=
      fun announced => absurd announced.1 (Nat.not_le.mpr short)
    exact ⟨fun _ announced => absurd announced silent, fun _ => within_fail _ _ _⟩
  · have long : 12 ≤ limit := Nat.not_lt.mp short
    have typed : (messageTypeDecode limit).result memory = .ok (memory 5) := by
      rw [messageTypeDecode_result, if_neg short]
    -- The checks read six bytes of the header, which a long enough datagram has.
    have readType : (messageTypeDecode limit).Within limit memory := by
      rw [messageTypeDecode, if_neg short, within_bind_of_ok (result_bytesAt _ _ _)]
      exact ⟨within_bytesAt (by simp only [protocolIdLength]; omega) memory, within_pure _ _ _⟩
    have readId : (bytesAt 0 protocolIdLength : Decoder Int _).Within limit memory :=
      within_bytesAt (by simp only [protocolIdLength]; omega) memory
    rw [if_neg short, within_bind_of_ok typed]
    by_cases other : memory 5 ≠ type
    · rw [if_pos other]
      exact ⟨fun _ announced => absurd announced.2.1 other,
        fun _ => ⟨readType, within_fail _ _ _⟩⟩
    · rw [if_neg other, within_bind_of_ok (result_bytesAt _ _ _)]
      by_cases foreign : slice memory 0 protocolIdLength ≠ protocolId
      · rw [if_pos foreign]
        exact ⟨fun _ announced => absurd announced.2.2 foreign,
          fun _ => ⟨readType, readId, within_fail _ _ _⟩⟩
      · rw [if_neg foreign]
        exact ⟨fun inside _ => inside.2.2,
          fun inside => ⟨readType, readId, inside ⟨long, not_not.mp other, not_not.mp foreign⟩⟩⟩

/-! ### Members -/

/--
A decoder that carries members out of a datagram of the given length stays inside it.

The count it returns is positive and within the datagram, and so is every address.
It looks at no position past the end, whether it accepts or not.
-/
def StaysInside {α : Type} (decoder : Decoder Int (Nat × α)) (carried : α → List ClusterMemberRef)
    (length : Nat) (memory : Nat → UInt8) : Prop :=
  (∀ count message, decoder.result memory = .ok (count, message) →
    0 < count ∧ count ≤ length ∧
      ∀ member ∈ carried message, member.address + member.addressLen.toNat ≤ length) ∧
  decoder.Within length memory

/-- The bytes the member at a position claims to take, its address included. -/
def claimedBytes (memory : Nat → UInt8) (cursor : Nat) : Nat :=
  10 + (memberAt memory cursor).addressLen.toNat

/-- The last member ends inside the datagram, unless a count it leads to is negative. -/
def LastContained (memory : Nat → UInt8) (length cursor : Nat) : Prop :=
  cursor + claimedBytes memory cursor ≤ length ∨ Negative (claimedBytes memory cursor) ∨
    Negative (cursor + claimedBytes memory cursor % 2 ^ 32)

instance (memory : Nat → UInt8) (length cursor : Nat) :
    Decidable (LastContained memory length cursor) :=
  inferInstanceAs (Decidable (_ ∨ _ ∨ _))

/--
The remaining members of a list are contained, the ones before them being inside or not.

None starts past the end.
The walk is cut short by less than a member's fixed fields, or by a negative count.
Otherwise all of them end inside, and the bytes in total do not come out as zero.
-/
def MembersContained (memory : Nat → UInt8) (length : Nat) : Nat → Nat → Prop → Prop
  | 0, cursor, inside => Negative cursor ∨ (inside ∧ 0 < cursor % 2 ^ 32)
  | count + 1, cursor, inside =>
    cursor ≤ length ∧ (length < cursor + 10 ∨ Negative (claimedBytes memory cursor) ∨
      MembersContained memory length count (cursor + claimedBytes memory cursor % 2 ^ 32)
        (inside ∧ cursor + claimedBytes memory cursor ≤ length))

instance decidableMembersContained (memory : Nat → UInt8) (length : Nat) :
    ∀ (count cursor : Nat) (inside : Prop) [Decidable inside],
      Decidable (MembersContained memory length count cursor inside)
  | 0, cursor, _, _ => inferInstanceAs (Decidable (Negative cursor ∨ _ ∧ _))
  | count + 1, cursor, inside, _ =>
    let further := decidableMembersContained memory length count
      (cursor + claimedBytes memory cursor % 2 ^ 32)
      (inside ∧ cursor + claimedBytes memory cursor ≤ length)
    let cut := @instDecidableOr _ _ (inferInstanceAs (Decidable (Negative _))) further
    let ended := @instDecidableOr _ _ (inferInstanceAs (Decidable (length < cursor + 10))) cut
    @instDecidableAnd _ _ (inferInstanceAs (Decidable (cursor ≤ length))) ended

/-- A member behind other fields keeps a decoder inside exactly when it is contained. -/
theorem lastContained_iff {α : Type} {memory : Nat → UInt8} {length cursor : Nat}
    (positive : 0 < cursor) (low : cursor < 2 ^ 31) (message : α)
    (carried : α → List ClusterMemberRef) (carries : carried message = [memberAt memory cursor]) :
    (∀ count found, ((narrow (claimedBytes memory cursor)).bind fun memberBytes =>
        (narrow (cursor + memberBytes)).map fun bytes => (bytes, message)) = .ok (count, found) →
      0 < count ∧ count ≤ length ∧
        ∀ member ∈ carried found, member.address + member.addressLen.toNat ≤ length) ↔
      LastContained memory length cursor := by
  have address : (memberAt memory cursor).address + (memberAt memory cursor).addressLen.toNat
      = cursor + claimedBytes memory cursor := Nat.add_assoc cursor 10 _
  unfold LastContained
  -- A size that is negative as an `int` is taken for an error, and nothing is accepted.
  by_cases negative : Negative (claimedBytes memory cursor)
  · obtain ⟨code, failed⟩ := narrow_of_negative negative
    rw [failed]
    exact ⟨fun _ => .inr (.inl negative), fun _ _ _ accepted => by cases accepted⟩
  · rw [narrow_of_not_negative negative, ok_bind]
    by_cases total : Negative (cursor + claimedBytes memory cursor % 2 ^ 32)
    · obtain ⟨code, failed⟩ := narrow_of_negative total
      rw [failed]
      exact ⟨fun _ => .inr (.inr total), fun _ _ _ accepted => by cases accepted⟩
    · rw [narrow_of_not_negative total]
      unfold Negative at negative
      have whole : (cursor + claimedBytes memory cursor % 2 ^ 32) % 2 ^ 32
          = cursor + claimedBytes memory cursor % 2 ^ 32 := Nat.mod_eq_of_lt (by omega)
      rw [whole]
      constructor
      · intro inside
        have here := (inside _ _ rfl).2.2
        rw [carries, List.forall_mem_singleton, address] at here
        exact .inl here
      · intro contained count found accepted
        cases accepted
        rcases contained with contained | contained | contained
        · have less := Nat.mod_le (claimedBytes memory cursor) (2 ^ 32)
          rw [carries, List.forall_mem_singleton, address]
          exact ⟨by omega, by omega, contained⟩
        · exact absurd contained negative
        · exact absurd contained total

/-- The rest of a list keeps its decoder inside, and what is accepted as well. -/
def ListStaysInside (memory : Nat → UInt8) (length count cursor : Nat) (inside : Prop) : Prop :=
  (∀ stop refs, (clusterMembersDecode length cursor count).result memory = .ok (stop, refs) →
      ¬Negative stop → inside ∧ (0 < stop % 2 ^ 32 ∧ stop % 2 ^ 32 ≤ length) ∧
        ∀ member ∈ refs.1, member.address + member.addressLen.toNat ≤ length) ∧
    (clusterMembersDecode length cursor count).Within length memory

section Lists

variable {memory : Nat → UInt8} {length count cursor : Nat} {inside : Prop}

/-- Behind the last member nothing is read, and its end is what counts. -/
theorem listStaysInside_zero (reached : inside → cursor ≤ length) :
    ListStaysInside memory length 0 cursor inside ↔
      Negative cursor ∨ (inside ∧ 0 < cursor % 2 ^ 32) := by
  rw [ListStaysInside, clusterMembersDecode]
  -- The end is reported as an `int`, which is refused when it is negative.
  constructor
  · rintro ⟨accepted, -⟩
    by_cases negative : Negative cursor
    · exact .inl negative
    · obtain ⟨within, positive, -⟩ := accepted cursor ⟨[], rfl⟩ rfl negative
      exact .inr ⟨within, positive.1⟩
  · intro contained
    refine ⟨fun stop refs accepted kept => ?_, within_pure _ _ _⟩
    cases accepted
    rcases contained with negative | ⟨within, positive⟩
    · exact absurd negative kept
    · have below := Nat.le_trans (Nat.mod_le cursor (2 ^ 32)) (reached within)
      exact ⟨within, ⟨positive, below⟩, fun member inside => absurd inside List.not_mem_nil⟩

/-- The space left behind the end wraps around, and a member is read there all the same. -/
theorem not_listStaysInside_past (near : cursor ≤ length + 2 ^ 31) (past : length < cursor) :
    ¬ListStaysInside memory length (count + 1) cursor inside := by
  have believed : 10 ≤ Words.toSize ((length : Int) - cursor) := by
    rw [Words.toSize, if_pos (by omega)]
    omega
  have outside := not_within_clusterMemberDecode (Nat.le_of_lt past) believed memory
  rw [ListStaysInside, clusterMembersDecode]
  exact fun stays => absurd (within_of_bind stays.2) outside

/-- A member that is refused ends the walk where it is. -/
theorem listStaysInside_refused {code : Int}
    (failed : (clusterMemberDecode cursor (Words.toSize ((length : Int) - cursor))).result memory
      = .error code)
    (silent : (clusterMemberDecode cursor (Words.toSize ((length : Int) - cursor))).Within length
      memory) : ListStaysInside memory length (count + 1) cursor inside := by
  rw [ListStaysInside, clusterMembersDecode, result_bind_of_error failed,
    within_bind_of_error failed]
  refine ⟨fun stop refs accepted => ?_, silent⟩
  cases accepted

/-- A member that is read has to end inside, and so have those behind it. -/
theorem listStaysInside_succ (room : cursor + 10 ≤ length)
    (counted : ¬Negative (claimedBytes memory cursor)) :
    ListStaysInside memory length (count + 1) cursor inside ↔
      ListStaysInside memory length count (cursor + claimedBytes memory cursor % 2 ^ 32)
        (inside ∧ cursor + claimedBytes memory cursor ≤ length) := by
  have left : Words.toSize ((length : Int) - cursor) = length - cursor :=
    Words.toSize_sub (by omega)
  have read : (clusterMemberDecode cursor (length - cursor)).result memory =
      .ok (claimedBytes memory cursor % 2 ^ 32, memberAt memory cursor) := by
    rw [clusterMemberDecode_narrow memory (by omega : 10 ≤ length - cursor)]
    exact congrArg (Except.map fun bytes => (bytes, memberAt memory cursor))
      (narrow_of_not_negative counted)
  have looked : (clusterMemberDecode cursor (length - cursor)).Within length memory :=
    within_clusterMemberDecode (by omega) _ memory
  have address : (memberAt memory cursor).address + (memberAt memory cursor).addressLen.toNat
      = cursor + claimedBytes memory cursor := Nat.add_assoc cursor 10 _
  rw [ListStaysInside, ListStaysInside, clusterMembersDecode, left, result_bind_of_ok read,
    within_bind_of_ok read, and_iff_right looked]
  dsimp only
  cases later : (clusterMembersDecode length
      (cursor + claimedBytes memory cursor % 2 ^ 32) count).result memory with
  | error code =>
    rw [result_bind_of_error later, within_bind_of_error later]
    refine and_congr_left fun _ => ⟨fun _ => ?_, fun _ => ?_⟩
    · intro stop refs accepted
      cases accepted
    · intro stop refs accepted
      cases accepted
  | ok found =>
    obtain ⟨last, rest⟩ := found
    rw [result_bind_of_ok later, within_bind_of_ok later, and_iff_left (within_pure _ _ _)]
    -- The member at hand moves from the list that is read to the condition on what lies before.
    refine and_congr_left fun _ => ⟨fun stays => ?_, fun stays => ?_⟩
    · intro stop refs accepted kept
      cases accepted
      obtain ⟨before, positive, members⟩ := stays _ _ rfl kept
      have here := members _ List.mem_cons_self
      rw [address] at here
      exact ⟨⟨before, here⟩, positive,
        fun member member_ => members member (List.mem_cons_of_mem _ member_)⟩
    · intro stop refs accepted kept
      cases accepted
      obtain ⟨⟨before, here⟩, positive, members⟩ := stays _ _ rfl kept
      refine ⟨before, positive, List.forall_mem_cons.mpr ⟨?_, members⟩⟩
      rw [address]
      exact here

end Lists

/-- A list of members keeps its decoder inside exactly when the members are contained. -/
theorem membersContained_iff {memory : Nat → UInt8} {length : Nat} (count cursor : Nat)
    (inside : Prop) (near : cursor ≤ length + 2 ^ 31) (reached : inside → cursor ≤ length) :
    ListStaysInside memory length count cursor inside ↔
      MembersContained memory length count cursor inside := by
  induction count generalizing cursor inside with
  | zero => exact listStaysInside_zero reached
  | succ count ih =>
    rw [MembersContained]
    by_cases past : length < cursor
    · exact iff_of_false (not_listStaysInside_past near past)
        fun contained => absurd contained.1 (Nat.not_le.mpr past)
    have started : cursor ≤ length := Nat.not_lt.mp past
    have left : Words.toSize ((length : Int) - cursor) = length - cursor :=
      Words.toSize_sub started
    by_cases short : length < cursor + 10
    · -- Not even the fixed fields are left.
      have failed : (clusterMemberDecode cursor (Words.toSize ((length : Int) - cursor))).result
          memory = .error PittacusError.bufferNotEnough.code := by
        rw [left, clusterMemberDecode_result, if_pos (by omega)]
      refine iff_of_true (listStaysInside_refused failed ?_) ⟨started, .inl short⟩
      rw [left, clusterMemberDecode, if_pos (by omega)]
      exact within_fail _ _ _
    have room : 10 ≤ length - cursor := by omega
    by_cases negative : Negative (claimedBytes memory cursor)
    · -- The count comes back as an error.
      obtain ⟨code, narrowed⟩ := narrow_of_negative negative
      have failed : (clusterMemberDecode cursor (Words.toSize ((length : Int) - cursor))).result
          memory = .error code := by
        rw [left, clusterMemberDecode_narrow memory room]
        exact congrArg (Except.map fun bytes => (bytes, memberAt memory cursor)) narrowed
      refine iff_of_true (listStaysInside_refused failed ?_) ⟨started, .inr (.inl negative)⟩
      rw [left]
      exact within_clusterMemberDecode (by omega) _ memory
    · have step : claimedBytes memory cursor % 2 ^ 32 < 2 ^ 31 := Nat.not_le.mp negative
      have less := Nat.mod_le (claimedBytes memory cursor) (2 ^ 32)
      rw [listStaysInside_succ (Nat.not_lt.mp short) negative, and_iff_right started,
        or_iff_right short, or_iff_right negative]
      exact ih _ _ (by omega) fun within => by omega

/-- A hello that is decoded at all is one whose member is contained. -/
def HelloContained (memory : Nat → UInt8) (length : Nat) : Prop :=
  Announces memory length messageHelloType → 28 ≤ length → LastContained memory length 12

/-- A welcome that is decoded at all is one whose member is contained. -/
def WelcomeContained (memory : Nat → UInt8) (length : Nat) : Prop :=
  Announces memory length messageWelcomeType → 32 ≤ length → LastContained memory length 16

/-- A member list that is decoded at all is one whose members are contained. -/
def MemberListContained (memory : Nat → UInt8) (length : Nat) : Prop :=
  Announces memory length messageMemberListType → 14 ≤ length →
    MembersContained memory length (uint16At memory 12).toNat 14 True

/-- A hello is never read past the end of its datagram. -/
theorem within_messageHelloDecode (memory : Nat → UInt8) (length : Nat) :
    (messageHelloDecode length).Within length memory := by
  rw [messageHelloDecode, within_returnIfInvalidPayload]
  intro announced
  by_cases short : length < messageHeaderSize + clusterMemberStructSize - pointerSize
  · rw [if_pos short]
    exact within_fail _ _ _
  · have long : 28 ≤ length := Nat.not_lt.mp short
    -- The member's fixed fields are all that is read of it.
    have member : (clusterMemberDecode messageHeaderSize (length - messageHeaderSize)).Within
        length memory := within_clusterMemberDecode (by simp only [messageHeaderSize]; omega) _ memory
    rw [if_neg short, within_bind_of_ok (headerDecode_result memory announced.1)]
    refine ⟨within_messageHeaderDecode announced.1 memory, ?_⟩
    cases read : (clusterMemberDecode messageHeaderSize (length - messageHeaderSize)).result
        memory with
    | error code => exact (within_bind_of_error read _).mpr member
    | ok found => exact (within_bind_of_ok read _).mpr ⟨member, within_decodedBytes _ _ _ _⟩

/-- A welcome is never read past the end of its datagram. -/
theorem within_messageWelcomeDecode (memory : Nat → UInt8) (length : Nat) :
    (messageWelcomeDecode length).Within length memory := by
  rw [messageWelcomeDecode, within_returnIfInvalidPayload]
  intro announced
  by_cases short : length < messageHeaderSize + 4 + clusterMemberStructSize - pointerSize
  · rw [if_pos short]
    exact within_fail _ _ _
  · have long : 32 ≤ length := Nat.not_lt.mp short
    -- The member stands behind the number, and its fixed fields are all that is read of it.
    have member : (clusterMemberDecode 16 (Words.toSize ((length : Int) - (16 : Nat)))).Within
        length memory := within_clusterMemberDecode (by omega) _ memory
    rw [if_neg short, within_bind_of_ok (headerDecode_result memory announced.1),
      within_bind_of_ok (uint32Decode_result memory 12)]
    refine ⟨within_messageHeaderDecode announced.1 memory,
      within_uint32Decode (by omega) memory, ?_⟩
    cases read : (clusterMemberDecode 16 (Words.toSize ((length : Int) - (16 : Nat)))).result
        memory with
    | error code => exact (within_bind_of_error read _).mpr member
    | ok found => exact (within_bind_of_ok read _).mpr ⟨member, within_decodedBytes _ _ _ _⟩

/-- The hello decoder stays inside exactly when the member is contained. -/
theorem helloContained_iff (memory : Nat → UInt8) (length : Nat) :
    StaysInside (messageHelloDecode length) (fun msg => [msg.thisMember]) length memory ↔
      HelloContained memory length := by
  rw [StaysInside, and_iff_left (within_messageHelloDecode memory length), HelloContained,
    messageHelloDecode_result]
  by_cases announced : Announces memory length messageHelloType
  · rw [if_neg (not_not.mpr announced), forall_prop_of_true announced]
    by_cases short : length < 28
    · rw [if_pos short]
      exact ⟨fun _ long => absurd short (Nat.not_lt.mpr long), fun _ _ _ accepted => by cases accepted⟩
    · rw [if_neg short, forall_prop_of_true (Nat.not_lt.mp short)]
      -- Only the end of the member is left to look at.
      have start : 0 < 12 ∧ 12 < 2 ^ 31 := by decide
      exact lastContained_iff start.1 start.2 (⟨headerAt memory, memberAt memory 12⟩ :
        MessageHello ClusterMemberRef) (fun msg => [msg.thisMember]) rfl
  · rw [if_pos announced]
    exact ⟨fun _ announced_ => absurd announced_ announced, fun _ _ _ accepted => by cases accepted⟩

/-- The welcome decoder stays inside exactly when the member is contained. -/
theorem welcomeContained_iff (memory : Nat → UInt8) (length : Nat) :
    StaysInside (messageWelcomeDecode length) (fun msg => [msg.thisMember]) length memory ↔
      WelcomeContained memory length := by
  rw [StaysInside, and_iff_left (within_messageWelcomeDecode memory length), WelcomeContained,
    messageWelcomeDecode_result]
  by_cases announced : Announces memory length messageWelcomeType
  · rw [if_neg (not_not.mpr announced), forall_prop_of_true announced]
    by_cases short : length < 32
    · rw [if_pos short]
      exact ⟨fun _ long => absurd short (Nat.not_lt.mpr long), fun _ _ _ accepted => by cases accepted⟩
    · rw [if_neg short, forall_prop_of_true (Nat.not_lt.mp short)]
      -- The member is the last field, behind the header and the number.
      have start : 0 < 16 ∧ 16 < 2 ^ 31 := by decide
      exact lastContained_iff start.1 start.2
        (⟨headerAt memory, uint32At memory 12, memberAt memory 16⟩ :
          MessageWelcome ClusterMemberRef) (fun msg => [msg.thisMember]) rfl
  · rw [if_pos announced]
    exact ⟨fun _ announced_ => absurd announced_ announced, fun _ _ _ accepted => by cases accepted⟩

/-- The decoder of member lists stays inside exactly when the members are contained. -/
theorem memberListContained_iff (memory : Nat → UInt8) (length : Nat) :
    StaysInside (messageMemberListDecode length) (fun msg => msg.members) length memory ↔
      MemberListContained memory length := by
  -- Only the members are read past the fixed part of the message.
  have looks : (messageMemberListDecode length).Within length memory ↔
      (Announces memory length messageMemberListType → 14 ≤ length →
        (clusterMembersDecode length 14 (uint16At memory 12).toNat).Within length memory) := by
    rw [messageMemberListDecode, within_returnIfInvalidPayload]
    refine forall_congr' fun announced => ?_
    by_cases short : length < messageHeaderSize + 2
    · rw [if_pos short]
      exact ⟨fun _ long => absurd short (Nat.not_lt.mpr long), fun _ => within_fail _ _ _⟩
    · have long : 14 ≤ length := Nat.not_lt.mp short
      rw [if_neg short, forall_prop_of_true long,
        within_bind_of_ok (headerDecode_result memory announced.1),
        and_iff_right (within_messageHeaderDecode announced.1 memory),
        within_bind_of_ok (uint16Decode_result memory 12),
        and_iff_right (within_uint16Decode (by omega) memory)]
      cases read : (clusterMembersDecode length 14 (uint16At memory 12).toNat).result memory with
      | error code => exact within_bind_of_error read _
      | ok found => exact (within_bind_of_ok read _).trans (and_iff_left (within_decodedBytes _ _ _ _))
  rw [StaysInside, looks, MemberListContained, messageMemberListDecode_result]
  by_cases announced : Announces memory length messageMemberListType
  · rw [if_neg (not_not.mpr announced), forall_prop_of_true announced,
      forall_prop_of_true announced]
    by_cases short : length < 14
    · rw [if_pos short]
      exact ⟨fun _ long => absurd short (Nat.not_lt.mpr long),
        fun _ => ⟨fun _ _ accepted => (by cases accepted),
          fun long => absurd short (Nat.not_lt.mpr long)⟩⟩
    · have long := Nat.not_lt.mp short
      rw [if_neg short, forall_prop_of_true long, forall_prop_of_true long,
        ← membersContained_iff (uint16At memory 12).toNat 14 True (by omega) (fun _ => long)]
      refine and_congr_left fun _ => ⟨fun stays => ?_, fun stays => ?_⟩
      · intro stop refs read kept
        rw [read, ok_bind, narrow_of_not_negative kept] at stays
        obtain ⟨positive, below, members⟩ := stays _ _ rfl
        exact ⟨trivial, ⟨positive, below⟩, members⟩
      · intro count message accepted
        obtain ⟨⟨stop, refs⟩, read, rest⟩ := bind_eq_ok accepted
        by_cases negative : Negative stop
        · obtain ⟨code, failed⟩ := narrow_of_negative negative
          rw [failed] at rest
          cases rest
        · rw [narrow_of_not_negative negative] at rest
          cases rest
          obtain ⟨-, bounds, members⟩ := stays stop refs read negative
          exact ⟨bounds.1, bounds.2, members⟩
  · rw [if_pos announced]
    exact ⟨fun _ announced_ => absurd announced_ announced,
      fun _ => ⟨fun _ _ accepted => (by cases accepted),
        fun announced_ => absurd announced_ announced⟩⟩

/-- The decoders that carry members stay inside a datagram exactly when its members do. -/
theorem membersStayInside_iff (bytes : List UInt8) (beyond : Nat → UInt8) :
    (StaysInside (messageHelloDecode bytes.length) (fun msg => [msg.thisMember]) bytes.length
        (memoryOf bytes beyond) ↔ HelloContained (memoryOf bytes beyond) bytes.length) ∧
    (StaysInside (messageWelcomeDecode bytes.length) (fun msg => [msg.thisMember]) bytes.length
        (memoryOf bytes beyond) ↔ WelcomeContained (memoryOf bytes beyond) bytes.length) ∧
    (StaysInside (messageMemberListDecode bytes.length) (fun msg => msg.members) bytes.length
        (memoryOf bytes beyond) ↔ MemberListContained (memoryOf bytes beyond) bytes.length) :=
  ⟨helloContained_iff _ _, welcomeContained_iff _ _, memberListContained_iff _ _⟩

/-- The start of a message of the given type, with no sequence number. -/
def headerOf (type : UInt8) : List UInt8 := protocolId ++ type :: List.replicate 6 0

/-- A member that claims an address of two hundred bytes, eighteen of them given. -/
def overrunMember : List UInt8 := [0, 1, 0, 0, 0, 9, 0, 0, 0, 200] ++ List.replicate 18 0

/--
A hello of forty bytes is accepted with an address that ends far behind it.

So is a list of two such members, the second of which is read behind the datagram.
-/
theorem members_overrun :
    ¬StaysInside (messageHelloDecode 40) (fun msg => [msg.thisMember]) 40
        (memoryOf (headerOf messageHelloType ++ overrunMember) fun _ => 0) ∧
    ¬StaysInside (messageMemberListDecode 70) (fun msg => msg.members) 70
        (memoryOf (headerOf messageMemberListType ++ [0, 2] ++ overrunMember ++ overrunMember)
          fun _ => 0) := by
  rw [helloContained_iff, memberListContained_iff]
  unfold HelloContained MemberListContained
  decide +kernel

/-! ### Clocks -/

/-- The eight bytes of the id in the record of a status with the given index. -/
def idBytesAt (memory : Nat → UInt8) (i : Nat) : List UInt8 := slice memory (18 + i * 12) 8

/-- A status that is decoded at all counts records the clock has room for, with distinct ids. -/
def ClockUsable (memory : Nat → UInt8) (length : Nat) : Prop :=
  Announces memory length messageStatusType →
    14 + (uint16At memory 12).toNat * 12 ≤ length →
      (uint16At memory 12).toNat ≤ maxVectorSize ∧
        ((List.range (uint16At memory 12).toNat).map (idBytesAt memory)).Nodup

instance (memory : Nat → UInt8) (length : Nat) : Decidable (ClockUsable memory length) :=
  inferInstanceAs (Decidable (_ → _ → _ ∧ _))

/-- The ids of decoded records are distinct exactly when their bytes are. -/
theorem recordsAt_ids_nodup (memory : Nat → UInt8) (count : Nat) :
    ((recordsAt memory 14 count).map (·.memberId)).Nodup ↔
      ((List.range count).map (idBytesAt memory)).Nodup := by
  have ids : (recordsAt memory 14 count).map (·.memberId)
      = ((List.range count).map (idBytesAt memory)).map memberIdOfBytes := by
    rw [recordsAt, List.map_map, List.map_map]
    refine List.map_congr_left fun i _ => ?_
    have offset : 14 + i * 12 + 4 = 18 + i * 12 := by omega
    simp only [Function.comp, recordAt, idBytesAt, offset]
  rw [ids]
  -- An id and its eight bytes determine each other.
  refine ⟨List.Nodup.of_map memberIdOfBytes, List.Nodup.map_on ?_⟩
  intro bytes member other member_ same
  obtain ⟨i, -, rfl⟩ := List.mem_map.mp member
  obtain ⟨j, -, rfl⟩ := List.mem_map.mp member_
  exact memberIdOfBytes_injective (slice_length _ _ _) (slice_length _ _ _) same

/-- A decoded clock is one that can be compared exactly when the status counts few, distinct ids. -/
theorem clockUsable_iff (bytes : List UInt8) (beyond : Nat → UInt8) (prior : VectorClock) :
    (∀ count msg,
      (messageStatusDecode bytes.length prior).result (memoryOf bytes beyond) = .ok (count, msg) →
        msg.dataVersion.size ≤ maxVectorSize ∧ (msg.dataVersion.live.map (·.memberId)).Nodup) ↔
      ClockUsable (memoryOf bytes beyond) bytes.length := by
  generalize memoryOf bytes beyond = memory
  rw [messageStatusDecode_result, ClockUsable]
  -- Without an accepted status there is no clock, and nothing to ask of it.
  by_cases announced : Announces memory bytes.length messageStatusType
  · rw [if_neg (not_not.mpr announced), forall_prop_of_true announced]
    by_cases short : bytes.length < 14 + (uint16At memory 12).toNat * 12
    · rw [if_pos short]
      exact ⟨fun _ long => absurd short (Nat.not_lt.mpr long), fun _ _ _ accepted => by cases accepted⟩
    · rw [if_neg short, forall_prop_of_true (Nat.not_lt.mp short), ← recordsAt_ids_nodup,
        ← clockAt_live memory prior]
      constructor
      · intro usable
        exact usable _ _ rfl
      · intro usable count msg accepted
        cases accepted
        exact usable
  · rw [if_pos announced]
    exact ⟨fun _ announced_ => absurd announced_ announced, fun _ _ _ accepted => by cases accepted⟩

/-- A status that counts the given number of records, every byte of them zero. -/
def emptyRecords (count : UInt8) : List UInt8 :=
  headerOf messageStatusType ++ [0, count] ++ List.replicate (count.toNat * 12) 0

/-- A status of twenty-one records is accepted, and so is one that names an id twice. -/
theorem clock_not_usable :
    ((emptyRecords 21).length ≤ messageMaxSize ∧
      ¬∀ count msg, (messageStatusDecode (emptyRecords 21).length vectorClockInit).result
        (memoryOf (emptyRecords 21) fun _ => 0) = .ok (count, msg) →
          msg.dataVersion.size ≤ maxVectorSize) ∧
    ((emptyRecords 2).length ≤ messageMaxSize ∧
      ¬∀ count msg, (messageStatusDecode (emptyRecords 2).length vectorClockInit).result
        (memoryOf (emptyRecords 2) fun _ => 0) = .ok (count, msg) →
          (msg.dataVersion.live.map (·.memberId)).Nodup) := by
  refine ⟨⟨by decide +kernel, fun usable => ?_⟩, ⟨by decide +kernel, fun usable => ?_⟩⟩
  · -- Twenty-one records fit a datagram, though not the array.
    have decoded := messageStatusDecode_result (memoryOf (emptyRecords 21) fun _ => 0)
      (emptyRecords 21).length vectorClockInit
    rw [if_neg (by decide +kernel), if_neg (by decide +kernel)] at decoded
    exact absurd (usable _ _ decoded) (by decide +kernel)
  · have decoded := messageStatusDecode_result (memoryOf (emptyRecords 2) fun _ => 0)
      (emptyRecords 2).length vectorClockInit
    rw [if_neg (by decide +kernel), if_neg (by decide +kernel)] at decoded
    exact absurd (usable _ _ decoded) (by decide +kernel)

end Pittacus
