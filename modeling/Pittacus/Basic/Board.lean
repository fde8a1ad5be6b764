import Mathlib.Data.Fintype.Card
import Mathlib.Logic.Function.Basic
import Pittacus.Basic.Climbing

/-! A board on which everybody posts items of their own and reads ahead in those of the others. -/

/-- What everybody posted, and the number of the last item each reader saw of each poster. -/
structure Board (ι α : Type) where
  posted : ι → List α
  seen : ι → ι → Nat
  within : ∀ reader poster, seen reader poster ≤ (posted poster).length
  own : ∀ i, seen i i = (posted i).length

namespace Board

variable {ι α : Type}

/-- Somebody gets to see an item, which may be their own. -/
structure Sight (ι α : Type) where
  reader : ι
  poster : ι
  number : Nat
  item : α

/-- A board nobody has posted anything on. -/
def empty : Board ι α where
  posted _ := []
  seen _ _ := 0
  within _ _ := Nat.zero_le _
  own _ := rfl

variable [DecidableEq ι]

/-- Post an item, which its poster sees at once. -/
def post (board : Board ι α) (i : ι) (item : α) : Board ι α where
  posted := Function.update board.posted i (board.posted i ++ [item])
  seen reader poster :=
    if reader = i ∧ poster = i then (board.posted i).length + 1 else board.seen reader poster
  within reader poster := by
    have before := board.within reader poster
    rw [Function.update_apply]
    split
    · rename_i both
      rw [if_pos both.2, List.length_append, List.length_singleton]
    · split
      · rename_i here
        subst here
        rw [List.length_append]
        omega
      · exact before
  own poster := by
    rw [Function.update_apply]
    split
    · rename_i both
      rw [if_pos both.1, List.length_append, List.length_singleton]
    · rename_i other
      rw [if_neg fun here => other ⟨here, here⟩]
      exact board.own poster

/-- Read an item of somebody else. -/
def read (board : Board ι α) (reader poster : ι) (other : reader ≠ poster) (number : Nat)
    (inside : number ≤ (board.posted poster).length) : Board ι α where
  posted := board.posted
  seen i j := if i = reader ∧ j = poster then number else board.seen i j
  within i j := by
    split
    · rename_i here
      rw [here.2]
      exact inside
    · exact board.within i j
  own i := by
    rw [if_neg fun here => other (here.1.symm.trans here.2)]
    exact board.own i

/-- What may happen on a board: nothing, a post, or somebody reading a newer item. -/
inductive Step : Board ι α → List (Sight ι α) → Board ι α → Prop where
  | rest (board : Board ι α) : Step board [] board
  | post (board : Board ι α) (i : ι) (item : α) :
      Step board [⟨i, i, (board.posted i).length + 1, item⟩] (board.post i item)
  | read (board : Board ι α) {reader poster : ι} (other : reader ≠ poster) {number : Nat}
      {item : α} (newer : board.seen reader poster < number)
      (inside : number ≤ (board.posted poster).length)
      (found : (board.posted poster)[number - 1]? = some item) :
      Step board [⟨reader, poster, number, item⟩] (board.read reader poster other number inside)

/-- Any number of steps, with all that was seen in them. -/
inductive Run : Board ι α → List (Sight ι α) → Board ι α → Prop where
  | done (board : Board ι α) : Run board [] board
  | next {first middle last : Board ι α} {early late : List (Sight ι α)}
      (step : Step first early middle) (run : Run middle late last) : Run first (early ++ late) last

/-! ### What a reader sees -/

/-- The numbers of the items that a reader sees of a poster. -/
def numbers (reader poster : ι) (sights : List (Sight ι α)) : List Nat :=
  (sights.filter fun sight => sight.reader = reader ∧ sight.poster = poster).map Sight.number

@[simp] theorem numbers_append (reader poster : ι) (early late : List (Sight ι α)) :
    numbers reader poster (early ++ late) = numbers reader poster early ++ numbers reader poster late := by
  rw [numbers, List.filter_append, List.map_append]
  rfl

/-- A sight shows its number to its reader alone. -/
theorem numbers_single (sight : Sight ι α) (reader poster : ι) :
    numbers reader poster [sight] =
      if sight.reader = reader ∧ sight.poster = poster then [sight.number] else [] := by
  by_cases here : sight.reader = reader ∧ sight.poster = poster
  · rw [if_pos here, numbers, List.filter_cons_of_pos (by simpa using here)]
    rfl
  · rw [if_neg here, numbers, List.filter_cons_of_neg (by simpa using here)]
    rfl

/-- Posts are kept, and everybody who sees something sees newer items than before. -/
structure Advances (before : Board ι α) (sights : List (Sight ι α)) (after : Board ι α) :
    Prop where
  kept : ∀ poster, before.posted poster <+: after.posted poster
  up : ∀ reader poster, before.seen reader poster ≤ after.seen reader poster
  climbs : ∀ reader poster, Climbs (before.seen reader poster) (after.seen reader poster)
    (numbers reader poster sights)
  items : ∀ sight ∈ sights, (after.posted sight.poster)[sight.number - 1]? = some sight.item

theorem Advances.refl (board : Board ι α) : Advances board [] board where
  kept _ := List.prefix_refl _
  up _ _ := Nat.le_refl _
  climbs _ _ := .nil _ _
  items := List.forall_mem_nil _

/-- What is posted stays where it is when more is posted. -/
theorem getElem?_of_prefix {early late : List α} (kept : early <+: late) {place : Nat} {item : α}
    (found : early[place]? = some item) : late[place]? = some item := by
  obtain ⟨more, rfl⟩ := kept
  rw [List.getElem?_append_left (List.getElem?_eq_some_iff.mp found).1, found]

theorem Advances.trans {first middle last : Board ι α} {early late : List (Sight ι α)}
    (left : Advances first early middle) (right : Advances middle late last) :
    Advances first (early ++ late) last where
  kept poster := (left.kept poster).trans (right.kept poster)
  up reader poster := Nat.le_trans (left.up reader poster) (right.up reader poster)
  climbs reader poster := by
    rw [numbers_append]
    exact (left.climbs reader poster).append (right.climbs reader poster) (left.up reader poster)
      (right.up reader poster)
  items := by
    refine List.forall_mem_append.mpr ⟨fun sight member => ?_, right.items⟩
    exact getElem?_of_prefix (right.kept sight.poster) (left.items sight member)

/-- Seeing one newer item of one poster is an advance. -/
theorem advances_single {before after : Board ι α} (sight : Sight ι α)
    (kept : ∀ poster, before.posted poster <+: after.posted poster)
    (newer : before.seen sight.reader sight.poster < sight.number)
    (seen : ∀ reader poster, after.seen reader poster =
      if sight.reader = reader ∧ sight.poster = poster then sight.number
      else before.seen reader poster)
    (item : (after.posted sight.poster)[sight.number - 1]? = some sight.item) :
    Advances before [sight] after := by
  have here : ∀ {reader poster : ι}, sight.reader = reader ∧ sight.poster = poster →
      before.seen reader poster < sight.number := by
    rintro _ _ ⟨rfl, rfl⟩
    exact newer
  refine ⟨kept, fun reader poster => ?_, fun reader poster => ?_, List.forall_mem_singleton.mpr item⟩
  · rw [seen]
    split
    · rename_i same
      exact Nat.le_of_lt (here same)
    · exact Nat.le_refl _
  · rw [seen, numbers_single]
    split
    · rename_i same
      exact .single (here same)
    · exact .nil _ _

/-- Every step advances. -/
theorem Step.advances {before after : Board ι α} {sights : List (Sight ι α)}
    (step : Step before sights after) : Advances before sights after := by
  cases step with
  | rest => exact .refl before
  | post i item =>
    -- The new item stands behind all that was posted before, and was seen by nobody.
    refine advances_single _ (fun poster => ?_) ?_ (fun reader poster => ?_) ?_
    · show before.posted poster <+: Function.update before.posted i _ poster
      rw [Function.update_apply]
      split
      · rename_i here
        rw [here]
        exact List.prefix_append _ _
      · exact List.prefix_refl _
    · show before.seen i i < _
      rw [before.own i]
      exact Nat.lt_succ_self _
    · show (if reader = i ∧ poster = i then _ else _) = _
      simp only [eq_comm]
    · show (Function.update before.posted i _ i)[(before.posted i).length + 1 - 1]? = _
      rw [Function.update_self, Nat.add_sub_cancel, List.getElem?_concat_length]
  | @read reader poster other number item newer inside found =>
    refine advances_single _ (fun _ => List.prefix_refl _) newer (fun i j => ?_) found
    show (if i = reader ∧ j = poster then _ else _) = _
    simp only [eq_comm]

/-- Every run advances. -/
theorem Run.advances {before after : Board ι α} {sights : List (Sight ι α)}
    (run : Run before sights after) : Advances before sights after := by
  induction run with
  | done board => exact .refl board
  | next step _ ih => exact step.advances.trans ih

/-! ### Items in the order of their posts -/

/-- What was posted, with the numbers of the items. -/
def numbered (items : List α) : List (Nat × α) := items.zipIdx.map fun found => (found.2 + 1, found.1)

/-- Items with increasing numbers are a part of all numbered items, in their order. -/
theorem sublist_numbered {items : List α} {low high : Nat} {picked : List (Nat × α)}
    (climbs : Climbs low high (picked.map Prod.fst))
    (found : ∀ pick ∈ picked, items[pick.1 - 1]? = some pick.2) :
    picked.Sublist ((numbered items).drop low) := by
  -- Behind an item with some number, only items with larger numbers are picked.
  induction picked generalizing low with
  | nil => exact List.nil_sublist _
  | cons pick rest ih =>
    obtain ⟨increasing, above, below⟩ := climbs
    rw [List.map_cons] at increasing above below
    obtain ⟨now, later⟩ := List.pairwise_cons.mp increasing
    have up := above pick.1 List.mem_cons_self
    have place := found pick List.mem_cons_self
    have next : rest.Sublist ((numbered items).drop pick.1) := ih
      ⟨later, fun number member => now number member,
        fun number member => below number (List.mem_cons_of_mem _ member)⟩
      fun other member => found other (List.mem_cons_of_mem _ member)
    have here : (numbered items)[pick.1 - 1]? = some pick := by
      rw [numbered, List.getElem?_map, List.getElem?_zipIdx, place]
      simp only [Option.map_some, Option.some.injEq]
      rw [Nat.zero_add, Nat.sub_add_cancel (Nat.lt_of_le_of_lt (Nat.zero_le _) up)]
    obtain ⟨inside, same⟩ := List.getElem?_eq_some_iff.mp here
    have head : (numbered items).drop (pick.1 - 1) = pick :: (numbered items).drop pick.1 := by
      rw [List.drop_eq_getElem_cons inside, same,
        Nat.sub_add_cancel (Nat.lt_of_le_of_lt (Nat.zero_le _) up)]
    have whole : (pick :: rest).Sublist ((numbered items).drop (pick.1 - 1)) := by
      rw [head]
      exact next.cons_cons pick
    exact whole.trans (List.drop_sublist_drop_left _ (by omega))

section Sights

variable {before after : Board ι α} {sights : List (Sight ι α)}

/-- What a reader sees of a poster is a part of what was posted behind what the reader saw before. -/
theorem Advances.sublist (advances : Advances before sights after) (reader poster : ι) :
    ((sights.filter fun sight => sight.reader = reader ∧ sight.poster = poster).map
        fun sight => (sight.number, sight.item)).Sublist
      ((numbered (after.posted poster)).drop (before.seen reader poster)) := by
  have climbs := advances.climbs reader poster
  refine sublist_numbered (by rw [List.map_map]; exact climbs) fun pick member => ?_
  obtain ⟨sight, selected, rfl⟩ := List.mem_map.mp member
  obtain ⟨seen, from_⟩ := List.mem_filter.mp selected
  rw [← (of_decide_eq_true from_).2]
  exact advances.items sight seen

/-- What is seen was posted by then. -/
theorem Advances.number_le (advances : Advances before sights after)
    (sight : Sight ι α) (member : sight ∈ sights) :
    sight.number ≤ (after.posted sight.poster).length := by
  have listed : sight.number ∈ numbers sight.reader sight.poster sights :=
    List.mem_map_of_mem (List.mem_filter.mpr ⟨member, decide_eq_true ⟨rfl, rfl⟩⟩)
  have below := (advances.climbs sight.reader sight.poster).below _ listed
  exact Nat.le_trans below (after.within sight.reader sight.poster)

/-- Whoever sees two items of one poster sees the one with the larger number later. -/
theorem Advances.ordered (advances : Advances before sights after) :
    sights.Pairwise fun sight later =>
      sight.reader = later.reader → sight.poster = later.poster → sight.number < later.number := by
  rw [List.pairwise_iff_forall_sublist]
  intro sight later both reader poster
  have increasing := (advances.climbs later.reader later.poster).increasing
  rw [numbers, List.pairwise_map, List.pairwise_filter,
    List.pairwise_iff_forall_sublist] at increasing
  exact increasing both (decide_eq_true ⟨reader, poster⟩) (decide_eq_true ⟨rfl, rfl⟩)

/-- Everybody sees an item at most once. -/
theorem Advances.readers_nodup (advances : Advances before sights after) (poster : ι)
    (number : Nat) :
    ((sights.filter fun sight => sight.poster = poster ∧ sight.number = number).map
      Sight.reader).Nodup := by
  rw [List.Nodup, List.pairwise_map, List.pairwise_filter]
  refine advances.ordered.imp fun {sight later} ordered first second same => ?_
  -- The second sight of the same item would have to bear a larger number.
  obtain ⟨by_, numbered⟩ := of_decide_eq_true first
  obtain ⟨by__, numbered_⟩ := of_decide_eq_true second
  have less := ordered same (by_.trans by__.symm)
  omega

/-- An item is seen at most as often as there are readers. -/
theorem Advances.count_le [Fintype ι] (advances : Advances before sights after) (poster : ι)
    (number : Nat) :
    sights.countP (fun sight => sight.poster = poster ∧ sight.number = number) ≤
      Fintype.card ι := by
  have few := (advances.readers_nodup poster number).length_le_card
  rwa [List.length_map, ← List.countP_eq_length_filter] at few

end Sights

end Board
