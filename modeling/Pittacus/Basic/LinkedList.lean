import Mathlib.Data.List.Induction
import Mathlib.Data.List.Nodup
import Mathlib.Logic.Function.Basic

/-! Doubly linked lists of cells in memory, computations on them, and the lists they stand for. -/

/-- A cell with its two links. -/
structure Cell (α : Type) where
  value : α
  prev : Option Nat
  next : Option Nat

/-- The cells that are allocated, and both ends of the list threaded through them. -/
structure LinkedList (α : Type) where
  cells : Nat → Option (Cell α)
  head : Option Nat
  tail : Option Nat

/-- A computation on a linked list, which fails when it touches a cell that is not allocated. -/
def Access (α β : Type) : Type := LinkedList α → Option (β × LinkedList α)

namespace Access

variable {α β γ : Type}

instance : Monad (Access α) where
  pure answer := fun list => some (answer, list)
  bind access next := fun list =>
    match access list with
    | none => none
    | some (answer, after) => next answer after

/-- Touch memory that is not allocated. -/
def fault : Access α β := fun _ => none

/-- The first cell. -/
def head : Access α (Option Nat) := fun list => some (list.head, list)

/-- The last cell. -/
def tail : Access α (Option Nat) := fun list => some (list.tail, list)

/-- Make a cell, or none, the first one. -/
def setHead (address : Option Nat) : Access α Unit := fun list =>
  some ((), { list with head := address })

/-- Make a cell, or none, the last one. -/
def setTail (address : Option Nat) : Access α Unit := fun list =>
  some ((), { list with tail := address })

/-- Read a cell. -/
def load (address : Nat) : Access α (Cell α) := fun list =>
  (list.cells address).map fun cell => (cell, list)

/-- Change a cell. -/
def update (address : Nat) (change : Cell α → Cell α) : Access α Unit := fun list =>
  (list.cells address).map fun cell =>
    ((), { list with cells := Function.update list.cells address (some (change cell)) })

/-- Allocate a cell without links at the address the allocator returned. -/
def allocate (address : Nat) (value : α) : Access α Unit := fun list =>
  some ((), { list with cells := Function.update list.cells address (some ⟨value, none, none⟩) })

/-- Let what follows point back to `prev`: the next cell, or the end of the list. -/
def setPrevOf (next prev : Option Nat) : Access α Unit :=
  match next with
  | some next => update next fun cell => { cell with prev := prev }
  | none => setTail prev

/-- Let what comes before point on to `next`: the previous cell, or the start of the list. -/
def setNextOf (prev next : Option Nat) : Access α Unit :=
  match prev with
  | some prev => update prev fun cell => { cell with next := next }
  | none => setHead next

/-- Release a cell. -/
def release (address : Nat) : Access α Unit := fun list =>
  (list.cells address).map fun _ =>
    ((), { list with cells := Function.update list.cells address none })

/-! ### Running one step -/

@[simp] theorem pure_run (answer : β) (list : LinkedList α) :
    (pure answer : Access α β) list = some (answer, list) := rfl

/-- What follows a computation that did not fail starts with its answer and its list. -/
theorem bind_of_run {access : Access α β} {list after : LinkedList α} {answer : β}
    (ran : access list = some (answer, after)) (next : β → Access α γ) :
    (access >>= next) list = next answer after := by
  simp only [Bind.bind, ran]

@[simp] theorem pure_bind_run (answer : β) (next : β → Access α γ) (list : LinkedList α) :
    ((pure answer : Access α β) >>= next) list = next answer list := rfl

@[simp] theorem head_bind (list : LinkedList α) (next : Option Nat → Access α γ) :
    (head >>= next) list = next list.head list := rfl

@[simp] theorem tail_bind (list : LinkedList α) (next : Option Nat → Access α γ) :
    (tail >>= next) list = next list.tail list := rfl

/-- Reading an allocated cell yields that cell. -/
theorem load_bind {list : LinkedList α} {address : Nat} {cell : Cell α}
    (stored : list.cells address = some cell) (next : Cell α → Access α γ) :
    (load address >>= next) list = next cell list :=
  bind_of_run (by rw [load, stored]; rfl) next

/-- Changing an allocated cell leaves the changed cell. -/
theorem update_run {list : LinkedList α} {address : Nat} {cell : Cell α}
    (stored : list.cells address = some cell) (change : Cell α → Cell α) :
    update address change list =
      some ((), { list with cells := Function.update list.cells address (some (change cell)) }) := by
  rw [update, stored]
  rfl

/-- An allocated cell can be released. -/
theorem release_run {list : LinkedList α} {address : Nat} {cell : Cell α}
    (stored : list.cells address = some cell) :
    release address list =
      some ((), { list with cells := Function.update list.cells address none }) := by
  rw [release, stored]
  rfl

end Access

namespace LinkedList

variable {α : Type}

/-- A list without cells, in memory where nothing is allocated. -/
def empty : LinkedList α := ⟨fun _ => none, none, none⟩

/-- Where a walk over some cells, and then on to `last`, starts. -/
def entry : List (Nat × α) → Option Nat → Option Nat
  | [], last => last
  | (address, _) :: _, _ => some address

/-- Where a walk that comes from `first` stands after some cells. -/
def exit : Option Nat → List (Nat × α) → Option Nat
  | first, [] => first
  | _, (address, _) :: rest => exit (some address) rest

/-- Cells linked both ways, in between two cells that may not belong to them. -/
def Segment (cells : Nat → Option (Cell α)) : Option Nat → List (Nat × α) → Option Nat → Prop
  | _, [], _ => True
  | first, (address, value) :: rest, last =>
    cells address = some ⟨value, first, entry rest last⟩ ∧ Segment cells (some address) rest last

/-- The cells of a linked list in order, each with its value; nothing else is allocated. -/
structure Represents (list : LinkedList α) (nodes : List (Nat × α)) : Prop where
  distinct : (nodes.map Prod.fst).Nodup
  linked : Segment list.cells none nodes none
  head : list.head = entry nodes none
  tail : list.tail = exit none nodes
  owned : ∀ address, list.cells address ≠ none → address ∈ nodes.map Prod.fst

theorem represents_empty : Represents (empty : LinkedList α) [] where
  distinct := List.nodup_nil
  linked := trivial
  head := rfl
  tail := rfl
  owned _ allocated := absurd rfl allocated

/-! ### Segments -/

@[simp] theorem entry_nil (last : Option Nat) : entry ([] : List (Nat × α)) last = last := rfl

@[simp] theorem entry_cons (address : Nat) (value : α) (rest : List (Nat × α))
    (last : Option Nat) : entry ((address, value) :: rest) last = some address := rfl

@[simp] theorem entry_append (front back : List (Nat × α)) (last : Option Nat) :
    entry (front ++ back) last = entry front (entry back last) := by
  cases front with
  | nil => rfl
  | cons node rest => rfl

@[simp] theorem exit_append (front back : List (Nat × α)) (first : Option Nat) :
    exit first (front ++ back) = exit (exit first front) back := by
  induction front generalizing first with
  | nil => rfl
  | cons node rest ih => exact ih _

/-- A walk that starts nowhere meets no cell. -/
theorem entry_none {nodes : List (Nat × α)} : entry nodes none = none ↔ nodes = [] := by
  cases nodes <;> simp [entry]

/-- So does one that ends nowhere. -/
theorem exit_none {nodes : List (Nat × α)} : exit none nodes = none ↔ nodes = [] := by
  rcases List.eq_nil_or_concat' nodes with rfl | ⟨rest, node, rfl⟩
  · exact iff_of_true rfl rfl
  · rw [exit_append]
    exact iff_of_false (Option.some_ne_none node.1) (by simp)

/-- Two stretches of cells form one when each is linked to where the other one starts or ends. -/
theorem segment_append {cells : Nat → Option (Cell α)} {front back : List (Nat × α)}
    {first last : Option Nat} :
    Segment cells first (front ++ back) last ↔
      Segment cells first front (entry back last) ∧ Segment cells (exit first front) back last := by
  induction front generalizing first with
  | nil => simp [Segment, exit]
  | cons node rest ih =>
    simp only [List.cons_append, Segment, entry_append, exit, ih, and_assoc]

/-- Cells that are left as they were stay linked as they were. -/
theorem Segment.congr {cells changed : Nat → Option (Cell α)} {nodes : List (Nat × α)}
    {first last : Option Nat} (linked : Segment cells first nodes last)
    (same : ∀ address ∈ nodes.map Prod.fst, changed address = cells address) :
    Segment changed first nodes last := by
  induction nodes generalizing first with
  | nil => trivial
  | cons node rest ih =>
    refine ⟨(same _ List.mem_cons_self).trans linked.1, ih linked.2 fun address member => ?_⟩
    exact same address (List.mem_cons_of_mem _ member)

/-- The cells of a segment hold their values. -/
theorem Segment.stored {cells : Nat → Option (Cell α)} {nodes : List (Nat × α)}
    {first last : Option Nat} (linked : Segment cells first nodes last) {address : Nat} {value : α}
    (member : (address, value) ∈ nodes) :
    ∃ cell, cells address = some cell ∧ cell.value = value := by
  -- Each cell is where the link of the one before it leads.
  induction nodes generalizing first with
  | nil => cases member
  | cons node rest ih =>
    rcases List.mem_cons.mp member with rfl | later
    · exact ⟨_, linked.1, rfl⟩
    · exact ih linked.2 later

/-- The cells of a segment are allocated. -/
theorem Segment.allocated {cells : Nat → Option (Cell α)} {nodes : List (Nat × α)}
    {first last : Option Nat} (linked : Segment cells first nodes last) {address : Nat}
    (member : address ∈ nodes.map Prod.fst) : cells address ≠ none := by
  obtain ⟨⟨_, value⟩, within, rfl⟩ := List.mem_map.mp member
  obtain ⟨cell, stored, -⟩ := linked.stored within
  exact stored ▸ Option.some_ne_none cell

/-- A cell that is not in a segment may be changed. -/
theorem Segment.update_apart {cells : Nat → Option (Cell α)} {nodes : List (Nat × α)}
    {first last : Option Nat} (linked : Segment cells first nodes last) {address : Nat}
    (apart : address ∉ nodes.map Prod.fst) (cell : Option (Cell α)) :
    Segment (Function.update cells address cell) first nodes last :=
  linked.congr fun other member => Function.update_of_ne
    (fun same : other = address => apart (same ▸ member)) _ _

/-! ### Changing links -/

/-- The other cells are left alone, and the same cells are allocated. -/
structure Spares (before after : LinkedList α) (touched : List Nat) : Prop where
  rest : ∀ address ∉ touched, after.cells address = before.cells address
  allocated : ∀ address, after.cells address = none ↔ before.cells address = none

/-- Changing an allocated cell spares the others. -/
theorem spares_update {list : LinkedList α} {address : Nat} {cell changed : Cell α}
    (stored : list.cells address = some cell) {touched : List Nat} (member : address ∈ touched) :
    Spares list { list with cells := Function.update list.cells address (some changed) }
      touched where
  rest other apart := Function.update_of_ne
    (fun same : other = address => apart (same ▸ member)) _ _
  allocated other := by
    by_cases same : other = address
    · subst other
      simp [stored]
    · simp [Function.update_of_ne same]

/-- The cells behind a removed one are linked back to what came before it. -/
theorem setPrevOf_run {list : LinkedList α} {back : List (Nat × α)} {first : Option Nat}
    (linked : Segment list.cells first back none) (distinct : (back.map Prod.fst).Nodup)
    (ends : list.tail = exit first back) (prev : Option Nat) :
    ∃ after, Access.setPrevOf (entry back none) prev list = some ((), after) ∧
      Segment after.cells prev back none ∧ after.head = list.head ∧ after.tail = exit prev back ∧
      Spares list after (back.map Prod.fst) := by
  -- Without a cell behind nothing is written: the tail is what has to change then.
  cases back with
  | nil => exact ⟨_, rfl, trivial, rfl, rfl, ⟨fun _ _ => rfl, fun _ => Iff.rfl⟩⟩
  | cons node rest =>
    obtain ⟨address, value⟩ := node
    obtain ⟨stored, further⟩ := linked
    refine ⟨_, Access.update_run stored _, ⟨Function.update_self _ _ _, ?_⟩, rfl, ends,
      spares_update stored List.mem_cons_self⟩
    exact further.update_apart (List.nodup_cons.mp distinct).1 _

/-- The cells in front of a removed one are linked on to what came behind it. -/
theorem setNextOf_run {list : LinkedList α} {front : List (Nat × α)} {last : Option Nat}
    (linked : Segment list.cells none front last) (distinct : (front.map Prod.fst).Nodup)
    (starts : list.head = entry front last) (next : Option Nat) :
    ∃ after, Access.setNextOf (exit none front) next list = some ((), after) ∧
      Segment after.cells none front next ∧ after.head = entry front next ∧
      after.tail = list.tail ∧ Spares list after (front.map Prod.fst) := by
  -- Without a cell in front nothing is written: the head is what has to change then.
  rcases List.eq_nil_or_concat' front with rfl | ⟨rest, node, rfl⟩
  · exact ⟨_, rfl, trivial, rfl, rfl, ⟨fun _ _ => rfl, fun _ => Iff.rfl⟩⟩
  · obtain ⟨address, value⟩ := node
    obtain ⟨earlier, stored, -⟩ := segment_append.mp linked
    have apart : address ∉ rest.map Prod.fst := by
      rw [List.map_append, List.nodup_append] at distinct
      exact fun member => distinct.2.2 address member address List.mem_cons_self rfl
    have standing : exit none (rest ++ [(address, value)]) = some address := by
      rw [exit_append]
      rfl
    rw [standing]
    refine ⟨_, Access.update_run stored _, segment_append.mpr
      ⟨earlier.update_apart apart _, Function.update_self _ _ _, trivial⟩, ?_, rfl,
      spares_update stored (by simp)⟩
    rw [entry_append] at starts ⊢
    exact starts

/-! ### One cell of a list -/

/-- A cell of a list, with the stretches of cells in front of it and behind it. -/
structure Splits (list : LinkedList α) (front : List (Nat × α)) (address : Nat) (value : α)
    (back : List (Nat × α)) : Prop where
  stored : list.cells address = some ⟨value, exit none front, entry back none⟩
  before : Segment list.cells none front (some address)
  behind : Segment list.cells (some address) back none
  apart : address ∉ front.map Prod.fst ∧ address ∉ back.map Prod.fst
  distinct : (front.map Prod.fst).Nodup ∧ (back.map Prod.fst).Nodup
  disjoint : ∀ other ∈ front.map Prod.fst, other ∉ back.map Prod.fst

theorem Represents.splits {list : LinkedList α} {front back : List (Nat × α)} {address : Nat}
    {value : α} (represents : list.Represents (front ++ (address, value) :: back)) :
    list.Splits front address value back := by
  obtain ⟨before, stored, behind⟩ := segment_append.mp represents.linked
  -- No address comes up twice, so the three parts share none.
  have distinct := represents.distinct
  rw [List.map_append, List.map_cons, List.nodup_append] at distinct
  obtain ⟨first, second, disjoint⟩ := distinct
  have alone := List.nodup_cons.mp second
  refine ⟨stored, before, behind, ⟨fun member => ?_, alone.1⟩, ⟨first, alone.2⟩,
    fun other left right => ?_⟩
  · exact disjoint address member address List.mem_cons_self rfl
  · exact disjoint other left other (List.mem_cons_of_mem _ right) rfl

/-- A cell can be given another value in its place. -/
theorem Represents.revalue {list : LinkedList α} {front back : List (Nat × α)} {address : Nat}
    {value : α} (represents : list.Represents (front ++ (address, value) :: back)) (change : α → α) :
    ∃ after, Access.update address (fun cell => { cell with value := change cell.value }) list
        = some ((), after) ∧
      after.Represents (front ++ (address, change value) :: back) := by
  obtain ⟨stored, before, behind, ⟨notFront, notBack⟩, -, -⟩ := represents.splits
  have names : (front ++ (address, change value) :: back).map Prod.fst =
      (front ++ (address, value) :: back).map Prod.fst := by simp
  -- The links are untouched, so both sides of the cell stand as before.
  refine ⟨_, Access.update_run stored _, ?_, ?_, ?_, ?_, ?_⟩
  · rw [names]
    exact represents.distinct
  · exact segment_append.mpr ⟨before.update_apart notFront _, Function.update_self _ _ _,
      behind.update_apart notBack _⟩
  · rw [entry_append]
    exact represents.head.trans (entry_append _ _ _)
  · rw [exit_append]
    exact represents.tail.trans (exit_append _ _ _)
  · intro other allocated
    rw [names]
    refine represents.owned other fun released => allocated ?_
    have elsewhere : other ≠ address := by
      rintro rfl
      rw [stored] at released
      cases released
    exact (Function.update_of_ne elsewhere _ _).trans released

/-- Linking the neighbours of a cell to each other leaves that cell to be released. -/
theorem Represents.relink {list : LinkedList α} {front back : List (Nat × α)} {address : Nat}
    {value : α} (represents : list.Represents (front ++ (address, value) :: back)) :
    ∃ between relinked : LinkedList α,
      Access.setPrevOf (entry back none) (exit none front) list = some ((), between) ∧
      Access.setNextOf (exit none front) (entry back none) between = some ((), relinked) ∧
      relinked.cells address = list.cells address ∧
      Represents { relinked with cells := Function.update relinked.cells address none }
        (front ++ back) := by
  obtain ⟨-, before, behind, ⟨notFront, notBack⟩, ⟨frontNodup, backNodup⟩, disjoint⟩ :=
    represents.splits
  have starts : list.head = entry front (some address) := by
    rw [represents.head, entry_append, entry_cons]
  have ends : list.tail = exit (some address) back := by
    rw [represents.tail, exit_append]
    rfl
  obtain ⟨between, ran, linkedBack, sameHead, newTail, spared⟩ :=
    setPrevOf_run behind backNodup ends (exit none front)
  -- The cells in front were not touched, and those behind will not be.
  have stillFront : Segment between.cells none front (some address) :=
    before.congr fun other member => spared.rest other (disjoint other member)
  obtain ⟨relinked, ran_, linkedFront, newHead, sameTail, spared_⟩ :=
    setNextOf_run stillFront frontNodup (sameHead.trans starts) (entry back none)
  have stillBack : Segment relinked.cells (exit none front) back none :=
    linkedBack.congr fun other member => spared_.rest other fun left => disjoint other left member
  refine ⟨between, relinked, ran, ran_, ?_, ?_, ?_, ?_, ?_, fun other allocated => ?_⟩
  · rw [spared_.rest _ notFront, spared.rest _ notBack]
  · rw [List.map_append, List.nodup_append]
    exact ⟨frontNodup, backNodup, fun one left other right same => disjoint one left (same ▸ right)⟩
  · exact segment_append.mpr
      ⟨linkedFront.update_apart notFront none, stillBack.update_apart notBack none⟩
  · rw [entry_append]
    exact newHead
  · rw [exit_append]
    exact sameTail.trans newTail
  · -- What is still allocated was so before, and is not the cell that was taken out.
    have elsewhere : other ≠ address := by
      rintro rfl
      exact allocated (Function.update_self _ _ _)
    have held : list.cells other ≠ none := fun released => allocated <|
      (Function.update_of_ne elsewhere _ _).trans
        ((spared_.allocated other).mpr ((spared.allocated other).mpr released))
    have member := represents.owned other held
    simp only [List.map_append, List.map_cons, List.mem_append, List.mem_cons] at member ⊢
    rcases member with left | same | right
    · exact .inl left
    · exact absurd same elsewhere
    · exact .inr right

/-- A cell linked on from the last one stands for a list with one element more. -/
theorem Represents.concat {list after : LinkedList α} {nodes : List (Nat × α)}
    (represents : list.Represents nodes) {address : Nat} {value : α}
    (fresh : list.cells address = none)
    (linked : Segment after.cells none nodes (some address))
    (stored : after.cells address = some ⟨value, exit none nodes, none⟩)
    (starts : after.head = entry nodes (some address)) (ends : after.tail = some address)
    (allocated : ∀ other ≠ address, after.cells other = none ↔ list.cells other = none) :
    after.Represents (nodes ++ [(address, value)]) := by
  -- A fresh cell cannot be one of those in the list, all of which are allocated.
  have alone : address ∉ nodes.map Prod.fst :=
    fun member => represents.linked.allocated member fresh
  refine ⟨?_, segment_append.mpr ⟨linked, stored, trivial⟩, ?_, ?_, fun other held => ?_⟩
  · rw [List.map_append, List.nodup_append]
    refine ⟨represents.distinct, List.nodup_singleton _, fun one left other right same => ?_⟩
    have here : one = address := same.trans (List.mem_singleton.mp right)
    exact alone (here ▸ left)
  · rw [entry_append]
    exact starts
  · rw [exit_append]
    exact ends
  · rw [List.map_append, List.mem_append]
    by_cases here : other = address
    · exact .inr (List.mem_singleton.mpr here)
    · exact .inl (represents.owned other fun free => held ((allocated other here).mpr free))

/-! ### Walking -/

/-- The cells a walk along the forward links meets, as long as all of them are allocated. -/
def walkOn (cells : Nat → Option (Cell α)) : Nat → Option Nat → Option (List (Nat × α))
  | _, none => some []
  | 0, some _ => none
  | fuel + 1, some address =>
    (cells address).bind fun cell =>
      (walkOn cells fuel cell.next).map fun rest => (address, cell.value) :: rest

/-- The cells a walk along the backward links meets. -/
def walkBack (cells : Nat → Option (Cell α)) : Nat → Option Nat → Option (List (Nat × α))
  | _, none => some []
  | 0, some _ => none
  | fuel + 1, some address =>
    (cells address).bind fun cell =>
      (walkBack cells fuel cell.prev).map fun rest => (address, cell.value) :: rest

/-- A walk that has fuel for some cells and one more has it for the one, and then for the others. -/
theorem exists_less {length fuel : Nat} (enough : length + 1 ≤ fuel) :
    ∃ less, fuel = less + 1 ∧ length ≤ less := by
  obtain ⟨less, rfl⟩ := Nat.exists_eq_add_one.mpr (Nat.zero_lt_of_lt enough)
  exact ⟨less, rfl, Nat.le_of_succ_le_succ enough⟩

/-- A walk along the forward links meets the cells in order. -/
theorem Segment.walkOn {cells : Nat → Option (Cell α)} {nodes : List (Nat × α)}
    {first : Option Nat} (linked : Segment cells first nodes none) {fuel : Nat}
    (enough : nodes.length ≤ fuel) :
    LinkedList.walkOn cells fuel (entry nodes none) = some nodes := by
  -- Fuel for the nodes left is enough, since each step meets one of them.
  induction nodes generalizing first fuel with
  | nil => cases fuel <;> rfl
  | cons node rest ih =>
    obtain ⟨address, value⟩ := node
    obtain ⟨less, rfl, enough_⟩ := exists_less enough
    have further := ih linked.2 enough_
    simp [LinkedList.walkOn, linked.1, further]

/-- A walk along the backward links meets the cells in reverse order. -/
theorem Segment.walkBack {cells : Nat → Option (Cell α)} {nodes : List (Nat × α)}
    {last : Option Nat} (linked : Segment cells none nodes last) {fuel : Nat}
    (enough : nodes.length ≤ fuel) :
    LinkedList.walkBack cells fuel (exit none nodes) = some nodes.reverse := by
  -- The induction takes cells off the end, where a backward walk starts.
  induction nodes using List.reverseRecOn generalizing last fuel with
  | nil => cases fuel <;> rfl
  | append_singleton rest node ih =>
    obtain ⟨address, value⟩ := node
    rw [List.length_append, List.length_singleton] at enough
    obtain ⟨less, rfl, enough_⟩ := exists_less enough
    obtain ⟨earlier, stored, -⟩ := segment_append.mp linked
    have further := ih earlier enough_
    have standing : exit none (rest ++ [(address, value)]) = some address := by
      rw [exit_append]
      rfl
    simp [standing, LinkedList.walkBack, stored, further]

end LinkedList
