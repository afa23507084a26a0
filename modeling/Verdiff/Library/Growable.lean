import Verdiff.Library.Heap

/-! Arrays that grow by reallocation, as blocks of a heap.

How the items of an array lie in its block is a parameter. Behind its count an array may hold
items that are no longer in use.
-/

set_option autoImplicit false

/-- The pointer to the items may be `NULL`. -/
structure Growable where
  items : Option Nat
  count : Nat
  capacity : Nat

structure Arrays (Content Item : Type) where
  pack : Nat → List Item → Content
  unpack : Content → Option (Nat × List Item)
  unpack_pack : ∀ room items, unpack (pack room items) = some (room, items)

namespace Arrays

variable {Content Item : Type} (arrays : Arrays Content Item)

def read (heap : Heap Content) (items : Option Nat) : Option (Nat × List Item) := do
  let block ← items
  let content ← heap.read block
  arrays.unpack content

def realloc (heap : Heap Content) (items : Option Nat) (room : Nat) : Option (Nat × Heap Content) :=
  match items with
  | none => some (heap.alloc (arrays.pack room []))
  | some old => do
    let (_, written) ← arrays.read heap (some old)
    let (block, heap) := heap.alloc (arrays.pack room (written.take room))
    return (block, ← heap.free old)

/-- Make room for one more item: `first` items at first, then twice as many each time. -/
def reserve (first : Nat) (heap : Heap Content) (array : Growable) (growOk : Bool) :
    Option (Bool × Growable × Heap Content) :=
  if array.count = array.capacity then
    if growOk then do
      let capacity := if array.capacity = 0 then first else array.capacity * 2
      let (block, heap) ← arrays.realloc heap array.items capacity
      return (true, ⟨some block, array.count, capacity⟩, heap)
    else some (false, array, heap)
  else some (true, array, heap)

def store (heap : Heap Content) (array : Growable) (item : Item) : Option (Heap Content) := do
  let block ← array.items
  let (room, written) ← arrays.read heap (some block)
  if array.count < room then
    heap.write block (arrays.pack room (written.take array.count ++ item :: written.drop (array.count + 1)))
  else none

/-- The items in use, which must all have been written; nothing is read when there are none. -/
def used (heap : Heap Content) (array : Growable) : Option (List Item) :=
  if array.count = 0 then some []
  else do
    let (_, written) ← arrays.read heap array.items
    if array.count ≤ written.length then some (written.take array.count) else none

/-- The block of an array, when its first items are the given ones. -/
inductive Of : Growable → List Item → List (Nat × Content) → Prop where
  | null : Of ⟨none, 0, 0⟩ [] []
  | items {block capacity : Nat} {written items : List Item} : written.take items.length = items →
      items.length ≤ capacity → 0 < capacity →
      Of ⟨some block, items.length, capacity⟩ items [(block, arrays.pack capacity written)]

variable {arrays} {heap : Heap Content} {array : Growable} {items : List Item} {item : Item}
  {cells rest : List (Nat × Content)}

theorem read_ok {block room : Nat} {written : List Item} (holds : heap.Holds cells)
    (member : (block, arrays.pack room written) ∈ cells) : arrays.read heap (some block) = some (room, written) := by
  simp only [read, Option.bind_eq_bind, Option.bind_some, holds.read member, arrays.unpack_pack]

theorem realloc_ok (of : arrays.Of array items cells) (holds : heap.Holds (cells ++ rest)) {room : Nat}
    (enough : items.length ≤ room) :
    ∃ block written after, arrays.realloc heap array.items room = some (block, after) ∧
      written.take items.length = items ∧ after.Holds ((block, arrays.pack room written) :: rest) := by
  cases of with
  | null => exact ⟨_, [], _, rfl, rfl, holds.alloc _⟩
  | @items old capacity written items taken _ _ =>
    have found := read_ok holds (List.mem_cons_self ..)
    obtain ⟨after, freed, kept⟩ :=
      ((holds.alloc (arrays.pack room (written.take room))).reorder (List.Perm.swap _ _ _)).free
    refine ⟨heap.next, written.take room, after, ?_, ?_, kept⟩
    · simp only [realloc, found, Option.bind_eq_bind, Option.bind_some]
      rw [show (heap.alloc (arrays.pack room (written.take room))).2.free old = some after from freed]
      rfl
    · rw [List.take_take, Nat.min_eq_left enough, taken]

namespace Of

theorem count (of : arrays.Of array items cells) : array.count = items.length := by
  cases of <;> rfl

theorem length_le (of : arrays.Of array items cells) : items.length ≤ array.capacity := by
  cases of with
  | null => exact Nat.le_refl 0
  | items _ bounded _ => exact bounded

theorem filled (of : arrays.Of array items cells) (filled : items ≠ []) : array.items.isSome = true := by
  cases of with
  | null => exact absurd rfl filled
  | items => rfl

theorem reserve (of : arrays.Of array items cells) (holds : heap.Holds (cells ++ rest)) {first : Nat}
    (positive : 0 < first) (growOk : Bool) :
    (array.count = array.capacity ∧ growOk = false ∧
      arrays.reserve first heap array growOk = some (false, array, heap)) ∨
    ((array.count = array.capacity → growOk = true) ∧ ∃ grown stored after,
      arrays.reserve first heap array growOk = some (true, grown, after) ∧ arrays.Of grown items stored ∧
      grown.items.isSome ∧ items.length < grown.capacity ∧
      grown.capacity = (if array.count = array.capacity then if array.capacity = 0 then first else array.capacity * 2
        else array.capacity) ∧
      after.Holds (stored ++ rest)) := by
  have bounded := of.length_le
  by_cases full : array.count = array.capacity
  · cases growOk with
    | false => exact .inl ⟨full, rfl, by simp [Arrays.reserve, full]⟩
    | true =>
      have counted := of.count
      have room : items.length < if array.capacity = 0 then first else array.capacity * 2 := by split <;> omega
      obtain ⟨block, written, after, moved, taken, kept⟩ := realloc_ok of holds (Nat.le_of_lt room)
      refine .inr ⟨fun _ => rfl, ⟨some block, items.length, _⟩, _, after, ?_,
        .items taken (Nat.le_of_lt room) (Nat.zero_lt_of_lt room), rfl, room, (if_pos full).symm, kept⟩
      rw [Arrays.reserve, if_pos full, if_pos rfl]
      simp only [moved, counted, Option.bind_eq_bind, Option.bind_some]
      rfl
  · refine .inr ⟨fun same => absurd same full, array, cells, heap, if_neg full, of, ?_, ?_, (if_neg full).symm, holds⟩
    · cases of with
      | null => exact absurd rfl full
      | items => rfl
    · exact Nat.lt_of_le_of_ne bounded fun same => full (of.count.trans same)

theorem store (of : arrays.Of array items cells) (allocated : array.items.isSome) (room : items.length < array.capacity)
    (holds : heap.Holds (cells ++ rest)) (item : Item) :
    ∃ stored after, arrays.store heap array item = some after ∧ arrays.Of array items stored ∧
      arrays.Of { array with count := array.count + 1 } (items ++ [item]) stored ∧ after.Holds (stored ++ rest) := by
  cases of with
  | null => cases allocated
  | @items block capacity written items taken bounded positive =>
    obtain ⟨after, stored, kept⟩ := holds.write
      (arrays.pack capacity (written.take items.length ++ item :: written.drop (items.length + 1)))
    rw [taken] at stored kept
    have long (tail : List Item) : (items ++ item :: tail).take (items ++ [item]).length = items ++ [item] := by
      rw [List.append_cons items item tail, List.take_left]
    have length : (items ++ [item]).length = items.length + 1 := by rw [List.length_append, List.length_singleton]
    have next : arrays.Of ⟨some block, (items ++ [item]).length, capacity⟩ (items ++ [item]) _ :=
      .items (long (written.drop (items.length + 1))) (length ▸ room) positive
    rw [length] at next
    refine ⟨_, after, ?_, .items List.take_left bounded positive, next, kept⟩
    simp only [Arrays.store, Option.bind_eq_bind, Option.bind_some, read_ok holds (List.mem_cons_self ..), if_pos room, taken]
    exact stored

theorem read (of : arrays.Of array items cells) (holds : heap.Holds (cells ++ rest)) (allocated : array.items.isSome) :
    ∃ written, arrays.read heap array.items = some (array.capacity, written) ∧ written.take items.length = items := by
  cases of with
  | null => cases allocated
  | items taken => exact ⟨_, read_ok holds (List.mem_cons_self ..), taken⟩

theorem used (of : arrays.Of array items cells) (holds : heap.Holds (cells ++ rest)) :
    arrays.used heap array = some items := by
  cases of with
  | null => rfl
  | @items block capacity written items taken bounded positive =>
    by_cases empty : items.length = 0
    · rw [Arrays.used, if_pos empty, List.length_eq_zero_iff.mp empty]
    · have long : items.length ≤ written.length := by
        rw [← taken]
        exact List.length_take_le' _ _
      rw [Arrays.used, if_neg empty]
      simp only [read_ok holds (List.mem_cons_self ..), Option.bind_eq_bind, Option.bind_some, if_pos long, taken]

theorem pop (of : arrays.Of array (items ++ [item]) cells) :
    arrays.Of { array with count := items.length } items cells := by
  generalize same : items ++ [item] = all at of
  cases of with
  | null => exact absurd same (by simp)
  | @items block capacity written all taken bounded positive =>
    subst same
    rw [List.length_append, List.length_singleton] at taken bounded
    refine .items ?_ (Nat.le_of_succ_le bounded) positive
    rw [← Nat.min_eq_left (Nat.le_succ items.length), ← List.take_take, taken, List.take_left]

theorem free (of : arrays.Of array items cells) (holds : heap.Holds (cells ++ rest)) :
    ∃ after, heap.freePtr array.items = some after ∧ after.Holds rest := by
  cases of with
  | null => exact ⟨heap, rfl, holds⟩
  | items => exact Heap.Holds.free holds

end Of

end Arrays
