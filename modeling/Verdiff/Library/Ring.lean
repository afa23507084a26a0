import Mathlib.Data.List.Range
import Mathlib.Data.Nat.ModEq

/-! The contents of a ring buffer, read from its head around the end of the array. -/

set_option autoImplicit false

namespace Ring

variable {α : Type}

/-- The `count` entries from `head` on; positions wrap at the length of the array. -/
def entries (items : List α) (head count : Nat) : List α :=
  (List.range count).filterMap fun offset => items[(head + offset) % items.length]?

theorem length_entries (items : List α) (head count : Nat) (nonempty : 0 < items.length) :
    (entries items head count).length = count := by
  have defined : ∀ offset ∈ List.range count, (items[(head + offset) % items.length]?).isSome := by
    intro offset _
    simp [Nat.mod_lt _ nonempty]
  unfold entries
  rw [List.length_filterMap_eq_countP, List.countP_eq_length.mpr defined, List.length_range]

theorem position_ne (head : Nat) {size first second : Nat} (ordered : first < second) (bounded : second < size) :
    (head + first) % size ≠ (head + second) % size := by
  -- Two offsets below the length of the array never share a position.
  intro same
  have congruent : first ≡ second [MOD size] := Nat.ModEq.add_left_cancel' head same
  have := congruent.eq_of_lt_of_lt (by omega) bounded
  omega

theorem entries_push (items : List α) (head count : Nat) (item : α) (room : count < items.length) :
    entries (items.set ((head + count) % items.length) item) head (count + 1) =
      entries items head count ++ [item] := by
  have behind : (head + count) % items.length < items.length := Nat.mod_lt _ (by omega)
  simp only [entries, List.range_succ, List.filterMap_append, List.length_set]
  congr 1
  · apply List.filterMap_congr
    intro offset member
    have := position_ne head (List.mem_range.mp member) room
    rw [List.getElem?_set_ne (Ne.symm this)]
  · simp [behind]

theorem entries_pop (items : List α) (head count : Nat) (bounded : head < items.length) :
    entries items head (count + 1) =
      items[head] :: entries items ((head + 1) % items.length) count := by
  -- The first entry is the one at the head; the rest start one position later.
  have first : items[head % items.length]? = some items[head] := by
    rw [Nat.mod_eq_of_lt bounded, List.getElem?_eq_getElem bounded]
  simp only [entries, List.range_succ_eq_map, List.filterMap_cons, Nat.add_zero, first,
    List.filterMap_map]
  congr 1
  apply List.filterMap_congr
  intro offset _
  simp only [Function.comp_apply, Nat.mod_add_mod]
  congr 2
  omega

end Ring
