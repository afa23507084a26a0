import Mathlib.Logic.Function.Basic

/-! Memory as a function of the offset, seen through pointers into it.

What a routine may look at is said by agreement: a routine that gives the same result for two
memories which agree on their first cells has not looked behind them.
-/

set_option autoImplicit false

namespace Cells

variable {α : Type}

def shift (cells : Nat → α) (offset : Nat) : Nat → α := fun i => cells (offset + i)

def copy (cells : Nat → α) (offset : Nat) (source : Nat → α) (length : Nat) : Nat → α :=
  fun i => if offset ≤ i ∧ i < offset + length then source (i - offset) else cells i

def Agree (length : Nat) (first second : Nat → α) : Prop := ∀ i < length, first i = second i

@[simp] theorem shift_zero (cells : Nat → α) : shift cells 0 = cells := by
  funext i
  simp [shift]

theorem shift_shift (cells : Nat → α) (first second : Nat) :
    shift (shift cells first) second = shift cells (first + second) := by
  funext i
  simp [shift, Nat.add_assoc]

theorem copy_inside {cells source : Nat → α} {offset length i : Nat} (inside : i < length) :
    copy cells offset source length (offset + i) = source i := by
  rw [copy, if_pos ⟨Nat.le_add_right _ _, by omega⟩, Nat.add_sub_cancel_left]

theorem copy_below {cells source : Nat → α} {offset length i : Nat} (below : i < offset) :
    copy cells offset source length i = cells i := if_neg (by omega)

theorem copy_above {cells source : Nat → α} {offset length i : Nat} (above : offset + length ≤ i) :
    copy cells offset source length i = cells i := if_neg (by omega)

namespace Agree

variable {first second third : Nat → α} {length shorter offset : Nat}

theorem refl (length : Nat) (cells : Nat → α) : Agree length cells cells := fun _ _ => rfl

theorem symm (agree : Agree length first second) : Agree length second first := fun i below =>
  (agree i below).symm

theorem trans (left : Agree length first second) (right : Agree length second third) :
    Agree length first third := fun i below => (left i below).trans (right i below)

theorem mono (agree : Agree length first second) (less : shorter ≤ length) : Agree shorter first second :=
  fun i below => agree i (Nat.lt_of_lt_of_le below less)

theorem shift (agree : Agree length first second) (fits : offset + shorter ≤ length) :
    Agree shorter (Cells.shift first offset) (Cells.shift second offset) := fun i below =>
  agree (offset + i) (by omega)

theorem copy (agree : Agree offset first second) (added : Agree length third (Cells.shift second offset)) :
    Agree (offset + length) (Cells.copy first offset third length) second := by
  intro i below
  rcases Nat.lt_or_ge i offset with before | behind
  · rw [copy_below before, agree i before]
  · obtain ⟨j, rfl⟩ := Nat.exists_eq_add_of_le behind
    rw [copy_inside (by omega), added j (by omega), Cells.shift]

end Agree

end Cells
