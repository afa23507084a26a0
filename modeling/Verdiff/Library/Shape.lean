import Mathlib.Data.Nat.Fib.Basic
import Mathlib.Data.Nat.Log

/-! Height-balanced binary trees, seen as a height and a number of nodes.

Where the subtrees of every node differ in height by at most one, a tree of some height has
at least a Fibonacci number of nodes, so the height is logarithmic in the number of nodes.
-/

set_option autoImplicit false

namespace Shape

/-- The heights and sizes of height-balanced trees. -/
inductive Balanced : Nat → Nat → Prop where
  | null : Balanced 0 0
  | node {h k m n : Nat} : Balanced h m → Balanced k n → h ≤ k + 1 → k ≤ h + 1 →
      Balanced (1 + max h k) (m + n + 1)

theorem Balanced.fib_le {h n : Nat} (balanced : Balanced h n) : Nat.fib (h + 2) ≤ n + 1 := by
  induction balanced with
  | null => decide
  | @node h k m n _ _ leftHigh rightHigh ihLeft ihRight =>
    have split : ∀ j, Nat.fib (1 + j + 2) = Nat.fib (j + 1) + Nat.fib (j + 2) := by
      intro j
      rw [Nat.add_comm 1 j]
      exact Nat.fib_add_two
    rcases Nat.le_total h k with lower | lower
    · -- The lower subtree lacks at most one level.
      have below : Nat.fib (k + 1) ≤ Nat.fib (h + 2) := Nat.fib_mono (by omega)
      rw [Nat.max_eq_right lower, split]
      omega
    · have below : Nat.fib (h + 1) ≤ Nat.fib (k + 2) := Nat.fib_mono (by omega)
      rw [Nat.max_eq_left lower, split]
      omega

theorem two_pow_half_le_fib (h : Nat) : 2 ^ (h / 2) ≤ Nat.fib (h + 2) := by
  induction h using Nat.strong_induction_on with
  | _ h ih =>
    match h with
    | 0 => decide
    | 1 => decide
    | h + 2 =>
      have step := ih h (by omega)
      have grows : Nat.fib (h + 2) ≤ Nat.fib (h + 2 + 1) := Nat.fib_le_fib_succ
      rw [show (h + 2) / 2 = h / 2 + 1 by omega, Nat.pow_succ, Nat.fib_add_two]
      omega

theorem Balanced.height_le_log {h n : Nat} (balanced : Balanced h n) : h ≤ 2 * Nat.log 2 (n + 1) + 1 := by
  have enough : 2 ^ (h / 2) ≤ n + 1 := (two_pow_half_le_fib h).trans balanced.fib_le
  have half : h / 2 ≤ Nat.log 2 (n + 1) := Nat.le_log_of_pow_le (by decide) enough
  omega

end Shape
