import Mathlib.Tactic.Ring
import Mathlib.Data.UInt

/-! The two halves of a word of 64 bits, and products put together from products of halves. -/

set_option autoImplicit false

namespace Halves

theorem low_toNat (x : UInt64) : x.toUInt32.toUInt64.toNat = x.toNat % 2 ^ 32 := by
  rw [UInt32.toNat_toUInt64, UInt64.toNat_toUInt32]

theorem high_toNat (x : UInt64) : (x >>> 32).toNat = x.toNat / 2 ^ 32 := by
  simp [Nat.shiftRight_eq_div_pow]

theorem mask_toNat (x : UInt64) : (x &&& 0xFFFFFFFF).toNat = x.toNat % 2 ^ 32 := by
  rw [UInt64.toNat_and]
  exact Nat.and_two_pow_sub_one_eq_mod x.toNat 32

theorem raised_toNat (x : UInt64) : (x <<< 32).toNat = x.toNat % 2 ^ 32 * 2 ^ 32 := by
  simp [Nat.shiftLeft_eq]
  omega

theorem low_low (x : UInt64) : x.toUInt32.toUInt64.toUInt32 = x.toUInt32 := UInt32.toUInt32_toUInt64 _

theorem high_small (x : UInt64) : x.toNat / 2 ^ 32 < 2 ^ 32 := by
  have := x.toNat_lt
  omega

theorem join_toNat (high : UInt64) {low : UInt64} (small : low.toNat < 2 ^ 32) :
    (high <<< 32 ||| low).toNat = high.toNat % 2 ^ 32 * 2 ^ 32 + low.toNat := by
  rw [UInt64.toNat_or, raised_toNat, ← Nat.shiftLeft_eq, Nat.shiftLeft_add_eq_or_of_lt small]

theorem product_bound {x y : Nat} (smallX : x < 2 ^ 32) (smallY : y < 2 ^ 32) : x * y ≤ 2 ^ 64 - 2 ^ 33 + 1 :=
  calc x * y ≤ (2 ^ 32 - 1) * (2 ^ 32 - 1) := Nat.mul_le_mul (by omega) (by omega)
    _ = 2 ^ 64 - 2 ^ 33 + 1 := rfl

theorem product_toNat (x y : UInt64) :
    (x.toUInt32.toUInt64 * y.toUInt32.toUInt64).toNat = (x.toNat % 2 ^ 32) * (y.toNat % 2 ^ 32) := by
  have bound := product_bound (Nat.mod_lt x.toNat (Nat.two_pow_pos 32)) (Nat.mod_lt y.toNat (Nat.two_pow_pos 32))
  rw [UInt64.toNat_mul, low_toNat, low_toNat]
  exact Nat.mod_eq_of_lt (by omega)

theorem products_join (x : UInt64) (y : UInt32) :
    x.toUInt32.toUInt64 * y.toUInt64 + ((x >>> 32).toUInt32.toUInt64 * y.toUInt64) <<< 32 = x * y.toUInt64 := by
  -- The products of both halves with a half, put together.
  apply UInt64.toNat_inj.mp
  have halves : x.toNat * y.toNat = x.toNat % 2 ^ 32 * y.toNat + x.toNat / 2 ^ 32 * y.toNat * 2 ^ 32 := by
    conv_lhs => rw [← Nat.mod_add_div x.toNat (2 ^ 32)]
    ring
  simp only [UInt64.toNat_add, raised_toNat, UInt64.toNat_mul, UInt32.toNat_toUInt64, UInt64.toNat_toUInt32, high_toNat,
    Nat.mod_eq_of_lt (high_small x), halves]
  generalize x.toNat % 2 ^ 32 * y.toNat = low
  generalize x.toNat / 2 ^ 32 * y.toNat = high
  omega

/-! The four products of halves, from the high one to the low one. The sum in the middle is what
they carry between them, and each half of the whole product is read from it. Sums wrap around.
-/

theorem carried_low (high crossA crossB low : Nat) :
    ((low / 2 ^ 32 + crossA % 2 ^ 32) % 2 ^ 64 + crossB) % 2 ^ 64 % 2 ^ 32 * 2 ^ 32 + low % 2 ^ 32 =
      (high * 2 ^ 64 + (crossA + crossB) * 2 ^ 32 + low) % 2 ^ 64 := by omega

theorem carried_high {high crossA crossB low : Nat} (boundA : crossA < 2 ^ 64)
    (boundB : crossB ≤ 2 ^ 64 - 2 ^ 33 + 1) (boundL : low < 2 ^ 64) :
    ((crossA / 2 ^ 32 + ((low / 2 ^ 32 + crossA % 2 ^ 32) % 2 ^ 64 + crossB) % 2 ^ 64 / 2 ^ 32) % 2 ^ 64 + high) % 2 ^ 64 =
      (high * 2 ^ 64 + (crossA + crossB) * 2 ^ 32 + low) / 2 ^ 64 % 2 ^ 64 := by
  have unwrapped : (low / 2 ^ 32 + crossA % 2 ^ 32) % 2 ^ 64 = low / 2 ^ 32 + crossA % 2 ^ 32 :=
    Nat.mod_eq_of_lt (by omega)
  -- the sum in the middle fits, since a product of halves leaves room for two more halves
  have middle : (low / 2 ^ 32 + crossA % 2 ^ 32 + crossB) % 2 ^ 64 = low / 2 ^ 32 + crossA % 2 ^ 32 + crossB :=
    Nat.mod_eq_of_lt (by omega)
  rw [unwrapped, middle]
  omega

theorem product_halves (x y : Nat) :
    x * y = x / 2 ^ 32 * (y / 2 ^ 32) * 2 ^ 64 +
      (x / 2 ^ 32 * (y % 2 ^ 32) + x % 2 ^ 32 * (y / 2 ^ 32)) * 2 ^ 32 + x % 2 ^ 32 * (y % 2 ^ 32) := by
  conv_lhs => rw [← Nat.mod_add_div x (2 ^ 32), ← Nat.mod_add_div y (2 ^ 32)]
  ring

end Halves
