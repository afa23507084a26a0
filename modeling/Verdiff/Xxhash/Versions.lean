import Verdiff.Xxhash.Builds
import Verdiff.Library.Halves

/-! The versions compute the same words. -/

set_option autoImplicit false

namespace Verdiff
open Cells

theorem xxhMult32to64_toNat (x y : UInt64) : (xxhMult32to64 x y).toNat = (x.toNat % 2 ^ 32) * (y.toNat % 2 ^ 32) :=
  Halves.product_toNat x y

theorem mult64to128_portable : mult64to128Portable = mult64to128Wide := by
  -- The cross products do not overflow, as the comment in the source says.
  funext lhs rhs
  have high (x : UInt64) : x.toNat / 2 ^ 32 % 2 ^ 32 = x.toNat / 2 ^ 32 := Nat.mod_eq_of_lt (Halves.high_small x)
  have low (x : UInt64) : x.toNat % 2 ^ 32 < 2 ^ 32 := Nat.mod_lt _ (Nat.two_pow_pos 32)
  have boundHL := Halves.product_bound (Halves.high_small lhs) (low rhs)
  have boundLH := Halves.product_bound (low lhs) (Halves.high_small rhs)
  have boundLL := Halves.product_bound (low lhs) (low rhs)
  simp only [mult64to128Portable, mult64to128Wide]
  refine Prod.ext (UInt64.toNat_inj.mp ?_) (UInt64.toNat_inj.mp ?_)
  · rw [Halves.join_toNat _ (by rw [Halves.mask_toNat]; exact low _)]
    simp only [UInt64.toNat_add, Halves.mask_toNat, Halves.high_toNat, xxhMult32to64_toNat, Nat.mod_mod, high,
      UInt64.toNat_ofNat', Halves.product_halves lhs.toNat rhs.toNat]
    exact Halves.carried_low _ _ _ _
  · simp only [UInt64.toNat_add, Halves.mask_toNat, Halves.high_toNat, xxhMult32to64_toNat, Nat.mod_mod, high,
      UInt64.toNat_ofNat', Nat.shiftRight_eq_div_pow, Halves.product_halves lhs.toNat rhs.toNat]
    exact Halves.carried_high (by omega) boundLH (by omega)

/-! ## SSE2 -/

theorem acc_ext {first second : Acc} (same : ∀ lane : Fin 8, first.get lane = second.get lane) : first = second :=
  Vector.ext fun i below => same ⟨i, below⟩

theorem acc_put_self (acc : Acc) (lane : Fin 8) (value : UInt64) : (acc.put lane value).get lane = value :=
  Vector.getElem_set_self _

theorem acc_put_of_ne (acc : Acc) {lane other : Fin 8} (value : UInt64) (apart : other ≠ lane) :
    (acc.put lane value).get other = acc.get other :=
  Vector.getElem_set_ne _ _ fun same => apart (Fin.ext same.symm)

theorem lowLane_ne_highLane (i : Fin 4) : lowLane i ≠ highLane i := by
  intro same
  have := congrArg Fin.val same
  simp [lowLane, highLane] at this

theorem adjacentLane_low (i : Fin 4) : adjacentLane (lowLane i) = highLane i := by
  revert i
  decide

theorem adjacentLane_high (i : Fin 4) : adjacentLane (highLane i) = lowLane i := by
  revert i
  decide

theorem lanes_paired : List.finRange 8 = (List.finRange 4).flatMap fun i => [lowLane i, highLane i] := by decide

theorem lane_toNat (low high : UInt32) : (M128i.lane low high).toNat = high.toNat * 2 ^ 32 + low.toNat := by
  rw [M128i.lane, Halves.join_toNat]
  · simp only [UInt32.toNat_toUInt64]
    rw [Nat.mod_eq_of_lt high.toNat_lt]
  · simpa using low.toNat_lt

theorem lane_low (low high : UInt32) : (M128i.lane low high).toUInt32 = low := by
  apply UInt32.toNat_inj.mp
  rw [UInt64.toNat_toUInt32, lane_toNat]
  have := low.toNat_lt
  omega

theorem lane_halves (x : UInt64) : M128i.lane x.toUInt32 (x >>> 32).toUInt32 = x := by
  apply UInt64.toNat_inj.mp
  rw [lane_toNat, UInt64.toNat_toUInt32, UInt64.toNat_toUInt32, Halves.high_toNat]
  have := x.toNat_lt
  omega

theorem lowLane_offset (i : Fin 4) : (lowLane i : Nat) * 8 = 16 * i := by
  simp only [lowLane]
  omega

theorem highLane_offset (i : Fin 4) : (highLane i : Nat) * 8 = 16 * i + 8 := by
  simp only [highLane]
  omega

theorem accumulateSse2Step_eq (acc : Acc) (input secret : Memory) (i : Fin 4) :
    accumulateSse2Step acc input secret i =
      xxh3ScalarRound (xxh3ScalarRound acc input secret (lowLane i)) input secret (highLane i) := by
  have apart := lowLane_ne_highLane i
  refine acc_ext fun lane => ?_
  simp only [accumulateSse2Step, xxh3ScalarRound, storeAcc, loadAcc, adjacentLane_low, adjacentLane_high,
    M128i.loadu, M128i.xor, M128i.addEpi64, M128i.mulEpu32, M128i.shuffleEpi32, M128i.part, lane_low, lane_halves,
    shift_shift, lowLane_offset, highLane_offset, xxhMult32to64Add64, xxhMult32to64]
  by_cases high : lane = highLane i
  · subst high
    simp only [acc_put_self, acc_put_of_ne _ _ apart.symm, acc_put_of_ne _ _ apart, Halves.low_low]
  by_cases low : lane = lowLane i
  · subst low
    simp only [acc_put_self, acc_put_of_ne _ _ apart, acc_put_of_ne _ _ apart.symm, Halves.low_low]
    -- the vector version adds the neighbour's word to the accumulator before the product
    ac_rfl
  · simp only [acc_put_of_ne _ _ high, acc_put_of_ne _ _ low]

theorem xxh3Accumulate512Sse2_eq : xxh3Accumulate512Sse2 = xxh3Accumulate512Scalar := by
  funext acc input secret
  simp only [xxh3Accumulate512Sse2, xxh3Accumulate512Scalar, lanes_paired, List.foldl_flatMap, accumulateSse2Step_eq,
    List.foldl_cons, List.foldl_nil]

theorem scrambleSse2Step_eq (acc : Acc) (secret : Memory) (i : Fin 4) :
    scrambleSse2Step acc secret i =
      xxh3ScalarScrambleRound (xxh3ScalarScrambleRound acc secret (lowLane i)) secret (highLane i) := by
  have apart := lowLane_ne_highLane i
  simp only [scrambleSse2Step, xxh3ScalarScrambleRound, storeAcc, loadAcc, M128i.loadu, M128i.xor, M128i.addEpi64,
    M128i.mulEpu32, M128i.shuffleEpi32, M128i.part, M128i.srliEpi64, M128i.slliEpi64, M128i.set1Epi32, lane_low,
    shift_shift, lowLane_offset, highLane_offset, xxhXorshift64, acc_put_of_ne _ _ apart.symm, Halves.products_join]

theorem xxh3ScrambleAccSse2_eq : xxh3ScrambleAccSse2 = xxh3ScrambleAccScalar := by
  funext acc secret
  simp only [xxh3ScrambleAccSse2, xxh3ScrambleAccScalar, lanes_paired, List.foldl_flatMap, scrambleSse2Step_eq,
    List.foldl_cons, List.foldl_nil]

/-! ## Builds -/

theorem xxh3Accumulate512Scalar_reads (acc : Acc) {input input' secret secret' : Memory}
    (inputs : Agree 64 input input') (secrets : Agree 64 secret secret') :
    xxh3Accumulate512Scalar acc input secret = xxh3Accumulate512Scalar acc input' secret' := by
  have round (acc : Acc) (lane : Fin 8) : xxh3ScalarRound acc input secret lane = xxh3ScalarRound acc input' secret' lane := by
    have data : xxhReadLE64 (shift input (lane * 8)) = xxhReadLE64 (shift input' (lane * 8)) :=
      xxhReadLE64_agree (inputs.shift (by omega))
    have key : xxhReadLE64 (shift secret (lane * 8)) = xxhReadLE64 (shift secret' (lane * 8)) :=
      xxhReadLE64_agree (secrets.shift (by omega))
    simp only [xxh3ScalarRound, data, key]
  simp only [xxh3Accumulate512Scalar, round]

theorem xxh3ScrambleAccScalar_reads (acc : Acc) {secret secret' : Memory} (secrets : Agree 64 secret secret') :
    xxh3ScrambleAccScalar acc secret = xxh3ScrambleAccScalar acc secret' := by
  have round (acc : Acc) (lane : Fin 8) : xxh3ScalarScrambleRound acc secret lane = xxh3ScalarScrambleRound acc secret' lane := by
    have key : xxhReadLE64 (shift secret (lane * 8)) = xxhReadLE64 (shift secret' (lane * 8)) :=
      xxhReadLE64_agree (secrets.shift (by omega))
    simp only [xxh3ScalarScrambleRound, key]
  simp only [xxh3ScrambleAccScalar, round]

/-- Compiled for a processor of 32 bits without vectors. -/
def portableBuild : XxhBuild where
  mult64to128 := mult64to128Portable
  accumulate512 := xxh3Accumulate512Scalar
  scrambleAcc := xxh3ScrambleAccScalar
  accumulate_reads := fun acc => xxh3Accumulate512Scalar_reads acc
  scramble_reads := fun acc => xxh3ScrambleAccScalar_reads acc

/-- Compiled for x86-64, whose compilers have SSE2 and `__uint128_t`. -/
def sse2Build : XxhBuild where
  mult64to128 := mult64to128Wide
  accumulate512 := xxh3Accumulate512Sse2
  scrambleAcc := xxh3ScrambleAccSse2
  accumulate_reads := fun acc _ _ _ _ inputs secrets => by
    rw [xxh3Accumulate512Sse2_eq]
    exact xxh3Accumulate512Scalar_reads acc inputs secrets
  scramble_reads := fun acc _ _ secrets => by
    rw [xxh3ScrambleAccSse2_eq]
    exact xxh3ScrambleAccScalar_reads acc secrets

theorem sse2Build_eq : sse2Build = portableBuild := by
  simp only [sse2Build, portableBuild, mult64to128_portable, xxh3Accumulate512Sse2_eq, xxh3ScrambleAccSse2_eq]

end Verdiff
