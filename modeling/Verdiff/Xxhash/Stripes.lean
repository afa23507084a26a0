import Verdiff.Xxhash.OneShot

/-! The accumulators after so many stripes of a stream, which know of no block of the loop, no
chunk and no buffer. The hash of a long input is read from them.
-/

set_option autoImplicit false

namespace Verdiff
open Cells

section
variable (build : XxhBuild) (stream secret : Memory) (secretLimit perBlock : Nat)

def absorbStripe (stripe place : Nat) (acc : Acc) : Acc :=
  build.accumulate512 acc (shift stream (stripe * 64)) (shift secret (place * 8))

def closeBlock (acc : Acc) : Acc := build.scrambleAcc acc (shift secret secretLimit)

def accAfter (stripes : Nat) : Acc :=
  Rounds.after (absorbStripe build stream secret) (closeBlock build secret secretLimit) perBlock xxh3InitAcc stripes

variable {build stream secret secretLimit perBlock} {input : Memory} {acc : Acc} {stripe place nbStripes : Nat}

theorem xxh3Accumulate_stretch (round : Nat) (agree : Agree (nbStripes * 64) input (shift stream (stripe * 64))) :
    xxh3Accumulate build acc input (shift secret (round * 8)) nbStripes =
      Rounds.stretch (absorbStripe build stream secret) stripe round acc nbStripes := by
  induction nbStripes with
  | zero => rfl
  | succ n ih =>
    have earlier := ih (agree.mono (by omega))
    have stripeAgrees : Agree 64 (shift input (n * 64)) (shift stream ((stripe + n) * 64)) := by
      rw [Nat.add_mul, ← shift_shift]
      exact agree.shift (by omega)
    rw [xxh3Accumulate, earlier, Rounds.stretch, absorbStripe, shift_shift, Nat.add_mul round,
      build.accumulate_reads _ stripeAgrees (.refl 64 _)]

theorem accAfter_within (agree : Agree (nbStripes * 64) input (shift stream (stripe * 64)))
    (within : stripe % perBlock + nbStripes < perBlock) :
    xxh3Accumulate build (accAfter build stream secret secretLimit perBlock stripe) input
        (shift secret (stripe % perBlock * 8)) nbStripes =
      accAfter build stream secret secretLimit perBlock (stripe + nbStripes) := by
  -- Stripes that end inside their block.
  rw [xxh3Accumulate_stretch _ agree, accAfter, accAfter, Rounds.after_within _ _ _ within]

theorem accAfter_block (agree : Agree (nbStripes * 64) input (shift stream (stripe * 64))) (some : 0 < nbStripes)
    (fills : stripe % perBlock + nbStripes = perBlock) :
    build.scrambleAcc (xxh3Accumulate build (accAfter build stream secret secretLimit perBlock stripe) input
        (shift secret (stripe % perBlock * 8)) nbStripes) (shift secret secretLimit) =
      accAfter build stream secret secretLimit perBlock (stripe + nbStripes) := by
  -- Stripes that complete their block.
  rw [xxh3Accumulate_stretch _ agree, accAfter, accAfter, Rounds.after_round _ _ _ some fills, closeBlock]

/-! ## Long inputs -/

theorem hashLongBlocks_spec {secretSize : Nat} (positive : 0 < perBlock) (blocks : Nat) :
    hashLongBlocks build xxh3InitAcc input secret secretSize perBlock (64 * perBlock) blocks =
      accAfter build input secret (secretSize - 64) perBlock (blocks * perBlock) := by
  induction blocks with
  | zero => rw [Nat.zero_mul]; rfl
  | succ n ih =>
    have atStart : n * perBlock % perBlock = 0 := Nat.mul_mod_left n perBlock
    have block := @accAfter_block build input secret (secretSize - 64) perBlock (shift input (n * (64 * perBlock)))
      (n * perBlock) perBlock (by rw [Nat.mul_left_comm, Nat.mul_comm 64]; exact .refl _ _) positive (by omega)
    rw [atStart, Nat.zero_mul, shift_zero] at block
    rw [hashLongBlocks, ih, Nat.add_mul n 1, Nat.one_mul]
    exact block

/-- All stripes but the last are absorbed in blocks; the last one, which may overlap the one
before it, comes with a part of the secret of its own. -/
theorem xxh3HashLongInternalLoop_spec {len secretSize : Nat} (enough : 72 ≤ secretSize) :
    xxh3HashLongInternalLoop build xxh3InitAcc input len secret secretSize =
      build.accumulate512 (accAfter build input secret (secretSize - 64) ((secretSize - 64) / 8) ((len - 1) / 64))
        (shift input (len - 64)) (shift secret (secretSize - 64 - 7)) := by
  obtain ⟨perBlock, perBlockIs⟩ : ∃ perBlock, perBlock = (secretSize - 64) / 8 := ⟨_, rfl⟩
  have positive : 0 < perBlock := by omega
  have blocks : (len - 1) / (64 * perBlock) = (len - 1) / 64 / perBlock := (Nat.div_div_eq_div_mul _ _ _).symm
  have stripes : ((len - 1) - 64 * perBlock * ((len - 1) / 64 / perBlock)) / 64 = (len - 1) / 64 % perBlock := by
    rw [Nat.mul_assoc, Nat.sub_mul_div, Nat.mod_eq_sub]
  have atStart : (len - 1) / 64 / perBlock * perBlock % perBlock = 0 := Nat.mul_mod_left _ _
  have rest := @accAfter_within build input secret (secretSize - 64) perBlock
    (shift input ((len - 1) / 64 / perBlock * (64 * perBlock))) ((len - 1) / 64 / perBlock * perBlock)
    ((len - 1) / 64 % perBlock) (by rw [Nat.mul_left_comm, Nat.mul_comm 64]; exact .refl _ _)
    (by rw [atStart, Nat.zero_add]; exact Nat.mod_lt _ positive)
  rw [atStart, Nat.zero_mul, shift_zero, Nat.div_add_mod'] at rest
  simp only [xxh3HashLongInternalLoop, ← perBlockIs, blocks, stripes, hashLongBlocks_spec positive, rest]

end

end Verdiff
