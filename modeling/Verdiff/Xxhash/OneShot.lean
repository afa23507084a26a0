import Verdiff.Xxhash.Versions
import Verdiff.Library.Rounds

/-! XXH3 of a whole input.

A stripe has 64 bytes, and 8 bytes of the secret are consumed with it. The secret has at least
136 bytes, and an input of up to 240 bytes is not cut into stripes.
-/

set_option autoImplicit false

namespace Verdiff
open Cells

section
variable (build : XxhBuild)

def xxh3Mul128Fold64 (lhs rhs : UInt64) : UInt64 :=
  let product := build.mult64to128 lhs rhs
  product.1 ^^^ product.2

/-! ## Short inputs -/

def xxh3Len1to3_64b (input : Memory) (len : Nat) (secret : Memory) (seed : UInt64) : UInt64 :=
  let c1 := input 0
  let c2 := input (len >>> 1)
  let c3 := input (len - 1)
  let combined := c1.toUInt32 <<< 16 ||| c2.toUInt32 <<< 24 ||| c3.toUInt32 <<< 0 ||| (UInt32.ofNat len) <<< 8
  let bitflip := (xxhReadLE32 secret ^^^ xxhReadLE32 (shift secret 4)).toUInt64 + seed
  let keyed := combined.toUInt64 ^^^ bitflip
  xxh64Avalanche keyed

def xxh3Len4to8_64b (input : Memory) (len : Nat) (secret : Memory) (seed : UInt64) : UInt64 :=
  let seed := seed ^^^ (xxhSwap32 seed.toUInt32).toUInt64 <<< 32
  let input1 := xxhReadLE32 input
  let input2 := xxhReadLE32 (shift input (len - 4))
  let bitflip := (xxhReadLE64 (shift secret 8) ^^^ xxhReadLE64 (shift secret 16)) - seed
  let input64 := input2.toUInt64 + input1.toUInt64 <<< 32
  let keyed := input64 ^^^ bitflip
  xxh3Rrmxmx keyed (.ofNat len)

def xxh3Len9to16_64b (input : Memory) (len : Nat) (secret : Memory) (seed : UInt64) : UInt64 :=
  let bitflip1 := (xxhReadLE64 (shift secret 24) ^^^ xxhReadLE64 (shift secret 32)) + seed
  let bitflip2 := (xxhReadLE64 (shift secret 40) ^^^ xxhReadLE64 (shift secret 48)) - seed
  let inputLo := xxhReadLE64 input ^^^ bitflip1
  let inputHi := xxhReadLE64 (shift input (len - 8)) ^^^ bitflip2
  let acc := .ofNat len + xxhSwap64 inputLo + inputHi + xxh3Mul128Fold64 build inputLo inputHi
  xxh3Avalanche acc

def xxh3Len0to16_64b (input : Memory) (len : Nat) (secret : Memory) (seed : UInt64) : UInt64 :=
  if 8 < len then xxh3Len9to16_64b build input len secret seed
  else if 4 ≤ len then xxh3Len4to8_64b input len secret seed
  else if len ≠ 0 then xxh3Len1to3_64b input len secret seed
  else xxh64Avalanche (seed ^^^ (xxhReadLE64 (shift secret 56) ^^^ xxhReadLE64 (shift secret 64)))

def xxh3Mix16B (input secret : Memory) (seed64 : UInt64) : UInt64 :=
  let inputLo := xxhReadLE64 input
  let inputHi := xxhReadLE64 (shift input 8)
  xxh3Mul128Fold64 build (inputLo ^^^ (xxhReadLE64 secret + seed64)) (inputHi ^^^ (xxhReadLE64 (shift secret 8) - seed64))

def xxh3Len17to128_64b (input : Memory) (len : Nat) (secret : Memory) (seed : UInt64) : UInt64 :=
  let acc := .ofNat len * xxhPrime64_1
  let acc :=
    if 32 < len then
      let acc :=
        if 64 < len then
          let acc :=
            if 96 < len then
              let acc := acc + xxh3Mix16B build (shift input 48) (shift secret 96) seed
              acc + xxh3Mix16B build (shift input (len - 64)) (shift secret 112) seed
            else acc
          let acc := acc + xxh3Mix16B build (shift input 32) (shift secret 64) seed
          acc + xxh3Mix16B build (shift input (len - 48)) (shift secret 80) seed
        else acc
      let acc := acc + xxh3Mix16B build (shift input 16) (shift secret 32) seed
      acc + xxh3Mix16B build (shift input (len - 32)) (shift secret 48) seed
    else acc
  let acc := acc + xxh3Mix16B build (shift input 0) (shift secret 0) seed
  let acc := acc + xxh3Mix16B build (shift input (len - 16)) (shift secret 16) seed
  xxh3Avalanche acc

def xxh3Len129to240_64b (input : Memory) (len : Nat) (secret : Memory) (seed : UInt64) : UInt64 :=
  let acc := .ofNat len * xxhPrime64_1
  let nbRounds := len / 16
  let acc := (List.range 8).foldl
    (fun acc i => acc + xxh3Mix16B build (shift input (16 * i)) (shift secret (16 * i)) seed) acc
  let accEnd := xxh3Mix16B build (shift input (len - 16)) (shift secret (136 - 17)) seed
  let acc := xxh3Avalanche acc
  let accEnd := (List.range' 8 (nbRounds - 8)).foldl
    (fun accEnd i => accEnd + xxh3Mix16B build (shift input (16 * i)) (shift secret (16 * (i - 8) + 3)) seed) accEnd
  xxh3Avalanche (acc + accEnd)

/-! ## Long inputs -/

def xxh3Accumulate (acc : Acc) (input secret : Memory) : Nat → Acc
  | 0 => acc
  | n + 1 => build.accumulate512 (xxh3Accumulate acc input secret n) (shift input (n * 64)) (shift secret (n * 8))

def hashLongBlocks (acc : Acc) (input secret : Memory) (secretSize nbStripesPerBlock blockLen : Nat) : Nat → Acc
  | 0 => acc
  | n + 1 =>
    let acc := hashLongBlocks acc input secret secretSize nbStripesPerBlock blockLen n
    let acc := xxh3Accumulate build acc (shift input (n * blockLen)) secret nbStripesPerBlock
    build.scrambleAcc acc (shift secret (secretSize - 64))

def xxh3HashLongInternalLoop (acc : Acc) (input : Memory) (len : Nat) (secret : Memory) (secretSize : Nat) : Acc :=
  let nbStripesPerBlock := (secretSize - 64) / 8
  let blockLen := 64 * nbStripesPerBlock
  let nbBlocks := (len - 1) / blockLen
  let acc := hashLongBlocks build acc input secret secretSize nbStripesPerBlock blockLen nbBlocks
  let nbStripes := ((len - 1) - blockLen * nbBlocks) / 64
  let acc := xxh3Accumulate build acc (shift input (nbBlocks * blockLen)) secret nbStripes
  build.accumulate512 acc (shift input (len - 64)) (shift secret (secretSize - 64 - 7))

def xxh3Mix2Accs (acc0 acc1 : UInt64) (secret : Memory) : UInt64 :=
  xxh3Mul128Fold64 build (acc0 ^^^ xxhReadLE64 secret) (acc1 ^^^ xxhReadLE64 (shift secret 8))

def xxh3MergeAccs (acc : Acc) (secret : Memory) (start : UInt64) : UInt64 :=
  let result64 := (List.finRange 4).foldl (fun result64 i =>
    result64 + xxh3Mix2Accs build (acc.get (lowLane i)) (acc.get (highLane i)) (shift secret (16 * i))) start
  xxh3Avalanche result64

def xxh3FinalizeLong64b (acc : Acc) (secret : Memory) (len : UInt64) : UInt64 :=
  xxh3MergeAccs build acc (shift secret 11) (len * xxhPrime64_1)

def xxh3InitAcc : Acc :=
  #v[xxhPrime32_3.toUInt64, xxhPrime64_1, xxhPrime64_2, xxhPrime64_3,
    xxhPrime64_4, xxhPrime32_2.toUInt64, xxhPrime64_5, xxhPrime32_1.toUInt64]

def xxh3HashLong64bInternal (input : Memory) (len : Nat) (secret : Memory) (secretSize : Nat) : UInt64 :=
  let acc := xxh3HashLongInternalLoop build xxh3InitAcc input len secret secretSize
  xxh3FinalizeLong64b build acc secret (.ofNat len)

def xxh3HashLong64bWithSecret (input : Memory) (len : Nat) (_seed64 : UInt64) (secret : Memory) (secretLen : Nat) :
    UInt64 :=
  xxh3HashLong64bInternal build input len secret secretLen

def xxh3HashLong64bDefault (input : Memory) (len : Nat) (_seed64 : UInt64) (_secret : Memory) (_secretLen : Nat) :
    UInt64 :=
  xxh3HashLong64bInternal build input len xxh3KSecret xxhSecretDefaultSize

/-! ## Entry points -/

def xxh3_64bitsInternal (input : Memory) (len : Nat) (seed64 : UInt64) (secret : Memory) (secretLen : Nat)
    (hashLong : Memory → Nat → UInt64 → Memory → Nat → UInt64) : UInt64 :=
  if len ≤ 16 then xxh3Len0to16_64b build input len secret seed64
  else if len ≤ 128 then xxh3Len17to128_64b build input len secret seed64
  else if len ≤ 240 then xxh3Len129to240_64b build input len secret seed64
  else hashLong input len seed64 secret secretLen

def xxh3_64bits (input : Memory) (length : Nat) : UInt64 :=
  xxh3_64bitsInternal build input length 0 xxh3KSecret xxhSecretDefaultSize (xxh3HashLong64bDefault build)

def xxh3_64bitsWithSecret (input : Memory) (length : Nat) (secret : Memory) (secretSize : Nat) : UInt64 :=
  xxh3_64bitsInternal build input length 0 secret secretSize (xxh3HashLong64bWithSecret build)

end

end Verdiff
