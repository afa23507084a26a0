import Verdiff.Xxhash.Kernel

/-! The routines of XXH3 that are compiled in several versions: the long multiplication and
the two that work on the accumulators, for any processor and for SSE2.
-/

set_option autoImplicit false

namespace Verdiff
open Cells

abbrev Acc := Vector UInt64 8

def Acc.put (acc : Acc) (lane : Fin 8) (value : UInt64) : Acc := acc.set lane value

/-- The versions a build has chosen, which read a stripe of 64 bytes each. -/
structure XxhBuild where
  mult64to128 : UInt64 → UInt64 → UInt64 × UInt64
  accumulate512 : Acc → Memory → Memory → Acc
  scrambleAcc : Acc → Memory → Acc
  accumulate_reads : ∀ (acc : Acc) {input input' secret secret' : Memory}, Agree 64 input input' →
    Agree 64 secret secret' → accumulate512 acc input secret = accumulate512 acc input' secret'
  scramble_reads : ∀ (acc : Acc) {secret secret' : Memory}, Agree 64 secret secret' →
    scrambleAcc acc secret = scrambleAcc acc secret'

/-! ## The long multiplication -/

/-- With `__uint128_t`. The low half comes first. -/
def mult64to128Wide (lhs rhs : UInt64) : UInt64 × UInt64 :=
  let product := lhs.toNat * rhs.toNat
  (.ofNat product, .ofNat (product >>> 64))

/-- From the products of the halves. -/
def mult64to128Portable (lhs rhs : UInt64) : UInt64 × UInt64 :=
  let loLo := xxhMult32to64 (lhs &&& 0xFFFFFFFF) (rhs &&& 0xFFFFFFFF)
  let hiLo := xxhMult32to64 (lhs >>> 32) (rhs &&& 0xFFFFFFFF)
  let loHi := xxhMult32to64 (lhs &&& 0xFFFFFFFF) (rhs >>> 32)
  let hiHi := xxhMult32to64 (lhs >>> 32) (rhs >>> 32)
  let cross := (loLo >>> 32) + (hiLo &&& 0xFFFFFFFF) + loHi
  let upper := (hiLo >>> 32) + (cross >>> 32) + hiHi
  let lower := cross <<< 32 ||| loLo &&& 0xFFFFFFFF
  (lower, upper)

/-! ## For any processor -/

def adjacentLane (lane : Fin 8) : Fin 8 := lane ^^^ 1

def xxhMult32to64Add64 (lhs rhs acc : UInt64) : UInt64 :=
  xxhMult32to64 lhs.toUInt32.toUInt64 rhs.toUInt32.toUInt64 + acc

def xxh3ScalarRound (acc : Acc) (input secret : Memory) (lane : Fin 8) : Acc :=
  let dataVal := xxhReadLE64 (shift input (lane * 8))
  let dataKey := dataVal ^^^ xxhReadLE64 (shift secret (lane * 8))
  let acc := acc.put (adjacentLane lane) (acc.get (adjacentLane lane) + dataVal)
  acc.put lane (xxhMult32to64Add64 dataKey (dataKey >>> 32) (acc.get lane))

def xxh3Accumulate512Scalar (acc : Acc) (input secret : Memory) : Acc :=
  (List.finRange 8).foldl (fun acc lane => xxh3ScalarRound acc input secret lane) acc

def xxh3ScalarScrambleRound (acc : Acc) (secret : Memory) (lane : Fin 8) : Acc :=
  let key64 := xxhReadLE64 (shift secret (lane * 8))
  let acc64 := acc.get lane
  let acc64 := xxhXorshift64 acc64 47
  let acc64 := acc64 ^^^ key64
  let acc64 := acc64 * xxhPrime32_1.toUInt64
  acc.put lane acc64

def xxh3ScrambleAccScalar (acc : Acc) (secret : Memory) : Acc :=
  (List.finRange 8).foldl (fun acc lane => xxh3ScalarScrambleRound acc secret lane) acc

/-! ## For SSE2

A register is kept as its two lanes of 64 bits, the low one first. -/

structure M128i where
  lo : UInt64
  hi : UInt64

namespace M128i

def loadu (ptr : Memory) : M128i := ⟨xxhReadLE64 ptr, xxhReadLE64 (shift ptr 8)⟩

def xor (a b : M128i) : M128i := ⟨a.lo ^^^ b.lo, a.hi ^^^ b.hi⟩

def addEpi64 (a b : M128i) : M128i := ⟨a.lo + b.lo, a.hi + b.hi⟩

def srliEpi64 (a : M128i) (count : UInt64) : M128i := ⟨a.lo >>> count, a.hi >>> count⟩

def slliEpi64 (a : M128i) (count : UInt64) : M128i := ⟨a.lo <<< count, a.hi <<< count⟩

def part (a : M128i) : Fin 4 → UInt32
  | 0 => a.lo.toUInt32
  | 1 => (a.lo >>> 32).toUInt32
  | 2 => a.hi.toUInt32
  | 3 => (a.hi >>> 32).toUInt32

def lane (low high : UInt32) : UInt64 := high.toUInt64 <<< 32 ||| low.toUInt64

/-- `_mm_shuffle_epi32` with the mask `_MM_SHUFFLE(z, y, x, w)`. -/
def shuffleEpi32 (a : M128i) (z y x w : Fin 4) : M128i := ⟨lane (a.part w) (a.part x), lane (a.part y) (a.part z)⟩

def mulEpu32 (a b : M128i) : M128i :=
  ⟨a.lo.toUInt32.toUInt64 * b.lo.toUInt32.toUInt64, a.hi.toUInt32.toUInt64 * b.hi.toUInt32.toUInt64⟩

def set1Epi32 (a : UInt32) : M128i := ⟨lane a a, lane a a⟩

end M128i

def lowLane (i : Fin 4) : Fin 8 := ⟨2 * i, by omega⟩

def highLane (i : Fin 4) : Fin 8 := ⟨2 * i + 1, by omega⟩

def loadAcc (acc : Acc) (i : Fin 4) : M128i := ⟨acc.get (lowLane i), acc.get (highLane i)⟩

def storeAcc (acc : Acc) (i : Fin 4) (value : M128i) : Acc :=
  (acc.put (lowLane i) value.lo).put (highLane i) value.hi

def accumulateSse2Step (acc : Acc) (input secret : Memory) (i : Fin 4) : Acc :=
  let dataVec := M128i.loadu (shift input (16 * i))
  let keyVec := M128i.loadu (shift secret (16 * i))
  let dataKey := dataVec.xor keyVec
  let dataKeyLo := dataKey.shuffleEpi32 0 3 0 1
  let product := dataKey.mulEpu32 dataKeyLo
  let dataSwap := dataVec.shuffleEpi32 1 0 3 2
  let sum := (loadAcc acc i).addEpi64 dataSwap
  storeAcc acc i (product.addEpi64 sum)

def xxh3Accumulate512Sse2 (acc : Acc) (input secret : Memory) : Acc :=
  (List.finRange 4).foldl (fun acc i => accumulateSse2Step acc input secret i) acc

def scrambleSse2Step (acc : Acc) (secret : Memory) (i : Fin 4) : Acc :=
  let prime32 := M128i.set1Epi32 xxhPrime32_1
  let accVec := loadAcc acc i
  let shifted := accVec.srliEpi64 47
  let dataVec := accVec.xor shifted
  let keyVec := M128i.loadu (shift secret (16 * i))
  let dataKey := dataVec.xor keyVec
  let dataKeyHi := dataKey.shuffleEpi32 0 3 0 1
  let prodLo := dataKey.mulEpu32 prime32
  let prodHi := dataKeyHi.mulEpu32 prime32
  storeAcc acc i (prodLo.addEpi64 (prodHi.slliEpi64 32))

def xxh3ScrambleAccSse2 (acc : Acc) (secret : Memory) : Acc :=
  (List.finRange 4).foldl (fun acc i => scrambleSse2Step acc secret i) acc

end Verdiff
