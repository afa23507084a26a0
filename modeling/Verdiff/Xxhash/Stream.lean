import Verdiff.Xxhash.OneShot

/-! XXH3 of an input that comes in chunks.

The state buffers the last 256 bytes at most. What is behind the buffered bytes is not free: the
last 64 bytes of the buffer still hold the stripe before them, and the digest may need it.
-/

set_option autoImplicit false

namespace Verdiff
open Cells

/-- The members that an unseeded hash uses. -/
structure Xxh3State where
  acc : Acc
  buffer : Memory
  bufferedSize : Nat
  nbStripesSoFar : Nat
  totalLen : Nat
  nbStripesPerBlock : Nat
  secretLimit : Nat
  extSecret : Memory
  positive : 0 < nbStripesPerBlock

/-- The buffer keeps what it held before. -/
def xxh3ResetInternal (state : Xxh3State) (secret : Memory) (secretSize : Nat) (enough : 136 ≤ secretSize) : Xxh3State :=
  { state with
    bufferedSize := 0
    nbStripesSoFar := 0
    totalLen := 0
    acc := xxh3InitAcc
    extSecret := secret
    secretLimit := secretSize - 64
    nbStripesPerBlock := (secretSize - 64) / 8
    positive := by omega }

def xxh3_64bitsReset (state : Xxh3State) : Xxh3State :=
  xxh3ResetInternal state xxh3KSecret xxhSecretDefaultSize (by decide)

section
variable (build : XxhBuild)

/-- The turns of the loop of `XXH3_consumeStripes` after its first, on whole blocks. What is
left of the stripes comes with the place in the input. -/
def consumeBlocks {nbStripesPerBlock : Nat} (positive : 0 < nbStripesPerBlock) (acc : Acc) (input : Memory)
    (place nbStripes : Nat) (secret : Memory) (secretLimit : Nat) : Acc × Nat × Nat :=
  if nbStripesPerBlock ≤ nbStripes then
    let acc := xxh3Accumulate build acc (shift input place) secret nbStripesPerBlock
    let acc := build.scrambleAcc acc (shift secret secretLimit)
    consumeBlocks positive acc input (place + nbStripesPerBlock * 64) (nbStripes - nbStripesPerBlock) secret secretLimit
  else (acc, place, nbStripes)
termination_by nbStripes

def xxh3ConsumeStripes {nbStripesPerBlock : Nat} (positive : 0 < nbStripesPerBlock) (acc : Acc) (nbStripesSoFar : Nat)
    (input : Memory) (place nbStripes : Nat) (secret : Memory) (secretLimit : Nat) : Acc × Nat × Nat :=
  let initialSecret := shift secret (nbStripesSoFar * 8)
  if nbStripesPerBlock - nbStripesSoFar ≤ nbStripes then
    let nbStripesThisIter := nbStripesPerBlock - nbStripesSoFar
    let acc := xxh3Accumulate build acc (shift input place) initialSecret nbStripesThisIter
    let acc := build.scrambleAcc acc (shift secret secretLimit)
    let (acc, place, nbStripes) := consumeBlocks build positive acc input (place + nbStripesThisIter * 64)
      (nbStripes - nbStripesThisIter) secret secretLimit
    if 0 < nbStripes then
      (xxh3Accumulate build acc (shift input place) secret nbStripes, 0 + nbStripes, place + nbStripes * 64)
    else (acc, 0, place)
  else if 0 < nbStripes then
    (xxh3Accumulate build acc (shift input place) initialSecret nbStripes, nbStripesSoFar + nbStripes,
      place + nbStripes * 64)
  else (acc, nbStripesSoFar, place)

def consumeBuffered (state : Xxh3State) (input : Memory) : Xxh3State × Nat :=
  if state.bufferedSize ≠ 0 then
    let loadSize := 256 - state.bufferedSize
    let buffer := copy state.buffer state.bufferedSize input loadSize
    let (acc, nbStripesSoFar, _) := xxh3ConsumeStripes build state.positive state.acc state.nbStripesSoFar
      buffer 0 4 state.extSecret state.secretLimit
    ({ state with buffer, acc, nbStripesSoFar, bufferedSize := 0 }, loadSize)
  else (state, 0)

def consumeInput (state : Xxh3State) (input : Memory) (place len : Nat) : Xxh3State × Nat :=
  if 256 < len - place then
    let nbStripes := (len - 1 - place) / 64
    let (acc, nbStripesSoFar, place) := xxh3ConsumeStripes build state.positive state.acc state.nbStripesSoFar
      input place nbStripes state.extSecret state.secretLimit
    ({ state with acc, nbStripesSoFar, buffer := copy state.buffer (256 - 64) (shift input (place - 64)) 64 }, place)
  else (state, place)

def xxh3Update (state : Xxh3State) (input : Option Memory) (len : Nat) : Xxh3State :=
  match input with
  | none => state
  | some input =>
    let state := { state with totalLen := state.totalLen + len }
    if len ≤ 256 - state.bufferedSize then
      { state with
        buffer := copy state.buffer state.bufferedSize input len
        bufferedSize := state.bufferedSize + len }
    else
      let (state, place) := consumeBuffered build state input
      let (state, place) := consumeInput build state input place len
      { state with
        buffer := copy state.buffer 0 (shift input place) (len - place)
        bufferedSize := len - place }

def xxh3DigestLong (state : Xxh3State) (secret : Memory) : Acc :=
  let (acc, lastStripe) :=
    if 64 ≤ state.bufferedSize then
      let nbStripes := (state.bufferedSize - 1) / 64
      let (acc, _, _) := xxh3ConsumeStripes build state.positive state.acc state.nbStripesSoFar
        state.buffer 0 nbStripes secret state.secretLimit
      (acc, shift state.buffer (state.bufferedSize - 64))
    else
      let catchupSize := 64 - state.bufferedSize
      let lastStripe := copy (fun _ => 0) 0 (shift state.buffer (256 - catchupSize)) catchupSize
      let lastStripe := copy lastStripe catchupSize state.buffer state.bufferedSize
      (state.acc, lastStripe)
  build.accumulate512 acc lastStripe (shift secret (state.secretLimit - 7))

def xxh3_64bitsDigest (state : Xxh3State) : UInt64 :=
  if 240 < state.totalLen then
    let acc := xxh3DigestLong build state state.extSecret
    xxh3FinalizeLong64b build acc state.extSecret (.ofNat state.totalLen)
  else xxh3_64bitsWithSecret build state.buffer state.totalLen state.extSecret (state.secretLimit + 64)

end

end Verdiff
