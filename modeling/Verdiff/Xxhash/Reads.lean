import Verdiff.Xxhash.Stripes

/-! The hash looks at the bytes of its input and of its secret, and at no others.
-/

set_option autoImplicit false

namespace Verdiff
open Cells

section
variable {build : XxhBuild} {input input' secret secret' : Memory} {len secretSize : Nat}

theorem xxhReadLE32_at (agree : Agree len input input') {offset : Nat} (inside : offset + 4 ≤ len) :
    xxhReadLE32 (shift input offset) = xxhReadLE32 (shift input' offset) :=
  xxhReadLE32_agree (agree.shift inside)

theorem xxhReadLE64_at (agree : Agree len input input') {offset : Nat} (inside : offset + 8 ≤ len) :
    xxhReadLE64 (shift input offset) = xxhReadLE64 (shift input' offset) :=
  xxhReadLE64_agree (agree.shift inside)

theorem xxh3Mix16B_at (inputs : Agree len input input') (secrets : Agree secretSize secret secret') (seed : UInt64)
    {offset place : Nat} (inside : offset + 16 ≤ len) (within : place + 16 ≤ secretSize) :
    xxh3Mix16B build (shift input offset) (shift secret place) seed =
      xxh3Mix16B build (shift input' offset) (shift secret' place) seed := by
  simp only [xxh3Mix16B, shift_shift, xxhReadLE64_at inputs (show offset + 8 ≤ len by omega),
    xxhReadLE64_at inputs (show offset + 8 + 8 ≤ len by omega),
    xxhReadLE64_at secrets (show place + 8 ≤ secretSize by omega),
    xxhReadLE64_at secrets (show place + 8 + 8 ≤ secretSize by omega)]

theorem xxh3Len1to3_reads (inputs : Agree len input input') (secrets : Agree 8 secret secret') (seed : UInt64)
    (some : len ≠ 0) : xxh3Len1to3_64b input len secret seed = xxh3Len1to3_64b input' len secret' seed := by
  have half : len >>> 1 < len := by
    rw [Nat.shiftRight_eq_div_pow]
    omega
  simp only [xxh3Len1to3_64b, inputs 0 (by omega), inputs _ half, inputs (len - 1) (by omega),
    xxhReadLE32_agree (secrets.mono (show 4 ≤ 8 by decide)), xxhReadLE32_at secrets (show 4 + 4 ≤ 8 by decide)]

theorem xxh3Len4to8_reads (inputs : Agree len input input') (secrets : Agree 24 secret secret') (seed : UInt64)
    (atLeast : 4 ≤ len) : xxh3Len4to8_64b input len secret seed = xxh3Len4to8_64b input' len secret' seed := by
  simp only [xxh3Len4to8_64b, xxhReadLE32_agree (inputs.mono atLeast),
    xxhReadLE32_at inputs (show len - 4 + 4 ≤ len by omega), xxhReadLE64_at secrets (show 8 + 8 ≤ 24 by decide),
    xxhReadLE64_at secrets (show 16 + 8 ≤ 24 by decide)]

theorem xxh3Len9to16_reads (inputs : Agree len input input') (secrets : Agree 56 secret secret') (seed : UInt64)
    (atLeast : 8 < len) : xxh3Len9to16_64b build input len secret seed = xxh3Len9to16_64b build input' len secret' seed := by
  simp only [xxh3Len9to16_64b, xxhReadLE64_agree (inputs.mono atLeast.le),
    xxhReadLE64_at inputs (show len - 8 + 8 ≤ len by omega), xxhReadLE64_at secrets (show 24 + 8 ≤ 56 by decide),
    xxhReadLE64_at secrets (show 32 + 8 ≤ 56 by decide), xxhReadLE64_at secrets (show 40 + 8 ≤ 56 by decide),
    xxhReadLE64_at secrets (show 48 + 8 ≤ 56 by decide)]

theorem xxh3Len0to16_reads (inputs : Agree len input input') (secrets : Agree 72 secret secret') (seed : UInt64) :
    xxh3Len0to16_64b build input len secret seed = xxh3Len0to16_64b build input' len secret' seed := by
  unfold xxh3Len0to16_64b
  split
  · exact xxh3Len9to16_reads inputs (secrets.mono (by decide)) seed ‹_›
  split
  · exact xxh3Len4to8_reads inputs (secrets.mono (by decide)) seed ‹_›
  split
  · exact xxh3Len1to3_reads inputs (secrets.mono (by decide)) seed ‹_›
  · rw [xxhReadLE64_at secrets (show 56 + 8 ≤ 72 by decide), xxhReadLE64_at secrets (show 64 + 8 ≤ 72 by decide)]

theorem xxh3Len17to128_reads (inputs : Agree len input input') (secrets : Agree 136 secret secret') (seed : UInt64)
    (atLeast : 16 < len) : xxh3Len17to128_64b build input len secret seed = xxh3Len17to128_64b build input' len secret' seed := by
  have mix {offset place : Nat} (inside : offset + 16 ≤ len) (within : place + 16 ≤ 136) :=
    @xxh3Mix16B_at build _ _ _ _ _ _ inputs secrets seed offset place inside within
  unfold xxh3Len17to128_64b
  split_ifs <;> simp (disch := omega) only [mix]

theorem xxh3Len129to240_reads (inputs : Agree len input input') (secrets : Agree 136 secret secret') (seed : UInt64)
    (atLeast : 128 < len) (atMost : len ≤ 240) :
    xxh3Len129to240_64b build input len secret seed = xxh3Len129to240_64b build input' len secret' seed := by
  have mix {offset place : Nat} (inside : offset + 16 ≤ len) (within : place + 16 ≤ 136) :=
    @xxh3Mix16B_at build _ _ _ _ _ _ inputs secrets seed offset place inside within
  have loop (rounds : List Nat) (place : Nat → Nat) (inside : ∀ i ∈ rounds, 16 * i + 16 ≤ len ∧ place i + 16 ≤ 136)
      (acc : UInt64) :
      rounds.foldl (fun acc i => acc + xxh3Mix16B build (shift input (16 * i)) (shift secret (place i)) seed) acc =
        rounds.foldl (fun acc i => acc + xxh3Mix16B build (shift input' (16 * i)) (shift secret' (place i)) seed) acc :=
    List.foldl_ext _ _ acc fun acc i isIn => by rw [mix (inside i isIn).1 (inside i isIn).2]
  have head := loop (List.range 8) (fun i => 16 * i) fun i isIn => by
    have below := List.mem_range.mp isIn
    omega
  have tail := loop (List.range' 8 (len / 16 - 8)) (fun i => 16 * (i - 8) + 3) fun i isIn => by
    have range := List.mem_range'_1.mp isIn
    omega
  simp only [xxh3Len129to240_64b, head, tail, mix (show len - 16 + 16 ≤ len by omega) (show 136 - 17 + 16 ≤ 136 by decide)]

theorem xxh3_64bitsInternal_reads (inputs : Agree len input input') (secrets : Agree 136 secret secret') (seed : UInt64)
    (secretSize' : Nat) (hashLong hashLong' : Memory → Nat → UInt64 → Memory → Nat → UInt64) (short : len ≤ 240) :
    xxh3_64bitsInternal build input len seed secret secretSize hashLong =
      xxh3_64bitsInternal build input' len seed secret' secretSize' hashLong' := by
  unfold xxh3_64bitsInternal
  split
  · exact xxh3Len0to16_reads inputs (secrets.mono (by decide)) seed
  split
  · exact xxh3Len17to128_reads inputs secrets seed (by omega)
  · exact xxh3Len129to240_reads inputs secrets seed (by omega) short

theorem accAfter_reads {perBlock stripes : Nat} (inputs : Agree (stripes * 64) input input')
    (secrets : Agree secretSize secret secret') (fits : 64 ≤ secretSize) (blockFits : perBlock * 8 + 64 ≤ secretSize + 8)
    (positive : 0 < perBlock) :
    accAfter build input secret (secretSize - 64) perBlock stripes =
      accAfter build input' secret' (secretSize - 64) perBlock stripes := by
  refine Rounds.after_congr _ _ _ (fun stripe below acc => ?_) fun acc => ?_
  · have place := Nat.mod_lt stripe positive
    exact build.accumulate_reads acc (inputs.shift (by omega)) (secrets.shift (by omega))
  · exact build.scramble_reads acc (secrets.shift (by omega))

theorem xxh3MergeAccs_reads (acc : Acc) (secrets : Agree 64 secret secret') (start : UInt64) :
    xxh3MergeAccs build acc secret start = xxh3MergeAccs build acc secret' start := by
  have mix (i : Fin 4) : xxh3Mix2Accs build (acc.get (lowLane i)) (acc.get (highLane i)) (shift secret (16 * i)) =
      xxh3Mix2Accs build (acc.get (lowLane i)) (acc.get (highLane i)) (shift secret' (16 * i)) := by
    simp only [xxh3Mix2Accs, shift_shift, xxhReadLE64_at secrets (show 16 * i.val + 8 ≤ 64 by omega),
      xxhReadLE64_at secrets (show 16 * i.val + 8 + 8 ≤ 64 by omega)]
  simp only [xxh3MergeAccs, mix]

theorem xxh3HashLong64bInternal_reads (inputs : Agree len input input') (secrets : Agree secretSize secret secret')
    (enough : 136 ≤ secretSize) (long : 64 < len) :
    xxh3HashLong64bInternal build input len secret secretSize =
      xxh3HashLong64bInternal build input' len secret' secretSize := by
  have acc := @accAfter_reads build input input' secret secret' secretSize ((secretSize - 64) / 8) ((len - 1) / 64)
    (inputs.mono (by omega)) secrets (by omega) (by omega) (by omega)
  have lastStripe := build.accumulate_reads (accAfter build input' secret' (secretSize - 64) ((secretSize - 64) / 8) ((len - 1) / 64))
    (inputs.shift (show len - 64 + 64 ≤ len by omega)) (secrets.shift (show secretSize - 64 - 7 + 64 ≤ secretSize by omega))
  simp only [xxh3HashLong64bInternal, xxh3HashLongInternalLoop_spec (show 72 ≤ secretSize by omega), acc, lastStripe,
    xxh3FinalizeLong64b, xxh3MergeAccs_reads _ (secrets.shift (show 11 + 64 ≤ secretSize by omega))]

/-- What lies around the input and the secret has no part in the hash. -/
theorem xxh3_reads_only (build : XxhBuild) (enough : 136 ≤ secretSize) (inputs : Agree len input input')
    (secrets : Agree secretSize secret secret') :
    xxh3_64bitsWithSecret build input len secret secretSize = xxh3_64bitsWithSecret build input' len secret' secretSize := by
  by_cases short : len ≤ 240
  · exact xxh3_64bitsInternal_reads inputs (secrets.mono enough) 0 _ _ _ short
  · simp only [xxh3_64bitsWithSecret, xxh3_64bitsInternal, if_neg short, if_neg (show ¬len ≤ 16 by omega),
      if_neg (show ¬len ≤ 128 by omega), xxh3HashLong64bWithSecret,
      xxh3HashLong64bInternal_reads inputs secrets enough (by omega)]

end

/-- Two inputs that differ from their end on. -/
theorem xxh3_reads_only_differs :
    xxh3_64bitsWithSecret sse2Build (fun i => if i < 300 then 1 else 2) 300 xxh3KSecret 192 =
      xxh3_64bitsWithSecret sse2Build (fun _ => 1) 300 xxh3KSecret 192 :=
  xxh3_reads_only sse2Build (by decide) (fun _ below => if_pos below) (.refl 192 _)

end Verdiff
