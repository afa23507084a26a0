import Verdiff.Hash
import Verdiff.Xxhash.Stream
import Verdiff.Xxhash.Reads
import Mathlib.Data.List.GetD

/-! However an input is cut into chunks, its streamed hash is the hash of the whole. -/

set_option autoImplicit false

namespace Verdiff
open Cells

section
variable {build : XxhBuild} {stream secret : Memory} {secretLimit perBlock : Nat} {input : Memory} {stripe place nbStripes : Nat}

theorem consumeBlocks_spec (positive : 0 < perBlock) (atStart : stripe % perBlock = 0)
    (agree : Agree (nbStripes * 64) (shift input place) (shift stream (stripe * 64))) :
    ∃ consumed ≤ nbStripes, nbStripes - consumed < perBlock ∧ (stripe + consumed) % perBlock = 0 ∧
      consumeBlocks build positive (accAfter build stream secret secretLimit perBlock stripe) input place nbStripes
        secret secretLimit =
      (accAfter build stream secret secretLimit perBlock (stripe + consumed), place + consumed * 64,
        nbStripes - consumed) := by
  -- The loop goes on to the last end of a block.
  induction nbStripes using Nat.strongRecOn generalizing stripe place with
  | ind nbStripes ih =>
    rw [consumeBlocks]
    by_cases enough : perBlock ≤ nbStripes
    · have block := @accAfter_block build stream secret secretLimit perBlock (shift input place) stripe perBlock
        (agree.mono (by omega)) positive (by omega)
      rw [atStart, Nat.zero_mul, shift_zero] at block
      have rest : Agree ((nbStripes - perBlock) * 64) (shift input (place + perBlock * 64))
          (shift stream ((stripe + perBlock) * 64)) := by
        rw [Nat.add_mul, ← shift_shift, ← shift_shift]
        exact agree.shift (by omega)
      obtain ⟨consumed, atMost, few, atEnd, result⟩ := ih (nbStripes - perBlock) (by omega) (by simpa using atStart) rest
      refine ⟨perBlock + consumed, by omega, by omega, by rwa [← Nat.add_assoc], ?_⟩
      simp only [if_pos enough, block, result, Nat.add_mul, Nat.add_assoc, Nat.sub_sub]
    · exact ⟨0, Nat.zero_le _, by omega, by simpa using atStart, by simp [enough]⟩

theorem xxh3ConsumeStripes_spec (positive : 0 < perBlock)
    (agree : Agree (nbStripes * 64) (shift input place) (shift stream (stripe * 64))) :
    xxh3ConsumeStripes build positive (accAfter build stream secret secretLimit perBlock stripe) (stripe % perBlock)
        input place nbStripes secret secretLimit =
      (accAfter build stream secret secretLimit perBlock (stripe + nbStripes), (stripe + nbStripes) % perBlock,
        place + nbStripes * 64) := by
  have inBlock := Nat.mod_lt stripe positive
  rw [xxh3ConsumeStripes]
  by_cases completes : perBlock - stripe % perBlock ≤ nbStripes
  · -- the block in progress is completed, whole blocks follow, and some stripes may be left
    obtain ⟨first, firstIs⟩ : ∃ first, first = perBlock - stripe % perBlock := ⟨_, rfl⟩
    have block := @accAfter_block build stream secret secretLimit perBlock (shift input place) stripe first
      (agree.mono (by omega)) (by omega) (by omega)
    have rest : Agree ((nbStripes - first) * 64) (shift input (place + first * 64))
        (shift stream ((stripe + first) * 64)) := by
      rw [Nat.add_mul, ← shift_shift, ← shift_shift]
      exact agree.shift (by omega)
    obtain ⟨consumed, atMost, few, atEnd, result⟩ := @consumeBlocks_spec build stream secret secretLimit perBlock input
      (stripe + first) (place + first * 64) (nbStripes - first) positive (Rounds.place_of_fills (by omega)) rest
    have last : Agree ((nbStripes - first - consumed) * 64) (shift input (place + first * 64 + consumed * 64))
        (shift stream ((stripe + first + consumed) * 64)) := by
      rw [Nat.add_mul, ← shift_shift input, ← shift_shift stream]
      exact rest.shift (by omega)
    have left := @accAfter_within build stream secret secretLimit perBlock _ _ _ last (by omega)
    have total : stripe + first + consumed + (nbStripes - first - consumed) = stripe + nbStripes := by omega
    have placeLeft : (stripe + nbStripes) % perBlock = nbStripes - first - consumed := by
      rw [← total, Rounds.place_of_within (by omega), atEnd, Nat.zero_add]
    simp only [atEnd, Nat.zero_mul, shift_zero, total] at left
    rw [← firstIs] at completes
    simp only [← firstIs, if_pos completes, block, result, left, placeLeft, Nat.zero_add]
    split
    · congr 2
      omega
    · rw [show nbStripes - first - consumed = 0 by omega, show place + first * 64 + consumed * 64 = place + nbStripes * 64 by omega,
        show stripe + first + consumed = stripe + nbStripes by omega]
  · have within : stripe % perBlock + nbStripes < perBlock := by omega
    simp only [if_neg completes, accAfter_within agree within, Rounds.place_of_within within]
    split
    · rfl
    · rw [show nbStripes = 0 by omega]
      rfl

end

/-! ## The state follows the stream -/

namespace Xxh3State

/-- The accumulators are those after the stripes consumed so far, the last of which can be found
at the end of the buffer unless newer bytes are there. -/
structure Consumed (build : XxhBuild) (stream : Memory) (stripes : Nat) (state : Xxh3State) : Prop where
  acc : state.acc = accAfter build stream state.extSecret state.secretLimit state.nbStripesPerBlock stripes
  soFar : state.nbStripesSoFar = stripes % state.nbStripesPerBlock
  tail : 0 < stripes → ∀ i, 192 ≤ i → i < 256 → state.bufferedSize ≤ i → state.buffer i = stream (stripes * 64 + i - 256)

/-- Of the first bytes of the stream, the buffer holds those behind the stripes. -/
structure Holds (build : XxhBuild) (stream : Memory) (total stripes : Nat) (state : Xxh3State) : Prop
    extends Consumed build stream stripes state where
  divided : stripes * 64 + state.bufferedSize = total
  fits : state.bufferedSize ≤ 256
  buffered : Agree state.bufferedSize state.buffer (shift stream (stripes * 64))
  some : 0 < total → 0 < state.bufferedSize
  long : 0 < stripes → 256 < total

structure Follows (build : XxhBuild) (stream : Memory) (total : Nat) (state : Xxh3State) : Prop where
  totalLen : state.totalLen = total
  holds : ∃ stripes, state.Holds build stream total stripes

/-- What only a reset changes. -/
def SameSecret (state before : Xxh3State) : Prop :=
  state.extSecret = before.extSecret ∧ state.secretLimit = before.secretLimit ∧
    state.nbStripesPerBlock = before.nbStripesPerBlock

theorem SameSecret.trans {first second third : Xxh3State} (left : third.SameSecret second) (right : second.SameSecret first) :
    third.SameSecret first :=
  ⟨left.1.trans right.1, left.2.1.trans right.2.1, left.2.2.trans right.2.2⟩

structure Drained (build : XxhBuild) (stream : Memory) (stripes : Nat) (state before : Xxh3State) : Prop
    extends Consumed build stream stripes state where
  empty : state.bufferedSize = 0
  totalLen : state.totalLen = before.totalLen
  secret : state.SameSecret before

end Xxh3State

section
variable {build : XxhBuild} {stream input : Memory} {total stripes len place : Nat} {state : Xxh3State}

theorem follows_reset (build : XxhBuild) (stream : Memory) (state : Xxh3State) (secret : Memory) {secretSize : Nat}
    (enough : 136 ≤ secretSize) : (xxh3ResetInternal state secret secretSize enough).Follows build stream 0 where
  totalLen := rfl
  holds := ⟨0,
    { acc := rfl
      soFar := (Nat.zero_mod _).symm
      tail := fun some => absurd some (Nat.lt_irrefl 0)
      divided := rfl
      fits := Nat.zero_le _
      buffered := fun _ below => absurd below (Nat.not_lt_zero _)
      some := fun some => absurd some (Nat.lt_irrefl 0)
      long := fun some => absurd some (Nat.lt_irrefl 0) }⟩

theorem consumeBuffered_spec (holds : state.Holds build stream total stripes)
    (agree : Agree len input (shift stream total)) (more : 256 - state.bufferedSize < len) :
    ∃ state' place stripes', consumeBuffered build state input = (state', place) ∧
      state'.Drained build stream stripes' state ∧ stripes' * 64 = total + place ∧ place < len := by
  have divided := holds.divided
  have fits := holds.fits
  by_cases empty : state.bufferedSize = 0
  · exact ⟨state, 0, stripes, by simp only [consumeBuffered, if_neg (not_not.mpr empty)],
      ⟨holds.toConsumed, empty, rfl, rfl, rfl, rfl⟩, by omega, by omega⟩
  · obtain ⟨buffer, bufferIs⟩ : ∃ buffer, buffer = copy state.buffer state.bufferedSize input (256 - state.bufferedSize) :=
      ⟨_, rfl⟩
    have filled : Agree 256 buffer (shift stream (stripes * 64)) := by
      have added : Agree (256 - state.bufferedSize) input (shift (shift stream (stripes * 64)) state.bufferedSize) := by
        rw [shift_shift, divided]
        exact agree.mono (by omega)
      simpa [bufferIs, Nat.add_sub_cancel' fits] using holds.buffered.copy added
    have consumed := @xxh3ConsumeStripes_spec build stream state.extSecret state.secretLimit state.nbStripesPerBlock
      buffer stripes 0 4 state.positive (by simpa using filled)
    let drained : Xxh3State := { state with
      buffer
      acc := accAfter build stream state.extSecret state.secretLimit state.nbStripesPerBlock (stripes + 4)
      nbStripesSoFar := (stripes + 4) % state.nbStripesPerBlock
      bufferedSize := 0 }
    refine ⟨drained, 256 - state.bufferedSize, stripes + 4, ?_, ⟨⟨rfl, rfl, ?_⟩, rfl, rfl, rfl, rfl, rfl⟩, by omega, more⟩
    · simp only [consumeBuffered, if_pos empty, holds.acc, holds.soFar, ← bufferIs, consumed]
      rfl
    · exact fun _ i from192 below _ => (filled i below).trans (congrArg stream (by omega))

theorem consumeInput_spec (consumed : state.Consumed build stream stripes) (empty : state.bufferedSize = 0)
    (agree : Agree len input (shift stream total)) (divided : stripes * 64 = total + place) (inside : place < len) :
    ∃ state' place' stripes', consumeInput build state input place len = (state', place') ∧
      state'.Drained build stream stripes' state ∧ stripes' * 64 = total + place' ∧ place' < len ∧ len - place' ≤ 256 := by
  by_cases much : 256 < len - place
  · obtain ⟨nbStripes, count⟩ : ∃ nbStripes, nbStripes = (len - 1 - place) / 64 := ⟨_, rfl⟩
    have here : Agree (nbStripes * 64) (shift input place) (shift stream (stripes * 64)) := by
      rw [divided, ← shift_shift]
      exact agree.shift (by omega)
    have result := @xxh3ConsumeStripes_spec build stream state.extSecret state.secretLimit state.nbStripesPerBlock
      input stripes place nbStripes state.positive here
    let drained : Xxh3State := { state with
      buffer := copy state.buffer (256 - 64) (shift input (place + nbStripes * 64 - 64)) 64
      acc := accAfter build stream state.extSecret state.secretLimit state.nbStripesPerBlock (stripes + nbStripes)
      nbStripesSoFar := (stripes + nbStripes) % state.nbStripesPerBlock }
    refine ⟨drained, place + nbStripes * 64, stripes + nbStripes, ?_, ⟨⟨rfl, rfl, ?_⟩, empty, rfl, rfl, rfl, rfl⟩,
      by omega, by omega, by omega⟩
    · simp only [consumeInput, if_pos much, ← count, consumed.acc, consumed.soFar, result]
      rfl
    · intro _ i from192 below _
      obtain ⟨j, rfl⟩ := Nat.exists_eq_add_of_le from192
      exact (copy_inside (by omega)).trans ((agree _ (by omega)).trans (congrArg stream (by omega)))
  · exact ⟨state, place, stripes, by simp only [consumeInput, if_neg much], ⟨consumed, empty, rfl, rfl, rfl, rfl⟩,
      divided, inside, by omega⟩

theorem follows_update (follows : state.Follows build stream total) (agree : Agree len input (shift stream total)) :
    (xxh3Update build state (some input) len).Follows build stream (total + len) ∧
      (xxh3Update build state (some input) len).SameSecret state := by
  -- One chunk more.
  obtain ⟨rfl, stripes, holds⟩ := follows
  have divided := holds.divided
  have fits := holds.fits
  by_cases small : len ≤ 256 - state.bufferedSize
  · have added : Agree len input (shift (shift stream (stripes * 64)) state.bufferedSize) := by
      rwa [shift_shift, divided]
    have held := holds.some
    have long := holds.long
    simp only [xxh3Update, if_pos small]
    refine ⟨⟨rfl, stripes, ⟨holds.acc, holds.soFar, fun some i from192 below behind => ?_⟩, ?_, ?_,
      holds.buffered.copy added, fun _ => ?_, fun some => ?_⟩, rfl, rfl, rfl⟩
    · exact (copy_above behind).trans (holds.tail some i from192 below (Nat.le_of_add_right_le behind))
    · exact (Nat.add_assoc _ _ _).symm.trans (congrArg (· + len) divided)
    · show state.bufferedSize + len ≤ 256
      omega
    · show 0 < state.bufferedSize + len
      omega
    · omega
  · -- the count of bytes runs ahead while the buffer and the input are consumed
    have counted : Xxh3State.Holds build stream state.totalLen stripes { state with totalLen := state.totalLen + len } :=
      ⟨⟨holds.acc, holds.soFar, holds.tail⟩, divided, fits, holds.buffered, holds.some, holds.long⟩
    obtain ⟨first, place, stripes, buffered, drained, reached, inside⟩ := consumeBuffered_spec counted agree
      (show 256 - state.bufferedSize < len by omega)
    obtain ⟨second, place', stripes', consumed, drained', reached', inside', rest⟩ := consumeInput_spec drained.toConsumed
      drained.empty agree reached inside
    have added : Agree (len - place') (shift input place') (shift stream (stripes' * 64)) := by
      rw [reached', ← shift_shift]
      exact agree.shift (by omega)
    simp only [xxh3Update, if_neg small, buffered, consumed]
    refine ⟨⟨drained'.totalLen.trans drained.totalLen, stripes', ⟨drained'.acc, drained'.soFar,
      fun some i from192 below behind => ?_⟩, ?_, rest, ?_, fun _ => ?_, fun some => ?_⟩, drained'.secret.trans drained.secret⟩
    · exact (copy_above (by simpa using behind)).trans (drained'.tail some i from192 below (by rw [drained'.empty]; omega))
    · show stripes' * 64 + (len - place') = _
      omega
    · intro i below
      have copied := @copy_inside UInt8 second.buffer (shift input place') 0 _ i below
      rw [Nat.zero_add] at copied
      exact copied.trans (added i below)
    · show 0 < len - place'
      omega
    · omega

/-! ## The digest -/

theorem xxh3DigestLong_spec (holds : state.Holds build stream total stripes) (long : 64 ≤ total) :
    xxh3DigestLong build state state.extSecret =
      build.accumulate512 (accAfter build stream state.extSecret state.secretLimit state.nbStripesPerBlock ((total - 1) / 64))
        (shift stream (total - 64)) (shift state.extSecret (state.secretLimit - 7)) := by
  have divided := holds.divided
  have some := holds.some (by omega)
  by_cases enough : 64 ≤ state.bufferedSize
  · have consumed := @xxh3ConsumeStripes_spec build stream state.extSecret state.secretLimit state.nbStripesPerBlock
      state.buffer stripes 0 ((state.bufferedSize - 1) / 64) state.positive
      (by rw [shift_zero]; exact holds.buffered.mono (by omega))
    have lastStripe : Agree 64 (shift state.buffer (state.bufferedSize - 64)) (shift stream (total - 64)) := by
      rw [show total - 64 = stripes * 64 + (state.bufferedSize - 64) by omega, ← shift_shift]
      exact holds.buffered.shift (by omega)
    simp only [xxh3DigestLong, if_pos enough, holds.acc, holds.soFar, consumed]
    rw [show stripes + (state.bufferedSize - 1) / 64 = (total - 1) / 64 by omega]
    exact build.accumulate_reads _ lastStripe (.refl 64 _)
  · -- the end of the buffer still has what is missing of the last stripe
    obtain ⟨catchup, catchupIs⟩ : ∃ catchup, catchup = 64 - state.bufferedSize := ⟨_, rfl⟩
    have older : Agree catchup (copy (fun _ => 0) 0 (shift state.buffer (256 - catchup)) catchup) (shift stream (total - 64)) := by
      intro i below
      have copied := @copy_inside UInt8 (fun _ => 0) (shift state.buffer (256 - catchup)) 0 _ i below
      have kept := holds.tail (by omega) (256 - catchup + i) (by omega) (by omega) (by omega)
      rw [Nat.zero_add] at copied
      exact copied.trans (kept.trans (congrArg stream (by omega)))
    have newer : Agree state.bufferedSize state.buffer (shift (shift stream (total - 64)) catchup) := by
      rw [shift_shift, show total - 64 + catchup = stripes * 64 by omega]
      exact holds.buffered
    have lastStripe := older.copy newer
    rw [show catchup + state.bufferedSize = 64 by omega] at lastStripe
    simp only [xxh3DigestLong, if_neg enough, holds.acc, ← catchupIs]
    rw [show (total - 1) / 64 = stripes by omega]
    exact build.accumulate_reads _ lastStripe (.refl 64 _)

theorem digest_follows {secretSize : Nat} (enough : 136 ≤ secretSize) (follows : state.Follows build stream total)
    (limit : state.secretLimit = secretSize - 64) (perBlock : state.nbStripesPerBlock = (secretSize - 64) / 8) :
    xxh3_64bitsDigest build state = xxh3_64bitsWithSecret build stream total state.extSecret secretSize := by
  obtain ⟨rfl, stripes, holds⟩ := follows
  by_cases long : 240 < state.totalLen
  · have digested := xxh3DigestLong_spec holds (by omega)
    have whole := @xxh3HashLongInternalLoop_spec build state.extSecret stream state.totalLen secretSize (by omega)
    rw [limit, perBlock] at digested
    rw [xxh3_64bitsDigest, if_pos long, xxh3_64bitsWithSecret, xxh3_64bitsInternal, if_neg (by omega), if_neg (by omega),
      if_neg (by omega), xxh3HashLong64bWithSecret, xxh3HashLong64bInternal, whole, digested]
  · have none : stripes = 0 := by
      by_contra some
      have := holds.long (by omega)
      omega
    subst none
    have divided := holds.divided
    have buffered := holds.buffered
    rw [show state.bufferedSize = state.totalLen by omega, Nat.zero_mul, shift_zero] at buffered
    rw [xxh3_64bitsDigest, if_neg long]
    exact xxh3_64bitsInternal_reads buffered (.refl 136 _) 0 _ _ _ (by omega)

end

/-! ## Chunks -/

def memoryOf (bytes : Bytes) : Memory := fun i => bytes.getD i 0

theorem memoryOf_left (first second : Bytes) : Agree first.length (memoryOf first) (memoryOf (first ++ second)) := by
  intro i below
  simp only [memoryOf, List.getD_append _ _ _ _ below]

theorem memoryOf_right (first second : Bytes) : shift (memoryOf (first ++ second)) first.length = memoryOf second := by
  funext i
  simp only [shift, memoryOf, List.getD_append_right _ _ _ _ (Nat.le_add_right _ _), Nat.add_sub_cancel_left]

def xxh3UpdateChunk (build : XxhBuild) (state : Xxh3State) (chunk : Bytes) : Xxh3State :=
  xxh3Update build state (some (memoryOf chunk)) chunk.length

theorem follows_chunks {build : XxhBuild} {stream : Memory} (chunks : List Bytes) {total : Nat} {state : Xxh3State}
    (follows : state.Follows build stream total)
    (agree : Agree chunks.flatten.length (memoryOf chunks.flatten) (shift stream total)) :
    (chunks.foldl (xxh3UpdateChunk build) state).Follows build stream (total + chunks.flatten.length) ∧
      (chunks.foldl (xxh3UpdateChunk build) state).SameSecret state := by
  induction chunks generalizing total state with
  | nil => exact ⟨follows, rfl, rfl, rfl⟩
  | cons chunk rest ih =>
    rw [List.flatten_cons, List.length_append] at agree
    have first : Agree chunk.length (memoryOf chunk) (shift stream total) :=
      (memoryOf_left chunk rest.flatten).trans (agree.mono (Nat.le_add_right _ _))
    have later : Agree rest.flatten.length (memoryOf rest.flatten) (shift stream (total + chunk.length)) := by
      rw [← memoryOf_right chunk, ← shift_shift]
      exact agree.shift (Nat.le_refl _)
    obtain ⟨next, same⟩ := follows_update follows first
    obtain ⟨last, sameLater⟩ := ih next later
    rw [List.flatten_cons, List.length_append, ← Nat.add_assoc]
    exact ⟨last, sameLater.trans same⟩

theorem follows_stream (build : XxhBuild) (state : Xxh3State) (secret : Memory) {secretSize : Nat}
    (enough : 136 ≤ secretSize) (chunks : List Bytes) :
    (chunks.foldl (xxh3UpdateChunk build) (xxh3ResetInternal state secret secretSize enough)).Follows build
        (memoryOf chunks.flatten) chunks.flatten.length ∧
      (chunks.foldl (xxh3UpdateChunk build) (xxh3ResetInternal state secret secretSize enough)).SameSecret
        (xxh3ResetInternal state secret secretSize enough) := by
  have followed := follows_chunks chunks (follows_reset build (memoryOf chunks.flatten) state secret enough)
    (by rw [shift_zero]; exact .refl _ _)
  rwa [Nat.zero_add] at followed

/-- For any secret that is long enough, and whatever the buffer held before the reset. -/
theorem xxh3_stream_one_shot (build : XxhBuild) (state : Xxh3State) (secret : Memory) {secretSize : Nat}
    (enough : 136 ≤ secretSize) (chunks : List Bytes) :
    xxh3_64bitsDigest build (chunks.foldl (xxh3UpdateChunk build) (xxh3ResetInternal state secret secretSize enough)) =
      xxh3_64bitsWithSecret build (memoryOf chunks.flatten) chunks.flatten.length secret secretSize := by
  obtain ⟨follows, extSecret, limit, perBlock⟩ := follows_stream build state secret enough chunks
  rw [digest_follows enough follows limit perBlock, extSecret]
  rfl

/-- Nothing at all, a chunk that fits the buffer and one that does not. -/
theorem xxh3_stream_one_shot_three :
    xxh3_64bitsDigest sse2Build ([[], [7], kSecretBytes ++ kSecretBytes].foldl (xxh3UpdateChunk sse2Build)
        (xxh3ResetInternal ⟨xxh3InitAcc, xxh3KSecret, 5, 1, 0, 2, 64, xxh3KSecret, Nat.succ_pos 1⟩ xxh3KSecret 136 (Nat.le_refl 136))) =
      xxh3_64bitsWithSecret sse2Build (memoryOf [[], [7], kSecretBytes ++ kSecretBytes].flatten)
        [[], [7], kSecretBytes ++ kSecretBytes].flatten.length xxh3KSecret 136 :=
  xxh3_stream_one_shot _ _ _ (Nat.le_refl 136) _

/-! ## The hash that is linked in -/

theorem xxh3_64bits_secret (build : XxhBuild) (input : Memory) (length : Nat) :
    xxh3_64bits build input length = xxh3_64bitsWithSecret build input length xxh3KSecret xxhSecretDefaultSize := by
  simp only [xxh3_64bits, xxh3_64bitsWithSecret, xxh3_64bitsInternal, xxh3HashLong64bDefault, xxh3HashLong64bWithSecret]

theorem xxh3_64bits_stream (build : XxhBuild) (garbage : Xxh3State) (chunks : List Bytes) :
    xxh3_64bitsDigest build (chunks.foldl (xxh3UpdateChunk build) (xxh3_64bitsReset garbage)) =
      xxh3_64bits build (memoryOf chunks.flatten) chunks.flatten.length := by
  have enough : 136 ≤ xxhSecretDefaultSize := by decide
  obtain ⟨follows, extSecret, limit, perBlock⟩ := follows_stream build garbage xxh3KSecret enough chunks
  rw [xxh3_64bitsReset, digest_follows enough follows limit perBlock, extSecret, xxh3_64bits_secret]
  rfl

/-- `garbage` is the state as it was allocated. -/
def vendoredXxh3 (build : XxhBuild) (garbage : Xxh3State) : Xxh3 where
  State := Xxh3State
  oneShot := fun bytes => xxh3_64bits build (memoryOf bytes) bytes.length
  reset := xxh3_64bitsReset garbage
  update := fun state chunk => some (xxh3UpdateChunk build state chunk)
  digest := xxh3_64bitsDigest build
  streaming := fun chunks => by
    have never (state : Xxh3State) : chunks.foldlM (fun state chunk => some (xxh3UpdateChunk build state chunk)) state =
        some (chunks.foldl (xxh3UpdateChunk build) state) := by
      induction chunks generalizing state with
      | nil => rfl
      | cons chunk rest ih => exact ih _
    exact ⟨_, never _, xxh3_64bits_stream build garbage chunks⟩

/-- The published hash of a short text. -/
example : xxh3_64bits portableBuild (memoryOf [97, 98, 99]) 3 = 0x78af5f94892f3950 := by decide

/-- The vectors and the native multiplication change no hash, in one shot or in chunks. -/
theorem xxh3_sse2_portable (input : Memory) (len : Nat) (secret : Memory) (secretSize : Nat) (state : Xxh3State)
    (chunks : List Bytes) :
    xxh3_64bitsWithSecret sse2Build input len secret secretSize =
        xxh3_64bitsWithSecret portableBuild input len secret secretSize ∧
      xxh3_64bitsDigest sse2Build (chunks.foldl (xxh3UpdateChunk sse2Build) state) =
        xxh3_64bitsDigest portableBuild (chunks.foldl (xxh3UpdateChunk portableBuild) state) := by
  rw [sse2Build_eq]
  exact ⟨rfl, rfl⟩

/-- Whatever the build, the buffer, the route and the sizes of the reads. -/
theorem hash_file_xxh3_vendored {build : XxhBuild} (known : build = sse2Build ∨ build = portableBuild)
    (garbage : Xxh3State) {bufferSize : Nat} (positive : 1 ≤ bufferSize) {content : Bytes} {mmapThreshold : Nat}
    {env : HashEnv} {hash : UInt64}
    (hashed : hashFileXxh3 (vendoredXxh3 build garbage) (.ok content) bufferSize mmapThreshold env = .ok hash) :
    hash = xxh3_64bits portableBuild (memoryOf content) content.length := by
  rw [hashFileXxh3_ok positive hashed]
  rcases known with rfl | rfl
  · rw [sse2Build_eq]
    rfl
  · rfl

/-- The mapping fails, and the stream comes byte by byte. -/
theorem hash_file_xxh3_vendored_bytes : ∃ hash,
    hashFileXxh3 (vendoredXxh3 sse2Build ⟨xxh3InitAcc, xxh3KSecret, 5, 1, 0, 2, 64, xxh3KSecret, Nat.succ_pos 1⟩)
      (.ok [1, 2, 3]) 2 16 ⟨none, some Fault.EIO, none, true, true, fun _ => .upTo 1⟩ = .ok hash ∧
    hash = xxh3_64bits portableBuild (memoryOf [1, 2, 3]) 3 := by
  have serves : HashEnv.Serves ⟨none, some Fault.EIO, none, true, true, fun _ => .upTo 1⟩ :=
    ⟨rfl, rfl, rfl, rfl, fun _ => trivial⟩
  obtain ⟨hash, hashed⟩ := hashFileXxh3_ends serves
  exact ⟨hash, hashed, hash_file_xxh3_vendored (.inl rfl) _ (by decide) hashed⟩

end Verdiff
