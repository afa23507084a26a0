import Verdiff.Index.Refinement

/-! The loops of the index: the doubling that sizes a new table, and the probes.

The doubling is done in a word, so that a request above the largest power of two is
doubled into zero and from there on for ever. The probes have no bound of their own:
they end because the load check keeps a slot vacant.
-/

set_option autoImplicit false

namespace Verdiff
open Probing

/-! ## The doubling -/

theorem nextPow2Loop_diverges {fuel n value : Nat} (top : 2 ^ 63 < value) (reached : n = 0 ∨ ∃ k ≤ 63, n = 2 ^ k) :
    nextPow2Loop fuel n value = none := by
  -- Above the largest power of two every value that doubling reaches is too small.
  induction fuel generalizing n with
  | zero => rfl
  | succ fuel ih =>
    have below : n < value := by
      rcases reached with rfl | ⟨k, small, rfl⟩
      · omega
      · exact Nat.lt_of_le_of_lt (Nat.pow_le_pow_right (by decide) small) top
    rw [nextPow2Loop, if_pos below]
    apply ih
    rcases reached with rfl | ⟨k, small, rfl⟩
    · exact .inl rfl
    · rcases Nat.eq_or_lt_of_le small with rfl | room
      · exact .inl rfl
      · refine .inr ⟨k + 1, room, ?_⟩
        rw [← Nat.pow_succ, wordSize]
        exact Nat.mod_eq_of_lt (Nat.pow_lt_pow_right (by decide) (by omega))

theorem nextPow2Loop_overflows {value : Nat} (top : 2 ^ 63 < value) (fuel : Nat) :
    nextPow2Loop fuel 16 value = none :=
  nextPow2Loop_diverges top (.inr ⟨4, by omega, rfl⟩)

/-- The fuel of `nextPow2` is enough: what does not end within it never ends. -/
theorem nextPow2_eq_none {value : Nat} : nextPow2 value = none ↔ ∀ fuel, nextPow2Loop fuel 16 value = none := by
  constructor
  · intro gaveUp
    apply nextPow2Loop_overflows
    by_contra bounded
    obtain ⟨j, _, _, _, found⟩ :=
      @nextPow2Loop_spec 64 4 value (by omega) (by omega) (Nat.sub_le 64 4)
    change nextPow2 value = some (2 ^ j) at found
    rw [gaveUp] at found
    cases found
  · exact fun never => never 64

def requestedCapacity (initialCapacity : Nat) : Nat := if initialCapacity = 0 then 16 else initialCapacity

def Coverable (initialCapacity : Nat) : Prop := ∃ k, 2 ^ k < wordSize ∧ initialCapacity ≤ 2 ^ k

theorem coverable_iff {initialCapacity : Nat} : Coverable initialCapacity ↔ initialCapacity ≤ 2 ^ 63 := by
  constructor
  · rintro ⟨k, fits, covers⟩
    have small : k < 64 := (Nat.pow_lt_pow_iff_right (by decide)).mp fits
    exact covers.trans (Nat.pow_le_pow_right (by decide) (by omega))
  · exact fun bounded => ⟨63, by decide, bounded⟩

/-- What the sizing of a new index is to do: the loop ends; `calloc` is asked for a power of
two that covers the request where one fits a word, and else the request fails with `ENOMEM`. -/
structure SizesCleanly (initialCapacity : Nat) : Prop where
  ends : ∃ fuel capacity, nextPow2Loop fuel 16 (requestedCapacity initialCapacity) = some capacity
  covers : Coverable initialCapacity → ∃ capacity, (∃ k, capacity = 2 ^ k) ∧ 16 ≤ capacity ∧
    initialCapacity ≤ capacity ∧ ∀ slotsOk, fileIndexInit initialCapacity slotsOk = some
      (if callocOk capacity slotSize slotsOk then (0, ⟨List.replicate capacity none, capacity, 0⟩)
        else (Fault.ENOMEM.code, ⟨[], 0, 0⟩))
  refuses : ¬ Coverable initialCapacity → ∀ slotsOk, ∃ index,
    fileIndexInit initialCapacity slotsOk = some (Fault.ENOMEM.code, index)

theorem sizesCleanly_of_bounded {initialCapacity : Nat} (bounded : initialCapacity ≤ 2 ^ 63) :
    SizesCleanly initialCapacity := by
  have request : requestedCapacity initialCapacity ≤ 2 ^ 63 := by
    unfold requestedCapacity
    split
    · decide
    · exact bounded
  have grows : initialCapacity ≤ requestedCapacity initialCapacity := by
    unfold requestedCapacity
    split <;> omega
  obtain ⟨j, four, _, covers, rounded⟩ :=
    @nextPow2Loop_spec 64 4 _ (by omega) request (Nat.sub_le 64 4)
  refine ⟨⟨64, 2 ^ j, rounded⟩, fun _ => ⟨2 ^ j, ⟨j, rfl⟩, ?_, grows.trans covers, fun slotsOk => ?_⟩,
    fun uncovered => absurd (coverable_iff.mpr bounded) uncovered⟩
  · exact Nat.pow_le_pow_right (n := 2) (by decide) four
  · change nextPow2 (if initialCapacity = 0 then 16 else initialCapacity) = some (2 ^ j) at rounded
    rw [fileIndexInit, rounded]
    simp only
    split <;> rfl

/-- `file_index_init` sizes its table cleanly exactly for the requests up to `2^63`. -/
theorem file_index_init_sizes (initialCapacity : UInt64) :
    SizesCleanly initialCapacity.toNat ↔ initialCapacity.toNat ≤ 2 ^ 63 := by
  constructor
  · intro clean
    by_contra above
    obtain ⟨fuel, capacity, found⟩ := clean.ends
    have request : requestedCapacity initialCapacity.toNat = initialCapacity.toNat :=
      if_neg (by omega)
    rw [request, nextPow2Loop_overflows (by omega)] at found
    cases found
  · exact sizesCleanly_of_bounded

/-- One entry more than the largest power of two is a request that never returns. -/
theorem file_index_init_sizes_overflow :
    ¬ SizesCleanly (UInt64.toNat 9223372036854775809) ∧
      fileIndexInit (UInt64.toNat 9223372036854775809) true = none := by
  constructor
  · rintro ⟨⟨fuel, capacity, found⟩, _, _⟩
    rw [nextPow2Loop_overflows (by decide)] at found
    cases found
  · decide +kernel

/-! ## The load and the probes -/

section
variable {hashPath : CString → UInt64}

/-- The loop of `file_index_find_slot`, run for a path and its hash. -/
def FindSlotEnds (index : FileIndex) (path : CString) (hash : UInt64) : Prop :=
  EndsWithin index.capacity index.slots (nextProbe index.capacity)
    (fun slot => slot.hash == hash && strcmp slot.key path == 0) (probeIndex hash index.capacity)

/-- The inner loop of `file_index_rehash`, run for each slot of the old table on what the
new one holds by then. -/
def RehashEnds (index : FileIndex) (newCapacity : Nat) : Prop :=
  ∀ before slot after, index.slots = before ++ some slot :: after →
    ∃ moved, rehashSlots before ⟨List.replicate newCapacity none, newCapacity, 0⟩ = some moved ∧
      moved.capacity = newCapacity ∧
      EndsWithin newCapacity moved.slots (nextProbe newCapacity) (fun _ => false)
        (probeIndex slot.hash newCapacity)

theorem FileIndex.WellFormed.findSlot_ends {index : FileIndex} (wf : index.WellFormed hashPath)
    (path : CString) (hash : UInt64) : FindSlotEnds index path hash := by
  have round := endsWithin_round wf.wraps (fun slot => slot.hash == hash && strcmp slot.key path == 0)
    wf.room (wf.home_lt hash)
  rwa [wf.length] at round

theorem FileIndex.WellFormed.rehash_ends {index : FileIndex} (wf : index.WellFormed hashPath)
    (fits : index.capacity * 2 * slotSize < wordSize) : RehashEnds index (index.capacity * 2) := by
  intro before slot after split
  obtain ⟨k, four, size⟩ := wf.pow
  have pow : ∃ j, 4 ≤ j ∧ index.capacity * 2 = 2 ^ j := ⟨k + 1, by omega, by rw [size, Nat.pow_succ]⟩
  -- The slots gone through so far are fewer than the entries of the old table.
  have shorter : (elements before).length < index.capacity := by
    have length := wf.length
    rw [split, List.length_append, List.length_cons] at length
    exact Nat.lt_of_le_of_lt (List.length_filterMap_le id before) (by omega)
  obtain ⟨moved, done, laid, capacity, permuted⟩ := @rehashSlots_spec before _ (laid_vacant pow fits)
    (by simp only; omega)
  simp only at capacity
  have room : (elements moved.slots).length < moved.slots.length := by
    have entries : moved.entries.length = (elements before).length := by
      simpa [FileIndex.entries, elements_replicate] using permuted.length_eq
    rw [FileIndex.entries] at entries
    rw [laid.length, capacity, entries]
    omega
  have round := endsWithin_round laid.wraps (fun _ => false) room (laid.home_lt slot.hash)
  rw [laid.length, capacity] at round
  exact ⟨moved, done, capacity, round⟩

theorem FileIndex.WellFormed.no_wrap {index : FileIndex} (wf : index.WellFormed hashPath) :
    (index.count + 1) * 10 < wordSize ∧ index.capacity * 7 < wordSize ∧ index.capacity * 2 < wordSize := by
  -- No product or shift of an upsert wraps: a table that fits memory is small enough.
  have load := wf.load
  have fits := wf.fits
  have large := sixteen_le wf.pow
  unfold slotSize at fits
  omega

/-- In every index a program can build, the load check keeps a slot vacant and every probe
loop ends within one round of its table. -/
theorem file_index_load {index : FileIndex} (built : Built hashPath index) :
    (∃ k, index.capacity = 2 ^ k) ∧ 16 ≤ index.capacity ∧ index.slots.length = index.capacity ∧
      index.count = index.slots.countP Option.isSome ∧ 10 * index.count < 7 * index.capacity ∧
      ((index.count + 1) * 10 < wordSize ∧ index.capacity * 7 < wordSize ∧ index.capacity * 2 < wordSize) ∧
      (∃ pos : Nat, index.slots[pos]? = some none) ∧ (∀ path hash, FindSlotEnds index path hash) ∧
      ∀ path size mtime allocs, ∃ rc reserved final,
        fileIndexReserve index allocs.slotsOk = some (rc, reserved) ∧
        fileIndexUpsert hashPath index path size mtime allocs = some final ∧
        (callocOk (index.capacity * 2) slotSize allocs.slotsOk = true → RehashEnds index (index.capacity * 2)) ∧
        FindSlotEnds reserved path (hashPath path) := by
  have wf := built.wellFormed
  refine ⟨?_, sixteen_le wf.pow, wf.length, ?_, ?_, wf.no_wrap, exists_vacant wf.room, wf.findSlot_ends, ?_⟩
  · obtain ⟨k, _, size⟩ := wf.pow
    exact ⟨k, size⟩
  · rw [wf.count_eq, FileIndex.entries, elements, List.length_filterMap_eq_countP]
    rfl
  · have load := wf.load
    omega
  · intro path size mtime allocs
    obtain ⟨rc, reserved, reserves, wfReserved, _⟩ := fileIndexReserve_spec wf allocs.slotsOk
    obtain ⟨code, after, stepped, _⟩ := fileIndexUpsert_spec wf path size mtime allocs
    refine ⟨rc, reserved, (code, after), reserves, stepped, fun allocated => ?_, wfReserved.findSlot_ends _ _⟩
    simp only [callocOk, Bool.and_eq_true, decide_eq_true_eq] at allocated
    exact wf.rehash_ends allocated.2

/-- A table of sixteen slots with one path, found and probed for from its last slot. -/
theorem file_index_load_single :
    ∃ index, Built (fun _ => 15) index ∧ index.count = 1 ∧ 10 * index.count < 7 * index.capacity ∧
      FindSlotEnds index ⟨[98], by decide⟩ 15 := by
  have started : fileIndexInit 0 true = some (0, ⟨List.replicate 16 none, 16, 0⟩) := by decide +kernel
  have stepped : fileIndexUpsert (fun _ => 15) ⟨List.replicate 16 none, 16, 0⟩ ⟨[97], by decide⟩ 1 2
      ⟨true, true⟩ = some (0, ⟨(List.replicate 16 none).set 15
        (some ⟨⟨[97], by decide⟩, ⟨⟨[97], by decide⟩, 1, 2⟩, 15⟩), 16, 1⟩) := by decide +kernel
  have built := (Built.init (by decide) started).upsert stepped
  obtain ⟨_, _, _, _, load, _, _, ends, _⟩ := file_index_load built
  exact ⟨_, built, rfl, load, ends _ _⟩

end

end Verdiff
