import Verdiff.Index.Table
import Mathlib.Data.List.Nodup

/-! The index refines a finite map, whatever the hash function.

`WellFormed` is what every operation keeps. The lookup function of a well-formed
index is its abstract map, and each operation is specified by what it does to it.
-/

set_option autoImplicit false

namespace Verdiff
open Probing

variable {hashPath : CString → UInt64}

def FileIndex.entries (index : FileIndex) : List IndexSlot := elements index.slots

def FileIndex.keys (index : FileIndex) : List CString := index.entries.map IndexSlot.key

def homeIn (capacity : Nat) (slot : IndexSlot) : Nat := probeIndex slot.hash capacity

/-- The table as a table: its size, its entry count and where its entries lie. -/
structure FileIndex.Laid (index : FileIndex) : Prop where
  pow : ∃ k, 4 ≤ k ∧ index.capacity = 2 ^ k
  length : index.slots.length = index.capacity
  fits : index.capacity * slotSize < wordSize
  count_eq : index.count = index.entries.length
  placed : Placed index.slots (homeIn index.capacity)

structure FileIndex.WellFormed (hashPath : CString → UInt64) (index : FileIndex) : Prop
    extends index.Laid where
  load : index.count * 10 < index.capacity * 7
  hashed : ∀ e ∈ index.entries, e.hash = hashPath e.key
  named : ∀ e ∈ index.entries, e.value.path = e.key
  distinct : index.keys.Nodup

/-! ## Masks of a power of two -/

section
variable {capacity : Nat} (pow : ∃ k, 4 ≤ k ∧ capacity = 2 ^ k) (fits : capacity * slotSize < wordSize)

include pow in
theorem capacity_pos : 0 < capacity := by
  obtain ⟨k, _, rfl⟩ := pow
  exact Nat.two_pow_pos k

include pow in
theorem sixteen_le : 16 ≤ capacity := by
  obtain ⟨k, large, rfl⟩ := pow
  exact Nat.pow_le_pow_right (n := 2) (by decide) large

include pow fits in
theorem probeMask_eq : probeMask capacity = capacity - 1 := by
  have positive := capacity_pos pow
  unfold slotSize wordSize at fits
  unfold probeMask wordSize
  rw [show capacity + (2 ^ 64 - 1) = (capacity - 1) + 2 ^ 64 by omega, Nat.add_mod_right]
  exact Nat.mod_eq_of_lt (by omega)

include pow fits in
theorem probeIndex_lt (hash : UInt64) : probeIndex hash capacity < capacity := by
  have positive := capacity_pos pow
  rw [probeIndex, probeMask_eq pow fits]
  exact Nat.lt_of_le_of_lt Nat.and_le_right (by omega)

include pow fits in
theorem nextProbe_eq {pos : Nat} (inside : pos < capacity) :
    nextProbe capacity pos = (pos + 1) % capacity := by
  rw [nextProbe, probeMask_eq pow fits]
  unfold slotSize wordSize at fits
  rw [Nat.mod_eq_of_lt (by unfold wordSize; omega)]
  obtain ⟨k, _, rfl⟩ := pow
  exact Nat.and_two_pow_sub_one_eq_mod _ _

end

/-! ## Lookups -/

namespace FileIndex.Laid

variable {index : FileIndex}

theorem wraps (laid : index.Laid) :
    ∀ pos < index.slots.length, nextProbe index.capacity pos = (pos + 1) % index.slots.length := by
  intro pos inside
  rw [laid.length] at inside ⊢
  exact nextProbe_eq laid.pow laid.fits inside

theorem home_lt (laid : index.Laid) (hash : UInt64) :
    probeIndex hash index.capacity < index.slots.length := by
  rw [laid.length]
  exact probeIndex_lt laid.pow laid.fits hash

theorem room (laid : index.Laid) (free : index.count < index.capacity) :
    (elements index.slots).length < index.slots.length := by
  have count : index.count = (elements index.slots).length := laid.count_eq
  rw [laid.length]
  omega

end FileIndex.Laid

namespace FileIndex.WellFormed

variable {index : FileIndex}

theorem room (wf : index.WellFormed hashPath) : (elements index.slots).length < index.slots.length :=
  wf.toLaid.room (by have := wf.load; omega)

/-- The probe for a path ends, and it ends at the path's slot if there is one. -/
theorem findSlot_total (wf : index.WellFormed hashPath) (path : CString) :
    (∃ pos slot, fileIndexFindSlot index path (hashPath path) = some (pos, some slot) ∧
      index.slots[pos]? = some (some slot) ∧ slot ∈ index.entries ∧ slot.key = path) ∨
    (∃ pos, fileIndexFindSlot index path (hashPath path) = some (pos, none) ∧
      index.slots[pos]? = some none ∧ path ∉ index.keys ∧
      ∀ slot : IndexSlot, slot.hash = hashPath path →
        Placed (index.slots.set pos (some slot)) (homeIn index.capacity)) := by
  have nonzero : index.capacity ≠ 0 := (capacity_pos wf.pow).ne'
  have start := wf.home_lt (hashPath path)
  let hit : IndexSlot → Bool := fun slot => slot.hash == hashPath path && strcmp slot.key path == 0
  obtain ⟨⟨pos, found⟩, answer⟩ := search_answers wf.wraps hit wf.room start
  have slotAnswer : fileIndexFindSlot index path (hashPath path) = some (pos, found) := by
    rw [fileIndexFindSlot, if_neg nonzero, ← answer, wf.length]
  have spec := search_spec (d := 0) wf.wraps (by omega)
    (by rw [Nat.add_zero, Nat.mod_eq_of_lt start]; exact answer)
  obtain ⟨_, _, _, _, content, hits, _⟩ := spec
  cases found with
  | some slot =>
    have matched := hits slot rfl
    simp only [hit, Bool.and_eq_true, beq_iff_eq, strcmp_zero] at matched
    exact .inl ⟨pos, slot, slotAnswer, content, mem_elements.mpr ⟨pos, content⟩, matched.2⟩
  | none =>
    refine .inr ⟨pos, slotAnswer, content, ?_, ?_⟩
    · intro stored
      obtain ⟨slot, member, rfl⟩ := List.mem_map.mp stored
      have hashed := wf.hashed slot member
      have complete := search_complete wf.wraps wf.placed member
        (show hit slot = true by simp [hit, hashed, strcmp_zero]) (wf.home_lt slot.hash)
        (by rw [homeIn, hashed]; exact answer)
      obtain ⟨_, impossible⟩ := complete
      cases impossible
    · intro slot hashed
      exact wf.placed.insert wf.wraps (wf.home_lt slot.hash)
        (by rw [homeIn, hashed]; exact answer)

theorem entry_unique (wf : index.WellFormed hashPath) {first second : IndexSlot}
    (left : first ∈ index.entries) (right : second ∈ index.entries) (same : first.key = second.key) :
    first = second :=
  List.inj_on_of_nodup_map wf.distinct left right same

theorem find_entry (wf : index.WellFormed hashPath) {slot : IndexSlot} (member : slot ∈ index.entries) :
    fileIndexFind hashPath index slot.key = some slot.value := by
  rcases wf.findSlot_total slot.key with ⟨pos, other, answer, _, stored, same⟩ | ⟨_, _, _, absent, _⟩
  · rw [fileIndexFind, answer, wf.entry_unique stored member same]
  · exact absurd (List.mem_map.mpr ⟨slot, member, rfl⟩) absent

theorem find_absent (wf : index.WellFormed hashPath) {path : CString} (absent : path ∉ index.keys) :
    fileIndexFind hashPath index path = none := by
  rcases wf.findSlot_total path with ⟨_, other, _, _, stored, same⟩ | ⟨_, answer, _⟩
  · exact absurd (List.mem_map.mpr ⟨other, stored, same⟩) absent
  · rw [fileIndexFind, answer]

theorem find_eq_some (wf : index.WellFormed hashPath) {path : CString} {info : FileInfo} :
    fileIndexFind hashPath index path = some info ↔
      ∃ slot ∈ index.entries, slot.key = path ∧ slot.value = info := by
  constructor
  · intro found
    by_cases stored : path ∈ index.keys
    · obtain ⟨slot, member, rfl⟩ := List.mem_map.mp stored
      rw [wf.find_entry member] at found
      exact ⟨slot, member, rfl, Option.some.inj found⟩
    · rw [wf.find_absent stored] at found
      cases found
  · rintro ⟨slot, member, rfl, rfl⟩
    exact wf.find_entry member

theorem mem_keys (wf : index.WellFormed hashPath) {path : CString} :
    path ∈ index.keys ↔ (fileIndexFind hashPath index path).isSome := by
  rw [Option.isSome_iff_exists]
  constructor
  · intro stored
    obtain ⟨slot, member, rfl⟩ := List.mem_map.mp stored
    exact ⟨_, wf.find_entry member⟩
  · rintro ⟨info, found⟩
    obtain ⟨slot, member, rfl, _⟩ := wf.find_eq_some.mp found
    exact List.mem_map.mpr ⟨slot, member, rfl⟩

theorem find_path (wf : index.WellFormed hashPath) {path : CString} {info : FileInfo}
    (found : fileIndexFind hashPath index path = some info) : info.path = path := by
  obtain ⟨slot, member, rfl, rfl⟩ := wf.find_eq_some.mp found
  exact wf.named slot member

theorem count_keys (wf : index.WellFormed hashPath) : index.count = index.keys.length := by
  rw [FileIndex.keys, List.length_map, wf.count_eq]

theorem find_perm {other : FileIndex} (wf : index.WellFormed hashPath) (wf' : other.WellFormed hashPath)
    (same : other.entries.Perm index.entries) (path : CString) :
    fileIndexFind hashPath other path = fileIndexFind hashPath index path := by
  apply Option.ext
  intro info
  rw [wf.find_eq_some, wf'.find_eq_some]
  simp only [same.mem_iff]

end FileIndex.WellFormed

/-! ## Initialisation -/

theorem nextPow2Loop_spec {fuel k value : Nat} (small : k ≤ 63) (bounded : value ≤ 2 ^ 63)
    (enough : 64 - k ≤ fuel) :
    ∃ j, k ≤ j ∧ j ≤ 63 ∧ value ≤ 2 ^ j ∧ nextPow2Loop fuel (2 ^ k) value = some (2 ^ j) := by
  induction fuel generalizing k with
  | zero => omega
  | succ fuel ih =>
    simp only [nextPow2Loop]
    split
    next below =>
      have notTop : k ≠ 63 := by rintro rfl; omega
      have doubled : 2 ^ k * 2 % wordSize = 2 ^ (k + 1) := by
        rw [← Nat.pow_succ, wordSize]
        exact Nat.mod_eq_of_lt (Nat.pow_lt_pow_right (by decide) (by omega))
      rw [doubled]
      obtain ⟨j, above, small, covers, found⟩ := ih (k := k + 1) (by omega) (by omega)
      exact ⟨j, by omega, small, covers, found⟩
    next covers => exact ⟨k, le_refl k, small, by omega, rfl⟩

theorem laid_vacant {capacity : Nat} (pow : ∃ k, 4 ≤ k ∧ capacity = 2 ^ k)
    (fits : capacity * slotSize < wordSize) :
    FileIndex.Laid ⟨List.replicate capacity none, capacity, 0⟩ where
  pow := pow
  length := List.length_replicate
  fits := fits
  count_eq := by rw [FileIndex.entries, elements_replicate]; rfl
  placed := placed_replicate capacity _

theorem wellFormed_vacant {capacity : Nat} (pow : ∃ k, 4 ≤ k ∧ capacity = 2 ^ k)
    (fits : capacity * slotSize < wordSize) :
    FileIndex.WellFormed hashPath ⟨List.replicate capacity none, capacity, 0⟩ := by
  have nothing : FileIndex.entries ⟨List.replicate capacity none, capacity, 0⟩ = [] :=
    elements_replicate capacity
  have positive := capacity_pos pow
  refine ⟨laid_vacant pow fits, by simp only; omega, ?_, ?_, ?_⟩
  · rw [nothing]; simp
  · rw [nothing]; simp
  · rw [FileIndex.keys, nothing]; exact List.nodup_nil

theorem fileIndexInit_spec (hashPath : CString → UInt64) {initialCapacity : Nat} (bounded : initialCapacity ≤ 2 ^ 63) (slotsOk : Bool) :
    ∃ rc index, fileIndexInit initialCapacity slotsOk = some (rc, index) ∧
      (rc = 0 → index.WellFormed hashPath ∧ index.entries = []) := by
  have request : (if initialCapacity = 0 then 16 else initialCapacity) ≤ 2 ^ 63 := by
    split
    · decide
    · exact bounded
  obtain ⟨j, four, _, _, rounded⟩ := nextPow2Loop_spec (k := 4) (by omega) request (Nat.sub_le 64 4)
  rw [fileIndexInit, nextPow2, show (16 : Nat) = 2 ^ 4 by rfl] at *
  rw [rounded]
  simp only
  split
  next allocated =>
    simp only [callocOk, Bool.and_eq_true, decide_eq_true_eq] at allocated
    exact ⟨0, _, rfl, fun _ => ⟨wellFormed_vacant ⟨j, four, rfl⟩ allocated.2, elements_replicate _⟩⟩
  next => exact ⟨_, _, rfl, fun impossible => absurd impossible Fault.ENOMEM.nonzero⟩

/-! ## Growing -/

theorem FileIndex.Laid.insert {index : FileIndex} (laid : index.Laid) {slot : IndexSlot} {pos : Nat}
    {hit : IndexSlot → Bool}
    (answer : search index.slots (nextProbe index.capacity) hit index.capacity
      (probeIndex slot.hash index.capacity) = some (pos, none)) :
    FileIndex.Laid { index with slots := index.slots.set pos (some slot), count := index.count + 1 } ∧
      (FileIndex.entries { index with
        slots := index.slots.set pos (some slot), count := index.count + 1 }).Perm (slot :: index.entries) := by
  have start := laid.home_lt slot.hash
  have round : search index.slots (nextProbe index.capacity) hit index.slots.length
      (homeIn index.capacity slot) = some (pos, none) := by rw [laid.length]; exact answer
  have vacant : index.slots[pos]? = some none := by
    obtain ⟨_, _, _, _, content, _, _⟩ := search_spec (d := 0) laid.wraps (by omega)
      (by rw [Nat.add_zero, Nat.mod_eq_of_lt start]; exact round)
    exact content
  obtain ⟨before, after, old, new⟩ := elements_set_vacant vacant slot
  have permuted : (elements (index.slots.set pos (some slot))).Perm (slot :: elements index.slots) := by
    rw [old, new]
    exact List.perm_middle
  refine ⟨⟨laid.pow, ?_, laid.fits, ?_, ?_⟩, permuted⟩
  · rw [List.length_set, laid.length]
  · simpa [FileIndex.entries, laid.count_eq] using permuted.length_eq.symm
  · exact laid.placed.insert laid.wraps start round

theorem rehashSlots_spec {rest : List (Option IndexSlot)} {index : FileIndex} (laid : index.Laid)
    (enough : index.count + (elements rest).length < index.capacity) :
    ∃ moved, rehashSlots rest index = some moved ∧ moved.Laid ∧ moved.capacity = index.capacity ∧
      moved.entries.Perm (index.entries ++ elements rest) := by
  -- The loop moves every entry of the old table to the new one.
  induction rest generalizing index with
  | nil => exact ⟨index, rfl, laid, rfl, by simp [elements]⟩
  | cons content rest ih =>
    cases content with
    | none =>
      have skipped : elements (none :: rest) = elements rest := rfl
      rw [skipped] at enough ⊢
      exact ih laid enough
    | some slot =>
      have taken : elements (some slot :: rest) = slot :: elements rest := rfl
      rw [taken, List.length_cons] at enough
      obtain ⟨⟨pos, found⟩, answer⟩ := search_answers laid.wraps (fun _ => false)
        (laid.room (by omega)) (laid.home_lt slot.hash)
      obtain ⟨_, _, _, _, _, hits, _⟩ := search_spec (d := 0) laid.wraps
        (by have := laid.home_lt slot.hash; omega)
        (by rw [Nat.add_zero, Nat.mod_eq_of_lt (laid.home_lt slot.hash)]; exact answer)
      have vacant : found = none := by
        cases found with
        | none => rfl
        | some other => exact absurd (hits other rfl) (by simp)
      subst vacant
      rw [laid.length] at answer
      obtain ⟨grown, permuted⟩ := laid.insert answer
      obtain ⟨moved, done, final, size, content⟩ := ih grown (by simp only; omega)
      refine ⟨moved, ?_, final, size, ?_⟩
      · simp only [rehashSlots, answer, done]
      · rw [taken]
        exact content.trans ((permuted.append_right _).trans List.perm_middle.symm)

/-- Seven tenths of the slots would be taken with one entry more. -/
def FileIndex.Crowded (index : FileIndex) : Prop := index.capacity * 7 ≤ (index.count + 1) * 10

instance (index : FileIndex) : Decidable index.Crowded := inferInstanceAs (Decidable (_ ≤ _))

theorem fileIndexReserve_eq {index : FileIndex} (wf : index.WellFormed hashPath) (slotsOk : Bool) :
    fileIndexReserve index slotsOk =
      if index.Crowded then fileIndexRehash index (index.capacity * 2) slotsOk else some (0, index) := by
  -- In a table that fits in memory nothing wraps.
  have fits := wf.fits
  have load := wf.load
  have large := sixteen_le wf.pow
  unfold slotSize wordSize at fits
  have countWord : (index.count + 1) * 10 % wordSize = (index.count + 1) * 10 :=
    Nat.mod_eq_of_lt (by unfold wordSize; omega)
  have capacityWord : index.capacity * 7 % wordSize = index.capacity * 7 :=
    Nat.mod_eq_of_lt (by unfold wordSize; omega)
  have doubleWord : index.capacity * 2 % wordSize = index.capacity * 2 :=
    Nat.mod_eq_of_lt (by unfold wordSize; omega)
  rw [fileIndexReserve, countWord, capacityWord, doubleWord]
  rfl

theorem fileIndexReserve_zero_iff {index after : FileIndex} (wf : index.WellFormed hashPath) {slotsOk : Bool} {rc : Rc}
    (reserved : fileIndexReserve index slotsOk = some (rc, after)) :
    rc = 0 ↔ (index.Crowded → callocOk (index.capacity * 2) slotSize slotsOk = true) := by
  rw [fileIndexReserve_eq wf, fileIndexRehash] at reserved
  by_cases crowded : index.Crowded
  · rw [if_pos crowded] at reserved
    by_cases allocated : callocOk (index.capacity * 2) slotSize slotsOk = true
    · rw [if_pos allocated] at reserved
      split at reserved <;> cases reserved
      simp [allocated]
    · rw [if_neg allocated] at reserved
      cases reserved
      simp [crowded, allocated, Fault.ENOMEM.nonzero]
  · rw [if_neg crowded] at reserved
    cases reserved
    simp [crowded]

/-- Room for one more entry, or a failed allocation and the same index. -/
theorem fileIndexReserve_spec {index : FileIndex} (wf : index.WellFormed hashPath) (slotsOk : Bool) :
    ∃ rc after, fileIndexReserve index slotsOk = some (rc, after) ∧ after.WellFormed hashPath ∧
      after.entries.Perm index.entries ∧
      ((rc = 0 ∧ (after.count + 1) * 10 < after.capacity * 7) ∨ (rc = Fault.ENOMEM.code ∧ after = index)) := by
  have load := wf.load
  have large := sixteen_le wf.pow
  rw [fileIndexReserve_eq wf]
  split
  next crowded =>
    unfold fileIndexRehash
    split
    next allocated =>
      simp only [callocOk, Bool.and_eq_true, decide_eq_true_eq] at allocated
      have pow : ∃ k, 4 ≤ k ∧ index.capacity * 2 = 2 ^ k := by
        obtain ⟨k, four, size⟩ := wf.pow
        exact ⟨k + 1, by omega, by rw [size, Nat.pow_succ]⟩
      have length : index.entries.length = index.count := wf.count_eq.symm
      obtain ⟨moved, done, laid, size, permuted⟩ := rehashSlots_spec
        (laid_vacant pow allocated.2) (show 0 + (elements index.slots).length < index.capacity * 2 by
          change 0 + index.entries.length < index.capacity * 2
          omega)
      have same : moved.entries.Perm index.entries := by
        simpa [FileIndex.entries, elements_replicate] using permuted
      have count : moved.count = index.count := by
        rw [laid.count_eq, same.length_eq, length]
      simp only at size
      rw [done]
      refine ⟨0, moved, rfl, ⟨laid, by rw [count, size]; omega, ?_, ?_, ?_⟩, same, .inl ⟨rfl, ?_⟩⟩
      · exact fun e member => wf.hashed e (same.mem_iff.mp member)
      · exact fun e member => wf.named e (same.mem_iff.mp member)
      · exact ((same.map IndexSlot.key).nodup_iff).mpr wf.distinct
      · rw [count, size]; omega
    next => exact ⟨_, index, rfl, wf, List.Perm.refl _, .inr ⟨rfl, rfl⟩⟩
  next spare =>
    rw [FileIndex.Crowded, not_le] at spare
    exact ⟨0, index, rfl, wf, List.Perm.refl _, .inl ⟨rfl, spare⟩⟩

/-! ## Upserts -/

namespace FileIndex.WellFormed

variable {index final : FileIndex} {pos : Nat}

theorem find_replaced (wf : index.WellFormed hashPath) (wf' : final.WellFormed hashPath) {fresh : IndexSlot}
    (stored : fresh ∈ final.entries) (others : ∀ e, e.key ≠ fresh.key → (e ∈ final.entries ↔ e ∈ index.entries))
    (path : CString) : fileIndexFind hashPath final path =
      if path = fresh.key then some fresh.value else fileIndexFind hashPath index path := by
  -- When only the entry of one key changes, only the lookups of this key do.
  split
  next same =>
    rw [same]
    exact wf'.find_entry stored
  next apart =>
    apply Option.ext
    intro info
    rw [wf'.find_eq_some, wf.find_eq_some]
    apply exists_congr
    intro e
    apply and_congr_left
    rintro ⟨rfl, _⟩
    exact others e apart

theorem overwrite (wf : index.WellFormed hashPath) {slot fresh : IndexSlot}
    (content : index.slots[pos]? = some (some slot)) (key : fresh.key = slot.key) (hash : fresh.hash = slot.hash)
    (named : fresh.value.path = fresh.key) :
    let final : FileIndex := { index with slots := index.slots.set pos (some fresh) }
    final.WellFormed hashPath ∧ ∀ path, fileIndexFind hashPath final path =
      if path = fresh.key then some fresh.value else fileIndexFind hashPath index path := by
  -- An upsert of a stored path writes the slot of its entry again.
  intro final
  obtain ⟨before, after, old, new⟩ := elements_set_occupied content fresh
  have entries : index.entries = before ++ slot :: after := old
  have finalEntries : final.entries = before ++ fresh :: after := new
  have member : slot ∈ index.entries := by rw [entries]; simp
  have others : ∀ e, e.key ≠ fresh.key → (e ∈ final.entries ↔ e ∈ index.entries) := by
    intro e apart
    have notFresh : e ≠ fresh := ne_of_apply_ne IndexSlot.key apart
    have notSlot : e ≠ slot := ne_of_apply_ne IndexSlot.key (key ▸ apart)
    rw [finalEntries, entries]
    simp [notFresh, notSlot]
  -- An entry of the new table is the one written or one of the old table.
  have listed : ∀ e ∈ final.entries, e = fresh ∨ e ∈ index.entries := by
    intro e within
    rw [finalEntries] at within
    rw [entries]
    simp only [List.mem_append, List.mem_cons] at within ⊢
    tauto
  have keys : final.keys = index.keys := by
    rw [FileIndex.keys, FileIndex.keys, finalEntries, entries]
    simp [key]
  have wf' : final.WellFormed hashPath := by
    refine ⟨⟨wf.pow, ?_, wf.fits, ?_, wf.placed.overwrite content ?_⟩, wf.load, ?_, ?_, ?_⟩
    · rw [List.length_set, wf.length]
    · rw [finalEntries, wf.count_eq, entries]
      simp
    · rw [homeIn, homeIn, hash]
    · intro e within
      rcases listed e within with rfl | stored
      · rw [hash, key]
        exact wf.hashed slot member
      · exact wf.hashed e stored
    · intro e within
      rcases listed e within with rfl | stored
      · exact named
      · exact wf.named e stored
    · rw [keys]
      exact wf.distinct
  exact ⟨wf', wf.find_replaced wf' (by rw [finalEntries]; simp) others⟩

theorem insert (wf : index.WellFormed hashPath) {fresh : IndexSlot} (content : index.slots[pos]? = some none)
    (placed : Placed (index.slots.set pos (some fresh)) (homeIn index.capacity))
    (spare : (index.count + 1) * 10 < index.capacity * 7) (hash : fresh.hash = hashPath fresh.key)
    (named : fresh.value.path = fresh.key) (absent : fresh.key ∉ index.keys) :
    let final : FileIndex := { index with slots := index.slots.set pos (some fresh), count := index.count + 1 }
    final.WellFormed hashPath ∧ ∀ path, fileIndexFind hashPath final path =
      if path = fresh.key then some fresh.value else fileIndexFind hashPath index path := by
  -- An upsert of a new path fills the vacant slot its probe has ended at.
  intro final
  obtain ⟨before, after, old, new⟩ := elements_set_vacant content fresh
  have finalEntries : final.entries.Perm (fresh :: index.entries) := by
    change (elements (index.slots.set pos (some fresh))).Perm (fresh :: elements index.slots)
    rw [old, new]
    exact List.perm_middle
  have wf' : final.WellFormed hashPath := by
    refine ⟨⟨wf.pow, ?_, wf.fits, ?_, placed⟩, spare, ?_, ?_, ?_⟩
    · rw [List.length_set, wf.length]
    · rw [finalEntries.length_eq, List.length_cons, ← wf.count_eq]
    · intro e within
      rcases List.mem_cons.mp (finalEntries.mem_iff.mp within) with rfl | stored
      · exact hash
      · exact wf.hashed e stored
    · intro e within
      rcases List.mem_cons.mp (finalEntries.mem_iff.mp within) with rfl | stored
      · exact named
      · exact wf.named e stored
    · have keys : final.keys.Perm (fresh.key :: index.keys) := finalEntries.map IndexSlot.key
      exact keys.nodup_iff.mpr (List.nodup_cons.mpr ⟨absent, wf.distinct⟩)
  refine ⟨wf', wf.find_replaced wf' (finalEntries.mem_iff.mpr (by simp)) fun e apart => ?_⟩
  rw [finalEntries.mem_iff, List.mem_cons, or_iff_right (ne_of_apply_ne IndexSlot.key apart)]

end FileIndex.WellFormed

/-- A successful upsert updates the map at one path; a failed one leaves it alone. -/
theorem fileIndexUpsert_spec {index : FileIndex} (wf : index.WellFormed hashPath) (path : CString)
    (size mtime : Int) (allocs : UpsertAllocs) :
    ∃ rc after, fileIndexUpsert hashPath index path size mtime allocs = some (rc, after) ∧
      after.WellFormed hashPath ∧
      ((rc = 0 ∧ ∀ other, fileIndexFind hashPath after other =
          if other = path then some ⟨path, size, mtime⟩ else fileIndexFind hashPath index other) ∨
        (rc = Fault.ENOMEM.code ∧
          ∀ other, fileIndexFind hashPath after other = fileIndexFind hashPath index other)) := by
  obtain ⟨rc, grown, reserved, wfGrown, permuted, outcome⟩ := fileIndexReserve_spec wf allocs.slotsOk
  have sameLookups := wf.find_perm wfGrown permuted
  unfold fileIndexUpsert
  rw [reserved]
  rcases outcome with ⟨rfl, spare⟩ | ⟨rfl, rfl⟩
  · simp only [ne_eq, not_true_eq_false, ↓reduceIte]
    rcases wfGrown.findSlot_total path with
      ⟨pos, slot, answer, content, member, rfl⟩ | ⟨pos, answer, content, absent, placed⟩
    · rw [answer]
      have named := wfGrown.named slot member
      let fresh : IndexSlot := { slot with value := { slot.value with size := size, mtime := mtime } }
      obtain ⟨wfFinal, lookups⟩ := wfGrown.overwrite content (show fresh.key = slot.key from rfl) rfl named
      refine ⟨0, _, rfl, wfFinal, .inl ⟨rfl, fun other => ?_⟩⟩
      rw [lookups, sameLookups, ← named]
    · rw [answer]
      cases copied : allocs.copyOk with
      | false => exact ⟨Fault.ENOMEM.code, grown, rfl, wfGrown, .inr ⟨rfl, sameLookups⟩⟩
      | true =>
        let fresh : IndexSlot := ⟨path, ⟨path, size, mtime⟩, hashPath path⟩
        obtain ⟨wfFinal, lookups⟩ := wfGrown.insert content (placed fresh rfl) spare rfl rfl absent
        refine ⟨0, _, rfl, wfFinal, .inl ⟨rfl, fun other => ?_⟩⟩
        rw [lookups, sameLookups]
  · exact ⟨Fault.ENOMEM.code, grown, by simp [Fault.ENOMEM], wfGrown, .inr ⟨rfl, sameLookups⟩⟩

theorem fileIndexUpsert_lookups {index after : FileIndex} (wf : index.WellFormed hashPath) {path : CString}
    {size mtime : Int} {allocs : UpsertAllocs}
    (stepped : fileIndexUpsert hashPath index path size mtime allocs = some (0, after)) (other : CString) :
    fileIndexFind hashPath after other =
      if other = path then some ⟨path, size, mtime⟩ else fileIndexFind hashPath index other := by
  obtain ⟨_, _, again, _, effect⟩ := fileIndexUpsert_spec wf path size mtime allocs
  rw [stepped] at again
  cases again
  rcases effect with ⟨_, lookups⟩ | ⟨failed, _⟩
  · exact lookups other
  · exact absurd failed.symm Fault.ENOMEM.nonzero

/-- The allocations that an upsert of the path asks for are granted: the larger table when this one is
crowded, and the copy of a path that is new. -/
def FileIndex.Granted (index : FileIndex) (path : CString) (allocs : UpsertAllocs) : Prop :=
  (index.Crowded → callocOk (index.capacity * 2) slotSize allocs.slotsOk = true) ∧
    (path ∉ index.keys → allocs.copyOk = true)

theorem fileIndexUpsert_zero_iff {index after : FileIndex} (wf : index.WellFormed hashPath) {path : CString}
    {size mtime : Int} {allocs : UpsertAllocs} {rc : Rc}
    (stepped : fileIndexUpsert hashPath index path size mtime allocs = some (rc, after)) :
    rc = 0 ↔ index.Granted path allocs := by
  obtain ⟨code, grown, reserved, wfGrown, permuted, _⟩ := fileIndexReserve_spec wf allocs.slotsOk
  have sameKeys : path ∈ grown.keys ↔ path ∈ index.keys := (permuted.map IndexSlot.key).mem_iff
  rw [FileIndex.Granted, ← fileIndexReserve_zero_iff wf reserved, ← sameKeys]
  simp only [fileIndexUpsert, reserved] at stepped
  by_cases failed : code ≠ 0
  · rw [if_pos failed] at stepped
    cases stepped
    simp [failed]
  · obtain rfl := not_not.mp failed
    rcases wfGrown.findSlot_total path with ⟨pos, slot, answer, _, member, rfl⟩ | ⟨pos, answer, _, absent, _⟩
    · have stored : slot.key ∈ grown.keys := List.mem_map.mpr ⟨slot, member, rfl⟩
      simp only [ne_eq, not_true_eq_false, ↓reduceIte, answer] at stepped
      cases stepped
      simp [stored]
    · simp only [ne_eq, not_true_eq_false, ↓reduceIte, answer] at stepped
      cases copied : allocs.copyOk with
      | false =>
        rw [copied] at stepped
        cases stepped
        simp [absent, Fault.ENOMEM.nonzero]
      | true =>
        rw [copied] at stepped
        cases stepped
        simp

theorem fileIndexInit_zero_iff {initialCapacity : Nat} {slotsOk : Bool} {rc : Rc} {index : FileIndex}
    (started : fileIndexInit initialCapacity slotsOk = some (rc, index)) :
    rc = 0 ↔ ∃ capacity, nextPow2 (if initialCapacity = 0 then 16 else initialCapacity) = some capacity ∧
      callocOk capacity slotSize slotsOk = true := by
  unfold fileIndexInit at started
  split at started
  · cases started
  next capacity rounded =>
    rw [rounded]
    by_cases allocated : callocOk capacity slotSize slotsOk = true
    · rw [if_pos allocated] at started
      cases started
      simp [allocated]
    · rw [if_neg allocated] at started
      cases started
      simp [allocated, Fault.ENOMEM.nonzero]

/-- The indexes a program can hold: initialised, then upserted into. -/
inductive Built (hashPath : CString → UInt64) : FileIndex → Prop where
  | init {initialCapacity : Nat} {slotsOk : Bool} {index : FileIndex} : initialCapacity ≤ 2 ^ 63 →
      fileIndexInit initialCapacity slotsOk = some (0, index) → Built hashPath index
  | upsert {index after : FileIndex} {path : CString} {size mtime : Int} {allocs : UpsertAllocs} {rc : Rc} :
      Built hashPath index → fileIndexUpsert hashPath index path size mtime allocs = some (rc, after) →
      Built hashPath after

theorem Built.wellFormed {index : FileIndex} (built : Built hashPath index) : index.WellFormed hashPath := by
  induction built with
  | init bounded started =>
    obtain ⟨rc, index, answer, ready⟩ := fileIndexInit_spec hashPath bounded _
    rw [started] at answer
    cases answer
    exact (ready rfl).1
  | upsert _ stepped ih =>
    obtain ⟨rc, after, answer, wf, _⟩ := fileIndexUpsert_spec ih _ _ _ _
    rw [stepped] at answer
    cases answer
    exact wf

/-! ## Sequences of upserts against a finite map -/

structure UpsertCall where
  path : CString
  size : Int
  mtime : Int
  allocs : UpsertAllocs

def performUpserts (hashPath : CString → UInt64) :
    List UpsertCall → FileIndex → Option (List Rc × FileIndex)
  | [], index => some ([], index)
  | call :: rest, index =>
    match fileIndexUpsert hashPath index call.path call.size call.mtime call.allocs with
    | none => none
    | some (rc, index) =>
      match performUpserts hashPath rest index with
      | none => none
      | some (rcs, final) => some (rc :: rcs, final)

def lastUpsert : List (UpsertCall × Rc) → CString → Option (Int × Int)
  | [], _ => none
  | (call, rc) :: rest, path =>
    (lastUpsert rest path).or
      (if rc = 0 ∧ call.path = path then some (call.size, call.mtime) else none)

def FileInfo.view (info : FileInfo) : Int × Int := (info.size, info.mtime)

theorem performUpserts_spec (calls : List UpsertCall) {index : FileIndex} (wf : index.WellFormed hashPath) :
    ∃ rcs final, performUpserts hashPath calls index = some (rcs, final) ∧ rcs.length = calls.length ∧
      final.WellFormed hashPath ∧ ∀ path, (fileIndexFind hashPath final path).map FileInfo.view =
        (lastUpsert (calls.zip rcs) path).or ((fileIndexFind hashPath index path).map FileInfo.view) := by
  induction calls generalizing index with
  | nil => exact ⟨[], index, rfl, rfl, wf, fun path => by simp [lastUpsert]⟩
  | cons call rest ih =>
    obtain ⟨rc, after, stepped, wfAfter, effect⟩ :=
      fileIndexUpsert_spec wf call.path call.size call.mtime call.allocs
    obtain ⟨rcs, final, performed, length, wfFinal, lookups⟩ := ih wfAfter
    refine ⟨rc :: rcs, final, by simp [performUpserts, stepped, performed], by simp [length], wfFinal, ?_⟩
    intro path
    rw [lookups, List.zip_cons_cons, lastUpsert, Option.or_assoc]
    congr 1
    rcases effect with ⟨rfl, updated⟩ | ⟨rfl, unchanged⟩
    · rw [updated]
      by_cases same : path = call.path
      · simp [same, FileInfo.view]
      · simp [same, Ne.symm same]
    · rw [unchanged]
      simp [Fault.ENOMEM]

/-- From initialisation on the index is the finite map of its successful upserts, and only an
allocation that is not granted makes one fail. -/
theorem file_index_refines (hashPath : CString → UInt64) {initialCapacity : Nat}
    (bounded : initialCapacity ≤ 2 ^ 63) (slotsOk : Bool) :
    ∃ rc index, fileIndexInit initialCapacity slotsOk = some (rc, index) ∧
      (rc = 0 ↔ ∃ capacity, nextPow2 (if initialCapacity = 0 then 16 else initialCapacity) = some capacity ∧
        callocOk capacity slotSize slotsOk = true) ∧
      (rc = 0 → ∀ calls, ∃ rcs final, performUpserts hashPath calls index = some (rcs, final) ∧
        rcs.length = calls.length ∧
        (∀ path, (fileIndexFind hashPath final path).map FileInfo.view = lastUpsert (calls.zip rcs) path ∧
          (fileIndexFindConst hashPath final path).map FileInfo.view = lastUpsert (calls.zip rcs) path) ∧
        final.keys.Nodup ∧ (∀ path, path ∈ final.keys ↔ (lastUpsert (calls.zip rcs) path).isSome) ∧
        final.count = final.keys.length ∧
        ∀ path size mtime allocs, ∃ rc after,
          fileIndexUpsert hashPath final path size mtime allocs = some (rc, after) ∧
          (rc = 0 ↔ final.Granted path allocs) ∧
          (rc ≠ 0 → rc = Fault.ENOMEM.code ∧ after.count = final.count ∧
            ∀ other, fileIndexFind hashPath after other = fileIndexFind hashPath final other ∧
              (other ∈ after.keys ↔ other ∈ final.keys))) := by
  obtain ⟨rc, index, started, ready⟩ := fileIndexInit_spec hashPath bounded slotsOk
  refine ⟨rc, index, started, fileIndexInit_zero_iff started, fun ok calls => ?_⟩
  obtain ⟨wf, nothing⟩ := ready ok
  have absent : ∀ path, fileIndexFind hashPath index path = none := fun path =>
    wf.find_absent (by rw [FileIndex.keys, nothing]; simp)
  obtain ⟨rcs, final, performed, length, wfFinal, lookups⟩ := performUpserts_spec calls wf
  have refines : ∀ path,
      (fileIndexFind hashPath final path).map FileInfo.view = lastUpsert (calls.zip rcs) path := by
    intro path
    rw [lookups, absent]
    simp
  refine ⟨rcs, final, performed, length, fun path => ⟨refines path, refines path⟩, wfFinal.distinct, ?_,
    wfFinal.count_keys, ?_⟩
  · intro path
    rw [wfFinal.mem_keys, ← refines]
    simp
  · intro path size mtime allocs
    obtain ⟨rc, after, stepped, wfAfter, effect⟩ := fileIndexUpsert_spec wfFinal path size mtime allocs
    refine ⟨rc, after, stepped, fileIndexUpsert_zero_iff wfFinal stepped, fun failed => ?_⟩
    rcases effect with ⟨ok, _⟩ | ⟨code, unchanged⟩
    · exact absurd ok failed
    · have sameKeys : ∀ other, other ∈ after.keys ↔ other ∈ final.keys := fun other => by
        rw [wfAfter.mem_keys, wfFinal.mem_keys, unchanged]
      have permuted : after.keys.Perm final.keys :=
        (List.perm_ext_iff_of_nodup wfAfter.distinct wfFinal.distinct).mpr sameKeys
      refine ⟨code, ?_, fun other => ⟨unchanged other, sameKeys other⟩⟩
      rw [wfAfter.count_keys, wfFinal.count_keys, permuted.length_eq]

/-- Two keys in one bucket: with a constant hash the second lives one slot behind the first. -/
theorem file_index_refines_colliding :
    ∃ final, performUpserts (fun _ => 15)
        [⟨⟨[97], by decide⟩, 1, 2, ⟨true, true⟩⟩, ⟨⟨[98], by decide⟩, 3, 4, ⟨true, true⟩⟩]
        ⟨List.replicate 16 none, 16, 0⟩ = some ([0, 0], final) ∧
      (fileIndexFind (fun _ => 15) final ⟨[98], by decide⟩).map FileInfo.view = some (3, 4) := by
  obtain ⟨rc, index, started, _, refines⟩ :=
    file_index_refines (fun _ => 15) (show 0 ≤ 2 ^ 63 by decide) true
  have empty : fileIndexInit 0 true = some (0, ⟨List.replicate 16 none, 16, 0⟩) := by decide +kernel
  rw [empty] at started
  cases started
  obtain ⟨rcs, final, performed, _, lookups, _⟩ := refines rfl
    [⟨⟨[97], by decide⟩, 1, 2, ⟨true, true⟩⟩, ⟨⟨[98], by decide⟩, 3, 4, ⟨true, true⟩⟩]
  have codes : (performUpserts (fun _ => 15)
      [⟨⟨[97], by decide⟩, 1, 2, ⟨true, true⟩⟩, ⟨⟨[98], by decide⟩, 3, 4, ⟨true, true⟩⟩]
      ⟨List.replicate 16 none, 16, 0⟩).map Prod.fst = some [0, 0] := by decide +kernel
  rw [performed] at codes
  obtain rfl : rcs = [0, 0] := Option.some.inj codes
  exact ⟨final, performed, (lookups _).1.trans (by decide)⟩

end Verdiff
