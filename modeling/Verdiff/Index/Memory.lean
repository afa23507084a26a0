import Verdiff.Arena.Memory
import Verdiff.Index.Refinement
import Verdiff.Library.Transition

/-! The path index as it lies in memory.

The slots are an array that is replaced when the table grows; what a slot stores of a path is a
pointer into the arena. The array is read and written within its bounds and while it is
allocated, anything else is an error.
-/

set_option autoImplicit false

namespace Verdiff
open Bump Probing Transition

structure FileIndexPtrs where
  slots : Option Nat
  capacity : Nat
  count : Nat
  arena : ArenaPtrs

structure IndexMemory where
  index : FileIndexPtrs
  heap : IndexHeap

def readSlots (heap : IndexHeap) (slots : Option Nat) : Option (List (Option IndexSlotPtrs)) := do
  match ← heap.read (← slots) with
  | .slots slots => some slots
  | _ => none

def writeSlot (heap : IndexHeap) (slots : Option Nat) (pos : Nat) (slot : IndexSlotPtrs) : Option IndexHeap := do
  let block ← slots
  let content ← readSlots heap slots
  if pos < content.length then heap.write block (.slots (content.set pos (some slot)))
  else none

def rehashSlotsAt : List (Option IndexSlotPtrs) → IndexMemory → Option IndexMemory
  | [], m => some m
  | none :: rest, m => rehashSlotsAt rest m
  | some slot :: rest, m => do
    let slots ← readSlots m.heap m.index.slots
    let (pos, _) ← searchThrough slots (nextProbe m.index.capacity) (fun _ => some false) m.index.capacity
      (probeIndex slot.hash m.index.capacity)
    let heap ← writeSlot m.heap m.index.slots pos slot
    rehashSlotsAt rest ⟨{ m.index with count := m.index.count + 1 }, heap⟩

def fileIndexRehashAt (m : IndexMemory) (newCapacity : Nat) (slotsOk : Bool) : Option (Rc × IndexMemory) :=
  if callocOk newCapacity slotSize slotsOk then do
    let (block, heap) := m.heap.alloc (.slots (List.replicate newCapacity none))
    let old ← readSlots heap m.index.slots
    if old.length < m.index.capacity then none
    else
      let moved ← rehashSlotsAt (old.take m.index.capacity)
        ⟨{ m.index with slots := some block, capacity := newCapacity, count := 0 }, heap⟩
      let heap ← moved.heap.freePtr m.index.slots
      return (0, ⟨moved.index, heap⟩)
  else some (Fault.ENOMEM.code, m)

/-- The index is `{0}` when it is initialised. -/
def fileIndexInitAt (heap : IndexHeap) (initialCapacity : Nat) (slotsOk : Bool) : Option (Rc × IndexMemory) := do
  let capacity ← nextPow2 (if initialCapacity = 0 then 16 else initialCapacity)
  if callocOk capacity slotSize slotsOk then
    let (block, heap) := heap.alloc (.slots (List.replicate capacity none))
    let (rc, arena) := stringArenaInitAt indexArenaChunkSize.toNat
    return (rc, ⟨⟨some block, capacity, 0, arena⟩, heap⟩)
  else return (Fault.ENOMEM.code, ⟨⟨none, 0, 0, ⟨none, 0⟩⟩, heap⟩)

def fileIndexDestroyAt (m : IndexMemory) : Option IndexHeap := do
  let heap ← m.heap.freePtr m.index.slots
  stringArenaDestroyAt heap.blocks.length m.index.arena.head heap

def slotMatchesAt (heap : IndexHeap) (path : CString) (hash : UInt64) (slot : IndexSlotPtrs) : Option Bool :=
  if slot.hash == hash then do
    let key ← readText heap slot.key
    return strcmpBytes key path.bytes == 0
  else some false

def fileIndexFindSlotAt (m : IndexMemory) (path : CString) (hash : UInt64) : Option (Nat × Option IndexSlotPtrs) :=
  if m.index.capacity = 0 then some (0, none)
  else do
    let slots ← readSlots m.heap m.index.slots
    searchThrough slots (nextProbe m.index.capacity) (slotMatchesAt m.heap path hash) m.index.capacity
      (probeIndex hash m.index.capacity)

structure UpsertMemoryCall where
  copy : CopyCall
  size : Int
  mtime : Int
  slotsOk : Bool

section
variable (hashPath : CString → UInt64)

/-- What is found, or that nothing is. -/
def fileIndexFindAt (m : IndexMemory) (path : CString) : Option (Option FileInfoPtrs) := do
  let (_, found) ← fileIndexFindSlotAt m path (hashPath path)
  return found.map IndexSlotPtrs.value

def fileIndexReserveAt (m : IndexMemory) (slotsOk : Bool) : Option (Rc × IndexMemory) :=
  if (m.index.count + 1) * 10 % wordSize ≥ m.index.capacity * 7 % wordSize then
    fileIndexRehashAt m (m.index.capacity * 2 % wordSize) slotsOk
  else some (0, m)

/-- The part of `file_index_upsert` that has found no slot of the path. -/
def fileIndexAddAt (m : IndexMemory) (slot : Nat) (call : UpsertMemoryCall) : Option (Rc × IndexMemory) := do
  let (stored, arena, heap) ← stringArenaCopyAt m.heap m.index.arena call.copy
  match stored with
  | none => return (Fault.ENOMEM.code, ⟨{ m.index with arena := arena }, heap⟩)
  | some stored => do
    let heap ← writeSlot heap m.index.slots slot ⟨stored, ⟨stored, call.size, call.mtime⟩, hashPath call.copy.value⟩
    return (0, ⟨{ m.index with arena := arena, count := m.index.count + 1 }, heap⟩)

def fileIndexUpsertAt (m : IndexMemory) (call : UpsertMemoryCall) : Option (Rc × IndexMemory) := do
  let (rc, m) ← fileIndexReserveAt m call.slotsOk
  if rc ≠ 0 then return (rc, m)
  else
    match ← fileIndexFindSlotAt m call.copy.value (hashPath call.copy.value) with
    | (slot, some existing) => do
      let value := { existing.value with size := call.size, mtime := call.mtime }
      let heap ← writeSlot m.heap m.index.slots slot { existing with value := value }
      return (0, ⟨m.index, heap⟩)
    | (slot, none) => fileIndexAddAt hashPath m slot call

end

/-! ## The blocks of an index -/

structure SlotAt (strings : List (Place × CString)) (ptr : IndexSlotPtrs) (slot : IndexSlot) : Prop where
  key : (ptr.key, slot.key) ∈ strings
  hash : ptr.hash = slot.hash
  path : ptr.value.path = ptr.key
  size : ptr.value.size = slot.value.size
  mtime : ptr.value.mtime = slot.value.mtime

/-- The array of the slots, and the chunks that hold the strings. -/
inductive IndexAt (hashPath : CString → UInt64) (ptrs : FileIndexPtrs) (index : FileIndex)
    (strings : List (Place × CString)) : List (Nat × IndexBlock) → Prop where
  | mk {block : Nat} {refs : List (Option IndexSlotPtrs)} {chain : List (Nat × IndexBlock)} :
      index.WellFormed hashPath → ptrs.slots = some block → ptrs.capacity = index.capacity → ptrs.count = index.count →
      ptrs.arena.chunkSize = indexArenaChunkSize.toNat → Stands (SlotAt strings) refs index.slots →
      StringsAt ptrs.arena strings chain → IndexAt hashPath ptrs index strings ((block, .slots refs) :: chain)

/-- A copy fails when the newest chunk has no room for it and there is no other one to be had. -/
def IndexMemory.copyOk (m : IndexMemory) (call : UpsertMemoryCall) : Bool :=
  lacksRoomAt m.heap m.index.arena.head call.copy.len != some true || call.copy.malloc.isSome

/-- The allocations that a call asks for are granted: the larger table when this one is crowded, and
room for a path that is new. -/
def IndexMemory.Granted (hashPath : CString → UInt64) (m : IndexMemory) (call : UpsertMemoryCall) : Prop :=
  (m.index.capacity * 7 ≤ (m.index.count + 1) * 10 →
    callocOk (m.index.capacity * 2) slotSize call.slotsOk = true) ∧
  (fileIndexFindAt hashPath m call.copy.value = some none → m.copyOk call = true)

section
variable {heap : IndexHeap} {rest cells : List (Nat × IndexBlock)} {block pos : Nat} {refs : List (Option IndexSlotPtrs)}
  {strings more : List (Place × CString)}

theorem readSlots_ok (holds : heap.Holds cells) (member : (block, .slots refs) ∈ cells) :
    readSlots heap (some block) = some refs := by
  simp only [readSlots, Option.bind_eq_bind, Option.bind_some, holds.read member]

theorem writeSlot_ok (holds : heap.Holds ((block, .slots refs) :: rest)) (inside : pos < refs.length)
    (slot : IndexSlotPtrs) : ∃ after, writeSlot heap (some block) pos slot = some after ∧
      after.Holds ((block, .slots (refs.set pos (some slot))) :: rest) := by
  obtain ⟨after, written, kept⟩ := holds.write (.slots (refs.set pos (some slot)))
  refine ⟨after, ?_, kept⟩
  simp only [writeSlot, readSlots_ok holds (List.mem_cons_self ..), Option.bind_eq_bind, Option.bind_some, if_pos inside]
  exact written

theorem SlotAt.weaken {ptr : IndexSlotPtrs} {slot : IndexSlot} (at_ : SlotAt strings ptr slot) (grown : strings ⊆ more) :
    SlotAt more ptr slot :=
  ⟨grown at_.key, at_.hash, at_.path, at_.size, at_.mtime⟩

/-! ## Growing -/

theorem probe_inside {capacity size : Nat} (pow : ∃ k, 4 ≤ k ∧ capacity = 2 ^ k) (fits : capacity * slotSize < wordSize)
    (length : size = capacity) : ∀ pos < size, nextProbe capacity pos < size := by
  intro pos inside
  rw [length] at inside ⊢
  rw [nextProbe_eq pow fits inside]
  exact Nat.mod_lt _ (capacity_pos pow)

theorem rehashSlots_sizes {old : List (Option IndexSlot)} {index moved : FileIndex}
    (rehashed : rehashSlots old index = some moved) :
    moved.capacity = index.capacity ∧ moved.slots.length = index.slots.length := by
  induction old generalizing index with
  | nil =>
    cases rehashed
    exact ⟨rfl, rfl⟩
  | cons content old ih =>
    cases content with
    | none => exact ih rehashed
    | some slot =>
      simp only [rehashSlots] at rehashed
      cases answer : search index.slots (nextProbe index.capacity) (fun _ => false) index.capacity
          (probeIndex slot.hash index.capacity) with
      | none =>
        rw [answer] at rehashed
        cases rehashed
      | some found =>
        rw [answer] at rehashed
        obtain ⟨capacity, length⟩ := ih rehashed
        exact ⟨capacity, length.trans (List.length_set ..)⟩

theorem rehashSlotsAt_ok {oldRefs : List (Option IndexSlotPtrs)} {old : List (Option IndexSlot)} {index moved : FileIndex}
    {arena : ArenaPtrs} (oldStands : Stands (SlotAt strings) oldRefs old) (rehashed : rehashSlots old index = some moved)
    (pow : ∃ k, 4 ≤ k ∧ index.capacity = 2 ^ k) (fits : index.capacity * slotSize < wordSize)
    (length : index.slots.length = index.capacity) (stands : Stands (SlotAt strings) refs index.slots)
    (holds : heap.Holds ((block, .slots refs) :: rest)) :
    ∃ after refs', rehashSlotsAt oldRefs ⟨⟨some block, index.capacity, index.count, arena⟩, heap⟩ =
        some ⟨⟨some block, index.capacity, moved.count, arena⟩, after⟩ ∧
      Stands (SlotAt strings) refs' moved.slots ∧ after.Holds ((block, .slots refs') :: rest) := by
  -- The loop moves the pointers as the loop without memory moves the slots.
  induction oldStands generalizing index heap refs with
  | nil =>
    cases rehashed
    exact ⟨heap, refs, rfl, stands, holds⟩
  | @cons ref content _ _ related _ ih =>
    cases related with
    | none => exact ih rehashed pow fits length stands holds
    | @some ref slot related =>
      simp only [rehashSlots] at rehashed
      cases answer : search index.slots (nextProbe index.capacity) (fun _ => false) index.capacity
          (probeIndex slot.hash index.capacity) with
      | none =>
        rw [answer] at rehashed
        cases rehashed
      | some found =>
        obtain ⟨pos, found⟩ := found
        rw [answer] at rehashed
        have misses : ∀ (ref : IndexSlotPtrs) (slot : IndexSlot), SlotAt strings ref slot →
            (fun _ : IndexSlotPtrs => some false) ref = some ((fun _ : IndexSlot => false) slot) := fun _ _ _ => rfl
        have within : probeIndex slot.hash index.capacity < index.slots.length := by
          rw [length]
          exact probeIndex_lt pow fits slot.hash
        obtain ⟨_, probed, _, inside⟩ := stands.search (probe_inside pow fits length) misses within answer
        obtain ⟨middle, written, kept⟩ := writeSlot_ok holds inside ref
        obtain ⟨after, refs', goes, stands', kept'⟩ := ih rehashed pow fits ((List.length_set ..).trans length)
          (stands.set related pos) kept
        refine ⟨after, refs', ?_, stands', kept'⟩
        simp only [rehashSlotsAt, readSlots_ok holds (List.mem_cons_self ..), Option.bind_eq_bind, Option.bind_some,
          related.hash, probed, written]
        exact goes

variable {hashPath : CString → UInt64} {ptrs : FileIndexPtrs} {index after : FileIndex}

theorem fileIndexRehashAt_ok {rc : Rc} {newCapacity : Nat} {slotsOk : Bool} (at_ : IndexAt hashPath ptrs index strings cells)
    (holds : heap.Holds (cells ++ rest)) (rehashed : fileIndexRehash index newCapacity slotsOk = some (rc, after))
    (wf : after.WellFormed hashPath) :
    ∃ next cells', fileIndexRehashAt ⟨ptrs, heap⟩ newCapacity slotsOk = some (rc, next) ∧
      IndexAt hashPath next.index after strings cells' ∧ next.heap.Holds (cells' ++ rest) ∧
      ∀ len, lacksRoomAt next.heap next.index.arena.head len = lacksRoomAt heap ptrs.arena.head len := by
  rw [fileIndexRehash] at rehashed
  by_cases allocated : callocOk newCapacity slotSize slotsOk = true
  · obtain @⟨block, refs, chain, before, slots, capacity, count, chunkSize, stands, stringsAt⟩ := at_
    rw [if_pos allocated] at rehashed
    cases moved : rehashSlots index.slots ⟨List.replicate newCapacity none, newCapacity, 0⟩ with
    | none =>
      rw [moved] at rehashed
      cases rehashed
    | some table =>
      rw [moved] at rehashed
      cases rehashed
      obtain ⟨size, _⟩ := rehashSlots_sizes moved
      have both := holds.alloc (.slots (List.replicate newCapacity none))
      have whole : refs.length = ptrs.capacity := by rw [stands.length_eq, before.length, capacity]
      obtain ⟨middle, refs', goes, stands', kept⟩ := @rehashSlotsAt_ok _ _ _ _ _ _ _ _ _ ptrs.arena stands moved
        (size ▸ wf.pow) (size ▸ wf.fits) List.length_replicate (stands_vacant _ _) both
      have front : middle.Holds ((block, .slots refs) :: ((heap.next, .slots refs') :: (chain ++ rest))) :=
        kept.reorder (List.Perm.swap _ _ _)
      obtain ⟨last, freed, kept⟩ := front.free
      have before : heap.Holds (chain ++ ((block, .slots refs) :: rest)) := holds.reorder List.perm_middle.symm
      have behind : last.Holds (chain ++ ((heap.next, .slots refs') :: rest)) := kept.reorder List.perm_middle.symm
      refine ⟨⟨⟨some heap.next, newCapacity, after.count, ptrs.arena⟩, last⟩, _, ?_,
        .mk wf rfl size.symm rfl chunkSize stands' stringsAt, kept, stringsAt.lacksRoom_eq before behind⟩
      have old := readSlots_ok both (List.mem_cons_of_mem _ (List.mem_cons_self ..))
      have enough : ¬refs.length < ptrs.capacity := by rw [whole]; exact Nat.lt_irrefl _
      have taken : refs.take ptrs.capacity = refs := by rw [← whole, List.take_length]
      simp only [fileIndexRehashAt, if_pos allocated, slots, Heap.alloc] at old goes ⊢
      simp only [old, Option.bind_eq_bind, Option.bind_some, if_neg enough, taken, goes, Heap.freePtr, freed]
      rfl
  · rw [if_neg allocated] at rehashed
    cases rehashed
    exact ⟨⟨ptrs, heap⟩, cells, if_neg allocated, at_, holds, fun _ => rfl⟩

theorem fileIndexReserveAt_ok {rc : Rc} {slotsOk : Bool} (at_ : IndexAt hashPath ptrs index strings cells)
    (holds : heap.Holds (cells ++ rest)) (reserved : fileIndexReserve index slotsOk = some (rc, after))
    (wf : after.WellFormed hashPath) :
    ∃ next cells', fileIndexReserveAt ⟨ptrs, heap⟩ slotsOk = some (rc, next) ∧
      IndexAt hashPath next.index after strings cells' ∧ next.heap.Holds (cells' ++ rest) ∧
      ∀ len, lacksRoomAt next.heap next.index.arena.head len = lacksRoomAt heap ptrs.arena.head len := by
  have same : ptrs.count = index.count ∧ ptrs.capacity = index.capacity := by
    cases at_
    exact ⟨‹_›, ‹_›⟩
  rw [fileIndexReserve] at reserved
  simp only [fileIndexReserveAt, same.1, same.2]
  by_cases crowded : (index.count + 1) * 10 % wordSize ≥ index.capacity * 7 % wordSize
  · rw [if_pos crowded] at reserved ⊢
    exact fileIndexRehashAt_ok at_ holds reserved wf
  · rw [if_neg crowded] at reserved ⊢
    cases reserved
    exact ⟨⟨ptrs, heap⟩, cells, rfl, at_, holds, fun _ => rfl⟩

/-! ## Lookups -/

theorem slotMatchesAt_ok {arena : ArenaPtrs} {ref : IndexSlotPtrs} {slot : IndexSlot} (at_ : StringsAt arena strings cells)
    (holds : heap.Holds (cells ++ rest)) (path : CString) (hash : UInt64) (related : SlotAt strings ref slot) :
    slotMatchesAt heap path hash ref = some (slot.hash == hash && strcmp slot.key path == 0) := by
  rw [slotMatchesAt, related.hash]
  cases slot.hash == hash with
  | false => rfl
  | true =>
    simp only [↓reduceIte, at_.read holds related.key, Option.bind_eq_bind, Option.bind_some, Bool.true_and]
    rfl

theorem fileIndexFindSlotAt_ok {path : CString} {hash : UInt64} {found : Option IndexSlot}
    (at_ : IndexAt hashPath ptrs index strings cells) (holds : heap.Holds (cells ++ rest))
    (answer : fileIndexFindSlot index path hash = some (pos, found)) :
    ∃ ref, fileIndexFindSlotAt ⟨ptrs, heap⟩ path hash = some (pos, ref) ∧ Option.Rel (SlotAt strings) ref found := by
  obtain @⟨block, refs, chain, wf, slots, capacity, _, _, stands, stringsAt⟩ := at_
  have nonzero : index.capacity ≠ 0 := (capacity_pos wf.pow).ne'
  have behind : heap.Holds (chain ++ ((block, .slots refs) :: rest)) := holds.reorder List.perm_middle.symm
  rw [fileIndexFindSlot, if_neg nonzero] at answer
  obtain ⟨ref, through, related, _⟩ := stands.search (probe_inside wf.pow wf.fits wf.length)
    (fun _ _ related => slotMatchesAt_ok stringsAt behind path hash related) (wf.home_lt hash) answer
  refine ⟨ref, ?_, related⟩
  simp only [fileIndexFindSlotAt, capacity, if_neg nonzero, slots, readSlots_ok holds (List.mem_cons_self ..),
    Option.bind_eq_bind, Option.bind_some]
  exact through

theorem IndexAt.wellFormed (at_ : IndexAt hashPath ptrs index strings cells) : index.WellFormed hashPath := by
  cases at_
  assumption

def FileInfoPtrs.view (info : FileInfoPtrs) : Int × Int := (info.size, info.mtime)

theorem fileIndexFindAt_ok (at_ : IndexAt hashPath ptrs index strings cells) (holds : heap.Holds (cells ++ rest))
    (path : CString) :
    ∃ found, fileIndexFindAt hashPath ⟨ptrs, heap⟩ path = some found ∧
      found.map FileInfoPtrs.view = (fileIndexFind hashPath index path).map FileInfo.view ∧
      ∀ info, found = some info → (info.path, path) ∈ strings := by
  rcases at_.wellFormed.findSlot_total path with ⟨pos, slot, answer, _, _, rfl⟩ | ⟨pos, answer, _⟩
  · obtain ⟨ref, found, related⟩ := fileIndexFindSlotAt_ok at_ holds answer
    cases related with
    | @some ref _ related =>
      refine ⟨some ref.value, ?_, ?_, ?_⟩
      · simp only [fileIndexFindAt, found, Option.bind_eq_bind, Option.bind_some]
        rfl
      · rw [fileIndexFind, answer]
        simp only [Option.map_some, FileInfoPtrs.view, FileInfo.view, related.size, related.mtime]
      · rintro info ⟨⟩
        rw [related.path]
        exact related.key
  · obtain ⟨ref, found, related⟩ := fileIndexFindSlotAt_ok at_ holds answer
    cases related
    refine ⟨none, ?_, ?_, fun info impossible => by cases impossible⟩
    · simp only [fileIndexFindAt, found, Option.bind_eq_bind, Option.bind_some]
      rfl
    · rw [fileIndexFind, answer]
      rfl

/-! ## Upserts -/

theorem FileIndex.WellFormed.upserted {path : CString} {size mtime : Int} {allocs : UpsertAllocs} {rc : Rc}
    (wf : index.WellFormed hashPath) (stepped : fileIndexUpsert hashPath index path size mtime allocs = some (rc, after)) :
    after.WellFormed hashPath := by
  obtain ⟨_, _, answer, wf', _⟩ := fileIndexUpsert_spec wf path size mtime allocs
  rw [stepped] at answer
  cases answer
  exact wf'

theorem IndexAt.write {arena : ArenaPtrs} {chain : List (Nat × IndexBlock)} {count : Nat} {ref : IndexSlotPtrs}
    {slot : IndexSlot} (stands : Stands (SlotAt strings) refs index.slots)
    (holds : heap.Holds ((block, .slots refs) :: (chain ++ rest))) (inside : pos < refs.length)
    (chunkSize : arena.chunkSize = indexArenaChunkSize.toNat) (stringsAt : StringsAt arena strings chain)
    (related : SlotAt strings ref slot)
    (wf : FileIndex.WellFormed hashPath ⟨index.slots.set pos (some slot), index.capacity, count⟩) :
    ∃ last cells', writeSlot heap (some block) pos ref = some last ∧
      IndexAt hashPath ⟨some block, index.capacity, count, arena⟩ ⟨index.slots.set pos (some slot), index.capacity, count⟩
        strings cells' ∧
      last.Holds (cells' ++ rest) := by
  obtain ⟨last, written, kept⟩ := writeSlot_ok holds inside ref
  exact ⟨last, _, written, .mk wf rfl rfl rfl chunkSize (stands.set related pos) stringsAt, kept⟩

theorem IndexAt.overwrite {ref : IndexSlotPtrs} {slot : IndexSlot} (at_ : IndexAt hashPath ptrs index strings cells)
    (holds : heap.Holds (cells ++ rest)) (content : index.slots[pos]? = some (some slot)) (related : SlotAt strings ref slot)
    (size mtime : Int)
    (wf : FileIndex.WellFormed hashPath { index with
      slots := index.slots.set pos (some { slot with value := { slot.value with size := size, mtime := mtime } }) }) :
    ∃ last cells', writeSlot heap ptrs.slots pos { ref with value := { ref.value with size := size, mtime := mtime } } =
        some last ∧
      IndexAt hashPath ptrs { index with
        slots := index.slots.set pos (some { slot with value := { slot.value with size := size, mtime := mtime } }) }
        strings cells' ∧
      last.Holds (cells' ++ rest) := by
  obtain ⟨_, capacity, count, arena⟩ := ptrs
  obtain @⟨block, refs, chain, _, rfl, rfl, rfl, chunkSize, stands, stringsAt⟩ := at_
  have inside : pos < refs.length := stands.length_eq ▸ (List.getElem?_eq_some_iff.mp content).1
  exact IndexAt.write stands holds inside chunkSize stringsAt ⟨related.key, related.hash, related.path, rfl, rfl⟩ wf

def freshSlot (hashPath : CString → UInt64) (call : UpsertMemoryCall) : IndexSlot :=
  ⟨call.copy.value, ⟨call.copy.value, call.size, call.mtime⟩, hashPath call.copy.value⟩

def FileIndex.fill (index : FileIndex) (pos : Nat) (slot : IndexSlot) : FileIndex :=
  ⟨index.slots.set pos (some slot), index.capacity, index.count + 1⟩

theorem fileIndexAddAt_ok (at_ : IndexAt hashPath ptrs index strings cells) (holds : heap.Holds (cells ++ rest))
    (vacant : index.slots[pos]? = some none) (call : UpsertMemoryCall) (fits : arenaChunkSize + call.copy.len < wordSize)
    (wf : (index.fill pos (freshSlot hashPath call)).WellFormed hashPath) :
    (IndexMemory.copyOk ⟨ptrs, heap⟩ call = false ∧
      fileIndexAddAt hashPath ⟨ptrs, heap⟩ pos call = some (Fault.ENOMEM.code, ⟨ptrs, heap⟩)) ∨
    IndexMemory.copyOk ⟨ptrs, heap⟩ call = true ∧ ∃ next more cells',
      fileIndexAddAt hashPath ⟨ptrs, heap⟩ pos call = some (0, next) ∧
      IndexAt hashPath next.index (index.fill pos (freshSlot hashPath call)) more cells' ∧ strings ⊆ more ∧
      next.heap.Holds (cells' ++ rest) := by
  -- A path that is new is copied and its slot filled, or there is no chunk for it and all stays as it is.
  obtain ⟨_, capacity, count, arena⟩ := ptrs
  obtain @⟨block, refs, chain, _, rfl, rfl, rfl, chunkSize, stands, stringsAt⟩ := at_
  have behind : heap.Holds (chain ++ ((block, .slots refs) :: rest)) := holds.reorder List.perm_middle.symm
  have small : arenaChunkSize + arena.chunkSize < wordSize := (congrArg (arenaChunkSize + ·) chunkSize).trans_lt (by decide)
  have asked : ∀ chunks, RequestFits ⟨chunks, arena.chunkSize⟩ call.copy := fun chunks =>
    (requestsFit_of_bounded small (List.forall_mem_singleton.mpr fits)).1
  rcases stringsAt.copy behind asked with ⟨wanting, refused⟩ |
    ⟨granted, ptr, arena', middle, chain', copied, sameSize, strings', others⟩
  · refine .inl ⟨by simp [IndexMemory.copyOk, wanting], ?_⟩
    simp only [fileIndexAddAt, refused, Option.bind_eq_bind, Option.bind_some]
    rfl
  · have inside : pos < refs.length := stands.length_eq ▸ (List.getElem?_eq_some_iff.mp vacant).1
    have front : middle.Holds ((block, .slots refs) :: (chain' ++ rest)) := others.reorder List.perm_middle
    have subset := List.subset_cons_self (ptr, call.copy.value) strings
    have written : SlotAt ((ptr, call.copy.value) :: strings)
        ⟨ptr, ⟨ptr, call.size, call.mtime⟩, hashPath call.copy.value⟩ (freshSlot hashPath call) :=
      ⟨List.mem_cons_self .., rfl, rfl, rfl, rfl⟩
    obtain ⟨after, cells', stored, indexAt, kept⟩ := IndexAt.write
      (stands.imp fun _ _ related => related.weaken subset) front inside (sameSize.trans chunkSize) strings' written wf
    have copyOk : IndexMemory.copyOk ⟨⟨some block, index.capacity, index.count, arena⟩, heap⟩ call = true := by
      simp only [IndexMemory.copyOk, Bool.or_eq_true, bne_iff_ne]
      exact or_iff_not_imp_left.mpr fun lacks => granted (not_not.mp lacks)
    refine .inr ⟨copyOk, ⟨_, after⟩, _, cells', ?_, indexAt, subset, kept⟩
    simp only [fileIndexAddAt, copied, Option.bind_eq_bind, Option.bind_some, stored]
    rfl

theorem IndexAt.granted_iff (at_ : IndexAt hashPath ptrs index strings cells) (holds : heap.Holds (cells ++ rest))
    (call : UpsertMemoryCall) : IndexMemory.Granted hashPath ⟨ptrs, heap⟩ call ↔
      index.Granted call.copy.value ⟨call.slotsOk, IndexMemory.copyOk ⟨ptrs, heap⟩ call⟩ := by
  have same : ptrs.count = index.count ∧ ptrs.capacity = index.capacity := by
    cases at_
    exact ⟨‹_›, ‹_›⟩
  obtain ⟨found, given, view, _⟩ := fileIndexFindAt_ok at_ holds call.copy.value
  have absent : fileIndexFindAt hashPath ⟨ptrs, heap⟩ call.copy.value = some none ↔ call.copy.value ∉ index.keys := by
    rw [given, at_.wellFormed.mem_keys, Option.not_isSome_iff_eq_none, Option.some.injEq, ← Option.map_eq_none_iff,
      view, Option.map_eq_none_iff]
  simp only [IndexMemory.Granted, FileIndex.Granted, FileIndex.Crowded, same.1, same.2, absent]

theorem fileIndexUpsertAt_ok (at_ : IndexAt hashPath ptrs index strings cells) (holds : heap.Holds (cells ++ rest))
    (call : UpsertMemoryCall) (fits : arenaChunkSize + call.copy.len < wordSize) :
    ∃ rc after next more cells', fileIndexUpsertAt hashPath ⟨ptrs, heap⟩ call = some (rc, next) ∧
      fileIndexUpsert hashPath index call.copy.value call.size call.mtime
        ⟨call.slotsOk, IndexMemory.copyOk ⟨ptrs, heap⟩ call⟩ = some (rc, after) ∧
      IndexAt hashPath next.index after more cells' ∧ strings ⊆ more ∧ next.heap.Holds (cells' ++ rest) := by
  have wf := at_.wellFormed
  obtain ⟨rc, grown, reserved, wfGrown, _, outcome⟩ := fileIndexReserve_spec wf call.slotsOk
  obtain ⟨⟨ptrs', middle⟩, cells', reservedAt, atGrown, held, rooms⟩ := fileIndexReserveAt_ok at_ holds reserved wfGrown
  have sameCopy : IndexMemory.copyOk ⟨ptrs', middle⟩ call = IndexMemory.copyOk ⟨ptrs, heap⟩ call := by
    simp only [IndexMemory.copyOk, rooms]
  rw [← sameCopy]
  rcases outcome with ⟨rfl, spare⟩ | ⟨rfl, _⟩
  · have ok : ¬(0 : Rc) ≠ 0 := not_not.mpr rfl
    rcases wfGrown.findSlot_total call.copy.value with ⟨pos, slot, answer, content, _⟩ | ⟨pos, answer, content, absent, placed⟩
    · obtain ⟨ref, found, related⟩ := fileIndexFindSlotAt_ok atGrown held answer
      cases related with
      | @some ref _ related =>
        let fresh : IndexSlot := { slot with value := { slot.value with size := call.size, mtime := call.mtime } }
        have stepped : fileIndexUpsert hashPath index call.copy.value call.size call.mtime
            ⟨call.slotsOk, IndexMemory.copyOk ⟨ptrs', middle⟩ call⟩ = some (0, { grown with slots := grown.slots.set pos (some fresh) }) := by
          simp only [fileIndexUpsert, reserved, answer, if_neg ok]
          rfl
        obtain ⟨last, cells', stored, indexAt, kept⟩ :=
          atGrown.overwrite held content related call.size call.mtime (wf.upserted stepped)
        refine ⟨0, _, ⟨_, last⟩, strings, cells', ?_, stepped, indexAt, List.Subset.refl _, kept⟩
        simp only [fileIndexUpsertAt, reservedAt, found, Option.bind_eq_bind, Option.bind_some, if_neg ok, stored]
        rfl
    · obtain ⟨ref, found, related⟩ := fileIndexFindSlotAt_ok atGrown held answer
      cases related
      have filled := (wfGrown.insert content (placed (freshSlot hashPath call) rfl) spare rfl rfl absent).1
      rcases fileIndexAddAt_ok atGrown held content call fits filled with
        ⟨copyOk, refused⟩ | ⟨copyOk, next, more, cells', added, indexAt, subset, kept⟩
      · refine ⟨Fault.ENOMEM.code, grown, _, strings, _, ?_, ?_, atGrown, List.Subset.refl _, held⟩
        · simp only [fileIndexUpsertAt, reservedAt, found, Option.bind_eq_bind, Option.bind_some, if_neg ok]
          exact refused
        · simp only [fileIndexUpsert, reserved, answer, if_neg ok, copyOk]
          rfl
      · refine ⟨0, _, next, more, cells', ?_, ?_, indexAt, subset, kept⟩
        · simp only [fileIndexUpsertAt, reservedAt, found, Option.bind_eq_bind, Option.bind_some, if_neg ok]
          exact added
        · simp only [fileIndexUpsert, reserved, answer, if_neg ok, copyOk]
          rfl
  · refine ⟨Fault.ENOMEM.code, grown, ⟨ptrs', middle⟩, strings, cells', ?_, ?_, atGrown, List.Subset.refl _, held⟩
    · simp only [fileIndexUpsertAt, reservedAt, Option.bind_eq_bind, Option.bind_some, if_pos Fault.ENOMEM.nonzero]
      rfl
    · simp only [fileIndexUpsert, reserved, if_pos Fault.ENOMEM.nonzero]

/-! ## Initialisation and destruction -/

theorem fileIndexInitAt_ok (hashPath : CString → UInt64) {initialCapacity : Nat} (bounded : initialCapacity ≤ 2 ^ 63)
    (slotsOk : Bool) (holds : heap.Holds rest) :
    ∃ rc m, fileIndexInitAt heap initialCapacity slotsOk = some (rc, m) ∧
      (rc = 0 ↔ ∃ capacity, nextPow2 (if initialCapacity = 0 then 16 else initialCapacity) = some capacity ∧
        callocOk capacity slotSize slotsOk = true) ∧
      (rc ≠ 0 ∧ m = ⟨⟨none, 0, 0, ⟨none, 0⟩⟩, heap⟩ ∨ rc = 0 ∧ ∃ index cells,
        index.entries = [] ∧ IndexAt hashPath m.index index [] cells ∧ m.heap.Holds (cells ++ rest)) := by
  obtain ⟨rc, index, started, ready⟩ := fileIndexInit_spec hashPath bounded slotsOk
  have zero := fileIndexInit_zero_iff started
  rw [fileIndexInit] at started
  cases rounded : nextPow2 (if initialCapacity = 0 then 16 else initialCapacity) with
  | none =>
    rw [rounded] at started
    cases started
  | some capacity =>
    simp only [rounded] at started
    simp only [fileIndexInitAt, rounded, Option.bind_eq_bind, Option.bind_some]
    by_cases allocated : callocOk capacity slotSize slotsOk = true
    · rw [if_pos allocated] at started ⊢
      cases started
      obtain ⟨wf, empty⟩ := ready rfl
      exact ⟨_, _, rfl, rounded ▸ zero, .inr ⟨rfl, _, _, empty, .mk wf rfl rfl rfl rfl (stands_vacant _ _) (.init _), holds.alloc _⟩⟩
    · rw [if_neg allocated] at started ⊢
      cases started
      exact ⟨_, _, rfl, rounded ▸ zero, .inl ⟨Fault.ENOMEM.nonzero, rfl⟩⟩

theorem IndexAt.destroy (at_ : IndexAt hashPath ptrs index strings cells) (holds : heap.Holds (cells ++ rest)) :
    ∃ after, fileIndexDestroyAt ⟨ptrs, heap⟩ = some after ∧ after.Holds rest := by
  obtain ⟨_, capacity, count, arena⟩ := ptrs
  obtain @⟨block, refs, chain, _, rfl, _, _, _, _, stringsAt⟩ := at_
  obtain @⟨chunks, blocks, handed, chain, chainAt, _, _⟩ := stringsAt
  obtain ⟨middle, freed, others⟩ := Heap.Holds.free holds
  have enough : chunks.length ≤ middle.blocks.length := by
    have length := others.perm.length_eq
    have more : chain.length ≤ (chain ++ rest).length := by simp
    rw [← chainAt.length_cells, length]
    exact more
  obtain ⟨after, destroyed, kept⟩ := stringArenaDestroyAt_ok chainAt others enough
  refine ⟨after, ?_, kept⟩
  simp only [fileIndexDestroyAt, Heap.freePtr, freed, Option.bind_eq_bind, Option.bind_some]
  exact destroyed

/-! ## Runs of upserts -/

theorem lastUpsert_append (earlier later : List (UpsertCall × Rc)) (path : CString) :
    lastUpsert (earlier ++ later) path = (lastUpsert later path).or (lastUpsert earlier path) := by
  induction earlier with
  | nil => simp [lastUpsert]
  | cons call earlier ih => rw [List.cons_append, lastUpsert, lastUpsert, ih, Option.or_assoc]

def UpsertMemoryCall.plain (call : UpsertMemoryCall) : UpsertCall :=
  ⟨call.copy.value, call.size, call.mtime, ⟨call.slotsOk, call.copy.malloc.isSome⟩⟩

def upsertStepAt (hashPath : CString → UInt64) (m : IndexMemory) (call : UpsertMemoryCall) :
    Option (IndexMemory × List (UpsertCall × Rc)) := do
  let (rc, m) ← fileIndexUpsertAt hashPath m call
  return (m, [(call.plain, rc)])

abbrev IndexMemoryRun (hashPath : CString → UInt64) (start : IndexMemory) : IndexMemory → List (UpsertCall × Rc) → Prop :=
  Run (upsertStepAt hashPath) (fun _ call => arenaChunkSize + call.copy.len < wordSize) start

/-- What a call reports is what it has done to the lookups, and it fails only when it is not granted
an allocation. -/
theorem upsertStepAt_ok {m : IndexMemory} (at_ : IndexAt hashPath m.index index strings cells)
    (holds : m.heap.Holds (cells ++ rest)) (call : UpsertMemoryCall) (fits : arenaChunkSize + call.copy.len < wordSize) :
    ∃ next rc after more cells', upsertStepAt hashPath m call = some (next, [(call.plain, rc)]) ∧
      (rc = 0 ↔ m.Granted hashPath call) ∧
      IndexAt hashPath next.index after more cells' ∧ strings ⊆ more ∧ next.heap.Holds (cells' ++ rest) ∧
      ∀ path, (fileIndexFind hashPath after path).map FileInfo.view =
        (lastUpsert [(call.plain, rc)] path).or ((fileIndexFind hashPath index path).map FileInfo.view) := by
  obtain ⟨rc, after, next, more, cells', given, stepped, indexAt, subset, kept⟩ :=
    fileIndexUpsertAt_ok at_ holds call fits
  have zero := (fileIndexUpsert_zero_iff at_.wellFormed stepped).trans (at_.granted_iff holds call).symm
  obtain ⟨_, _, answer, _, effect⟩ := fileIndexUpsert_spec at_.wellFormed call.copy.value call.size call.mtime
    ⟨call.slotsOk, m.copyOk call⟩
  rw [stepped] at answer
  cases answer
  refine ⟨next, rc, after, more, cells', ?_, zero, indexAt, subset, kept, fun path => ?_⟩
  · simp only [upsertStepAt, given, Option.bind_eq_bind, Option.bind_some]
    rfl
  · simp only [lastUpsert, UpsertMemoryCall.plain, Option.none_or]
    rcases effect with ⟨rfl, updated⟩ | ⟨rfl, unchanged⟩
    · rw [updated]
      by_cases same : path = call.copy.value
      · simp [same, FileInfo.view]
      · simp [same, Ne.symm same]
    · rw [unchanged]
      simp [Fault.ENOMEM]

theorem IndexMemoryRun.represents {m later : IndexMemory} {trace : List (UpsertCall × Rc)}
    (at_ : IndexAt hashPath m.index index strings cells) (holds : m.heap.Holds (cells ++ rest))
    (run : IndexMemoryRun hashPath m later trace) :
    ∃ after more cells', IndexAt hashPath later.index after more cells' ∧ strings ⊆ more ∧
      later.heap.Holds (cells' ++ rest) ∧ ∀ path, (fileIndexFind hashPath after path).map FileInfo.view =
        (lastUpsert trace path).or ((fileIndexFind hashPath index path).map FileInfo.view) := by
  refine Run.invariant (fun later trace => ∃ after more cells', IndexAt hashPath later.index after more cells' ∧
    strings ⊆ more ∧ later.heap.Holds (cells' ++ rest) ∧ ∀ path, (fileIndexFind hashPath after path).map FileInfo.view =
      (lastUpsert trace path).or ((fileIndexFind hashPath index path).map FileInfo.view))
    ⟨index, strings, cells, at_, List.Subset.refl _, holds, fun path => by rw [lastUpsert, Option.none_or]⟩ ?_ run
  rintro s t trace events call _ ⟨before, had, cells, indexAt, subset, held, lookups⟩ fits step
  obtain ⟨next, _, after, more, cells', given, _, indexAt', subset', kept, effect⟩ := upsertStepAt_ok indexAt held call fits
  rw [step] at given
  cases given
  refine ⟨after, more, cells', indexAt', List.Subset.trans subset subset', kept, fun path => ?_⟩
  rw [effect, lookups, lastUpsert_append, Option.or_assoc]

/-- In memory an index is the map of its successful upserts, whatever allocations fail, and an
upsert succeeds exactly when those that it asks for are granted. No freed or null pointer is
followed and nothing is read or written outside of a block; the path that a lookup points to is the
one that was looked up, and stays so when the table and the arena grow. What the index has allocated
is freed when it is destroyed. -/
theorem file_index_memory (hashPath : CString → UInt64) {initialCapacity : Nat} (bounded : initialCapacity ≤ 2 ^ 63)
    (slotsOk : Bool) (holds : heap.Holds rest) :
    ∃ rc m, fileIndexInitAt heap initialCapacity slotsOk = some (rc, m) ∧
      (rc = 0 ↔ ∃ capacity, nextPow2 (if initialCapacity = 0 then 16 else initialCapacity) = some capacity ∧
        callocOk capacity slotSize slotsOk = true) ∧
      (rc ≠ 0 → fileIndexDestroyAt m = some heap) ∧
      (rc = 0 → ∀ {later trace}, IndexMemoryRun hashPath m later trace →
        (∀ call, arenaChunkSize + call.copy.len < wordSize →
          ∃ next rc, upsertStepAt hashPath later call = some (next, [(call.plain, rc)]) ∧
            (rc = 0 ↔ later.Granted hashPath call)) ∧
        (∀ path, ∃ found, fileIndexFindAt hashPath later path = some found ∧
          found.map FileInfoPtrs.view = lastUpsert trace path ∧
          ∀ info, found = some info → ∀ {final more}, IndexMemoryRun hashPath later final more →
            readText final.heap info.path = some path.bytes) ∧
        ∃ after, fileIndexDestroyAt later = some after ∧ after.Holds rest) := by
  obtain ⟨rc, m, started, zero, outcome⟩ := fileIndexInitAt_ok hashPath bounded slotsOk holds
  refine ⟨rc, m, started, zero, fun failed => ?_, fun ok => ?_⟩
  · rcases outcome with ⟨_, rfl⟩ | ⟨ok, _⟩
    · simp only [fileIndexDestroyAt, Heap.freePtr, Option.bind_eq_bind, Option.bind_some]
      cases heap.blocks.length <;> rfl
    · exact absurd ok failed
  · rcases outcome with ⟨failed, _⟩ | ⟨_, index, cells, empty, indexAt, held⟩
    · exact absurd ok failed
    · intro later trace run
      obtain ⟨after, strings, cells', indexAt', _, kept, lookups⟩ := run.represents indexAt held
      have absent : ∀ path, fileIndexFind hashPath index path = none := fun path =>
        indexAt.wellFormed.find_absent (by rw [FileIndex.keys, empty]; simp)
      refine ⟨fun call fits => ?_, fun path => ?_, indexAt'.destroy kept⟩
      · obtain ⟨next, rc, _, _, _, given, zero, _⟩ := upsertStepAt_ok indexAt' kept call fits
        exact ⟨next, rc, given, zero⟩
      · obtain ⟨found, given, view, pointed⟩ := fileIndexFindAt_ok indexAt' kept path
        refine ⟨found, given, ?_, fun info same => ?_⟩
        · rw [view, lookups, absent]
          simp
        · intro final more continued
          obtain ⟨_, strings', _, indexAt'', subset, kept', _⟩ := continued.represents indexAt' kept
          obtain @⟨block, refs, chain, _, _, _, _, _, _, stringsAt⟩ := indexAt''
          have behind : final.heap.Holds (chain ++ ((block, .slots refs) :: rest)) := kept'.reorder List.perm_middle.symm
          exact stringsAt.read behind (subset (pointed info same))

end

def vacantIndex : IndexMemory := ⟨⟨some 0, 16, 0, ⟨none, 1048576⟩⟩, ⟨[(0, .slots (List.replicate 16 none))], 1⟩⟩

def refusedLetter : UpsertMemoryCall := ⟨⟨letterCall.value, letterCall.addressable, none⟩, 1, 2, true⟩

def grantedLetter : UpsertMemoryCall := ⟨letterCall, 3, 4, true⟩

/-- The path is not found before it has got its chunk. -/
theorem file_index_memory_retried :
    fileIndexInitAt ⟨[], 0⟩ 0 true = some (0, vacantIndex) ∧ ∃ m,
      IndexMemoryRun (fun _ => 15) vacantIndex m
        [(refusedLetter.plain, Fault.ENOMEM.code), (grantedLetter.plain, 0)] ∧
      (∃ found, fileIndexFindAt (fun _ => 15) m letterCall.value = some found ∧
        found.map FileInfoPtrs.view = some (3, 4)) ∧
      ∃ after, fileIndexDestroyAt m = some after ∧ after.Holds [] := by
  obtain ⟨rc, start, started, _, _, runs⟩ :=
    file_index_memory (fun _ => 15) (show 0 ≤ 2 ^ 63 by decide) true (Heap.holds_empty 0)
  have empty : fileIndexInitAt ⟨[], 0⟩ 0 true = some (0, vacantIndex) := by rfl
  rw [empty] at started
  cases started
  have refuses : upsertStepAt (fun _ => 15) vacantIndex refusedLetter =
      some (vacantIndex, [(refusedLetter.plain, Fault.ENOMEM.code)]) := by rfl
  have first : IndexMemoryRun (fun _ => 15) vacantIndex vacantIndex _ := Run.start.next (show _ < _ by decide) refuses
  obtain ⟨m, rc, copies, zero⟩ := (runs rfl first).1 grantedLetter (by decide)
  obtain rfl : rc = 0 := zero.mpr ⟨fun _ => by decide, fun _ => rfl⟩
  have second : IndexMemoryRun (fun _ => 15) vacantIndex m _ := first.next (show _ < _ by decide) copies
  obtain ⟨_, lookups, destroyed⟩ := runs rfl second
  obtain ⟨found, given, view, _⟩ := lookups letterCall.value
  refine ⟨empty, m, second, ⟨found, given, view.trans ?_⟩, destroyed⟩
  simp [lastUpsert, refusedLetter, grantedLetter, letterCall, UpsertMemoryCall.plain, Fault.ENOMEM]

end Verdiff
