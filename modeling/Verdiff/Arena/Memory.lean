import Verdiff.Arena
import Verdiff.Library.Heap

/-! The arena as its chunks lie in memory.

A pointer to a string is the block of a chunk and an offset into the data of the chunk. To copy
behind the data of a chunk is an error, and so is to read there.
-/

set_option autoImplicit false

namespace Verdiff
open Bump

structure FileInfoPtrs where
  path : Place
  size : Int
  mtime : Int

structure IndexSlotPtrs where
  key : Place
  value : FileInfoPtrs
  hash : UInt64

/-- The blocks that an index is made of. -/
inductive IndexBlock where
  | slots (slots : List (Option IndexSlotPtrs))
  | chunk (next : Option Nat) (chunk : ArenaChunk)

abbrev IndexHeap := Heap IndexBlock

structure ArenaPtrs where
  head : Option Nat
  chunkSize : Nat

def chunkAt (heap : IndexHeap) (block : Nat) : Option (Option Nat × ArenaChunk) :=
  match heap.read block with
  | some (.chunk next chunk) => some (next, chunk)
  | _ => none

def readText (heap : IndexHeap) (ptr : Place) : Option Bytes := do
  let (_, chunk) ← chunkAt heap ptr.block
  let tail := chunk.data.drop ptr.offset
  if 0 ∈ tail then some (tail.takeWhile (· ≠ 0)) else none

def stringArenaInitAt (chunkSize : Nat) : Rc × ArenaPtrs := (0, ⟨none, chunkSize⟩)

def lacksRoomAt (heap : IndexHeap) (head : Option Nat) (len : Nat) : Option Bool :=
  match head with
  | none => some true
  | some block => do
    let (_, chunk) ← chunkAt heap block
    return decide (sizeSub chunk.capacity chunk.used < len)

def ArenaChunk.fresh (capacity : Nat) (content : Nat → UInt8) : ArenaChunk :=
  ⟨capacity, 0, ((List.range ((arenaChunkSize + capacity) % wordSize)).map content).drop arenaChunkSize⟩

def arenaAllocChunkAt (heap : IndexHeap) (arena : ArenaPtrs) (minSize : Nat) (malloc : Option (Nat → UInt8)) :
    Option Nat × ArenaPtrs × IndexHeap :=
  let capacity := if arena.chunkSize < minSize then minSize else arena.chunkSize
  match malloc with
  | none => (none, arena, heap)
  | some content =>
    let (block, heap) := heap.alloc (.chunk arena.head (.fresh capacity content))
    (some block, { arena with head := some block }, heap)

def copyIntoAt (heap : IndexHeap) (block : Nat) (call : CopyCall) : Option (Place × IndexHeap) := do
  let (next, chunk) ← chunkAt heap block
  if chunk.used + call.len ≤ chunk.data.length then
    let heap ← heap.write block (.chunk next { chunk with
      used := (chunk.used + call.len) % wordSize
      data := write chunk.data chunk.used ((call.value.bytes ++ [0]).take call.len) })
    return (⟨block, chunk.used⟩, heap)
  else none

def stringArenaCopyAt (heap : IndexHeap) (arena : ArenaPtrs) (call : CopyCall) :
    Option (Option Place × ArenaPtrs × IndexHeap) := do
  let (chunk, arena, heap) :=
    if ← lacksRoomAt heap arena.head call.len then arenaAllocChunkAt heap arena call.len call.malloc
    else (arena.head, arena, heap)
  match chunk with
  | none => return (none, arena, heap)
  | some block => do
    let (ptr, heap) ← copyIntoAt heap block call
    return (some ptr, arena, heap)

def stringArenaDestroyAt : Nat → Option Nat → IndexHeap → Option IndexHeap
  | _, none, heap => some heap
  | 0, some _, _ => none
  | fuel + 1, some block, heap => do
    let (next, _) ← chunkAt heap block
    let heap ← heap.free block
    stringArenaDestroyAt fuel next heap

/-! ## The chain of chunks -/

/-- The blocks that hold the chunks, which are linked from the newest on. -/
inductive ChainAt : Option Nat → List ArenaChunk → List Nat → List (Nat × IndexBlock) → Prop where
  | nil : ChainAt none [] [] []
  | cons {next : Option Nat} {block : Nat} {chunk : ArenaChunk} {chunks : List ArenaChunk} {blocks : List Nat}
      {cells : List (Nat × IndexBlock)} : ChainAt next chunks blocks cells →
      ChainAt (some block) (chunk :: chunks) (block :: blocks) ((block, .chunk next chunk) :: cells)

/-- The strings that an arena has handed out, by the pointers to them, and the blocks of its chunks. -/
inductive StringsAt (arena : ArenaPtrs) (strings : List (Place × CString)) : List (Nat × IndexBlock) → Prop where
  | mk {chunks : List ArenaChunk} {blocks : List Nat} {handed : List (Place × CString)} {cells : List (Nat × IndexBlock)} :
      ChainAt arena.head chunks blocks cells → (⟨chunks, arena.chunkSize⟩ : StringArena).Laid handed →
      (∀ copy ∈ strings, ∃ number, blockAt blocks number = some copy.1.block ∧
        (⟨number, copy.1.offset⟩, copy.2) ∈ handed) →
      StringsAt arena strings cells

section
variable {heap : IndexHeap} {arena : ArenaPtrs} {head : Option Nat} {chunks : List ArenaChunk} {blocks : List Nat}
  {handed strings : List (Place × CString)} {cells rest : List (Nat × IndexBlock)} {call : CopyCall}

theorem chunkAt_ok {block : Nat} {next : Option Nat} {chunk : ArenaChunk} (holds : heap.Holds cells)
    (member : (block, .chunk next chunk) ∈ cells) : chunkAt heap block = some (next, chunk) := by
  rw [chunkAt, holds.read member]

theorem ChainAt.length_blocks (at_ : ChainAt head chunks blocks cells) : blocks.length = chunks.length := by
  induction at_ with
  | nil => rfl
  | cons _ ih => rw [List.length_cons, List.length_cons, ih]

theorem ChainAt.length_cells (at_ : ChainAt head chunks blocks cells) : cells.length = chunks.length := by
  induction at_ with
  | nil => rfl
  | cons _ ih => rw [List.length_cons, List.length_cons, ih]

theorem ChainAt.cell (at_ : ChainAt head chunks blocks cells) {number block : Nat} {chunk : ArenaChunk}
    (numbered : blockAt blocks number = some block) (found : blockAt chunks number = some chunk) :
    ∃ next, (block, .chunk next chunk) ∈ cells := by
  induction at_ with
  | nil => cases numbered
  | @cons next newest first chunks blocks cells below ih =>
    rcases Nat.lt_or_ge number chunks.length with older | newer
    · rw [blockAt_older _ (below.length_blocks.symm ▸ older)] at numbered
      rw [blockAt_older _ older] at found
      obtain ⟨next, member⟩ := ih numbered found
      exact ⟨next, List.mem_cons_of_mem _ member⟩
    · obtain rfl := Nat.le_antisymm (Nat.le_of_lt_succ (blockAt_lt found)) newer
      rw [← below.length_blocks, blockAt_newest] at numbered
      rw [blockAt_newest] at found
      cases numbered
      cases found
      exact ⟨next, List.mem_cons_self ..⟩

theorem lacksRoomAt_ok (at_ : ChainAt head chunks blocks cells) (holds : heap.Holds (cells ++ rest)) (len chunkSize : Nat) :
    lacksRoomAt heap head len = some ((⟨chunks, chunkSize⟩ : StringArena).lacksRoom len) := by
  cases at_ with
  | nil => rfl
  | cons =>
    simp only [lacksRoomAt, chunkAt_ok holds (List.mem_cons_self ..), Option.bind_eq_bind, Option.bind_some]
    rfl

/-! ## Strings -/

theorem StringsAt.lacksRoom_eq {other : IndexHeap} {rest' : List (Nat × IndexBlock)} (at_ : StringsAt arena strings cells)
    (holds : heap.Holds (cells ++ rest)) (holds' : other.Holds (cells ++ rest')) (len : Nat) :
    lacksRoomAt other arena.head len = lacksRoomAt heap arena.head len := by
  -- What is left of the newest chunk does not hang on the rest of the heap.
  obtain ⟨chain, _, _⟩ := at_
  rw [lacksRoomAt_ok chain holds len 0, lacksRoomAt_ok chain holds' len 0]

theorem StringsAt.init (chunkSize : UInt64) : StringsAt (stringArenaInitAt chunkSize.toNat).2 [] [] :=
  .mk .nil (laid_init chunkSize) (List.forall_mem_nil _)

theorem StringsAt.read (at_ : StringsAt arena strings cells) (holds : heap.Holds (cells ++ rest)) {ptr : Place}
    {value : CString} (member : (ptr, value) ∈ strings) : readText heap ptr = some value.bytes := by
  obtain ⟨chain, laid, pointed⟩ := at_
  obtain ⟨number, numbered, inside⟩ := pointed _ member
  obtain ⟨chunk, found, _⟩ := laid.sound.inside _ inside
  obtain ⟨next, cell⟩ := chain.cell numbered found
  have intact := laid.sound.intact _ inside
  simp only [StringArena.stringAt, found] at intact
  simp only [readText, chunkAt_ok holds (List.mem_append_left _ cell), Option.bind_eq_bind, Option.bind_some]
  exact intact

theorem StringArena.Laid.grow {chunkSize : Nat} (laid : (⟨chunks, chunkSize⟩ : StringArena).Laid handed)
    (fits : arenaChunkSize + (⟨chunks, chunkSize⟩ : StringArena).capacityFor call.len < wordSize) (content : Nat → UInt8) :
    (⟨.fresh ((⟨chunks, chunkSize⟩ : StringArena).capacityFor call.len) content :: chunks, chunkSize⟩ :
      StringArena).Laid handed :=
  ⟨laid.word, List.forall_mem_cons.mpr ⟨⟨(allocated_length fits content).symm, capacityFor_lt call laid.word⟩, laid.whole⟩,
    laid.layout.grow _⟩

theorem copyIntoAt_ok (call : CopyCall) {chunkSize block : Nat} {next : Option Nat} {chunk : ArenaChunk}
    (holds : heap.Holds ((block, .chunk next chunk) :: rest))
    (laid : (⟨chunk :: chunks, chunkSize⟩ : StringArena).Laid handed) (room : chunk.used + call.len ≤ chunk.data.length) :
    ∃ written after, copyIntoAt heap block call = some (⟨block, chunk.used⟩, after) ∧
      after.Holds ((block, .chunk next written) :: rest) ∧
      (⟨written :: chunks, chunkSize⟩ : StringArena).Laid ((⟨chunks.length, chunk.used⟩, call.value) :: handed) := by
  have whole : (call.value.bytes ++ [0]).take call.len = call.value.bytes ++ [0] :=
    List.take_of_length_le (by rw [call.len_eq]; simp)
  obtain ⟨size, _⟩ := laid.whole chunk (List.mem_cons_self ..)
  obtain ⟨after, stored, kept⟩ := holds.write (.chunk next { chunk with
    used := (chunk.used + call.len) % wordSize, data := write chunk.data chunk.used (call.value.bytes ++ [0]) })
  refine ⟨_, after, ?_, kept, ?_⟩
  · simp only [copyIntoAt, chunkAt_ok holds (List.mem_cons_self ..), Option.bind_eq_bind, Option.bind_some, if_pos room,
      whole, stored]
    rfl
  · rw [call.len_eq, ← size] at room
    exact laid.copy laid.layout laid.whole room

theorem copyAt_newest (chain : ChainAt arena.head chunks blocks cells)
    (laid : (⟨chunks, arena.chunkSize⟩ : StringArena).Laid handed)
    (pointed : ∀ copy ∈ strings, ∃ number, blockAt blocks number = some copy.1.block ∧
      (⟨number, copy.1.offset⟩, copy.2) ∈ handed)
    (holds : heap.Holds (cells ++ rest)) (roomy : (⟨chunks, arena.chunkSize⟩ : StringArena).lacksRoom call.len = false) :
    ∃ ptr grown after cells', stringArenaCopyAt heap arena call = some (some ptr, grown, after) ∧
      grown.chunkSize = arena.chunkSize ∧ StringsAt grown ((ptr, call.value) :: strings) cells' ∧
      after.Holds (cells' ++ rest) := by
  have asks := lacksRoomAt_ok chain holds call.len arena.chunkSize
  obtain ⟨head, chunkSize⟩ := arena
  cases chain with
  | nil => cases roomy
  | @cons next block chunk chunks blocks cells below =>
    obtain ⟨size, word⟩ := laid.whole chunk (List.mem_cons_self ..)
    have filled : chunk.used ≤ chunk.data.length := laid.layout.filled chunk.block (by simp)
    have room : call.len ≤ sizeSub chunk.capacity chunk.used := by simpa [StringArena.lacksRoom] using roomy
    rw [sizeSub_eq (by omega) word] at room
    obtain ⟨written, after, copied, kept, laid'⟩ := copyIntoAt_ok call holds laid (by omega)
    refine ⟨⟨block, chunk.used⟩, ⟨some block, chunkSize⟩, after, _, ?_, rfl, .mk below.cons laid' ?_, kept⟩
    · simp only [stringArenaCopyAt, asks, roomy, copied, Option.bind_eq_bind, Option.bind_some, Bool.false_eq_true,
        ↓reduceIte]
      rfl
    · rintro copy (_ | ⟨_, member⟩)
      · exact ⟨chunks.length, by rw [← below.length_blocks, blockAt_newest], List.mem_cons_self ..⟩
      · obtain ⟨number, numbered, inside⟩ := pointed copy member
        exact ⟨number, numbered, List.mem_cons_of_mem _ inside⟩

theorem copyAt_fresh (chain : ChainAt arena.head chunks blocks cells)
    (laid : (⟨chunks, arena.chunkSize⟩ : StringArena).Laid handed)
    (pointed : ∀ copy ∈ strings, ∃ number, blockAt blocks number = some copy.1.block ∧
      (⟨number, copy.1.offset⟩, copy.2) ∈ handed)
    (holds : heap.Holds (cells ++ rest)) (fits : RequestFits ⟨chunks, arena.chunkSize⟩ call)
    (lacks : (⟨chunks, arena.chunkSize⟩ : StringArena).lacksRoom call.len = true) {content : Nat → UInt8}
    (allocated : call.malloc = some content) :
    ∃ ptr grown after cells', stringArenaCopyAt heap arena call = some (some ptr, grown, after) ∧
      grown.chunkSize = arena.chunkSize ∧ StringsAt grown ((ptr, call.value) :: strings) cells' ∧
      after.Holds (cells' ++ rest) := by
  have asks := lacksRoomAt_ok chain holds call.len arena.chunkSize
  have laid' := laid.grow (fits lacks (by rw [allocated]; rfl)) content
  have length := (laid'.whole _ (List.mem_cons_self ..)).1
  have room : call.len ≤ _ := le_capacityFor ⟨chunks, arena.chunkSize⟩ call.len
  obtain ⟨written, after, copied, kept, laid''⟩ := copyIntoAt_ok call (holds.alloc (.chunk arena.head _)) laid'
    (by rw [← length]; exact (Nat.zero_add _).trans_le room)
  refine ⟨⟨heap.next, 0⟩, ⟨some heap.next, arena.chunkSize⟩, after, _, ?_, rfl, .mk chain.cons laid'' ?_, kept⟩
  · simp only [stringArenaCopyAt, asks, lacks, arenaAllocChunkAt, allocated, Option.bind_eq_bind, Option.bind_some,
      ↓reduceIte]
    rw [StringArena.capacityFor] at copied
    exact congrArg (Option.bind · _) copied
  -- The blocks of older chunks keep their numbers.
  · rintro copy (_ | ⟨_, member⟩)
    · exact ⟨chunks.length, by rw [← chain.length_blocks, blockAt_newest], List.mem_cons_self ..⟩
    · obtain ⟨number, numbered, inside⟩ := pointed copy member
      refine ⟨number, ?_, List.mem_cons_of_mem _ inside⟩
      rw [blockAt_older _ ?_, numbered]
      exact (List.getElem?_eq_some_iff.mp numbered).1.trans_eq (List.length_reverse ..)

/-- Copying fails for want of a chunk and changes nothing, or the string joins the strings that are there. -/
theorem StringsAt.copy (at_ : StringsAt arena strings cells) (holds : heap.Holds (cells ++ rest))
    (fits : ∀ chunks, RequestFits ⟨chunks, arena.chunkSize⟩ call) :
    ((lacksRoomAt heap arena.head call.len = some true ∧ call.malloc.isSome = false) ∧
      stringArenaCopyAt heap arena call = some (none, arena, heap)) ∨
    (lacksRoomAt heap arena.head call.len = some true → call.malloc.isSome = true) ∧ ∃ ptr grown after cells',
      stringArenaCopyAt heap arena call = some (some ptr, grown, after) ∧ grown.chunkSize = arena.chunkSize ∧
      StringsAt grown ((ptr, call.value) :: strings) cells' ∧ after.Holds (cells' ++ rest) := by
  obtain @⟨chunks, blocks, handed, cells, chain, laid, pointed⟩ := at_
  have asks := lacksRoomAt_ok chain holds call.len arena.chunkSize
  cases lacks : (⟨chunks, arena.chunkSize⟩ : StringArena).lacksRoom call.len with
  | false =>
    refine .inr ⟨fun asked => ?_, copyAt_newest chain laid pointed holds lacks⟩
    rw [asks, lacks] at asked
    cases asked
  | true =>
    cases allocated : call.malloc with
    | none =>
      refine .inl ⟨⟨by rw [asks, lacks], rfl⟩, ?_⟩
      simp only [stringArenaCopyAt, asks, lacks, arenaAllocChunkAt, allocated, Option.bind_eq_bind, Option.bind_some]
      rfl
    | some content => exact .inr ⟨fun _ => rfl, copyAt_fresh chain laid pointed holds (fits chunks) lacks allocated⟩

theorem stringArenaDestroyAt_ok (at_ : ChainAt head chunks blocks cells) (holds : heap.Holds (cells ++ rest)) {fuel : Nat}
    (enough : chunks.length ≤ fuel) :
    ∃ after, stringArenaDestroyAt fuel head heap = some after ∧ after.Holds rest := by
  induction at_ generalizing heap fuel with
  | nil => exact ⟨heap, by cases fuel <;> rfl, holds⟩
  | cons _ ih =>
    cases fuel with
    | zero => cases enough
    | succ fuel =>
      obtain ⟨middle, freed, others⟩ := Heap.Holds.free holds
      obtain ⟨after, destroyed, kept⟩ := ih others (Nat.le_of_succ_le_succ enough)
      refine ⟨after, ?_, kept⟩
      simp only [stringArenaDestroyAt, chunkAt_ok holds (List.mem_cons_self ..), freed, Option.bind_eq_bind,
        Option.bind_some]
      exact destroyed

end

end Verdiff
