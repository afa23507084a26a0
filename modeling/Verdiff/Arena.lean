import Verdiff.Common
import Verdiff.Library.Bump

/-! The arena that keeps the copies of the paths.

A chunk's data is what `malloc` has really given behind the header, however large the
capacity that the header states. A pointer is a chunk, numbered from the oldest on, and an
offset into its data.
-/

set_option autoImplicit false

namespace Verdiff
open Bump

/-- `sizeof(ArenaChunk)`, the header without the data. -/
def arenaChunkSize : Nat := 24

structure ArenaChunk where
  capacity : Nat
  used : Nat
  data : Bytes
  deriving DecidableEq

/-- The list that starts at `head`. -/
structure StringArena where
  chunks : List ArenaChunk
  chunkSize : Nat
  deriving DecidableEq

/-- One call: a string whose bytes and terminator lie in memory, and the outcome of the
`malloc` the call may make, with the bytes that happen to be in the block. -/
structure CopyCall where
  value : CString
  addressable : value.bytes.length + 1 < wordSize
  malloc : Option (Nat → UInt8)

def CopyCall.len (call : CopyCall) : Nat := (call.value.bytes.length + 1) % wordSize

def stringArenaInit (chunkSize : UInt64) : Rc × StringArena := (0, ⟨[], chunkSize.toNat⟩)

namespace StringArena

def capacityFor (arena : StringArena) (minSize : Nat) : Nat :=
  if arena.chunkSize < minSize then minSize else arena.chunkSize

def lacksRoom (arena : StringArena) (len : Nat) : Bool :=
  match arena.chunks with
  | [] => true
  | chunk :: _ => decide (sizeSub chunk.capacity chunk.used < len)

end StringArena

def arenaAllocChunk (arena : StringArena) (minSize : Nat) (malloc : Option (Nat → UInt8)) : Option StringArena :=
  let capacity := arena.capacityFor minSize
  match malloc with
  | none => none
  | some content =>
    let block := (List.range ((arenaChunkSize + capacity) % wordSize)).map content
    some { arena with chunks := ⟨capacity, 0, block.drop arenaChunkSize⟩ :: arena.chunks }

def stringArenaCopy (arena : StringArena) (call : CopyCall) : Option Place × StringArena :=
  match if arena.lacksRoom call.len then arenaAllocChunk arena call.len call.malloc else some arena with
  | some ⟨chunk :: rest, chunkSize⟩ =>
    (some ⟨rest.length, chunk.used⟩, ⟨{ chunk with
      used := (chunk.used + call.len) % wordSize
      data := write chunk.data chunk.used ((call.value.bytes ++ [0]).take call.len) } :: rest, chunkSize⟩)
  | _ => (none, arena)

/-- The string found at a pointer: the bytes in front of the next NUL of the chunk. -/
def StringArena.stringAt (arena : StringArena) (place : Place) : Option Bytes :=
  match blockAt arena.chunks place.block with
  | none => none
  | some chunk =>
    let tail := chunk.data.drop place.offset
    if 0 ∈ tail then some (tail.takeWhile (· ≠ 0)) else none

/-! ## Runs -/

def performCopies : List CopyCall → StringArena → List (Place × CString) → StringArena × List (Place × CString)
  | [], arena, handed => (arena, handed)
  | call :: rest, arena, handed =>
    match stringArenaCopy arena call with
    | (none, arena) => performCopies rest arena handed
    | (some place, arena) => performCopies rest arena ((place, call.value) :: handed)

def RequestFits (arena : StringArena) (call : CopyCall) : Prop :=
  arena.lacksRoom call.len = true → call.malloc.isSome = true →
    arenaChunkSize + arena.capacityFor call.len < wordSize

def RequestsFit : List CopyCall → StringArena → Prop
  | [], _ => True
  | call :: rest, arena => RequestFits arena call ∧ RequestsFit rest (stringArenaCopy arena call).2

def copiedRange (copy : Place × CString) : Place × Nat := (copy.1, copy.2.bytes.length + 1)

/-- What the arena promises about the pointers it has returned. -/
structure StringArena.Sound (arena : StringArena) (handed : List (Place × CString)) : Prop where
  bounded : ∀ chunk ∈ arena.chunks, chunk.used ≤ chunk.capacity
  inside : ∀ copy ∈ handed, ∃ chunk, blockAt arena.chunks copy.1.block = some chunk ∧
    copy.1.offset + (copy.2.bytes.length + 1) ≤ chunk.data.length
  disjoint : handed.Pairwise fun later earlier => Apart (copiedRange later) (copiedRange earlier)
  intact : ∀ copy ∈ handed, arena.stringAt copy.1 = some copy.2.bytes

/-! ## One call -/

theorem CopyCall.len_eq (call : CopyCall) : call.len = call.value.bytes.length + 1 :=
  Nat.mod_eq_of_lt call.addressable

def ArenaChunk.block (chunk : ArenaChunk) : Block UInt8 := ⟨chunk.data, chunk.used⟩

def copiedBytes (copy : Place × CString) : Place × Bytes := (copy.1, copy.2.bytes ++ [0])

/-- The chunks are as large as they say, and lay out everything that was copied. -/
structure StringArena.Laid (arena : StringArena) (handed : List (Place × CString)) : Prop where
  word : arena.chunkSize < wordSize
  whole : ∀ chunk ∈ arena.chunks, chunk.capacity = chunk.data.length ∧ chunk.capacity < wordSize
  layout : Layout (arena.chunks.map ArenaChunk.block) (handed.map copiedBytes)

theorem blockAt_map {α β : Type} (f : α → β) (blocks : List α) (number : Nat) :
    blockAt (blocks.map f) number = (blockAt blocks number).map f := by
  rw [blockAt, ← List.map_reverse, List.getElem?_map]
  rfl

section
variable {arena : StringArena} {call : CopyCall} {handed : List (Place × CString)}

theorem capacityFor_lt (call : CopyCall) (word : arena.chunkSize < wordSize) : arena.capacityFor call.len < wordSize := by
  have small := call.addressable
  rw [StringArena.capacityFor, call.len_eq]
  split <;> omega

theorem le_capacityFor (arena : StringArena) (len : Nat) : len ≤ arena.capacityFor len := by
  unfold StringArena.capacityFor
  split <;> omega

theorem stringArenaCopy_cases (arena : StringArena) (call : CopyCall) :
    stringArenaCopy arena call = (none, arena) ∨ ∃ chunk rest,
      (arena.chunks = chunk :: rest ∧ call.len ≤ sizeSub chunk.capacity chunk.used ∨
        rest = arena.chunks ∧ arena.lacksRoom call.len = true ∧ ∃ content, call.malloc = some content ∧
          chunk = ⟨arena.capacityFor call.len, 0, ((List.range
            ((arenaChunkSize + arena.capacityFor call.len) % wordSize)).map content).drop arenaChunkSize⟩) ∧
      stringArenaCopy arena call = (some ⟨rest.length, chunk.used⟩, { arena with chunks := { chunk with
        used := (chunk.used + call.len) % wordSize
        data := write chunk.data chunk.used (call.value.bytes ++ [0]) } :: rest }) := by
  obtain ⟨chunks, chunkSize⟩ := arena
  have whole : (call.value.bytes ++ [0]).take call.len = call.value.bytes ++ [0] :=
    List.take_of_length_le (by rw [call.len_eq]; simp)
  cases lacks : StringArena.lacksRoom ⟨chunks, chunkSize⟩ call.len with
  | false =>
    cases chunks with
    | nil => cases lacks
    | cons chunk rest =>
      refine .inr ⟨chunk, rest, .inl ⟨rfl, ?_⟩, ?_⟩
      · simpa [StringArena.lacksRoom] using lacks
      · simp [stringArenaCopy, lacks, whole]
  | true =>
    cases allocated : call.malloc with
    | none => exact .inl (by simp [stringArenaCopy, lacks, arenaAllocChunk, allocated])
    | some content =>
      refine .inr ⟨_, chunks, .inr ⟨rfl, rfl, content, rfl, rfl⟩, ?_⟩
      simp [stringArenaCopy, lacks, arenaAllocChunk, allocated, whole]

theorem stringArenaCopy_null (failed : (stringArenaCopy arena call).1 = none) :
    (stringArenaCopy arena call).2 = arena := by
  rcases stringArenaCopy_cases arena call with same | ⟨chunk, rest, _, copied⟩
  · rw [same]
  · rw [copied] at failed
    cases failed

theorem allocated_length {capacity : Nat} (fits : arenaChunkSize + capacity < wordSize) (content : Nat → UInt8) :
    (((List.range ((arenaChunkSize + capacity) % wordSize)).map content).drop arenaChunkSize).length = capacity := by
  rw [Nat.mod_eq_of_lt fits, List.length_drop, List.length_map, List.length_range, Nat.add_sub_cancel_left]

theorem StringArena.Laid.copy {chunk : ArenaChunk} {rest : List ArenaChunk} (laid : arena.Laid handed)
    (head : Layout ((chunk :: rest).map ArenaChunk.block) (handed.map copiedBytes))
    (whole : ∀ other ∈ chunk :: rest, other.capacity = other.data.length ∧ other.capacity < wordSize)
    (room : chunk.used + (call.value.bytes.length + 1) ≤ chunk.capacity) :
    StringArena.Laid { arena with chunks := { chunk with
        used := (chunk.used + call.len) % wordSize
        data := write chunk.data chunk.used (call.value.bytes ++ [0]) } :: rest }
      ((⟨rest.length, chunk.used⟩, call.value) :: handed) := by
  -- Room for the string at the mark of a chunk is all that a copy needs.
  obtain ⟨size, word⟩ := whole chunk (List.mem_cons_self ..)
  have mark : (chunk.used + call.len) % wordSize = chunk.used + (call.value.bytes ++ [0]).length := by
    rw [call.len_eq, List.length_append]
    exact Nat.mod_eq_of_lt (by omega)
  refine ⟨laid.word, List.forall_mem_cons.mpr ⟨?_, fun other member => ?_⟩, ?_⟩
  · simpa using ⟨size, word⟩
  · exact whole other (List.mem_cons_of_mem _ member)
  · have longer := head.append (call.value.bytes ++ [0]) (by
      simp only [ArenaChunk.block, List.length_append, List.length_singleton]
      omega)
    simpa only [List.map_cons, ArenaChunk.block, List.length_map, copiedBytes, mark] using longer

theorem StringArena.Laid.step (laid : arena.Laid handed) (fits : RequestFits arena call) :
    stringArenaCopy arena call = (none, arena) ∨ ∃ place after,
      stringArenaCopy arena call = (some place, after) ∧ after.Laid ((place, call.value) :: handed) := by
  rcases stringArenaCopy_cases arena call with same | ⟨chunk, rest, origin, copied⟩
  · exact .inl same
  · refine .inr ⟨_, _, copied, ?_⟩
    rcases origin with ⟨chunks, room⟩ | ⟨rfl, lacks, content, allocated, rfl⟩
    · have head := laid.layout
      have whole := laid.whole
      rw [chunks] at head whole
      have filled := head.filled chunk.block (by simp)
      obtain ⟨size, word⟩ := whole chunk (List.mem_cons_self ..)
      simp only [ArenaChunk.block] at filled
      rw [sizeSub_eq (by omega) word, call.len_eq] at room
      exact laid.copy head whole (by omega)
    · have asked := fits lacks (by rw [allocated]; rfl)
      have length := allocated_length asked content
      refine laid.copy (laid.layout.grow _) (List.forall_mem_cons.mpr ⟨?_, laid.whole⟩) ?_
      · exact ⟨length.symm, capacityFor_lt call laid.word⟩
      · simpa [call.len_eq] using le_capacityFor arena call.len

theorem StringArena.stringAt_eq {place : Place} {value : CString} {chunk : ArenaChunk}
    (found : blockAt arena.chunks place.block = some chunk)
    (lies : Lies chunk.data place.offset (value.bytes ++ [0])) : arena.stringAt place = some value.bytes := by
  obtain ⟨rest, tail⟩ : ∃ rest, chunk.data.drop place.offset = value.bytes ++ 0 :: rest := by
    refine ⟨(chunk.data.drop place.offset).drop (value.bytes ++ [0]).length, ?_⟩
    have cut := List.take_append_drop (value.bytes ++ [0]).length (chunk.data.drop place.offset)
    rw [Lies] at lies
    rw [lies, List.append_assoc] at cut
    exact cut.symm
  simp only [StringArena.stringAt, found, tail]
  rw [if_pos (by simp), takeWhile_terminated value.nulFree]

theorem StringArena.Laid.sound (laid : arena.Laid handed) : arena.Sound handed := by
  have found : ∀ copy ∈ handed, ∃ chunk, blockAt arena.chunks copy.1.block = some chunk ∧
      copy.1.offset + (copy.2.bytes.length + 1) ≤ chunk.used ∧
      Lies chunk.data copy.1.offset (copy.2.bytes ++ [0]) := by
    intro copy member
    obtain ⟨block, at_, below, lies⟩ := laid.layout.lies _ (List.mem_map_of_mem member)
    rw [blockAt_map] at at_
    obtain ⟨chunk, located, rfl⟩ := Option.map_eq_some_iff.mp at_
    exact ⟨chunk, located, by simpa [copiedBytes, ArenaChunk.block] using below, lies⟩
  have filled : ∀ chunk ∈ arena.chunks, chunk.used ≤ chunk.data.length := fun chunk member =>
    laid.layout.filled chunk.block (List.mem_map_of_mem member)
  refine ⟨fun chunk member => ?_, fun copy member => ?_, ?_, fun copy member => ?_⟩
  · rw [(laid.whole chunk member).1]
    exact filled chunk member
  · obtain ⟨chunk, at_, below, _⟩ := found copy member
    exact ⟨chunk, at_, below.trans (filled chunk (blockAt_mem at_))⟩
  · have apart := List.pairwise_map.mp laid.layout.apart
    simpa [copiedBytes, copiedRange] using apart
  · obtain ⟨chunk, at_, _, lies⟩ := found copy member
    exact StringArena.stringAt_eq at_ lies

/-- Some pointer was returned for more bytes than its chunk has behind it. -/
def Overrun (arena : StringArena) (handed : List (Place × CString)) : Prop :=
  ∃ copy ∈ handed, ∃ chunk, blockAt arena.chunks copy.1.block = some chunk ∧
    chunk.data.length < copy.1.offset + (copy.2.bytes.length + 1)

theorem Overrun.not_sound (overrun : Overrun arena handed) : ¬arena.Sound handed := by
  rintro ⟨_, inside, _, _⟩
  obtain ⟨copy, member, chunk, found, short⟩ := overrun
  obtain ⟨other, same, fits⟩ := inside copy member
  rw [found] at same
  cases same
  omega

theorem stringArenaCopy_keeps (call : CopyCall) {number : Nat} {chunk : ArenaChunk}
    (found : blockAt arena.chunks number = some chunk) :
    ∃ later, blockAt (stringArenaCopy arena call).2.chunks number = some later ∧
      later.data.length = chunk.data.length := by
  rcases stringArenaCopy_cases arena call with same | ⟨newest, rest, origin, copied⟩
  · rw [same]
    exact ⟨chunk, found, rfl⟩
  · rw [copied]
    rcases Nat.lt_or_ge number rest.length with older | newer
    · refine ⟨chunk, ?_, rfl⟩
      rw [blockAt_older _ older, ← found]
      rcases origin with ⟨chunks, _⟩ | ⟨rfl, _⟩
      · rw [chunks, blockAt_older _ older]
      · rfl
    · rcases origin with ⟨chunks, _⟩ | ⟨rfl, _⟩
      · rw [chunks] at found
        have last : number = rest.length := Nat.le_antisymm (Nat.le_of_lt_succ (blockAt_lt found)) newer
        rw [last, blockAt_newest] at found ⊢
        cases found
        exact ⟨_, rfl, length_write⟩
      · exact absurd (blockAt_lt found) (by omega)

theorem Overrun.step (overrun : Overrun arena handed) (more : List (Place × CString)) (call : CopyCall) :
    Overrun (stringArenaCopy arena call).2 (more ++ handed) := by
  obtain ⟨copy, member, chunk, found, short⟩ := overrun
  obtain ⟨later, found, same⟩ := stringArenaCopy_keeps call found
  exact ⟨copy, List.mem_append_right _ member, later, found, by omega⟩

theorem overrun_of_wrap (handed : List (Place × CString)) (word : arena.chunkSize < wordSize)
    (wraps : ¬RequestFits arena call) :
    ∃ place after, stringArenaCopy arena call = (some place, after) ∧ Overrun after ((place, call.value) :: handed) := by
  -- A request that wraps gives a block without a byte behind its header.
  simp only [RequestFits, Classical.not_imp, Nat.not_lt] at wraps
  obtain ⟨lacks, allocated, large⟩ := wraps
  have capacity := capacityFor_lt call word
  rcases stringArenaCopy_cases arena call with same | ⟨chunk, rest, origin, copied⟩
  · obtain ⟨content, given⟩ := Option.isSome_iff_exists.mp allocated
    simp [stringArenaCopy, lacks, arenaAllocChunk, given] at same
  · refine ⟨_, _, copied, _, List.mem_cons_self .., _, blockAt_newest, ?_⟩
    rcases origin with ⟨chunks, room⟩ | ⟨rfl, _, content, _, rfl⟩
    · simp [StringArena.lacksRoom, chunks] at lacks
      omega
    · have header : arenaChunkSize < wordSize := by decide
      have small : (arenaChunkSize + arena.capacityFor call.len) % wordSize < arenaChunkSize := by
        rw [Nat.mod_eq_sub_mod large, Nat.mod_eq_of_lt] <;> omega
      simp only [length_write, List.length_drop, List.length_map, List.length_range]
      omega

end

/-! ## Every sequence of calls -/

section
variable {arena : StringArena} {handed : List (Place × CString)}

theorem performCopies_laid {calls : List CopyCall} (laid : arena.Laid handed) (fit : RequestsFit calls arena) :
    (performCopies calls arena handed).1.Laid (performCopies calls arena handed).2 := by
  induction calls generalizing arena handed with
  | nil => exact laid
  | cons call rest ih =>
    obtain ⟨first, others⟩ := fit
    rcases laid.step first with same | ⟨place, after, copied, next⟩
    · rw [same] at others
      simp only [performCopies, same]
      exact ih laid others
    · rw [copied] at others
      simp only [performCopies, copied]
      exact ih next others

theorem performCopies_overrun {calls : List CopyCall} (overrun : Overrun arena handed) :
    Overrun (performCopies calls arena handed).1 (performCopies calls arena handed).2 := by
  induction calls generalizing arena handed with
  | nil => exact overrun
  | cons call rest ih =>
    have next := fun more => overrun.step more call
    simp only [performCopies]
    split
    next after copied =>
      rw [copied] at next
      exact ih (next [])
    next place after copied =>
      rw [copied] at next
      exact ih (next [(place, call.value)])

/-- After the first request that wraps the layout is lost for good. -/
theorem performCopies_wraps {calls : List CopyCall} (laid : arena.Laid handed) (wraps : ¬RequestsFit calls arena) :
    Overrun (performCopies calls arena handed).1 (performCopies calls arena handed).2 := by
  induction calls generalizing arena handed with
  | nil => exact absurd trivial wraps
  | cons call rest ih =>
    by_cases first : RequestFits arena call
    · have later : ¬RequestsFit rest (stringArenaCopy arena call).2 := fun others => wraps ⟨first, others⟩
      rcases laid.step first with same | ⟨place, after, copied, next⟩
      · rw [same] at later
        simp only [performCopies, same]
        exact ih laid later
      · rw [copied] at later
        simp only [performCopies, copied]
        exact ih next later
    · obtain ⟨place, after, copied, overrun⟩ := overrun_of_wrap handed laid.word first
      simp only [performCopies, copied]
      exact performCopies_overrun overrun

end

theorem laid_init (chunkSize : UInt64) : (stringArenaInit chunkSize).2.Laid [] :=
  ⟨chunkSize.toNat_lt, List.forall_mem_nil _, layout_nil⟩

/-- Whatever is copied and whichever allocations fail, the strings stay where and as they
are, exactly as long as no request for a new chunk wraps. -/
theorem string_arena_sound (chunkSize : UInt64) (calls : List CopyCall) :
    ((performCopies calls (stringArenaInit chunkSize).2 []).1.Sound
        (performCopies calls (stringArenaInit chunkSize).2 []).2 ↔
      RequestsFit calls (stringArenaInit chunkSize).2) ∧
    ∀ call, (stringArenaCopy (performCopies calls (stringArenaInit chunkSize).2 []).1 call).1 = none →
      (stringArenaCopy (performCopies calls (stringArenaInit chunkSize).2 []).1 call).2 =
        (performCopies calls (stringArenaInit chunkSize).2 []).1 := by
  refine ⟨⟨fun sound => ?_, fun fit => ?_⟩, fun call => stringArenaCopy_null⟩
  · by_contra wraps
    exact (performCopies_wraps (laid_init chunkSize) wraps).not_sound sound
  · exact (performCopies_laid (laid_init chunkSize) fit).sound

def letterCall : CopyCall := ⟨⟨[118], by decide⟩, by decide, some fun _ => 0⟩

/-- With the largest chunk size the first request is for 23 bytes, less than the header. -/
theorem string_arena_sound_wrap :
    ¬(performCopies [letterCall] (stringArenaInit 18446744073709551615).2 []).1.Sound
      (performCopies [letterCall] (stringArenaInit 18446744073709551615).2 []).2 := by
  rintro ⟨_, inside, _, _⟩
  obtain ⟨chunk, found, fits⟩ := inside (⟨0, 0⟩, ⟨[118], by decide⟩) (by decide)
  have empty : blockAt (performCopies [letterCall] (stringArenaInit 18446744073709551615).2 []).1.chunks 0 =
      some ⟨18446744073709551615, 2, []⟩ := by decide
  rw [empty] at found
  cases found
  exact absurd fits (by decide)

@[simp] theorem stringArenaCopy_chunkSize (arena : StringArena) (call : CopyCall) :
    (stringArenaCopy arena call).2.chunkSize = arena.chunkSize := by
  rcases stringArenaCopy_cases arena call with same | ⟨_, _, _, copied⟩
  · rw [same]
  · rw [copied]

theorem requestsFit_of_bounded {calls : List CopyCall} {arena : StringArena}
    (size : arenaChunkSize + arena.chunkSize < wordSize)
    (short : ∀ call ∈ calls, arenaChunkSize + call.len < wordSize) : RequestsFit calls arena := by
  induction calls generalizing arena with
  | nil => trivial
  | cons call rest ih =>
    obtain ⟨first, others⟩ := List.forall_mem_cons.mp short
    refine ⟨fun _ _ => ?_, ih (by rwa [stringArenaCopy_chunkSize]) others⟩
    unfold StringArena.capacityFor
    split
    · exact first
    · exact size

def indexArenaChunkSize : UInt64 := 1048576

/-- The arena of an index has chunks of a megabyte: no string that is short of filling the
address space is ever damaged. -/
theorem index_arena_sound (calls : List CopyCall) (short : ∀ call ∈ calls, arenaChunkSize + call.len < wordSize) :
    (performCopies calls (stringArenaInit indexArenaChunkSize).2 []).1.Sound
      (performCopies calls (stringArenaInit indexArenaChunkSize).2 []).2 :=
  (performCopies_laid (laid_init _) (requestsFit_of_bounded (by decide) short)).sound

end Verdiff
