import Verdiff.Hash
import Verdiff.Library.Heap
import Verdiff.Library.Transition

/-! What the functions of `hash.c` take and give back: descriptors, mappings, states and buffers.

All of them are blocks of one heap, and a block is used and given back only as what it is. A buffer
is not initialised: what `raw` puts there may be anything.
-/

set_option autoImplicit false

namespace Verdiff
open Transition

inductive HashBlock (State : Type) where
  /-- An open file: its content, and what is still to be read. -/
  | descriptor (content left : Bytes)
  | mapping (content : Bytes)
  | hashState (state : State)
  | buffer (bytes : Bytes)

namespace HashBlock
variable {State : Type}

def descriptor? : HashBlock State → Option (Bytes × Bytes)
  | .descriptor content left => some (content, left)
  | _ => none

def mapping? : HashBlock State → Option Bytes
  | .mapping content => some content
  | _ => none

def hashState? : HashBlock State → Option State
  | .hashState state => some state
  | _ => none

def buffer? : HashBlock State → Option Bytes
  | .buffer bytes => some bytes
  | _ => none

end HashBlock

abbrev HashHeap (State : Type) := Heap (HashBlock State)

section
variable {State : Type}

def closeDescriptor : HashHeap State → Nat → Option (HashHeap State) := Heap.freeAs HashBlock.descriptor?

def unmap : HashHeap State → Nat → Option (HashHeap State) := Heap.freeAs HashBlock.mapping?

def xxh3FreeState : HashHeap State → Nat → Option (HashHeap State) := Heap.freeAs HashBlock.hashState?

def freeBuffer (heap : HashHeap State) : Option Nat → Option (HashHeap State)
  | none => some heap
  | some block => heap.freeAs HashBlock.buffer? block

def rewind (heap : HashHeap State) (fd : Nat) : Option (HashHeap State) := do
  let (content, _) ← heap.readAs HashBlock.descriptor? fd
  heap.write fd (.descriptor content content)

/-- `read`. The buffer must have the room that the call says it has. -/
def readInto (heap : HashHeap State) (fd buffer bufferSize : Nat) (result : ReadResult) :
    Option (Except Fault Nat × HashHeap State) := do
  let (content, left) ← heap.readAs HashBlock.descriptor? fd
  let bytes ← heap.readAs HashBlock.buffer? buffer
  if bytes.length < bufferSize then none
  else
    match readChunk bufferSize left result with
    | .error fault => some (.error fault, heap)
    | .ok (chunk, later) =>
      let heap ← heap.write fd (.descriptor content later)
      let heap ← heap.write buffer (.buffer (chunk ++ bytes.drop chunk.length))
      return (.ok chunk.length, heap)

def rawBytes (raw : Nat → UInt8) (size : Nat) : Bytes := (List.range size).map raw

end

section
variable (xxh : Xxh3) (raw : Nat → UInt8)

def hashFileMmapAt (fd : Nat) (mapping : Option Fault) (heap : HashHeap xxh.State) :
    Option (Except Fault UInt64 × HashHeap xxh.State) := do
  let (content, _) ← heap.readAs HashBlock.descriptor? fd
  if content.length = 0 then return (.ok (xxh.oneShot []), heap)
  else
    match mapping with
    | some fault => return (.error fault, heap)
    | none =>
      let (block, heap) := heap.alloc (.mapping content)
      let hash := xxh.oneShot (← heap.readAs HashBlock.mapping? block)
      let heap ← unmap heap block
      return (.ok hash, heap)

def hashStreamLoopAt (bufferSize : Nat) (reads : Nat → ReadResult) (fd state buffer : Nat) :
    Nat → Nat → HashHeap xxh.State → Option (Except Fault Unit × HashHeap xxh.State)
  | 0, _, _ => none
  | fuel + 1, turn, heap => do
    match ← readInto heap fd buffer bufferSize (reads turn) with
    | (.error fault, heap) => return (.error fault, heap)
    | (.ok nread, heap) =>
      if nread = 0 then return (.ok (), heap)
      else
        let bytes ← heap.readAs HashBlock.buffer? buffer
        match xxh.update (← heap.readAs HashBlock.hashState? state) (bytes.take nread) with
        | none => return (.error Fault.EIO, heap)
        | some updated =>
          let heap ← heap.write state (.hashState updated)
          hashStreamLoopAt bufferSize reads fd state buffer fuel (turn + 1) heap

def hashFileStreamAt (fuel fd bufferSize : Nat) (env : HashEnv) (heap : HashHeap xxh.State) :
    Option (Except Fault UInt64 × HashHeap xxh.State) := do
  match heap.allocIf (.hashState xxh.reset) env.stateOk with
  | (none, heap) => return (.error .ENOMEM, heap)
  | (some state, heap) =>
    match heap.allocIf (.buffer (rawBytes raw bufferSize)) env.bufferOk with
    | (none, heap) =>
      let heap ← xxh3FreeState heap state
      return (.error .ENOMEM, heap)
    | (some buffer, heap) =>
      let (rc, heap) ← hashStreamLoopAt xxh bufferSize env.reads fd state buffer fuel 0 heap
      let hash := xxh.digest (← heap.readAs HashBlock.hashState? state)
      let heap ← freeBuffer heap (some buffer)
      let heap ← xxh3FreeState heap state
      return (rc.map fun _ => hash, heap)

/-- The part of `hash_file_xxh3` between `fstat` and `close`. Every turn of the loop but the last
takes a byte. -/
def hashDescriptorAt (fd size bufferSize mmapThreshold : Nat) (env : HashEnv) (heap : HashHeap xxh.State) :
    Option (Except Fault UInt64 × HashHeap xxh.State) := do
  if size ≤ mmapThreshold then
    match ← hashFileMmapAt xxh fd env.mapping heap with
    | (.ok hash, heap) => return (.ok hash, heap)
    | (.error _, heap) =>
      match env.seek with
      | some fault => return (.error fault, heap)
      | none =>
        let heap ← rewind heap fd
        hashFileStreamAt xxh raw (size + 1) fd bufferSize env heap
  else hashFileStreamAt xxh raw (size + 1) fd bufferSize env heap

def hashFileXxh3At (file : Except Fault Bytes) (bufferSize mmapThreshold : Nat) (env : HashEnv)
    (heap : HashHeap xxh.State) : Option (Except Fault UInt64 × HashHeap xxh.State) := do
  match file with
  | .error fault => return (.error fault, heap)
  | .ok content =>
    let (fd, heap) := heap.alloc (.descriptor content content)
    match env.fstat with
    | some fault =>
      let heap ← closeDescriptor heap fd
      return (.error fault, heap)
    | none =>
      let (rc, heap) ← hashDescriptorAt xxh raw fd content.length bufferSize mmapThreshold env heap
      let heap ← closeDescriptor heap fd
      return (rc, heap)

end

section
variable {State : Type} (raw : Nat → UInt8)

def compareBinaryLoopAt (bufferSize : Nat) (env : BinaryEnv) (fdA fdB bufA bufB : Nat) :
    Nat → Nat → HashHeap State → Option (Except Fault Bool × HashHeap State)
  | 0, _, _ => none
  | fuel + 1, turn, heap => do
    match ← readInto heap fdA bufA bufferSize (env.readsA turn) with
    | (.error fault, heap) => return (.error fault, heap)
    | (.ok readA, heap) =>
      match ← readInto heap fdB bufB bufferSize (env.readsB turn) with
      | (.error fault, heap) => return (.error fault, heap)
      | (.ok readB, heap) =>
        if readA ≠ readB then return (.ok false, heap)
        else if readA = 0 then return (.ok true, heap)
        else
          let bytesA ← heap.readAs HashBlock.buffer? bufA
          let bytesB ← heap.readAs HashBlock.buffer? bufB
          if bytesA.take readA ≠ bytesB.take readA then return (.ok false, heap)
          else compareBinaryLoopAt bufferSize env fdA fdB bufA bufB fuel (turn + 1) heap

def compareDescriptorsAt (fdA fdB fuel bufferSize : Nat) (env : BinaryEnv) (heap : HashHeap State) :
    Option (Except Fault Bool × HashHeap State) := do
  let (bufA, heap) := heap.allocIf (.buffer (rawBytes raw bufferSize)) env.bufferAOk
  let (bufB, heap) := heap.allocIf (.buffer (rawBytes raw bufferSize)) env.bufferBOk
  let (given, heap) ← match bufA, bufB with
    | some blockA, some blockB => compareBinaryLoopAt bufferSize env fdA fdB blockA blockB fuel 0 heap
    | _, _ => some (.error .ENOMEM, heap)
  let heap ← freeBuffer heap bufA
  let heap ← freeBuffer heap bufB
  return (given, heap)

def vdCompareBinaryFilesAt (fileA fileB : Except Fault Bytes) (bufferSize : Nat) (env : BinaryEnv)
    (heap : HashHeap State) : Option (Except Fault Bool × HashHeap State) := do
  match fileA with
  | .error fault => return (.error fault, heap)
  | .ok contentA =>
    let (fdA, heap) := heap.alloc (.descriptor contentA contentA)
    match fileB with
    | .error fault =>
      let heap ← closeDescriptor heap fdA
      return (.error fault, heap)
    | .ok contentB =>
      let (fdB, heap) := heap.alloc (.descriptor contentB contentB)
      let (given, heap) ← compareDescriptorsAt raw fdA fdB (contentA.length + 1) bufferSize env heap
      let heap ← closeDescriptor heap fdA
      let heap ← closeDescriptor heap fdB
      return (given, heap)

/-- The array on the stack is a block that goes with the call. -/
def vdIsLikelyTextFileAt (file : Except Fault Bytes) (result : ReadResult) (heap : HashHeap State) :
    Option (Bool × HashHeap State) := do
  match file with
  | .error _ => return (false, heap)
  | .ok content =>
    let (fd, heap) := heap.alloc (.descriptor content content)
    let (buffer, heap) := heap.alloc (.buffer (rawBytes raw 8192))
    let (given, heap) ← readInto heap fd buffer 8192 result
    let heap ← closeDescriptor heap fd
    let bytes ← heap.readAs HashBlock.buffer? buffer
    let heap ← freeBuffer heap (some buffer)
    match given with
    | .error _ => return (false, heap)
    | .ok nread => return ((bytes.take nread).all isTextByte, heap)

end

/-! ## Single calls -/

section
variable {State : Type} {heap : HashHeap State} {rest : List (Nat × HashBlock State)} {fd buffer block bufferSize : Nat}
  {content left bytes : Bytes}

theorem closeDescriptor_ok (holds : heap.Holds ((fd, .descriptor content left) :: rest)) :
    ∃ after, closeDescriptor heap fd = some after ∧ after.Holds rest :=
  holds.freeAs rfl

theorem unmap_ok (holds : heap.Holds ((block, .mapping content) :: rest)) :
    ∃ after, unmap heap block = some after ∧ after.Holds rest :=
  holds.freeAs rfl

theorem xxh3FreeState_ok {state : State} (holds : heap.Holds ((block, .hashState state) :: rest)) :
    ∃ after, xxh3FreeState heap block = some after ∧ after.Holds rest :=
  holds.freeAs rfl

theorem freeBuffer_ok (holds : heap.Holds ((buffer, .buffer bytes) :: rest)) :
    ∃ after, freeBuffer heap (some buffer) = some after ∧ after.Holds rest :=
  holds.freeAs rfl

theorem freeBuffer_none (heap : HashHeap State) : freeBuffer heap none = some heap := rfl

theorem rewind_ok (holds : heap.Holds ((fd, .descriptor content left) :: rest)) :
    ∃ after, rewind heap fd = some after ∧ after.Holds ((fd, .descriptor content content) :: rest) := by
  have opened : heap.readAs HashBlock.descriptor? fd = some (content, left) := holds.readAs (List.mem_cons_self ..) rfl
  obtain ⟨after, moved, kept⟩ := holds.write (.descriptor content content)
  refine ⟨after, ?_, kept⟩
  simp only [rewind, opened, moved, Option.bind_eq_bind, Option.bind_some]

theorem rawBytes_length (raw : Nat → UInt8) (size : Nat) : (rawBytes raw size).length = size := by
  rw [rawBytes, List.length_map, List.length_range]

theorem readChunk_fits {chunk later : Bytes} {result : ReadResult}
    (read : readChunk bufferSize left result = .ok (chunk, later)) : chunk.length ≤ bufferSize := by
  cases result with
  | fault fault => cases read
  | upTo wanted =>
    cases read
    rw [List.length_take, readLength]
    omega

theorem readInto_ok (holds : heap.Holds ((fd, .descriptor content left) :: (buffer, .buffer bytes) :: rest))
    (room : bytes.length = bufferSize) (result : ReadResult) :
    (∃ fault, readChunk bufferSize left result = .error fault ∧
      readInto heap fd buffer bufferSize result = some (.error fault, heap)) ∨
    ∃ chunk later bytes' after, readChunk bufferSize left result = .ok (chunk, later) ∧
      readInto heap fd buffer bufferSize result = some (.ok chunk.length, after) ∧
      bytes'.take chunk.length = chunk ∧ bytes'.length = bufferSize ∧
      after.Holds ((fd, .descriptor content later) :: (buffer, .buffer bytes') :: rest) := by
  have opened : heap.readAs HashBlock.descriptor? fd = some (content, left) := holds.readAs (List.mem_cons_self ..) rfl
  have allocated : heap.readAs HashBlock.buffer? buffer = some bytes := 
    holds.readAs (List.mem_cons_of_mem _ (List.mem_cons_self ..)) rfl
  have wide : ¬bytes.length < bufferSize := by omega
  cases read : readChunk bufferSize left result with
  | error fault =>
    refine .inl ⟨fault, rfl, ?_⟩
    simp only [readInto, opened, allocated, read, Option.bind_eq_bind, Option.bind_some, if_neg wide]
  | ok given =>
    obtain ⟨chunk, later⟩ := given
    have fits := readChunk_fits read
    obtain ⟨middle, moved, held⟩ := holds.write (.descriptor content later)
    obtain ⟨after, stored, kept⟩ := (held.reorder (List.Perm.swap ..)).write (.buffer (chunk ++ bytes.drop chunk.length))
    refine .inr ⟨chunk, later, chunk ++ bytes.drop chunk.length, after, rfl, ?_, List.take_left, ?_,
      kept.reorder (List.Perm.swap ..)⟩
    · simp only [readInto, opened, allocated, read, moved, stored, Option.bind_eq_bind, Option.bind_some, if_neg wide]
      rfl
    · rw [List.length_append, List.length_drop]
      omega

end

/-! ## Hashing -/

section
variable {xxh : Xxh3} {raw : Nat → UInt8} {heap : HashHeap xxh.State} {rest : List (Nat × HashBlock xxh.State)}
  {fd bufferSize : Nat} {content left : Bytes}

theorem hashFileMmapAt_ok (holds : heap.Holds ((fd, .descriptor content left) :: rest)) (mapping : Option Fault) :
    ∃ after, hashFileMmapAt xxh fd mapping heap = some (hashFileMmap xxh content mapping, after) ∧
      after.Holds ((fd, .descriptor content left) :: rest) := by
  have opened : heap.readAs HashBlock.descriptor? fd = some (content, left) := holds.readAs (List.mem_cons_self ..) rfl
  simp only [hashFileMmapAt, hashFileMmap, opened, Option.bind_eq_bind, Option.bind_some]
  split
  · exact ⟨heap, rfl, holds⟩
  cases mapping with
  | some fault => exact ⟨heap, rfl, holds⟩
  | none =>
    obtain ⟨block, first, mapped, held⟩ := holds.allocated (.mapping content)
    have shown : first.readAs HashBlock.mapping? block = some content := held.readAs (List.mem_cons_self ..) rfl
    obtain ⟨after, unmapped, kept⟩ := unmap_ok held
    refine ⟨after, ?_, kept⟩
    simp only [mapped, shown, unmapped, Option.bind_some]
    rfl

theorem front_perm {Cell : Type} (a b c : Cell) (rest : List Cell) : (a :: b :: c :: rest).Perm (c :: a :: b :: rest) :=
  @List.perm_middle _ c [a, b] rest

theorem hashStreamLoop_fault {reads : Nat → ReadResult} {turn : Nat} {state : xxh.State} {fault : Fault}
    (read : readChunk bufferSize left (reads turn) = .error fault) :
    hashStreamLoop xxh bufferSize reads turn state left = .error fault := by
  rw [hashStreamLoop]
  split
  next other failed =>
    rw [read] at failed
    cases failed
    rfl
  next again => rw [read] at again; cases again

theorem hashStreamLoop_read {reads : Nat → ReadResult} {turn : Nat} {state : xxh.State} {chunk later : Bytes}
    (read : readChunk bufferSize left (reads turn) = .ok (chunk, later)) :
    hashStreamLoop xxh bufferSize reads turn state left =
      if chunk.length = 0 then .ok state
      else match xxh.update state chunk with
        | none => .error Fault.EIO
        | some updated => hashStreamLoop xxh bufferSize reads (turn + 1) updated later := by
  rw [hashStreamLoop]
  split
  next failed => rw [read] at failed; cases failed
  next again =>
    rw [read] at again
    cases again
    rfl

theorem hashStreamLoopAt_ok (reads : Nat → ReadResult) (turn : Nat) {state buffer fuel : Nat} {digesting : xxh.State}
    {bytes : Bytes} (room : bytes.length = bufferSize) (enough : left.length < fuel)
    (holds : heap.Holds
      ((fd, .descriptor content left) :: (buffer, .buffer bytes) :: (state, .hashState digesting) :: rest)) :
    ∃ rc left' bytes' final after,
      hashStreamLoopAt xxh bufferSize reads fd state buffer fuel turn heap = some (rc, after) ∧
      hashStreamLoop xxh bufferSize reads turn digesting left = rc.map (fun _ => final) ∧
      after.Holds
        ((fd, .descriptor content left') :: (buffer, .buffer bytes') :: (state, .hashState final) :: rest) := by
  induction fuel generalizing turn digesting left bytes heap with
  | zero => omega
  | succ fuel ih =>
    rcases readInto_ok holds room (reads turn) with
      ⟨fault, read, given⟩ | ⟨chunk, later, bytes', after, read, given, front, room', kept⟩
    · refine ⟨.error fault, left, bytes, digesting, heap, ?_, hashStreamLoop_fault read, holds⟩
      simp only [hashStreamLoopAt, given, Option.bind_eq_bind, Option.bind_some]
      rfl
    · have filled : after.readAs HashBlock.buffer? buffer = some bytes' :=
        kept.readAs (List.mem_cons_of_mem _ (List.mem_cons_self ..)) rfl
      have standing : after.readAs HashBlock.hashState? state = some digesting :=
        kept.readAs (List.mem_cons_of_mem _ (List.mem_cons_of_mem _ (List.mem_cons_self ..))) rfl
      simp only [hashStreamLoop_read read, hashStreamLoopAt, given, filled, standing, front, Option.bind_eq_bind,
        Option.bind_some]
      by_cases empty : chunk.length = 0
      · simp only [if_pos empty]
        exact ⟨.ok (), later, bytes', digesting, after, rfl, rfl, kept⟩
      · simp only [if_neg empty]
        cases updated : xxh.update digesting chunk with
        | none => exact ⟨.error Fault.EIO, later, bytes', digesting, after, rfl, rfl, kept⟩
        | some next =>
          have shorter := readChunk_decreases read empty
          obtain ⟨last, stored, held⟩ := (kept.reorder (front_perm ..)).write (.hashState next)
          have ready := held.reorder (front_perm ..).symm
          obtain ⟨rc, left', bytes'', final, end_, looped, same, standing'⟩ := ih (turn + 1) room' (by omega) ready
          refine ⟨rc, left', bytes'', final, end_, ?_, same, standing'⟩
          simp only [stored, Option.bind_some]
          exact looped

theorem hashFileStreamAt_ok (raw : Nat → UInt8) {fuel : Nat} (enough : content.length < fuel)
    (bufferSize : Nat) (env : HashEnv)
    (holds : heap.Holds ((fd, .descriptor content content) :: rest)) :
    ∃ left after, hashFileStreamAt xxh raw fuel fd bufferSize env heap =
        some (hashFileStream xxh content bufferSize env, after) ∧
      after.Holds ((fd, .descriptor content left) :: rest) := by
  unfold hashFileStreamAt hashFileStream
  cases env.stateOk with
  | false => exact ⟨content, heap, rfl, holds⟩
  | true =>
    obtain ⟨state, first, created, withState⟩ := holds.allocatedIf (.hashState xxh.reset)
    cases env.bufferOk with
    | false =>
      obtain ⟨after, freed, kept⟩ := xxh3FreeState_ok withState
      refine ⟨content, after, ?_, kept⟩
      simp only [created, Heap.allocIf_false, freed, Option.bind_eq_bind, Option.bind_some]
      rfl
    | true =>
      obtain ⟨buffer, second, allocated, withBoth⟩ := withState.allocatedIf (.buffer (rawBytes raw bufferSize))
      obtain ⟨rc, left, bytes, final, middle, looped, same, held⟩ :=
        hashStreamLoopAt_ok env.reads 0 (rawBytes_length raw bufferSize) enough (withBoth.reorder (front_perm ..))
      have standing : middle.readAs HashBlock.hashState? state = some final :=
        held.readAs (List.mem_cons_of_mem _ (List.mem_cons_of_mem _ (List.mem_cons_self ..))) rfl
      obtain ⟨last, freedBuffer, fewer⟩ := freeBuffer_ok (held.reorder (List.Perm.swap ..))
      obtain ⟨after, freedState, kept⟩ := xxh3FreeState_ok (fewer.reorder (List.Perm.swap ..))
      refine ⟨left, after, ?_, kept⟩
      simp only [created, allocated, looped, standing, freedBuffer, freedState, same, Option.bind_eq_bind, Option.bind_some]
      cases rc <;> rfl

theorem hashDescriptorAt_ok (raw : Nat → UInt8) (bufferSize mmapThreshold : Nat) {env : HashEnv} (fstat : env.fstat = none)
    (holds : heap.Holds ((fd, .descriptor content content) :: rest)) :
    ∃ left after, hashDescriptorAt xxh raw fd content.length bufferSize mmapThreshold env heap =
        some (hashFileXxh3 xxh (.ok content) bufferSize mmapThreshold env, after) ∧
      after.Holds ((fd, .descriptor content left) :: rest) := by
  simp only [hashDescriptorAt, hashFileXxh3, fstat]
  split
  · obtain ⟨middle, mapped, held⟩ := hashFileMmapAt_ok holds env.mapping
    simp only [mapped, Option.bind_eq_bind, Option.bind_some]
    cases hashFileMmap xxh content env.mapping with
    | ok hash => exact ⟨content, middle, rfl, held⟩
    | error fault =>
      cases env.seek with
      | some fault => exact ⟨content, middle, rfl, held⟩
      | none =>
        obtain ⟨last, rewound, start⟩ := rewind_ok held
        simp only [rewound, Option.bind_some]
        exact hashFileStreamAt_ok raw (Nat.lt_succ_self _) bufferSize env start
  · exact hashFileStreamAt_ok raw (Nat.lt_succ_self _) bufferSize env holds

theorem hashFileXxh3At_ok (raw : Nat → UInt8) (file : Except Fault Bytes) (bufferSize mmapThreshold : Nat) (env : HashEnv)
    (holds : heap.Holds rest) :
    ∃ after, hashFileXxh3At xxh raw file bufferSize mmapThreshold env heap =
        some (hashFileXxh3 xxh file bufferSize mmapThreshold env, after) ∧
      after.Holds rest := by
  cases file with
  | error fault => exact ⟨heap, rfl, holds⟩
  | ok content =>
    obtain ⟨fd, first, opened, withFd⟩ := holds.allocated (.descriptor content content)
    cases fstat : env.fstat with
    | some fault =>
      obtain ⟨after, closed, kept⟩ := closeDescriptor_ok withFd
      refine ⟨after, ?_, kept⟩
      simp only [hashFileXxh3At, hashFileXxh3, fstat, opened, closed, Option.bind_eq_bind, Option.bind_some]
      rfl
    | none =>
      obtain ⟨left, middle, hashed, held⟩ := hashDescriptorAt_ok raw bufferSize mmapThreshold fstat withFd
      obtain ⟨after, closed, kept⟩ := closeDescriptor_ok held
      refine ⟨after, ?_, kept⟩
      simp only [hashFileXxh3At, fstat, opened, hashed, closed, Option.bind_eq_bind, Option.bind_some]
      rfl

end

/-! ## Comparing -/

section
variable {State : Type} {heap : HashHeap State} {rest : List (Nat × HashBlock State)} {bufferSize : Nat} {env : BinaryEnv}

theorem pairs_perm {Cell : Type} (a b c d : Cell) (rest : List Cell) :
    (a :: b :: c :: d :: rest).Perm (c :: d :: a :: b :: rest) :=
  (@List.perm_append_comm _ [a, b] [c, d]).append_right rest

theorem scattered_perm {Cell : Type} (a b c d : Cell) (rest : List Cell) :
    (d :: b :: a :: c :: rest).Perm (a :: b :: c :: d :: rest) :=
  ((List.Perm.swap a b (c :: rest)).cons d).trans (@List.perm_middle _ d [a, b, c] rest).symm

theorem compareBinaryLoop_faultA {turn : Nat} {leftA leftB : Bytes} {fault : Fault}
    (read : readChunk bufferSize leftA (env.readsA turn) = .error fault) :
    compareBinaryLoop bufferSize env turn leftA leftB = .error fault := by
  rw [compareBinaryLoop]
  split
  next other failed =>
    rw [read] at failed
    cases failed
    rfl
  next again => rw [read] at again; cases again

theorem compareBinaryLoop_read {turn : Nat} {leftA leftB chunkA laterA : Bytes}
    (readA : readChunk bufferSize leftA (env.readsA turn) = .ok (chunkA, laterA)) :
    compareBinaryLoop bufferSize env turn leftA leftB =
      match readChunk bufferSize leftB (env.readsB turn) with
      | .error fault => .error fault
      | .ok (chunkB, laterB) =>
        if chunkA.length ≠ chunkB.length then .ok false
        else if chunkA.length = 0 then .ok true
        else if chunkA ≠ chunkB then .ok false
        else compareBinaryLoop bufferSize env (turn + 1) laterA laterB := by
  rw [compareBinaryLoop]
  split
  next failed => rw [readA] at failed; cases failed
  next again =>
    rw [readA] at again
    cases again
    rfl

def comparisonCells (fdA fdB bufA bufB : Nat) (contentA contentB leftA leftB bytesA bytesB : Bytes)
    (rest : List (Nat × HashBlock State)) : List (Nat × HashBlock State) :=
  (fdA, .descriptor contentA leftA) :: (bufA, .buffer bytesA) :: (fdB, .descriptor contentB leftB) ::
    (bufB, .buffer bytesB) :: rest

theorem compareBinaryLoopAt_ok (env : BinaryEnv) (turn : Nat) {fdA fdB bufA bufB fuel : Nat}
    {contentA contentB leftA leftB bytesA bytesB : Bytes}
    (roomA : bytesA.length = bufferSize) (roomB : bytesB.length = bufferSize) (enough : leftA.length < fuel)
    (holds : heap.Holds (comparisonCells fdA fdB bufA bufB contentA contentB leftA leftB bytesA bytesB rest)) :
    ∃ leftA' leftB' bytesA' bytesB' after,
      compareBinaryLoopAt bufferSize env fdA fdB bufA bufB fuel turn heap =
        some (compareBinaryLoop bufferSize env turn leftA leftB, after) ∧
      after.Holds (comparisonCells fdA fdB bufA bufB contentA contentB leftA' leftB' bytesA' bytesB' rest) := by
  induction fuel generalizing turn leftA leftB bytesA bytesB heap with
  | zero => omega
  | succ fuel ih =>
    rcases readInto_ok holds roomA (env.readsA turn) with
      ⟨fault, read, given⟩ | ⟨chunkA, laterA, bytesA', middle, readA, givenA, frontA, roomA', heldA⟩
    · refine ⟨leftA, leftB, bytesA, bytesB, heap, ?_, holds⟩
      simp only [compareBinaryLoop_faultA read, compareBinaryLoopAt, given, Option.bind_eq_bind, Option.bind_some]
      rfl
    simp only [compareBinaryLoop_read readA, compareBinaryLoopAt, givenA, Option.bind_eq_bind, Option.bind_some]
    rcases readInto_ok (heldA.reorder (pairs_perm ..)) roomB (env.readsB turn) with
      ⟨fault, read, given⟩ | ⟨chunkB, laterB, bytesB', after, readB, givenB, frontB, roomB', heldB⟩
    · refine ⟨laterA, leftB, bytesA', bytesB, middle, ?_, heldA⟩
      simp only [read, given, Option.bind_some]
      rfl
    have kept : after.Holds (comparisonCells fdA fdB bufA bufB contentA contentB laterA laterB bytesA' bytesB' rest) :=
      heldB.reorder (pairs_perm ..)
    have filledA : after.readAs HashBlock.buffer? bufA = some bytesA' :=
      kept.readAs (List.mem_cons_of_mem _ (List.mem_cons_self ..)) rfl
    have filledB : after.readAs HashBlock.buffer? bufB = some bytesB' :=
      heldB.readAs (List.mem_cons_of_mem _ (List.mem_cons_self ..)) rfl
    simp only [readB, givenB, filledA, filledB, Option.bind_some]
    by_cases lengths : chunkA.length = chunkB.length
    · have front : bytesB'.take chunkA.length = chunkB := lengths ▸ frontB
      simp only [frontA, front, if_neg (not_not.mpr lengths)]
      split
      · exact ⟨laterA, laterB, bytesA', bytesB', after, rfl, kept⟩
      next more =>
        split
        · exact ⟨laterA, laterB, bytesA', bytesB', after, rfl, kept⟩
        · have shorter := readChunk_decreases readA more
          exact ih (turn + 1) roomA' roomB' (by omega) kept
    · simp only [if_pos lengths]
      exact ⟨laterA, laterB, bytesA', bytesB', after, rfl, kept⟩

theorem compareDescriptorsAt_ok (raw : Nat → UInt8) (bufferSize : Nat) (env : BinaryEnv) {fdA fdB fuel : Nat}
    {contentA contentB : Bytes} (enough : contentA.length < fuel)
    (holds : heap.Holds ((fdB, .descriptor contentB contentB) :: (fdA, .descriptor contentA contentA) :: rest)) :
    ∃ leftA leftB after, compareDescriptorsAt raw fdA fdB fuel bufferSize env heap =
        some (vdCompareBinaryFiles (.ok contentA) (.ok contentB) bufferSize env, after) ∧
      after.Holds ((fdA, .descriptor contentA leftA) :: (fdB, .descriptor contentB leftB) :: rest) := by
  have opened := holds.reorder (List.Perm.swap ..)
  unfold compareDescriptorsAt vdCompareBinaryFiles
  cases env.bufferAOk with
  | false =>
    cases env.bufferBOk with
    | false => exact ⟨contentA, contentB, heap, rfl, opened⟩
    | true =>
      obtain ⟨bufB, first, allocated, withB⟩ := opened.allocatedIf (.buffer (rawBytes raw bufferSize))
      obtain ⟨after, freed, kept⟩ := freeBuffer_ok withB
      refine ⟨contentA, contentB, after, ?_, kept⟩
      simp only [Heap.allocIf_false, allocated, freeBuffer_none, freed, Option.bind_eq_bind, Option.bind_some]
      rfl
  | true =>
    obtain ⟨bufA, first, allocated, withA⟩ := opened.allocatedIf (.buffer (rawBytes raw bufferSize))
    cases env.bufferBOk with
    | false =>
      obtain ⟨after, freed, kept⟩ := freeBuffer_ok withA
      refine ⟨contentA, contentB, after, ?_, kept⟩
      simp only [Heap.allocIf_false, allocated, freeBuffer_none, freed, Option.bind_eq_bind, Option.bind_some]
      rfl
    | true =>
      obtain ⟨bufB, second, allocatedB, withBoth⟩ := withA.allocatedIf (.buffer (rawBytes raw bufferSize))
      obtain ⟨leftA, leftB, bytesA, bytesB, middle, compared, held⟩ :=
        compareBinaryLoopAt_ok env 0 (rawBytes_length raw bufferSize) (rawBytes_length raw bufferSize) enough
          (withBoth.reorder (scattered_perm ..))
      obtain ⟨last, freedA, fewer⟩ := freeBuffer_ok (held.reorder (List.Perm.swap ..))
      obtain ⟨after, freedB, kept⟩ := freeBuffer_ok (fewer.reorder (front_perm ..))
      refine ⟨leftA, leftB, after, ?_, kept⟩
      simp only [allocated, allocatedB, compared, freedA, freedB, Option.bind_eq_bind, Option.bind_some]
      rfl

theorem vdCompareBinaryFilesAt_ok (raw : Nat → UInt8) (fileA fileB : Except Fault Bytes)
    (bufferSize : Nat) (env : BinaryEnv)
    (holds : heap.Holds rest) :
    ∃ after, vdCompareBinaryFilesAt raw fileA fileB bufferSize env heap =
        some (vdCompareBinaryFiles fileA fileB bufferSize env, after) ∧
      after.Holds rest := by
  cases fileA with
  | error fault => exact ⟨heap, rfl, holds⟩
  | ok contentA =>
    obtain ⟨fdA, first, openedA, withA⟩ := holds.allocated (.descriptor contentA contentA)
    cases fileB with
    | error fault =>
      obtain ⟨after, closed, kept⟩ := closeDescriptor_ok withA
      refine ⟨after, ?_, kept⟩
      simp only [vdCompareBinaryFilesAt, openedA, closed, Option.bind_eq_bind, Option.bind_some]
      rfl
    | ok contentB =>
      obtain ⟨fdB, second, openedB, withBoth⟩ := withA.allocated (.descriptor contentB contentB)
      obtain ⟨leftA, leftB, middle, compared, held⟩ :=
        compareDescriptorsAt_ok raw bufferSize env (by omega : contentA.length < contentA.length + 1) withBoth
      obtain ⟨last, closedA, fewer⟩ := closeDescriptor_ok held
      obtain ⟨after, closedB, kept⟩ := closeDescriptor_ok fewer
      refine ⟨after, ?_, kept⟩
      simp only [vdCompareBinaryFilesAt, openedA, openedB, compared, closedA, closedB, Option.bind_eq_bind, Option.bind_some]
      rfl

theorem vdIsLikelyTextFileAt_ok (raw : Nat → UInt8) (file : Except Fault Bytes) (result : ReadResult)
    (holds : heap.Holds rest) :
    ∃ after, vdIsLikelyTextFileAt raw file result heap = some (vdIsLikelyTextFile file result, after) ∧
      after.Holds rest := by
  cases file with
  | error fault => exact ⟨heap, rfl, holds⟩
  | ok content =>
    obtain ⟨fd, first, opened, withFd⟩ := holds.allocated (.descriptor content content)
    obtain ⟨array, second, placed, withBoth⟩ := withFd.allocated (.buffer (rawBytes raw 8192))
    have ready := withBoth.reorder (List.Perm.swap ..)
    rcases readInto_ok ready (rawBytes_length raw 8192) result with
      ⟨fault, read, given⟩ | ⟨chunk, later, bytes, middle, read, given, front, _, held⟩
    · obtain ⟨last, closed, fewer⟩ := closeDescriptor_ok ready
      have filled := fewer.readAs (List.mem_cons_self ..) (rfl : HashBlock.buffer? _ = _)
      obtain ⟨after, freed, kept⟩ := freeBuffer_ok fewer
      refine ⟨after, ?_, kept⟩
      simp only [vdIsLikelyTextFileAt, vdIsLikelyTextFile, opened, placed, given, closed, filled, freed, read,
        Option.bind_eq_bind, Option.bind_some]
      rfl
    · obtain ⟨last, closed, fewer⟩ := closeDescriptor_ok held
      have filled := fewer.readAs (List.mem_cons_self ..) (rfl : HashBlock.buffer? _ = _)
      obtain ⟨after, freed, kept⟩ := freeBuffer_ok fewer
      refine ⟨after, ?_, kept⟩
      simp only [vdIsLikelyTextFileAt, vdIsLikelyTextFile, opened, placed, given, closed, filled, freed, read, front,
        Option.bind_eq_bind, Option.bind_some]
      rfl

end

/-! ## Calls one after the other -/

inductive HashCall where
  | hashFile (file : Except Fault Bytes) (bufferSize mmapThreshold : Nat) (env : HashEnv)
  | compareFiles (fileA fileB : Except Fault Bytes) (bufferSize : Nat) (env : BinaryEnv)
  | likelyText (file : Except Fault Bytes) (result : ReadResult)

inductive HashAnswer where
  | hash (answer : Except Fault UInt64)
  | equal (answer : Except Fault Bool)
  | text (answer : Bool)

def HashCall.answer (xxh : Xxh3) : HashCall → HashAnswer
  | .hashFile file bufferSize mmapThreshold env => .hash (hashFileXxh3 xxh file bufferSize mmapThreshold env)
  | .compareFiles fileA fileB bufferSize env => .equal (vdCompareBinaryFiles fileA fileB bufferSize env)
  | .likelyText file result => .text (vdIsLikelyTextFile file result)

section
variable (xxh : Xxh3) (raw : Nat → UInt8)

def hashCallAt (heap : HashHeap xxh.State) : HashCall → Option (HashAnswer × HashHeap xxh.State)
  | .hashFile file bufferSize mmapThreshold env =>
    (hashFileXxh3At xxh raw file bufferSize mmapThreshold env heap).map fun (answer, heap) => (.hash answer, heap)
  | .compareFiles fileA fileB bufferSize env =>
    (vdCompareBinaryFilesAt raw fileA fileB bufferSize env heap).map fun (answer, heap) => (.equal answer, heap)
  | .likelyText file result =>
    (vdIsLikelyTextFileAt raw file result heap).map fun (answer, heap) => (.text answer, heap)

def hashStepAt (heap : HashHeap xxh.State) (call : HashCall) :
    Option (HashHeap xxh.State × List (HashCall × HashAnswer)) :=
  (hashCallAt xxh raw heap call).map fun (answer, heap) => (heap, [(call, answer)])

abbrev HashRun (start : HashHeap xxh.State) : HashHeap xxh.State → List (HashCall × HashAnswer) → Prop :=
  Run (hashStepAt xxh raw) (fun _ _ => True) start

end

section
variable {xxh : Xxh3} {raw : Nat → UInt8} {start heap : HashHeap xxh.State} {rest : List (Nat × HashBlock xxh.State)}
  {trace : List (HashCall × HashAnswer)}

theorem hashStepAt_ok (raw : Nat → UInt8) (holds : heap.Holds rest) (call : HashCall) :
    ∃ after, hashStepAt xxh raw heap call = some (after, [(call, call.answer xxh)]) ∧ after.Holds rest := by
  cases call with
  | hashFile file bufferSize mmapThreshold env =>
    obtain ⟨after, hashed, kept⟩ := hashFileXxh3At_ok raw file bufferSize mmapThreshold env holds
    refine ⟨after, ?_, kept⟩
    rw [hashStepAt, hashCallAt, hashed]
    rfl
  | compareFiles fileA fileB bufferSize env =>
    obtain ⟨after, compared, kept⟩ := vdCompareBinaryFilesAt_ok raw fileA fileB bufferSize env holds
    refine ⟨after, ?_, kept⟩
    rw [hashStepAt, hashCallAt, compared]
    rfl
  | likelyText file result =>
    obtain ⟨after, tested, kept⟩ := vdIsLikelyTextFileAt_ok raw file result holds
    refine ⟨after, ?_, kept⟩
    rw [hashStepAt, hashCallAt, tested]
    rfl

/-- Whatever the calls met, the heap is as it was, and the next call will go through. -/
theorem hash_resources (holds : start.Holds rest) (run : HashRun xxh raw start heap trace) :
    heap.Holds rest ∧ (∀ done ∈ trace, done.2 = done.1.answer xxh) ∧
      ∀ call, ∃ after, hashStepAt xxh raw heap call = some (after, [(call, call.answer xxh)]) ∧ after.Holds rest := by
  have kept : heap.Holds rest ∧ ∀ done ∈ trace, done.2 = done.1.answer xxh := by
    refine Run.invariant (fun heap trace => heap.Holds rest ∧ ∀ done ∈ trace, done.2 = done.1.answer xxh)
      ⟨holds, List.forall_mem_nil _⟩ ?_ run
    rintro before next trace events call _ ⟨held, answered⟩ _ step
    obtain ⟨after, stepped, kept⟩ := hashStepAt_ok raw held call
    rw [stepped] at step
    cases step
    exact ⟨kept, List.forall_mem_append.mpr ⟨answered, List.forall_mem_singleton.mpr rfl⟩⟩
  exact ⟨kept.1, kept.2, hashStepAt_ok raw kept.1⟩

end

def countingHash : Xxh3 := Xxh3.ofFunction fun bytes => bytes.length.toUInt64

def piecewiseCall : HashCall :=
  .hashFile (.ok [118, 100, 10]) 2 8 ⟨none, some Fault.ENOMEM, none, true, true, fun _ => .upTo 2⟩

theorem hash_resources_piecewise :
    HashRun countingHash (fun _ => 255) ⟨[], 0⟩ ⟨[], 3⟩ [(piecewiseCall, .hash (.ok 3))] ∧
      piecewiseCall.answer countingHash = .hash (.ok 3) := by
  have step : hashStepAt countingHash (fun _ => 255) ⟨[], 0⟩ piecewiseCall =
      some (⟨[], 3⟩, [(piecewiseCall, .hash (.ok 3))]) := rfl
  have run : HashRun countingHash (fun _ => 255) ⟨[], 0⟩ ⟨[], 3⟩ [(piecewiseCall, .hash (.ok 3))] :=
    .next .start trivial step
  exact ⟨run, ((hash_resources (Heap.holds_empty 0) run).2.1 _ (List.mem_singleton.mpr rfl)).symm⟩

end Verdiff
