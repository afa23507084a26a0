import Verdiff.Library.Growable
import Verdiff.Scanner.Machine

/-! `scan_directory` with the memory it allocates and frees.

The paths are strings on the heap, the stack is an array on the heap, and an open directory is a
block too. A step that used a block after it was freed, or freed one twice, would have no
result. What the index allocates is the index's own.
-/

set_option autoImplicit false

namespace Verdiff
open Transition

structure FramePtrs where
  relative : Nat
  absolute : Nat
  deriving DecidableEq

inductive ScanBlock where
  | string (value : CString)
  | frames (room : Nat) (items : List FramePtrs)
  | dir (names : List CString) (fault : Option Fault)

inductive MemoryStage where
  | starting
  | popping
  | reading (frame : FramePtrs) (dir : Nat)
  | returned (rc : Rc)

structure MemoryState where
  stage : MemoryStage
  stack : Growable
  heap : Heap ScanBlock
  index : FileIndex
  progress : ProgressState

abbrev ScanHeap := Heap ScanBlock

def allocString (heap : ScanHeap) (value : CString) (ok : Bool) : Option Nat × ScanHeap :=
  heap.allocIf (.string value) ok

def readString (heap : ScanHeap) (block : Nat) : Option CString :=
  match heap.read block with
  | some (.string value) => some value
  | _ => none

def frameArrays : Arrays ScanBlock FramePtrs where
  pack := .frames
  unpack
    | .frames room items => some (room, items)
    | _ => none
  unpack_pack _ _ := rfl

def pushFrame (heap : ScanHeap) (stack : Growable) (frame : FramePtrs) (growOk : Bool) :
    Option (Rc × Growable × ScanHeap) := do
  let (roomy, stack, heap) ← frameArrays.reserve 32 heap stack growOk
  if roomy then
    let heap ← frameArrays.store heap stack frame
    return (0, { stack with count := stack.count + 1 }, heap)
  else return (Fault.ENOMEM.code, stack, heap)

def popFrame (heap : ScanHeap) (stack : Growable) : Option (FramePtrs × Growable) := do
  let (_, frames) ← frameArrays.read heap stack.items
  let frame ← frames[stack.count - 1]?
  return (frame, { stack with count := stack.count - 1 })

def freeFrame (heap : ScanHeap) (frame : FramePtrs) : Option ScanHeap := do
  let heap ← heap.free frame.relative
  heap.free frame.absolute

def freeFrames : List FramePtrs → ScanHeap → Option ScanHeap
  | [], heap => some heap
  | frame :: rest, heap => (freeFrame heap frame).bind (freeFrames rest)

def destroyStack (heap : ScanHeap) (stack : Growable) : Option ScanHeap := do
  let frames ← frameArrays.used heap stack
  let heap ← freeFrames frames heap
  heap.freePtr stack.items

section
variable (context : ScanContext)

/-- Behind the inner loop, with the code it was left with. -/
def closeFrame (m : MemoryState) (frame : FramePtrs) (dir : Nat) (rc : Rc) : Option MemoryState := do
  let heap ← m.heap.free dir
  let heap ← freeFrame heap frame
  if rc ≠ 0 then
    let heap ← destroyStack heap m.stack
    return { m with stage := .returned rc, heap := heap }
  else return { m with stage := .popping, heap := heap }

/-- What follows once both strings are there and `lstat` has told of the entry. -/
def memoryShown (m : MemoryState) (strings : FramePtrs) (told : Except Fault Stat) (allocs : ScanAllocs) :
    Option (Rc × MemoryState × ScanCall) := do
  match told with
  | .error fault =>
    let heap ← freeFrame m.heap strings
    return (fault.code, { m with heap := heap }, .lstat)
  | .ok st =>
    match st.kind with
    | .directory =>
      let (rc, stack, heap) ← pushFrame m.heap m.stack strings allocs.stackOk
      let heap ← if rc ≠ 0 then freeFrame heap strings else some heap
      return (rc, { m with stack := stack, heap := heap }, .frameStackPush)
    | .regular =>
      let key ← readString m.heap strings.relative
      let (rc, index) ← fileIndexUpsert context.hashPath m.index key st.size st.mtime allocs.upsert
      let progress := if rc = 0 then progressNoteScan m.progress context.phase else m.progress
      let heap ← freeFrame m.heap strings
      return (rc, { m with index := index, progress := progress, heap := heap }, .fileIndexUpsert)
    | _ =>
      let heap ← freeFrame m.heap strings
      return (0, { m with heap := heap }, .lstat)

def memoryEntry (m : MemoryState) (frame : FramePtrs) (name : CString) (allocs : ScanAllocs) :
    Option (Rc × MemoryState × ScanCall) := do
  let parentRel ← readString m.heap frame.relative
  let (rel, heap) := allocString m.heap (vdNormalizeJoinedRelative parentRel name) allocs.relativeOk
  let parentAbs ← readString heap frame.absolute
  let (abs, heap) := allocString heap (vdJoinPath parentAbs name) allocs.absoluteOk
  match rel, abs with
  | some rel, some abs =>
    let path ← readString heap abs
    memoryShown context { m with heap := heap } ⟨rel, abs⟩ (context.files.lstat path) allocs
  | _, _ =>
    let heap ← heap.freePtr rel
    let heap ← heap.freePtr abs
    return (Fault.ENOMEM.code, { m with heap := heap }, .strings)

def memoryStep (m : MemoryState) (allocs : ScanAllocs) : Option (MemoryState × List ScanEvent) :=
  match m.stage with
  | .starting =>
    let (rel, heap) := allocString m.heap .empty allocs.relativeOk
    let (abs, heap) := allocString heap context.root allocs.absoluteOk
    match rel, abs with
    | some rel, some abs => do
      let (rc, stack, heap) ← pushFrame heap m.stack ⟨rel, abs⟩ allocs.stackOk
      if rc ≠ 0 then
        let heap ← destroyStack heap stack
        return ({ m with stage := .returned rc, stack := stack, heap := heap }, [⟨.frameStackPush, rc⟩])
      else return ({ m with stage := .popping, stack := stack, heap := heap }, [⟨.frameStackPush, rc⟩])
    | _, _ => do
      let heap ← heap.freePtr rel
      let heap ← heap.freePtr abs
      return ({ m with stage := .returned Fault.ENOMEM.code, heap := heap }, [⟨.strings, Fault.ENOMEM.code⟩])
  | .popping =>
    if m.stack.count = 0 then some ({ m with stage := .returned 0 }, [])
    else do
      let (frame, stack) ← popFrame m.heap m.stack
      let path ← readString m.heap frame.absolute
      match context.files.opendir path with
      | .error fault =>
        let heap ← freeFrame m.heap frame
        let heap ← destroyStack heap stack
        return ({ m with stage := .returned fault.code, stack := stack, heap := heap }, [⟨.opendir, fault.code⟩])
      | .ok opened =>
        let (dir, heap) := m.heap.alloc (.dir opened.names opened.fault)
        return ({ m with stage := .reading frame dir, stack := stack, heap := heap }, [⟨.opendir, 0⟩])
  | .reading frame dir =>
    match m.heap.read dir with
    | some (.dir [] none) => do
      let closed ← closeFrame m frame dir 0
      return (closed, [⟨.readdir, 0⟩])
    | some (.dir [] (some fault)) => do
      let closed ← closeFrame m frame dir fault.code
      return (closed, [⟨.readdir, fault.code⟩])
    | some (.dir (name :: rest) fault) => do
      let heap ← m.heap.write dir (.dir rest fault)
      let m := { m with heap := heap }
      if strcmp name dot = 0 ∨ strcmp name dotDot = 0 then return (m, [⟨.readdir, 0⟩])
      else
        let (rc, m, call) ← memoryEntry context m frame name allocs
        let m ← if rc ≠ 0 then closeFrame m frame dir rc else some m
        return (m, [⟨.readdir, 0⟩, ⟨call, rc⟩])
    | _ => none
  | .returned _ => none

end

def memoryStart (heap : ScanHeap) (index : FileIndex) (progress : ProgressState) : MemoryState :=
  ⟨.starting, ⟨none, 0, 0⟩, heap, index, progress⟩

abbrev MemoryRun (context : ScanContext) (heap : ScanHeap) (index : FileIndex) (progress : ProgressState) :
    MemoryState → List ScanEvent → Prop :=
  Run (memoryStep context) (fun _ _ => True) (memoryStart heap index progress)

/-! ## The blocks of a frame and of the stack -/

def frameCells (frame : FramePtrs × ScanFrame) : List (Nat × ScanBlock) :=
  [(frame.1.relative, .string frame.2.relative), (frame.1.absolute, .string frame.2.absolute)]

def stackCells (frames : List (FramePtrs × ScanFrame)) : List (Nat × ScanBlock) := frames.flatMap frameCells

theorem stackCells_concat (frames : List (FramePtrs × ScanFrame)) (frame : FramePtrs × ScanFrame) :
    stackCells (frames ++ [frame]) = stackCells frames ++ frameCells frame := by
  rw [stackCells, List.flatMap_append, List.flatMap_singleton]
  rfl

variable {heap : ScanHeap} {rest array cells : List (Nat × ScanBlock)} {stack : Growable} {frames : List FramePtrs}
  {frame : FramePtrs}

theorem readString_ok {block : Nat} {value : CString} (holds : heap.Holds cells)
    (member : (block, .string value) ∈ cells) : readString heap block = some value := by
  rw [readString, holds.read member]

theorem freeFrame_ok (frame : FramePtrs × ScanFrame) (holds : heap.Holds (frameCells frame ++ rest)) :
    ∃ after, freeFrame heap frame.1 = some after ∧ after.Holds rest := by
  obtain ⟨middle, freed, others⟩ := holds.free
  obtain ⟨after, freedToo, kept⟩ := others.free
  exact ⟨after, by rw [freeFrame, freed]; exact freedToo, kept⟩

theorem freeFrames_ok (frames : List (FramePtrs × ScanFrame)) (holds : heap.Holds (stackCells frames ++ rest)) :
    ∃ after, freeFrames (frames.map Prod.fst) heap = some after ∧ after.Holds rest := by
  induction frames generalizing heap with
  | nil => exact ⟨heap, rfl, holds⟩
  | cons frame frames ih =>
    rw [stackCells, List.flatMap_cons, List.append_assoc] at holds
    obtain ⟨middle, freed, others⟩ := freeFrame_ok frame holds
    obtain ⟨after, freedAll, kept⟩ := ih others
    exact ⟨after, by rw [List.map_cons, freeFrames, freed, Option.bind_some, freedAll], kept⟩

theorem destroyStack_ok {frames : List (FramePtrs × ScanFrame)} (of : frameArrays.Of stack (frames.map Prod.fst) array)
    (holds : heap.Holds (array ++ (stackCells frames ++ rest))) :
    ∃ after, destroyStack heap stack = some after ∧ after.Holds rest := by
  have moved : heap.Holds (stackCells frames ++ (array ++ rest)) := by
    refine holds.reorder ?_
    classical grind
  obtain ⟨middle, freed, left⟩ := freeFrames_ok frames moved
  obtain ⟨after, freedArray, kept⟩ := of.free left
  refine ⟨after, ?_, kept⟩
  simp only [destroyStack, of.used holds, freed, Option.bind_eq_bind, Option.bind_some]
  exact freedArray

/-! ## Pushes and pops -/

theorem pushFrame_ok (of : frameArrays.Of stack frames array) (holds : heap.Holds (array ++ rest)) (frame : FramePtrs)
    (growOk : Bool) :
    (stack.count = stack.capacity ∧ growOk = false ∧
      pushFrame heap stack frame growOk = some (Fault.ENOMEM.code, stack, heap)) ∨
    ((stack.count = stack.capacity → growOk = true) ∧ ∃ grown stored after,
      pushFrame heap stack frame growOk = some (0, grown, after) ∧ frameArrays.Of grown (frames ++ [frame]) stored ∧
      grown.capacity = (if stack.count = stack.capacity then if stack.capacity = 0 then 32 else stack.capacity * 2
        else stack.capacity) ∧
      after.Holds (stored ++ rest)) := by
  rcases of.reserve holds (by decide : 0 < 32) growOk with
    ⟨full, refused, reserved⟩ | ⟨allowed, grown, moved, middle, reserved, ofGrown, some_, room, capacity, others⟩
  · refine .inl ⟨full, refused, ?_⟩
    simp only [pushFrame, reserved, Option.bind_eq_bind, Option.bind_some]
    rfl
  · obtain ⟨stored, after, written, _, ofNext, kept⟩ := ofGrown.store some_ room others frame
    refine .inr ⟨allowed, _, stored, after, ?_, ofNext, capacity, kept⟩
    simp only [pushFrame, reserved, written, Option.bind_eq_bind, Option.bind_some, ↓reduceIte]
    rfl

theorem popFrame_ok (of : frameArrays.Of stack (frames ++ [frame]) array) (holds : heap.Holds (array ++ rest)) :
    popFrame heap stack = some (frame, { stack with count := frames.length }) ∧
      frameArrays.Of { stack with count := frames.length } frames array := by
  obtain ⟨written, found, taken⟩ := of.read holds (of.filled (by simp))
  have counted : stack.count - 1 = frames.length := by rw [of.count, List.length_append, List.length_singleton]; rfl
  have last : written[frames.length]? = some frame := by
    have length : (frames ++ [frame]).length = frames.length + 1 := by rw [List.length_append, List.length_singleton]
    rw [← List.getElem?_take_of_lt (length ▸ Nat.lt_succ_self frames.length : frames.length < (frames ++ [frame]).length),
      taken]
    simp
  refine ⟨?_, of.pop⟩
  simp only [popFrame, found, counted, last, Option.bind_eq_bind, Option.bind_some]
  rfl

/-- A stack in memory, from the bottom on, and the frames it stands for, from the top on. -/
structure StackOf (stack : Growable) (abstract : FrameStack) (frames : List (FramePtrs × ScanFrame))
    (array : List (Nat × ScanBlock)) : Prop where
  array : frameArrays.Of stack (frames.map Prod.fst) array
  items : abstract.items = (frames.map Prod.snd).reverse
  capacity : abstract.capacity = stack.capacity

section
variable {abstract : FrameStack} {frames : List (FramePtrs × ScanFrame)}

theorem StackOf.count (of : StackOf stack abstract frames array) : stack.count = frames.length := by
  rw [of.array.count, List.length_map]

theorem StackOf.push (of : StackOf stack abstract frames array) (holds : heap.Holds (array ++ rest)) (pointers : FramePtrs)
    (frame : ScanFrame) (growOk : Bool) :
    (frameStackPush abstract frame growOk = (Fault.ENOMEM.code, abstract) ∧
      pushFrame heap stack pointers growOk = some (Fault.ENOMEM.code, stack, heap)) ∨
    ∃ next grown stored after, frameStackPush abstract frame growOk = (0, next) ∧
      pushFrame heap stack pointers growOk = some (0, grown, after) ∧
      StackOf grown next (frames ++ [(pointers, frame)]) stored ∧ after.Holds (stored ++ rest) := by
  have length : abstract.items.length = stack.count := by
    rw [of.items, List.length_reverse, List.length_map, of.count]
  unfold frameStackPush
  rw [length, of.capacity]
  rcases pushFrame_ok of.array holds pointers growOk with ⟨full, refused, pushed⟩ | ⟨allowed, grown, stored, after, pushed,
    array, capacity, kept⟩
  · rw [if_pos full, refused]
    exact .inl ⟨rfl, by rw [← refused]; exact pushed⟩
  · have items : frame :: abstract.items = ((frames ++ [(pointers, frame)]).map Prod.snd).reverse := by
      rw [List.map_append, List.reverse_append, of.items]
      rfl
    have pointed : frameArrays.Of grown ((frames ++ [(pointers, frame)]).map Prod.fst) stored := by
      rw [List.map_append]
      exact array
    by_cases full : stack.count = stack.capacity
    · rw [if_pos full, allowed full]
      rw [if_pos full] at capacity
      exact .inr ⟨_, grown, stored, after, rfl, by rw [← allowed full]; exact pushed, ⟨pointed, items, capacity.symm⟩, kept⟩
    · rw [if_neg full]
      rw [if_neg full] at capacity
      exact .inr ⟨_, grown, stored, after, rfl, pushed, ⟨pointed, items, capacity.symm⟩, kept⟩

theorem StackOf.pop (of : StackOf stack abstract frames array) (holds : heap.Holds (array ++ rest)) :
    (stack.count = 0 ∧ frameStackPop abstract = none) ∨
    ∃ below pointers frame next, stack.count ≠ 0 ∧ frames = below ++ [(pointers, frame)] ∧
      frameStackPop abstract = some (frame, next) ∧
      popFrame heap stack = some (pointers, { stack with count := below.length }) ∧
      StackOf { stack with count := below.length } next below array := by
  -- The two systems pop the same frame.
  rcases List.eq_nil_or_concat frames with empty | ⟨below, ⟨pointers, frame⟩, rfl⟩
  · refine .inl ⟨by rw [of.count, empty, List.length_nil], ?_⟩
    rw [frameStackPop, of.items, empty]
    rfl
  · have pointed := of.array
    rw [List.concat_eq_append, List.map_append] at pointed
    obtain ⟨popped, left⟩ := popFrame_ok pointed holds
    rw [List.length_map] at popped left
    refine .inr ⟨below, pointers, frame, { abstract with items := (below.map Prod.snd).reverse }, ?_,
      List.concat_eq_append, ?_, popped, left, rfl, of.capacity⟩
    · rw [of.count, List.length_concat]
      exact Nat.succ_ne_zero _
    · rw [frameStackPop, of.items, List.concat_eq_append, List.map_append, List.reverse_append]
      rfl

end

/-! ## The scan in memory -/

/-- What a scan leaves allocated: the array of the stack when it has returned zero, the two
strings of the root when it could not push them, and nothing else. -/
inductive Leaves (root : CString) (others : List (Nat × ScanBlock)) (trace : List ScanEvent) (stack : Growable)
    (heap : ScanHeap) : Rc → Prop where
  | array {items room : Nat} {written : List FramePtrs} : stack.items = some items →
      heap.Holds ((items, .frames room written) :: others) → Leaves root others trace stack heap 0
  | strings {pointers : FramePtrs} : trace = [⟨.frameStackPush, Fault.ENOMEM.code⟩] →
      heap.Holds (frameCells (pointers, ⟨.empty, root⟩) ++ others) → Leaves root others trace stack heap Fault.ENOMEM.code
  | nothing {rc : Rc} : rc ≠ 0 → trace ≠ [⟨.frameStackPush, Fault.ENOMEM.code⟩] → heap.Holds others →
      Leaves root others trace stack heap rc

/-- The memory of a scan holds what the scan has, besides the blocks of others. -/
inductive Represents (context : ScanContext) (others : List (Nat × ScanBlock)) (trace : List ScanEvent) :
    MemoryState → ScanState → Prop where
  | starting {heap : ScanHeap} {index : FileIndex} {progress : ProgressState} : trace = [] → heap.Holds others →
      Represents context others trace (memoryStart heap index progress) (scanStart index progress)
  | popping {stack : Growable} {abstract : FrameStack} {frames : List (FramePtrs × ScanFrame)}
      {array : List (Nat × ScanBlock)} {heap : ScanHeap} {index : FileIndex} {progress : ProgressState} :
      trace.head? = some ⟨.frameStackPush, 0⟩ → StackOf stack abstract frames array → stack.items.isSome →
      heap.Holds (array ++ (stackCells frames ++ others)) →
      Represents context others trace ⟨.popping, stack, heap, index, progress⟩ ⟨.popping, abstract, index, progress⟩
  | reading {stack : Growable} {abstract : FrameStack} {frames : List (FramePtrs × ScanFrame)}
      {array : List (Nat × ScanBlock)} {heap : ScanHeap} {index : FileIndex} {progress : ProgressState}
      {pointers : FramePtrs} {frame : ScanFrame} {dir : Nat} {names : List CString} {fault : Option Fault} :
      trace.head? = some ⟨.frameStackPush, 0⟩ → StackOf stack abstract frames array → stack.items.isSome →
      heap.Holds ((dir, .dir names fault) :: (frameCells (pointers, frame) ++ (array ++ (stackCells frames ++ others)))) →
      Represents context others trace ⟨.reading pointers dir, stack, heap, index, progress⟩
        ⟨.reading frame names fault, abstract, index, progress⟩
  | returned {stack : Growable} {abstract : FrameStack} {heap : ScanHeap} {index : FileIndex}
      {progress : ProgressState} {rc : Rc} : Leaves context.root others trace stack heap rc →
      Represents context others trace ⟨.returned rc, stack, heap, index, progress⟩ ⟨.returned rc, abstract, index, progress⟩

section
variable {context : ScanContext} {others : List (Nat × ScanBlock)} {trace : List ScanEvent} {m : MemoryState}
  {s t : ScanState} {abstract : FrameStack} {frames : List (FramePtrs × ScanFrame)} {pointers : FramePtrs}
  {frame : ScanFrame} {dir : Nat} {names : List CString} {fault : Option Fault} {index : FileIndex}
  {progress : ProgressState} {rc : Rc} {events : List ScanEvent} {allocs : ScanAllocs} {call : ScanCall}

theorem begun_ne (begun : trace.head? = some ⟨.frameStackPush, 0⟩) :
    trace ≠ [⟨.frameStackPush, Fault.ENOMEM.code⟩] := by
  rintro rfl
  cases begun

theorem closeFrame_ok (begun : trace.head? = some ⟨.frameStackPush, 0⟩) (of : StackOf stack abstract frames array) (some_ : stack.items.isSome)
    (holds : heap.Holds ((dir, .dir names fault) :: (frameCells (pointers, frame) ++ (array ++ (stackCells frames ++ others)))))
    (stage : MemoryStage) (rc : Rc) :
    ∃ closed, closeFrame ⟨stage, stack, heap, index, progress⟩ pointers dir rc = some closed ∧
      Represents context others trace closed ⟨if rc ≠ 0 then .returned rc else .popping, abstract, index, progress⟩ := by
  obtain ⟨first, closed, afterDir⟩ := holds.free
  obtain ⟨second, freed, afterFrame⟩ := freeFrame_ok _ afterDir
  by_cases failed : rc ≠ 0
  · obtain ⟨last, destroyed, left⟩ := destroyStack_ok of.array afterFrame
    refine ⟨⟨.returned rc, stack, last, index, progress⟩, ?_, ?_⟩
    · simp only [closeFrame, closed, freed, Option.bind_eq_bind, Option.bind_some, if_pos failed, destroyed]
      rfl
    · rw [if_pos failed]
      exact .returned (.nothing failed (begun_ne begun) left)
  · refine ⟨⟨.popping, stack, second, index, progress⟩, ?_, ?_⟩
    · simp only [closeFrame, closed, freed, Option.bind_eq_bind, Option.bind_some, if_neg failed]
      rfl
    · rw [if_neg failed]
      exact .popping begun of some_ afterFrame

theorem StackOf.isSome_concat {frame : FramePtrs × ScanFrame} (of : StackOf stack abstract (frames ++ [frame]) array) :
    stack.items.isSome = true :=
  of.array.filled (by simp)

theorem middle_perm (strings before array frames others : List (Nat × ScanBlock)) :
    (strings ++ (before ++ (array ++ (frames ++ others)))).Perm (array ++ (strings ++ (before ++ (frames ++ others)))) := by
  -- The array comes to the front for a push, and the new frame joins the others behind it.
  classical
  simp only [List.perm_iff_count, List.count_append]
  omega

theorem back_perm (array strings before frames others : List (Nat × ScanBlock)) :
    (array ++ (strings ++ (before ++ (frames ++ others)))).Perm (before ++ (array ++ ((frames ++ strings) ++ others))) := by
  classical
  simp only [List.perm_iff_count, List.count_append]
  omega

theorem pop_perm (array frames frame others : List (Nat × ScanBlock)) :
    (array ++ ((frames ++ frame) ++ others)).Perm (frame ++ (array ++ (frames ++ others))) := by
  classical
  simp only [List.perm_iff_count, List.count_append]
  omega

theorem StackOf.pushEntry {strings : FramePtrs} (of : StackOf stack abstract frames array)
    (holds : heap.Holds (frameCells (strings, frame) ++ (cells ++ (array ++ (stackCells frames ++ others)))))
    (growOk : Bool) :
    (frameStackPush abstract frame growOk = (Fault.ENOMEM.code, abstract) ∧
      pushFrame heap stack strings growOk = some (Fault.ENOMEM.code, stack, heap)) ∨
    ∃ next grown stored after, frameStackPush abstract frame growOk = (0, next) ∧
      pushFrame heap stack strings growOk = some (0, grown, after) ∧
      StackOf grown next (frames ++ [(strings, frame)]) stored ∧ grown.items.isSome ∧
      after.Holds (cells ++ (stored ++ (stackCells (frames ++ [(strings, frame)]) ++ others))) := by
  rcases of.push (holds.reorder (middle_perm ..)) strings frame growOk with
    refused | ⟨next, grown, stored, after, accepted, pushed, ofNext, kept⟩
  · exact .inl refused
  · refine .inr ⟨next, grown, stored, after, accepted, pushed, ofNext, ofNext.isSome_concat, ?_⟩
    rw [stackCells_concat]
    exact kept.reorder (back_perm ..)

theorem memoryEntry_refused (holds : heap.Holds (((dir, .dir names fault) :: frameCells (pointers, frame)) ++ others))
    {name : CString} (place : MemoryStage) (allocated : (!allocs.relativeOk || !allocs.absoluteOk) = true) :
    ∃ after, memoryEntry context ⟨place, stack, heap, index, progress⟩ pointers name allocs =
        some (Fault.ENOMEM.code, ⟨place, stack, after, index, progress⟩, .strings) ∧
      after.Holds (((dir, .dir names fault) :: frameCells (pointers, frame)) ++ others) := by
  have parentRel : readString heap pointers.relative = some frame.relative := readString_ok holds (by simp [frameCells])
  obtain ⟨first, middle, second, last, after, gotRel, gotAbs, missing, ⟨more, between⟩, freed, kept⟩ :=
    holds.allocEither (.string (vdNormalizeJoinedRelative frame.relative name))
      (.string (vdJoinPath frame.absolute name)) allocated
  have parentAbs : readString middle pointers.absolute = some frame.absolute :=
    readString_ok between (by simp [frameCells])
  refine ⟨after, ?_, kept⟩
  simp only [memoryEntry, allocString, parentRel, gotRel, parentAbs, gotAbs, Option.bind_eq_bind, Option.bind_some]
  exact Heap.match_either _ _ missing freed

theorem memoryEntry_allocated (context : ScanContext) (m : MemoryState) (name : CString)
    (holds : m.heap.Holds (((dir, .dir names fault) :: frameCells (pointers, frame)) ++ others))
    (allocated : allocs.relativeOk = true ∧ allocs.absoluteOk = true) :
    ∃ strings after, memoryEntry context m pointers name allocs = memoryShown context { m with heap := after } strings
        (context.files.lstat (vdJoinPath frame.absolute name)) allocs ∧
      after.Holds (frameCells (strings, ⟨vdNormalizeJoinedRelative frame.relative name, vdJoinPath frame.absolute name⟩) ++
        (((dir, .dir names fault) :: frameCells (pointers, frame)) ++ others)) := by
  have parentRel : readString m.heap pointers.relative = some frame.relative :=
    readString_ok holds (by simp [frameCells])
  obtain ⟨rel, abs, middle, after, gotRel, gotAbs, between, both⟩ := holds.allocBoth
    (.string (vdNormalizeJoinedRelative frame.relative name)) (.string (vdJoinPath frame.absolute name))
  have parentAbs : readString middle pointers.absolute = some frame.absolute :=
    readString_ok between (by simp [frameCells])
  have path : readString after abs = some (vdJoinPath frame.absolute name) := readString_ok both (by simp)
  refine ⟨⟨rel, abs⟩, after, ?_, both⟩
  simp only [memoryEntry, allocString, parentRel, allocated, gotRel, parentAbs, gotAbs, path, Option.bind_eq_bind,
    Option.bind_some]

theorem memoryShown_directory {strings : FramePtrs} {st : Stat} (of : StackOf stack abstract frames array)
    (some_ : stack.items.isSome) (place : MemoryStage) (kind : st.kind = .directory)
    (holds : heap.Holds (frameCells (strings, frame) ++ (cells ++ (array ++ (stackCells frames ++ others))))) :
    ∃ grown frames array after, memoryShown context ⟨place, stack, heap, index, progress⟩ strings (.ok st) allocs =
        some ((frameStackPush abstract frame allocs.stackOk).1, ⟨place, grown, after, index, progress⟩, .frameStackPush) ∧
      StackOf grown (frameStackPush abstract frame allocs.stackOk).2 frames array ∧ grown.items.isSome ∧
      after.Holds (cells ++ (array ++ (stackCells frames ++ others))) := by
  -- A directory's strings become a frame, or they are freed again.
  rcases of.pushEntry holds allocs.stackOk with
    ⟨refused, pushed⟩ | ⟨next, grown, stored, last, accepted, pushed, ofNext, someNext, kept⟩
  · obtain ⟨freed, given, kept⟩ := freeFrame_ok _ holds
    rw [refused]
    refine ⟨stack, frames, array, freed, ?_, of, some_, kept⟩
    simp only [memoryShown, kind, pushed, Option.bind_eq_bind, Option.bind_some, Fault.ENOMEM.nonzero, ne_eq,
      not_false_eq_true, ↓reduceIte, given]
    rfl
  · rw [accepted]
    refine ⟨grown, _, stored, last, ?_, ofNext, someNext, kept⟩
    simp only [memoryShown, kind, pushed, Option.bind_eq_bind, Option.bind_some, ne_eq, not_true_eq_false, ↓reduceIte]
    rfl

theorem memoryShown_regular {strings : FramePtrs} {path : CString} {st : Stat} {freed : ScanHeap} {after : FileIndex}
    (place : MemoryStage) (kind : st.kind = .regular) (key : readString heap strings.relative = some path)
    (given : freeFrame heap strings = some freed)
    (upserted : fileIndexUpsert context.hashPath index path st.size st.mtime allocs.upsert = some (rc, after)) :
    memoryShown context ⟨place, stack, heap, index, progress⟩ strings (.ok st) allocs =
      some (rc, ⟨place, stack, freed, after, if rc = 0 then progressNoteScan progress context.phase else progress⟩,
        .fileIndexUpsert) := by
  simp only [memoryShown, kind, key, upserted, given, Option.bind_eq_bind, Option.bind_some]
  rfl

theorem memoryEntry_ok (of : StackOf stack abstract frames array) (some_ : stack.items.isSome)
    (holds : heap.Holds (((dir, .dir names fault) :: frameCells (pointers, frame)) ++
      (array ++ (stackCells frames ++ others)))) {name : CString} {stage : ScanStage} (place : MemoryStage)
    (entry : scanEntry context ⟨stage, abstract, index, progress⟩ frame name allocs = some (rc, t, call)) :
    ∃ grown frames array after, memoryEntry context ⟨place, stack, heap, index, progress⟩ pointers name allocs =
        some (rc, ⟨place, grown, after, t.index, t.progress⟩, call) ∧
      StackOf grown t.stack frames array ∧ grown.items.isSome ∧
      after.Holds (((dir, .dir names fault) :: frameCells (pointers, frame)) ++
        (array ++ (stackCells frames ++ others))) := by
  unfold scanEntry at entry
  by_cases allocated : (!allocs.relativeOk || !allocs.absoluteOk) = true
  · rw [if_pos allocated] at entry
    cases entry
    obtain ⟨after, refused, kept⟩ := memoryEntry_refused holds place allocated
    exact ⟨stack, frames, array, after, refused, of, some_, kept⟩
  · rw [if_neg allocated] at entry
    obtain ⟨strings, after, same, both⟩ := memoryEntry_allocated context ⟨place, stack, heap, index, progress⟩ name
      holds (by simpa using allocated)
    have key : readString after strings.relative = some (vdNormalizeJoinedRelative frame.relative name) :=
      readString_ok both (by simp [frameCells])
    obtain ⟨freed, given, kept⟩ := freeFrame_ok _ both
    rw [same]
    cases shown : context.files.lstat (vdJoinPath frame.absolute name) with
    | error fault =>
      simp only [shown] at entry
      cases entry
      exact ⟨stack, frames, array, freed, by simp [memoryShown, given], of, some_, kept⟩
    | ok st =>
      cases kind : st.kind with
      | directory =>
        simp only [shown, kind] at entry
        cases entry
        exact memoryShown_directory of some_ place kind both
      | regular =>
        simp only [shown, kind] at entry
        split at entry
        next => cases entry
        next code grown upserted =>
          cases entry
          exact ⟨stack, frames, array, freed, memoryShown_regular place kind key given upserted, of, some_, kept⟩
      | symlink =>
        simp only [shown, kind] at entry
        cases entry
        exact ⟨stack, frames, array, freed, by simp [memoryShown, kind, given], of, some_, kept⟩
      | special =>
        simp only [shown, kind] at entry
        cases entry
        exact ⟨stack, frames, array, freed, by simp [memoryShown, kind, given], of, some_, kept⟩

theorem memoryStep_starting (holds : heap.Holds others)
    (step : scanStep context (scanStart index progress) allocs = some (t, events)) :
    ∃ after, memoryStep context (memoryStart heap index progress) allocs = some (after, events) ∧
      Represents context others events after t := by
  rw [scanStep, scanStart] at step
  by_cases allocated : (!allocs.relativeOk || !allocs.absoluteOk) = true
  · rw [if_pos allocated] at step
    cases step
    obtain ⟨first, middle, second, last, after, gotRel, gotAbs, missing, _, freed, kept⟩ :=
      holds.allocEither (.string .empty) (.string context.root) allocated
    refine ⟨⟨.returned Fault.ENOMEM.code, ⟨none, 0, 0⟩, after, index, progress⟩, ?_,
      .returned (.nothing Fault.ENOMEM.nonzero (by simp) kept)⟩
    simp only [memoryStep, memoryStart, allocString, gotRel, gotAbs, Option.bind_eq_bind]
    exact Heap.match_either _ _ missing freed
  · rw [if_neg allocated] at step
    simp only [Bool.or_eq_true, Bool.not_eq_eq_eq_not, Bool.not_true, not_or, Bool.not_eq_false] at allocated
    obtain ⟨rel, abs, _, both, gotRel, gotAbs, _, between⟩ := holds.allocBoth (.string .empty) (.string context.root)
    have of : StackOf ⟨none, 0, 0⟩ ⟨[], 0⟩ [] [] := ⟨.null, rfl, rfl⟩
    simp only [memoryStep, memoryStart, allocString, allocated, gotRel, gotAbs, Option.bind_eq_bind]
    have strings : both.Holds (frameCells (⟨rel, abs⟩, ⟨.empty, context.root⟩) ++ others) := between
    have bare : both.Holds (frameCells (⟨rel, abs⟩, ⟨.empty, context.root⟩) ++
        ([] ++ ([] ++ (stackCells [] ++ others)))) := strings
    rcases of.pushEntry bare allocs.stackOk with
      ⟨refused, pushed⟩ | ⟨next, grown, stored, last, accepted, pushed, ofNext, someNext, kept⟩
    · rw [refused] at step
      cases step
      simp only [pushed, Option.bind_some, ne_eq, Fault.ENOMEM.nonzero, not_false_eq_true, ↓reduceIte]
      exact ⟨_, rfl, .returned (.strings rfl strings)⟩
    · rw [accepted] at step
      cases step
      simp only [pushed, Option.bind_some, ne_eq, not_true_eq_false, ↓reduceIte]
      exact ⟨_, rfl, .popping rfl ofNext someNext kept⟩

theorem memoryStep_popping (begun : trace.head? = some ⟨.frameStackPush, 0⟩) (of : StackOf stack abstract frames array) (some_ : stack.items.isSome)
    (holds : heap.Holds (array ++ (stackCells frames ++ others)))
    (step : scanStep context ⟨.popping, abstract, index, progress⟩ allocs = some (t, events)) :
    ∃ after, memoryStep context ⟨.popping, stack, heap, index, progress⟩ allocs = some (after, events) ∧
      Represents context others (trace ++ events) after t := by
  have still : (trace ++ events).head? = some ⟨.frameStackPush, 0⟩ := by rw [List.head?_append, begun, Option.some_or]
  rw [scanStep] at step
  rcases of.pop holds with ⟨empty, none⟩ | ⟨below, pointers, frame, next, filled, rfl, popped, taken, ofNext⟩
  · rw [none] at step
    cases step
    refine ⟨⟨.returned 0, stack, heap, index, progress⟩, by rw [memoryStep]; exact if_pos empty, .returned ?_⟩
    obtain rfl := List.length_eq_zero_iff.mp (of.count.symm.trans empty)
    obtain ⟨array, _, _⟩ := of
    cases array with
    | null => cases some_
    | items => exact .array rfl holds
  · rw [popped] at step
    simp only at step
    rw [stackCells_concat] at holds
    have ready : heap.Holds (frameCells (pointers, frame) ++ (array ++ (stackCells below ++ others))) :=
      holds.reorder (pop_perm ..)
    have path : readString heap pointers.absolute = some frame.absolute := readString_ok ready (by simp [frameCells])
    simp only [memoryStep, if_neg filled, taken, path, Option.bind_eq_bind, Option.bind_some]
    cases opened : context.files.opendir frame.absolute with
    | error fault =>
      simp only [opened] at step
      cases step
      obtain ⟨middle, freed, left⟩ := freeFrame_ok _ ready
      obtain ⟨after, destroyed, kept⟩ := destroyStack_ok ofNext.array left
      simp only [freed, destroyed, Option.bind_some]
      exact ⟨_, rfl, .returned (.nothing fault.nonzero (begun_ne still) kept)⟩
    | ok stream =>
      simp only [opened] at step
      cases step
      exact ⟨_, rfl, .reading still ofNext some_ (ready.alloc _)⟩

theorem memoryStep_reading (begun : trace.head? = some ⟨.frameStackPush, 0⟩) (of : StackOf stack abstract frames array) (some_ : stack.items.isSome)
    (holds : heap.Holds ((dir, .dir names fault) :: (frameCells (pointers, frame) ++ (array ++ (stackCells frames ++ others)))))
    (step : scanStep context ⟨.reading frame names fault, abstract, index, progress⟩ allocs = some (t, events)) :
    ∃ after, memoryStep context ⟨.reading pointers dir, stack, heap, index, progress⟩ allocs = some (after, events) ∧
      Represents context others (trace ++ events) after t := by
  have still : (trace ++ events).head? = some ⟨.frameStackPush, 0⟩ := by rw [List.head?_append, begun, Option.some_or]
  have open_ : heap.read dir = some (.dir names fault) := holds.read (List.mem_cons_self ..)
  cases names with
  | nil =>
    cases fault with
    | none =>
      cases step
      obtain ⟨closed, done, represents⟩ := closeFrame_ok still of some_ holds (.reading pointers dir) 0
      exact ⟨closed, by simp only [memoryStep, open_, done]; rfl, represents⟩
    | some fault =>
      cases step
      obtain ⟨closed, done, represents⟩ := closeFrame_ok still of some_ holds (.reading pointers dir) fault.code
      rw [if_pos fault.nonzero] at represents
      exact ⟨closed, by simp only [memoryStep, open_, done]; rfl, represents⟩
  | cons name names =>
    obtain ⟨read, written, others⟩ := holds.write (.dir names fault)
    simp only [scanStep] at step
    simp only [memoryStep, open_, written, Option.bind_eq_bind, Option.bind_some]
    split at step
    next dots =>
      cases step
      rw [if_pos dots]
      exact ⟨_, rfl, .reading still of some_ others⟩
    next entry =>
      rw [if_neg entry]
      cases scanned : scanEntry context ⟨.reading frame (name :: names) fault, abstract, index, progress⟩ frame name
        allocs with
      | none =>
        rw [scanned] at step
        cases step
      | some out =>
        obtain ⟨rc, next, call⟩ := out
        rw [scanned] at step
        cases step
        obtain ⟨grown, more, stored, after, done, ofNext, someNext, kept⟩ :=
          memoryEntry_ok of some_ others (.reading pointers dir) scanned
        simp only [done, Option.bind_some]
        by_cases failed : rc ≠ 0
        · obtain ⟨closed, given, represents⟩ := closeFrame_ok still ofNext someNext kept (.reading pointers dir) rc
          rw [if_pos failed, if_pos failed, given]
          rw [if_pos failed] at represents
          exact ⟨closed, rfl, represents⟩
        · rw [if_neg failed, if_neg failed]
          exact ⟨_, rfl, .reading still ofNext someNext kept⟩

/-- A step of the scan is a step in memory: nothing it uses has been freed, and it frees nothing twice. -/
theorem memoryStep_ok (represents : Represents context others trace m s)
    (step : scanStep context s allocs = some (t, events)) :
    ∃ after, memoryStep context m allocs = some (after, events) ∧ Represents context others (trace ++ events) after t := by
  cases represents with
  | starting empty holds =>
    subst empty
    exact memoryStep_starting holds step
  | popping begun of some_ holds => exact memoryStep_popping begun of some_ holds step
  | reading begun of some_ holds => exact memoryStep_reading begun of some_ holds step
  | returned => cases step

theorem ScanRun.wellFormed (wf : index.WellFormed context.hashPath) (run : ScanRun context index progress s trace) :
    s.index.WellFormed context.hashPath :=
  Run.invariant (fun s _ => s.index.WellFormed context.hashPath) wf
    (fun _ before _ stepped => (scanStep_some before stepped).1.wellFormed before) run

theorem memoryStep_returned (returned : m.stage = .returned rc) (allocs : ScanAllocs) :
    memoryStep context m allocs = none := by
  rw [memoryStep, returned]

theorem Represents.returned_iff (represents : Represents context others trace m s) (rc : Rc) :
    m.stage = .returned rc ↔ s.stage = .returned rc := by
  cases represents with
  | returned => exact ⟨fun same => by cases same; rfl, fun same => by cases same; rfl⟩
  | _ => exact ⟨nofun, nofun⟩

theorem Represents.next (represents : Represents context others trace m s) (wf : s.index.WellFormed context.hashPath)
    (running : ∀ rc, m.stage ≠ .returned rc) (allocs : ScanAllocs) :
    ∃ after t events, memoryStep context m allocs = some (after, events) ∧ scanStep context s allocs = some (t, events) ∧
      Represents context others (trace ++ events) after t := by
  -- The scan and the memory go on together.
  obtain ⟨t, events, step, _⟩ := scanStep_move wf (fun rc same => running rc ((represents.returned_iff rc).mpr same)) allocs
  obtain ⟨after, taken, kept⟩ := memoryStep_ok represents step
  exact ⟨after, t, events, taken, step, kept⟩

theorem MemoryRun.represents (wf : index.WellFormed context.hashPath) (holds : heap.Holds others)
    (run : MemoryRun context heap index progress m trace) :
    ∃ s, ScanRun context index progress s trace ∧ Represents context others trace m s := by
  refine Run.invariant (fun m trace => ∃ s, ScanRun context index progress s trace ∧ Represents context others trace m s)
    ⟨_, .start, .starting rfl holds⟩ ?_ run
  rintro m next trace events allocs _ ⟨s, scanned, represents⟩ _ stepped
  have running : ∀ rc, m.stage ≠ .returned rc := by
    intro rc returned
    rw [memoryStep_returned returned] at stepped
    cases stepped
  obtain ⟨after, t, told, taken, step, kept⟩ := represents.next (scanned.wellFormed wf) running allocs
  rw [stepped] at taken
  cases taken
  exact ⟨t, scanned.next trivial step, kept⟩

theorem ScanRun.represented (holds : heap.Holds others) (run : ScanRun context index progress s trace) :
    ∃ m, MemoryRun context heap index progress m trace ∧ Represents context others trace m s := by
  refine Run.invariant
    (fun s trace => ∃ m, MemoryRun context heap index progress m trace ∧ Represents context others trace m s)
    ⟨_, .start, .starting rfl holds⟩ ?_ run
  rintro s t trace events allocs _ ⟨m, remembered, represents⟩ _ step
  obtain ⟨after, taken, kept⟩ := memoryStep_ok represents step
  exact ⟨after, remembered.next trivial taken, kept⟩

/-- Whatever fails, a scan never uses or frees what it has freed and never writes behind its
stack: until it has returned it can always go on. What it holds at any time is what it needs, and
at the end only what `Leaves` names is left besides the blocks of others. -/
theorem scan_directory_memory (wf : index.WellFormed context.hashPath) (holds : heap.Holds others) :
    (∀ m trace, MemoryRun context heap index progress m trace →
      (∃ s, ScanRun context index progress s trace ∧ Represents context others trace m s) ∧
      ((∃ rc, m.stage = .returned rc ∧ Leaves context.root others trace m.stack m.heap rc) ∨
        ∀ allocs, ∃ next events, memoryStep context m allocs = some (next, events))) ∧
    ∀ s trace, ScanRun context index progress s trace →
      ∃ m, MemoryRun context heap index progress m trace ∧ Represents context others trace m s := by
  refine ⟨fun m trace run => ?_, fun s trace run => run.represented holds⟩
  obtain ⟨s, scanned, represents⟩ := MemoryRun.represents wf holds run
  refine ⟨⟨s, scanned, represents⟩, ?_⟩
  by_cases running : ∀ rc, m.stage ≠ .returned rc
  · refine .inr fun allocs => ?_
    obtain ⟨after, _, events, taken, _⟩ := represents.next (scanned.wellFormed wf) running allocs
    exact ⟨after, events, taken⟩
  · push Not at running
    obtain ⟨rc, returned⟩ := running
    refine .inl ⟨rc, returned, ?_⟩
    cases represents with
    | returned leaves =>
      cases returned
      exact leaves
    | _ => cases returned

end

/-- The scan of an empty directory succeeds and leaves the array of its stack behind. -/
theorem scan_directory_memory_leak : ∃ (context : ScanContext) (m : MemoryState) (trace : List ScanEvent)
    (items room : Nat) (written : List FramePtrs),
    MemoryRun context ⟨[], 0⟩ ⟨List.replicate 16 none, 16, 0⟩ progressInit m trace ∧
    m.stage = .returned 0 ∧ m.stack.items = some items ∧ m.heap.Holds [(items, .frames room written)] := by
  let root : CString := ⟨[114], by decide⟩
  let context : ScanContext :=
    ⟨root, vdHashPath, ⟨fun _ => .error .ENOENT, fun _ => .ok ⟨[], none⟩, fun _ => .error .ENOENT⟩, .scanA⟩
  let index : FileIndex := ⟨List.replicate 16 none, 16, 0⟩
  let left : MemoryState :=
    ⟨.returned 0, ⟨some 2, 0, 32⟩, ⟨[(2, .frames 32 [⟨0, 1⟩])], 4⟩, index, progressInit⟩
  have performed : perform (memoryStep context) (List.replicate 4 ⟨true, true, true, true, true⟩)
      (memoryStart ⟨[], 0⟩ index progressInit) =
        some (left, [⟨.frameStackPush, 0⟩, ⟨.opendir, 0⟩, ⟨.readdir, 0⟩]) := by
    rfl
  have run : MemoryRun context ⟨[], 0⟩ index progressInit left _ := Run.of_perform (fun _ _ _ => trivial) performed
  have wf : index.WellFormed vdHashPath := wellFormed_vacant ⟨4, by decide, rfl⟩ (by decide)
  rcases ((scan_directory_memory wf (Heap.holds_empty 0)).1 _ _ run).2 with ⟨rc, returned, leaves⟩ | goes
  · cases returned
    generalize same : (0 : Rc) = rc at leaves
    cases leaves with
    | array items kept => exact ⟨context, left, _, _, _, _, run, rfl, items, kept⟩
    | strings => exact absurd same.symm Fault.ENOMEM.nonzero
    | nothing failed => exact absurd same.symm failed
  · obtain ⟨_, _, more⟩ := goes ⟨true, true, true, true, true⟩
    cases more

end Verdiff
