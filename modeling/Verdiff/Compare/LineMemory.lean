import Verdiff.Compare.Lines
import Verdiff.PathTree.Nodes

/-! The line differences as they lie in memory: the array of a vector and two strings for each line. -/

set_option autoImplicit false

namespace Verdiff
open Pieces

def lineArrays : Arrays ResultBlock LineDiffPtrs where
  pack := .lineDiffs
  unpack
    | .lineDiffs room items => some (room, items)
    | _ => none
  unpack_pack _ _ := rfl

def ownedStringCopy (heap : ResultHeap) (src : Bytes) (len : Nat) (ok : Bool) : Option (Option OwnedString × ResultHeap) :=
  if ok then
    if len ≤ src.length then
      let (block, heap) := heap.alloc (.text (src.take len))
      some (some ⟨some block, len⟩, heap)
    else none
  else some (none, heap)

def lineDiffVectorPushAt (heap : ResultHeap) (vector : Growable) (lineNumber : Nat) (left : Bytes) (leftLen : Nat)
    (right : Bytes) (rightLen : Nat) (allocs : LinePushAllocs) : Option (Rc × Growable × ResultHeap) := do
  let (roomy, vector, heap) ← lineArrays.reserve 8 heap vector allocs.growOk
  if !roomy then return (Fault.ENOMEM.code, vector, heap)
  else
    let heap ← lineArrays.store heap vector ⟨lineNumber, ⟨none, 0⟩, ⟨none, 0⟩⟩
    match ← ownedStringCopy heap left leftLen allocs.leftOk with
    | (none, heap) => return (Fault.ENOMEM.code, vector, heap)
    | (some first, heap) =>
      let heap ← lineArrays.store heap vector ⟨lineNumber, first, ⟨none, 0⟩⟩
      match ← ownedStringCopy heap right rightLen allocs.rightOk with
      | (none, heap) =>
        let heap ← heap.freePtr first.data
        let heap ← lineArrays.store heap vector ⟨lineNumber, ⟨none, 0⟩, ⟨none, 0⟩⟩
        return (Fault.ENOMEM.code, vector, heap)
      | (some second, heap) =>
        let heap ← lineArrays.store heap vector ⟨lineNumber, first, second⟩
        return (0, { vector with count := vector.count + 1 }, heap)

def freeLines : List LineDiffPtrs → ResultHeap → Option ResultHeap
  | [], heap => some heap
  | diff :: rest, heap => do
    let heap ← heap.freePtr diff.left.data
    let heap ← heap.freePtr diff.right.data
    freeLines rest heap

def lineDiffVectorDestroyAt (heap : ResultHeap) (vector : Growable) : Option ResultHeap := do
  let lines ← lineArrays.used heap vector
  let heap ← freeLines lines heap
  heap.freePtr vector.items

/-- The loop of `detect_line_differences`; the buffers of `getline` are its own. -/
def detectLinesLoopAt (env : LinesEnv) (lineNo : Nat) (leftA leftB : Bytes) (vector : Growable) (heap : ResultHeap) :
    Option (Rc × Growable × ResultHeap) :=
  match env.lineA lineNo with
  | some fault => some (fault.code, vector, heap)
  | none =>
    match env.lineB lineNo with
    | some fault => some (fault.code, vector, heap)
    | none =>
      let lineA := (getline leftA).1
      let lineB := (getline leftB).1
      if (getline leftA).1 = none ∧ (getline leftB).1 = none then some (0, vector, heap)
      else
        let textA := lineA.getD []
        let textB := lineB.getD []
        if lineA.map List.length ≠ lineB.map List.length ∨ textA ≠ textB then
          match lineDiffVectorPushAt heap vector lineNo textA (trimLineLength textA textA.length)
            textB (trimLineLength textB textB.length) (env.push lineNo) with
          | none => none
          | some (rc, vector, heap) =>
            if rc ≠ 0 then some (rc, vector, heap)
            else detectLinesLoopAt env (lineNo + 1) (getline leftA).2 (getline leftB).2 vector heap
        else detectLinesLoopAt env (lineNo + 1) (getline leftA).2 (getline leftB).2 vector heap
termination_by leftA.length + leftB.length
decreasing_by all_goals exact getline_decreases ‹_›

def detectLineDifferencesAt (fileA fileB : Except Fault Bytes) (env : LinesEnv) (vector : Growable) (heap : ResultHeap) :
    Option (Rc × Growable × ResultHeap) :=
  match fileA, env.streamA with
  | .error fault, _ => some (fault.code, vector, heap)
  | .ok _, some fault => some (fault.code, vector, heap)
  | .ok contentA, none =>
    match fileB, env.streamB with
    | .error fault, _ => some (fault.code, vector, heap)
    | .ok _, some fault => some (fault.code, vector, heap)
    | .ok contentB, none => detectLinesLoopAt env 1 contentA contentB vector heap

/-! ## The blocks of a vector -/

inductive LinesAt : List LineDiffPtrs → List LineDiff → List (Nat × ResultBlock) → Prop where
  | nil : LinesAt [] [] []
  | cons {lineNumber l r : Nat} {left right : Bytes} {ptrs : List LineDiffPtrs} {lines : List LineDiff}
      {cells : List (Nat × ResultBlock)} : LinesAt ptrs lines cells →
      LinesAt (⟨lineNumber, ⟨some l, left.length⟩, ⟨some r, right.length⟩⟩ :: ptrs) (⟨lineNumber, left, right⟩ :: lines)
        ([(l, .text left), (r, .text right)] ++ cells)

inductive VectorAt (vector : Growable) (lines : LineDiffVector) : List (Nat × ResultBlock) → Prop where
  | mk {ptrs : List LineDiffPtrs} {array texts : List (Nat × ResultBlock)} : lineArrays.Of vector ptrs array →
      LinesAt ptrs lines.items texts → vector.capacity = lines.capacity → VectorAt vector lines (array ++ texts)

section
variable {heap : ResultHeap} {rest cells : List (Nat × ResultBlock)} {ptrs : List LineDiffPtrs} {lines : List LineDiff}
  {vector : Growable}

theorem VectorAt.zero : VectorAt ⟨none, 0, 0⟩ .zero [] := @VectorAt.mk _ _ [] [] [] .null .nil rfl

theorem LinesAt.length (at_ : LinesAt ptrs lines cells) : ptrs.length = lines.length := by
  induction at_ with
  | nil => rfl
  | cons _ ih => rw [List.length_cons, List.length_cons, ih]

theorem VectorAt.count {lines : LineDiffVector} (at_ : VectorAt vector lines cells) :
    vector.count = lines.items.length := by
  obtain ⟨of, linesAt, _⟩ := at_
  rw [of.count, linesAt.length]

theorem LinesAt.concat (at_ : LinesAt ptrs lines cells) (lineNumber l r : Nat) (left right : Bytes) :
    LinesAt (ptrs ++ [⟨lineNumber, ⟨some l, left.length⟩, ⟨some r, right.length⟩⟩]) (lines ++ [⟨lineNumber, left, right⟩])
      (cells ++ [(l, .text left), (r, .text right)]) := by
  induction at_ with
  | nil => exact .cons .nil
  | cons _ ih => exact .cons ih

theorem freeLines_ok (at_ : LinesAt ptrs lines cells) (holds : heap.Holds (cells ++ rest)) :
    ∃ after, freeLines ptrs heap = some after ∧ after.Holds rest := by
  induction at_ generalizing heap with
  | nil => exact ⟨heap, rfl, holds⟩
  | cons _ ih =>
    obtain ⟨first, freedLeft, holds⟩ := Heap.Holds.free holds
    obtain ⟨second, freedRight, holds⟩ := Heap.Holds.free holds
    obtain ⟨after, freed, kept⟩ := ih holds
    refine ⟨after, ?_, kept⟩
    simp only [freeLines, Heap.freePtr, freedLeft, freedRight, Option.bind_eq_bind, Option.bind_some, freed]

theorem VectorAt.destroy {lines : LineDiffVector} (at_ : VectorAt vector lines cells) (holds : heap.Holds (cells ++ rest)) :
    ∃ after, lineDiffVectorDestroyAt heap vector = some after ∧ after.Holds rest := by
  obtain @⟨ptrs, array, texts, of, linesAt, _⟩ := at_
  rw [List.append_assoc] at holds
  have moved : heap.Holds (texts ++ (array ++ rest)) := by
    refine holds.reorder ?_
    classical grind
  obtain ⟨middle, freed, left⟩ := freeLines_ok linesAt moved
  obtain ⟨after, freedArray, kept⟩ := of.free left
  refine ⟨after, ?_, kept⟩
  simp only [lineDiffVectorDestroyAt, of.used holds, freed, Option.bind_eq_bind, Option.bind_some]
  exact freedArray

/-! ## Pushes -/

theorem ownedStringCopy_ok {src : Bytes} {len : Nat} (fits : len ≤ src.length) (holds : heap.Holds cells) :
    ∃ block after, ownedStringCopy heap src len true = some (some ⟨some block, (src.take len).length⟩, after) ∧
      after.Holds ((block, .text (src.take len)) :: cells) := by
  refine ⟨heap.next, _, ?_, holds.alloc _⟩
  rw [ownedStringCopy, if_pos rfl, if_pos fits, List.length_take_of_le fits]
  rfl

theorem lineDiffVectorPush_roomy (lines : LineDiffVector) (lineNumber leftLen rightLen : Nat) (left right : Bytes)
    (allocs : LinePushAllocs) (roomy : lines.items.length = lines.capacity → allocs.growOk = true) :
    lineDiffVectorPush lines lineNumber left leftLen right rightLen allocs =
      let wide : LineDiffVector := ⟨lines.items,
        if lines.items.length = lines.capacity then if lines.capacity = 0 then 8 else lines.capacity * 2 else lines.capacity⟩
      if !allocs.leftOk then (Fault.ENOMEM.code, wide)
      else if !allocs.rightOk then (Fault.ENOMEM.code, wide)
      else (0, { wide with items := wide.items ++ [⟨lineNumber, left.take leftLen, right.take rightLen⟩] }) := by
  unfold lineDiffVectorPush
  by_cases full : lines.items.length = lines.capacity
  · simp [full, roomy full]
  · simp [full]

theorem VectorAt.push {lines : LineDiffVector} (at_ : VectorAt vector lines cells) (holds : heap.Holds (cells ++ rest))
    (lineNumber : Nat) {left right : Bytes} {leftLen rightLen : Nat} (leftFits : leftLen ≤ left.length)
    (rightFits : rightLen ≤ right.length) (allocs : LinePushAllocs) :
    ∃ grown cells after, lineDiffVectorPushAt heap vector lineNumber left leftLen right rightLen allocs =
        some ((lineDiffVectorPush lines lineNumber left leftLen right rightLen allocs).1, grown, after) ∧
      VectorAt grown (lineDiffVectorPush lines lineNumber left leftLen right rightLen allocs).2 cells ∧
      after.Holds (cells ++ rest) := by
  have counted := at_.count
  obtain @⟨ptrs, array, texts, of, linesAt, capacity⟩ := at_
  rw [List.append_assoc] at holds
  rcases of.reserve holds (by decide : 0 < 8) allocs.growOk with
    ⟨full, refused, reserved⟩ | ⟨allowed, wide, moved, first, reserved, ofWide, some_, room, wider, holds⟩
  · have refuses : lineDiffVectorPush lines lineNumber left leftLen right rightLen allocs = (Fault.ENOMEM.code, lines) := by
      rw [counted, capacity] at full
      simp [lineDiffVectorPush, full, refused]
    rw [refuses]
    refine ⟨vector, _, heap, ?_, .mk of linesAt capacity, by rwa [List.append_assoc]⟩
    simp only [lineDiffVectorPushAt, reserved, Option.bind_eq_bind, Option.bind_some]
    rfl
  · rw [counted, capacity] at allowed wider
    rw [lineDiffVectorPush_roomy lines lineNumber leftLen rightLen left right allocs allowed, ← wider]
    obtain ⟨moved, second, blank, ofBlank, _, holds⟩ := ofWide.store some_ room holds ⟨lineNumber, ⟨none, 0⟩, ⟨none, 0⟩⟩
    simp only [lineDiffVectorPushAt, reserved, blank, Option.bind_eq_bind, Option.bind_some]
    cases leftOk : allocs.leftOk with
    | false => exact ⟨wide, _, second, rfl, .mk ofBlank linesAt rfl, by rwa [List.append_assoc]⟩
    | true =>
      obtain ⟨l, third, copied, holds⟩ := ownedStringCopy_ok leftFits holds
      have front : third.Holds (moved ++ ((l, .text (left.take leftLen)) :: (texts ++ rest))) := by
        refine holds.reorder ?_
        classical grind
      obtain ⟨moved, fourth, half, ofHalf, _, holds⟩ := ofBlank.store some_ room front
        ⟨lineNumber, ⟨some l, (left.take leftLen).length⟩, ⟨none, 0⟩⟩
      simp only [copied, half, Bool.not_true, Bool.false_eq_true, ↓reduceIte, Option.bind_some]
      cases rightOk : allocs.rightOk with
      | false =>
        have front : fourth.Holds ((l, .text (left.take leftLen)) :: (moved ++ (texts ++ rest))) := by
          refine holds.reorder ?_
          classical grind
        obtain ⟨fifth, freed, holds⟩ := front.free
        obtain ⟨moved, last, cleared, ofLast, _, holds⟩ := ofHalf.store some_ room holds
          ⟨lineNumber, ⟨none, 0⟩, ⟨none, 0⟩⟩
        refine ⟨wide, _, last, ?_, .mk ofLast linesAt rfl, by rwa [List.append_assoc]⟩
        simp only [ownedStringCopy, Heap.freePtr, freed, cleared, Option.bind_some, Bool.false_eq_true, ↓reduceIte]
        rfl
      | true =>
        obtain ⟨r, fifth, copied, holds⟩ := ownedStringCopy_ok rightFits holds
        have front : fifth.Holds (moved ++
            (texts ++ [(l, .text (left.take leftLen)), (r, .text (right.take rightLen))] ++ rest)) := by
          refine holds.reorder ?_
          classical grind
        obtain ⟨moved, last, full, _, ofLast, holds⟩ := ofHalf.store some_ room front
          ⟨lineNumber, ⟨some l, (left.take leftLen).length⟩, ⟨some r, (right.take rightLen).length⟩⟩
        refine ⟨_, _, last, ?_, .mk ofLast (linesAt.concat lineNumber l r _ _) rfl, by rwa [List.append_assoc]⟩
        simp only [copied, full, Option.bind_some]
        rfl

theorem trimLineLength_le (line : Bytes) (len : Nat) : trimLineLength line len ≤ len := by
  induction len with
  | zero => exact le_rfl
  | succ len ih =>
    rw [trimLineLength]
    split
    · exact Nat.le_succ_of_le ih
    · exact le_rfl

theorem detectLinesLoopAt_ok (env : LinesEnv) (lineNo : Nat) (leftA leftB : Bytes) {lines : LineDiffVector}
    (at_ : VectorAt vector lines cells) (holds : heap.Holds (cells ++ rest)) :
    ∃ grown cells after, detectLinesLoopAt env lineNo leftA leftB vector heap =
        some ((detectLinesLoop env lineNo leftA leftB lines).1, grown, after) ∧
      VectorAt grown (detectLinesLoop env lineNo leftA leftB lines).2 cells ∧ after.Holds (cells ++ rest) := by
  fun_induction detectLinesLoop env lineNo leftA leftB lines generalizing vector heap cells
  case case1 failed =>
    refine ⟨vector, cells, heap, ?_, at_, holds⟩
    rw [detectLinesLoopAt, failed]
  case case2 readA _ failed =>
    refine ⟨vector, cells, heap, ?_, at_, holds⟩
    rw [detectLinesLoopAt, readA, failed]
  case case3 readA readB finished =>
    refine ⟨vector, cells, heap, ?_, at_, holds⟩
    rw [detectLinesLoopAt, readA, readB]
    exact if_pos finished
  case case4 lineNo _ _ _ readA readB _ _ more textA textB differs rc next pushed failed =>
    obtain ⟨grown, cells', after, done, vectorAt, kept⟩ := at_.push holds lineNo (trimLineLength_le textA textA.length)
      (trimLineLength_le textB textB.length) (env.push lineNo)
    rw [pushed] at done vectorAt
    refine ⟨grown, cells', after, ?_, vectorAt, kept⟩
    rw [detectLinesLoopAt, readA, readB]
    refine (if_neg more).trans ((if_pos differs).trans ?_)
    rw [done]
    exact if_pos failed
  case case5 lineNo _ _ _ readA readB _ _ more textA textB differs rc next pushed ok ih =>
    obtain ⟨grown, cells', middle, done, vectorAt, kept⟩ := at_.push holds lineNo (trimLineLength_le textA textA.length)
      (trimLineLength_le textB textB.length) (env.push lineNo)
    rw [pushed] at done vectorAt
    obtain ⟨last, cells'', after, rest, vectorAt', kept'⟩ := ih vectorAt kept
    refine ⟨last, cells'', after, ?_, vectorAt', kept'⟩
    rw [detectLinesLoopAt, readA, readB]
    refine (if_neg more).trans ((if_pos differs).trans ?_)
    rw [done]
    exact (if_neg ok).trans rest
  case case6 readA readB _ _ more _ _ same ih =>
    obtain ⟨last, cells', after, rest, vectorAt, kept⟩ := ih at_ holds
    refine ⟨last, cells', after, ?_, vectorAt, kept⟩
    rw [detectLinesLoopAt, readA, readB]
    exact (if_neg more).trans ((if_neg same).trans rest)

theorem detectLineDifferencesAt_ok (fileA fileB : Except Fault Bytes) (env : LinesEnv) {lines : LineDiffVector}
    (at_ : VectorAt vector lines cells) (holds : heap.Holds (cells ++ rest)) :
    ∃ grown cells after, detectLineDifferencesAt fileA fileB env vector heap =
        some ((detectLineDifferences fileA fileB env lines).1, grown, after) ∧
      VectorAt grown (detectLineDifferences fileA fileB env lines).2 cells ∧ after.Holds (cells ++ rest) := by
  unfold detectLineDifferencesAt detectLineDifferences
  cases fileA with
  | error fault => exact ⟨vector, cells, heap, rfl, at_, holds⟩
  | ok contentA =>
    cases env.streamA with
    | some fault => exact ⟨vector, cells, heap, rfl, at_, holds⟩
    | none =>
      cases fileB with
      | error fault => exact ⟨vector, cells, heap, rfl, at_, holds⟩
      | ok contentB =>
        cases env.streamB with
        | some fault => exact ⟨vector, cells, heap, rfl, at_, holds⟩
        | none => exact detectLinesLoopAt_ok env 1 contentA contentB at_ holds

end

end Verdiff
