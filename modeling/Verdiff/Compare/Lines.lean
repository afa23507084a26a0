import Verdiff.Syscalls
import Verdiff.Library.Pieces

/-! The line-by-line comparison. `getline` yields the pieces of a file behind each newline. -/

set_option autoImplicit false

namespace Verdiff
open Pieces

def newline : UInt8 := 10

def carriageReturn : UInt8 := 13

def trimLineLength (line : Bytes) : Nat → Nat
  | 0 => 0
  | len + 1 =>
    if (line)[len]? = some newline ∨ (line)[len]? = some carriageReturn then trimLineLength line len
    else len + 1

/-- The line read, if any, and the bytes behind it. -/
def getline (left : Bytes) : Option Bytes × Bytes :=
  match firstPiece newline left with
  | none => (none, left)
  | some (line, rest) => (some line, rest)

structure LinePushAllocs where
  growOk : Bool
  leftOk : Bool
  rightOk : Bool
  deriving DecidableEq

def lineDiffVectorPush (vector : LineDiffVector) (lineNumber : Nat) (left : Bytes) (leftLen : Nat)
    (right : Bytes) (rightLen : Nat) (allocs : LinePushAllocs) : Rc × LineDiffVector :=
  let full := decide (vector.items.length = vector.capacity)
  if full && !allocs.growOk then (Fault.ENOMEM.code, vector)
  else
    let vector : LineDiffVector :=
      if full then { vector with capacity := if vector.capacity = 0 then 8 else vector.capacity * 2 }
      else vector
    if !allocs.leftOk then (Fault.ENOMEM.code, vector)
    else if !allocs.rightOk then (Fault.ENOMEM.code, vector)
    else (0, { vector with
      items := vector.items ++ [⟨lineNumber, left.take leftLen, right.take rightLen⟩] })

/-- The outcomes of the calls of one line comparison besides finding the files, by line number. -/
structure LinesEnv where
  streamA : Option Fault
  streamB : Option Fault
  lineA : Nat → Option Fault
  lineB : Nat → Option Fault
  push : Nat → LinePushAllocs

theorem getline_none {left : Bytes} (missing : (getline left).1 = none) :
    left = [] ∧ (getline left).2 = left := by
  unfold getline at missing ⊢
  split at missing
  next found => exact ⟨firstPiece_none found, rfl⟩
  · cases missing

theorem getline_some {left line : Bytes} (read : (getline left).1 = some line) :
    cutAfter newline left = line :: cutAfter newline (getline left).2 ∧
      (getline left).2.length < left.length := by
  unfold getline at read ⊢
  split at read
  · cases read
  next piece rest found =>
    cases read
    exact firstPiece_some found

theorem getline_decreases {leftA leftB : Bytes}
    (more : ¬ ((getline leftA).1 = none ∧ (getline leftB).1 = none)) :
    (getline leftA).2.length + (getline leftB).2.length < leftA.length + leftB.length := by
  cases lineA : (getline leftA).1 with
  | some line =>
    have shorter := (getline_some lineA).2
    cases lineB : (getline leftB).1 with
    | some other => have := (getline_some lineB).2; omega
    | none => rw [(getline_none lineB).2]; omega
  | none =>
    cases lineB : (getline leftB).1 with
    | some other =>
      have := (getline_some lineB).2
      rw [(getline_none lineA).2]
      omega
    | none => exact absurd ⟨lineA, lineB⟩ more

/-- The loop from one line on. A missing line has length `-1`, so it differs from every
line, and is stored as the empty string. -/
def detectLinesLoop (env : LinesEnv) (lineNo : Nat) (leftA leftB : Bytes) (lines : LineDiffVector) :
    Rc × LineDiffVector :=
  match env.lineA lineNo with
  | some fault => (fault.code, lines)
  | none =>
    match env.lineB lineNo with
    | some fault => (fault.code, lines)
    | none =>
      let lineA := (getline leftA).1
      let lineB := (getline leftB).1
      if (getline leftA).1 = none ∧ (getline leftB).1 = none then (0, lines)
      else
        let textA := lineA.getD []
        let textB := lineB.getD []
        -- The lines are compared with their ends and stored without them.
        if lineA.map List.length ≠ lineB.map List.length ∨ textA ≠ textB then
          let (rc, lines) := lineDiffVectorPush lines lineNo textA (trimLineLength textA textA.length)
            textB (trimLineLength textB textB.length) (env.push lineNo)
          if rc ≠ 0 then (rc, lines)
          else detectLinesLoop env (lineNo + 1) (getline leftA).2 (getline leftB).2 lines
        else detectLinesLoop env (lineNo + 1) (getline leftA).2 (getline leftB).2 lines
termination_by leftA.length + leftB.length
decreasing_by all_goals exact getline_decreases ‹_›

def detectLineDifferences (fileA fileB : Except Fault Bytes) (env : LinesEnv) (lines : LineDiffVector) :
    Rc × LineDiffVector :=
  match fileA, env.streamA with
  | .error fault, _ => (fault.code, lines)
  | .ok _, some fault => (fault.code, lines)
  | .ok contentA, none =>
    match fileB, env.streamB with
    | .error fault, _ => (fault.code, lines)
    | .ok _, some fault => (fault.code, lines)
    | .ok contentB, none => detectLinesLoop env 1 contentA contentB lines

/-! ## What is recorded -/

def trimmed (line : Bytes) : Bytes := line.take (trimLineLength line line.length)

/-- The differences of two files given by their lines; a missing line has no text. -/
def differingLines : Nat → List Bytes → List Bytes → List LineDiff
  | _, [], [] => []
  | n, a :: as, [] => ⟨n, trimmed a, []⟩ :: differingLines (n + 1) as []
  | n, [], b :: bs => ⟨n, [], trimmed b⟩ :: differingLines (n + 1) [] bs
  | n, a :: as, b :: bs =>
    if a = b then differingLines (n + 1) as bs
    else ⟨n, trimmed a, trimmed b⟩ :: differingLines (n + 1) as bs

theorem differingLines_nil {n : Nat} {as bs : List Bytes} (none : differingLines n as bs = []) : as = bs := by
  induction as generalizing n bs with
  | nil =>
    cases bs with
    | nil => rfl
    | cons b bs => simp [differingLines] at none
  | cons a as ih =>
    cases bs with
    | nil => simp [differingLines] at none
    | cons b bs =>
      simp only [differingLines] at none
      split at none
      next same => rw [same, ih none]
      · cases none

theorem lineDiffVectorPush_ok (vector : LineDiffVector) (lineNumber : Nat) {leftLen rightLen : Nat}
    (left right : Bytes) (allocs : LinePushAllocs)
    (pushed : (lineDiffVectorPush vector lineNumber left leftLen right rightLen allocs).1 = 0) :
    (lineDiffVectorPush vector lineNumber left leftLen right rightLen allocs).2.items =
      vector.items ++ [⟨lineNumber, left.take leftLen, right.take rightLen⟩] := by
  unfold lineDiffVectorPush at pushed ⊢
  simp only at pushed ⊢
  split at pushed
  · simp [Fault.ENOMEM] at pushed
  next grown =>
    split at pushed
    · simp [Fault.ENOMEM] at pushed
    next leftOk =>
      split at pushed
      · simp [Fault.ENOMEM] at pushed
      next rightOk =>
        simp only [grown, leftOk, rightOk, Bool.false_eq_true, ↓reduceIte]
        split <;> rfl

theorem differingLines_getline {leftA leftB : Bytes} (n : Nat)
    (more : ¬ ((getline leftA).1 = none ∧ (getline leftB).1 = none)) :
    differingLines n (cutAfter newline leftA) (cutAfter newline leftB) =
      (if (getline leftA).1.map List.length ≠ (getline leftB).1.map List.length ∨
          (getline leftA).1.getD [] ≠ (getline leftB).1.getD [] then
        [⟨n, trimmed ((getline leftA).1.getD []), trimmed ((getline leftB).1.getD [])⟩] else []) ++
      differingLines (n + 1) (cutAfter newline (getline leftA).2) (cutAfter newline (getline leftB).2) := by
  cases lineA : (getline leftA).1 with
  | none =>
    obtain ⟨rfl, restA⟩ := getline_none lineA
    cases lineB : (getline leftB).1 with
    | none => exact absurd ⟨lineA, lineB⟩ more
    | some b =>
      rw [(getline_some lineB).1, restA]
      simp [cutAfter, differingLines, trimmed, trimLineLength]
  | some a =>
    rw [(getline_some lineA).1]
    cases lineB : (getline leftB).1 with
    | none =>
      obtain ⟨rfl, restB⟩ := getline_none lineB
      rw [restB]
      simp [cutAfter, differingLines, trimmed, trimLineLength]
    | some b =>
      rw [(getline_some lineB).1]
      by_cases same : a = b
      · simp [differingLines, same]
      · simp [differingLines, same]

/-! ## The pushes of a comparison -/

def pushDifferences (env : LinesEnv) : List LineDiff → LineDiffVector → Rc × LineDiffVector
  | [], lines => (0, lines)
  | diff :: rest, lines =>
    let (rc, lines) := lineDiffVectorPush lines diff.lineNumber diff.left diff.left.length diff.right
      diff.right.length (env.push diff.lineNumber)
    if rc ≠ 0 then (rc, lines) else pushDifferences env rest lines

theorem pushDifferences_cons {env : LinesEnv} {diff : LineDiff} {lines grown : LineDiffVector} {rc : Rc}
    (pushed : lineDiffVectorPush lines diff.lineNumber diff.left diff.left.length diff.right
      diff.right.length (env.push diff.lineNumber) = (rc, grown)) (rest : List LineDiff) :
    pushDifferences env (diff :: rest) lines = if rc ≠ 0 then (rc, grown) else pushDifferences env rest grown := by
  rw [pushDifferences, pushed]

theorem lineDiffVectorPush_take (lines : LineDiffVector) (lineNumber leftLen rightLen : Nat) (left right : Bytes)
    (allocs : LinePushAllocs) : lineDiffVectorPush lines lineNumber left leftLen right rightLen allocs =
      lineDiffVectorPush lines lineNumber (left.take leftLen) (left.take leftLen).length
        (right.take rightLen) (right.take rightLen).length allocs := by
  -- Only the text in front of the given lengths is copied.
  unfold lineDiffVectorPush
  simp only [List.take_length]

theorem pushDifferences_items {env : LinesEnv} {diffs : List LineDiff} {lines : LineDiffVector}
    (pushed : (pushDifferences env diffs lines).1 = 0) :
    (pushDifferences env diffs lines).2.items = lines.items ++ diffs := by
  induction diffs generalizing lines with
  | nil => simp [pushDifferences]
  | cons diff rest ih =>
    simp only [pushDifferences] at pushed ⊢
    split at pushed
    next failed => exact absurd pushed failed
    next ok =>
      have added := lineDiffVectorPush_ok lines diff.lineNumber diff.left diff.right (env.push diff.lineNumber)
        (not_not.mp ok)
      rw [if_neg ok, ih pushed, added, List.take_length, List.take_length, List.append_assoc, List.singleton_append]

/-- Unless a line cannot be read, the comparison makes one push for each difference. -/
theorem detectLinesLoop_eq {env : LinesEnv} {lineNo : Nat} {leftA leftB : Bytes} {lines : LineDiffVector}
    (reads : (∀ n, env.lineA n = none ∧ env.lineB n = none) ∨
      (detectLinesLoop env lineNo leftA leftB lines).1 = 0) :
    detectLinesLoop env lineNo leftA leftB lines =
      pushDifferences env (differingLines lineNo (cutAfter newline leftA) (cutAfter newline leftB)) lines := by
  fun_induction detectLinesLoop env lineNo leftA leftB lines with
  | case1 lineNo leftA leftB lines fault failed =>
    rcases reads with readable | compared
    · rw [(readable lineNo).1] at failed; cases failed
    · exact absurd compared fault.nonzero
  | case2 lineNo leftA leftB lines _ fault failed =>
    rcases reads with readable | compared
    · rw [(readable lineNo).2] at failed; cases failed
    · exact absurd compared fault.nonzero
  | case3 lineNo leftA leftB lines _ _ finished =>
    -- Both files are at their end, so there is nothing left to differ.
    obtain ⟨rfl, _⟩ := getline_none finished.1
    obtain ⟨rfl, _⟩ := getline_none finished.2
    simp [cutAfter, differingLines, pushDifferences]
  | case4 lineNo leftA leftB lines _ _ lineA lineB more textA textB differs rc grown pushed failed =>
    rw [lineDiffVectorPush_take] at pushed
    rw [differingLines_getline lineNo more, if_pos differs, List.singleton_append,
      @pushDifferences_cons env ⟨lineNo, trimmed textA, trimmed textB⟩ _ _ _ pushed, if_pos failed]
  | case5 lineNo leftA leftB lines _ _ lineA lineB more textA textB differs rc grown pushed ok ih =>
    rw [lineDiffVectorPush_take] at pushed
    rw [ih reads, differingLines_getline lineNo more, if_pos differs, List.singleton_append,
      @pushDifferences_cons env ⟨lineNo, trimmed textA, trimmed textB⟩ _ _ _ pushed, if_neg ok]
  | case6 lineNo leftA leftB lines _ _ lineA lineB more textA textB same ih =>
    rw [ih reads, differingLines_getline lineNo more, if_neg same, List.nil_append]

theorem detectLineDifferences_opened {contentA contentB : Bytes} {env : LinesEnv} {lines : LineDiffVector}
    (compared : (detectLineDifferences (.ok contentA) (.ok contentB) env lines).1 = 0) :
    detectLineDifferences (.ok contentA) (.ok contentB) env lines =
      detectLinesLoop env 1 contentA contentB lines := by
  unfold detectLineDifferences at compared ⊢
  cases streamA : env.streamA with
  | some fault => rw [streamA] at compared; exact absurd compared fault.nonzero
  | none =>
    cases streamB : env.streamB with
    | some fault => rw [streamA, streamB] at compared; exact absurd compared fault.nonzero
    | none => rfl

theorem detectLineDifferences_eq {contentA contentB : Bytes} {env : LinesEnv} {lines : LineDiffVector}
    (compared : (detectLineDifferences (.ok contentA) (.ok contentB) env lines).1 = 0) :
    detectLineDifferences (.ok contentA) (.ok contentB) env lines =
      pushDifferences env (differingLines 1 (cutAfter newline contentA) (cutAfter newline contentB)) lines := by
  have opened := detectLineDifferences_opened compared
  rw [opened] at compared ⊢
  exact detectLinesLoop_eq (.inr compared)

theorem detectLineDifferences_ok {contentA contentB : Bytes} {env : LinesEnv} {lines : LineDiffVector}
    (compared : (detectLineDifferences (.ok contentA) (.ok contentB) env lines).1 = 0) :
    (detectLineDifferences (.ok contentA) (.ok contentB) env lines).2.items =
      lines.items ++ differingLines 1 (cutAfter newline contentA) (cutAfter newline contentB) := by
  have pushes := detectLineDifferences_eq compared
  rw [pushes] at compared ⊢
  exact pushDifferences_items compared

end Verdiff
