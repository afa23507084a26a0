import Verdiff.Compare.Verdict

/-! The verdict on two files with their sides exchanged. -/

set_option autoImplicit false

namespace Verdiff

def ChangeType.mirror : ChangeType → ChangeType
  | .added => .removed
  | .removed => .added
  | .unchanged => .unchanged
  | .modified => .modified

def DetailKind.mirror : DetailKind → DetailKind
  | .onlyInTarget => .onlyInSource
  | .onlyInSource => .onlyInTarget
  | .none => .none
  | .lines => .lines
  | .sizeChanged => .sizeChanged
  | .binaryChanged => .binaryChanged

def LineDiff.mirror (diff : LineDiff) : LineDiff := ⟨diff.lineNumber, diff.right, diff.left⟩

def LineDiffVector.mirror (vector : LineDiffVector) : LineDiffVector :=
  ⟨vector.items.map LineDiff.mirror, vector.capacity⟩

def ChangeRecord.mirror (record : ChangeRecord) : ChangeRecord where
  path := record.path
  type := record.type.mirror
  detailKind := record.detailKind.mirror
  sizeA := record.sizeB
  sizeB := record.sizeA
  lineDiffs := record.lineDiffs.mirror

def Outcome.mirror : Outcome → Outcome
  | .pushed record => .pushed record.mirror
  | .noted type => .noted type.mirror

@[simp] theorem ChangeType.mirror_mirror (type : ChangeType) : type.mirror.mirror = type := by cases type <;> rfl

@[simp] theorem Outcome.mirror_type (outcome : Outcome) : outcome.mirror.type = outcome.type.mirror := by
  cases outcome <;> rfl

@[simp] theorem Outcome.mirror_record? (outcome : Outcome) :
    outcome.mirror.record? = outcome.record?.map ChangeRecord.mirror := by cases outcome <;> rfl

@[simp] theorem LineDiffVector.mirror_length (vector : LineDiffVector) :
    vector.mirror.items.length = vector.items.length := List.length_map _

/-! ## The line differences -/

theorem lineDiffVectorPush_mirror {vector next : LineDiffVector} {lineNumber leftLen rightLen : Nat}
    {left right : Bytes} {rc : Rc}
    (pushed : lineDiffVectorPush vector lineNumber left leftLen right rightLen ⟨true, true, true⟩ = (rc, next)) :
    lineDiffVectorPush vector.mirror lineNumber right rightLen left leftLen ⟨true, true, true⟩ = (rc, next.mirror) := by
  -- The array grows by its length, which is the same on both sides.
  unfold lineDiffVectorPush at pushed ⊢
  simp only [LineDiffVector.mirror_length, Bool.not_true, Bool.and_false, Bool.false_eq_true, ↓reduceIte,
    Prod.mk.injEq] at pushed ⊢
  obtain ⟨rfl, rfl⟩ := pushed
  refine ⟨rfl, ?_⟩
  by_cases full : vector.items.length = vector.capacity
  · simp only [LineDiffVector.mirror, full, decide_true, ↓reduceIte, List.map_append]
    rfl
  · simp only [LineDiffVector.mirror, full, decide_false, Bool.false_eq_true, ↓reduceIte, List.map_append]
    rfl

theorem differingLines_mirror (n : Nat) (as bs : List Bytes) :
    differingLines n bs as = (differingLines n as bs).map LineDiff.mirror := by
  fun_induction differingLines n as bs with
  | case1 n => rw [differingLines, List.map_nil]
  | case2 n a as ih => rw [differingLines, ih]; rfl
  | case3 n b bs ih => rw [differingLines, ih]; rfl
  | case4 n as b bs ih => rw [differingLines, if_pos rfl, ih]
  | case5 n a as b bs differ ih => rw [differingLines, if_neg (Ne.symm differ), ih]; rfl

theorem pushDifferences_mirror (diffs : List LineDiff) (lines : LineDiffVector) :
    pushDifferences .quiet (diffs.map LineDiff.mirror) lines.mirror =
      ((pushDifferences .quiet diffs lines).1, (pushDifferences .quiet diffs lines).2.mirror) := by
  induction diffs generalizing lines with
  | nil => rfl
  | cons diff rest ih =>
    cases pushed : lineDiffVectorPush lines diff.lineNumber diff.left diff.left.length diff.right
      diff.right.length (LinesEnv.quiet.push diff.lineNumber) with
    | mk rc next =>
      rw [List.map_cons, pushDifferences_cons pushed, @pushDifferences_cons _ diff.mirror _ _ _
        (lineDiffVectorPush_mirror pushed), ih]
      split <;> rfl

theorem lineDiffsOf_mirror (opened : Bool) (config : Config) (contentA contentB : Bytes) :
    lineDiffsOf opened config contentB contentA = (lineDiffsOf opened config contentA contentB).mirror := by
  have asked : (config.includeLines && opened && looksLikeText contentB && looksLikeText contentA) =
      (config.includeLines && opened && looksLikeText contentA && looksLikeText contentB) := Bool.and_right_comm _ _ _
  unfold lineDiffsOf
  rw [asked]
  split
  · rw [detectLineDifferences_pushes, detectLineDifferences_pushes, differingLines_mirror]
    exact congrArg Prod.snd (pushDifferences_mirror _ .zero)
  · rfl

/-! ## The verdict -/

theorem takenEqual_comm (xxh : Xxh3) (config : Config) (contentA contentB : Bytes) :
    takenEqual xxh config contentB contentA = takenEqual xxh config contentA contentB := by
  unfold takenEqual
  rw [decide_eq_decide.mpr (eq_comm (a := contentB)), decide_eq_decide.mpr (eq_comm (a := xxh.oneShot contentB))]

theorem verdictWith_mirror (same opened : Bool) (config : Config) (path : CString) (infoA infoB : FileInfo)
    (contentA contentB : Bytes) :
    verdictWith same opened config path infoB infoA contentB contentA =
      (verdictWith same opened config path infoA infoB contentA contentB).mirror := by
  unfold verdictWith
  simp only [lineDiffsOf_mirror opened config contentA contentB, LineDiffVector.mirror_length]
  by_cases sizes : infoA.size = infoB.size
  · rw [if_neg (not_not.mpr sizes.symm), if_neg (not_not.mpr sizes)]
    cases same
    · simp only [Bool.false_eq_true, ↓reduceIte]
      by_cases some_ : (lineDiffsOf opened config contentA contentB).items.length > 0
      · simp only [some_, ↓reduceIte]; rfl
      · simp only [some_, ↓reduceIte]; rfl
    · cases config.includeUnchanged <;> rfl
  · rw [if_pos (Ne.symm sizes), if_pos sizes]
    rfl

theorem verdictWith_congr {config other : Config} (lines : config.includeLines = other.includeLines)
    (unchanged : config.includeUnchanged = other.includeUnchanged) (same opened : Bool) (path : CString)
    (infoA infoB : FileInfo) (contentA contentB : Bytes) :
    verdictWith same opened config path infoA infoB contentA contentB =
      verdictWith same opened other path infoA infoB contentA contentB := by
  unfold verdictWith lineDiffsOf
  rw [lines, unchanged]

end Verdiff
