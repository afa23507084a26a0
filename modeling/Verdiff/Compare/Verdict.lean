import Verdiff.Compare.Candidate

/-! The verdict as a function of the two files.

With full reads nothing the environment decides, apart from failures, is left in a verdict.
-/

set_option autoImplicit false

namespace Verdiff
open Pieces

def LinesEnv.quiet : LinesEnv := ⟨none, none, fun _ => none, fun _ => none, fun _ => ⟨true, true, true⟩⟩

@[simp] theorem LinesEnv.quiet_push (lineNo : Nat) : LinesEnv.quiet.push lineNo = ⟨true, true, true⟩ := rfl

theorem lineDiffVectorPush_quiet {vector : LineDiffVector} {lineNumber leftLen rightLen : Nat}
    {left right : Bytes} {allocs : LinePushAllocs}
    (pushed : (lineDiffVectorPush vector lineNumber left leftLen right rightLen allocs).1 = 0) :
    lineDiffVectorPush vector lineNumber left leftLen right rightLen allocs =
      lineDiffVectorPush vector lineNumber left leftLen right rightLen ⟨true, true, true⟩ := by
  unfold lineDiffVectorPush at pushed ⊢
  simp only at pushed ⊢
  split at pushed
  · exact absurd pushed Fault.ENOMEM.nonzero
  next grown =>
    split at pushed
    · exact absurd pushed Fault.ENOMEM.nonzero
    next leftOk =>
      split at pushed
      · exact absurd pushed Fault.ENOMEM.nonzero
      next rightOk => simp only [grown, leftOk, rightOk, Bool.not_true, Bool.and_false, Bool.false_eq_true, ↓reduceIte]

theorem pushDifferences_quiet {env : LinesEnv} {diffs : List LineDiff} {lines : LineDiffVector}
    (pushed : (pushDifferences env diffs lines).1 = 0) :
    pushDifferences env diffs lines = pushDifferences .quiet diffs lines := by
  induction diffs generalizing lines with
  | nil => rfl
  | cons diff rest ih =>
    simp only [pushDifferences] at pushed ⊢
    split at pushed
    next failed => exact absurd pushed failed
    next ok => rw [LinesEnv.quiet_push, ← lineDiffVectorPush_quiet (not_not.mp ok), if_neg ok, if_neg ok, ih pushed]

theorem detectLineDifferences_pushes (contentA contentB : Bytes) (lines : LineDiffVector) :
    detectLineDifferences (.ok contentA) (.ok contentB) .quiet lines =
      pushDifferences .quiet (differingLines 1 (cutAfter newline contentA) (cutAfter newline contentB)) lines :=
  detectLinesLoop_eq (.inl fun _ => ⟨rfl, rfl⟩)

theorem detectLineDifferences_quiet {contentA contentB : Bytes} {env : LinesEnv} {lines : LineDiffVector}
    (compared : (detectLineDifferences (.ok contentA) (.ok contentB) env lines).1 = 0) :
    detectLineDifferences (.ok contentA) (.ok contentB) env lines =
      detectLineDifferences (.ok contentA) (.ok contentB) .quiet lines := by
  have pushes := detectLineDifferences_eq compared
  rw [pushes] at compared ⊢
  rw [detectLineDifferences_pushes, pushDifferences_quiet compared]

/-! ## The verdict -/

/-- What the text test says when its `read` gives all it can. -/
def looksLikeText (content : Bytes) : Bool := (content.take 8192).all isTextByte

theorem vdIsLikelyTextFile_full {content : Bytes} {result : ReadResult} (full : result.Full 8192)
    (fault : Option Fault) :
    vdIsLikelyTextFile (openCall fault (.ok content)) result = (fault.isNone && looksLikeText content) := by
  cases fault with
  | some fault => rfl
  | none => simp only [openCall, vdIsLikelyTextFile, readChunk_full full, looksLikeText, Option.isNone_none, Bool.true_and]

def CompareEnv.testsOpen (env : CompareEnv) : Bool := env.opens.textA.isNone && env.opens.textB.isNone

def lineDiffsOf (opened : Bool) (config : Config) (contentA contentB : Bytes) : LineDiffVector :=
  if config.includeLines && opened && looksLikeText contentA && looksLikeText contentB then
    (detectLineDifferences (.ok contentA) (.ok contentB) .quiet .zero).2
  else .zero

/-- The outcome for a path both indexes have, by its two entries and the two files; `opened` says
whether the text tests can open them. -/
def verdictOf (opened : Bool) (config : Config) (path : CString) (infoA infoB : FileInfo) (contentA contentB : Bytes) : Outcome :=
  let record (type : ChangeType) (detailKind : DetailKind) (lineDiffs : LineDiffVector) : Outcome :=
    .pushed ⟨path, type, detailKind, infoA.size, infoB.size, lineDiffs⟩
  if infoA.size ≠ infoB.size then record .modified .sizeChanged .zero
  else if contentA = contentB then
    if config.includeUnchanged then record .unchanged .none .zero else .noted .unchanged
  else
    let lineDiffs := lineDiffsOf opened config contentA contentB
    record .modified (if lineDiffs.items.length > 0 then DetailKind.lines else .binaryChanged) lineDiffs

/-- The same where `same` says whether the files pass for equal. -/
def verdictWith (same opened : Bool) (config : Config) (path : CString) (infoA infoB : FileInfo)
    (contentA contentB : Bytes) : Outcome :=
  let record (type : ChangeType) (detailKind : DetailKind) (lineDiffs : LineDiffVector) : Outcome :=
    .pushed ⟨path, type, detailKind, infoA.size, infoB.size, lineDiffs⟩
  if infoA.size ≠ infoB.size then record .modified .sizeChanged .zero
  else if same then
    if config.includeUnchanged then record .unchanged .none .zero else .noted .unchanged
  else
    let lineDiffs := lineDiffsOf opened config contentA contentB
    record .modified (if lineDiffs.items.length > 0 then DetailKind.lines else .binaryChanged) lineDiffs

theorem verdictWith_verify {xxh : Xxh3} {config : Config} (verify : config.verifyEqualHashes = true) (opened : Bool)
    (path : CString) (infoA infoB : FileInfo) (contentA contentB : Bytes) :
    verdictWith (takenEqual xxh config contentA contentB) opened config path infoA infoB contentA contentB =
      verdictOf opened config path infoA infoB contentA contentB := by
  simp only [verdictWith, verdictOf, takenEqual, verify, ↓reduceIte, decide_eq_true_eq]

theorem pushDifferences_succeeds (diffs : List LineDiff) (lines : LineDiffVector) :
    (pushDifferences .quiet diffs lines).1 = 0 := by
  induction diffs generalizing lines with
  | nil => rfl
  | cons diff rest ih =>
    have stored : (lineDiffVectorPush lines diff.lineNumber diff.left diff.left.length diff.right diff.right.length
        (LinesEnv.quiet.push diff.lineNumber)).1 = 0 := by simp [lineDiffVectorPush]
    simp only [pushDifferences, stored, ne_eq, not_true_eq_false, ↓reduceIte]
    exact ih _

theorem detectLineDifferences_listed {contentA contentB : Bytes} (apart : contentA ≠ contentB) :
    (detectLineDifferences (.ok contentA) (.ok contentB) .quiet .zero).2.items ≠ [] := by
  rw [detectLineDifferences_pushes, pushDifferences_items (pushDifferences_succeeds _ _)]
  exact fun none => apart (cutAfter_injective (differingLines_nil none))

/-- With lines asked for, two files of one listed size that do not pass for equal and look like text. -/
structure LinesDue (same : Bool) (config : Config) (infoA infoB : FileInfo) (contentA contentB : Bytes) : Prop where
  asked : config.includeLines = true
  sizes : infoA.size = infoB.size
  apart : same = false
  textA : looksLikeText contentA = true
  textB : looksLikeText contentB = true

theorem LinesDue.verdictWith {same : Bool} {config : Config} {infoA infoB : FileInfo} {contentA contentB : Bytes}
    (due : LinesDue same config infoA infoB contentA contentB) (differ : contentA ≠ contentB) (opened : Bool)
    (path : CString) : ∃ record, verdictWith same opened config path infoA infoB contentA contentB = .pushed record ∧
      record.path = path ∧ record.type = .modified ∧
      record.detailKind = if opened then DetailKind.lines else .binaryChanged := by
  refine ⟨_, by rw [Verdiff.verdictWith, if_neg (not_not.mpr due.sizes), due.apart, if_neg Bool.false_ne_true], rfl, rfl, ?_⟩
  cases opened with
  | false => simp [lineDiffsOf, LineDiffVector.zero]
  | true =>
    have listed := List.length_pos_iff.mpr (detectLineDifferences_listed differ)
    simp [lineDiffsOf, due.asked, due.textA, due.textB, listed]

theorem verdictWith_undue {same opened other : Bool} {config : Config} {infoA infoB : FileInfo}
    {contentA contentB : Bytes} (agree : LinesDue same config infoA infoB contentA contentB → opened = other)
    (path : CString) : verdictWith same opened config path infoA infoB contentA contentB =
      verdictWith same other config path infoA infoB contentA contentB := by
  by_cases due : LinesDue same config infoA infoB contentA contentB
  · rw [agree due]
  · by_cases sizes : infoA.size = infoB.size
    · cases same with
      | true => simp [verdictWith, sizes]
      | false =>
        have unlisted : ∀ opened, lineDiffsOf opened config contentA contentB = .zero := by
          intro opened
          refine if_neg fun asked => due ?_
          simp only [Bool.and_eq_true] at asked
          exact ⟨asked.1.1.1, sizes, rfl, asked.1.2, asked.2⟩
        simp only [verdictWith, unlisted]
    · simp [verdictWith, sizes]

theorem takenEqual_false {xxh : Xxh3} {config : Config} {contentA contentB : Bytes}
    (apart : takenEqual xxh config contentA contentB = false) : contentA ≠ contentB := by
  rintro rfl
  simp [takenEqual] at apart

/-- The reads a verdict depends on give all they can. -/
structure CompareEnv.Full (env : CompareEnv) (bufferSize : Nat) : Prop where
  binary : env.binary.Full bufferSize
  textA : env.textA.Full 8192
  textB : env.textB.Full 8192

theorem CompareEnv.quiet_full (bufferSize : Nat) : (CompareEnv.quiet bufferSize).Full bufferSize :=
  ⟨⟨fun _ => le_rfl, fun _ => le_rfl⟩, le_refl 8192, le_refl 8192⟩

theorem compareLines_eq {config : Config} {contentA contentB : Bytes} {env : CompareEnv}
    (full : env.Full config.hashBufferSize)
    (compared : (compareLines config (.ok contentA) (.ok contentB) env).1 = 0) :
    (compareLines config (.ok contentA) (.ok contentB) env).2 =
      lineDiffsOf env.testsOpen config contentA contentB := by
  have asked : (config.includeLines && env.textTestA (.ok contentA) && env.textTestB (.ok contentB)) =
      (config.includeLines && env.testsOpen && looksLikeText contentA && looksLikeText contentB) := by
    rw [CompareEnv.textTestA, CompareEnv.textTestB, vdIsLikelyTextFile_full full.textA, vdIsLikelyTextFile_full full.textB,
      CompareEnv.testsOpen]
    ac_rfl
  unfold compareLines at compared ⊢
  unfold lineDiffsOf
  rw [asked] at compared ⊢
  split at compared
  next wanted => rw [if_pos wanted, if_pos wanted, detectLineDifferences_quiet compared]
  next unwanted => rw [if_neg unwanted, if_neg unwanted]

/-- A verdict is decided by the entries, the contents and whether the text tests can open the files. -/
theorem compareVerdict_with {context : CompareContext} {path : CString} {env : CompareEnv} {outcome : Outcome}
    {infoA infoB : FileInfo} {contentA contentB : Bytes}
    (foundA : fileIndexFindConst context.hashPath context.indexA path = some infoA)
    (foundB : fileIndexFindConst context.hashPath context.indexB path = some infoB)
    (holdsA : ∀ content, context.files.openFile (vdJoinPath context.config.rootA path) = .ok content →
      content = contentA)
    (holdsB : ∀ content, context.files.openFile (vdJoinPath context.config.rootB path) = .ok content →
      content = contentB)
    (positive : 1 ≤ context.config.hashBufferSize) (full : env.Full context.config.hashBufferSize)
    (verdict : compareVerdict context path env = .ok outcome) :
    outcome = verdictWith (takenEqual context.xxh context.config contentA contentB) env.testsOpen context.config path
      infoA infoB contentA contentB := by
  unfold compareVerdict at verdict
  unfold verdictWith
  rw [foundA, foundB] at verdict
  simp only at verdict ⊢
  split at verdict
  next sizes =>
    rw [if_pos sizes]
    exact (Except.ok.inj verdict).symm
  next sizes =>
    rw [if_neg sizes]
    split at verdict
    · cases verdict
    split at verdict
    · cases verdict
    next same =>
      obtain ⟨a, b, openA, openB, taken⟩ := compareHashes_taken positive full.binary same
      obtain rfl := holdsA a openA
      obtain rfl := holdsB b openB
      rw [if_pos taken.symm]
      exact (Except.ok.inj verdict).symm
    next differ =>
      obtain ⟨a, b, openA, openB, taken⟩ := compareHashes_taken positive full.binary differ
      obtain rfl := holdsA a openA
      obtain rfl := holdsB b openB
      rw [if_neg (by rw [← taken]; exact Bool.false_ne_true)]
      split at verdict
      · cases verdict
      next compared =>
        rw [openA, openB] at compared verdict
        rw [← compareLines_eq full (by simpa using compared)]
        exact (Except.ok.inj verdict).symm

end Verdiff
