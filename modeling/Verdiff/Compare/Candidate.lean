import Verdiff.Hash
import Verdiff.Paths
import Verdiff.Results
import Verdiff.Compare.Lines
import Verdiff.Index.Refinement

/-! One candidate: size, hashes, bytes, text test and line differences, then one record. -/

set_option autoImplicit false

namespace Verdiff
open Pieces

/-- What the workers read: the configuration, both indexes and the files. -/
structure CompareContext where
  config : Config
  hashPath : CString → UInt64
  indexA : FileIndex
  indexB : FileIndex
  files : FileSystem
  xxh : Xxh3

/-- How each `open` of the pair ends besides finding the file; `fopen` has its own in `LinesEnv`. -/
structure CompareOpens where
  hashA : Option Fault
  hashB : Option Fault
  binaryA : Option Fault
  binaryB : Option Fault
  textA : Option Fault
  textB : Option Fault

/-- The outcomes of the calls one `compare_candidate_file` makes besides finding files. -/
structure CompareEnv where
  joinAOk : Bool
  joinBOk : Bool
  opens : CompareOpens
  hashA : HashEnv
  hashB : HashEnv
  binary : BinaryEnv
  textA : ReadResult
  textB : ReadResult
  lines : LinesEnv
  push : PushAllocs

def pushSimpleRecord (results : ResultSet) (path : CString) (type : ChangeType) (detailKind : DetailKind)
    (sizeA sizeB : Int) (allocs : PushAllocs) : Rc × ResultSet :=
  resultSetPush results ⟨path, type, detailKind, sizeA, sizeB, .zero⟩ allocs

def compareHashes (xxh : Xxh3) (config : Config) (fileA fileB : Except Fault Bytes) (env : CompareEnv) :
    Except Fault Bool :=
  match hashFileXxh3 xxh (openCall env.opens.hashA fileA) config.hashBufferSize config.mmapThreshold env.hashA with
  | .error fault => .error fault
  | .ok hashA =>
    match hashFileXxh3 xxh (openCall env.opens.hashB fileB) config.hashBufferSize config.mmapThreshold env.hashB with
    | .error fault => .error fault
    | .ok hashB =>
      if hashA ≠ hashB then .ok false
      else if config.verifyEqualHashes then
        vdCompareBinaryFiles (openCall env.opens.binaryA fileA) (openCall env.opens.binaryB fileB)
          config.hashBufferSize env.binary
      else .ok true

/-- The answers of `vd_is_likely_text_file`, to which a file that cannot be opened is no text. -/
def CompareEnv.textTestA (env : CompareEnv) (file : Except Fault Bytes) : Bool :=
  vdIsLikelyTextFile (openCall env.opens.textA file) env.textA

def CompareEnv.textTestB (env : CompareEnv) (file : Except Fault Bytes) : Bool :=
  vdIsLikelyTextFile (openCall env.opens.textB file) env.textB

/-- The line differences of two differing files; none unless they are asked for and both
files look like text. -/
def compareLines (config : Config) (fileA fileB : Except Fault Bytes) (env : CompareEnv) :
    Rc × LineDiffVector :=
  if config.includeLines && env.textTestA fileA && env.textTestB fileB then
    detectLineDifferences fileA fileB env.lines .zero
  else (0, .zero)

def compareCandidateFile (context : CompareContext) (relativePath : CString) (env : CompareEnv)
    (results : ResultSet) : Rc × ResultSet :=
  match fileIndexFindConst context.hashPath context.indexA relativePath,
      fileIndexFindConst context.hashPath context.indexB relativePath with
  | some infoA, some infoB =>
    if infoA.size ≠ infoB.size then
      pushSimpleRecord results relativePath .modified .sizeChanged infoA.size infoB.size env.push
    else if !env.joinAOk || !env.joinBOk then (Fault.ENOMEM.code, results)
    else
      let fileA := context.files.openFile (vdJoinPath context.config.rootA relativePath)
      let fileB := context.files.openFile (vdJoinPath context.config.rootB relativePath)
      match compareHashes context.xxh context.config fileA fileB env with
      | .error fault => (fault.code, results)
      | .ok true =>
        if context.config.includeUnchanged then
          pushSimpleRecord results relativePath .unchanged .none infoA.size infoB.size env.push
        else resultSetNoteType results .unchanged
      | .ok false =>
        let (rc, lineDiffs) := compareLines context.config fileA fileB env
        if rc ≠ 0 then (rc, results)
        else
          let detailKind := if lineDiffs.items.length > 0 then DetailKind.lines else .binaryChanged
          resultSetPush results
            ⟨relativePath, .modified, detailKind, infoA.size, infoB.size, lineDiffs⟩ env.push
  | _, _ => (Fault.ENOENT.code, results)

theorem compareCandidateFile_opens (context : CompareContext) {files : FileSystem} {path : CString}
    (agrees : ∀ root, root = context.config.rootA ∨ root = context.config.rootB →
      files.openFile (vdJoinPath root path) = context.files.openFile (vdJoinPath root path)) (env : CompareEnv)
    (results : ResultSet) :
    compareCandidateFile { context with files := files } path env results =
      compareCandidateFile context path env results := by
  unfold compareCandidateFile
  simp only [agrees context.config.rootA (.inl rfl), agrees context.config.rootB (.inr rfl)]

/-! ## The verdict and its recording -/

/-- What the call decides to record, apart from recording it. -/
def compareVerdict (context : CompareContext) (relativePath : CString) (env : CompareEnv) :
    Except Rc Outcome :=
  match fileIndexFindConst context.hashPath context.indexA relativePath,
      fileIndexFindConst context.hashPath context.indexB relativePath with
  | some infoA, some infoB =>
    let record (type : ChangeType) (detailKind : DetailKind) (lineDiffs : LineDiffVector) : Outcome :=
      .pushed ⟨relativePath, type, detailKind, infoA.size, infoB.size, lineDiffs⟩
    if infoA.size ≠ infoB.size then .ok (record .modified .sizeChanged .zero)
    else if !env.joinAOk || !env.joinBOk then .error Fault.ENOMEM.code
    else
      let fileA := context.files.openFile (vdJoinPath context.config.rootA relativePath)
      let fileB := context.files.openFile (vdJoinPath context.config.rootB relativePath)
      match compareHashes context.xxh context.config fileA fileB env with
      | .error fault => .error fault.code
      | .ok true =>
        .ok (if context.config.includeUnchanged then record .unchanged .none .zero else .noted .unchanged)
      | .ok false =>
        let (rc, lineDiffs) := compareLines context.config fileA fileB env
        if rc ≠ 0 then .error rc
        else .ok (record .modified
          (if lineDiffs.items.length > 0 then DetailKind.lines else .binaryChanged) lineDiffs)
  | _, _ => .error Fault.ENOENT.code

theorem compareVerdict_ok {context : CompareContext} {path : CString} {env : CompareEnv} {outcome : Outcome}
    (verdict : compareVerdict context path env = .ok outcome) :
    (∃ record, outcome = .pushed record ∧ record.path = path ∧
      (record.type = .modified ∨ record.type = .unchanged ∧ context.config.includeUnchanged = true)) ∨
    (outcome = .noted .unchanged ∧ context.config.includeUnchanged = false) := by
  unfold compareVerdict at verdict
  split at verdict
  · simp only at verdict
    split at verdict
    · cases verdict; exact .inl ⟨_, rfl, rfl, .inl rfl⟩
    split at verdict
    · cases verdict
    split at verdict
    · cases verdict
    · split at verdict <;> cases verdict
      next listed => exact .inl ⟨_, rfl, rfl, .inr ⟨rfl, listed⟩⟩
      next unlisted => exact .inr ⟨rfl, by simpa using unlisted⟩
    · split at verdict <;> cases verdict
      exact .inl ⟨_, rfl, rfl, .inl rfl⟩
  · cases verdict

theorem compareVerdict_lines {context : CompareContext} {path : CString} {env : CompareEnv}
    {record : ChangeRecord} (verdict : compareVerdict context path env = .ok (.pushed record))
    (lines : record.detailKind = .lines) : record.type = .modified ∧ record.lineDiffs.items ≠ [] := by
  unfold compareVerdict at verdict
  split at verdict
  · simp only at verdict
    split at verdict
    · cases verdict; cases lines
    split at verdict
    · cases verdict
    split at verdict
    · cases verdict
    · split at verdict <;> cases verdict
      cases lines
    · split at verdict <;> cases verdict
      refine ⟨rfl, fun none => ?_⟩
      simp [show (compareLines _ _ _ _).2.items = [] from none] at lines
  · cases verdict

def Outcome.perform : Outcome → PushAllocs → ResultSet → Rc × ResultSet
  | .pushed record, allocs, results => resultSetPush results record allocs
  | .noted type, _, results => resultSetNoteType results type

theorem compareCandidateFile_eq (context : CompareContext) (path : CString) (env : CompareEnv)
    (results : ResultSet) :
    compareCandidateFile context path env results =
      match compareVerdict context path env with
      | .error rc => (rc, results)
      | .ok outcome => outcome.perform env.push results := by
  unfold compareCandidateFile compareVerdict pushSimpleRecord
  split
  next infoA infoB foundA foundB =>
    split
    · rfl
    · split
      · rfl
      · simp only
        split
        · rfl
        · split <;> rfl
        · cases compareLines context.config _ _ env with
          | mk rc lineDiffs => by_cases ok : rc = 0 <;> simp [ok, Outcome.perform]
  · rfl

theorem compareVerdict_error {context : CompareContext} {path : CString} {env : CompareEnv} {rc : Rc}
    (failed : compareVerdict context path env = .error rc) : rc ≠ 0 := by
  unfold compareVerdict at failed
  split at failed
  · simp only at failed
    split at failed
    · cases failed
    split at failed
    · cases failed; exact Fault.ENOMEM.nonzero
    split at failed
    next fault _ => cases failed; exact fault.nonzero
    · cases failed
    · split at failed
      next nonzero => cases failed; exact nonzero
      · cases failed
  · cases failed; exact Fault.ENOENT.nonzero

/-- One verdict is in the set that was not there before. -/
def ResultSet.Recorded (set : ResultSet) : Outcome → ResultSet → Prop
  | .pushed record, next => set.Extends record next
  | .noted type, next => next = (resultSetNoteType set type).2

theorem compareCandidateFile_ok {context : CompareContext} {path : CString} {env : CompareEnv}
    {results : ResultSet} (compared : (compareCandidateFile context path env results).1 = 0) :
    ∃ outcome, compareVerdict context path env = .ok outcome ∧
      results.Recorded outcome (compareCandidateFile context path env results).2 := by
  rw [compareCandidateFile_eq] at compared ⊢
  cases verdict : compareVerdict context path env with
  | error rc =>
    rw [verdict] at compared
    exact absurd compared (compareVerdict_error verdict)
  | ok outcome =>
    rw [verdict] at compared
    refine ⟨outcome, rfl, ?_⟩
    cases outcome with
    | noted type => rfl
    | pushed record =>
      rcases resultSetPush_cases results record env.push with ⟨_, extended⟩ | ⟨failed, _⟩
      · exact extended
      · exact absurd compared (by simp [Outcome.perform, failed, Fault.ENOMEM])

/-! ## What the verdict is -/

/-- What passes for equal contents: equal bytes, or only equal hashes without verification. -/
def takenEqual (xxh : Xxh3) (config : Config) (contentA contentB : Bytes) : Bool :=
  if config.verifyEqualHashes then contentA = contentB else xxh.oneShot contentA = xxh.oneShot contentB

theorem vdCompareBinaryFiles_opened {bufferSize : Nat} (positive : 1 ≤ bufferSize) {env : BinaryEnv}
    (full : env.Full bufferSize) {faultA faultB : Option Fault} {contentA contentB : Bytes} {equal : Bool}
    (compared : vdCompareBinaryFiles (openCall faultA (.ok contentA)) (openCall faultB (.ok contentB)) bufferSize env =
      .ok equal) : equal = decide (contentA = contentB) := by
  cases faultA with
  | some fault => cases compared
  | none =>
    cases faultB with
    | some fault => cases compared
    | none => exact vdCompareBinaryFiles_full positive full compared

theorem compareHashes_taken {xxh : Xxh3} {config : Config} {fileA fileB : Except Fault Bytes} {env : CompareEnv}
    (positive : 1 ≤ config.hashBufferSize) (full : env.binary.Full config.hashBufferSize) {equal : Bool}
    (compared : compareHashes xxh config fileA fileB env = .ok equal) :
    ∃ contentA contentB, fileA = .ok contentA ∧ fileB = .ok contentB ∧
      equal = takenEqual xxh config contentA contentB := by
  unfold compareHashes at compared
  split at compared
  · cases compared
  next hashA hashedA =>
    split at compared
    · cases compared
    next hashB hashedB =>
      obtain ⟨contentA, openedA⟩ := hashFileXxh3_opened hashedA
      obtain ⟨contentB, openedB⟩ := hashFileXxh3_opened hashedB
      rw [openedA] at hashedA
      rw [openedB] at hashedB
      obtain rfl := (openCall_ok openedA).2
      obtain rfl := (openCall_ok openedB).2
      refine ⟨contentA, contentB, rfl, rfl, ?_⟩
      rw [hashFileXxh3_ok positive hashedA, hashFileXxh3_ok positive hashedB] at compared
      unfold takenEqual
      -- Different hashes come from different bytes; for equal ones the bytes are compared.
      split at compared
      next differ =>
        cases compared
        have apart : contentA ≠ contentB := fun same => differ (by rw [same])
        simp [differ, apart]
      next same =>
        split at compared
        next verify => rw [if_pos verify, vdCompareBinaryFiles_opened positive full compared]
        next trusting =>
          cases compared
          rw [if_neg trusting, decide_eq_true (not_not.mp same)]

/-- With verification on and full reads the hashes decide nothing that the bytes do not:
a collision is caught by the comparison, and equal bytes have equal hashes. -/
theorem compareHashes_ok {xxh : Xxh3} {config : Config} {fileA fileB : Except Fault Bytes} {env : CompareEnv}
    (positive : 1 ≤ config.hashBufferSize) (verify : config.verifyEqualHashes = true)
    (full : env.binary.Full config.hashBufferSize) {equal : Bool}
    (compared : compareHashes xxh config fileA fileB env = .ok equal) :
    ∃ contentA contentB, fileA = .ok contentA ∧ fileB = .ok contentB ∧
      (equal = true ↔ contentA = contentB) := by
  obtain ⟨contentA, contentB, openedA, openedB, taken⟩ := compareHashes_taken positive full compared
  exact ⟨contentA, contentB, openedA, openedB, by simp [taken, takenEqual, verify]⟩

theorem compareLines_ok {config : Config} {contentA contentB : Bytes} {env : CompareEnv}
    (compared : (compareLines config (.ok contentA) (.ok contentB) env).1 = 0) :
    (compareLines config (.ok contentA) (.ok contentB) env).2.items =
      if config.includeLines && env.textTestA (.ok contentA) && env.textTestB (.ok contentB) then
        differingLines 1 (cutAfter newline contentA) (cutAfter newline contentB)
      else [] := by
  unfold compareLines at compared ⊢
  split at compared
  next asked =>
    simp only [asked, ↓reduceIte]
    rw [detectLineDifferences_ok compared]
    rfl
  next => simp [*, LineDiffVector.zero]

theorem compareLines_listed {config : Config} {contentA contentB : Bytes} {env : CompareEnv}
    (apart : contentA ≠ contentB) (compared : (compareLines config (.ok contentA) (.ok contentB) env).1 = 0) :
    (compareLines config (.ok contentA) (.ok contentB) env).2.items ≠ [] ↔
      config.includeLines = true ∧ env.textTestA (.ok contentA) = true ∧ env.textTestB (.ok contentB) = true := by
  -- Trimming can make two lines look alike, but a differing pair is recorded all the same.
  have some_ : differingLines 1 (cutAfter newline contentA) (cutAfter newline contentB) ≠ [] := fun none =>
    apart (cutAfter_injective (differingLines_nil none))
  rw [compareLines_ok compared, ← and_assoc, ← Bool.and_eq_true, ← Bool.and_eq_true]
  split
  next asked => simp only [asked, some_, ne_eq, not_false_eq_true]
  next unasked => simp only [unasked, ne_eq, not_true_eq_false, Bool.false_eq_true]

/-- The verdict of a call that returns zero: it is `UNCHANGED` exactly for equal files,
and otherwise `MODIFIED` with the detail the sizes, the flags and the text test select. -/
theorem compare_candidate_file_verdict {context : CompareContext} {path : CString} {env : CompareEnv}
    {results : ResultSet} {infoA infoB : FileInfo} {contentA contentB : Bytes}
    (foundA : fileIndexFindConst context.hashPath context.indexA path = some infoA)
    (foundB : fileIndexFindConst context.hashPath context.indexB path = some infoB)
    (holdsA : ∀ content, context.files.openFile (vdJoinPath context.config.rootA path) = .ok content →
      content = contentA)
    (holdsB : ∀ content, context.files.openFile (vdJoinPath context.config.rootB path) = .ok content →
      content = contentB)
    (sizeA : infoA.size = contentA.length) (sizeB : infoB.size = contentB.length)
    (positive : 1 ≤ context.config.hashBufferSize) (verify : context.config.verifyEqualHashes = true)
    (full : env.binary.Full context.config.hashBufferSize)
    (compared : (compareCandidateFile context path env results).1 = 0) :
    let textA := env.textTestA (context.files.openFile (vdJoinPath context.config.rootA path))
    let textB := env.textTestB (context.files.openFile (vdJoinPath context.config.rootB path))
    ∃ outcome, results.Recorded outcome (compareCandidateFile context path env results).2 ∧
      (outcome.type = .unchanged ↔ contentA = contentB) ∧
      (contentA ≠ contentB → ∃ record, outcome = .pushed record ∧ record.path = path ∧
        record.type = .modified ∧ record.sizeA = infoA.size ∧ record.sizeB = infoB.size ∧
        (record.detailKind = .sizeChanged ↔ infoA.size ≠ infoB.size) ∧
        (record.detailKind = .lines ↔
          infoA.size = infoB.size ∧ context.config.includeLines = true ∧ textA = true ∧ textB = true) ∧
        (record.detailKind = .lines → record.lineDiffs.items ≠ []) ∧
        (record.detailKind ≠ .sizeChanged → record.detailKind ≠ .lines →
          record.detailKind = .binaryChanged) ∧
        (record.detailKind ≠ .lines → record.lineDiffs.items = [])) := by
  intro textA textB
  obtain ⟨outcome, verdict, recorded⟩ := compareCandidateFile_ok compared
  refine ⟨outcome, recorded, ?_⟩
  unfold compareVerdict at verdict
  rw [foundA, foundB] at verdict
  simp only at verdict
  split at verdict
  next sizes =>
    cases verdict
    have apart : contentA ≠ contentB := fun same => sizes (by rw [sizeA, sizeB, same])
    refine ⟨by simp [Outcome.type, apart], fun _ => ⟨_, rfl, rfl, rfl, rfl, rfl, ?_⟩⟩
    simp [sizes, LineDiffVector.zero]
  next sizes =>
    simp only [ne_eq, not_not] at sizes
    split at verdict
    · cases verdict
    next =>
      split at verdict
      · cases verdict
      next same =>
        obtain ⟨a, b, openA, openB, equal⟩ := compareHashes_ok positive verify full same
        obtain rfl := holdsA a openA
        obtain rfl := holdsB b openB
        have equalContents := equal.mp rfl
        cases verdict
        refine ⟨?_, fun differ => absurd equalContents differ⟩
        split <;> simp [Outcome.type, equalContents]
      next differ =>
        obtain ⟨a, b, openA, openB, equal⟩ := compareHashes_ok positive verify full differ
        obtain rfl := holdsA a openA
        obtain rfl := holdsB b openB
        have apart : a ≠ b := fun same => by simpa using equal.mpr same
        split at verdict
        · cases verdict
        next rc =>
          cases verdict
          rw [openA, openB] at rc
          simp only [ne_eq, not_not] at rc
          have listed := compareLines_listed apart rc
          simp only [textA, textB, openA, openB]
          refine ⟨by simp [Outcome.type, apart], fun _ => ⟨_, rfl, rfl, rfl, rfl, rfl, ?_⟩⟩
          rw [← listed]
          by_cases empty : (compareLines context.config (.ok a) (.ok b) env).2.items = []
          · simp [empty, sizes]
          · simp [empty, sizes, List.length_pos_iff]

def CompareEnv.quiet (bufferSize : Nat) : CompareEnv :=
  let reads : Nat → ReadResult := fun _ => .upTo bufferSize
  let hash : HashEnv := ⟨none, none, none, true, true, reads⟩
  { joinAOk := true, joinBOk := true, opens := ⟨none, none, none, none, none, none⟩, hashA := hash, hashB := hash
    binary := ⟨true, true, reads, reads⟩
    textA := .upTo 8192, textB := .upTo 8192
    lines := ⟨none, none, fun _ => none, fun _ => none, fun _ => ⟨true, true, true⟩⟩
    push := ⟨true, true⟩ }

/-- Two one-line files of one size under a hash that always collides. -/
theorem compare_candidate_file_verdict_collision :
    let path : CString := ⟨[102], by decide⟩
    let index : FileIndex := ⟨some ⟨path, ⟨path, 2, 0⟩, 0⟩ :: List.replicate 15 none, 16, 1⟩
    let files : FileSystem :=
      ⟨fun _ => .error .ENOENT, fun _ => .error .ENOENT, fun name =>
        .ok (if name.bytes = [97, 47, 102] then [120, 10] else [121, 10])⟩
    let config : Config := ⟨⟨[97], by decide⟩, ⟨[98], by decide⟩, 1, true, true, 1, 0, true⟩
    let context : CompareContext := ⟨config, fun _ => 0, index, index, files, .ofFunction fun _ => 7⟩
    ∃ record, resultSetInit.Extends record
        (compareCandidateFile context path (.quiet 1) resultSetInit).2 ∧
      record.type = .modified ∧ record.detailKind = .lines ∧ record.lineDiffs.items ≠ [] := by
  intro path index files config context
  obtain ⟨outcome, recorded, _, modified⟩ := @compare_candidate_file_verdict context path (.quiet 1) resultSetInit
    ⟨path, 2, 0⟩ ⟨path, 2, 0⟩ [120, 10] [121, 10]
    (by decide +kernel) (by decide +kernel) (fun content opened => (Except.ok.inj opened).symm)
    (fun content opened => (Except.ok.inj opened).symm) rfl rfl (by decide) rfl
    ⟨fun _ => Nat.le_refl 1, fun _ => Nat.le_refl 1⟩ (by decide +kernel)
  obtain ⟨record, rfl, _, type, _, _, _, lines, nonempty, _⟩ := modified (by decide)
  have detail := lines.mpr ⟨rfl, rfl, by decide +kernel, by decide +kernel⟩
  exact ⟨record, recorded, type, detail, nonempty detail⟩

end Verdiff
