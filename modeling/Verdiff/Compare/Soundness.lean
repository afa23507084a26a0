import Verdiff.Compare.Candidate

/-! Files that pass for equal are equal, however the reads come.

A short read can make equal files look different; nothing makes different files look equal.
-/

set_option autoImplicit false

namespace Verdiff

theorem compareBinaryLoop_true {bufferSize : Nat} (positive : 1 ≤ bufferSize) {env : BinaryEnv} {turn : Nat}
    {leftA leftB : Bytes} (same : compareBinaryLoop bufferSize env turn leftA leftB = .ok true) : leftA = leftB := by
  induction leftA using WellFounded.induction (measure List.length).wf generalizing turn leftB with
  | _ leftA ih =>
    rw [compareBinaryLoop] at same
    split at same
    · cases same
    next chunkA restA readA =>
      split at same
      · cases same
      next chunkB restB readB =>
        split at same
        · cases same
        next lengths =>
          simp only [ne_eq, not_not] at lengths
          split at same
          next empty =>
            rw [readChunk_end positive readA empty, readChunk_end positive readB (by rw [← lengths]; exact empty)]
          next nonempty =>
            split at same
            · cases same
            next chunks =>
              rw [readChunk_ok readA, readChunk_ok readB, not_not.mp chunks,
                ih restA (readChunk_decreases readA nonempty) same]

theorem vdCompareBinaryFiles_true {bufferSize : Nat} (positive : 1 ≤ bufferSize) {env : BinaryEnv}
    {faultA faultB : Option Fault} {contentA contentB : Bytes}
    (same : vdCompareBinaryFiles (openCall faultA (.ok contentA)) (openCall faultB (.ok contentB)) bufferSize env =
      .ok true) : contentA = contentB := by
  cases faultA with
  | some fault => cases same
  | none =>
    cases faultB with
    | some fault => cases same
    | none =>
      simp only [openCall, vdCompareBinaryFiles] at same
      split at same
      · cases same
      · exact compareBinaryLoop_true positive same

theorem compareHashes_true {xxh : Xxh3} {config : Config} {fileA fileB : Except Fault Bytes} {env : CompareEnv}
    (positive : 1 ≤ config.hashBufferSize) (verify : config.verifyEqualHashes = true)
    (same : compareHashes xxh config fileA fileB env = .ok true) :
    ∃ content, fileA = .ok content ∧ fileB = .ok content := by
  unfold compareHashes at same
  split at same
  · cases same
  next hashA hashedA =>
    split at same
    · cases same
    next hashB hashedB =>
      obtain ⟨contentA, openedA⟩ := hashFileXxh3_opened hashedA
      obtain ⟨contentB, openedB⟩ := hashFileXxh3_opened hashedB
      obtain rfl := (openCall_ok openedA).2
      obtain rfl := (openCall_ok openedB).2
      split at same
      · cases same
      rw [vdCompareBinaryFiles_true positive same]
      exact ⟨contentB, rfl, rfl⟩

/-- Under any reads a file taken for unchanged has the content of its counterpart. -/
theorem compareVerdict_unchanged {context : CompareContext} {path : CString} {env : CompareEnv} {outcome : Outcome}
    (positive : 1 ≤ context.config.hashBufferSize) (verify : context.config.verifyEqualHashes = true)
    (verdict : compareVerdict context path env = .ok outcome) (unchanged : outcome.type = .unchanged) :
    ∃ content, context.files.openFile (vdJoinPath context.config.rootA path) = .ok content ∧
      context.files.openFile (vdJoinPath context.config.rootB path) = .ok content := by
  unfold compareVerdict at verdict
  split at verdict
  · simp only at verdict
    split at verdict
    · cases verdict
      cases unchanged
    split at verdict
    · cases verdict
    split at verdict
    · cases verdict
    next same => exact compareHashes_true positive verify same
    · split at verdict
      · cases verdict
      · cases verdict
        cases unchanged
  · cases verdict

end Verdiff
