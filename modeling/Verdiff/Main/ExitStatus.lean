import Verdiff.Library.Buffered
import Verdiff.Main.Machine

/-! `main` from the report file to its exit status.

The environment answers each call that writes: what the file takes of the text that is
buffered by then, and whether a write of this call has failed.
-/

set_option autoImplicit false

namespace Verdiff
open Writer Buffered

structure ReportCalls where
  fopen : Option Fault
  report : Nat → Flush
  /-- What `errno` holds when `write_detailed_report` has failed; it can be zero. -/
  reportErrno : Rc
  fclose : Flush
  summary : Nat → Flush
  summaryErrno : Rc

/-- `errno != 0 ? errno : EIO`. -/
def failureCode (errno : Rc) : Rc := if errno ≠ 0 then errno else Fault.EIO.code

section
variable (formatTime : Int → Bytes) (config : Config) (stats : RunStats) (results : ResultSet)
  (reportPath : CString) (calls : ReportCalls)

/-- The code of writing the report, and what the file holds in the end. -/
def writeReportFile : Rc × Bytes :=
  match calls.fopen with
  | some fault => (fault.code, [])
  | none =>
    let (rc, detail) :=
      writeDetailedReport (put ReportPiece.bytes calls.report) formatTime config stats results .opened
    -- Nothing looks at the value `fclose` returns.
    (if rc ≠ 0 then failureCode calls.reportErrno else 0, (close calls.fclose detail).2)

def printSummary : Rc :=
  let (rc, _) := writeSummary (put ReportPiece.bytes calls.summary) formatTime config stats results reportPath .opened
  if rc ≠ 0 then failureCode calls.summaryErrno else 0

/-- The exit status and what has reached the report file; `rc` is the code of the stages before. -/
def mainEnd (rc : Rc) : Nat × Bytes :=
  let (rc, file) := if rc = 0 then writeReportFile formatTime config stats results calls else (rc, [])
  let rc := if rc = 0 then printSummary formatTime config stats results reportPath calls else rc
  (if rc = 0 then 0 else 1, file)

def reportBytes : Bytes :=
  (writeDetailedReport recorder formatTime config stats results []).2.flatMap ReportPiece.bytes

end

/-- One of the calls whose values `main` looks at fails, among so many writes of each report. -/
def ReportCalls.Noticed (calls : ReportCalls) (reportWrites summaryWrites : Nat) : Prop :=
  calls.fopen ≠ none ∨ (∃ k < reportWrites, (calls.report k).ok = false) ∨
    ∃ k < summaryWrites, (calls.summary k).ok = false

/-- The file takes in `fclose` what the writes of these lengths have left in the buffer. -/
def ReportCalls.Drained (calls : ReportCalls) (lengths : List Nat) : Prop :=
  heldAfter calls.report lengths 0 0 ≤ calls.fclose.taken

theorem failureCode_ne_zero (errno : Rc) : failureCode errno ≠ 0 := by
  unfold failureCode
  split
  · assumption
  · exact Fault.EIO.nonzero

theorem checked_zero (rc : Int) (errno : Rc) : (if rc ≠ 0 then failureCode errno else 0) = 0 ↔ rc = 0 := by
  split
  next failed => exact ⟨fun zero => absurd zero (failureCode_ne_zero errno), fun zero => absurd zero failed⟩
  next done => exact ⟨fun _ => not_not.mp done, fun _ => rfl⟩

section
variable (formatTime : Int → Bytes) (config : Config) (stats : RunStats) (results : ResultSet)
  (reportPath : CString) (calls : ReportCalls)

theorem reportBytes_eq : reportBytes formatTime config stats results =
    (reportPieces formatTime config stats results).flatMap ReportPiece.bytes := by
  rw [reportBytes, recorded_report]

theorem writeReportFile_zero : (writeReportFile formatTime config stats results calls).1 = 0 ↔
    calls.fopen = none ∧ ∀ k < (reportPieces formatTime config stats results).length, (calls.report k).ok = true := by
  unfold writeReportFile
  cases calls.fopen with
  | some fault => simp [fault.nonzero]
  | none =>
    have succeeds : (putAll (put ReportPiece.bytes calls.report) (reportPieces formatTime config stats results)
      .opened).1 = 0 ↔ _ := putAll_succeeds _ _
    simp only [Stream.opened, Nat.zero_add] at succeeds
    simp only [writeDetailedReport_eq, checked_zero, true_and]
    exact succeeds

theorem writeReportFile_bytes (done : (writeReportFile formatTime config stats results calls).1 = 0) :
    (writeReportFile formatTime config stats results calls).2 = reportBytes formatTime config stats results ↔
      calls.Drained ((reportPieces formatTime config stats results).map fun piece => piece.bytes.length) := by
  rw [reportBytes_eq]
  unfold writeReportFile at done ⊢
  cases opened : calls.fopen with
  | some fault =>
    rw [opened] at done
    exact absurd done fault.nonzero
  | none =>
    rw [opened] at done
    simp only [writeDetailedReport_eq, checked_zero] at done ⊢
    exact close_putAll done calls.fclose

theorem printSummary_zero : printSummary formatTime config stats results reportPath calls = 0 ↔
    ∀ k < (summaryPieces formatTime config stats results reportPath).length, (calls.summary k).ok = true := by
  have succeeds : (putAll (put ReportPiece.bytes calls.summary)
    (summaryPieces formatTime config stats results reportPath) .opened).1 = 0 ↔ _ := putAll_succeeds _ _
  simp only [Stream.opened, Nat.zero_add] at succeeds
  simp only [printSummary, writeSummary_eq, checked_zero]
  exact succeeds

theorem not_noticed_iff : ¬calls.Noticed (reportPieces formatTime config stats results).length
      (summaryPieces formatTime config stats results reportPath).length ↔
    (writeReportFile formatTime config stats results calls).1 = 0 ∧
      printSummary formatTime config stats results reportPath calls = 0 := by
  rw [writeReportFile_zero, printSummary_zero, ReportCalls.Noticed]
  simp [and_assoc]

theorem mainEnd_status (rc : Rc) : (mainEnd formatTime config stats results reportPath calls rc).1 = 0 ↔
    rc = 0 ∧ (writeReportFile formatTime config stats results calls).1 = 0 ∧
      printSummary formatTime config stats results reportPath calls = 0 := by
  by_cases before : rc = 0
  · by_cases done : (writeReportFile formatTime config stats results calls).1 = 0
    · simp [mainEnd, before, done]
    · simp [mainEnd, before, done]
  · simp [mainEnd, before]

theorem mainEnd_file : (mainEnd formatTime config stats results reportPath calls 0).2 =
    (writeReportFile formatTime config stats results calls).2 := rfl

/-- The exit status vouches for the report exactly where a failure is noticed anyway or `fclose`
writes out all that is left. -/
theorem main_report_reaches (rc : Rc) :
    ((mainEnd formatTime config stats results reportPath calls rc).1 = 0 →
      (mainEnd formatTime config stats results reportPath calls rc).2 =
        reportBytes formatTime config stats results) ↔
    rc ≠ 0 ∨ calls.Noticed (reportPieces formatTime config stats results).length
        (summaryPieces formatTime config stats results reportPath).length ∨
      calls.Drained ((reportPieces formatTime config stats results).map fun piece => piece.bytes.length) := by
  have status := mainEnd_status formatTime config stats results reportPath calls rc
  rw [← not_noticed_iff] at status
  by_cases ended : (mainEnd formatTime config stats results reportPath calls rc).1 = 0
  · obtain ⟨rfl, unnoticed⟩ := status.mp ended
    have done := ((not_noticed_iff ..).mp unnoticed).1
    rw [mainEnd_file, writeReportFile_bytes _ _ _ _ _ done]
    simp [ended, unnoticed]
  · have failed : rc ≠ 0 ∨ calls.Noticed (reportPieces formatTime config stats results).length
        (summaryPieces formatTime config stats results reportPath).length := by
      rcases not_and_or.mp ((not_congr status).mp ended) with before | noticed
      · exact .inl before
      · exact .inr (not_not.mp noticed)
    exact ⟨fun _ => or_assoc.mp (.inl failed), fun _ zero => absurd zero ended⟩

end

/-- A report that fits in the buffer, on a file that takes nothing. -/
def refusedFile : ReportCalls where
  fopen := none
  report _ := ⟨0, true⟩
  reportErrno := 0
  fclose := ⟨0, false⟩
  summary _ := ⟨0, true⟩
  summaryErrno := 0

def twoEmptyRoots : Config where
  rootA := ⟨ascii "left", by decide⟩
  rootB := ⟨ascii "right", by decide⟩
  threadCount := 4
  includeLines := false
  includeUnchanged := true
  hashBufferSize := 2 ^ 20
  mmapThreshold := 16 * 2 ^ 20
  verifyEqualHashes := true

/-- Two empty directories: the status is zero although no byte of the report has arrived. -/
theorem main_report_reaches_refused :
    ¬((mainEnd (fun _ => []) twoEmptyRoots ⟨0, 0, 0, 0⟩ resultSetInit ⟨ascii "report", by decide⟩ refusedFile 0).1 = 0 →
      (mainEnd (fun _ => []) twoEmptyRoots ⟨0, 0, 0, 0⟩ resultSetInit ⟨ascii "report", by decide⟩ refusedFile 0).2 =
        reportBytes (fun _ => []) twoEmptyRoots ⟨0, 0, 0, 0⟩ resultSetInit) := by
  decide +kernel

end Verdiff
