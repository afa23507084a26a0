import Verdiff.Library.Writer
import Verdiff.Output.Text
import Verdiff.Results

/-! The summary and the detailed report.

A piece is what one call of `fputs` or `fprintf` writes, and `bytes` is its text. Totals,
table rows and the parts of a side-by-side section keep their values, so that a report
can be read back.
-/

set_option autoImplicit false

namespace Verdiff
open Writer

structure RunStats where
  filesInA : Nat
  filesInB : Nat
  totalFilesScanned : Nat
  scanTime : Int
  deriving DecidableEq

structure TableRow where
  path : Bytes
  status : Bytes
  sizeA : Bytes
  sizeB : Bytes
  detail : Bytes
  deriving DecidableEq

inductive SectionPiece where
  | head (path : CString) (status : Bytes)
  | text (bytes : Bytes)
  | line (lineNumber : Nat) (left right : Bytes)
  deriving DecidableEq

inductive ReportPiece where
  | text (bytes : Bytes)
  | total (label : Bytes) (value : Nat) (ending : Bytes)
  | row (cells : TableRow)
  | side (part : SectionPiece)
  deriving DecidableEq

def TableRow.bytes (cells : TableRow) : Bytes :=
  ascii "| " ++ padRight 22 cells.path ++ ascii " | " ++ padRight 10 cells.status ++ ascii " | " ++
    padRight 12 cells.sizeA ++ ascii " | " ++ padRight 12 cells.sizeB ++ ascii " | " ++
    padRight 37 cells.detail ++ ascii " |\n"

def SectionPiece.bytes : SectionPiece → Bytes
  | .head path status => ascii "\nFile: " ++ path.bytes ++ ascii "\nStatus: " ++ status ++ ascii "\n\n"
  | .text bytes => bytes
  | .line lineNumber left right =>
    ascii "| " ++ padRight 4 (decimal lineNumber) ++ ascii " | " ++ padRight 36 left ++ ascii " | " ++
      padRight 36 right ++ ascii " |\n"

namespace ReportPiece

def bytes : ReportPiece → Bytes
  | .text bytes => bytes
  | .total label value ending => label ++ decimal value ++ ending
  | .row cells => cells.bytes
  | .side part => part.bytes

def total? : ReportPiece → Option Nat
  | .total _ value _ => some value
  | _ => none

def row? : ReportPiece → Option TableRow
  | .row cells => some cells
  | _ => none

def side? : ReportPiece → Option SectionPiece
  | .side part => some part
  | _ => none

end ReportPiece

def SectionPiece.line? : SectionPiece → Option (Nat × Bytes × Bytes)
  | .line lineNumber left right => some (lineNumber, left, right)
  | _ => none

/-! ## The two visitors -/

def recordAt (results : ResultSet) (recordIndex : Nat) : ChangeRecord := results.items.getD recordIndex default

/-- The cells of a record's row; the detail buffer is filled before it is read. -/
def recordRow (record : ChangeRecord) : TableRow where
  path := clipText record.path.bytes 22 48
  status := statusName record.type
  sizeA := if record.type = .added then ascii "-" else formatSize record.sizeA 32
  sizeB := if record.type = .removed then ascii "-" else formatSize record.sizeB 32
  detail := cText (formatLineSummary record (List.replicate 512 0) 512)

def ruler : Bytes := List.replicate 111 45 ++ ascii "\n"

def doubleRuler : Bytes := List.replicate 90 61 ++ ascii "\n"

def summaryRuler : Bytes := List.replicate 90 45 ++ ascii "\n"

def sectionLine (diff : LineDiff) : SectionPiece :=
  .line diff.lineNumber (clipText diff.left 36 40) (clipText diff.right 36 40)

/-- The calls of `write_detailed_diff` for a record with line differences. -/
def sectionParts (record : ChangeRecord) : List SectionPiece :=
  [.head record.path (statusName record.type), .text ruler,
    .text (ascii "| LINE | FILE A                               | FILE B                               |\n"),
    .text ruler] ++ record.lineDiffs.items.map sectionLine ++ [.text ruler]

section
variable {σ : Type} (put : Sink ReportPiece σ)

def writeRecordRow (results : ResultSet) (recordIndex : Nat) (state : σ) : Int × σ :=
  let record := recordAt results recordIndex
  if record.type = .unchanged then (0, state) else putAll put [.row (recordRow record)] state

def writeDetailedDiff (results : ResultSet) (recordIndex : Nat) (state : σ) : Int × σ :=
  let record := recordAt results recordIndex
  if record.detailKind ≠ .lines ∨ record.lineDiffs.items.length = 0 then (0, state)
  else putAll put ((sectionParts record).map .side) state

/-! ## The reports -/

/-- `formatTime` is what `localtime_r` and `strftime` make of a time. -/
def headerPieces (formatTime : Int → Bytes) (config : Config) (stats : RunStats) : List ReportPiece :=
  [.text doubleRuler, .text (ascii "                                 VERDIFF COMPARISON REPORT\n"),
    .text (doubleRuler ++ ascii "\n"),
    .text (ascii "Source Directory : " ++ config.rootA.bytes ++ ascii "\n"),
    .text (ascii "Target Directory : " ++ config.rootB.bytes ++ ascii "\n"),
    .text (ascii "Scan Time        : " ++ formatTime stats.scanTime ++ ascii "\n"),
    .text (ascii "Threads Used     : " ++ decimal config.threadCount ++ ascii "\n\n")]

def writeReportHeader (formatTime : Int → Bytes) (config : Config) (stats : RunStats) : σ → Int × σ :=
  putAll put (headerPieces formatTime config stats)

def totalPieces (stats : RunStats) (results : ResultSet) : List ReportPiece :=
  [.text (summaryRuler ++ ascii "SUMMARY\n" ++ summaryRuler),
    .total (ascii "Total Files Scanned   : ") stats.totalFilesScanned (ascii "\n"),
    .total (ascii "Unchanged Files       : ") results.unchangedCount (ascii "\n"),
    .total (ascii "Modified Files        : ") results.modifiedCount (ascii "\n"),
    .total (ascii "Added Files           : ") results.addedCount (ascii "\n"),
    .total (ascii "Removed Files         : ") results.removedCount (ascii "\n\n")]

def writeSummary (formatTime : Int → Bytes) (config : Config) (stats : RunStats) (results : ResultSet)
    (reportPath : CString) : σ → Int × σ :=
  andThen (writeReportHeader put formatTime config stats) <|
    putAll put (totalPieces stats results ++
      [.text (ascii "Detailed Report File  : " ++ reportPath.bytes ++ ascii "\n"),
        .text (ascii "\n" ++ doubleRuler ++ ascii "END OF SUMMARY\n" ++ doubleRuler)])

def tableHead : List ReportPiece :=
  [.text (doubleRuler ++ ascii "DETAILED COMPARISON\n" ++ doubleRuler ++ ascii "\n"), .text ruler,
    .text (ascii "| FILE PATH              | STATUS     | SIZE (FILE A) | SIZE (FILE B) | LINE DIFFERENCES                      |\n"),
    .text (ruler ++ ascii "\n")]

def tableEnd : List ReportPiece :=
  [.text (ascii "\n" ++ ruler ++ ascii "\n"),
    .text (doubleRuler ++ ascii "SIDE-BY-SIDE LINE DIFFERENCE (DETAILED VIEW)\n" ++ doubleRuler)]

def reportEnd : List ReportPiece := [.text (ascii "\n" ++ doubleRuler ++ ascii "END OF REPORT\n" ++ doubleRuler)]

def writeDetailedReport (formatTime : Int → Bytes) (config : Config) (stats : RunStats)
    (results : ResultSet) : σ → Int × σ :=
  andThen (writeReportHeader put formatTime config stats) <|
    andThen (putAll put (totalPieces stats results ++ tableHead)) <|
      andThen (pathTreeInorder (writeRecordRow put results) results.orderedRoot) <|
        andThen (putAll put tableEnd) <|
          andThen (pathTreeInorder (writeDetailedDiff put results) results.orderedRoot) <|
            putAll put reportEnd

end

/-! ## What a report says -/

/-- The records in the order of the tree. -/
def orderedRecords (results : ResultSet) : List ChangeRecord :=
  results.orderedRoot.inorder.map (recordAt results)

def changedRecords (results : ResultSet) : List ChangeRecord :=
  (orderedRecords results).filter fun record => record.type ≠ .unchanged

def detailedRecords (results : ResultSet) : List ChangeRecord :=
  (orderedRecords results).filter fun record => record.detailKind = .lines ∧ record.lineDiffs.items ≠ []

def reportRows (results : ResultSet) : List TableRow := (changedRecords results).map recordRow

def reportSections (results : ResultSet) : List SectionPiece := (detailedRecords results).flatMap sectionParts

def summaryPieces (formatTime : Int → Bytes) (config : Config) (stats : RunStats) (results : ResultSet)
    (reportPath : CString) : List ReportPiece :=
  headerPieces formatTime config stats ++ (totalPieces stats results ++
    [.text (ascii "Detailed Report File  : " ++ reportPath.bytes ++ ascii "\n"),
      .text (ascii "\n" ++ doubleRuler ++ ascii "END OF SUMMARY\n" ++ doubleRuler)])

def reportPieces (formatTime : Int → Bytes) (config : Config) (stats : RunStats) (results : ResultSet) :
    List ReportPiece :=
  headerPieces formatTime config stats ++ (totalPieces stats results ++ tableHead ++
    ((reportRows results).map .row ++ (tableEnd ++ ((reportSections results).map .side ++ reportEnd))))

section
variable {σ : Type} (put : Sink ReportPiece σ)

theorem pathTreeInorder_eq_putAll {visitor : Nat → σ → Int × σ} {pieces : Nat → List ReportPiece}
    (puts : ∀ i, visitor i = putAll put (pieces i)) (tree : PathTree) :
    pathTreeInorder visitor tree = putAll put (tree.inorder.flatMap pieces) := by
  funext state
  rw [pathTreeInorder_eq_visitAll]
  generalize tree.inorder = indexes
  induction indexes generalizing state with
  | nil => rfl
  | cons i rest ih =>
    simp only [List.flatMap_cons, putAll_append, visitAll, puts i, andThen, ih]
    -- The traversal passes on the code that `andThen` gives.
    split
    next failed => rw [(putAll_rc (pieces i) state).resolve_left failed]
    next => rfl

theorem writeRecordRow_eq (results : ResultSet) (i : Nat) : writeRecordRow put results i = putAll put
    (if (recordAt results i).type ≠ .unchanged then [.row (recordRow (recordAt results i))] else []) := by
  funext state
  by_cases unchanged : (recordAt results i).type = .unchanged
  · simp only [writeRecordRow, unchanged, ne_eq, not_true_eq_false, ↓reduceIte, putAll]
  · simp only [writeRecordRow, unchanged, ne_eq, not_false_eq_true, ↓reduceIte]

theorem writeDetailedDiff_eq (results : ResultSet) (i : Nat) : writeDetailedDiff put results i = putAll put
    (if (recordAt results i).detailKind = .lines ∧ (recordAt results i).lineDiffs.items ≠ [] then
      (sectionParts (recordAt results i)).map .side else []) := by
  funext state
  by_cases listed : (recordAt results i).detailKind = .lines ∧ (recordAt results i).lineDiffs.items ≠ []
  · simp [writeDetailedDiff, listed]
  · have skipped : (recordAt results i).detailKind ≠ .lines ∨
        (recordAt results i).lineDiffs.items.length = 0 := by
      rw [List.length_eq_zero_iff]
      exact (Classical.not_and_iff_not_or_not.mp listed).imp_right Classical.not_not.mp
    simp only [writeDetailedDiff, skipped, listed, ↓reduceIte, putAll]

section
variable (formatTime : Int → Bytes) (config : Config) (stats : RunStats) (results : ResultSet)

theorem writeSummary_eq (reportPath : CString) : writeSummary put formatTime config stats results reportPath =
    putAll put (summaryPieces formatTime config stats results reportPath) := by
  rw [summaryPieces, putAll_append]
  rfl

/-- Whatever the stream does, the calls of a report are its pieces in order, up to the first failure. -/
theorem writeDetailedReport_eq : writeDetailedReport put formatTime config stats results =
    putAll put (reportPieces formatTime config stats results) := by
  have rows := pathTreeInorder_eq_putAll put (writeRecordRow_eq put results) results.orderedRoot
  have sections := pathTreeInorder_eq_putAll put (writeDetailedDiff_eq put results) results.orderedRoot
  -- Selecting in the visitor is selecting from the records in order.
  have rowPieces := flatMap_selected (recordAt results) (fun record => record.type ≠ .unchanged)
    (fun record => [ReportPiece.row (recordRow record)]) results.orderedRoot.inorder
  have sectionPieces := flatMap_selected (recordAt results)
    (fun record => record.detailKind = .lines ∧ record.lineDiffs.items ≠ [])
    (fun record => (sectionParts record).map ReportPiece.side) results.orderedRoot.inorder
  rw [rowPieces, ← List.map_eq_flatMap] at rows
  rw [sectionPieces, ← List.map_flatMap] at sections
  rw [writeDetailedReport, rows, sections, reportPieces, reportRows, List.map_map]
  simp only [putAll_append]
  rfl

end

end

section
variable {σ : Type} {put : Sink ReportPiece σ} (accepting : Accepting put) (formatTime : Int → Bytes)
  (config : Config) (stats : RunStats) (results : ResultSet)
include accepting

theorem writeSummary_writes (reportPath : CString) :
    Writes put (writeSummary put formatTime config stats results reportPath)
      (summaryPieces formatTime config stats results reportPath) :=
  writeSummary_eq put formatTime config stats results reportPath ▸ .putAll accepting _

theorem writeDetailedReport_writes : Writes put (writeDetailedReport put formatTime config stats results)
    (reportPieces formatTime config stats results) :=
  writeDetailedReport_eq put formatTime config stats results ▸ .putAll accepting _

end

theorem recorded_summary (formatTime : Int → Bytes) (config : Config) (stats : RunStats) (results : ResultSet)
    (reportPath : CString) : writeSummary recorder formatTime config stats results reportPath [] =
      (0, summaryPieces formatTime config stats results reportPath) := by
  rw [writeSummary_writes recorder_accepting, feed_recorder, List.nil_append]

theorem recorded_report (formatTime : Int → Bytes) (config : Config) (stats : RunStats) (results : ResultSet) :
    writeDetailedReport recorder formatTime config stats results [] =
      (0, reportPieces formatTime config stats results) := by
  rw [writeDetailedReport_writes recorder_accepting, feed_recorder, List.nil_append]

/-! ## Reading a report back -/

def totals (stats : RunStats) (results : ResultSet) : List Nat :=
  [stats.totalFilesScanned, results.unchangedCount, results.modifiedCount, results.addedCount,
    results.removedCount]

section
variable (formatTime : Int → Bytes) (config : Config) (stats : RunStats) (results : ResultSet)

theorem reportPieces_rows :
    (reportPieces formatTime config stats results).filterMap ReportPiece.row? = reportRows results := by
  have rows : ((reportRows results).map ReportPiece.row).filterMap ReportPiece.row? = reportRows results := by
    have reads : ∀ cells, ReportPiece.row? (.row cells) = some (id cells) := fun _ => rfl
    rw [filterMap_map_some reads, List.map_id]
  have sections : ((reportSections results).map ReportPiece.side).filterMap ReportPiece.row? = [] :=
    filterMap_map_none (fun _ => rfl) _
  simp only [reportPieces, List.filterMap_append, rows, sections]
  simp [headerPieces, totalPieces, tableHead, tableEnd, reportEnd, ReportPiece.row?, List.filterMap_cons]

theorem reportPieces_sides :
    (reportPieces formatTime config stats results).filterMap ReportPiece.side? = reportSections results := by
  have rows : ((reportRows results).map ReportPiece.row).filterMap ReportPiece.side? = [] :=
    filterMap_map_none (fun _ => rfl) _
  have sections :
      ((reportSections results).map ReportPiece.side).filterMap ReportPiece.side? = reportSections results := by
    have reads : ∀ part, ReportPiece.side? (.side part) = some (id part) := fun _ => rfl
    rw [filterMap_map_some reads, List.map_id]
  simp only [reportPieces, List.filterMap_append, rows, sections]
  simp [headerPieces, totalPieces, tableHead, tableEnd, reportEnd, ReportPiece.side?, List.filterMap_cons]

theorem reportPieces_totals :
    (reportPieces formatTime config stats results).filterMap ReportPiece.total? = totals stats results := by
  have rows : ((reportRows results).map ReportPiece.row).filterMap ReportPiece.total? = [] :=
    filterMap_map_none (fun _ => rfl) _
  have sections : ((reportSections results).map ReportPiece.side).filterMap ReportPiece.total? = [] :=
    filterMap_map_none (fun _ => rfl) _
  simp only [reportPieces, List.filterMap_append, rows, sections]
  simp [headerPieces, totalPieces, tableHead, tableEnd, reportEnd, totals, ReportPiece.total?,
    List.filterMap_cons]

theorem summaryPieces_totals (reportPath : CString) :
    (summaryPieces formatTime config stats results reportPath).filterMap ReportPiece.total? =
      totals stats results := by
  simp [summaryPieces, headerPieces, totalPieces, totals, ReportPiece.total?, List.filterMap_cons]

end

theorem sectionParts_lines (record : ChangeRecord) :
    (sectionParts record).filterMap SectionPiece.line? = record.lineDiffs.items.map fun diff =>
      (diff.lineNumber, clipText diff.left 36 40, clipText diff.right 36 40) := by
  have reads : ∀ diff, SectionPiece.line? (sectionLine diff) =
      some (diff.lineNumber, clipText diff.left 36 40, clipText diff.right 36 40) := fun _ => rfl
  simp only [sectionParts, List.filterMap_append, filterMap_map_some reads]
  simp [SectionPiece.line?, List.filterMap_cons]

/-! ## The records in order -/

section
variable {results : ResultSet} {log : List Outcome}

theorem recordAt_getElem (results : ResultSet) {i : Nat} (inside : i < results.records.length) :
    recordAt results i = results.records[i] := by
  have written : i < results.items.length := by
    have := List.length_take_le' results.count results.items
    exact inside.trans_le this
  simp [recordAt, ResultSet.records, written]

theorem recordAt_path (tracks : results.Tracks log) {i : Nat} (inside : i < results.count) :
    (recordAt results i).path = recordPath results.records i := by
  have inside : i < results.records.length := by rwa [tracks.length_records]
  simp [recordAt_getElem results inside, recordPath, inside]

theorem orderedRecords_ascending (tracks : results.Tracks log) :
    Keyed.Ascending ChangeRecord.path (orderedRecords results) := by
  rw [orderedRecords, Keyed.Ascending, List.pairwise_map]
  refine tracks.ordered.imp_of_mem fun first second less => ?_
  rwa [recordAt_path tracks ((tracks.latest _).mp first).1, recordAt_path tracks ((tracks.latest _).mp second).1]

theorem mem_orderedRecords (tracks : results.Tracks log)
    (distinct : (results.records.map ChangeRecord.path).Nodup) {record : ChangeRecord} :
    record ∈ orderedRecords results ↔ record ∈ results.records := by
  have length := tracks.length_records
  have newest : ∀ i, i ∈ results.orderedRoot.inorder ↔ i < results.records.length := by
    intro i
    rw [tracks.latest, length]
    refine ⟨fun both => both.1, fun inside => ⟨inside, fun j above below same => ?_⟩⟩
    have first : i < (results.records.map ChangeRecord.path).length := by simpa [length] using inside
    have second : j < (results.records.map ChangeRecord.path).length := by simpa [length] using below
    have equal : j = i := (@List.Nodup.getElem_inj_iff _ _ distinct j second i first).mp (by
      simpa [recordPath, length, inside, below] using same)
    omega
  rw [orderedRecords, List.mem_map]
  constructor
  · rintro ⟨i, member, rfl⟩
    rw [recordAt_getElem results ((newest i).mp member)]
    exact List.getElem_mem _
  · intro member
    obtain ⟨i, inside, rfl⟩ := List.mem_iff_getElem.mp member
    exact ⟨i, (newest i).mpr inside, recordAt_getElem results inside⟩

end

end Verdiff
