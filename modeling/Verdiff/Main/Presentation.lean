import Verdiff.Main.Mirror

/-! The two presentation flags change what is listed and never a verdict.

Two runs that differ in a flag settle the same once the flag's own part is taken out of
their outcomes. The report takes the same part out, so it shows no more of the difference.
-/

set_option autoImplicit false

namespace Verdiff
open Transition Writer

def ChangeRecord.plain (record : ChangeRecord) : ChangeRecord :=
  { record with detailKind := .none, lineDiffs := .zero }

def Outcome.plain : Outcome → Outcome
  | .pushed record => .pushed record.plain
  | .noted type => .noted type

def TableRow.cells (row : TableRow) : Bytes × Bytes × Bytes × Bytes := (row.path, row.status, row.sizeA, row.sizeB)

theorem Outcome.plain_eq_pushed {outcome : Outcome} {record : ChangeRecord} :
    outcome.plain = .pushed record ↔ ∃ before, outcome = .pushed before ∧ before.plain = record := by
  cases outcome <;> simp [plain]

theorem verdictOf_plain {config other : Config} (unchanged : config.includeUnchanged = other.includeUnchanged)
    (opened opened' : Bool) (path : CString) (infoA infoB : FileInfo) (contentA contentB : Bytes) :
    (verdictOf opened config path infoA infoB contentA contentB).plain =
      (verdictOf opened' other path infoA infoB contentA contentB).plain := by
  unfold verdictOf
  rw [unchanged]
  by_cases sizes : infoA.size = infoB.size
  · by_cases same : contentA = contentB
    · simp only [same, ↓reduceIte]
    · simp only [sizes, same, ne_eq, not_true_eq_false, ↓reduceIte]
      rfl
  · simp only [ne_eq, sizes, not_false_eq_true, ↓reduceIte]

section
variable {context other : PlanContext} {s t : PlanState} {trace later : List PlanEvent}
  {outcome outcome' : CString → Option Outcome} (finished : Finished context s trace) (indexed : context.Indexed)
  (finished' : Finished other t later) (indexed' : other.Indexed)
  (settles : ∀ path entry, (path, entry) ∈ context.settled trace ↔ outcome path = some entry)
  (settles' : ∀ path entry, (path, entry) ∈ other.settled later ↔ outcome' path = some entry)
include finished indexed settles

theorem Finished.mem_changed_plain {record : ChangeRecord} :
    record ∈ (changedRecords s.results).map ChangeRecord.plain ↔
      (outcome record.path).map Outcome.plain = some (.pushed record) ∧ record.type ≠ .unchanged := by
  simp only [List.mem_map, finished.mem_changed indexed settles, Option.map_eq_some_iff, Outcome.plain_eq_pushed]
  constructor
  · rintro ⟨before, ⟨entered, changed⟩, rfl⟩
    exact ⟨⟨_, entered, before, rfl, rfl⟩, changed⟩
  · rintro ⟨⟨_, entered, before, rfl, rfl⟩, changed⟩
    exact ⟨before, ⟨entered, changed⟩, rfl⟩

include finished' indexed' settles'

/-- The same outcomes but for their line differences give the same changes but for these. -/
theorem Finished.changedRecords_plain
    (same : ∀ path, (outcome path).map Outcome.plain = (outcome' path).map Outcome.plain) :
    (changedRecords s.results).map ChangeRecord.plain = (changedRecords t.results).map ChangeRecord.plain := by
  have ascending : ∀ {results : ResultSet} {log : List Outcome}, results.Tracks log →
      Keyed.Ascending ChangeRecord.path ((changedRecords results).map ChangeRecord.plain) := fun tracks =>
    List.pairwise_map.mpr (changedRecords_sorted tracks)
  refine (ascending finished.tracked.tracks).eq_of_mem_iff (ascending finished'.tracked.tracks) fun record => ?_
  rw [finished.mem_changed_plain indexed settles, finished'.mem_changed_plain indexed' settles', same]

end

theorem reportRows_cells (results : ResultSet) : (reportRows results).map TableRow.cells =
    ((changedRecords results).map ChangeRecord.plain).map fun record => (recordRow record).cells := by
  rw [reportRows, List.map_map, List.map_map]
  rfl

/-- Two successful runs on the same two directories have the same counters. If they differ in
`--skip-unchanged` at most, they have the same rows and the same side-by-side sections exactly when the
text tests of the files that are due for line differences could be opened in both or in neither.
If they differ in `--lines` at most, they have the same rows apart from the detail cell. -/
theorem presentation_flags {first second : MainContext} {A B : Directory}
    (firstA : A.ShownBy first.scanA) (firstB : B.ShownBy first.scanB)
    (secondA : A.ShownBy second.scanA) (secondB : B.ShownBy second.scanB)
    {indexA indexB indexA' indexB' : FileIndex} {results results' : ResultSet} {progress progress' : ProgressState}
    (run : MainRun first (FullReads first.config.hashBufferSize) (.compared indexA indexB results progress))
    (run' : MainRun second (FullReads second.config.hashBufferSize) (.compared indexA' indexB' results' progress'))
    (formatTime : Int → Bytes) (now now' : Int) :
    let tested (context : MainContext) (opened : CString → Bool) := MainRun context
      (FullTests context.config.hashBufferSize opened)
    let report := writeDetailedReport recorder formatTime first.config
      (mainStats indexA indexB results now) results []
    let report' := writeDetailedReport recorder formatTime second.config
      (mainStats indexA' indexB' results' now') results' []
    let rows := report.2.filterMap ReportPiece.row?
    let rows' := report'.2.filterMap ReportPiece.row?
    (∀ type, results.counter type = results'.counter type) ∧
    (∃ opened, tested first opened (.compared indexA indexB results progress)) ∧
    (∃ opened', tested second opened' (.compared indexA' indexB' results' progress')) ∧
    (first.options.includeLines = second.options.includeLines →
      ∀ opened opened', tested first opened (.compared indexA indexB results progress) →
        tested second opened' (.compared indexA' indexB' results' progress') →
        ((rows = rows' ∧ report.2.filterMap ReportPiece.side? = report'.2.filterMap ReportPiece.side?) ↔
          ∀ path, first.comparison.LinesDue A B path → opened path = opened' path)) ∧
    (first.options.includeUnchanged = second.options.includeUnchanged →
      rows.map TableRow.cells = rows'.map TableRow.cells) := by
  intro tested report report' rows rows'
  -- Both reports in terms of the changes, listed in order.
  have tables : rows = reportRows results ∧ rows' = reportRows results' := by
    simp only [rows, rows', report, report', recorded_report, reportPieces_rows, and_self]
  have sections : report.2.filterMap ReportPiece.side? = reportSections results ∧
      report'.2.filterMap ReportPiece.side? = reportSections results' := by
    simp only [report, report', recorded_report, reportPieces_sides, and_self]
  refine ⟨counters_agree firstA firstB secondA secondB run run', run.exists_opened firstA firstB,
    run'.exists_opened secondA secondB, fun lines opened opened' told told' => ?_, fun unchanged => ?_⟩
  · rw [tables.1, tables.2, sections.1, sections.2]
    exact changes_agree_iff firstA firstB secondA secondB lines told told'
  · obtain ⟨opened, told⟩ := run.exists_opened firstA firstB
    obtain ⟨opened', told'⟩ := run'.exists_opened secondA secondB
    obtain ⟨ofA, ofB, s, trace, finished, rfl, settles⟩ := told.settled firstA firstB
    obtain ⟨ofA', ofB', t, later, finished', rfl, settles'⟩ := told'.settled secondA secondB
    rw [tables.1, tables.2, reportRows_cells, reportRows_cells,
      finished.changedRecords_plain ⟨ofA.wf, ofB.wf⟩ finished' ⟨ofA'.wf, ofB'.wf⟩ settles settles' fun path =>
        PlanContext.outcomeOf_map (fun _ _ _ _ => verdictOf_plain unchanged _ _ _ _ _ _ _) (ofA.find_eq ofA' path)
          (ofB.find_eq ofB' path)]

/-- One run keeps a record of the equal files, the other one only counts them. -/
theorem presentation_flags_unlisted : ∃ results results' : ResultSet,
    (results.records.length, results'.records.length) = (1, 0) ∧ results.counter .unchanged = 1 ∧
    (∀ type, results.counter type = results'.counter type) ∧
    ((writeDetailedReport recorder (fun _ => []) (samplePair true false true).config
      (mainStats sampleIndexB sampleIndexB results 0) results []).2.filterMap ReportPiece.row?) =
    ((writeDetailedReport recorder (fun _ => []) (samplePair true false false).config
      (mainStats sampleIndexB sampleIndexB results' 0) results' []).2.filterMap ReportPiece.row?) := by
  obtain ⟨counters, _, _, agree, _⟩ := @presentation_flags (samplePair true false true) (samplePair true false false)
    (sampleSide true false) (sampleSide true true) (sampleSide_shown rfl rfl) (sampleSide_shown rfl rfl)
    (sampleSide_shown rfl rfl) (sampleSide_shown rfl rfl) _ _ _ _ _ _ _ _ (samplePair_run true false true false)
    (samplePair_run true false false false) (fun _ => []) 0 0
  obtain ⟨rows, _⟩ := (agree rfl _ _ (samplePair_tested true false true false)
    (samplePair_tested true false false false)).mpr fun _ _ => rfl
  exact ⟨_, _, by decide +kernel, by decide +kernel, counters, rows⟩

/-- Two runs that differ in `--skip-unchanged`. Without a descriptor for its first text test the
second one shows the changed line as `Binary Changed` and has no section for it. -/
theorem presentation_flags_refused : ∃ results results' progress progress',
    (sampleSide false false).ShownBy (samplePair false false true).scanA ∧
    (sampleSide false true).ShownBy (samplePair false false true).scanB ∧
    (sampleSide false false).ShownBy (samplePair false false false).scanA ∧
    (sampleSide false true).ShownBy (samplePair false false false).scanB ∧
    MainRun (samplePair false false true) (FullReads (2 ^ 20)) (.compared sampleIndexB sampleIndexB results progress) ∧
    MainRun (samplePair false false false) (FullReads (2 ^ 20)) (.compared sampleIndexB sampleIndexB results' progress') ∧
    ((writeDetailedReport recorder (fun _ => []) (samplePair false false true).config
      (mainStats sampleIndexB sampleIndexB results 0) results []).2.filterMap ReportPiece.row?) ≠
    ((writeDetailedReport recorder (fun _ => []) (samplePair false false false).config
      (mainStats sampleIndexB sampleIndexB results' 0) results' []).2.filterMap ReportPiece.row?) :=
  ⟨_, _, _, _, sampleSide_shown rfl rfl, sampleSide_shown rfl rfl, sampleSide_shown rfl rfl, sampleSide_shown rfl rfl,
    samplePair_run false false true false, samplePair_run false false false true, by decide +kernel⟩

end Verdiff
