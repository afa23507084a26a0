import Verdiff.Main.Agreement
import Verdiff.Main.Comparison

/-! Two runs of `main` on the same directories report the same, except for what their text tests could not open.

They may differ in the number of threads, in every interleaving and in the order in which
`readdir` has yielded the entries. A text test that cannot open its file answers like one that has
found a binary one, and no code tells the two apart.
-/

set_option autoImplicit false

namespace Verdiff
open Writer

def Outcome.unlisted : Outcome → Outcome
  | .pushed record => if record.type = .unchanged then .noted .unchanged else .pushed record
  | .noted type => .noted type

theorem Outcome.unlisted_eq_pushed {outcome : Outcome} {record : ChangeRecord} :
    outcome.unlisted = .pushed record ↔ outcome = .pushed record ∧ record.type ≠ .unchanged := by
  cases outcome with
  | noted type => simp [unlisted]
  | pushed other =>
    by_cases unchanged : other.type = .unchanged
    · simp only [unlisted, unchanged, ↓reduceIte, reduceCtorEq, Outcome.pushed.injEq, ne_eq, false_iff, not_and,
        not_not]
      rintro rfl
      exact unchanged
    · simp only [unlisted, unchanged, ↓reduceIte, Outcome.pushed.injEq, ne_eq, iff_self_and]
      rintro rfl
      exact unchanged

/-! ## What the reports show of the outcomes -/

theorem changedRecords_sorted {results : ResultSet} {log : List Outcome} (tracks : results.Tracks log) :
    Keyed.Ascending ChangeRecord.path (changedRecords results) :=
  (orderedRecords_ascending tracks).filter _

theorem head_mem_sectionParts {path : CString} {status : Bytes} {record : ChangeRecord} :
    SectionPiece.head path status ∈ sectionParts record ↔ path = record.path ∧ status = statusName record.type := by
  simp [sectionParts, sectionLine]

section
variable {context other : PlanContext} {s t : PlanState} {trace later : List PlanEvent}
  {outcome outcome' : CString → Option Outcome} (finished : Finished context s trace) (indexed : context.Indexed)
  (finished' : Finished other t later) (indexed' : other.Indexed)
  (settles : ∀ path entry, (path, entry) ∈ context.settled trace ↔ outcome path = some entry)
  (settles' : ∀ path entry, (path, entry) ∈ other.settled later ↔ outcome' path = some entry)
include finished indexed settles

theorem Finished.mem_changed {record : ChangeRecord} : record ∈ changedRecords s.results ↔
    outcome record.path = some (.pushed record) ∧ record.type ≠ .unchanged := by
  rw [finished.mem_changedRecords indexed, finished.mem_records indexed, settles]

theorem Finished.head_mem_sections {path : CString} :
    (∃ status, SectionPiece.head path status ∈ reportSections s.results) ↔
      ∃ record, outcome path = some (.pushed record) ∧ record.path = path ∧ record.detailKind = .lines := by
  simp only [reportSections, finished.detailedRecords_eq indexed, List.mem_flatMap, List.mem_filter, decide_eq_true_eq,
    finished.mem_changed indexed settles, head_mem_sectionParts]
  constructor
  · rintro ⟨_, record, ⟨⟨entered, _⟩, lines⟩, rfl, rfl⟩
    exact ⟨record, entered, rfl, lines⟩
  · rintro ⟨record, entered, rfl, lines⟩
    have recorded := (finished.mem_records indexed).mpr ((settles _ _).mpr entered)
    obtain ⟨modified, _⟩ := finished.lines indexed recorded lines
    exact ⟨_, record, ⟨⟨entered, by simp [modified]⟩, lines⟩, rfl, rfl⟩

include finished' indexed' settles'

theorem Finished.counter_view {view : ChangeType → ChangeType} (injective : view.Injective)
    (same : ∀ path, (outcome path).map (fun entry => view entry.type) = (outcome' path).map Outcome.type)
    (type : ChangeType) : s.results.counter type = t.results.counter (view type) := by
  have permuted := settled_perm_map (fun entry => view entry.type) Outcome.type finished indexed finished' indexed'
    settles settles' same
  have counted := permuted.countP_eq fun entry => entry.2 = view type
  simp only [List.countP_map, Function.comp_def, injective.eq_iff] at counted
  rw [finished.counter, finished'.counter, counted]

/-- The same outcomes but for the listing of equal pairs give the same changes in order. -/
theorem Finished.changedRecords_eq
    (same : ∀ path, (outcome path).map Outcome.unlisted = (outcome' path).map Outcome.unlisted) :
    changedRecords s.results = changedRecords t.results := by
  have seen : ∀ {found : Option Outcome} {record : ChangeRecord}, found.map Outcome.unlisted = some (.pushed record) ↔
      found = some (.pushed record) ∧ record.type ≠ .unchanged := by
    intro found record
    cases found with
    | none => simp
    | some entry => simp only [Option.map_some, Option.some.injEq, Outcome.unlisted_eq_pushed]
  refine (changedRecords_sorted finished.tracked.tracks).eq_of_mem_iff
    (changedRecords_sorted finished'.tracked.tracks) fun record => ?_
  rw [finished.mem_changed indexed settles, finished'.mem_changed indexed' settles', ← seen, ← seen, same]

end

/-! ## Two runs on the same directories -/

theorem verdictOf_type (opened : Bool) (config : Config) (path : CString) (infoA infoB : FileInfo)
    (contentA contentB : Bytes) : (verdictOf opened config path infoA infoB contentA contentB).type =
      if infoA.size = infoB.size ∧ contentA = contentB then .unchanged else .modified := by
  unfold verdictOf
  by_cases sizes : infoA.size = infoB.size
  · by_cases same : contentA = contentB
    · cases config.includeUnchanged <;> simp [sizes, same, Outcome.type]
    · simp [sizes, same, Outcome.type]
  · simp [sizes, Outcome.type]

theorem verdictOf_unlisted {config other : Config} (lines : config.includeLines = other.includeLines) (opened : Bool)
    (path : CString) (infoA infoB : FileInfo) (contentA contentB : Bytes) :
    (verdictOf opened config path infoA infoB contentA contentB).unlisted =
      (verdictOf opened other path infoA infoB contentA contentB).unlisted := by
  unfold verdictOf lineDiffsOf
  rw [lines]
  by_cases sizes : infoA.size = infoB.size
  · by_cases same : contentA = contentB
    · simp only [sizes, same, ne_eq, not_true_eq_false, ↓reduceIte]
      -- Listed or only counted, an equal pair is the same verdict.
      cases config.includeUnchanged <;> cases other.includeUnchanged <;> rfl
    · simp only [same, ↓reduceIte]
  · simp only [ne_eq, sizes, not_false_eq_true, ↓reduceIte]

theorem PlanContext.outcomeOf_map {context other : PlanContext} {View : Type} {view : Outcome → View}
    {contents : PairContents} {opened opened' : Bool} {path : CString}
    (verdicts : ∀ infoA infoB contentA contentB,
      view (verdictOf opened context.config path infoA infoB contentA contentB) =
        view (verdictOf opened' other.config path infoA infoB contentA contentB))
    (inA : context.findA path = other.findA path) (inB : context.findB path = other.findB path) :
    (context.outcomeOf contents opened path).map view = (other.outcomeOf contents opened' path).map view := by
  unfold PlanContext.outcomeOf
  rw [inA, inB]
  cases other.findA path with
  | none => cases other.findB path <;> rfl
  | some infoA =>
    cases other.findB path with
    | none => rfl
    | some infoB => exact congrArg some (verdicts _ _ _ _)

theorem Comparison.LinesDue.congr {first second : MainContext} {A B : Directory}
    (lines : first.options.includeLines = second.options.includeLines) {path : CString}
    (due : first.comparison.LinesDue A B path) : second.comparison.LinesDue A B path := by
  obtain ⟨infoA, infoB, inA, inB, due⟩ := due
  exact ⟨infoA, infoB, inA, inB, lines.symm.trans due.asked, due.sizes, due.apart, due.textA, due.textB⟩

section
variable {context first second : MainContext} {A B : Directory} {opened opened' : CString → Bool}
  {indexA indexB indexA' indexB' : FileIndex} {results results' : ResultSet} {progress progress' : ProgressState}

theorem MainRun.exists_opened (shownA : A.ShownBy context.scanA) (shownB : B.ShownBy context.scanB)
    (run : MainRun context (FullReads context.config.hashBufferSize) (.compared indexA indexB results progress)) :
    ∃ opened, MainRun context (FullTests context.config.hashBufferSize opened)
      (.compared indexA indexB results progress) := by
  obtain ⟨ofA, ofB, _⟩ := run.sound shownA.toScannable shownB.toScannable
  cases run with
  | compared earlier plan returned =>
    have finished := PlanRun.finished (plan.weaken fun _ _ full => full.locksSucceed) returned
    obtain ⟨opened, openedAs⟩ := finished.exists_openedAs ⟨ofA.wf, ofB.wf⟩
    exact ⟨opened, .compared earlier.scannedB_allowed (PlanRun.testsOpen plan openedAs) returned⟩

/-- What a run that reaches its reports has settled, in terms of the directories. -/
theorem MainRun.settled (shownA : A.ShownBy context.scanA) (shownB : B.ShownBy context.scanB)
    (run : MainRun context (FullTests context.config.hashBufferSize opened)
      (.compared indexA indexB results progress)) :
    IndexOf A.tree indexA ∧ IndexOf B.tree indexB ∧ ∃ s trace,
      Finished (context.plan indexA indexB) s trace ∧ s.results = results ∧
      ∀ path outcome, (path, outcome) ∈ (context.plan indexA indexB).settled trace ↔
        (context.plan indexA indexB).outcomeOf ⟨A.content, B.content⟩ (opened path) path = some outcome := by
  obtain ⟨ofA, ofB, s, trace, finished, same, settles⟩ := run.comparison.settled shownA shownB Nat.one_le_two_pow
  refine ⟨ofA, ofB, s, trace, finished, same, fun path outcome => (settles path outcome).trans ?_⟩
  rw [← PlanContext.outcomeWith_verify rfl]
  rfl

variable (firstA : A.ShownBy first.scanA) (firstB : B.ShownBy first.scanB)
  (secondA : A.ShownBy second.scanA) (secondB : B.ShownBy second.scanB)
include firstA firstB secondA secondB

/-- Whatever the flags and the text tests, the counters are those of the directories. -/
theorem counters_agree
    (run : MainRun first (FullReads first.config.hashBufferSize) (.compared indexA indexB results progress))
    (run' : MainRun second (FullReads second.config.hashBufferSize) (.compared indexA' indexB' results' progress'))
    (type : ChangeType) : results.counter type = results'.counter type := by
  obtain ⟨opened, run⟩ := run.exists_opened firstA firstB
  obtain ⟨opened', run'⟩ := run'.exists_opened secondA secondB
  obtain ⟨ofA, ofB, s, trace, finished, rfl, settles⟩ := run.settled firstA firstB
  obtain ⟨ofA', ofB', t, later, finished', rfl, settles'⟩ := run'.settled secondA secondB
  refine finished.counter_view ⟨ofA.wf, ofB.wf⟩ finished' ⟨ofA'.wf, ofB'.wf⟩ settles settles' Function.injective_id
    (fun path => ?_) type
  have types : ∀ infoA infoB contentA contentB,
      (verdictOf (opened path) (first.plan indexA indexB).config path infoA infoB contentA contentB).type =
        (verdictOf (opened' path) (second.plan indexA' indexB').config path infoA infoB contentA contentB).type := by
    intro infoA infoB contentA contentB
    rw [verdictOf_type, verdictOf_type]
  exact PlanContext.outcomeOf_map types (ofA.find_eq ofA' path) (ofB.find_eq ofB' path)

/-- With the same `--lines`, two runs report the same exactly when the text tests of the files that are due
for line differences could be opened in both or in neither. -/
theorem changes_agree_iff (lines : first.options.includeLines = second.options.includeLines)
    (run : MainRun first (FullTests first.config.hashBufferSize opened) (.compared indexA indexB results progress))
    (run' : MainRun second (FullTests second.config.hashBufferSize opened')
      (.compared indexA' indexB' results' progress')) :
    (reportRows results = reportRows results' ∧ reportSections results = reportSections results') ↔
      ∀ path, first.comparison.LinesDue A B path → opened path = opened' path := by
  obtain ⟨ofA, ofB, s, trace, finished, rfl, settles⟩ := run.settled firstA firstB
  obtain ⟨ofA', ofB', t, later, finished', rfl, settles'⟩ := run'.settled secondA secondB
  have indexed : (first.plan indexA indexB).Indexed := ⟨ofA.wf, ofB.wf⟩
  have indexed' : (second.plan indexA' indexB').Indexed := ⟨ofA'.wf, ofB'.wf⟩
  have unlisted : ∀ (opened : Bool) path,
      ((first.plan indexA indexB).outcomeOf ⟨A.content, B.content⟩ opened path).map Outcome.unlisted =
        ((second.plan indexA' indexB').outcomeOf ⟨A.content, B.content⟩ opened path).map Outcome.unlisted :=
    fun opened path => PlanContext.outcomeOf_map (fun _ _ _ _ => verdictOf_unlisted lines _ _ _ _ _ _)
      (ofA.find_eq ofA' path) (ofB.find_eq ofB' path)
  constructor
  · -- A file that is due has its section exactly when its text test could be opened.
    rintro ⟨_, sections⟩ path due
    have heads : (∃ status, SectionPiece.head path status ∈ reportSections s.results) ↔
        ∃ status, SectionPiece.head path status ∈ reportSections t.results := by
      rw [sections]
    have here : (first.plan indexA indexB).LinesDue ⟨A.content, B.content⟩ path :=
      (first.comparison.linesDue_iff ofA ofB).mpr due
    have there : (second.plan indexA' indexB').LinesDue ⟨A.content, B.content⟩ path :=
      (second.comparison.linesDue_iff ofA' ofB').mpr (due.congr lines)
    rw [finished.head_mem_sections indexed settles, finished'.head_mem_sections indexed' settles',
      ← PlanContext.outcomeWith_verify rfl, ← PlanContext.outcomeWith_verify rfl, here.lines_iff,
      there.lines_iff] at heads
    exact Bool.eq_iff_iff.mpr heads
  · intro agree
    have changed := finished.changedRecords_eq indexed finished' indexed' settles settles' fun path => by
      rw [← unlisted, ← PlanContext.outcomeWith_verify rfl, ← PlanContext.outcomeWith_verify rfl]
      exact congrArg _ (PlanContext.outcomeWith_undue fun due =>
        agree path ((first.comparison.linesDue_iff ofA ofB).mp due))
    constructor
    · rw [reportRows, reportRows, changed]
    · rw [reportSections, reportSections, finished.detailedRecords_eq indexed, finished'.detailedRecords_eq indexed',
        changed]

end

/-- Two successful runs on the same two directories have the same counters. They have the same rows and
the same side-by-side sections exactly when the text tests of the files that are due for line
differences could be opened in both of them or in neither. -/
theorem runs_agree {first second : MainContext} {A B : Directory}
    (lines : first.options.includeLines = second.options.includeLines)
    (firstA : A.ShownBy first.scanA) (firstB : B.ShownBy first.scanB)
    (secondA : A.ShownBy second.scanA) (secondB : B.ShownBy second.scanB)
    {indexA indexB indexA' indexB' : FileIndex} {results results' : ResultSet} {progress progress' : ProgressState}
    (run : MainRun first (FullReads first.config.hashBufferSize) (.compared indexA indexB results progress))
    (run' : MainRun second (FullReads second.config.hashBufferSize) (.compared indexA' indexB' results' progress'))
    (formatTime : Int → Bytes) (now now' : Int) :
    let tested (context : MainContext) (opened : CString → Bool) := MainRun context
      (FullTests context.config.hashBufferSize opened)
    let report := writeDetailedReport recorder formatTime first.config
      (mainStats indexA indexB results now) results []
    let report' := writeDetailedReport recorder formatTime second.config
      (mainStats indexA' indexB' results' now') results' []
    (∀ type, results.counter type = results'.counter type) ∧
    (∃ opened, tested first opened (.compared indexA indexB results progress)) ∧
    (∃ opened', tested second opened' (.compared indexA' indexB' results' progress')) ∧
    ∀ opened opened', tested first opened (.compared indexA indexB results progress) →
      tested second opened' (.compared indexA' indexB' results' progress') →
      ((report.2.filterMap ReportPiece.row? = report'.2.filterMap ReportPiece.row? ∧
        report.2.filterMap ReportPiece.side? = report'.2.filterMap ReportPiece.side?) ↔
        ∀ path, first.comparison.LinesDue A B path → opened path = opened' path) := by
  intro tested report report'
  refine ⟨counters_agree firstA firstB secondA secondB run run', run.exists_opened firstA firstB,
    run'.exists_opened secondA secondB, fun opened opened' tested tested' => ?_⟩
  simp only [report, report', recorded_report, reportPieces_rows, reportPieces_sides]
  exact changes_agree_iff firstA firstB secondA secondB lines tested tested'

/-! ## The two directories of the sample -/

def sampleDirectoryA : Directory := ⟨sampleTreeA, fun _ => [49, 10]⟩

def sampleDirectoryB : Directory := ⟨sampleTreeB, fun _ => [50, 10]⟩

theorem sampleDirectoryA_shown (backwards : Bool) : sampleDirectoryA.ShownBy (sampleMain backwards).scanA := by
  refine ⟨sampleTreeA_scannable backwards, fun components size mtime leads content opened => ?_⟩
  cases leads with
  | inside member later =>
    cases later
    simp only [List.mem_cons, List.not_mem_nil, or_false] at member
    rcases member with rfl | rfl
    · exact (Except.ok.inj opened).symm
    · exact (Except.ok.inj opened).symm

theorem sampleDirectoryB_shown (backwards : Bool) : sampleDirectoryB.ShownBy (sampleMain backwards).scanB := by
  refine ⟨sampleTreeB_scannable backwards, fun components size mtime leads content opened => ?_⟩
  cases leads with
  | inside member later =>
    cases later
    rw [List.mem_singleton] at member
    subst member
    exact (Except.ok.inj opened).symm

theorem sampleEnv_full (refused : Bool) : (sampleEnv refused).Full (2 ^ 20) :=
  let quiet := CompareEnv.quiet_full (2 ^ 20)
  ⟨quiet.binary, quiet.textA, quiet.textB⟩

theorem sampleEnv_opened (refused : Bool) : (sampleEnv refused).testsOpen = !refused := by cases refused <;> rfl

theorem sampleMain_tested (backwards refused : Bool) : MainRun (sampleMain backwards)
    (FullTests (2 ^ 20) fun _ => !refused) (.compared sampleIndexA sampleIndexB (samplePlanEnd backwards refused).results
      (samplePlanEnd backwards refused).progress) :=
  sampleMain_run (fun _ => ⟨trivial, trivial⟩)
    (fun _ _ => ⟨sampleEnv_full refused, fun _ _ => sampleEnv_opened refused⟩) backwards

theorem runs_agree_sample : ∃ results results' : ResultSet, results.records.length = 2 ∧
    (results.counter .modified, results.counter .removed) = (1, 1) ∧
    (∀ type, results.counter type = results'.counter type) ∧
    ((writeDetailedReport recorder (fun _ => []) (sampleMain false).config
      (mainStats sampleIndexA sampleIndexB results 0) results []).2.filterMap ReportPiece.row?) =
    ((writeDetailedReport recorder (fun _ => []) (sampleMain true).config
      (mainStats sampleIndexA sampleIndexB results' 0) results' []).2.filterMap ReportPiece.row?) := by
  have tested := fun backwards => sampleMain_tested backwards false
  have run := fun backwards => (tested backwards).compared_weaken fun _ _ full => full.1
  obtain ⟨counters, _, _, agree⟩ := @runs_agree (sampleMain false) (sampleMain true) _ _ rfl
    (sampleDirectoryA_shown false) (sampleDirectoryB_shown false) (sampleDirectoryA_shown true)
    (sampleDirectoryB_shown true) _ _ _ _ _ _ _ _ (run false) (run true) (fun _ => []) 0 0
  obtain ⟨rows, _⟩ := (agree _ _ (tested false) (tested true)).mpr fun _ _ => rfl
  exact ⟨_, _, by decide +kernel, by decide +kernel, counters, rows⟩

/-- Two runs with full reads on the same directories. In the second one the first text test has no
descriptor left, and the changed line becomes `Binary Changed`. -/
theorem runs_agree_refused : ∃ results results' progress progress',
    sampleDirectoryA.ShownBy (sampleMain false).scanA ∧ sampleDirectoryB.ShownBy (sampleMain false).scanB ∧
    MainRun (sampleMain false) (FullReads (2 ^ 20)) (.compared sampleIndexA sampleIndexB results progress) ∧
    MainRun (sampleMain false) (FullReads (2 ^ 20)) (.compared sampleIndexA sampleIndexB results' progress') ∧
    ((writeDetailedReport recorder (fun _ => []) (sampleMain false).config
      (mainStats sampleIndexA sampleIndexB results 0) results []).2.filterMap ReportPiece.row?) ≠
    ((writeDetailedReport recorder (fun _ => []) (sampleMain false).config
      (mainStats sampleIndexA sampleIndexB results' 0) results' []).2.filterMap ReportPiece.row?) := by
  have run := fun refused => (sampleMain_tested false refused).compared_weaken fun _ _ full => full.1
  exact ⟨_, _, _, _, sampleDirectoryA_shown false, sampleDirectoryB_shown false, run false, run true, by decide +kernel⟩

end Verdiff
