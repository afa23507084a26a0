import Verdiff.Main.Stages
import Verdiff.Planner.Coverage
import Mathlib.Data.Set.Card

/-! A run of `main` that reaches its reports writes two reports that agree with each other
and with the trees it has scanned.
-/

set_option autoImplicit false

namespace Verdiff
open Transition Writer

namespace Finished

variable {context : PlanContext} {s : PlanState} {trace : List PlanEvent}
  (finished : Finished context s trace) (indexed : context.Indexed)
include finished indexed

theorem mem_orderedRecords {record : ChangeRecord} :
    record ∈ orderedRecords s.results ↔ record ∈ s.results.records :=
  Verdiff.mem_orderedRecords finished.tracked.tracks (finished.nodup_records indexed)

theorem mem_changedRecords {record : ChangeRecord} :
    record ∈ changedRecords s.results ↔ record ∈ s.results.records ∧ record.type ≠ .unchanged := by
  rw [changedRecords, List.mem_filter, finished.mem_orderedRecords indexed, decide_eq_true_iff]

theorem orderedRecords_perm : (orderedRecords s.results).Perm s.results.records := by
  have ordered : (orderedRecords s.results).Nodup :=
    (orderedRecords_ascending finished.tracked.tracks).imp fun less same => less.ne (congrArg _ same)
  have array : s.results.records.Nodup := (finished.nodup_records indexed).of_map
  exact (List.perm_ext_iff_of_nodup ordered array).mpr fun record => finished.mem_orderedRecords indexed

omit indexed in
theorem changedRecords_ascending :
    (changedRecords s.results).Pairwise fun first second => strcmp first.path second.path < 0 := by
  refine ((orderedRecords_ascending finished.tracked.tracks).filter _).imp fun less => ?_
  rwa [strcmp_neg]

theorem rows_countP (type : ChangeType) :
    ((reportRows s.results).countP fun row => row.status = statusName type) =
      if type = .unchanged then 0 else s.results.counter type := by
  have status : ∀ record, (recordRow record).status = statusName type ↔ record.type = type := fun record =>
    statusName_injective.eq_iff
  rw [reportRows, List.countP_map, changedRecords, List.countP_filter]
  split
  next unchanged =>
    subst unchanged
    rw [List.countP_eq_zero]
    intro record _
    simp [status]
  next changed =>
    rw [← finished.countP_records indexed changed, ← (finished.orderedRecords_perm indexed).countP_eq]
    apply List.countP_congr
    intro record _
    simp only [Function.comp_apply, status, ne_eq, decide_not, Bool.and_eq_true, decide_eq_true_eq,
      Bool.not_eq_eq_eq_not, Bool.not_true, decide_eq_false_iff_not, and_iff_left_iff_imp]
    -- A record of this type is among the changed ones anyway.
    rintro rfl
    exact changed

theorem detailedRecords_eq :
    detailedRecords s.results = (changedRecords s.results).filter fun record => record.detailKind = .lines := by
  rw [detailedRecords, changedRecords, List.filter_filter]
  apply List.filter_congr
  intro record member
  have recorded := (finished.mem_orderedRecords indexed).mp member
  by_cases lines : record.detailKind = .lines
  · obtain ⟨modified, some_⟩ := finished.lines indexed recorded lines
    simp [lines, some_, modified]
  · simp [lines]

omit finished in
theorem card_domA : context.domA.card = context.indexA.count := by
  rw [PlanContext.domA, List.toFinset_card_of_nodup indexed.a.distinct, indexed.a.count_keys]

theorem total_eq : context.indexA.count + s.results.addedCount =
    s.results.unchangedCount + s.results.modifiedCount + s.results.addedCount + s.results.removedCount := by
  have common := finished.common_card indexed
  have removed := finished.removed_card indexed
  have split := Finset.card_inter_add_card_sdiff context.domA context.domB
  rw [card_domA indexed] at split
  omega

theorem total_card :
    context.indexA.count + s.results.addedCount = (context.domA ∪ context.domB).card := by
  rw [finished.added_card indexed, ← card_domA indexed, Finset.union_comm,
    ← Finset.card_sdiff_add_card, Nat.add_comm]

theorem total_lt : context.indexA.count + s.results.addedCount < wordSize := by
  -- Two tables that fit in memory do not have so many entries that their number wraps.
  have added : s.results.addedCount ≤ context.indexB.count := by
    rw [finished.added_card indexed, indexed.b.count_keys, ← List.toFinset_card_of_nodup indexed.b.distinct]
    exact Finset.card_le_card Finset.sdiff_subset
  have loadA := indexed.a.load
  have loadB := indexed.b.load
  have fitsA := indexed.a.fits
  have fitsB := indexed.b.fits
  unfold slotSize at fitsA fitsB
  omega

theorem changedRecords_iff {path : CString} {type : ChangeType} (changed : type ≠ .unchanged) :
    (∃ record ∈ changedRecords s.results, record.path = path ∧ record.type = type) ↔
      ∃ outcome, (path, outcome) ∈ context.settled trace ∧ outcome.type = type := by
  -- A changed record is an outcome of the run that is not only noted.
  constructor
  · rintro ⟨record, member, rfl, rfl⟩
    exact ⟨_, (finished.mem_records indexed).mp ((finished.mem_changedRecords indexed).mp member).1, rfl⟩
  · rintro ⟨outcome, entered, rfl⟩
    have settles := finished.settles indexed _ entered
    cases outcome with
    | noted type => exact absurd settles.noted changed
    | pushed record =>
      obtain rfl : record.path = path := settles.record_path
      exact ⟨record, (finished.mem_changedRecords indexed).mpr
        ⟨(finished.mem_records indexed).mpr entered, changed⟩, rfl, rfl⟩

theorem removed_iff {path : CString} :
    (∃ record ∈ changedRecords s.results, record.path = path ∧ record.type = .removed) ↔
      path ∈ context.domA ∧ path ∉ context.domB := by
  rw [finished.changedRecords_iff indexed (by simp)]
  constructor
  · rintro ⟨outcome, entered, type⟩
    rcases (finished.settles indexed _ entered).outcome indexed with ⟨_, only⟩ | ⟨other, _⟩ | ⟨other | other, _⟩
    · exact only
    all_goals rw [type] at other; cases other
  · rintro ⟨a, b⟩
    obtain ⟨outcome, entered⟩ := finished.settled_of_mem indexed (Finset.mem_union_left _ a)
    refine ⟨outcome, entered, ?_⟩
    rcases (finished.settles indexed _ entered).outcome indexed with ⟨type, _⟩ | ⟨_, absent, _⟩ | ⟨_, _, present⟩
    · exact type
    · exact absurd a absent
    · exact absurd present b

theorem added_iff {path : CString} :
    (∃ record ∈ changedRecords s.results, record.path = path ∧ record.type = .added) ↔
      path ∉ context.domA ∧ path ∈ context.domB := by
  rw [finished.changedRecords_iff indexed (by simp)]
  constructor
  · rintro ⟨outcome, entered, type⟩
    rcases (finished.settles indexed _ entered).outcome indexed with ⟨other, _⟩ | ⟨_, only⟩ | ⟨other | other, _⟩
    · rw [type] at other; cases other
    · exact only
    all_goals rw [type] at other; cases other
  · rintro ⟨a, b⟩
    obtain ⟨outcome, entered⟩ := finished.settled_of_mem indexed (Finset.mem_union_right _ b)
    refine ⟨outcome, entered, ?_⟩
    rcases (finished.settles indexed _ entered).outcome indexed with ⟨_, _, absent⟩ | ⟨type, _⟩ | ⟨_, present, _⟩
    · exact absurd b absent
    · exact type
    · exact absurd present a

end Finished

/-- When `main` gets as far as its reports, the summary, the table, the side-by-side part and
the scanned trees give the same numbers and the same changes. -/
theorem reports_agree {context : MainContext} {treeA treeB : Node} {indexA indexB : FileIndex}
    {results : ResultSet} {progress : ProgressState} (scannableA : Scannable context.scanA treeA)
    (scannableB : Scannable context.scanB treeB)
    (run : MainRun context LocksSucceed (.compared indexA indexB results progress))
    (formatTime : Int → Bytes) (now : Int) (reportPath : CString) :
    let stats := mainStats indexA indexB results now
    let report := writeDetailedReport recorder formatTime context.config stats results []
    let summary := writeSummary recorder formatTime context.config stats results reportPath []
    let rows := report.2.filterMap ReportPiece.row?
    let changed := changedRecords results
    report.1 = 0 ∧ summary.1 = 0 ∧
    report.2.filterMap ReportPiece.total? = totals stats results ∧
    summary.2.filterMap ReportPiece.total? = totals stats results ∧
    stats.totalFilesScanned =
      results.unchangedCount + results.modifiedCount + results.addedCount + results.removedCount ∧
    stats.totalFilesScanned = {path | treeA.HasFile path ∨ treeB.HasFile path}.ncard ∧
    rows = changed.map recordRow ∧
    (∀ type, (rows.countP fun row => row.status = statusName type) =
      if type = .unchanged then 0 else results.counter type) ∧
    changed.Pairwise (fun first second => strcmp first.path second.path < 0) ∧
    (∀ record, record ∈ changed ↔ record ∈ results.records ∧ record.type ≠ .unchanged) ∧
    (∀ path, (∃ record ∈ changed, record.path = path ∧ record.type = .removed) ↔
      treeA.HasFile path ∧ ¬treeB.HasFile path) ∧
    (∀ path, (∃ record ∈ changed, record.path = path ∧ record.type = .added) ↔
      ¬treeA.HasFile path ∧ treeB.HasFile path) ∧
    report.2.filterMap ReportPiece.side? =
      (changed.filter fun record => record.detailKind = .lines).flatMap sectionParts ∧
    ∀ record, (sectionParts record).filterMap SectionPiece.line? =
      record.lineDiffs.items.map fun diff =>
        (diff.lineNumber, clipText diff.left 36 40, clipText diff.right 36 40) := by
  obtain ⟨ofA, ofB, _, s, trace, plan, returned, rfl⟩ := run.sound scannableA scannableB
  intro stats report summary rows changed
  have indexed : (context.plan indexA indexB).Indexed := ⟨ofA.wf, ofB.wf⟩
  have finished := PlanRun.finished plan returned
  have inA : ∀ path, path ∈ (context.plan indexA indexB).domA ↔ treeA.HasFile path := fun path => by
    rw [PlanContext.domA, List.mem_toFinset, ← ofA.mem_keys]
    rfl
  have inB : ∀ path, path ∈ (context.plan indexA indexB).domB ↔ treeB.HasFile path := fun path => by
    rw [PlanContext.domB, List.mem_toFinset, ← ofB.mem_keys]
    rfl
  -- On a sink that accepts everything a report is its pieces.
  have reported : report = (0, reportPieces formatTime context.config stats s.results) := recorded_report ..
  have summarised : summary = (0, summaryPieces formatTime context.config stats s.results reportPath) :=
    recorded_summary ..
  have total : stats.totalFilesScanned = indexA.count + s.results.addedCount :=
    Nat.mod_eq_of_lt (finished.total_lt indexed)
  have rows_eq : rows = reportRows s.results := by
    simp only [rows, reported, reportPieces_rows]
  refine ⟨by rw [reported], by rw [summarised], ?_, ?_, ?_, ?_, rows_eq, ?_, finished.changedRecords_ascending,
    fun record => finished.mem_changedRecords indexed, ?_, ?_, ?_, sectionParts_lines⟩
  · rw [reported, reportPieces_totals]
  · rw [summarised, summaryPieces_totals]
  · rw [total]
    exact finished.total_eq indexed
  -- The union of the two domains is the set of the paths of the trees.
  · rw [total, show indexA.count + s.results.addedCount = _ from finished.total_card indexed,
      ← Set.ncard_coe_finset]
    congr 1
    ext path
    simp [inA, inB]
  · intro type
    rw [rows_eq]
    exact finished.rows_countP indexed type
  · intro path
    rw [← inA, ← inB]
    exact finished.removed_iff indexed
  · intro path
    rw [← inA, ← inB]
    exact finished.added_iff indexed
  · rw [reported, reportPieces_sides, reportSections, finished.detailedRecords_eq indexed]

/-! ## Two directories small enough for a run -/

/-- Two trees that differ in the file `x`; `y` is in the first one only. The second variant
has two threads and reads the entries backwards. -/
def sampleMain (backwards : Bool) : MainContext where
  options := ⟨sampleRootA, sampleRootB, if backwards then 2 else 1, by split <;> decide, true, true⟩
  xxh := .ofFunction fun bytes => bytes.length.toUInt64
  files :=
    let entries : List CString := [sampleX, dot, sampleY, dotDot]
    { lstat := fun path =>
        match path.bytes with
        | [97, 47, 120] => .ok ⟨.regular, 2, 1⟩
        | [97, 47, 121] => .ok ⟨.regular, 2, 1⟩
        | [98, 47, 120] => .ok ⟨.regular, 2, 1⟩
        | _ => .error .ENOENT
      opendir := fun path =>
        match path.bytes with
        | [97] => .ok ⟨if backwards then entries.reverse else entries, none⟩
        | [98] => .ok ⟨[sampleX, dotDot, dot], none⟩
        | _ => .error .ENOENT
      openFile := fun path => .ok (if path.bytes = [98, 47, 120] then [50, 10] else [49, 10]) }

def sampleEmpty : FileIndex := ⟨List.replicate 1024 none, 1024, 0⟩

def sampleIndexA : FileIndex :=
  ⟨((List.replicate 1024 none).set 462 (some (sampleSlot sampleY 2 1))).set 897 (some (sampleSlot sampleX 2 1)), 1024, 2⟩

def sampleIndexB : FileIndex := ⟨(List.replicate 1024 none).set 897 (some (sampleSlot sampleX 2 1)), 1024, 1⟩

def samplePlanOf (backwards : Bool) : PlanContext := (sampleMain backwards).plan sampleIndexA sampleIndexB

def scanChoices (n : Nat) : List ScanAllocs := List.replicate n ⟨true, true, true, true, true⟩

def scanned (scan : ScanContext) (n : Nat) (progress : ProgressState) : Option (ScanStage × FileIndex × ProgressState) :=
  (perform (scanStep scan) (scanChoices n) (scanStart sampleEmpty (progressPhaseBegin progress scan.phase))).map
    fun run => (run.1.stage, run.1.index, run.1.progress)

/-- Full reads; `refused` leaves no descriptor for the text test of the first file. -/
def sampleEnv (refused : Bool) : CompareEnv :=
  { CompareEnv.quiet (2 ^ 20) with opens := ⟨none, none, none, none, if refused then some .EMFILE else none, none⟩ }

def readAll (refused : Bool) (i : Nat) : PlanAction := .worker i (sampleEnv refused)

def sampleTurns (backwards refused : Bool) : List PlanAction :=
  (if backwards then [1, 1, 0, 1] else [0, 0, 0]).map (readAll refused)

/-! The plan of the sample, with the vacant slots passed over. -/

def samplePlanReady (backwards : Bool) : PlanState :=
  after (planStep (samplePlanOf backwards)) (mainSteps ((sampleMain backwards).options.threadCount + 2))
    (planStart (samplePlanOf backwards) resultSetInit ⟨.plan, 2, 1, 0⟩)

def samplePlanPushed (backwards : Bool) : PlanState :=
  after (planStep (samplePlanOf backwards)) (mainSteps 1) { samplePlanReady backwards with main := .scanningA 462 }

def samplePlanEnqueued (backwards : Bool) : PlanState :=
  after (planStep (samplePlanOf backwards)) (mainSteps 2) { samplePlanPushed backwards with main := .scanningA 897 }

def samplePlanScanned (backwards : Bool) : PlanState :=
  after (planStep (samplePlanOf backwards)) (mainSteps 1) { samplePlanEnqueued backwards with main := .scanningA 1024 }

def samplePlanEnd (backwards refused : Bool) : PlanState :=
  after (planStep (samplePlanOf backwards)) (mainSteps 2 ++ sampleTurns backwards refused ++
    mainSteps ((sampleMain backwards).options.threadCount + 2)) { samplePlanScanned backwards with main := .scanningB 1024 }

/-- All that is evaluated of the sample's runs. -/
structure SampleEvaluates (backwards : Bool) : Prop where
  started : fileIndexInit 1024 true = some (0, sampleEmpty)
  scanA : scanned (sampleMain backwards).scanA 8 progressInit = some (.returned 0, sampleIndexA, ⟨.scanA, 2, 0, 0⟩)
  scanB : scanned (sampleMain backwards).scanB 7 ⟨.scanA, 2, 0, 0⟩ =
    some (.returned 0, sampleIndexB, ⟨.scanB, 2, 1, 0⟩)
  foundA : fileIndexFindConst vdHashPath sampleIndexA sampleX = some ⟨sampleX, 2, 1⟩
  foundB : fileIndexFindConst vdHashPath sampleIndexB sampleX = some ⟨sampleX, 2, 1⟩
  ready : (samplePlanReady backwards).main = .scanningA 0
  pushed : (samplePlanPushed backwards).main = .scanningA 463
  enqueued : (samplePlanEnqueued backwards).main = .scanningA 898
  scanned : (samplePlanScanned backwards).main = .scanningB 0
  returned : ∀ refused, (samplePlanEnd backwards refused).main = .returned 0
  counted : ∀ refused, (samplePlanEnd backwards refused).progress = ⟨.compare, 2, 1, 0⟩

theorem sampleEvaluates (backwards : Bool) : SampleEvaluates backwards where
  started := by decide +kernel
  scanA := by cases backwards <;> decide +kernel
  scanB := by cases backwards <;> decide +kernel
  foundA := by decide +kernel
  foundB := by decide +kernel
  ready := by cases backwards <;> decide +kernel
  pushed := by cases backwards <;> decide +kernel
  enqueued := by cases backwards <;> decide +kernel
  scanned := by cases backwards <;> decide +kernel
  returned refused := by cases backwards <;> cases refused <;> decide +kernel
  counted refused := by cases backwards <;> cases refused <;> decide +kernel

theorem getD_set_of_ne {slots : List (Option IndexSlot)} {content : Option IndexSlot} {pos k : Nat}
    (apart : k ≠ pos) : (slots.set pos content).getD k none = slots.getD k none := by
  simp [apart.symm]

theorem getD_set_self {slots : List (Option IndexSlot)} {content : Option IndexSlot} {pos : Nat}
    (inside : pos < slots.length) : (slots.set pos content).getD pos none = content := by
  simp [inside]

theorem getD_vacant (n k : Nat) : (List.replicate n (none : Option IndexSlot)).getD k none = none := by
  rw [List.getD_eq_getElem?_getD, List.getElem?_replicate]
  split <;> rfl

theorem samplePlanOf_slotA (backwards : Bool) {k : Nat} (notY : k ≠ 462) (notX : k ≠ 897) :
    (samplePlanOf backwards).slotA k = .skip := by
  rw [PlanContext.slotA, show (samplePlanOf backwards).indexA = sampleIndexA from rfl, sampleIndexA,
    getD_set_of_ne notX, getD_set_of_ne notY, getD_vacant]
  rfl

theorem slotB_sampleIndexB {context : PlanContext} (indexB : context.indexB = sampleIndexB)
    (found : context.findA sampleX = some ⟨sampleX, 2, 1⟩) (k : Nat) : context.slotB k = .skip := by
  -- Where the first index has `x`, everything in the second one is known.
  rw [PlanContext.slotB, indexB]
  by_cases x : k = 897
  · rw [x, sampleIndexB, getD_set_self (by rw [List.length_replicate]; decide)]
    exact @PlanContext.planSlotB_known _ (sampleSlot sampleX 2 1) _ found
  · rw [sampleIndexB, getD_set_of_ne x, getD_vacant]
    rfl

theorem samplePlanOf_slotB (backwards : Bool) (k : Nat) : (samplePlanOf backwards).slotB k = .skip :=
  @slotB_sampleIndexB (samplePlanOf backwards) rfl (sampleEvaluates backwards).foundA k

theorem mainSteps_allowed {allowed : PlanState → PlanAction → Prop}
    (mains : ∀ t, allowed t (.main ⟨0, 0, ⟨true, true⟩⟩)) (n : Nat) : ∀ action ∈ mainSteps n, ∀ t, allowed t action := by
  intro action member t
  rw [(List.mem_replicate.mp member).2]
  exact mains t

theorem MainRun.ofScans {context : MainContext} {allowed : PlanState → PlanAction → Prop}
    {m n : Nat} {indexA indexB : FileIndex} {progressA progressB : ProgressState}
    {s : PlanState} {trace : List PlanEvent}
    (scanA : scanned context.scanA m progressInit = some (.returned 0, indexA, progressA))
    (scanB : scanned context.scanB n progressA = some (.returned 0, indexB, progressB))
    (plan : PlanRun (context.plan indexA indexB) allowed resultSetInit (progressPhaseBegin progressB .plan) s trace)
    (returned : s.main = .returned 0) : MainRun context allowed (.compared indexA indexB s.results s.progress) := by
  have started := (sampleEvaluates false).started
  obtain ⟨⟨a, traceA⟩, performedA, sameA⟩ := Option.map_eq_some_iff.mp scanA
  obtain ⟨⟨b, traceB⟩, performedB, sameB⟩ := Option.map_eq_some_iff.mp scanB
  simp only [Prod.mk.injEq] at sameA sameB
  obtain ⟨returnedA, rfl, rfl⟩ := sameA
  obtain ⟨returnedB, rfl, rfl⟩ := sameB
  have first : MainRun context allowed (.scannedA a.index sampleEmpty a.progress) :=
    .scannedA (.initialised started started) (Run.of_perform (fun _ _ _ => trivial) performedA) returnedA
  have second : MainRun context allowed (.scannedB a.index b.index b.progress) :=
    .scannedB first (Run.of_perform (fun _ _ _ => trivial) performedB) returnedB
  exact .compared second plan returned

section
variable {allowed : PlanState → PlanAction → Prop} (mains : ∀ t, allowed t (.main ⟨0, 0, ⟨true, true⟩⟩))
  {refused : Bool} (workers : ∀ i t, allowed t (readAll refused i))
include mains workers

theorem samplePlan_run (backwards : Bool) : ∃ trace, PlanRun (samplePlanOf backwards) allowed resultSetInit
    ⟨.plan, 2, 1, 0⟩ (samplePlanEnd backwards refused) trace := by
  have own := mainSteps_allowed mains
  have evaluates := sampleEvaluates backwards
  have turns : ∀ action ∈ sampleTurns backwards refused, ∀ t, allowed t action := by
    intro action member t
    obtain ⟨i, _, rfl⟩ := List.mem_map.mp member
    exact workers i t
  have begun : PlanRun (samplePlanOf backwards) allowed resultSetInit ⟨.plan, 2, 1, 0⟩ (planStart _ _ _) [] := .start
  -- The vacant slots between the two entries are passed in one go each.
  obtain ⟨_, ready⟩ := Run.after (own ((sampleMain backwards).options.threadCount + 2)) begun
  obtain ⟨_, pushed⟩ := Run.after (own 1) (@PlanRun.passesA _ _ _ _ _ _ _ mains 0 462
    evaluates.ready (show 0 + 462 ≤ 1024 by decide)
    (fun k _ below => samplePlanOf_slotA backwards (by omega) (by omega)) ready)
  obtain ⟨_, enqueued⟩ := Run.after (own 2) (@PlanRun.passesA _ _ _ _ _ _ _ mains 463 434
    evaluates.pushed (show 463 + 434 ≤ 1024 by decide)
    (fun k _ below => samplePlanOf_slotA backwards (by omega) (by omega)) pushed)
  obtain ⟨_, scanned⟩ := Run.after (own 1) (@PlanRun.passesA _ _ _ _ _ _ _ mains 898 126
    evaluates.enqueued (show 898 + 126 ≤ 1024 by decide)
    (fun k _ below => samplePlanOf_slotA backwards (by omega) (by omega)) enqueued)
  refine Run.after ?_ (@PlanRun.passesB _ _ _ _ _ _ _ mains 0 1024
    evaluates.scanned (show 0 + 1024 ≤ 1024 by decide) (fun k _ _ => samplePlanOf_slotB backwards k) scanned)
  intro action member
  simp only [List.mem_append] at member
  rcases member with (first | second) | third
  · exact own _ action first
  · exact turns action second
  · exact own _ action third

theorem sampleMain_run (backwards : Bool) : MainRun (sampleMain backwards) allowed
    (.compared sampleIndexA sampleIndexB (samplePlanEnd backwards refused).results
      (samplePlanEnd backwards refused).progress) := by
  obtain ⟨trace, plan⟩ := samplePlan_run mains workers backwards
  have evaluates := sampleEvaluates backwards
  exact .ofScans evaluates.scanA evaluates.scanB plan (evaluates.returned refused)

end

def sampleTreeA : Node := .dir [sampleX, sampleY] fun _ => .file 2 1

def sampleTreeB : Node := .dir [sampleX] fun _ => .file 2 1

theorem sampleTreeA_scannable (backwards : Bool) : Scannable (sampleMain backwards).scanA sampleTreeA := by
  refine ⟨⟨_, _, rfl⟩, ?_, ?_, ?_⟩
  · intro name member
    simp only [List.mem_cons, List.not_mem_nil, or_false] at member
    rcases member with rfl | rfl
    · exact ⟨.ofByte (by decide) (by decide), trivial⟩
    · exact ⟨.ofByte (by decide) (by decide), trivial⟩
  · intro stream opened
    obtain rfl := Except.ok.inj opened
    cases backwards
    · exact ⟨by decide, fun _ => by decide⟩
    · exact ⟨by decide, fun _ => by decide⟩
  · intro name member
    simp only [List.mem_cons, List.not_mem_nil, or_false] at member
    rcases member with rfl | rfl
    · exact ⟨fun stat shown => (Except.ok.inj shown).symm, trivial⟩
    · exact ⟨fun stat shown => (Except.ok.inj shown).symm, trivial⟩

theorem sampleTreeB_scannable (backwards : Bool) : Scannable (sampleMain backwards).scanB sampleTreeB := by
  refine ⟨⟨_, _, rfl⟩, ?_, ?_, ?_⟩
  · intro name member
    rw [List.mem_singleton] at member
    subst member
    exact ⟨.ofByte (by decide) (by decide), trivial⟩
  · intro stream opened
    obtain rfl := Except.ok.inj opened
    exact ⟨by decide, fun _ => by decide⟩
  · intro name member
    rw [List.mem_singleton] at member
    subst member
    exact ⟨fun stat shown => (Except.ok.inj shown).symm, trivial⟩

theorem reports_agree_sample : ∃ results : ResultSet, results.modifiedCount = 1 ∧ results.removedCount = 1 ∧
    ((writeDetailedReport recorder (fun _ => []) (sampleMain false).config
      (mainStats sampleIndexA sampleIndexB results 0) results []).2.filterMap ReportPiece.total?) =
        [2, 0, 1, 0, 1] := by
  have run := @sampleMain_run LocksSucceed (fun _ => trivial) false (fun _ _ => trivial) false
  obtain ⟨_, _, totals, _⟩ := reports_agree (sampleTreeA_scannable false) (sampleTreeB_scannable false) run
    (fun _ => []) 0 .empty
  exact ⟨_, by decide +kernel, by decide +kernel, totals.trans (by decide +kernel)⟩

end Verdiff
