import Verdiff.Main.Stages
import Verdiff.Planner.Verdicts

/-! A comparison of two directories, from the empty indexes to the result set.

`main` makes one under its own configuration; here the configuration is any. What a
comparison settles is a function of the two directories.
-/

set_option autoImplicit false

namespace Verdiff

structure Comparison where
  config : Config
  threads_pos : 0 < config.threadCount
  files : FileSystem
  xxh : Xxh3

def Scans (scan : ScanContext) (index : FileIndex) : Prop :=
  ∃ slotsOk empty progress s trace, fileIndexInit 1024 slotsOk = some (0, empty) ∧
    ScanRun scan empty progress s trace ∧ s.stage = .returned 0 ∧ s.index = index

namespace Comparison

variable (comparison : Comparison)

def scanA : ScanContext := ⟨comparison.config.rootA, vdHashPath, comparison.files, .scanA⟩

def scanB : ScanContext := ⟨comparison.config.rootB, vdHashPath, comparison.files, .scanB⟩

def plan (indexA indexB : FileIndex) : PlanContext where
  config := comparison.config
  hashPath := vdHashPath
  indexA := indexA
  indexB := indexB
  files := comparison.files
  xxh := comparison.xxh
  queueCapacity := planQueueCapacity
  capacity_pos := planQueueCapacity_pos
  threads_pos := comparison.threads_pos

/-- Both scans and the plan over what they found have returned zero. -/
structure Run (allowed : PlanState → PlanAction → Prop) (indexA indexB : FileIndex) (results : ResultSet) : Prop where
  scannedA : Scans comparison.scanA indexA
  scannedB : Scans comparison.scanB indexB
  planned : ∃ progress s trace, PlanRun (comparison.plan indexA indexB) allowed resultSetInit progress s trace ∧
    s.main = .returned 0 ∧ s.results = results

end Comparison

theorem MainContext.threads_pos (context : MainContext) : 0 < context.config.threadCount := context.options.threads_pos

def MainContext.comparison (context : MainContext) : Comparison :=
  ⟨context.config, context.threads_pos, context.files, context.xxh⟩

theorem MainRun.comparison {context : MainContext} {allowed : PlanState → PlanAction → Prop}
    {indexA indexB : FileIndex} {results : ResultSet} {progress : ProgressState}
    (run : MainRun context allowed (.compared indexA indexB results progress)) :
    context.comparison.Run allowed indexA indexB results := by
  cases run with
  | compared earlier plan returned =>
    cases earlier with
    | scannedB earlier scanB returnedB =>
      cases earlier with
      | scannedA earlier scanA returnedA =>
        cases earlier with
        | initialised startedA startedB =>
          exact ⟨⟨_, _, _, _, _, startedA, scanA, returnedA, rfl⟩, ⟨_, _, _, _, _, startedB, scanB, returnedB, rfl⟩,
            ⟨_, _, _, plan, returned, rfl⟩⟩

theorem MainRun.scannedB_allowed {context : MainContext} {allowed other : PlanState → PlanAction → Prop}
    {indexA indexB : FileIndex} {progress : ProgressState}
    (run : MainRun context allowed (.scannedB indexA indexB progress)) :
    MainRun context other (.scannedB indexA indexB progress) := by
  cases run with
  | scannedB earlier scanB returnedB =>
    cases earlier with
    | scannedA earlier scanA returnedA =>
      cases earlier with
      | initialised startedA startedB =>
        exact .scannedB (.scannedA (.initialised startedA startedB) scanA returnedA) scanB returnedB

theorem MainRun.compared_weaken {context : MainContext} {allowed wider : PlanState → PlanAction → Prop}
    {indexA indexB : FileIndex} {results : ResultSet} {progress : ProgressState}
    (run : MainRun context allowed (.compared indexA indexB results progress))
    (admits : ∀ s action, allowed s action → wider s action) :
    MainRun context wider (.compared indexA indexB results progress) := by
  cases run with
  | compared earlier plan returned => exact .compared earlier.scannedB_allowed (plan.weaken admits) returned

/-! ## The directories -/

/-- A tree with the content of its files, by their relative paths. -/
structure Directory where
  tree : Node
  content : CString → Bytes

/-- The directory is what a scan and the later calls of `open` find. -/
structure Directory.ShownBy (listed : Directory) (scan : ScanContext) : Prop
    extends Scannable scan listed.tree where
  serves : ∀ components size mtime, listed.tree.Leads components (.file size mtime) →
    ∀ content, scan.files.openFile (absoluteOf scan.root components) = .ok content →
      content = listed.content (relativeOf components)

theorem Directory.ShownBy.opened {listed : Directory} {scan : ScanContext} (shown : listed.ShownBy scan)
    {index : FileIndex} (indexOf : IndexOf listed.tree index) {path : CString} {content : Bytes}
    (found : (fileIndexFind vdHashPath index path).isSome)
    (opened : scan.files.openFile (vdJoinPath scan.root path) = .ok content) : content = listed.content path := by
  obtain ⟨info, found⟩ := Option.isSome_iff_exists.mp found
  obtain ⟨_, components, leads, bytes⟩ := indexOf.find_iff.mp found
  obtain ⟨some_, named⟩ := shown.file_named leads
  -- The path of the entry opens the file the scan has found under it.
  obtain rfl : path = relativeOf components := CString.ext (bytes.trans (relativeOf_bytes named).symm)
  rw [vdJoinPath_relativeOf named some_] at opened
  exact shown.serves components _ _ leads content opened

def Node.Lists (tree : Node) (info : FileInfo) : Prop :=
  ∃ components, tree.Leads components (.file info.size info.mtime) ∧ info.path.bytes = joined components

theorem IndexOf.find_lists {tree : Node} {index : FileIndex} (indexOf : IndexOf tree index) {path : CString}
    {info : FileInfo} : fileIndexFind vdHashPath index path = some info ↔ info.path = path ∧ tree.Lists info := by
  rw [indexOf.find_iff]
  constructor
  · rintro ⟨rfl, listed⟩
    exact ⟨rfl, listed⟩
  · rintro ⟨rfl, listed⟩
    exact ⟨rfl, listed⟩

/-- The file of the path has one size in both trees, but not the same contents, and both look like
text. With `--lines` its line differences are due, if the text tests can open the files. -/
def Comparison.LinesDue (comparison : Comparison) (A B : Directory) (path : CString) : Prop :=
  ∃ infoA infoB, (infoA.path = path ∧ A.tree.Lists infoA) ∧ (infoB.path = path ∧ B.tree.Lists infoB) ∧
    Verdiff.LinesDue (takenEqual comparison.xxh comparison.config (A.content path) (B.content path)) comparison.config
      infoA infoB (A.content path) (B.content path)

theorem Comparison.linesDue_iff (comparison : Comparison) {A B : Directory} {indexA indexB : FileIndex}
    (ofA : IndexOf A.tree indexA) (ofB : IndexOf B.tree indexB) {path : CString} :
    (comparison.plan indexA indexB).LinesDue ⟨A.content, B.content⟩ path ↔ comparison.LinesDue A B path := by
  simp only [Comparison.LinesDue, ← ofA.find_lists, ← ofB.find_lists]
  rfl

theorem IndexOf.find_eq {tree : Node} {index other : FileIndex} (first : IndexOf tree index)
    (second : IndexOf tree other) (path : CString) :
    fileIndexFind vdHashPath index path = fileIndexFind vdHashPath other path := by
  apply Option.ext
  intro info
  rw [first.find_iff, second.find_iff]

theorem Scans.indexOf {scan : ScanContext} (hash : scan.hashPath = vdHashPath) {tree : Node}
    (scannable : Scannable scan tree) {index : FileIndex} (scans : Scans scan index) : IndexOf tree index := by
  obtain ⟨_, _, _, s, _, started, run, returned, rfl⟩ := scans
  exact ScanRun.indexOf hash scannable (fileIndexInit_vacant started) run returned

section
variable {comparison : Comparison} {A B : Directory} {indexA indexB : FileIndex} {results : ResultSet}

theorem Comparison.Run.exists_opened (shownA : A.ShownBy comparison.scanA) (shownB : B.ShownBy comparison.scanB)
    (run : comparison.Run (FullReads comparison.config.hashBufferSize) indexA indexB results) :
    ∃ opened, comparison.Run (FullTests comparison.config.hashBufferSize opened) indexA indexB results := by
  have ofA := run.scannedA.indexOf rfl shownA.toScannable
  have ofB := run.scannedB.indexOf rfl shownB.toScannable
  obtain ⟨progress, s, trace, plan, returned, same⟩ := run.planned
  have finished := PlanRun.finished (plan.weaken fun _ _ full => full.locksSucceed) returned
  obtain ⟨opened, openedAs⟩ := finished.exists_openedAs ⟨ofA.wf, ofB.wf⟩
  exact ⟨opened, run.scannedA, run.scannedB, progress, s, trace, PlanRun.testsOpen plan openedAs, returned, same⟩

/-- What a comparison has settled, in terms of the directories. -/
theorem Comparison.Run.settled (shownA : A.ShownBy comparison.scanA) (shownB : B.ShownBy comparison.scanB)
    (positive : 1 ≤ comparison.config.hashBufferSize) {opened : CString → Bool}
    (run : comparison.Run (FullTests comparison.config.hashBufferSize opened) indexA indexB results) :
    IndexOf A.tree indexA ∧ IndexOf B.tree indexB ∧ ∃ s trace,
      Finished (comparison.plan indexA indexB) s trace ∧ s.results = results ∧
      ∀ path outcome, (path, outcome) ∈ (comparison.plan indexA indexB).settled trace ↔
        (comparison.plan indexA indexB).outcomeWith ⟨A.content, B.content⟩ (opened path) path = some outcome := by
  have ofA := run.scannedA.indexOf rfl shownA.toScannable
  have ofB := run.scannedB.indexOf rfl shownB.toScannable
  obtain ⟨_, s, trace, plan, returned, same⟩ := run.planned
  have finished := PlanRun.finished (plan.weaken fun _ _ full => full.1.locksSucceed) returned
  have holds : (comparison.plan indexA indexB).Holds ⟨A.content, B.content⟩ :=
    ⟨fun path content found opened => shownA.opened ofA found opened,
      fun path content found opened => shownB.opened ofB found opened⟩
  exact ⟨ofA, ofB, s, trace, finished, same, fun path outcome =>
    finished.mem_settled_with ⟨ofA.wf, ofB.wf⟩ holds positive
      (PlanRun.fullReads (plan.weaken fun _ _ full => full.1)) (PlanRun.openedAs plan)⟩

end

end Verdiff
