import Verdiff.Output.Report
import Verdiff.Planner.Machine
import Verdiff.Scanner.Machine

/-! `main` between its options and its reports.

Each stage runs when all stages before it have returned zero. A stage that fails ends the
run with its code. The files stay as they are while the program runs.
-/

set_option autoImplicit false

namespace Verdiff

structure MainOptions where
  rootA : CString
  rootB : CString
  threadCount : Nat
  threads_pos : 0 < threadCount
  includeLines : Bool
  includeUnchanged : Bool

def mainConfig (options : MainOptions) : Config where
  rootA := options.rootA
  rootB := options.rootB
  threadCount := options.threadCount
  includeLines := options.includeLines
  includeUnchanged := options.includeUnchanged
  hashBufferSize := 2 ^ 20
  mmapThreshold := 16 * 2 ^ 20
  verifyEqualHashes := true

structure MainContext where
  options : MainOptions
  files : FileSystem
  xxh : Xxh3

namespace MainContext

variable (context : MainContext)

def config : Config := mainConfig context.options

def scanA : ScanContext := ⟨context.options.rootA, vdHashPath, context.files, .scanA⟩

def scanB : ScanContext := ⟨context.options.rootB, vdHashPath, context.files, .scanB⟩

def plan (indexA indexB : FileIndex) : PlanContext where
  config := context.config
  hashPath := vdHashPath
  indexA := indexA
  indexB := indexB
  files := context.files
  xxh := context.xxh
  queueCapacity := planQueueCapacity
  capacity_pos := planQueueCapacity_pos
  threads_pos := context.options.threads_pos

end MainContext

/-- What `main` has once a stage has returned zero. -/
inductive MainStage where
  | initialised (indexA indexB : FileIndex) (progress : ProgressState)
  | scannedA (indexA indexB : FileIndex) (progress : ProgressState)
  | scannedB (indexA indexB : FileIndex) (progress : ProgressState)
  | compared (indexA indexB : FileIndex) (results : ResultSet) (progress : ProgressState)
  | failed (rc : Rc)

/-- The stages a run of `main` can reach; `allowed` restricts the steps of the comparison. -/
inductive MainRun (context : MainContext) (allowed : PlanState → PlanAction → Prop) : MainStage → Prop where
  | initFailedA {slotsOk : Bool} {rc : Rc} {index : FileIndex} :
      fileIndexInit 1024 slotsOk = some (rc, index) → rc ≠ 0 → MainRun context allowed (.failed rc)
  | initFailedB {slotsA slotsB : Bool} {rc : Rc} {indexA indexB : FileIndex} :
      fileIndexInit 1024 slotsA = some (0, indexA) → fileIndexInit 1024 slotsB = some (rc, indexB) → rc ≠ 0 →
      MainRun context allowed (.failed rc)
  -- The mutex of the result set or the one of the progress state.
  | mutexFailed {slotsA slotsB : Bool} {rc : Rc} {indexA indexB : FileIndex} :
      fileIndexInit 1024 slotsA = some (0, indexA) → fileIndexInit 1024 slotsB = some (0, indexB) → rc ≠ 0 →
      MainRun context allowed (.failed rc)
  | initialised {slotsA slotsB : Bool} {indexA indexB : FileIndex} :
      fileIndexInit 1024 slotsA = some (0, indexA) → fileIndexInit 1024 slotsB = some (0, indexB) →
      MainRun context allowed (.initialised indexA indexB progressInit)
  | scanFailedA {indexA indexB : FileIndex} {progress : ProgressState} {s : ScanState}
      {trace : List ScanEvent} {rc : Rc} : MainRun context allowed (.initialised indexA indexB progress) →
      ScanRun context.scanA indexA (progressPhaseBegin progress .scanA) s trace → s.stage = .returned rc →
      rc ≠ 0 → MainRun context allowed (.failed rc)
  | scannedA {indexA indexB : FileIndex} {progress : ProgressState} {s : ScanState} {trace : List ScanEvent} :
      MainRun context allowed (.initialised indexA indexB progress) →
      ScanRun context.scanA indexA (progressPhaseBegin progress .scanA) s trace → s.stage = .returned 0 →
      MainRun context allowed (.scannedA s.index indexB s.progress)
  | scanFailedB {indexA indexB : FileIndex} {progress : ProgressState} {s : ScanState}
      {trace : List ScanEvent} {rc : Rc} : MainRun context allowed (.scannedA indexA indexB progress) →
      ScanRun context.scanB indexB (progressPhaseBegin progress .scanB) s trace → s.stage = .returned rc →
      rc ≠ 0 → MainRun context allowed (.failed rc)
  | scannedB {indexA indexB : FileIndex} {progress : ProgressState} {s : ScanState} {trace : List ScanEvent} :
      MainRun context allowed (.scannedA indexA indexB progress) →
      ScanRun context.scanB indexB (progressPhaseBegin progress .scanB) s trace → s.stage = .returned 0 →
      MainRun context allowed (.scannedB indexA s.index s.progress)
  | planFailed {indexA indexB : FileIndex} {progress : ProgressState} {s : PlanState}
      {trace : List PlanEvent} {rc : Rc} : MainRun context allowed (.scannedB indexA indexB progress) →
      PlanRun (context.plan indexA indexB) allowed resultSetInit (progressPhaseBegin progress .plan) s trace →
      s.main = .returned rc → rc ≠ 0 → MainRun context allowed (.failed rc)
  | compared {indexA indexB : FileIndex} {progress : ProgressState} {s : PlanState} {trace : List PlanEvent} :
      MainRun context allowed (.scannedB indexA indexB progress) →
      PlanRun (context.plan indexA indexB) allowed resultSetInit (progressPhaseBegin progress .plan) s trace →
      s.main = .returned 0 → MainRun context allowed (.compared indexA indexB s.results s.progress)

def mainStats (indexA indexB : FileIndex) (results : ResultSet) (now : Int) : RunStats where
  filesInA := indexA.count
  filesInB := indexB.count
  totalFilesScanned := (indexA.count + results.addedCount) % wordSize
  scanTime := now

end Verdiff
