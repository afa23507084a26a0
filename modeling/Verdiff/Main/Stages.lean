import Verdiff.Main.Machine
import Verdiff.Scanner.Coverage

/-! What `main` holds once a stage has returned zero: two indexes of the scanned trees, and
in the end a finished plan.
-/

set_option autoImplicit false

namespace Verdiff

def Node.HasFile (tree : Node) (path : CString) : Prop :=
  ∃ components size mtime, tree.Leads components (.file size mtime) ∧ path.bytes = joined components

/-- The index a scan of the tree leaves. -/
structure IndexOf (tree : Node) (index : FileIndex) : Prop where
  wf : index.WellFormed vdHashPath
  find_iff : ∀ {path info}, fileIndexFind vdHashPath index path = some info ↔
    info.path = path ∧ ∃ components, tree.Leads components (.file info.size info.mtime) ∧
      path.bytes = joined components

theorem IndexOf.mem_keys {tree : Node} {index : FileIndex} (indexOf : IndexOf tree index) {path : CString} :
    path ∈ index.keys ↔ tree.HasFile path := by
  rw [indexOf.wf.mem_keys, Option.isSome_iff_exists]
  constructor
  · rintro ⟨info, found⟩
    obtain ⟨_, components, leads, bytes⟩ := indexOf.find_iff.mp found
    exact ⟨components, _, _, leads, bytes⟩
  · rintro ⟨components, size, mtime, leads, bytes⟩
    exact ⟨⟨path, size, mtime⟩, indexOf.find_iff.mpr ⟨rfl, components, leads, bytes⟩⟩

structure Vacant (index : FileIndex) : Prop where
  wf : index.WellFormed vdHashPath
  empty : index.entries = []

variable {context : MainContext} {allowed : PlanState → PlanAction → Prop} {treeA treeB : Node}
  {indexA indexB : FileIndex} {results : ResultSet} {progress : ProgressState}

def MainStage.Sound (context : MainContext) (allowed : PlanState → PlanAction → Prop) (treeA treeB : Node) :
    MainStage → Prop
  | .initialised indexA indexB _ => Vacant indexA ∧ Vacant indexB
  | .scannedA indexA indexB _ => IndexOf treeA indexA ∧ Vacant indexB
  | .scannedB indexA indexB _ => IndexOf treeA indexA ∧ IndexOf treeB indexB
  | .compared indexA indexB results _ => IndexOf treeA indexA ∧ IndexOf treeB indexB ∧
    ∃ progress s trace, PlanRun (context.plan indexA indexB) allowed resultSetInit progress s trace ∧
      s.main = .returned 0 ∧ s.results = results
  | .failed rc => rc ≠ 0

theorem fileIndexInit_vacant {slotsOk : Bool} {index : FileIndex}
    (started : fileIndexInit 1024 slotsOk = some (0, index)) : Vacant index := by
  obtain ⟨_, _, again, ready⟩ := fileIndexInit_spec vdHashPath (show 1024 ≤ 2 ^ 63 by decide) slotsOk
  rw [started] at again
  cases again
  exact ⟨(ready rfl).1, (ready rfl).2⟩

theorem ScanRun.indexOf {scan : ScanContext} (hash : scan.hashPath = vdHashPath) {tree : Node}
    (scannable : Scannable scan tree) {index : FileIndex} (vacant : Vacant index) {s : ScanState}
    {trace : List ScanEvent} (run : ScanRun scan index progress s trace) (returned : s.stage = .returned 0) :
    IndexOf tree s.index := by
  have wf : index.WellFormed scan.hashPath := hash ▸ vacant.wf
  constructor
  · exact hash ▸ (ScanRun.scanning wf vacant.empty scannable run).wf
  · intro path info
    rw [← hash]
    exact ScanRun.find_iff wf vacant.empty scannable run returned

theorem MainRun.sound (scannableA : Scannable context.scanA treeA) (scannableB : Scannable context.scanB treeB)
    {stage : MainStage} (run : MainRun context allowed stage) : stage.Sound context allowed treeA treeB := by
  induction run with
  | initFailedA _ failed => exact failed
  | initFailedB _ _ failed => exact failed
  | mutexFailed _ _ failed => exact failed
  | initialised startedA startedB => exact ⟨fileIndexInit_vacant startedA, fileIndexInit_vacant startedB⟩
  | scanFailedA _ _ _ failed => exact failed
  | scannedA _ scan returned ih => exact ⟨ScanRun.indexOf rfl scannableA ih.1 scan returned, ih.2⟩
  | scanFailedB _ _ _ failed => exact failed
  | scannedB _ scan returned ih => exact ⟨ih.1, ScanRun.indexOf rfl scannableB ih.2 scan returned⟩
  | planFailed _ _ _ failed => exact failed
  | compared _ plan returned ih => exact ⟨ih.1, ih.2, _, _, _, plan, returned, rfl⟩

end Verdiff
