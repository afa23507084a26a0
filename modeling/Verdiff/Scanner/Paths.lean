import Verdiff.Compare.Candidate
import Verdiff.Scanner.Coverage

/-! The two paths of every frame belong together, and a file is indexed under the path that
leads to it from the root, as the comparison joins it.
-/

set_option autoImplicit false

namespace Verdiff
open Transition

/-- Directories yield names that are not empty and have no slash in them. -/
def FileSystem.YieldsNames (files : FileSystem) : Prop :=
  ∀ path dir, files.opendir path = .ok dir → ∀ name ∈ dir.names, name.bytes ≠ [] ∧ slash ∉ name.bytes

/-- The absolute path is what the relative path names below the root. -/
structure ScanFrame.Located (root : CString) (frame : ScanFrame) : Prop where
  shaped : frame.relative = .empty ∨ frame.relative.OpenEnded
  absolute_eq : frame.absolute = if frame.relative = .empty then root else vdJoinPath root frame.relative

def ScanFrame.entry (frame : ScanFrame) (name : CString) : ScanFrame :=
  ⟨vdNormalizeJoinedRelative frame.relative name, vdJoinPath frame.absolute name⟩

def ScanState.frames (s : ScanState) : List ScanFrame :=
  match s.stage with
  | .reading frame _ _ => frame :: s.stack.items
  | _ => s.stack.items

def lstatPath (s : ScanState) (allocs : ScanAllocs) : Option CString :=
  match s.stage with
  | .reading frame (name :: _) _ =>
    if strcmp name dot = 0 ∨ strcmp name dotDot = 0 then none
    else if !allocs.relativeOk || !allocs.absoluteOk then none
    else some (frame.entry name).absolute
  | _ => none

variable {context : ScanContext} {s t : ScanState} {events trace : List ScanEvent} {allocs : ScanAllocs}
  {index : FileIndex} {progress : ProgressState}

theorem proper_openEnded {name : CString} (nonempty : name.bytes ≠ []) (noSlash : slash ∉ name.bytes) :
    name.OpenEnded :=
  ⟨nonempty, fun last => noSlash (List.mem_of_getLast? last)⟩

theorem ScanFrame.Located.entry {root : CString} {frame : ScanFrame} (located : frame.Located root)
    {name : CString} (nonempty : name.bytes ≠ []) (noSlash : slash ∉ name.bytes) :
    (frame.entry name).Located root ∧ (frame.entry name).relative ≠ .empty ∧
      (frame.entry name).absolute = vdJoinPath root (frame.entry name).relative := by
  have openEnded := proper_openEnded nonempty noSlash
  have shaped : (frame.entry name).relative.OpenEnded := by
    simp only [ScanFrame.entry, vdNormalizeJoinedRelative]
    split
    · exact openEnded.append
    · exact openEnded
  have apart : (frame.entry name).relative ≠ .empty := fun same => shaped.nonempty (congrArg CString.bytes same)
  have joins : (frame.entry name).absolute = vdJoinPath root (frame.entry name).relative := by
    rcases located.shaped with empty | ends
    · have absolute := located.absolute_eq
      rw [if_pos empty] at absolute
      simp [ScanFrame.entry, absolute, empty, vdNormalizeJoinedRelative, CString.empty]
    · have absolute := located.absolute_eq
      rw [if_neg fun same => ends.nonempty (congrArg CString.bytes same)] at absolute
      rw [ScanFrame.entry, absolute]
      exact vdJoinPath_joined ends name
  exact ⟨⟨.inr shaped, by rw [if_neg apart, joins]⟩, apart, joins⟩

theorem scanStep_lstat {lstat : CString → Except Fault Stat}
    (agrees : ∀ path, lstatPath s allocs = some path → lstat path = context.files.lstat path) :
    scanStep { context with files := { context.files with lstat := lstat } } s allocs = scanStep context s allocs := by
  unfold scanStep
  cases stage : s.stage with
  | reading frame names fault =>
    cases names with
    | nil => cases fault <;> rfl
    | cons name rest =>
      simp only
      split
      · rfl
      next entry =>
        by_cases allocated : (!allocs.relativeOk || !allocs.absoluteOk) = true
        · simp only [scanEntry, allocated, ↓reduceIte]
        · have asked := agrees (frame.entry name).absolute (by
            simp only [lstatPath, stage, entry, allocated, Bool.false_eq_true, ↓reduceIte])
          simp only [ScanFrame.entry] at asked
          simp only [scanEntry, allocated, asked]
  | _ => rfl

theorem scanEntry_index {frame : ScanFrame} {name : CString} {rc : Rc} {call : ScanCall}
    (scanned : scanEntry context s frame name allocs = some (rc, t, call)) :
    (t.index = s.index ∧ call ≠ .fileIndexUpsert) ∨
    ∃ st, (!allocs.relativeOk || !allocs.absoluteOk) = false ∧
      context.files.lstat (frame.entry name).absolute = .ok st ∧ st.kind = .regular ∧
      fileIndexUpsert context.hashPath s.index (frame.entry name).relative st.size st.mtime allocs.upsert =
        some (rc, t.index) ∧ call = .fileIndexUpsert := by
  unfold scanEntry at scanned
  split at scanned
  · cases scanned; exact .inl ⟨rfl, by simp⟩
  next allocated =>
    simp only at scanned
    split at scanned
    · cases scanned; exact .inl ⟨rfl, by simp⟩
    next st shown =>
      split at scanned
      · cases scanned; exact .inl ⟨rfl, by simp⟩
      next regular =>
        split at scanned
        · cases scanned
        next code index upserted =>
          cases scanned
          exact .inr ⟨st, by simpa using allocated, shown, regular, upserted, rfl⟩
      · cases scanned; exact .inl ⟨rfl, by simp⟩

theorem scanStep_index (stepped : scanStep context s allocs = some (t, events)) :
    (t.index = s.index ∧ ∀ rc, ⟨.fileIndexUpsert, rc⟩ ∉ events) ∨
    ∃ frame name rest fault st rc, s.stage = .reading frame (name :: rest) fault ∧
      lstatPath s allocs = some (frame.entry name).absolute ∧
      context.files.lstat (frame.entry name).absolute = .ok st ∧ st.kind = .regular ∧
      fileIndexUpsert context.hashPath s.index (frame.entry name).relative st.size st.mtime allocs.upsert =
        some (rc, t.index) ∧ events = [⟨.readdir, 0⟩, ⟨.fileIndexUpsert, rc⟩] := by
  -- A step leaves the index alone, or upserts a regular file under the entry's relative path.
  unfold scanStep at stepped
  cases stage : s.stage with
  | starting =>
    rw [stage] at stepped
    simp only at stepped
    split at stepped
    · cases stepped; exact .inl ⟨rfl, by simp⟩
    · split at stepped <;> cases stepped <;> exact .inl ⟨rfl, by simp⟩
  | popping =>
    rw [stage] at stepped
    simp only at stepped
    split at stepped
    · cases stepped; exact .inl ⟨rfl, by simp⟩
    · split at stepped <;> cases stepped <;> exact .inl ⟨rfl, by simp⟩
  | returned rc => rw [stage] at stepped; cases stepped
  | reading frame names fault =>
    rw [stage] at stepped
    cases names with
    | nil => cases fault <;> cases stepped <;> exact .inl ⟨rfl, by simp⟩
    | cons name rest =>
      simp only at stepped
      split at stepped
      · cases stepped; exact .inl ⟨rfl, by simp⟩
      next entry =>
        split at stepped
        · cases stepped
        next rc next call scanned =>
          cases stepped
          rcases scanEntry_index scanned with ⟨same, other⟩ | ⟨st, allocated, shown, regular, upserted, rfl⟩
          · exact .inl ⟨same, by simp [other.symm]⟩
          · have asked : lstatPath s allocs = some (frame.entry name).absolute := by
              simp only [lstatPath, stage, entry, allocated, Bool.false_eq_true, ↓reduceIte]
            exact .inr ⟨frame, name, rest, fault, st, rc, rfl, asked, shown, regular, upserted, rfl⟩

/-- All frames are located, and the open directory still yields proper names. -/
structure LocatedScan (context : ScanContext) (s : ScanState) : Prop where
  wf : s.index.WellFormed context.hashPath
  stack : ∀ frame ∈ s.stack.items, frame.Located context.root
  reading : ∀ frame names fault, s.stage = .reading frame names fault →
    frame.Located context.root ∧ ∀ name ∈ names, name.bytes ≠ [] ∧ slash ∉ name.bytes

theorem LocatedScan.next {frame : ScanFrame} {name : CString} {rest : List CString} {fault : Option Fault}
    (located : LocatedScan context s) (stage : s.stage = .reading frame (name :: rest) fault)
    (after : t.stage = .reading frame rest fault) : ∀ other names fault, t.stage = .reading other names fault →
      other.Located context.root ∧ ∀ name ∈ names, name.bytes ≠ [] ∧ slash ∉ name.bytes := by
  -- The open directory has one name less to yield.
  intro other names fault reading
  rw [after] at reading
  cases reading
  obtain ⟨here, proper⟩ := located.reading _ _ _ stage
  exact ⟨here, fun later member => proper later (List.mem_cons_of_mem _ member)⟩

theorem ScanMove.located (move : ScanMove context s t events) (yields : context.files.YieldsNames)
    (located : LocatedScan context s) : LocatedScan context t := by
  have idle : ∀ stage : ScanStage, (∀ frame names fault, stage ≠ .reading frame names fault) →
      ∀ frame names fault, stage = .reading frame names fault →
        frame.Located context.root ∧ ∀ name ∈ names, name.bytes ≠ [] ∧ slash ∉ name.bytes :=
    fun stage other frame names fault reading => absurd reading (other frame names fault)
  cases move with
  | startFailed call rc stage => exact ⟨located.wf, located.stack, idle _ (by simp)⟩
  | started capacity stage =>
    refine ⟨located.wf, fun frame member => ?_, idle _ (by simp)⟩
    rcases List.mem_cons.mp member with rfl | below
    · exact ⟨.inl rfl, by simp⟩
    · exact located.stack frame below
  | finished stage => exact ⟨located.wf, located.stack, idle _ (by simp)⟩
  | openFailed frame rest fault stage items =>
    exact ⟨located.wf, fun other below => located.stack other (items ▸ List.mem_cons_of_mem _ below),
      idle _ (by simp)⟩
  | opened frame rest dir stage items opened =>
    refine ⟨located.wf, fun other below => located.stack other (items ▸ List.mem_cons_of_mem _ below), ?_⟩
    intro other names fault reading
    cases reading
    exact ⟨located.stack _ (items ▸ List.mem_cons_self), yields _ _ opened⟩
  | readEnded frame stage => exact ⟨located.wf, located.stack, idle _ (by simp)⟩
  | readFailed frame fault stage => exact ⟨located.wf, located.stack, idle _ (by simp)⟩
  | dots frame name rest fault stage => exact ⟨located.wf, located.stack, located.next stage rfl⟩
  | entryFailed frame name rest fault call rc index stage failed kept =>
    exact ⟨kept located.wf, located.stack, idle _ (by simp)⟩
  | descended frame name rest fault st capacity stage =>
    obtain ⟨here, proper⟩ := located.reading _ _ _ stage
    obtain ⟨nonempty, noSlash⟩ := proper name (by simp)
    refine ⟨located.wf, fun other member => ?_, located.next stage rfl⟩
    rcases List.mem_cons.mp member with rfl | below
    · exact (here.entry nonempty noSlash).1
    · exact located.stack other below
  | indexed frame name rest fault st allocs index stage _ _ _ _ upserted =>
    obtain ⟨_, _, again, wf, _⟩ := fileIndexUpsert_spec located.wf
      (vdNormalizeJoinedRelative frame.relative name) st.size st.mtime allocs
    rw [upserted] at again
    cases again
    exact ⟨wf, located.stack, located.next stage rfl⟩
  | passed frame name rest fault st stage => exact ⟨located.wf, located.stack, located.next stage rfl⟩

theorem ScanRun.located (yields : context.files.YieldsNames) (wf : index.WellFormed context.hashPath)
    (run : ScanRun context index progress s trace) : LocatedScan context s := by
  refine Run.invariant (fun s _ => LocatedScan context s) ⟨wf, by simp [scanStart], by simp [scanStart]⟩ ?_ run
  intro s t trace events allocs _ located _ stepped
  exact (scanStep_some located.wf stepped).1.located yields located

theorem LocatedScan.entry {frame : ScanFrame} {name : CString} {rest : List CString} {fault : Option Fault}
    (located : LocatedScan context s) (stage : s.stage = .reading frame (name :: rest) fault) :
    (frame.entry name).absolute = vdJoinPath context.root (frame.entry name).relative := by
  obtain ⟨here, proper⟩ := located.reading _ _ _ stage
  obtain ⟨nonempty, noSlash⟩ := proper name (by simp)
  exact (here.entry nonempty noSlash).2.2

theorem ScanRun.shown (yields : context.files.YieldsNames) (wf : index.WellFormed context.hashPath)
    (run : ScanRun context index progress s trace) : ∀ path ∈ s.index.keys, path ∈ index.keys ∨
      ∃ st, context.files.lstat (vdJoinPath context.root path) = .ok st ∧ st.kind = .regular := by
  -- A path that is in the index and was not there from the start names, below the root, the regular file
  -- `lstat` has shown.
  refine Run.invariant (fun s _ => ∀ path ∈ s.index.keys, path ∈ index.keys ∨
    ∃ st, context.files.lstat (vdJoinPath context.root path) = .ok st ∧ st.kind = .regular)
    (fun path member => .inl member) ?_ run
  intro s t trace events allocs earlier before _ stepped path member
  have located := ScanRun.located yields wf earlier
  rcases scanStep_index stepped with ⟨same, _⟩ |
    ⟨frame, name, rest, fault, st, rc, stage, _, shown, regular, upserted, _⟩
  · exact before path (same ▸ member)
  · obtain ⟨_, _, again, wfAfter, effect⟩ := fileIndexUpsert_spec located.wf (frame.entry name).relative
      st.size st.mtime allocs.upsert
    rw [upserted] at again
    cases again
    rw [wfAfter.mem_keys] at member
    rcases effect with ⟨_, lookups⟩ | ⟨_, lookups⟩
    · by_cases here : path = (frame.entry name).relative
      · rw [located.entry stage, ← here] at shown
        exact .inr ⟨st, shown, regular⟩
      · rw [lookups, if_neg here] at member
        exact before path (located.wf.mem_keys.mpr member)
    · rw [lookups] at member
      exact before path (located.wf.mem_keys.mpr member)

/-- In every state of a scan the two paths of each frame agree, and a file is entered under the
path whose join with the root has been passed to `lstat` and is opened for the comparison. -/
theorem scan_paths_agree (yields : context.files.YieldsNames) (wf : index.WellFormed context.hashPath)
    (run : ScanRun context index progress s trace) :
    (∀ frame ∈ s.frames,
      frame.absolute = if frame.relative = .empty then context.root else vdJoinPath context.root frame.relative) ∧
    (∀ allocs t events, scanStep context s allocs = some (t, events) → ⟨.fileIndexUpsert, 0⟩ ∈ events →
      ∃ path st, lstatPath s allocs = some (vdJoinPath context.root path) ∧
        context.files.lstat (vdJoinPath context.root path) = .ok st ∧ st.kind = .regular ∧
        fileIndexUpsert context.hashPath s.index path st.size st.mtime allocs.upsert = some (0, t.index)) ∧
    (∀ allocs lstat, (∀ path, lstatPath s allocs = some path → lstat path = context.files.lstat path) →
      scanStep { context with files := { context.files with lstat := lstat } } s allocs =
        scanStep context s allocs) ∧
    (∀ path ∈ s.index.keys, path ∈ index.keys ∨
      ∃ st, context.files.lstat (vdJoinPath context.root path) = .ok st ∧ st.kind = .regular) ∧
    ∀ (compare : CompareContext) files path, (∀ root, root = compare.config.rootA ∨ root = compare.config.rootB →
        files.openFile (vdJoinPath root path) = compare.files.openFile (vdJoinPath root path)) →
      ∀ env results, compareCandidateFile { compare with files := files } path env results =
        compareCandidateFile compare path env results := by
  have located := ScanRun.located yields wf run
  refine ⟨?_, ?_, fun allocs lstat => scanStep_lstat, ScanRun.shown yields wf run,
    fun compare files path => compareCandidateFile_opens compare⟩
  · intro frame member
    unfold ScanState.frames at member
    split at member
    next current names fault stage =>
      rcases List.mem_cons.mp member with rfl | below
      · exact (located.reading _ _ _ stage).1.absolute_eq
      · exact (located.stack frame below).absolute_eq
    · exact (located.stack frame member).absolute_eq
  · intro allocs t events stepped upserted
    rcases scanStep_index stepped with ⟨_, none⟩ |
      ⟨frame, name, rest, fault, st, rc, stage, asked, shown, regular, entered, rfl⟩
    · exact absurd upserted (none 0)
    · obtain rfl : rc = 0 := by simpa [eq_comm] using upserted
      rw [located.entry stage] at asked shown
      exact ⟨_, st, asked, shown, regular, entered⟩

theorem sampleScan_yieldsNames (backwards : Bool) : (sampleScan backwards).files.YieldsNames := by
  intro path dir opened name member
  simp only [sampleScan] at opened
  split at opened
  · cases opened
    cases backwards
    all_goals revert name; decide
  · cases opened
    revert name; decide
  · cases opened

/-- Within the directory below the root both paths have grown by one name. -/
theorem scan_paths_agree_nested : ∃ (s : ScanState) (frame : ScanFrame), frame ∈ s.frames ∧
    (frame.relative.bytes, frame.absolute.bytes) = ([100], [114, 47, 100]) ∧
    ∀ frame ∈ s.frames, frame.absolute =
      if frame.relative = .empty then (sampleScan false).root
      else vdJoinPath (sampleScan false).root frame.relative := by
  let index : FileIndex := ⟨List.replicate 16 none, 16, 0⟩
  have ends : (perform (scanStep (sampleScan false)) (List.replicate 9 ⟨true, true, true, true, true⟩)
      (scanStart index progressInit)).map
        (fun run => run.1.frames.map fun frame => (frame.relative.bytes, frame.absolute.bytes)) =
          some [([100], [114, 47, 100])] := by
    decide +kernel
  obtain ⟨⟨s, trace⟩, performed, frames⟩ := Option.map_eq_some_iff.mp ends
  obtain ⟨frame, member, shape⟩ := List.mem_map.mp (frames ▸ List.mem_singleton_self _ :
    ([100], [114, 47, 100]) ∈ s.frames.map fun frame => (frame.relative.bytes, frame.absolute.bytes))
  exact ⟨s, frame, member, shape, (scan_paths_agree (sampleScan_yieldsNames false)
    (wellFormed_vacant ⟨4, by decide, rfl⟩ (by decide))
    (Run.of_perform (fun _ _ _ => trivial) performed)).1⟩

end Verdiff
