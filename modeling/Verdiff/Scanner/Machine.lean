import Verdiff.Index.Refinement
import Verdiff.Library.Transition
import Verdiff.Progress
import Verdiff.Scanner.Tree

/-! `scan_directory`, one pass of one of its loops at a time.

The outer loop pops a frame and opens it; the inner loop reads one name after the other.
A step resolves the allocations it makes; the file system decides everything else. The
events are the calls that can fail, each with its code.
-/

set_option autoImplicit false

namespace Verdiff
open Transition

structure ScanFrame where
  relative : CString
  absolute : CString
  deriving DecidableEq

/-- The frames in use, the top of the stack first. -/
structure FrameStack where
  items : List ScanFrame
  capacity : Nat
  deriving DecidableEq

def frameStackPush (stack : FrameStack) (frame : ScanFrame) (growOk : Bool) : Rc × FrameStack :=
  if stack.items.length = stack.capacity then
    if growOk then
      (0, ⟨frame :: stack.items, if stack.capacity = 0 then 32 else stack.capacity * 2⟩)
    else (Fault.ENOMEM.code, stack)
  else (0, { stack with items := frame :: stack.items })

def frameStackPop (stack : FrameStack) : Option (ScanFrame × FrameStack) :=
  match stack.items with
  | [] => none
  | frame :: rest => some (frame, { stack with items := rest })

structure ScanContext where
  root : CString
  hashPath : CString → UInt64
  files : FileSystem
  phase : ProgressPhase

/-- `popping` is in front of `frame_stack_pop`; `reading` is in front of `readdir`, which has
`names` still to yield and then ends or fails with `fault`. -/
inductive ScanStage where
  | starting
  | popping
  | reading (frame : ScanFrame) (names : List CString) (fault : Option Fault)
  | returned (rc : Rc)
  deriving DecidableEq

structure ScanState where
  stage : ScanStage
  stack : FrameStack
  index : FileIndex
  progress : ProgressState
  deriving DecidableEq

/-- The outcomes of the allocations of one step: the two strings, the stack, the index. -/
structure ScanAllocs where
  relativeOk : Bool
  absoluteOk : Bool
  stackOk : Bool
  upsert : UpsertAllocs

inductive ScanCall where
  | strings
  | frameStackPush
  | opendir
  | readdir
  | lstat
  | fileIndexUpsert
  deriving DecidableEq

structure ScanEvent where
  call : ScanCall
  rc : Rc
  deriving DecidableEq

section
variable (context : ScanContext)

/-- The body of the inner loop for a name that is neither dot name. -/
def scanEntry (s : ScanState) (frame : ScanFrame) (name : CString) (allocs : ScanAllocs) :
    Option (Rc × ScanState × ScanCall) :=
  if !allocs.relativeOk || !allocs.absoluteOk then some (Fault.ENOMEM.code, s, .strings)
  else
    let rel := vdNormalizeJoinedRelative frame.relative name
    let abs := vdJoinPath frame.absolute name
    match context.files.lstat abs with
    | .error fault => some (fault.code, s, .lstat)
    | .ok st =>
      match st.kind with
      | .directory =>
        let (rc, stack) := frameStackPush s.stack ⟨rel, abs⟩ allocs.stackOk
        some (rc, { s with stack := stack }, .frameStackPush)
      | .regular =>
        match fileIndexUpsert context.hashPath s.index rel st.size st.mtime allocs.upsert with
        | none => none
        | some (rc, index) =>
          let progress := if rc = 0 then progressNoteScan s.progress context.phase else s.progress
          some (rc, { s with index := index, progress := progress }, .fileIndexUpsert)
      -- Links and special files are passed over.
      | _ => some (0, s, .lstat)

def scanStep (s : ScanState) (allocs : ScanAllocs) : Option (ScanState × List ScanEvent) :=
  match s.stage with
  | .starting =>
    if !allocs.relativeOk || !allocs.absoluteOk then
      some ({ s with stage := .returned Fault.ENOMEM.code }, [⟨.strings, Fault.ENOMEM.code⟩])
    else
      let (rc, stack) := frameStackPush s.stack ⟨.empty, context.root⟩ allocs.stackOk
      if rc ≠ 0 then some ({ s with stage := .returned rc }, [⟨.frameStackPush, rc⟩])
      else some ({ s with stack := stack, stage := .popping }, [⟨.frameStackPush, rc⟩])
  | .popping =>
    match frameStackPop s.stack with
    | none => some ({ s with stage := .returned 0 }, [])
    | some (frame, stack) =>
      match context.files.opendir frame.absolute with
      | .error fault =>
        some ({ s with stack := stack, stage := .returned fault.code }, [⟨.opendir, fault.code⟩])
      | .ok dir =>
        some ({ s with stack := stack, stage := .reading frame dir.names dir.fault }, [⟨.opendir, 0⟩])
  -- `readdir` has returned `NULL`; `errno` tells the end from a failure.
  | .reading _ [] none => some ({ s with stage := .popping }, [⟨.readdir, 0⟩])
  | .reading _ [] (some fault) =>
    some ({ s with stage := .returned fault.code }, [⟨.readdir, fault.code⟩])
  | .reading frame (name :: rest) fault =>
    if strcmp name dot = 0 ∨ strcmp name dotDot = 0 then
      some ({ s with stage := .reading frame rest fault }, [⟨.readdir, 0⟩])
    else
      match scanEntry context s frame name allocs with
      | none => none
      | some (rc, next, call) =>
        let stage := if rc ≠ 0 then .returned rc else .reading frame rest fault
        some ({ next with stage := stage }, [⟨.readdir, 0⟩, ⟨call, rc⟩])
  | .returned _ => none

end

def scanStart (index : FileIndex) (progress : ProgressState) : ScanState :=
  ⟨.starting, ⟨[], 0⟩, index, progress⟩

abbrev ScanRun (context : ScanContext) (index : FileIndex) (progress : ProgressState) :
    ScanState → List ScanEvent → Prop :=
  Run (scanStep context) (fun _ _ => True) (scanStart index progress)

/-! ## When a step fails -/

def FrameStack.Granted (stack : FrameStack) (growOk : Bool) : Prop :=
  stack.items.length = stack.capacity → growOk = true

def EntryGranted (context : ScanContext) (s : ScanState) (frame : ScanFrame) (name : CString)
    (allocs : ScanAllocs) : Prop :=
  (allocs.relativeOk = true ∧ allocs.absoluteOk = true) ∧
    ∀ st, context.files.lstat (vdJoinPath frame.absolute name) = .ok st →
      (st.kind = .directory → s.stack.Granted allocs.stackOk) ∧
      (st.kind = .regular → s.index.Granted (vdNormalizeJoinedRelative frame.relative name) allocs.upsert)

/-- The allocations that the next step asks for are granted. -/
def ScanGranted (context : ScanContext) (s : ScanState) (allocs : ScanAllocs) : Prop :=
  match s.stage with
  | .starting => (allocs.relativeOk = true ∧ allocs.absoluteOk = true) ∧ s.stack.Granted allocs.stackOk
  | .reading frame (name :: _) _ => ¬(name = dot ∨ name = dotDot) → EntryGranted context s frame name allocs
  | _ => True

/-- The file system refuses the call that the next step makes. -/
def ScanRefused (context : ScanContext) (s : ScanState) : Prop :=
  match s.stage with
  | .popping => ∃ frame rest fault, s.stack.items = frame :: rest ∧
      context.files.opendir frame.absolute = .error fault
  | .reading _ [] fault => fault.isSome
  | .reading frame (name :: _) _ => ¬(name = dot ∨ name = dotDot) ∧
      ∃ fault, context.files.lstat (vdJoinPath frame.absolute name) = .error fault
  | _ => False

def ScanStage.Unfailed (stage : ScanStage) : Prop := ∀ rc, stage = .returned rc → rc = 0

/-! ## What one step can do -/

theorem frameStackPush_cases (stack : FrameStack) (frame : ScanFrame) (growOk : Bool) :
    (∃ capacity, frameStackPush stack frame growOk = (0, ⟨frame :: stack.items, capacity⟩)) ∨
    frameStackPush stack frame growOk = (Fault.ENOMEM.code, stack) := by
  unfold frameStackPush
  split
  · split
    · exact .inl ⟨_, rfl⟩
    · exact .inr rfl
  · exact .inl ⟨_, rfl⟩

theorem frameStackPush_zero_iff (stack : FrameStack) (frame : ScanFrame) (growOk : Bool) :
    (frameStackPush stack frame growOk).1 = 0 ↔ stack.Granted growOk := by
  unfold frameStackPush FrameStack.Granted
  split
  next full => cases growOk <;> simp [full, Fault.ENOMEM.nonzero]
  next room => simp [room]

/-- Each branch of the step; the branches of one failing entry are taken together. -/
inductive ScanMove (context : ScanContext) (s : ScanState) : ScanState → List ScanEvent → Prop where
  | startFailed (call : ScanCall) (rc : Rc) : s.stage = .starting → rc ≠ 0 →
      ScanMove context s { s with stage := .returned rc } [⟨call, rc⟩]
  | started (capacity : Nat) : s.stage = .starting →
      ScanMove context s { s with
        stack := ⟨⟨.empty, context.root⟩ :: s.stack.items, capacity⟩, stage := .popping } [⟨.frameStackPush, 0⟩]
  | finished : s.stage = .popping → s.stack.items = [] →
      ScanMove context s { s with stage := .returned 0 } []
  | openFailed (frame : ScanFrame) (rest : List ScanFrame) (fault : Fault) : s.stage = .popping →
      s.stack.items = frame :: rest → context.files.opendir frame.absolute = .error fault →
      ScanMove context s { s with
        stack := { s.stack with items := rest }, stage := .returned fault.code } [⟨.opendir, fault.code⟩]
  | opened (frame : ScanFrame) (rest : List ScanFrame) (dir : DirStream) : s.stage = .popping →
      s.stack.items = frame :: rest → context.files.opendir frame.absolute = .ok dir →
      ScanMove context s { s with
        stack := { s.stack with items := rest }, stage := .reading frame dir.names dir.fault } [⟨.opendir, 0⟩]
  | readEnded (frame : ScanFrame) : s.stage = .reading frame [] none →
      ScanMove context s { s with stage := .popping } [⟨.readdir, 0⟩]
  | readFailed (frame : ScanFrame) (fault : Fault) : s.stage = .reading frame [] (some fault) →
      ScanMove context s { s with stage := .returned fault.code } [⟨.readdir, fault.code⟩]
  | dots (frame : ScanFrame) (name : CString) (rest : List CString) (fault : Option Fault) :
      s.stage = .reading frame (name :: rest) fault → name = dot ∨ name = dotDot →
      ScanMove context s { s with stage := .reading frame rest fault } [⟨.readdir, 0⟩]
  | entryFailed (frame : ScanFrame) (name : CString) (rest : List CString) (fault : Option Fault)
      (call : ScanCall) (rc : Rc) (index : FileIndex) :
      s.stage = .reading frame (name :: rest) fault → rc ≠ 0 →
      (s.index.WellFormed context.hashPath → index.WellFormed context.hashPath) →
      ScanMove context s { s with index := index, stage := .returned rc } [⟨.readdir, 0⟩, ⟨call, rc⟩]
  | descended (frame : ScanFrame) (name : CString) (rest : List CString) (fault : Option Fault) (st : Stat)
      (capacity : Nat) : s.stage = .reading frame (name :: rest) fault → name ≠ dot → name ≠ dotDot →
      context.files.lstat (vdJoinPath frame.absolute name) = .ok st → st.kind = .directory →
      ScanMove context s { s with
        stack := ⟨⟨vdNormalizeJoinedRelative frame.relative name, vdJoinPath frame.absolute name⟩ ::
          s.stack.items, capacity⟩
        stage := .reading frame rest fault } [⟨.readdir, 0⟩, ⟨.frameStackPush, 0⟩]
  | indexed (frame : ScanFrame) (name : CString) (rest : List CString) (fault : Option Fault) (st : Stat)
      (allocs : UpsertAllocs) (index : FileIndex) : s.stage = .reading frame (name :: rest) fault →
      name ≠ dot → name ≠ dotDot → context.files.lstat (vdJoinPath frame.absolute name) = .ok st →
      st.kind = .regular →
      fileIndexUpsert context.hashPath s.index (vdNormalizeJoinedRelative frame.relative name)
        st.size st.mtime allocs = some (0, index) →
      ScanMove context s { s with
        index := index, progress := progressNoteScan s.progress context.phase
        stage := .reading frame rest fault } [⟨.readdir, 0⟩, ⟨.fileIndexUpsert, 0⟩]
  | passed (frame : ScanFrame) (name : CString) (rest : List CString) (fault : Option Fault) (st : Stat) :
      s.stage = .reading frame (name :: rest) fault → name ≠ dot → name ≠ dotDot →
      context.files.lstat (vdJoinPath frame.absolute name) = .ok st →
      st.kind = .symlink ∨ st.kind = .special →
      ScanMove context s { s with stage := .reading frame rest fault } [⟨.readdir, 0⟩, ⟨.lstat, 0⟩]

variable {context : ScanContext} {s t : ScanState} {allocs : ScanAllocs} {events : List ScanEvent}

theorem scanEntry_move {frame : ScanFrame} {name : CString} {rest : List CString} {fault : Option Fault}
    (wf : s.index.WellFormed context.hashPath) (reading : s.stage = .reading frame (name :: rest) fault)
    (notDot : name ≠ dot) (notDotDot : name ≠ dotDot) :
    ∃ rc next call, scanEntry context s frame name allocs = some (rc, next, call) ∧
      ScanMove context s { next with stage := if rc ≠ 0 then .returned rc else .reading frame rest fault }
        [⟨.readdir, 0⟩, ⟨call, rc⟩] := by
  -- The upsert of an entry always comes back, with an index that is still well formed.
  unfold scanEntry
  split
  · exact ⟨_, s, _, rfl, .entryFailed frame name rest fault _ _ s.index reading Fault.ENOMEM.nonzero id⟩
  · simp only
    split
    next failed _ =>
      refine ⟨_, s, _, rfl, ?_⟩
      rw [if_pos failed.nonzero]
      exact .entryFailed frame name rest fault _ _ s.index reading failed.nonzero id
    next st shown =>
      split
      next directory =>
        rcases frameStackPush_cases s.stack ⟨vdNormalizeJoinedRelative frame.relative name,
          vdJoinPath frame.absolute name⟩ allocs.stackOk with ⟨capacity, pushed⟩ | failed
        · rw [pushed]
          exact ⟨_, _, _, rfl, .descended frame name rest fault st capacity reading notDot notDotDot shown directory⟩
        · rw [failed]
          exact ⟨_, _, _, rfl, .entryFailed frame name rest fault _ _ s.index reading Fault.ENOMEM.nonzero id⟩
      next regular =>
        obtain ⟨rc, index, upserted, after, _⟩ := fileIndexUpsert_spec wf
          (vdNormalizeJoinedRelative frame.relative name) st.size st.mtime allocs.upsert
        rw [upserted]
        by_cases ok : rc = 0
        · subst ok
          exact ⟨_, _, _, rfl, .indexed frame name rest fault st allocs.upsert index reading notDot notDotDot
            shown regular upserted⟩
        · refine ⟨_, _, _, rfl, ?_⟩
          simp only [ok, ne_eq, not_false_eq_true, ↓reduceIte]
          exact .entryFailed frame name rest fault _ _ index reading ok fun _ => after
      next other₁ other₂ =>
        refine ⟨_, _, _, rfl, .passed frame name rest fault st reading notDot notDotDot shown ?_⟩
        cases kind : st.kind with
        | directory => exact absurd kind other₁
        | regular => exact absurd kind other₂
        | symlink => exact .inl rfl
        | special => exact .inr rfl

/-- Until it has returned a scan can take a step, and each step is one of the moves. -/
theorem scanStep_move (wf : s.index.WellFormed context.hashPath) (running : ∀ rc, s.stage ≠ .returned rc)
    (allocs : ScanAllocs) :
    ∃ t events, scanStep context s allocs = some (t, events) ∧ ScanMove context s t events := by
  unfold scanStep
  cases stage : s.stage with
  | starting =>
    simp only
    split
    · exact ⟨_, _, rfl, .startFailed _ _ stage Fault.ENOMEM.nonzero⟩
    · rcases frameStackPush_cases s.stack ⟨.empty, context.root⟩ allocs.stackOk with ⟨capacity, pushed⟩ | failed
      · rw [pushed]
        exact ⟨_, _, rfl, .started capacity stage⟩
      · rw [failed]
        exact ⟨_, _, rfl, .startFailed _ _ stage Fault.ENOMEM.nonzero⟩
  | popping =>
    simp only [frameStackPop]
    cases items : s.stack.items with
    | nil => exact ⟨_, _, rfl, .finished stage items⟩
    | cons frame rest =>
      simp only
      cases opened : context.files.opendir frame.absolute with
      | error fault => exact ⟨_, _, rfl, .openFailed frame rest fault stage items opened⟩
      | ok dir => exact ⟨_, _, rfl, .opened frame rest dir stage items opened⟩
  | reading frame names fault =>
    cases names with
    | nil =>
      cases fault with
      | none => exact ⟨_, _, rfl, .readEnded frame stage⟩
      | some fault => exact ⟨_, _, rfl, .readFailed frame fault stage⟩
    | cons name rest =>
      simp only [strcmp_zero]
      split
      next dots => exact ⟨_, _, rfl, .dots frame name rest fault stage dots⟩
      next entry =>
        rw [not_or] at entry
        obtain ⟨rc, next, call, scanned, move⟩ :=
          scanEntry_move wf stage entry.1 entry.2
        rw [scanned]
        exact ⟨_, _, rfl, move⟩
  | returned rc => exact absurd stage (running rc)

theorem strings_missing (missing : (!allocs.relativeOk || !allocs.absoluteOk) = true) :
    ¬(allocs.relativeOk = true ∧ allocs.absoluteOk = true) := by
  rintro ⟨relative, absolute⟩
  simp [relative, absolute] at missing

theorem scanEntry_zero_iff {frame : ScanFrame} {name : CString} {rc : Rc} {next : ScanState} {call : ScanCall}
    (wf : s.index.WellFormed context.hashPath)
    (scanned : scanEntry context s frame name allocs = some (rc, next, call)) :
    rc = 0 ↔ EntryGranted context s frame name allocs ∧
      ¬∃ fault, context.files.lstat (vdJoinPath frame.absolute name) = .error fault := by
  unfold scanEntry at scanned
  unfold EntryGranted
  split at scanned
  next missing =>
    cases scanned
    simp only [Fault.ENOMEM.nonzero, strings_missing missing, false_and]
  next copied =>
    have strings : allocs.relativeOk = true ∧ allocs.absoluteOk = true := by simpa using copied
    cases shown : context.files.lstat (vdJoinPath frame.absolute name) with
    | error fault =>
      simp only [shown] at scanned
      cases scanned
      simp [fault.nonzero]
    | ok st =>
      simp only [shown] at scanned
      cases kind : st.kind with
      | directory =>
        simp only [kind] at scanned
        cases scanned
        simp [strings, kind, frameStackPush_zero_iff]
      | regular =>
        simp only [kind] at scanned
        split at scanned
        next => cases scanned
        next code index upserted =>
          cases scanned
          simp [strings, kind, fileIndexUpsert_zero_iff wf upserted]
      | symlink =>
        simp only [kind] at scanned
        cases scanned
        simp [strings, kind]
      | special =>
        simp only [kind] at scanned
        cases scanned
        simp [strings, kind]

section
variable (stepped : scanStep context s allocs = some (t, events))
include stepped

theorem scanStep_starting_iff (stage : s.stage = .starting) :
    t.stage.Unfailed ↔ ScanGranted context s allocs ∧ ¬ScanRefused context s := by
  simp only [scanStep, stage] at stepped
  simp only [ScanGranted, ScanRefused, stage, ← frameStackPush_zero_iff s.stack ⟨.empty, context.root⟩]
  split at stepped
  next missing =>
    cases stepped
    simp [ScanStage.Unfailed, Fault.ENOMEM.nonzero, strings_missing missing]
  next copied =>
    have strings : allocs.relativeOk = true ∧ allocs.absoluteOk = true := by simpa using copied
    split at stepped
    next failed =>
      cases stepped
      simp [ScanStage.Unfailed, failed]
    next pushed =>
      cases stepped
      simp [ScanStage.Unfailed, strings, not_not.mp pushed]

theorem scanStep_popping_iff (stage : s.stage = .popping) :
    t.stage.Unfailed ↔ ScanGranted context s allocs ∧ ¬ScanRefused context s := by
  simp only [scanStep, stage, frameStackPop] at stepped
  simp only [ScanGranted, ScanRefused, stage]
  cases items : s.stack.items with
  | nil =>
    simp only [items] at stepped
    cases stepped
    simp [ScanStage.Unfailed]
  | cons frame rest =>
    simp only [items] at stepped
    cases opened : context.files.opendir frame.absolute with
    | error fault =>
      simp only [opened] at stepped
      cases stepped
      simp [ScanStage.Unfailed, fault.nonzero, opened]
    | ok dir =>
      simp only [opened] at stepped
      cases stepped
      simp [ScanStage.Unfailed, opened]

theorem scanStep_ending_iff {frame : ScanFrame} {fault : Option Fault} (stage : s.stage = .reading frame [] fault) :
    t.stage.Unfailed ↔ ScanGranted context s allocs ∧ ¬ScanRefused context s := by
  simp only [scanStep, stage] at stepped
  simp only [ScanGranted, ScanRefused, stage]
  cases fault with
  | none =>
    cases stepped
    simp [ScanStage.Unfailed]
  | some fault =>
    cases stepped
    simp [ScanStage.Unfailed, fault.nonzero]

theorem scanStep_reading_iff {frame : ScanFrame} {name : CString} {rest : List CString} {fault : Option Fault}
    (wf : s.index.WellFormed context.hashPath) (stage : s.stage = .reading frame (name :: rest) fault) :
    t.stage.Unfailed ↔ ScanGranted context s allocs ∧ ¬ScanRefused context s := by
  simp only [scanStep, stage, strcmp_zero] at stepped
  simp only [ScanGranted, ScanRefused, stage]
  split at stepped
  next dots =>
    cases stepped
    simp [ScanStage.Unfailed, dots]
  next entry =>
    split at stepped
    next => cases stepped
    next rc next call scanned =>
      cases stepped
      have zero := scanEntry_zero_iff wf scanned
      by_cases ok : rc = 0
      · simpa [ScanStage.Unfailed, ok, entry] using zero.mp ok
      · simpa [ScanStage.Unfailed, ok, entry] using mt zero.mpr ok

/-- A step fails exactly when an allocation it asks for or the file system fails. -/
theorem scanStep_unfailed_iff (wf : s.index.WellFormed context.hashPath) :
    t.stage.Unfailed ↔ ScanGranted context s allocs ∧ ¬ScanRefused context s := by
  cases stage : s.stage with
  | starting => exact scanStep_starting_iff stepped stage
  | popping => exact scanStep_popping_iff stepped stage
  | reading frame names fault =>
    cases names with
    | nil => exact scanStep_ending_iff stepped stage
    | cons name rest => exact scanStep_reading_iff stepped wf stage
  | returned rc =>
    rw [scanStep, stage] at stepped
    cases stepped

end

theorem scanStep_returned {rc : Rc} (returned : s.stage = .returned rc) (allocs : ScanAllocs) :
    scanStep context s allocs = none := by
  unfold scanStep
  rw [returned]

theorem scanStep_some (wf : s.index.WellFormed context.hashPath)
    (stepped : scanStep context s allocs = some (t, events)) :
    ScanMove context s t events ∧ ∀ rc, s.stage ≠ .returned rc := by
  have running : ∀ rc, s.stage ≠ .returned rc := by
    intro rc returned
    rw [scanStep_returned returned] at stepped
    cases stepped
  obtain ⟨_, _, again, move⟩ := scanStep_move wf running allocs
  rw [stepped] at again
  cases again
  exact ⟨move, running⟩

theorem ScanMove.wellFormed (move : ScanMove context s t events) (wf : s.index.WellFormed context.hashPath) :
    t.index.WellFormed context.hashPath := by
  cases move with
  | entryFailed frame name rest fault call rc index _ _ kept => exact kept wf
  | indexed frame name rest fault st allocs index _ _ _ _ _ upserted =>
    obtain ⟨_, _, again, after, _⟩ := fileIndexUpsert_spec wf _ _ _ _
    rw [upserted] at again
    cases again
    exact after
  | _ => exact wf

end Verdiff
