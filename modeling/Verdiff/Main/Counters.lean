import Verdiff.Main.Agreement

/-! The progress counters against what they count, at every moment of a run.

The log of the run says how many files each scan has indexed and noted, and how many tasks
the workers have compared. The counters of the scans follow it; the one of the comparisons
is printed and never raised.
-/

set_option autoImplicit false

namespace Verdiff
open Transition PlanEvent

/-! ## What one step counts -/

def ProgressState.counts (state : ProgressState) : Nat × Nat × Nat := (state.scannedA, state.scannedB, state.compared)

def noted (trace : List ScanEvent) : Nat := trace.countP fun event => event == ⟨.fileIndexUpsert, 0⟩

def comparisons (trace : List PlanEvent) : Nat := (trace.filterMap compared?).length

def addNoted (phase : ProgressPhase) (files : Nat) (counts : Nat × Nat × Nat) : Nat × Nat × Nat :=
  match phase with
  | .scanA => (counts.1 + files, counts.2)
  | .scanB => (counts.1, counts.2.1 + files, counts.2.2)
  | _ => counts

theorem addNoted_add (phase : ProgressPhase) (files more : Nat) (counts : Nat × Nat × Nat) :
    addNoted phase more (addNoted phase files counts) = addNoted phase (files + more) counts := by
  cases phase <;> simp [addNoted, Nat.add_assoc]

@[simp] theorem addNoted_zero (phase : ProgressPhase) (counts : Nat × Nat × Nat) : addNoted phase 0 counts = counts := by
  cases phase <;> rfl

@[simp] theorem counts_noteScan (state : ProgressState) (phase : ProgressPhase) :
    (progressNoteScan state phase).counts = addNoted phase 1 state.counts := by
  cases phase <;> rfl

@[simp] theorem counts_phaseBegin (state : ProgressState) (phase : ProgressPhase) :
    (progressPhaseBegin state phase).counts = state.counts := rfl

theorem noted_append (trace events : List ScanEvent) : noted (trace ++ events) = noted trace + noted events :=
  List.countP_append

theorem ScanMove.counts {context : ScanContext} {s t : ScanState} {events : List ScanEvent}
    (move : ScanMove context s t events) :
    t.progress.counts = addNoted context.phase (noted events) s.progress.counts := by
  cases move with
  | startFailed call rc _ failed => simp [noted, failed]
  | entryFailed frame name rest fault call rc index _ failed => simp [noted, failed]
  | indexed => simp [noted]
  | _ => simp [noted]

theorem PlanMove.counts {context : PlanContext} {s t : PlanState} {action : PlanAction} {events : List PlanEvent}
    (move : PlanMove context s action t events) : t.progress.counts = s.progress.counts := by
  -- Of the calls of the planner only the one that names the current file touches the progress.
  cases move <;> rfl

/-! ## What a run counts -/

theorem ScanRun.counts {context : ScanContext} {index : FileIndex} {progress : ProgressState} {s : ScanState}
    {trace : List ScanEvent} (wf : index.WellFormed context.hashPath) (run : ScanRun context index progress s trace) :
    s.index.WellFormed context.hashPath ∧
      s.progress.counts = addNoted context.phase (noted trace) progress.counts := by
  refine Run.invariant (fun s trace => s.index.WellFormed context.hashPath ∧
    s.progress.counts = addNoted context.phase (noted trace) progress.counts) ⟨wf, (addNoted_zero _ _).symm⟩ ?_ run
  rintro s t trace events allocs _ ⟨wf, counted⟩ _ stepped
  have move := (scanStep_some wf stepped).1
  refine ⟨move.wellFormed wf, ?_⟩
  rw [move.counts, counted, addNoted_add, noted_append]

theorem PlanRun.counts {context : PlanContext} {allowed : PlanState → PlanAction → Prop} {results : ResultSet}
    {progress : ProgressState} {s : PlanState} {trace : List PlanEvent}
    (run : PlanRun context allowed results progress s trace) : s.progress.counts = progress.counts :=
  PlanRun.invariant (fun s _ => s.progress.counts = progress.counts) rfl
    (fun _ counted _ move => move.counts.trans counted) run

theorem PlanRun.compares_none {context : PlanContext} {allowed : PlanState → PlanAction → Prop} {results : ResultSet}
    {progress : ProgressState} {s : PlanState} {trace : List PlanEvent}
    (run : PlanRun context allowed results progress s trace) (returned : s.main = .returned 0)
    (nothing : context.candidatesA context.indexA.capacity = []) : comparisons trace = 0 := by
  have scanned := PlanRun.scanned run
  rw [returned] at scanned
  have handed := PlanRun.handed run
  obtain ⟨pending, _, order⟩ := handed.ring
  rw [(scanned rfl).enqueued, nothing] at order
  have popped : trace.filterMap popped? = [] := (List.append_eq_nil_iff.mp order.symm).1
  have hands := handed.hands
  rw [popped] at hands
  have compared := (List.append_eq_nil_iff.mp hands.nil_eq.symm).1
  rw [comparisons, compared, List.length_nil]

theorem PlanContext.candidatesA_nil {context : PlanContext} (indexed : context.Indexed) :
    context.candidatesA context.indexA.capacity = [] ↔ ∀ path a b, context.findA path = some a →
      context.findB path = some b → a.size ≠ b.size := by
  -- A path is a candidate when both indexes have it with one size.
  constructor
  · intro nothing path a b inA inB same
    obtain ⟨slot, stored, rfl, rfl⟩ := indexed.a.find_eq_some.mp inA
    have planned : (planSlotA context (some slot)).candidate? = some slot.key := by
      change fileIndexFindConst context.hashPath context.indexB slot.key = some b at inB
      simp only [planSlotA, inB, same, ne_eq, not_true_eq_false, ↓reduceIte, SlotPlan.candidate?]
    have member : slot.key ∈ context.indexA.entries.filterMap fun slot => (planSlotA context (some slot)).candidate? :=
      List.mem_filterMap.mpr ⟨slot, stored, planned⟩
    rw [← PlanContext.candidatesA_eq indexed, nothing] at member
    cases member
  · intro sizes
    rw [List.eq_nil_iff_forall_not_mem]
    intro path member
    obtain ⟨a, b, inA, inB, same⟩ := PlanContext.candidatesA_sizes indexed member
    exact sizes path a b inA inB same

/-! ## The moments of a run -/

/-- Where `main` is, with what it has there. -/
inductive MainPoint where
  | scanningA (indexB : FileIndex) (s : ScanState)
  | scanningB (indexA : FileIndex) (s : ScanState)
  | planning (indexA indexB : FileIndex) (s : PlanState)
  | writing (indexA indexB : FileIndex) (progress : ProgressState)

structure MainLog where
  scanA : List ScanEvent
  scanB : List ScanEvent
  plan : List PlanEvent

namespace MainPoint

def progress : MainPoint → ProgressState
  | .scanningA _ s => s.progress
  | .scanningB _ s => s.progress
  | .planning _ _ s => s.progress
  | .writing _ _ progress => progress

def PlanReturned : MainPoint → Prop
  | .planning _ _ s => s.main = .returned 0
  | .writing _ _ _ => True
  | _ => False

def NothingShared : MainPoint → Prop
  | .planning indexA indexB _ | .writing indexA indexB _ => ∀ path a b,
    fileIndexFindConst vdHashPath indexA path = some a → fileIndexFindConst vdHashPath indexB path = some b →
    a.size ≠ b.size
  | _ => True

def Indexed : MainPoint → Prop
  | .scanningA index s | .scanningB index s => index.WellFormed vdHashPath ∧ s.index.WellFormed vdHashPath
  | .planning indexA indexB _ | .writing indexA indexB _ =>
    indexA.WellFormed vdHashPath ∧ indexB.WellFormed vdHashPath

end MainPoint

/-- The moments of the runs of `main`, each with what has been logged by then. -/
inductive MainMoment (context : MainContext) (allowed : PlanState → PlanAction → Prop) : MainLog → MainPoint → Prop where
  | scanningA {slotsA slotsB : Bool} {indexA indexB : FileIndex} {s : ScanState} {trace : List ScanEvent} :
      fileIndexInit 1024 slotsA = some (0, indexA) → fileIndexInit 1024 slotsB = some (0, indexB) →
      ScanRun context.scanA indexA (progressPhaseBegin progressInit .scanA) s trace →
      MainMoment context allowed ⟨trace, [], []⟩ (.scanningA indexB s)
  | scanningB {traceA trace : List ScanEvent} {indexB : FileIndex} {s t : ScanState} :
      MainMoment context allowed ⟨traceA, [], []⟩ (.scanningA indexB s) → s.stage = .returned 0 →
      ScanRun context.scanB indexB (progressPhaseBegin s.progress .scanB) t trace →
      MainMoment context allowed ⟨traceA, trace, []⟩ (.scanningB s.index t)
  | planning {traceA traceB : List ScanEvent} {trace : List PlanEvent} {indexA : FileIndex} {s : ScanState}
      {t : PlanState} : MainMoment context allowed ⟨traceA, traceB, []⟩ (.scanningB indexA s) →
      s.stage = .returned 0 →
      PlanRun (context.plan indexA s.index) allowed resultSetInit (progressPhaseBegin s.progress .plan) t trace →
      MainMoment context allowed ⟨traceA, traceB, trace⟩ (.planning indexA s.index t)
  | writing {log : MainLog} {indexA indexB : FileIndex} {s : PlanState} :
      MainMoment context allowed log (.planning indexA indexB s) → s.main = .returned 0 →
      MainMoment context allowed log (.writing indexA indexB (progressPhaseBegin s.progress .write))

def MainStage.Reached (context : MainContext) (allowed : PlanState → PlanAction → Prop) : MainStage → Prop
  | .initialised indexA indexB progress => progress = progressInit ∧
    (∃ slotsA, fileIndexInit 1024 slotsA = some (0, indexA)) ∧ ∃ slotsB, fileIndexInit 1024 slotsB = some (0, indexB)
  | .scannedA indexA indexB progress => ∃ trace s, MainMoment context allowed ⟨trace, [], []⟩ (.scanningA indexB s) ∧
    s.stage = .returned 0 ∧ s.index = indexA ∧ s.progress = progress
  | .scannedB indexA indexB progress => ∃ traceA traceB s,
    MainMoment context allowed ⟨traceA, traceB, []⟩ (.scanningB indexA s) ∧
    s.stage = .returned 0 ∧ s.index = indexB ∧ s.progress = progress
  | .compared indexA indexB results progress => ∃ log s, MainMoment context allowed log (.planning indexA indexB s) ∧
    s.main = .returned 0 ∧ s.results = results ∧ s.progress = progress
  | .failed _ => True

/-- Every run of `main` goes through these moments. -/
theorem MainRun.reached {context : MainContext} {allowed : PlanState → PlanAction → Prop} {stage : MainStage}
    (run : MainRun context allowed stage) : stage.Reached context allowed := by
  induction run with
  | initialised startedA startedB => exact ⟨rfl, ⟨_, startedA⟩, ⟨_, startedB⟩⟩
  | scannedA _ scan returned ih =>
    obtain ⟨rfl, ⟨_, startedA⟩, ⟨_, startedB⟩⟩ := ih
    exact ⟨_, _, .scanningA startedA startedB scan, returned, rfl, rfl⟩
  | scannedB _ scan returned ih =>
    obtain ⟨_, _, moment, before, rfl, rfl⟩ := ih
    exact ⟨_, _, _, moment.scanningB before scan, returned, rfl, rfl⟩
  | compared _ plan returned ih =>
    obtain ⟨_, _, _, moment, before, rfl, rfl⟩ := ih
    exact ⟨_, _, moment.planning before plan, returned, rfl, rfl⟩
  | _ => trivial

variable {context : MainContext} {allowed : PlanState → PlanAction → Prop} {log : MainLog} {point : MainPoint}

theorem MainMoment.counts (moment : MainMoment context allowed log point) :
    point.Indexed ∧ point.progress.counts = (noted log.scanA, noted log.scanB, 0) := by
  induction moment with
  | scanningA startedA startedB run =>
    obtain ⟨wf, counted⟩ := @ScanRun.counts context.scanA _ _ _ _ (fileIndexInit_vacant startedA).wf run
    refine ⟨⟨(fileIndexInit_vacant startedB).wf, wf⟩, counted.trans ?_⟩
    simp [progressInit, progressPhaseBegin, ProgressState.counts, MainContext.scanA, addNoted, noted]
  | @scanningB _ _ _ s _ _ _ run ih =>
    obtain ⟨⟨wfB, wfA⟩, before⟩ := ih
    obtain ⟨wf, counted⟩ := @ScanRun.counts context.scanB _ _ _ _ wfB run
    refine ⟨⟨wfA, wf⟩, counted.trans ?_⟩
    change s.progress.counts = _ at before
    rw [counts_phaseBegin, before]
    simp [MainContext.scanB, addNoted, noted]
  | planning _ _ run ih => exact ⟨ih.1, (PlanRun.counts run).trans ih.2⟩
  | writing _ _ ih => exact ih

theorem MainMoment.planned (moment : MainMoment context allowed log point) (returned : point.PlanReturned) :
    ∃ indexA indexB progress s, PlanRun (context.plan indexA indexB) allowed resultSetInit progress s log.plan ∧
      s.main = .returned 0 ∧ (context.plan indexA indexB).Indexed ∧
      (point.NothingShared ↔ ∀ path a b, (context.plan indexA indexB).findA path = some a →
        (context.plan indexA indexB).findB path = some b → a.size ≠ b.size) := by
  have indexed := moment.counts.1
  cases moment with
  | scanningA => exact returned.elim
  | scanningB => exact returned.elim
  | planning _ _ run => exact ⟨_, _, _, _, run, returned, ⟨indexed.1, indexed.2⟩, Iff.rfl⟩
  | writing earlier zero =>
    cases earlier with
    | planning _ _ run => exact ⟨_, _, _, _, run, zero, ⟨indexed.1, indexed.2⟩, Iff.rfl⟩

theorem MainMoment.comparisons_zero (moment : MainMoment context allowed log point) (returned : point.PlanReturned)
    (nothing : point.NothingShared) : comparisons log.plan = 0 := by
  obtain ⟨_, _, _, _, run, zero, indexed, shared⟩ := moment.planned returned
  exact PlanRun.compares_none run zero ((PlanContext.candidatesA_nil indexed).mpr (shared.mp nothing))

theorem MainMoment.comparisons_zero_iff (pops : ∀ s action, allowed s action → LocksSucceed s action)
    (moment : MainMoment context allowed log point) (returned : point.PlanReturned) :
    comparisons log.plan = 0 ↔ point.NothingShared := by
  refine ⟨fun none => ?_, moment.comparisons_zero returned⟩
  obtain ⟨_, _, _, _, run, zero, indexed, shared⟩ := moment.planned returned
  have all := (PlanRun.finished (run.weaken pops) zero).compared
  rw [List.length_eq_zero_iff.mp none] at all
  exact shared.mpr ((PlanContext.candidatesA_nil indexed).mp all.nil_eq.symm)

/-- The counters of the scans are true at every moment of every run. The counter of the
comparisons is true in the end when there is nothing to compare, and only then, provided
that no worker is turned away from the queue. -/
theorem progress_counters_true (moment : MainMoment context allowed log point) :
    point.progress.scannedA = noted log.scanA ∧ point.progress.scannedB = noted log.scanB ∧
      (point.NothingShared → point.PlanReturned → point.progress.compared = comparisons log.plan) ∧
      ((∀ s action, allowed s action → LocksSucceed s action) → point.PlanReturned →
        (point.progress.compared = comparisons log.plan ↔ point.NothingShared)) := by
  have counted := moment.counts.2
  simp only [ProgressState.counts, Prod.mk.injEq] at counted
  obtain ⟨first, second, third⟩ := counted
  refine ⟨first, second, fun nothing returned => ?_, fun pops returned => ?_⟩
  · rw [third, moment.comparisons_zero returned nothing]
  · rw [third, eq_comm]
    exact moment.comparisons_zero_iff pops returned

/-! ## One pair of files of equal size -/

theorem sampleMain_moment : ∃ log s, MainMoment (sampleMain false) LocksSucceed log
    (.planning sampleIndexA sampleIndexB s) ∧ s.main = .returned 0 ∧ s.progress = ⟨.compare, 2, 1, 0⟩ := by
  obtain ⟨log, s, moment, returned, _, progress⟩ :=
    (@sampleMain_run LocksSucceed (fun _ => trivial) false (fun _ _ => trivial) false).reached
  exact ⟨log, s, moment, returned, progress.trans ((sampleEvaluates false).counted false)⟩

theorem progress_counters_true_sample : ∃ log point, MainMoment (sampleMain false) LocksSucceed log point ∧
    noted log.scanA = 2 ∧ noted log.scanB = 1 := by
  obtain ⟨log, s, moment, _, progress⟩ := sampleMain_moment
  obtain ⟨first, second, _⟩ := progress_counters_true moment
  refine ⟨log, _, moment, first.symm.trans ?_, second.symm.trans ?_⟩
  · change s.progress.scannedA = 2
    rw [progress]
  · change s.progress.scannedB = 1
    rw [progress]

/-- Both trees have a file `x` of two bytes. It is compared, and the counter stays at zero. -/
theorem progress_counters_true_missed : ∃ log point, MainMoment (sampleMain false) LocksSucceed log point ∧
    point.PlanReturned ∧ point.progress.compared ≠ comparisons log.plan := by
  obtain ⟨log, s, moment, returned, _⟩ := sampleMain_moment
  refine ⟨log, _, moment, returned, fun same => ?_⟩
  have counted := moment.counts.2
  simp only [ProgressState.counts, Prod.mk.injEq] at counted
  rw [counted.2.2] at same
  have nothing := (moment.comparisons_zero_iff (fun _ _ pops => pops) returned).mp same.symm
  exact nothing sampleX ⟨sampleX, 2, 1⟩ ⟨sampleX, 2, 1⟩ (sampleEvaluates false).foundA (sampleEvaluates false).foundB rfl

end Verdiff
