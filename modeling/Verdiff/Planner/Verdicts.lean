import Verdiff.Compare.Verdict
import Verdiff.Planner.Coverage

/-! With full reads the two indexes and the files decide everything a plan records.

What is left to the interleaving is the order in which the records arrive.
-/

set_option autoImplicit false

namespace Verdiff
open Transition PlanEvent

variable {context other : PlanContext} {s t : PlanState} {action : PlanAction}
  {trace events later : List PlanEvent} {progress : ProgressState}

/-- No lock and no wait of the plan fails, and each `read` a verdict depends on gives all it can. -/
def FullReads (bufferSize : Nat) (_ : PlanState) : PlanAction → Prop
  | .popFault _ => False
  | .lockFault _ => False
  | .mainFault => False
  | .worker _ env => env.Full bufferSize
  | _ => True

theorem FullReads.locksSucceed {bufferSize : Nat} (full : FullReads bufferSize s action) :
    LocksSucceed s action := by
  cases action with
  | popFault i => exact full
  | lockFault i => exact full
  | mainFault => exact full
  | _ => trivial

theorem PlanMove.compared_worker (move : PlanMove context s action t events) {worker : Nat} {path : CString}
    {env : CompareEnv} {rc : Rc} (logged : .compared worker path env rc ∈ events) :
    action = .worker worker env := by
  cases move with
  | compared i other task code results =>
    rw [List.mem_singleton] at logged
    cases logged
    rfl
  | presentA => simp [pushPresence] at logged
  | presentB => simp [pushPresence] at logged
  | _ => simp at logged

theorem PlanRun.fullReads {bufferSize : Nat} {results : ResultSet}
    (run : PlanRun context (FullReads bufferSize) results progress s trace) :
    ∀ worker path env rc, .compared worker path env rc ∈ trace → env.Full bufferSize := by
  refine PlanRun.invariant (fun _ trace => ∀ worker path env rc, .compared worker path env rc ∈ trace →
    env.Full bufferSize) (by simp) ?_ run
  intro s t trace events action _ before permitted move worker path env rc logged
  rcases List.mem_append.mp logged with earlier | now
  · exact before worker path env rc earlier
  · rw [move.compared_worker now] at permitted
    exact permitted

/-- The text tests of each path open their files as told. -/
def TestsOpen (opened : CString → Bool) (s : PlanState) : PlanAction → Prop
  | .worker i env => ∀ task, s.workers[i]? = some (.comparing task) → env.testsOpen = opened task.relativePath
  | _ => True

def OpenedAs (opened : CString → Bool) (trace : List PlanEvent) : Prop :=
  ∀ worker path env rc, .compared worker path env rc ∈ trace → env.testsOpen = opened path

theorem PlanRun.openedAs {results : ResultSet} {opened : CString → Bool} {allowed : PlanState → PlanAction → Prop}
    (run : PlanRun context (fun s action => allowed s action ∧ TestsOpen opened s action) results progress s trace) :
    OpenedAs opened trace := by
  refine PlanRun.invariant (fun _ trace => OpenedAs opened trace) (by simp [OpenedAs]) ?_ run
  intro s t trace events action _ before permitted move worker path env rc logged
  rcases List.mem_append.mp logged with earlier | now
  · exact before worker path env rc earlier
  · cases move with
    | compared i other task code results comparing =>
      rw [List.mem_singleton] at now
      cases now
      exact permitted.2 task comparing
    | presentA => simp [pushPresence] at now
    | presentB => simp [pushPresence] at now
    | _ => simp at now

def FullTests (bufferSize : Nat) (opened : CString → Bool) (s : PlanState) (action : PlanAction) : Prop :=
  FullReads bufferSize s action ∧ TestsOpen opened s action

theorem PlanRun.testsOpen {results : ResultSet} {opened : CString → Bool} {allowed : PlanState → PlanAction → Prop}
    (run : PlanRun context allowed results progress s trace) (openedAs : OpenedAs opened trace) :
    PlanRun context (fun s action => allowed s action ∧ TestsOpen opened s action) results progress s trace := by
  -- A run is one in which the text tests open as its trace shows.
  refine Run.invariant (fun s trace => OpenedAs opened trace →
    PlanRun context (fun s action => allowed s action ∧ TestsOpen opened s action) results progress s trace)
    (fun _ => .start) ?_ run openedAs
  intro s t trace events action _ before permitted stepped shown
  refine (before fun worker path env rc logged => shown worker path env rc (List.mem_append_left _ logged)).next
    ⟨permitted, ?_⟩ stepped
  cases action with
  | worker i env =>
    intro task comparing
    simp only [planStep, workerStep, comparing, Option.some.injEq, Prod.mk.injEq] at stepped
    exact shown _ _ _ _ (List.mem_append_right _ (stepped.2 ▸ List.mem_singleton.mpr rfl))
  | _ => trivial

structure PairContents where
  a : CString → Bytes
  b : CString → Bytes

namespace PlanContext

/-- The outcome of a path, as its two entries and its two files decide it, and whether the text
tests could open these. -/
def outcomeOf (context : PlanContext) (contents : PairContents) (opened : Bool) (path : CString) : Option Outcome :=
  match context.findA path, context.findB path with
  | some infoA, some infoB =>
    some (verdictOf opened context.config path infoA infoB (contents.a path) (contents.b path))
  | some infoA, none => some (.pushed (presenceRecord path .removed .onlyInSource infoA.size 0))
  | none, some infoB => some (.pushed (presenceRecord path .added .onlyInTarget 0 infoB.size))
  | none, none => none

/-- The same under any configuration, where equal hashes may pass for equal files. -/
def outcomeWith (context : PlanContext) (contents : PairContents) (opened : Bool) (path : CString) : Option Outcome :=
  match context.findA path, context.findB path with
  | some infoA, some infoB =>
    some (verdictWith (takenEqual context.xxh context.config (contents.a path) (contents.b path)) opened
      context.config path infoA infoB (contents.a path) (contents.b path))
  | some infoA, none => some (.pushed (presenceRecord path .removed .onlyInSource infoA.size 0))
  | none, some infoB => some (.pushed (presenceRecord path .added .onlyInTarget 0 infoB.size))
  | none, none => none

/-- The detail of the path hangs on whether its text tests can open the files. -/
def LinesDue (context : PlanContext) (contents : PairContents) (path : CString) : Prop :=
  ∃ infoA infoB, context.findA path = some infoA ∧ context.findB path = some infoB ∧
    Verdiff.LinesDue (takenEqual context.xxh context.config (contents.a path) (contents.b path)) context.config
      infoA infoB (contents.a path) (contents.b path)

structure Holds (context : PlanContext) (contents : PairContents) : Prop where
  a : ∀ path content, (context.findA path).isSome →
    context.files.openFile (vdJoinPath context.config.rootA path) = .ok content → content = contents.a path
  b : ∀ path content, (context.findB path).isSome →
    context.files.openFile (vdJoinPath context.config.rootB path) = .ok content → content = contents.b path

end PlanContext

theorem PlanContext.outcomeWith_verify (verify : context.config.verifyEqualHashes = true)
    (contents : PairContents) (opened : Bool) (path : CString) :
    context.outcomeWith contents opened path = context.outcomeOf contents opened path := by
  unfold PlanContext.outcomeWith PlanContext.outcomeOf
  simp only [verdictWith_verify verify]

theorem PlanContext.outcomeWith_undue {contents : PairContents} {opened opened' : Bool} {path : CString}
    (agree : context.LinesDue contents path → opened = opened') :
    context.outcomeWith contents opened path = context.outcomeWith contents opened' path := by
  unfold PlanContext.outcomeWith
  cases inA : context.findA path with
  | none => cases context.findB path <;> rfl
  | some infoA =>
    cases inB : context.findB path with
    | none => rfl
    | some infoB => exact congrArg some (verdictWith_undue (fun due => agree ⟨infoA, infoB, inA, inB, due⟩) path)

theorem PlanContext.LinesDue.outcomeWith {contents : PairContents} {path : CString}
    (due : context.LinesDue contents path) (opened : Bool) :
    ∃ record, context.outcomeWith contents opened path = some (.pushed record) ∧ record.path = path ∧
      record.type = .modified ∧ record.detailKind = if opened then DetailKind.lines else .binaryChanged := by
  obtain ⟨infoA, infoB, inA, inB, due⟩ := due
  obtain ⟨record, verdict, facts⟩ := due.verdictWith (takenEqual_false due.apart) opened path
  exact ⟨record, by rw [PlanContext.outcomeWith, inA, inB]; exact congrArg some verdict, facts⟩

theorem PlanContext.LinesDue.lines_iff {contents : PairContents} {path : CString}
    (due : context.LinesDue contents path) (opened : Bool) :
    (∃ record, context.outcomeWith contents opened path = some (.pushed record) ∧ record.path = path ∧
      record.detailKind = .lines) ↔ opened = true := by
  obtain ⟨record, outcome, named, _, detail⟩ := due.outcomeWith opened
  constructor
  · rintro ⟨other, again, _, lines⟩
    rw [outcome] at again
    cases again
    by_contra refused
    rw [detail, if_neg refused] at lines
    cases lines
  · rintro rfl
    exact ⟨record, outcome, named, detail⟩

theorem PlanContext.outcomeWith_type (contents : PairContents) (opened opened' : Bool) (path : CString) :
    (context.outcomeWith contents opened path).map Outcome.type =
      (context.outcomeWith contents opened' path).map Outcome.type := by
  -- No status hangs on the text tests.
  by_cases due : context.LinesDue contents path
  · obtain ⟨record, outcome, _, modified, _⟩ := due.outcomeWith opened
    obtain ⟨record', outcome', _, modified', _⟩ := due.outcomeWith opened'
    rw [outcome, outcome']
    exact congrArg some (modified.trans modified'.symm)
  · exact congrArg _ (PlanContext.outcomeWith_undue fun other => absurd other due)

theorem PlanContext.Settles.outcomeWith {contents : PairContents} {path : CString} {outcome : Outcome}
    (settles : context.Settles trace path outcome) (holds : context.Holds contents)
    (positive : 1 ≤ context.config.hashBufferSize)
    (full : ∀ worker path env rc, .compared worker path env rc ∈ trace → env.Full context.config.hashBufferSize)
    {opened : CString → Bool} (openedAs : OpenedAs opened trace) :
    context.outcomeWith contents (opened path) path = some outcome := by
  unfold PlanContext.outcomeWith
  cases settles with
  | presence present =>
    cases present with
    | removed inA notB => simp [presenceRecord, inA, notB]
    | added notA inB => simp [presenceRecord, notA, inB]
    | resized inA inB sizes => simp [presenceRecord, inA, inB, verdictWith, sizes]
  | verdict logged inA inB sizes verdict =>
    simp only [inA, inB]
    rw [← openedAs _ _ _ _ logged, compareVerdict_with inA inB (fun content opened => holds.a path content (by simp [inA]) opened)
      (fun content opened => holds.b path content (by simp [inB]) opened) positive (full _ _ _ _ logged) verdict]

namespace Finished

variable (finished : Finished context s trace) (indexed : context.Indexed)
include finished indexed

/-- The settled paths are those with an outcome, and the outcome is theirs. -/
theorem mem_settled_with {contents : PairContents} (holds : context.Holds contents)
    (positive : 1 ≤ context.config.hashBufferSize)
    (full : ∀ worker path env rc, .compared worker path env rc ∈ trace → env.Full context.config.hashBufferSize)
    {opened : CString → Bool} (openedAs : OpenedAs opened trace) {path : CString} {outcome : Outcome} :
    (path, outcome) ∈ context.settled trace ↔ context.outcomeWith contents (opened path) path = some outcome := by
  constructor
  · intro entered
    exact (finished.settles indexed _ entered).outcomeWith holds positive full openedAs
  · intro decided
    have present : path ∈ context.domA ∪ context.domB := by
      rw [Finset.mem_union, PlanContext.mem_domA indexed, PlanContext.mem_domB indexed]
      unfold PlanContext.outcomeWith at decided
      cases inA : context.findA path <;> cases inB : context.findB path <;> simp_all
    obtain ⟨settled, entered⟩ := finished.settled_of_mem indexed present
    have again := (finished.settles indexed _ entered).outcomeWith holds positive full openedAs
    rw [decided] at again
    cases again
    exact entered

end Finished

theorem Finished.exists_openedAs (finished : Finished context s trace) (indexed : context.Indexed) :
    ∃ opened, OpenedAs opened trace := by
  -- Each path is compared at most once, so its text tests open or fail once and for all.
  classical
  have once : (trace.filterMap compared?).Nodup := finished.compared.nodup_iff.mpr (PlanContext.nodup_candidatesA indexed)
  refine ⟨fun path => decide (∃ worker env rc, .compared worker path env rc ∈ trace ∧ env.testsOpen = true), ?_⟩
  intro worker path env rc logged
  cases opens : env.testsOpen with
  | true => exact (decide_eq_true ⟨worker, env, rc, logged, opens⟩).symm
  | false =>
    refine (decide_eq_false ?_).symm
    rintro ⟨_, _, _, again, opens'⟩
    cases Keyed.filterMap_unique once logged again rfl rfl
    rw [opens] at opens'
    cases opens'

/-! ## Two runs -/

theorem Finished.nodup_settled_map {View : Type} (finished : Finished context s trace) (indexed : context.Indexed)
    (f : Outcome → View) : ((context.settled trace).map fun entry => (entry.1, f entry.2)).Nodup := by
  refine List.Nodup.of_map Prod.fst ?_
  rw [List.map_map]
  exact (finished.paths indexed).nodup_iff.mpr (PlanContext.nodup_paths indexed)

theorem mem_settled_map {View : Type} {outcome : CString → Option Outcome}
    (settles : ∀ path entry, (path, entry) ∈ context.settled trace ↔ outcome path = some entry)
    (f : Outcome → View) {path : CString} {entry : View} :
    (path, entry) ∈ (context.settled trace).map (fun entry => (entry.1, f entry.2)) ↔
      (outcome path).map f = some entry := by
  rw [Option.map_eq_some_iff, List.mem_map]
  constructor
  · rintro ⟨⟨_, before⟩, member, moved⟩
    cases moved
    exact ⟨before, (settles _ _).mp member, rfl⟩
  · rintro ⟨before, found, rfl⟩
    exact ⟨(path, before), (settles _ _).mpr found, rfl⟩

/-- Where the outcomes of two runs agree under `f` and `g`, so does what they settle, up to
the order. -/
theorem settled_perm_map {View : Type} {outcome outcome' : CString → Option Outcome} (f g : Outcome → View)
    (finished : Finished context s trace) (indexed : context.Indexed) (finished' : Finished other t later)
    (indexed' : other.Indexed)
    (settles : ∀ path entry, (path, entry) ∈ context.settled trace ↔ outcome path = some entry)
    (settles' : ∀ path entry, (path, entry) ∈ other.settled later ↔ outcome' path = some entry)
    (same : ∀ path, (outcome path).map f = (outcome' path).map g) :
    ((context.settled trace).map fun entry => (entry.1, f entry.2)).Perm
      ((other.settled later).map fun entry => (entry.1, g entry.2)) := by
  refine (List.perm_ext_iff_of_nodup (finished.nodup_settled_map indexed f)
    (finished'.nodup_settled_map indexed' g)).mpr ?_
  rintro ⟨path, entry⟩
  rw [mem_settled_map settles, mem_settled_map settles', same]

theorem Finished.records_eq (finished : Finished context s trace) :
    s.results.records = (context.settled trace).filterMap fun entry => entry.2.record? := by
  rw [finished.tracked.tracks.records_eq, PlanContext.settled, List.filterMap_map]
  rfl

end Verdiff
