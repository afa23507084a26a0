import Verdiff.Planner.Coverage

/-! What becomes of the ring when workers leave early.

A worker whose `task_queue_pop` meets a failing lock or wait leaves as if the work were done,
and records nothing. The tasks in the ring are still read as long as another worker stays;
once the last one is gone they are lost, and nothing tells the main thread. No more does
anything where the lock of `compare_context_set_error` fails.
-/

set_option autoImplicit false

namespace Verdiff
open Transition PlanEvent

def PlanEvent.succeeded? : PlanEvent → Option CString
  | .compared _ path _ rc => if rc = 0 then some path else none
  | _ => none

/-- Every task accepted has been compared with code zero, as often as it was accepted. -/
def AllCompared (trace : List PlanEvent) : Prop :=
  (trace.filterMap enqueued?).Subperm (trace.filterMap succeeded?)

/-- Somebody is left to read the ring wherever a task is accepted, and wherever a worker takes
a fault of its own for the end of the work; and where a code fails to be recorded, another
one is there. -/
def Attended (s : PlanState) : PlanAction → Prop
  | .main choice => ∀ i path queue, s.main = .enqueuing i path → choice.rc = 0 →
    taskQueuePush s.queue ⟨path⟩ = .accepted queue → ∃ worker ∈ s.workers, worker ≠ .exited
  | .popFault i => s.queue.count = 0 ∨ ∃ worker ∈ s.workers.set i .exited, worker ≠ .exited
  | .lockFault i => ∀ rc, s.workers[i]? = some (.failing rc) → s.firstError ≠ 0
  | _ => True

variable {context : PlanContext} {s t : PlanState} {action : PlanAction} {trace events : List PlanEvent}

/-! ## The workers under one move -/

theorem exists_mem_set {workers : List WorkerState} {i : Nat} {old new : WorkerState} (running : new ≠ .exited)
    (stands : workers[i]? = some old) : ∃ worker ∈ workers.set i new, worker ≠ .exited :=
  ⟨new, List.mem_set (List.getElem?_eq_some_iff.mp stands).1 _, running⟩

theorem exists_mem_wake {workers : List WorkerState} (attended : ∃ worker ∈ workers, worker ≠ .exited) :
    ∃ worker ∈ workers.map WorkerState.wake, worker ≠ .exited := by
  obtain ⟨worker, member, running⟩ := attended
  exact ⟨worker.wake, List.mem_map.mpr ⟨worker, member, rfl⟩, fun gone => running (WorkerState.wake_exited.mp gone)⟩

theorem exists_mem_signalled {workers woken : List WorkerState} {wake : Nat}
    (signalled : signalNotEmpty workers wake = some woken) (attended : ∃ worker ∈ workers, worker ≠ .exited) :
    ∃ worker ∈ woken, worker ≠ .exited := by
  rcases signalNotEmpty_some signalled with ⟨_, rfl⟩ | ⟨waiter, rfl⟩
  · exact attended
  · exact exists_mem_set (by simp) waiter

theorem Attended.accepts (attended : Attended s action) (stepped : planStep context s action = some (t, events))
    {path : CString} (accepted : .enqueued path 0 ∈ events) : ∃ worker ∈ s.workers, worker ≠ .exited := by
  cases planStep_move stepped with
  | pushAccepted choice i other queue workers standing pushed =>
    refine attended i other queue standing ?_ pushed
    by_contra failed
    simp [planStep, mainStep, standing, failed] at stepped
  | pushFaulted choice i other standing failed =>
    simp only [List.mem_singleton, PlanEvent.enqueued.injEq] at accepted
    exact absurd accepted.2.symm failed
  | pushCanceled choice i other standing shut =>
    simp only [List.mem_singleton, PlanEvent.enqueued.injEq] at accepted
    exact absurd accepted.2.symm Fault.ECANCELED.nonzero
  | presentA => simp [pushPresence] at accepted
  | presentB => simp [pushPresence] at accepted
  | _ => simp at accepted

/-! ## With the ring attended -/

/-- A failure is recorded, or about to be. -/
def Troubled (s : PlanState) : Prop :=
  s.firstError ≠ 0 ∨ ∃ code, code ≠ 0 ∧ .failing code ∈ s.workers

structure Calm (s : PlanState) (trace : List PlanEvent) : Prop where
  working : ∀ worker ∈ s.workers, (∀ code, worker ≠ .failing code) ∧ worker ≠ .stopping
  clean : trace.filterMap succeeded? = trace.filterMap compared?
  read : s.queue.count = 0 ∨ ∃ worker ∈ s.workers, worker ≠ .exited

theorem Troubled.keep (troubled : Troubled s) (error : t.firstError = s.firstError)
    (keeps : ∀ code, .failing code ∈ s.workers → .failing code ∈ t.workers) : Troubled t := by
  rw [Troubled, error]
  exact troubled.imp_right fun ⟨code, nonzero, member⟩ => ⟨code, nonzero, keeps code member⟩

theorem Troubled.setWorker {i : Nat} {old new : WorkerState} (troubled : Troubled s)
    (stands : s.workers[i]? = some old) (fine : ∀ code, old ≠ .failing code) : Troubled (s.setWorker i new) :=
  troubled.keep rfl fun code member => mem_set_of_mem member stands (fine code).symm

theorem Troubled.shutdownAll (troubled : Troubled s) : Troubled s.shutdownAll :=
  troubled.keep rfl fun _ member => List.mem_map.mpr ⟨_, member, rfl⟩

theorem PlanMove.troubled (move : PlanMove context s action t events) (attended : Attended s action)
    (troubled : Troubled s) : Troubled t := by
  cases move with
  | created => exact troubled.keep rfl fun code member => List.mem_append_left _ member
  | abandoned => exact troubled.shutdownAll.keep rfl fun _ member => member
  | stopped => exact troubled.shutdownAll.keep rfl fun _ member => member
  | pushAccepted choice i path queue workers standing pushed signalled =>
    refine troubled.keep rfl fun code member => ?_
    rcases signalNotEmpty_some signalled with ⟨_, rfl⟩ | ⟨waiter, rfl⟩
    · exact member
    · exact mem_set_of_mem member waiter (by simp)
  | popWaits i env ready => exact troubled.setWorker ready (by simp)
  | popDrained i env ready => exact troubled.setWorker ready (by simp)
  | popTaken i env task queue ready =>
    exact (troubled.setWorker ready (by simp)).keep rfl fun _ member => member
  | compared i env task rc results comparing =>
    exact (troubled.setWorker comparing (by simp)).keep rfl fun _ member => member
  | errorSet i env rc failing =>
    rcases troubled with recorded | ⟨code, nonzero, member⟩
    · exact .inl (by simp [recorded])
    · by_cases same : code = rc
      · refine .inl ?_
        simp only [PlanState.setWorker_firstError]
        split
        · exact same ▸ nonzero
        next already => exact already
      · exact .inr ⟨code, nonzero, mem_set_of_mem member failing (by simpa using same)⟩
  | workerStopped i env stopping =>
    have stands : s.shutdownAll.workers[i]? = some .stopping := by simp [stopping, WorkerState.wake]
    exact troubled.shutdownAll.setWorker stands (by simp)
  | wokenWorker i waiting => exact troubled.setWorker waiting (by simp)
  | popFaulted i asleep =>
    rcases asleep with ready | waiting
    · exact troubled.setWorker ready (by simp)
    · exact troubled.setWorker waiting (by simp)
  | errorFaulted i rc failing => exact .inl (attended rc failing)
  | stopFaulted i stopping => exact troubled.setWorker stopping (by simp)
  | _ => exact troubled

theorem Calm.quiet (calm : Calm s trace)
    (adds : ∀ worker ∈ t.workers, worker ∈ s.workers ∨ worker = .ready ∨ worker = .waitingNotEmpty ∨
      (∃ task, worker = .comparing task) ∨ worker = .exited)
    (silent : events.filterMap compared? = []) (read : t.queue.count = 0 ∨ ∃ worker ∈ t.workers, worker ≠ .exited) :
    Calm t (trace ++ events) := by
  -- A move that reports no comparison, and after which no worker has failed.
  have quiet : events.filterMap succeeded? = [] := by
    rw [List.filterMap_eq_nil_iff] at silent ⊢
    intro event member
    have other := silent event member
    cases event with
    | compared => cases other
    | _ => rfl
  refine ⟨fun worker member => ?_, by simp [silent, quiet, calm.clean], read⟩
  rcases adds worker member with before | rfl | rfl | ⟨task, rfl⟩ | rfl
  · exact calm.working worker before
  all_goals exact ⟨by simp, by simp⟩

theorem Calm.setWorker {i : Nat} {old new : WorkerState} (calm : Calm s trace) (stands : s.workers[i]? = some old)
    (next : new = .ready ∨ new = .waitingNotEmpty ∨ (∃ task, new = .comparing task) ∨ new = .exited)
    (read : new = .exited → s.queue.count = 0 ∨ ∃ worker ∈ s.workers.set i .exited, worker ≠ .exited) :
    Calm (s.setWorker i new) (trace ++ []) := by
  have adds : ∀ worker ∈ s.workers.set i new, worker ∈ s.workers ∨ worker = .ready ∨ worker = .waitingNotEmpty ∨
      (∃ task, worker = .comparing task) ∨ worker = .exited := by
    intro worker member
    refine (List.mem_or_eq_of_mem_set member).imp_right fun same => ?_
    rw [same]
    exact next
  refine calm.quiet adds rfl ?_
  by_cases gone : new = .exited
  · rw [gone]
    exact read gone
  · exact .inr (exists_mem_set gone stands)

theorem Calm.shutdownAll (calm : Calm s trace) : Calm s.shutdownAll (trace ++ []) := by
  refine calm.quiet (fun worker member => ?_) rfl (calm.read.imp id exists_mem_wake)
  obtain ⟨before, present, rfl⟩ := List.mem_map.mp member
  cases before <;> simp_all [WorkerState.wake]

theorem PlanMove.calm (move : PlanMove context s action t events) (attended : Attended s action)
    (accepts : ∀ path, .enqueued path 0 ∈ events → ∃ worker ∈ s.workers, worker ≠ .exited)
    (calm : Calm s trace) : Calm t (trace ++ events) ∨ Troubled t := by
  cases move with
  | created =>
    refine .inl (calm.quiet (fun worker member => ?_) rfl (calm.read.imp_right fun ⟨worker, member, running⟩ =>
      ⟨worker, List.mem_append_left _ member, running⟩))
    simpa using List.mem_append.mp member |>.imp_right fun new => .inl (List.mem_singleton.mp new)
  | abandoned => exact .inl ⟨calm.shutdownAll.working, calm.shutdownAll.clean, calm.shutdownAll.read⟩
  | stopped => exact .inl ⟨calm.shutdownAll.working, calm.shutdownAll.clean, calm.shutdownAll.read⟩
  | pushAccepted choice i path queue workers standing pushed signalled =>
    refine .inl (calm.quiet (fun worker member => ?_) rfl
      (.inr (exists_mem_signalled signalled (accepts path (List.mem_singleton.mpr rfl)))))
    rcases signalNotEmpty_some signalled with ⟨_, rfl⟩ | ⟨_, rfl⟩
    · exact .inl member
    · exact (List.mem_or_eq_of_mem_set member).imp_right .inl
  | popWaits i env ready => exact .inl (calm.setWorker ready (.inr (.inl rfl)) (by simp))
  | popDrained i env ready stopped empty => exact .inl (calm.setWorker ready (by simp) fun _ => .inl empty)
  | popTaken i env task queue ready popped =>
    exact .inl (calm.quiet (fun worker member => (List.mem_or_eq_of_mem_set member).imp_right fun same =>
      .inr (.inr (.inl ⟨task, same⟩))) rfl (.inr (exists_mem_set (by simp) ready)))
  | compared i env task rc results comparing =>
    by_cases ok : rc = 0
    · rw [if_pos ok]
      have moved := calm.setWorker comparing (.inl rfl) (by simp)
      exact .inl ⟨moved.working, by simp [succeeded?, compared?, ok, calm.clean], moved.read⟩
    -- The first failing comparison ends the calm.
    · rw [if_neg ok]
      have inside := (List.getElem?_eq_some_iff.mp comparing).1
      exact .inr (.inr ⟨rc, ok, List.mem_set inside _⟩)
  | errorSet i env rc failing => exact absurd rfl ((calm.working _ (List.mem_of_getElem? failing)).1 rc)
  | workerStopped i env stopping => exact absurd rfl (calm.working _ (List.mem_of_getElem? stopping)).2
  | errorFaulted i rc failing => exact absurd rfl ((calm.working _ (List.mem_of_getElem? failing)).1 rc)
  | stopFaulted i stopping => exact absurd rfl (calm.working _ (List.mem_of_getElem? stopping)).2
  | wokenWorker i waiting => exact .inl (calm.setWorker waiting (.inl rfl) (by simp))
  | popFaulted i asleep =>
    rcases asleep with ready | waiting
    · exact .inl (calm.setWorker ready (by simp) fun _ => attended)
    · exact .inl (calm.setWorker waiting (by simp) fun _ => attended)
  | presentA => exact .inl (calm.quiet (fun _ member => .inl member) rfl calm.read)
  | presentB => exact .inl (calm.quiet (fun _ member => .inl member) rfl calm.read)
  | _ => exact .inl (calm.quiet (fun _ member => .inl member) rfl calm.read)

variable {allowed : PlanState → PlanAction → Prop} {results : ResultSet} {progress : ProgressState}

theorem PlanRun.calm_or_troubled (run : PlanRun context Attended results progress s trace) :
    Calm s trace ∨ Troubled s := by
  refine Run.invariant (fun s trace => Calm s trace ∨ Troubled s)
    (.inl ⟨by simp [planStart], rfl, .inl rfl⟩) ?_ run
  intro s t trace events action _ before attended stepped
  rcases before with calm | troubled
  · exact (planStep_move stepped).calm attended (fun _ => attended.accepts stepped) calm
  · exact .inr ((planStep_move stepped).troubled attended troubled)

/-! ## With nobody left -/

/-- All workers are gone, tasks are left in the ring, and no worker will be created. -/
structure Lost (s : PlanState) : Prop where
  exited : ∀ worker ∈ s.workers, worker = .exited
  unread : s.queue.count ≠ 0
  created : s.main ≠ .starting ∧ ∀ i, s.main ≠ .creating i

theorem Lost.running {i : Nat} {old : WorkerState} (lost : Lost s) (stands : s.workers[i]? = some old)
    (running : old ≠ .exited) : False :=
  running (lost.exited old (List.mem_of_getElem? stands))

theorem Lost.main {stage : MainState} (lost : Lost s) (past : stage ≠ .starting ∧ ∀ i, stage ≠ .creating i) :
    Lost { s with main := stage } :=
  ⟨lost.exited, lost.unread, past⟩

theorem Lost.shutdownAll {stage : MainState} (lost : Lost s)
    (past : stage ≠ .starting ∧ ∀ i, stage ≠ .creating i) : Lost { s.shutdownAll with main := stage } := by
  refine ⟨fun worker member => ?_, lost.unread, past⟩
  obtain ⟨before, present, rfl⟩ := List.mem_map.mp member
  exact WorkerState.wake_exited.mpr (lost.exited before present)

theorem Lost.presence {record : ChangeRecord} {allocs : PushAllocs} {next : MainState} (lost : Lost s)
    (past : next ≠ .starting ∧ ∀ i, next ≠ .creating i) : Lost (pushPresence s next record allocs).1 := by
  refine ⟨lost.exited, lost.unread, ?_⟩
  change (if (resultSetPush s.results record allocs).1 = 0 then next else .stopping _) ≠ _ ∧ ∀ i,
    (if (resultSetPush s.results record allocs).1 = 0 then next else .stopping _) ≠ _
  split
  · exact past
  · simp

theorem lost_of_accepted {i wake : Nat} {path : CString} {queue : TaskQueue} {workers : List WorkerState}
    (exited : ∀ worker ∈ s.workers, worker = .exited) (ring : ∃ pending, s.queue.Holds pending)
    (pushed : taskQueuePush s.queue ⟨path⟩ = .accepted queue)
    (signalled : signalNotEmpty s.workers wake = some workers) :
    Lost { s with main := .scanningA i, queue := queue, workers := workers } := by
  -- A task accepted with nobody there joins those that are lost.
  obtain ⟨pending, holds⟩ := ring
  have grown := (taskQueuePush_accepted holds pushed).2.2.2.1
  refine ⟨?_, by simp only [grown]; omega, by simp⟩
  rcases signalNotEmpty_some signalled with ⟨_, rfl⟩ | ⟨waiter, _⟩
  · exact exited
  · cases exited _ (List.mem_of_getElem? waiter)

theorem PlanMove.lost (move : PlanMove context s action t events) (ring : ∃ pending, s.queue.Holds pending)
    (lost : Lost s) : Lost t := by
  cases move with
  | started choice standing => exact absurd standing lost.created.1
  | created choice i standing => exact absurd standing (lost.created.2 i)
  | abandoned => exact lost.shutdownAll (by simp)
  | stopped => exact lost.shutdownAll (by simp)
  | presentA => exact lost.presence (by simp)
  | presentB => exact lost.presence (by simp)
  | pushAccepted choice i path queue workers standing pushed signalled =>
    exact lost_of_accepted lost.exited ring pushed signalled
  | candidateA => exact ⟨lost.exited, lost.unread, by simp⟩
  | joinEnded choice j rc => exact lost.main (by split <;> simp)
  | popWaits i env ready => exact (lost.running ready (by simp)).elim
  | popDrained i env ready => exact (lost.running ready (by simp)).elim
  | popTaken i env task queue ready => exact (lost.running ready (by simp)).elim
  | compared i env task rc results comparing => exact (lost.running comparing (by simp)).elim
  | errorSet i env rc failing => exact (lost.running failing (by simp)).elim
  | workerStopped i env stopping => exact (lost.running stopping (by simp)).elim
  | wokenWorker i waiting => exact (lost.running waiting (by simp)).elim
  | popFaulted i asleep =>
    rcases asleep with ready | waiting
    · exact (lost.running ready (by simp)).elim
    · exact (lost.running waiting (by simp)).elim
  | errorFaulted i rc failing => exact (lost.running failing (by simp)).elim
  | stopFaulted i stopping => exact (lost.running stopping (by simp)).elim
  | _ => exact lost.main (by simp)

theorem PlanRun.past_creating (run : PlanRun context allowed results progress s trace) (unread : s.queue.count ≠ 0) :
    s.main ≠ .starting ∧ ∀ i, s.main ≠ .creating i := by
  -- No task is accepted while workers are still being created.
  obtain ⟨pending, holds, order⟩ := run.handed.ring
  have scanned := run.scanned
  have nothing : Scanned context trace 0 0 → False := by
    intro fresh
    rw [fresh.enqueued] at order
    have empty := (List.append_eq_nil_iff.mp order.symm).2
    rw [List.map_eq_nil_iff] at empty
    exact unread (by rw [← holds.length_pending, empty]; rfl)
  constructor
  · intro standing
    rw [standing] at scanned
    exact nothing scanned
  · intro i standing
    rw [standing] at scanned
    exact nothing scanned

/-! ## With a comparison failed -/

def Spoiled (trace : List PlanEvent) : Prop := ∃ worker path env rc, rc ≠ 0 ∧ .compared worker path env rc ∈ trace

theorem Spoiled.append (spoiled : Spoiled trace) : Spoiled (trace ++ events) := by
  obtain ⟨worker, path, env, rc, failed, logged⟩ := spoiled
  exact ⟨worker, path, env, rc, failed, List.mem_append_left _ logged⟩

theorem PlanMove.failing (move : PlanMove context s action t events) {code : Rc}
    (holding : .failing code ∈ t.workers) : .failing code ∈ s.workers ∨ Spoiled events := by
  -- A worker comes to hold a code only by a comparison that returned it.
  have changed : ∀ {i : Nat} {new : WorkerState}, new ≠ .failing code → .failing code ∈ s.workers.set i new →
      .failing code ∈ s.workers := fun other member => mem_set_of_ne member other.symm
  have woken : .failing code ∈ s.workers.map WorkerState.wake → .failing code ∈ s.workers := by
    intro member
    obtain ⟨before, present, same⟩ := List.mem_map.mp member
    cases before <;> simp_all [WorkerState.wake]
  cases move with
  | created => exact .inl (by simpa using holding)
  | abandoned => exact .inl (woken holding)
  | stopped => exact .inl (woken holding)
  | pushAccepted choice i path queue workers standing pushed signalled =>
    rcases signalNotEmpty_some signalled with ⟨_, rfl⟩ | ⟨_, rfl⟩
    · exact .inl holding
    · exact .inl (changed (by simp) holding)
  | popWaits => exact .inl (changed (by simp) holding)
  | popDrained => exact .inl (changed (by simp) holding)
  | popTaken => exact .inl (changed (by simp) holding)
  | compared i env task rc results comparing =>
    by_cases ok : rc = 0
    · rw [if_pos ok] at holding
      exact .inl (changed (by simp) holding)
    · exact .inr ⟨i, task.relativePath, env, rc, ok, List.mem_singleton.mpr rfl⟩
  | errorSet => exact .inl (changed (by simp) holding)
  | workerStopped => exact .inl (woken (mem_set_of_ne holding (by simp)))
  | wokenWorker => exact .inl (changed (by simp) holding)
  | popFaulted => exact .inl (changed (by simp) holding)
  | errorFaulted => exact .inl (changed (by simp) holding)
  | stopFaulted => exact .inl (changed (by simp) holding)
  | _ => exact .inl holding

theorem PlanRun.spoiled (run : PlanRun context allowed results progress s trace) {code : Rc}
    (holding : .failing code ∈ s.workers) : Spoiled trace := by
  refine PlanRun.invariant (fun s trace => ∀ code, .failing code ∈ s.workers → Spoiled trace)
    (by simp [planStart]) ?_ run code holding
  intro s t trace events action _ before _ move code holding
  rcases move.failing holding with earlier | ⟨worker, path, env, rc, failed, now⟩
  · exact (before code earlier).append
  · exact ⟨worker, path, env, rc, failed, List.mem_append_right _ now⟩

/-! ## The first unattended step -/

/-- It loses what is in the ring, or the code of a comparison that has failed. -/
theorem PlanRun.unattended (run : PlanRun context allowed results progress s trace)
    (stepped : planStep context s action = some (t, events)) (alone : ¬Attended s action) :
    Lost t ∨ Spoiled trace := by
  have ring : ∃ pending, s.queue.Holds pending := run.handed.ring.imp fun _ found => found.1
  cases action with
  | main choice =>
    simp only [Attended] at alone
    push Not at alone
    obtain ⟨i, path, queue, standing, fine, pushed, exited⟩ := alone
    simp only [planStep, mainStep, standing, fine, ne_eq, not_true_eq_false, ↓reduceIte, pushed] at stepped
    split at stepped <;> cases stepped
    next workers signalled => exact .inl (lost_of_accepted exited ring pushed signalled)
  | popFault i =>
    simp only [Attended] at alone
    push Not at alone
    obtain ⟨unread, exited⟩ := alone
    simp only [planStep] at stepped
    split at stepped <;> cases stepped
    exact .inl ⟨exited, unread, run.past_creating unread⟩
  | lockFault i =>
    simp only [Attended] at alone
    push Not at alone
    obtain ⟨rc, failing, _⟩ := alone
    exact .inr (run.spoiled (List.mem_of_getElem? failing))
  | mainFault => exact absurd trivial alone
  | worker i env => exact absurd trivial alone
  | wakeMain => exact absurd trivial alone
  | wakeWorker i => exact absurd trivial alone

theorem PlanRun.attended_or_lost (run : PlanRun context allowed results progress s trace) :
    PlanRun context Attended results progress s trace ∨ Lost s ∨ Spoiled trace := by
  refine Run.invariant (fun s trace => PlanRun context Attended results progress s trace ∨ Lost s ∨ Spoiled trace)
    (.inl .start) ?_ run
  intro s t trace events action earlier before _ stepped
  rcases before with attended | lost | spoiled
  · by_cases soon : Attended s action
    · exact .inl (attended.next soon stepped)
    · exact .inr ((PlanRun.unattended earlier stepped soon).imp_right Spoiled.append)
  · have ring : ∃ pending, s.queue.Holds pending := (PlanRun.handed earlier).ring.imp fun _ found => found.1
    exact .inr (.inl ((planStep_move stepped).lost ring lost))
  · exact .inr (.inr spoiled.append)

/-! ## What zero means -/

theorem succeeded_sublist (trace : List PlanEvent) :
    (trace.filterMap succeeded?).Sublist (trace.filterMap compared?) := by
  induction trace with
  | nil => exact .slnil
  | cons event rest ih =>
    cases event with
    | compared worker path env rc =>
      by_cases ok : rc = 0
      · simpa [List.filterMap_cons, succeeded?, compared?, ok] using ih
      · simpa [List.filterMap_cons, succeeded?, compared?, ok] using ih.cons path
    | _ => simpa [List.filterMap_cons, succeeded?, compared?] using ih

theorem Spoiled.length_lt (spoiled : Spoiled trace) :
    (trace.filterMap succeeded?).length < (trace.filterMap compared?).length := by
  obtain ⟨worker, path, env, rc, failed, logged⟩ := spoiled
  obtain ⟨earlier, later, rfl⟩ := List.append_of_mem logged
  have before := (succeeded_sublist earlier).length_le
  have behind := (succeeded_sublist later).length_le
  simp only [List.filterMap_append, List.filterMap_cons, succeeded?, failed, ↓reduceIte, compared?, List.length_append,
    List.length_cons]
  omega

theorem Handed.not_allCompared (handed : Handed s trace) (missing : s.queue.count ≠ 0 ∨ Spoiled trace) :
    ¬AllCompared trace := by
  -- What is left in the ring has not been compared, and what has failed not with code zero.
  intro all
  obtain ⟨pending, holds, order⟩ := handed.ring
  have accepted := congrArg List.length order
  rw [List.length_append, List.length_map, holds.length_pending] at accepted
  have popped := handed.hands.length_eq
  rw [List.length_append] at popped
  have compared := (succeeded_sublist trace).length_le
  have enough := all.length_le
  rcases missing with unread | spoiled
  · omega
  · have := spoiled.length_lt
    omega

/-- A plan that returns zero has compared every task it accepted exactly when no step left
the ring unattended or lost the first code. -/
theorem plan_compares_accepted (run : PlanRun context allowed results progress s trace)
    (returned : s.main = .returned 0) :
    AllCompared trace ↔ PlanRun context Attended results progress s trace := by
  constructor
  · intro all
    exact run.attended_or_lost.resolve_right fun missing =>
      run.handed.not_allCompared (missing.imp_left Lost.unread) all
  · intro attended
    have zero := (run.readZero returned).1
    have exited : ∀ worker ∈ s.workers, worker = .exited := by
      have stage := run.stageOk
      rwa [returned] at stage
    rcases attended.calm_or_troubled with calm | recorded | ⟨code, _, member⟩
    · have empty : s.queue.count = 0 := calm.read.resolve_right fun ⟨worker, member, running⟩ =>
        running (exited worker member)
      rw [AllCompared, calm.clean]
      exact (run.handed.delivered empty exited).symm.subperm
    · exact absurd zero recorded
    · cases exited _ member

/-! ## Two runs of one plan -/

/-- The worker compares both files; only its last call of `task_queue_pop` meets a fault. -/
theorem plan_compares_accepted_lateFault : ∃ (s : PlanState) (trace : List PlanEvent), s.main = .returned 0 ∧
    trace.filterMap enqueued? = [sampleX, sampleY] ∧
    (AllCompared trace ↔ PlanRun readablePlan Attended resultSetInit progressInit s trace) := by
  have ends : (perform (planStep readablePlan) (mainSteps 39 ++ workerSteps 4 ++ [.popFault 0] ++ mainSteps 4)
      (planStart readablePlan resultSetInit progressInit)).map
        (fun run => (run.1.main, run.2.filterMap enqueued?)) = some (.returned 0, [sampleX, sampleY]) := by
    decide +kernel
  obtain ⟨⟨s, trace⟩, performed, view⟩ := Option.map_eq_some_iff.mp ends
  simp only [Prod.mk.injEq] at view
  have run : PlanRun readablePlan (fun _ _ => True) resultSetInit progressInit s trace :=
    Run.of_perform (fun _ _ _ => trivial) performed
  exact ⟨s, trace, view.1, view.2, plan_compares_accepted run view.1⟩

/-- The first call of the only worker meets the fault. Both files are accepted, neither is
compared, and the plan returns zero. -/
theorem plan_compares_accepted_earlyFault : ∃ (s : PlanState) (trace : List PlanEvent),
    PlanRun readablePlan (fun _ _ => True) resultSetInit progressInit s trace ∧ s.main = .returned 0 ∧
    trace.filterMap enqueued? = [sampleX, sampleY] ∧ trace.filterMap compared? = [] ∧ ¬AllCompared trace := by
  have ends : (perform (planStep readablePlan) (mainSteps 2 ++ [.popFault 0] ++ mainSteps 41)
      (planStart readablePlan resultSetInit progressInit)).map
        (fun run => (run.1.main, run.2.filterMap enqueued?, run.2.filterMap compared?)) =
      some (.returned 0, [sampleX, sampleY], []) := by
    decide +kernel
  obtain ⟨⟨s, trace⟩, performed, view⟩ := Option.map_eq_some_iff.mp ends
  simp only [Prod.mk.injEq] at view
  obtain ⟨returned, accepted, compared⟩ := view
  refine ⟨s, trace, Run.of_perform (fun _ _ _ => trivial) performed, returned, accepted, compared, fun all => ?_⟩
  have enough := all.length_le
  have bounded := (succeeded_sublist trace).length_le
  rw [accepted] at enough
  rw [compared] at bounded
  simp only [List.length_cons, List.length_nil] at enough bounded
  omega

end Verdiff
