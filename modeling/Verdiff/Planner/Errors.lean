import Verdiff.Planner.Accounting

/-! How a worker's error reaches the code `plan_and_compare` returns.

A worker that fails records its code before it shuts the queue down, and exits last. So
once all workers are gone every failure is recorded. The main thread hands the recorded
code on unless a call of its own has failed by then.
-/

set_option autoImplicit false

namespace Verdiff
open Transition PlanEvent

/-- The first code `compare_context_set_error` was called with. -/
def firstErrorCode (trace : List PlanEvent) : Rc := (trace.filterMap code?).headD 0

structure Alarmed (s : PlanState) (trace : List PlanEvent) : Prop where
  first : s.firstError = firstErrorCode trace
  codes : ∀ rc ∈ trace.filterMap code?, rc ≠ 0
  failing : ∀ rc, .failing rc ∈ s.workers → rc ≠ 0
  stopping : .stopping ∈ s.workers → s.firstError ≠ 0
  failures : ∀ worker path env rc, .compared worker path env rc ∈ trace → rc ≠ 0 →
    s.firstError ≠ 0 ∨ ∃ code, .failing code ∈ s.workers
  drained : .exited ∈ s.workers → s.firstError ≠ 0 ∨ s.queue.shutdown = true ∧ s.queue.count = 0

variable {context : PlanContext} {s t : PlanState} {action : PlanAction} {trace events : List PlanEvent}

theorem mem_set_of_mem {workers : List WorkerState} {i : Nat} {old new worker : WorkerState}
    (member : worker ∈ workers) (stands : workers[i]? = some old) (other : worker ≠ old) :
    worker ∈ workers.set i new := by
  obtain ⟨k, here⟩ := List.mem_iff_getElem?.mp member
  refine List.mem_iff_getElem?.mpr ⟨k, ?_⟩
  rw [List.getElem?_set_ne]
  · exact here
  · rintro rfl
    exact other (Option.some.inj (here.symm.trans stands))

theorem Alarmed.quiet (alarmed : Alarmed s trace) (error : t.firstError = s.firstError)
    (silent : ∀ event ∈ events, event.code? = none ∧ event.compared? = none)
    (keeps : ∀ code, .failing code ∈ s.workers → .failing code ∈ t.workers)
    (adds : ∀ worker ∈ t.workers, worker ∈ s.workers ∨ worker = .ready ∨ worker = .waitingNotEmpty ∨
      (∃ task, worker = .comparing task) ∨ worker = .exited)
    (drained : .exited ∈ t.workers → s.firstError ≠ 0 ∨ t.queue.shutdown = true ∧ t.queue.count = 0) :
    Alarmed t (trace ++ events) := by
  -- A move that records no code and no comparison, and after which the same workers fail.
  have codes : (trace ++ events).filterMap code? = trace.filterMap code? := by
    rw [List.filterMap_append, List.filterMap_eq_nil_iff.mpr fun event member => (silent event member).1,
      List.append_nil]
  constructor
  · rw [error, alarmed.first, firstErrorCode, firstErrorCode, codes]
  · rw [codes]; exact alarmed.codes
  · intro rc member
    rcases adds _ member with before | new
    · exact alarmed.failing rc before
    · simp at new
  · intro member
    rcases adds _ member with before | new
    · rw [error]; exact alarmed.stopping before
    · simp at new
  · intro worker path env rc member failed
    rcases List.mem_append.mp member with earlier | now
    · rw [error]
      exact (alarmed.failures worker path env rc earlier failed).imp_right fun ⟨code, stands⟩ =>
        ⟨code, keeps code stands⟩
    · exact absurd (silent _ now).2 (by simp [compared?])
  · rw [error]; exact drained

theorem Alarmed.main (alarmed : Alarmed s trace) (error : t.firstError = s.firstError)
    (workers : t.workers = s.workers) (queue : t.queue = s.queue)
    (silent : ∀ event ∈ events, event.code? = none ∧ event.compared? = none) :
    Alarmed t (trace ++ events) := by
  refine alarmed.quiet error silent (fun _ member => workers ▸ member)
    (fun _ member => .inl (workers ▸ member)) fun exited => ?_
  rw [queue]
  exact alarmed.drained (workers ▸ exited)

theorem Alarmed.setWorker {i : Nat} {old new : WorkerState} (alarmed : Alarmed s trace)
    (stands : s.workers[i]? = some old) (fine : ∀ code, old ≠ .failing code)
    (next : new = .ready ∨ new = .waitingNotEmpty ∨ (∃ task, new = .comparing task) ∨ new = .exited)
    (gone : new = .exited → s.firstError ≠ 0 ∨ s.queue.shutdown = true ∧ s.queue.count = 0) :
    Alarmed (s.setWorker i new) trace := by
  have moved : Alarmed (s.setWorker i new) (trace ++ []) := alarmed.quiet rfl (by simp)
    (fun code member => mem_set_of_mem member stands (fine code).symm)
    (fun worker member => (List.mem_or_eq_of_mem_set member).imp_right fun same => by
      rw [same]; exact next)
    (fun exited => ?_)
  · rwa [List.append_nil] at moved
  · rcases List.mem_or_eq_of_mem_set exited with before | same
    · exact alarmed.drained before
    · exact gone same.symm

theorem Alarmed.shutdownAll (alarmed : Alarmed s trace) : Alarmed s.shutdownAll trace := by
  have wakes : ∀ worker ∈ s.workers.map WorkerState.wake, worker ∈ s.workers ∨ worker = .ready := by
    intro worker member
    obtain ⟨before, present, rfl⟩ := List.mem_map.mp member
    cases before <;> simp_all [WorkerState.wake]
  have moved : Alarmed s.shutdownAll (trace ++ []) := alarmed.quiet rfl (by simp)
    (fun code member => List.mem_map.mpr ⟨_, member, rfl⟩)
    (fun worker member => (wakes worker member).imp_right .inl) (fun exited => ?_)
  · rwa [List.append_nil] at moved
  · rcases wakes _ exited with before | impossible
    · exact (alarmed.drained before).imp_right fun closed => ⟨rfl, closed.2⟩
    · cases impossible

theorem Alarmed.unset_iff (alarmed : Alarmed s trace) : s.firstError = 0 ↔ trace.filterMap code? = [] := by
  -- No code is recorded as long as none has been handed in.
  rw [alarmed.first, firstErrorCode]
  have codes := alarmed.codes
  cases found : trace.filterMap code? with
  | nil => simp
  | cons code rest => simpa using codes code (by simp [found])

theorem firstErrorCode_append (rc : Rc) :
    firstErrorCode (trace ++ [.errorSet rc]) =
      if trace.filterMap code? = [] then rc else firstErrorCode trace := by
  rw [firstErrorCode, firstErrorCode, List.filterMap_append]
  cases trace.filterMap code? <;> simp [code?]

theorem Alarmed.errorSet {i : Nat} {rc : Rc} (alarmed : Alarmed s trace)
    (failing : s.workers[i]? = some (.failing rc)) :
    Alarmed ({ s with firstError := if s.firstError = 0 then rc else s.firstError }.setWorker i .stopping)
      (trace ++ [.errorSet rc]) := by
  have nonzero := alarmed.failing rc (List.mem_of_getElem? failing)
  have recorded : (if s.firstError = 0 then rc else s.firstError) ≠ 0 := by
    split
    · exact nonzero
    next already => exact already
  constructor
  · rw [firstErrorCode_append, PlanState.setWorker_firstError, ← alarmed.first]
    simp only [alarmed.unset_iff]
  · intro code member
    rw [List.filterMap_append, List.mem_append] at member
    rcases member with earlier | now
    · exact alarmed.codes code earlier
    · rw [show code = rc by simpa [code?] using now]
      exact nonzero
  · intro code member
    exact alarmed.failing code (mem_set_of_ne member (by simp))
  · exact fun _ => recorded
  · exact fun _ _ _ _ _ _ => .inl recorded
  · exact fun _ => .inl recorded

theorem Alarmed.compared {i : Nat} {path : CString} {env : CompareEnv} {task : CompareTask} {rc : Rc}
    {results : ResultSet} (alarmed : Alarmed s trace) (comparing : s.workers[i]? = some (.comparing task)) :
    Alarmed ({ s with results := results }.setWorker i (if rc = 0 then .ready else .failing rc))
      (trace ++ [.compared i path env rc]) := by
  have only : ∀ worker ∈ s.workers.set i (if rc = 0 then .ready else .failing rc),
      worker ∈ s.workers ∨ worker = .ready ∨ rc ≠ 0 ∧ worker = .failing rc := by
    intro worker member
    refine (List.mem_or_eq_of_mem_set member).imp_right fun same => ?_
    rw [same]
    split <;> simp_all
  have codes : (trace ++ [PlanEvent.compared i path env rc]).filterMap code? = trace.filterMap code? := by
    simp [List.filterMap_cons, code?]
  constructor
  · rw [firstErrorCode, codes]
    exact alarmed.first
  · rw [codes]
    exact alarmed.codes
  · intro code member
    rcases only _ member with before | impossible | ⟨failed, same⟩
    · exact alarmed.failing code before
    · cases impossible
    · cases same; exact failed
  · intro member
    rcases only _ member with before | impossible | ⟨_, impossible⟩
    · exact alarmed.stopping before
    · cases impossible
    · cases impossible
  · intro worker other called code member failed
    rcases List.mem_append.mp member with earlier | now
    · exact (alarmed.failures worker other called code earlier failed).imp_right fun ⟨code, stands⟩ =>
        ⟨code, mem_set_of_mem stands comparing (by simp)⟩
    · simp only [List.mem_singleton, PlanEvent.compared.injEq] at now
      obtain ⟨rfl, rfl, rfl, rfl⟩ := now
      obtain ⟨inside, _⟩ := List.getElem?_eq_some_iff.mp comparing
      refine .inr ⟨code, ?_⟩
      rw [if_neg failed]
      exact List.mem_set inside _
  · intro exited
    rcases only _ exited with before | impossible | ⟨_, impossible⟩
    · exact alarmed.drained before
    · cases impossible
    · cases impossible

theorem Alarmed.created {i : Nat} (alarmed : Alarmed s trace) :
    Alarmed { s with main := .creating (i + 1), workers := s.workers ++ [.ready] } (trace ++ []) := by
  refine alarmed.quiet rfl (by simp) (fun code member => List.mem_append_left _ member) ?_ fun exited =>
    alarmed.drained (by simpa using exited)
  intro worker member
  rcases List.mem_append.mp member with before | new
  · exact .inl before
  · exact .inr (.inl (by simpa using new))

theorem Alarmed.accepted {i wake : Nat} {path : CString} {queue : TaskQueue} {workers : List WorkerState}
    (alarmed : Alarmed s trace) (live : Live context s) (pushed : taskQueuePush s.queue ⟨path⟩ = .accepted queue)
    (signalled : signalNotEmpty s.workers wake = some workers) :
    Alarmed { s with main := .scanningA (i + 1), queue := queue, workers := workers }
      (trace ++ [.enqueued path 0]) := by
  -- A worker has only gone behind a shutdown, and this push was accepted.
  obtain ⟨pending, holds⟩ := live.ring
  have running := (taskQueuePush_accepted holds pushed).1
  have only : ∀ worker ∈ workers, worker ∈ s.workers ∨ worker = .ready := by
    intro worker member
    rcases signalNotEmpty_some signalled with ⟨_, rfl⟩ | ⟨_, rfl⟩
    · exact .inl member
    · exact List.mem_or_eq_of_mem_set member
  refine alarmed.quiet rfl (by simp [code?, compared?]) ?_ (fun worker member =>
    (only worker member).imp_right .inl) fun exited => ?_
  · intro code member
    rcases signalNotEmpty_some signalled with ⟨_, rfl⟩ | ⟨waiter, rfl⟩
    · exact member
    · exact mem_set_of_mem member waiter (by simp)
  · rcases only _ exited with before | impossible
    · rw [live.gone before] at running
      cases running
    · cases impossible

theorem Alarmed.taken {i : Nat} {task : CompareTask} {queue : TaskQueue} (alarmed : Alarmed s trace)
    (live : Live context s) (ready : s.workers[i]? = some .ready) (popped : taskQueuePop s.queue = .taken task queue) :
    Alarmed ({ s with queue := queue, main := s.main.wake }.setWorker i (.comparing task))
      (trace ++ [.popped i task.relativePath]) := by
  -- If a worker has gone without a recorded error the ring was empty, and nothing could be taken.
  obtain ⟨pending, holds⟩ := live.ring
  have counted := (taskQueuePop_taken holds popped).2.2.1
  refine alarmed.quiet rfl (by simp [code?, compared?])
    (fun code member => mem_set_of_mem member ready (by simp))
    (fun worker member => (List.mem_or_eq_of_mem_set member).imp_right fun same =>
      .inr (.inr (.inl ⟨task, same⟩))) fun exited => ?_
  rcases alarmed.drained (mem_set_of_ne exited (by simp)) with recorded | ⟨_, empty⟩
  · exact .inl recorded
  · omega

theorem PlanMove.alarmed (move : PlanMove context s action t events) (permitted : LocksSucceed s action)
    (live : Live context s) (alarmed : Alarmed s trace) : Alarmed t (trace ++ events) := by
  cases move with
  | created => exact alarmed.created
  | abandoned =>
    rw [List.append_nil]
    exact (List.append_nil trace) ▸ alarmed.shutdownAll.main rfl rfl rfl (by simp)
  | stopped =>
    rw [List.append_nil]
    exact (List.append_nil trace) ▸ alarmed.shutdownAll.main rfl rfl rfl (by simp)
  | pushAccepted choice i path queue workers standing pushed signalled => exact alarmed.accepted live pushed signalled
  | popWaits i env ready =>
    rw [List.append_nil]
    exact alarmed.setWorker ready (by simp) (.inr (.inl rfl)) (by simp)
  | popDrained i env ready stopped empty =>
    rw [List.append_nil]
    exact alarmed.setWorker ready (by simp) (by simp) fun _ => .inr ⟨stopped, empty⟩
  | popTaken i env task queue ready popped => exact alarmed.taken live ready popped
  | compared i env task rc results comparing => exact alarmed.compared comparing
  | errorSet i env rc failing => exact alarmed.errorSet failing
  | workerStopped i env stopping =>
    rw [List.append_nil]
    have recorded := alarmed.stopping (List.mem_of_getElem? stopping)
    have stands : s.shutdownAll.workers[i]? = some .stopping := by simp [stopping, WorkerState.wake]
    exact alarmed.shutdownAll.setWorker stands (by simp) (by simp) fun _ => .inl recorded
  | wokenWorker i waiting =>
    rw [List.append_nil]
    exact alarmed.setWorker waiting (by simp) (.inl rfl) (by simp)
  | popFaulted | errorFaulted | stopFaulted | abandonFaulted | shutdownFaulted | readFaulted => exact permitted.elim
  | presentA => exact alarmed.main rfl rfl rfl (by simp [Verdiff.pushPresence, code?, compared?])
  | presentB => exact alarmed.main rfl rfl rfl (by simp [Verdiff.pushPresence, code?, compared?])
  | _ => exact alarmed.main rfl rfl rfl (by simp [code?, compared?])

theorem PlanRun.alarmed {results : ResultSet} {progress : ProgressState}
    (run : PlanRun context LocksSucceed results progress s trace) : Alarmed s trace := by
  refine PlanRun.invariant Alarmed ?_ ?_ run
  · constructor <;> simp [planStart, firstErrorCode]
  · intro s t trace events action earlier alarmed permitted move
    exact move.alarmed permitted earlier.live alarmed

theorem Alarmed.failed_of_exited (alarmed : Alarmed s trace) (exited : ∀ worker ∈ s.workers, worker = .exited)
    {worker : Nat} {path : CString} {env : CompareEnv} {rc : Rc}
    (compared : .compared worker path env rc ∈ trace) (failed : rc ≠ 0) : s.firstError ≠ 0 := by
  rcases alarmed.failures worker path env rc compared failed with recorded | ⟨code, stands⟩
  · exact recorded
  · cases exited _ stands

/-! ## The returned code -/

/-- Moreover the main thread enters no push after the queue was shut down. -/
def PushesInTime (s : PlanState) (action : PlanAction) : Prop :=
  PthreadsSucceed s action ∧
  ((∃ choice, action = .main choice) → ∀ i path, s.main = .enqueuing i path → s.queue.shutdown = false)

def MainFailed (trace : List PlanEvent) : Prop := ∃ event ∈ trace, event.byMain = true ∧ event.rc ≠ 0

theorem MainFailed.append (failed : MainFailed trace) : MainFailed (trace ++ events) := by
  obtain ⟨event, member, own⟩ := failed
  exact ⟨event, List.mem_append_left _ member, own⟩

/-- Which code the main thread carries by each of its stages. -/
def StageCode (firstError : Rc) (trace : List PlanEvent) : MainState → Prop
  | .starting => trace = []
  | .createFailed _ | .abandoning _ _ => False
  | .stopping rc | .joining _ rc => rc = 0 ∨ MainFailed trace
  | .returned rc => trace = [] ∨ MainFailed trace ∨ rc = firstError
  | _ => True

structure Reported (s : PlanState) (trace : List PlanEvent) : Prop where
  stage : StageCode s.firstError trace s.main
  pushes : ∀ path rc, .enqueued path rc ∈ trace → rc = 0

theorem StageOk.underway {i : Nat} {old : WorkerState} (stage : StageOk context s.queue s.workers s.main)
    (stands : s.workers[i]? = some old) (running : old ≠ .exited) :
    s.main ≠ .starting ∧ ∀ rc, s.main ≠ .returned rc := by
  -- While a worker runs the main thread is neither in front of the first creation nor done.
  constructor
  · intro standing
    rw [standing] at stage
    rw [show s.workers = [] from stage] at stands
    simp at stands
  · intro rc standing
    rw [standing] at stage
    exact running (stage old (List.mem_of_getElem? stands))

theorem StageCode.worker {firstError : Rc} {stage : MainState} (later : Rc) (events : List PlanEvent) (ok : StageCode firstError trace stage)
    (underway : stage ≠ .starting ∧ ∀ rc, stage ≠ .returned rc) :
    StageCode later (trace ++ events) stage ∧ StageCode later (trace ++ events) stage.wake := by
  cases stage with
  | starting => exact absurd rfl underway.1
  | returned rc => exact absurd rfl (underway.2 rc)
  | createFailed rc => exact ok.elim
  | abandoning j rc => exact ok.elim
  | stopping rc => exact ⟨ok.imp_right MainFailed.append, ok.imp_right MainFailed.append⟩
  | joining j rc => exact ⟨ok.imp_right MainFailed.append, ok.imp_right MainFailed.append⟩
  | _ => exact ⟨trivial, trivial⟩

theorem Reported.worker {i : Nat} {old : WorkerState} (reported : Reported s trace) (live : Live context s)
    (stands : s.workers[i]? = some old) (running : old ≠ .exited)
    (main : t.main = s.main ∨ t.main = s.main.wake) (others : ∀ event ∈ events, event.byMain = false) :
    Reported t (trace ++ events) := by
  constructor
  · obtain ⟨same, woken⟩ := reported.stage.worker t.firstError events
      (live.stage.underway stands running)
    rcases main with main | main <;> rw [main]
    · exact same
    · exact woken
  · intro path rc member
    rcases List.mem_append.mp member with earlier | now
    · exact reported.pushes path rc earlier
    · simpa [byMain] using others _ now

theorem Reported.main {stage : MainState} (reported : Reported s trace) (standing : t.main = stage)
    (ok : StageCode t.firstError trace stage) : Reported t (trace ++ []) := by
  rw [List.append_nil]
  exact ⟨standing ▸ ok, reported.pushes⟩

theorem Reported.presence {record : ChangeRecord} {allocs : PushAllocs} {next : MainState}
    (reported : Reported s trace) (underway : ∀ firstError log, StageCode firstError log next) :
    Reported (pushPresence s next record allocs).1 (trace ++ (pushPresence s next record allocs).2) := by
  change Reported _ (trace ++ [.presence record (resultSetPush s.results record allocs).1])
  constructor
  · change StageCode _ _ (if (resultSetPush s.results record allocs).1 = 0 then next else .stopping _)
    split
    · exact underway _ _
    next failed =>
      exact .inr ⟨.presence record (resultSetPush s.results record allocs).1, by simp, rfl, failed⟩
  · intro path rc member
    exact reported.pushes path rc (by simpa using member)

theorem PlanMove.reported (move : PlanMove context s action t events) (permitted : PushesInTime s action)
    (live : Live context s) (reported : Reported s trace) : Reported t (trace ++ events) := by
  have stage := reported.stage
  cases move with
  | startFailed choice standing => rw [standing] at stage; exact reported.main rfl (.inl stage)
  | createFailed choice i standing below failed => exact absurd (permitted.1.1 i standing) failed
  | pushFaulted choice i path standing failed => exact absurd (permitted.1.2 i path standing) failed
  | abandoned choice rc standing => rw [standing] at stage; exact stage.elim
  | abandonJoined choice j rc standing => rw [standing] at stage; exact stage.elim
  | abandonEnded choice j rc standing => rw [standing] at stage; exact stage.elim
  | presentA => exact reported.presence fun _ _ => trivial
  | presentB => exact reported.presence fun _ _ => trivial
  | pushCanceled choice i path standing shut =>
    have running := permitted.2 ⟨choice, rfl⟩ i path standing
    rw [shut] at running
    cases running
  | pushAccepted choice i path =>
    refine ⟨trivial, fun other rc member => ?_⟩
    rcases List.mem_append.mp member with earlier | now
    · exact reported.pushes other rc earlier
    · simp only [List.mem_singleton, PlanEvent.enqueued.injEq] at now
      exact now.2
  | endedB choice j standing => exact reported.main rfl (.inl rfl)
  | stopped choice rc standing => rw [standing] at stage; exact reported.main rfl stage
  | joined choice j rc standing => rw [standing] at stage; exact reported.main rfl stage
  | joinEnded choice j rc standing =>
    rw [standing] at stage
    by_cases zero : rc = 0
    · exact reported.main (if_pos zero) trivial
    · exact reported.main (if_neg zero) (.inr (.inl (stage.resolve_left zero)))
  | read choice standing => exact reported.main rfl (.inr (.inr rfl))
  | popWaits i env ready => exact reported.worker live ready (by simp) (.inl rfl) (by simp)
  | popDrained i env ready => exact reported.worker live ready (by simp) (.inl rfl) (by simp)
  | popTaken i env task queue ready => exact reported.worker live ready (by simp) (.inr rfl) (by simp [byMain])
  | compared i env task rc results comparing =>
    exact reported.worker live comparing (by simp) (.inl rfl) (by simp [byMain])
  | errorSet i env rc failing => exact reported.worker live failing (by simp) (.inl rfl) (by simp [byMain])
  | workerStopped i env stopping => exact reported.worker live stopping (by simp) (.inr rfl) (by simp)
  | wokenWorker i waiting => exact reported.worker live waiting (by simp) (.inl rfl) (by simp)
  | popFaulted => exact permitted.1.elim
  | errorFaulted => exact permitted.1.elim
  | stopFaulted => exact permitted.1.elim
  | abandonFaulted => exact permitted.1.elim
  | shutdownFaulted => exact permitted.1.elim
  | readFaulted => exact permitted.1.elim
  | _ => exact reported.main rfl trivial

/-- A main thread that meets a shut-down queue in a push ends with `ECANCELED`. -/
def StageLate (queue : TaskQueue) : MainState → Prop
  | .enqueuing _ _ => queue.shutdown = true
  | .stopping rc | .joining _ rc | .returned rc => rc = Fault.ECANCELED.code
  | _ => False

theorem StageLate.worker {queue next : TaskQueue} {stage : MainState} (late : StageLate queue stage)
    (stays : queue.shutdown = true → next.shutdown = true) : StageLate next stage ∧ StageLate next stage.wake := by
  cases stage with
  | enqueuing i path => exact ⟨stays late, stays late⟩
  | waitingNotFull i path => exact late.elim
  | _ => exact ⟨late, late⟩

theorem PlanMove.late (move : PlanMove context s action t events) (permitted : PthreadsSucceed s action)
    (live : Live context s) (late : StageLate s.queue s.main) : StageLate t.queue t.main := by
  cases move with
  | startFailed _ standing => rw [standing] at late; exact late.elim
  | started _ standing => rw [standing] at late; exact late.elim
  | createFailed _ _ standing => rw [standing] at late; exact late.elim
  | created _ _ standing => rw [standing] at late; exact late.elim
  | poolReady _ _ standing => rw [standing] at late; exact late.elim
  | abandoned _ _ standing => rw [standing] at late; exact late.elim
  | abandonJoined _ _ _ standing => rw [standing] at late; exact late.elim
  | abandonEnded _ _ _ standing => rw [standing] at late; exact late.elim
  | skippedA _ _ standing => rw [standing] at late; exact late.elim
  | presentA _ _ _ standing => rw [standing] at late; exact late.elim
  | candidateA _ _ _ standing => rw [standing] at late; exact late.elim
  | endedA _ _ standing => rw [standing] at late; exact late.elim
  | pushFaulted _ i path standing failed => exact absurd (permitted.2 i path standing) failed
  | pushWaits _ _ _ standing running =>
    rw [standing] at late
    rw [show s.queue.shutdown = true from late] at running
    cases running
  | pushCanceled => exact rfl
  | pushAccepted _ _ path _ _ standing pushed =>
    rw [standing] at late
    rw [taskQueuePush_canceled.mpr late] at pushed
    cases pushed
  | skippedB _ _ standing => rw [standing] at late; exact late.elim
  | presentB _ _ _ standing => rw [standing] at late; exact late.elim
  | endedB _ _ standing => rw [standing] at late; exact late.elim
  | stopped _ rc standing => rw [standing] at late; exact late
  | joined _ _ rc standing => rw [standing] at late; exact late
  | joinEnded _ _ rc standing =>
    rw [standing] at late
    rw [show rc = Fault.ECANCELED.code from late]
    exact rfl
  | read _ standing => rw [standing] at late; exact late.elim
  | popTaken i env task queue ready popped =>
    obtain ⟨pending, holds⟩ := live.ring
    exact (late.worker fun stopped => (taskQueuePop_taken holds popped).1.trans stopped).2
  | workerStopped => exact (late.worker fun _ => rfl).2
  | popFaulted => exact permitted.elim
  | errorFaulted => exact permitted.elim
  | stopFaulted => exact permitted.elim
  | abandonFaulted => exact permitted.elim
  | shutdownFaulted => exact permitted.elim
  | readFaulted => exact permitted.elim
  | wokenMain _ _ standing => rw [standing] at late; exact late.elim
  | _ => exact (late.worker id).1

variable {results : ResultSet} {progress : ProgressState} {rc : Rc}

theorem PushesInTime.locksSucceed (inTime : PushesInTime s action) : LocksSucceed s action :=
  PthreadsSucceed.locksSucceed inTime.1

theorem PlanRun.reported (run : PlanRun context PushesInTime results progress s trace) : Reported s trace := by
  refine PlanRun.invariant Reported ⟨rfl, by simp⟩ ?_ run
  intro s t trace events action earlier reported permitted move
  exact move.reported permitted (PlanRun.live (earlier.weaken fun _ _ => PushesInTime.locksSucceed)) reported

/-- Either every push was in time, or the main thread is bound to return `ECANCELED`. -/
theorem PlanRun.inTime_or_late (run : PlanRun context PthreadsSucceed results progress s trace) :
    PlanRun context PushesInTime results progress s trace ∨ StageLate s.queue s.main := by
  refine Run.invariant (fun s trace =>
    PlanRun context PushesInTime results progress s trace ∨ StageLate s.queue s.main) (.inl .start) ?_ run
  intro s t trace events action earlier before permitted stepped
  have live := PlanRun.live (earlier.weaken fun _ _ => PthreadsSucceed.locksSucceed)
  have move := planStep_move stepped
  -- The first late entry decides; all steps in front of it were in time.
  rcases before with inTime | late
  · by_cases soon : PushesInTime s action
    · exact .inl (inTime.next soon stepped)
    · rw [PushesInTime, not_and] at soon
      have missed := soon permitted
      push Not at missed
      obtain ⟨_, i, path, standing, shut⟩ := missed
      refine .inr (move.late permitted live ?_)
      rw [standing]
      exact (Bool.not_eq_false _).mp shut
  · exact .inr (move.late permitted live late)

theorem PlanRun.returns_first (run : PlanRun context PushesInTime results progress s trace)
    (returned : s.main = .returned rc)
    (failed : ∃ worker path env code, .compared worker path env code ∈ trace ∧ code ≠ 0)
    (presence : ∀ record code, .presence record code ∈ trace → code = 0) : rc = firstErrorCode trace := by
  obtain ⟨worker, path, env, code, compared, nonzero⟩ := failed
  have alarmed := PlanRun.alarmed (run.weaken fun _ _ => PushesInTime.locksSucceed)
  have reported := run.reported
  have stage := reported.stage
  rw [returned] at stage
  rcases stage with empty | ⟨event, member, own, broken⟩ | same
  · rw [empty] at compared
    simp at compared
  · cases event with
    | presence record code => exact absurd (presence record code member) broken
    | enqueued path code => exact absurd (reported.pushes path code member) broken
    | popped => cases own
    | compared => cases own
    | errorSet => cases own
  · exact same.trans alarmed.first

/-- The returned code is the first worker's exactly when no push came too late, apart from
a worker whose own code is `ECANCELED`. -/
theorem plan_returns_first_error (run : PlanRun context PthreadsSucceed results progress s trace)
    (returned : s.main = .returned rc)
    (failed : ∃ worker path env code, .compared worker path env code ∈ trace ∧ code ≠ 0)
    (presence : ∀ record code, .presence record code ∈ trace → code = 0) :
    rc = firstErrorCode trace ↔
      PlanRun context PushesInTime results progress s trace ∨ firstErrorCode trace = Fault.ECANCELED.code := by
  have late_code : StageLate s.queue s.main → rc = Fault.ECANCELED.code := fun late => by
    rw [returned] at late
    exact late
  constructor
  · intro same
    rcases PlanRun.inTime_or_late run with inTime | late
    · exact .inl inTime
    · exact .inr (same.symm.trans (late_code late))
  · rintro (inTime | canceled)
    · exact PlanRun.returns_first inTime returned failed presence
    · rcases PlanRun.inTime_or_late run with inTime | late
      · exact PlanRun.returns_first inTime returned failed presence
      · exact (late_code late).trans canceled.symm

/-! ## Two runs of one plan -/

def deniedPlan : PlanContext :=
  samplePlan (fun _ => .error ⟨13, by decide⟩) planQueueCapacity planQueueCapacity_pos

def PlanEvent.failedCompare : PlanEvent → Bool
  | .compared _ _ _ rc => rc != 0
  | _ => false

def PlanEvent.failedPresence : PlanEvent → Bool
  | .presence _ rc => rc != 0
  | _ => false

theorem deniedPlan_run (k l m : Nat) (rc code : Rc)
    (ends : (perform (planStep deniedPlan) (mainSteps k ++ workerSteps l ++ mainSteps m)
      (planStart deniedPlan resultSetInit progressInit)).map (fun run => (run.1.main, firstErrorCode run.2,
        run.2.any PlanEvent.failedCompare, run.2.any PlanEvent.failedPresence)) =
      some (.returned rc, code, true, false)) :
    ∃ s trace, PlanRun deniedPlan PthreadsSucceed resultSetInit progressInit s trace ∧
      s.main = .returned rc ∧ firstErrorCode trace = code ∧
      (∃ worker path env code, .compared worker path env code ∈ trace ∧ code ≠ 0) ∧
      ∀ record code, .presence record code ∈ trace → code = 0 := by
  obtain ⟨⟨s, trace⟩, performed, view⟩ := Option.map_eq_some_iff.mp ends
  simp only [Prod.mk.injEq] at view
  obtain ⟨returned, first, failed, clean⟩ := view
  refine ⟨s, trace, Run.of_perform ?_ performed, returned, first, ?_, ?_⟩
  · intro action member s
    simp only [List.mem_append] at member
    rcases member with (first | middle) | last
    · exact mainSteps_succeed first s
    · exact workerSteps_succeed middle s
    · exact mainSteps_succeed last s
  · obtain ⟨event, member, broken⟩ := List.any_eq_true.mp failed
    cases event with
    | compared worker path env code =>
      exact ⟨worker, path, env, code, member, by simpa [PlanEvent.failedCompare] using broken⟩
    | _ => cases broken
  · intro record code member
    have fine := List.any_eq_false.mp clean _ member
    simpa [PlanEvent.failedPresence] using fine

/-- The worker fails once both candidates are enqueued. -/
theorem plan_returns_first_error_inTime : ∃ s trace, s.main = .returned 13 ∧
    (13 = firstErrorCode trace ↔
      PlanRun deniedPlan PushesInTime resultSetInit progressInit s trace ∨
        firstErrorCode trace = Fault.ECANCELED.code) := by
  obtain ⟨s, trace, run, returned, _, failed, presence⟩ :=
    deniedPlan_run 39 4 4 13 13 (by decide +kernel)
  exact ⟨s, trace, returned, plan_returns_first_error run returned failed presence⟩

/-- The worker fails between the two pushes of the main thread, which then returns `ECANCELED`
and not the worker's code. -/
theorem plan_returns_first_error_late :
    ∃ s trace, PlanRun deniedPlan PthreadsSucceed resultSetInit progressInit s trace ∧
      s.main = .returned Fault.ECANCELED.code ∧
      (∃ worker path env code, .compared worker path env code ∈ trace ∧ code ≠ 0) ∧
      (∀ record code, .presence record code ∈ trace → code = 0) ∧
      Fault.ECANCELED.code ≠ firstErrorCode trace := by
  obtain ⟨s, trace, run, returned, first, failed, presence⟩ :=
    deniedPlan_run 6 4 17 Fault.ECANCELED.code 13 (by decide +kernel)
  exact ⟨s, trace, run, returned, failed, presence, by rw [first]; decide⟩

end Verdiff
