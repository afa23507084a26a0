import Verdiff.Planner.Moves

/-! The planner never gets stuck.

A worker can only wait on `not_empty` while there are at least as many ready workers as
tasks: every accepted task either was signalled to a waiter, who is then ready, or met no
waiter at all. A worker that takes another's task only lowers both numbers.
-/

set_option autoImplicit false

namespace Verdiff

/-- What is known of the queue and the workers at each stage of the main thread. -/
def StageOk (context : PlanContext) (queue : TaskQueue) (workers : List WorkerState) : MainState → Prop
  | .starting => workers = []
  | .creating i => workers.length = i ∧ i ≤ context.config.threadCount
  | .createFailed _ => True
  | .abandoning j _ => ∀ k < j, workers[k]? = some .exited
  | .scanningA _ | .enqueuing _ _ | .scanningB _ | .stopping _ =>
    workers.length = context.config.threadCount
  | .waitingNotFull _ _ => workers.length = context.config.threadCount ∧ queue.shutdown = false ∧
    queue.count = queue.capacity
  | .joining j _ => workers.length = context.config.threadCount ∧ ∀ k < j, workers[k]? = some .exited
  | .reading => workers.length = context.config.threadCount ∧ ∀ worker ∈ workers, worker = .exited
  | .returned _ => ∀ worker ∈ workers, worker = .exited

/-- The main thread has been through `task_queue_shutdown` and waits for the workers. -/
def MainState.Joins : MainState → Prop
  | .abandoning _ _ | .joining _ _ => True
  | _ => False

structure Live (context : PlanContext) (s : PlanState) : Prop where
  capacity : s.queue.capacity = context.queueCapacity
  ring : ∃ pending, s.queue.Holds pending
  stage : StageOk context s.queue s.workers s.main
  /-- A waiting worker is no more needed than the ready ones can make up for. -/
  hungry : .waitingNotEmpty ∈ s.workers →
    s.queue.shutdown = false ∧ s.queue.count ≤ s.workers.count .ready
  gone : .exited ∈ s.workers → s.queue.shutdown = true
  shut : s.main.Joins → s.queue.shutdown = true

/-! ## The workers' list -/

variable {workers : List WorkerState} {i : Nat} {old new : WorkerState}

theorem count_ready_set (new : WorkerState) (stands : workers[i]? = some old) :
    (workers.set i new).count .ready + (if old = .ready then 1 else 0) =
      workers.count .ready + (if new = .ready then 1 else 0) := by
  obtain ⟨inside, here⟩ := List.getElem?_eq_some_iff.mp stands
  have member : old ∈ workers := List.mem_of_getElem? stands
  have counted : old = .ready → 0 < workers.count .ready := fun ready =>
    List.count_pos_iff.mpr (ready ▸ member)
  rw [List.count_set inside, here]
  by_cases wasReady : old = .ready
  · have := counted wasReady
    simp only [wasReady, beq_self_eq_true, ↓reduceIte, beq_iff_eq]
    omega
  · simp [wasReady]

theorem mem_set_of_ne {worker : WorkerState} (member : worker ∈ workers.set i new) (other : worker ≠ new) :
    worker ∈ workers := by
  rcases List.mem_or_eq_of_mem_set member with inside | same
  · exact inside
  · exact absurd same other

theorem exited_set {k : Nat} (stands : workers[i]? = some old) (running : old ≠ .exited)
    (exited : workers[k]? = some .exited) : (workers.set i new)[k]? = some .exited := by
  rw [List.getElem?_set_ne]
  · exact exited
  · rintro rfl
    exact running (Option.some.inj (stands.symm.trans exited))

theorem exited_wake {k : Nat} (exited : workers[k]? = some .exited) :
    (workers.map WorkerState.wake)[k]? = some .exited := by
  simp [exited, WorkerState.wake]

theorem waiting_notMem_wake : .waitingNotEmpty ∉ workers.map WorkerState.wake := by
  intro member
  obtain ⟨worker, _, asleep⟩ := List.mem_map.mp member
  exact WorkerState.wake_ne_waiting worker asleep

theorem all_exited {j : Nat} (joined : ∀ k < j, workers[k]? = some .exited) (passed : workers.length ≤ j) :
    ∀ worker ∈ workers, worker = .exited := by
  intro worker member
  obtain ⟨k, inside, rfl⟩ := List.getElem_of_mem member
  have exited := joined k (by omega)
  rw [List.getElem?_eq_getElem inside] at exited
  exact Option.some.inj exited

theorem exited_succ {j : Nat} (joined : ∀ k < j, workers[k]? = some .exited) (exited : workers[j]? = some .exited) :
    ∀ k < j + 1, workers[k]? = some .exited := by
  intro k below
  rcases Nat.lt_succ_iff_lt_or_eq.mp below with earlier | rfl
  · exact joined k earlier
  · exact exited

/-! ## The stage under the workers' moves -/

variable {context : PlanContext} {queue next : TaskQueue} {stage : MainState}

theorem StageOk.setWorker (ok : StageOk context queue workers stage) (stands : workers[i]? = some old)
    (running : old ≠ .exited) : StageOk context queue (workers.set i new) stage := by
  have present : old ∈ workers := List.mem_of_getElem? stands
  cases stage with
  | starting => rw [show workers = [] from ok] at stands; simp at stands
  | createFailed rc => trivial
  | abandoning j rc => exact fun k below => exited_set stands running (ok k below)
  -- A worker the main thread has joined is exited and makes no move.
  | joining j rc =>
    exact ⟨by rw [List.length_set]; exact ok.1, fun k below => exited_set stands running (ok.2 k below)⟩
  | reading => exact absurd (ok.2 old present) running
  | returned rc => exact absurd (ok old present) running
  | creating j => simpa [StageOk] using ok
  | scanningA j => simpa [StageOk] using ok
  | enqueuing j path => simpa [StageOk] using ok
  | waitingNotFull j path => simpa [StageOk] using ok
  | scanningB j => simpa [StageOk] using ok
  | stopping rc => simpa [StageOk] using ok

theorem StageOk.wakeAll (ok : StageOk context queue workers stage) :
    StageOk context (taskQueueShutdown queue) (workers.map WorkerState.wake) stage.wake := by
  have kept : (∀ worker ∈ workers, worker = .exited) →
      ∀ worker ∈ workers.map WorkerState.wake, worker = .exited := by
    intro exited worker member
    obtain ⟨before, present, rfl⟩ := List.mem_map.mp member
    exact WorkerState.wake_exited.mpr (exited before present)
  cases stage with
  | starting => rw [show workers = [] from ok]; exact rfl
  | createFailed rc => trivial
  | abandoning j rc => exact fun k below => exited_wake (ok k below)
  | joining j rc => exact ⟨by rw [List.length_map]; exact ok.1, fun k below => exited_wake (ok.2 k below)⟩
  | reading => exact ⟨by rw [List.length_map]; exact ok.1, kept ok.2⟩
  | returned rc => exact kept ok
  | waitingNotFull j path => simpa [MainState.wake, StageOk] using ok.1
  | creating j => simpa [MainState.wake, StageOk] using ok
  | scanningA j => simpa [MainState.wake, StageOk] using ok
  | enqueuing j path => simpa [MainState.wake, StageOk] using ok
  | scanningB j => simpa [MainState.wake, StageOk] using ok
  | stopping rc => simpa [MainState.wake, StageOk] using ok

theorem StageOk.popped (ok : StageOk context queue workers stage) : StageOk context next workers stage.wake := by
  -- A pop signals `not_full`, so the main thread no longer waits for room.
  cases stage with
  | waitingNotFull j path => exact ok.1
  | _ => exact ok

theorem MainState.joins_wake : stage.wake.Joins ↔ stage.Joins := by cases stage <;> exact Iff.rfl

/-! ## One move keeps the invariant -/

variable {s t : PlanState} {action : PlanAction} {events : List PlanEvent}

theorem Live.ready_exists_of_hungry (live : Live context s) (waits : .waitingNotEmpty ∈ s.workers)
    (work : 0 < s.queue.count) : .ready ∈ s.workers := by
  have := (live.hungry waits).2
  exact List.count_pos_iff.mp (by omega)

/-- A worker that moves between states other than `waitingNotEmpty` and `exited`, the queue
being left alone, and does not stop being ready. -/
theorem Live.setWorker (live : Live context s) (stands : s.workers[i]? = some old)
    (running : old ≠ .exited) (readies : old = .ready → new = .ready) (awake : new ≠ .waitingNotEmpty)
    (stays : new ≠ .exited) : Live context (s.setWorker i new) where
  capacity := live.capacity
  ring := live.ring
  stage := live.stage.setWorker stands running
  hungry := fun waits => by
    obtain ⟨opened, enough⟩ := live.hungry (mem_set_of_ne waits awake.symm)
    have counted := count_ready_set new stands
    refine ⟨opened, ?_⟩
    simp only [PlanState.setWorker_queue, PlanState.setWorker_workers]
    by_cases wasReady : old = .ready
    · simp only [wasReady, readies wasReady, ↓reduceIte] at counted ⊢
      omega
    · simp only [wasReady, ↓reduceIte] at counted
      omega
  gone := fun exited => live.gone (mem_set_of_ne exited stays.symm)
  shut := live.shut

theorem Live.shutdownAll (live : Live context s) : Live context s.shutdownAll where
  capacity := live.capacity
  ring := live.ring.imp fun _ holds => holds.shutdown
  stage := live.stage.wakeAll
  hungry := fun waits => absurd waits waiting_notMem_wake
  gone := fun _ => rfl
  shut := fun _ => rfl

theorem Live.withMain (live : Live context s) (ok : StageOk context s.queue s.workers stage)
    (shut : stage.Joins → s.queue.shutdown = true) : Live context { s with main := stage } :=
  ⟨live.capacity, live.ring, ok, live.hungry, live.gone, shut⟩

theorem Live.created (live : Live context s) (stage : StageOk context s.queue (s.workers ++ [.ready]) (.creating i)) :
    Live context { s with main := .creating i, workers := s.workers ++ [.ready] } := by
  refine ⟨live.capacity, live.ring, stage, ?_, ?_, False.elim⟩
  · intro waits
    have enough := live.hungry (by simpa using waits)
    simp only [List.count_append, List.count_singleton_self]
    exact ⟨enough.1, by omega⟩
  · intro exited
    exact live.gone (by simpa using exited)

theorem Live.pushAccepted {path : CString} {woken : List WorkerState} {wake : Nat} (live : Live context s)
    (pushed : taskQueuePush s.queue ⟨path⟩ = .accepted next)
    (signalled : signalNotEmpty s.workers wake = some woken) (ok : StageOk context next woken stage)
    (scans : ¬stage.Joins) :
    Live context { s with main := stage, queue := next, workers := woken } := by
  obtain ⟨pending, holds⟩ := live.ring
  obtain ⟨running, stillRunning, keeps, grown, extended⟩ := taskQueuePush_accepted holds pushed
  refine ⟨keeps.trans live.capacity, ⟨_, extended⟩, ok, ?_, ?_, fun joins => absurd joins scans⟩
  · intro waits
    refine ⟨stillRunning, ?_⟩
    simp only at waits ⊢
    -- One more task, and with a waiter left the signal has made one more worker ready.
    rcases signalNotEmpty_some signalled with ⟨nobody, rfl⟩ | ⟨waiter, rfl⟩
    · exact absurd waits nobody
    · have enough := (live.hungry (List.mem_of_getElem? waiter)).2
      have counted := count_ready_set .ready waiter
      simp only [reduceCtorEq, ↓reduceIte] at counted
      omega
  · intro exited
    have before : .exited ∈ s.workers := by
      rcases signalNotEmpty_some signalled with ⟨_, rfl⟩ | ⟨_, rfl⟩
      · exact exited
      · exact mem_set_of_ne exited (by simp)
    rw [live.gone before] at running
    cases running

theorem Live.popTaken {task : CompareTask} (live : Live context s) (ready : s.workers[i]? = some .ready)
    (popped : taskQueuePop s.queue = .taken task next)
    (ok : StageOk context next (s.workers.set i (.comparing task)) stage)
    (joins : stage.Joins → s.main.Joins) :
    Live context ({ s with queue := next, main := stage }.setWorker i (.comparing task)) := by
  obtain ⟨pending, holds⟩ := live.ring
  obtain ⟨same, keeps, shrunk, rest, _, left⟩ := taskQueuePop_taken holds popped
  refine ⟨keeps.trans live.capacity, ⟨rest, left⟩, ok, ?_, ?_, fun joining => same.trans (live.shut (joins joining))⟩
  · intro waits
    obtain ⟨opened, enough⟩ := live.hungry (mem_set_of_ne waits (by simp))
    -- One task less and one ready worker less.
    have counted := count_ready_set (.comparing task) ready
    simp only [↓reduceIte, reduceCtorEq] at counted
    refine ⟨same.trans opened, ?_⟩
    simp only [PlanState.setWorker_queue, PlanState.setWorker_workers]
    omega
  · intro exited
    exact same.trans (live.gone (mem_set_of_ne exited (by simp)))

theorem stageOk_pushPresence {record : ChangeRecord} {allocs : PushAllocs}
    (pool : s.workers.length = context.config.threadCount) (ok : StageOk context s.queue s.workers stage) :
    StageOk context s.queue s.workers (pushPresence s stage record allocs).1.main := by
  change StageOk context s.queue s.workers (if (resultSetPush s.results record allocs).1 = 0 then stage else _)
  split
  · exact ok
  · exact pool

theorem pushPresence_joins {record : ChangeRecord} {allocs : PushAllocs} (scans : ¬stage.Joins) :
    ¬(pushPresence s stage record allocs).1.main.Joins := by
  change ¬(if (resultSetPush s.results record allocs).1 = 0 then stage else .stopping _).Joins
  split
  · exact scans
  · exact id

theorem stageOk_accepted {j wake : Nat} {workers : List WorkerState} {queue : TaskQueue}
    (pool : s.workers.length = context.config.threadCount) (signalled : signalNotEmpty s.workers wake = some workers) :
    StageOk context queue workers (.scanningA (j + 1)) := by
  change workers.length = context.config.threadCount
  rcases signalNotEmpty_some signalled with ⟨_, rfl⟩ | ⟨_, rfl⟩
  · exact pool
  · rw [List.length_set]
    exact pool

theorem stageOk_joinEnded {j : Nat} {rc : Rc} (stage : StageOk context s.queue s.workers (.joining j rc))
    (passed : s.workers.length ≤ j) :
    StageOk context s.queue s.workers (if rc = 0 then .reading else .returned rc) := by
  -- A join that is through has seen every worker leave.
  have exited := all_exited stage.2 passed
  split
  · exact ⟨stage.1, exited⟩
  · exact exited

theorem PlanMove.stageOk_main {choice : MainChoice} (move : PlanMove context s (.main choice) t events)
    (stage : StageOk context s.queue s.workers s.main) : StageOk context t.queue t.workers t.main := by
  cases move with
  | startFailed _ standing =>
    rw [standing] at stage
    rw [show s.workers = [] from stage]
    simp [StageOk]
  | started _ standing =>
    rw [standing] at stage
    rw [show s.workers = [] from stage]
    exact ⟨rfl, Nat.zero_le _⟩
  | createFailed _ j standing => trivial
  | created _ j standing below =>
    rw [standing] at stage
    exact ⟨by simp [stage.1], below⟩
  | poolReady _ j standing full =>
    rw [standing] at stage
    exact Nat.le_antisymm (stage.1 ▸ stage.2) (stage.1 ▸ full)
  | abandoned _ rc standing => exact fun k below => absurd below (Nat.not_lt_zero k)
  | abandonJoined _ j rc standing exited =>
    rw [standing] at stage
    exact exited_succ stage exited
  | abandonEnded _ j rc standing passed =>
    rw [standing] at stage
    exact all_exited stage passed
  | presentA _ j record standing => rw [standing] at stage; exact stageOk_pushPresence stage (by exact stage)
  | presentB _ j record standing => rw [standing] at stage; exact stageOk_pushPresence stage (by exact stage)
  | pushWaits _ j path standing running full => rw [standing] at stage; exact ⟨stage, running, full⟩
  | pushAccepted _ j path queue workers standing pushed signalled =>
    rw [standing] at stage
    exact stageOk_accepted stage signalled
  -- The pool stays as it is.
  | skippedA _ j standing | candidateA _ j path standing | endedA _ j standing | pushFaulted _ j path standing
  | pushCanceled _ j path standing | skippedB _ j standing | endedB _ j standing => rw [standing] at stage; exact stage
  | stopped _ rc standing =>
    rw [standing] at stage
    exact ⟨by rw [PlanState.shutdownAll_workers, List.length_map]; exact stage,
      fun k below => absurd below (Nat.not_lt_zero k)⟩
  | joined _ j rc standing exited =>
    rw [standing] at stage
    exact ⟨stage.1, exited_succ stage.2 exited⟩
  | joinEnded _ j rc standing passed =>
    rw [standing] at stage
    exact stageOk_joinEnded stage passed
  | read _ standing => rw [standing] at stage; exact stage.2

theorem PlanMove.stageOk (move : PlanMove context s action t events)
    (stage : StageOk context s.queue s.workers s.main) : StageOk context t.queue t.workers t.main := by
  cases action with
  | main choice => exact move.stageOk_main stage
  | worker j env =>
    cases move with
    | popWaits _ _ ready => exact stage.setWorker ready (by simp)
    | popDrained _ _ ready => exact stage.setWorker ready (by simp)
    | popTaken _ _ task queue ready popped => exact stage.popped.setWorker ready (by simp)
    | compared _ _ task rc results comparing => exact stage.setWorker comparing (by simp)
    | errorSet _ _ rc failing => exact stage.setWorker failing (by simp)
    | workerStopped _ _ stopping =>
      have stands : (s.workers.map WorkerState.wake)[j]? = some .stopping := by simp [stopping, WorkerState.wake]
      exact stage.wakeAll.setWorker stands (by simp)
  | wakeMain =>
    cases move with
    | wokenMain _ path standing => rw [standing] at stage; exact stage.1
  | wakeWorker j =>
    cases move with
    | wokenWorker _ waiting => exact stage.setWorker waiting (by simp)
  | popFault j =>
    cases move with
    | popFaulted _ asleep =>
      rcases asleep with ready | waiting
      · exact stage.setWorker ready (by simp)
      · exact stage.setWorker waiting (by simp)
  | lockFault j =>
    cases move with
    | errorFaulted _ rc failing => exact stage.setWorker failing (by simp)
    | stopFaulted _ stopping => exact stage.setWorker stopping (by simp)
  | mainFault =>
    cases move with
    | abandonFaulted rc standing => exact fun k below => absurd below (Nat.not_lt_zero k)
    | shutdownFaulted rc standing =>
      rw [standing] at stage
      exact ⟨stage, fun k below => absurd below (Nat.not_lt_zero k)⟩
    | readFaulted standing => rw [standing] at stage; exact stage.2

theorem PlanMove.live (move : PlanMove context s action t events) (permitted : LocksSucceed s action)
    (live : Live context s) : Live context t := by
  have stage := move.stageOk live.stage
  cases move with
  | created choice j standing below => exact live.created stage
  | abandoned choice rc standing => exact live.shutdownAll.withMain stage fun _ => rfl
  | abandonJoined choice j rc standing exited =>
    exact live.withMain stage fun _ => live.shut (by rw [standing]; trivial)
  | joined choice j rc standing exited =>
    exact live.withMain stage fun _ => live.shut (by rw [standing]; trivial)
  | joinEnded choice j rc standing passed =>
    exact live.withMain stage fun joins => by split at joins <;> exact joins.elim
  | presentA choice j record standing =>
    exact ⟨live.capacity, live.ring, stage, live.hungry, live.gone, fun joins => (pushPresence_joins id joins).elim⟩
  | presentB choice j record standing =>
    exact ⟨live.capacity, live.ring, stage, live.hungry, live.gone, fun joins => (pushPresence_joins id joins).elim⟩
  | pushAccepted choice j path queue workers standing pushed signalled =>
    exact live.pushAccepted pushed signalled stage id
  | stopped choice rc standing => exact live.shutdownAll.withMain stage fun _ => rfl
  | popWaits j env ready running empty =>
    refine ⟨live.capacity, live.ring, stage, fun _ => ⟨running, ?_⟩, fun exited => ?_, live.shut⟩
    · rw [PlanState.setWorker_queue, empty]
      exact Nat.zero_le _
    · exact live.gone (mem_set_of_ne exited (by simp))
  | popDrained j env ready stopped empty =>
    refine ⟨live.capacity, live.ring, stage, fun waits => ?_, fun _ => stopped, live.shut⟩
    have running := (live.hungry (mem_set_of_ne waits (by simp))).1
    rw [stopped] at running
    cases running
  | popTaken j env task queue ready popped => exact live.popTaken ready popped stage MainState.joins_wake.mp
  | compared j env task rc results comparing =>
    have moved : Live context (s.setWorker j (if rc = 0 then .ready else .failing rc)) :=
      live.setWorker comparing (by simp) (by simp) (by split <;> simp) (by split <;> simp)
    exact ⟨moved.capacity, moved.ring, stage, moved.hungry, moved.gone, moved.shut⟩
  | errorSet j env rc failing =>
    have moved : Live context (s.setWorker j .stopping) :=
      live.setWorker failing (by simp) (by simp) (by simp) (by simp)
    exact ⟨moved.capacity, moved.ring, stage, moved.hungry, moved.gone, moved.shut⟩
  | workerStopped j env stopping =>
    refine ⟨live.capacity, live.shutdownAll.ring, stage, fun waits => ?_, fun _ => rfl, fun _ => rfl⟩
    exact absurd (mem_set_of_ne waits (by simp)) waiting_notMem_wake
  | wokenWorker j waiting => exact live.setWorker waiting (by simp) (by simp) (by simp) (by simp)
  | popFaulted j => exact permitted.elim
  | errorFaulted j rc => exact permitted.elim
  | stopFaulted j => exact permitted.elim
  | abandonFaulted rc => exact permitted.elim
  | shutdownFaulted rc => exact permitted.elim
  | readFaulted => exact permitted.elim
  -- The main thread's other moves leave queue and workers as they are.
  | _ => exact ⟨live.capacity, live.ring, stage, live.hungry, live.gone, False.elim⟩

theorem Live.start (context : PlanContext) (results : ResultSet) (progress : ProgressState) :
    Live context (planStart context results progress) where
  capacity := rfl
  ring := ⟨[], .init context.capacity_pos⟩
  stage := rfl
  hungry := fun waits => by simp [planStart] at waits
  gone := fun exited => by simp [planStart] at exited
  shut := False.elim

theorem PlanRun.live {results : ResultSet} {progress : ProgressState} {trace : List PlanEvent}
    (run : PlanRun context LocksSucceed results progress s trace) : Live context s :=
  PlanRun.invariant (fun s _ => Live context s) (Live.start context results progress)
    (fun _ live permitted move => move.live permitted live) run

/-! ## Progress -/

/-- The main thread waits for room, or for a worker that has not exited. -/
def PlanState.MainBlocked (s : PlanState) : Prop :=
  (∃ i path, s.main = .waitingNotFull i path) ∨
  ∃ j rc worker, (s.main = .joining j rc ∨ s.main = .abandoning j rc) ∧
    s.workers[j]? = some worker ∧ worker ≠ .exited

/-- A step that relies on no spurious wakeup and on no failing call. -/
def PlanState.CanStep (context : PlanContext) (s : PlanState) : Prop :=
  (∃ choice, choice.rc = 0 ∧ (mainStep context s choice).isSome) ∨
  ∃ i, ∀ env, (workerStep context s i env).isSome

theorem workerStep_isSome {env : CompareEnv} (stands : s.workers[i]? = some old) (running : old ≠ .exited)
    (awake : old ≠ .waitingNotEmpty) : (workerStep context s i env).isSome := by
  cases old with
  | ready => simp only [workerStep, stands]; split <;> rfl
  | comparing task => simp only [workerStep, stands]; rfl
  | failing rc => simp only [workerStep, stands]; rfl
  | stopping => simp only [workerStep, stands]; rfl
  | waitingNotEmpty => exact absurd rfl awake
  | exited => exact absurd rfl running

theorem signalNotEmpty_isSome (workers : List WorkerState) :
    ∃ wake, (signalNotEmpty workers wake).isSome := by
  by_cases waits : WorkerState.waitingNotEmpty ∈ workers
  · obtain ⟨wake, stands⟩ := List.mem_iff_getElem?.mp waits
    exact ⟨wake, by simp [signalNotEmpty, waits, stands]⟩
  · exact ⟨0, by simp [signalNotEmpty, waits]⟩

theorem mainStep_isSome (free : ¬s.MainBlocked) (unfinished : ∀ rc, s.main ≠ .returned rc) :
    ∃ choice, choice.rc = 0 ∧ (mainStep context s choice).isSome := by
  have joins : ∀ j rc, s.main = .joining j rc ∨ s.main = .abandoning j rc → ∀ next last,
      (joinWorker s j next last).isSome := by
    intro j rc standing next last
    unfold joinWorker
    split
    next inside =>
      have exited : s.workers[j]? = some .exited := by
        rw [List.getElem?_eq_getElem inside]
        by_contra running
        exact free (.inr ⟨j, rc, s.workers[j], standing, List.getElem?_eq_getElem inside,
          fun exited => running (congrArg some exited)⟩)
      simp [exited]
    · rfl
  let choice (wake : Nat) : MainChoice := ⟨0, wake, ⟨true, true⟩⟩
  cases standing : s.main with
  | waitingNotFull i path => exact absurd (.inl ⟨i, path, standing⟩) free
  | returned rc => exact absurd standing (unfinished rc)
  | abandoning j rc => exact ⟨choice 0, rfl, by simp only [mainStep, standing]; exact joins j rc (.inr standing) _ _⟩
  | joining j rc => exact ⟨choice 0, rfl, by simp only [mainStep, standing]; exact joins j rc (.inl standing) _ _⟩
  | enqueuing i path =>
    obtain ⟨wake, signals⟩ := signalNotEmpty_isSome s.workers
    refine ⟨choice wake, rfl, ?_⟩
    simp only [mainStep, standing, choice, ne_eq, not_true_eq_false, ↓reduceIte]
    split
    · rfl
    · rfl
    · obtain ⟨woken, signalled⟩ := Option.isSome_iff_exists.mp signals
      simp [signalled]
  | starting => exact ⟨choice 0, rfl, by simp [mainStep, standing, choice]⟩
  | creating i => exact ⟨choice 0, rfl, by simp only [mainStep, standing, choice]; split <;> rfl⟩
  | createFailed rc => exact ⟨choice 0, rfl, by simp [mainStep, standing]⟩
  | scanningA i =>
    refine ⟨choice 0, rfl, ?_⟩
    simp only [mainStep, standing]
    split
    · split <;> rfl
    · rfl
  | scanningB i =>
    refine ⟨choice 0, rfl, ?_⟩
    simp only [mainStep, standing]
    split
    · split <;> rfl
    · rfl
  | stopping rc => exact ⟨choice 0, rfl, by simp [mainStep, standing]⟩
  | reading => exact ⟨choice 0, rfl, by simp [mainStep, standing]⟩

/-- A blocked main thread leaves a worker that is neither gone nor waiting. -/
theorem Live.worker_awake (live : Live context s) (blocked : s.MainBlocked) :
    ∃ (i : Nat) (worker : WorkerState), s.workers[i]? = some worker ∧ worker ≠ .exited ∧
      worker ≠ .waitingNotEmpty := by
  have stage := live.stage
  rcases blocked with ⟨i, path, standing⟩ | ⟨j, rc, worker, standing, stands, running⟩
  -- The queue is full and open: all workers are there, and if the first one waits, another is ready.
  · rw [standing] at stage
    obtain ⟨pool, opened, full⟩ := stage
    have positive : 0 < s.queue.count := by rw [full, live.capacity]; exact context.capacity_pos
    have nobodyGone : .exited ∉ s.workers := fun exited => by
      rw [live.gone exited] at opened
      cases opened
    have first : 0 < s.workers.length := by rw [pool]; exact context.threads_pos
    by_cases waits : s.workers[0] = .waitingNotEmpty
    · have ready := live.ready_exists_of_hungry (waits ▸ List.getElem_mem first) positive
      obtain ⟨k, stands⟩ := List.mem_iff_getElem?.mp ready
      exact ⟨k, .ready, stands, by simp, by simp⟩
    · exact ⟨0, s.workers[0], List.getElem?_eq_getElem first,
        fun exited => nobodyGone (exited ▸ List.getElem_mem first), waits⟩
  -- Joins come behind a shutdown, and behind it nobody waits.
  · refine ⟨j, worker, stands, running, ?_⟩
    rintro rfl
    have opened := (live.hungry (List.mem_of_getElem? stands)).1
    have stopped : s.queue.shutdown = true := by
      refine live.shut ?_
      rcases standing with standing | standing <;> rw [standing] <;> trivial
    rw [stopped] at opened
    cases opened

/-- Until `plan_and_compare` returns some thread can take a step, and a main thread that waits
for room or for a worker never does so while all workers wait or are gone. -/
theorem plan_never_stuck {results : ResultSet} {progress : ProgressState} {trace : List PlanEvent}
    (run : PlanRun context LocksSucceed results progress s trace) (unfinished : ∀ rc, s.main ≠ .returned rc) :
    s.CanStep context ∧
    ¬(s.MainBlocked ∧ ∀ worker ∈ s.workers, worker = .exited ∨ worker = .waitingNotEmpty) := by
  have live := run.live
  constructor
  · by_cases blocked : s.MainBlocked
    · obtain ⟨i, worker, stands, running, awake⟩ := live.worker_awake blocked
      exact .inr ⟨i, fun env => workerStep_isSome stands running awake⟩
    · exact .inl (mainStep_isSome blocked unfinished)
  · rintro ⟨blocked, idle⟩
    obtain ⟨i, worker, stands, running, awake⟩ := live.worker_awake blocked
    rcases idle worker (List.mem_of_getElem? stands) with exited | waits
    · exact running exited
    · exact awake waits

/-- The main thread waits for room in a queue of one; the worker is still to pop. -/
theorem plan_never_stuck_full :
    ∃ s : PlanState, s.main = .waitingNotFull 14 sampleY ∧
      s.CanStep (samplePlan (fun _ => .error Fault.EIO) 1 (by decide)) := by
  have ends : (Transition.perform (planStep (samplePlan (fun _ => .error Fault.EIO) 1 (by decide))) (mainSteps 20)
      (planStart (samplePlan (fun _ => .error Fault.EIO) 1 (by decide)) resultSetInit progressInit)).map
        (fun run => run.1.main) = some (.waitingNotFull 14 sampleY) := by decide +kernel
  obtain ⟨⟨s, trace⟩, performed, standing⟩ := Option.map_eq_some_iff.mp ends
  refine ⟨s, standing, (plan_never_stuck (Transition.Run.of_perform (fun action member s =>
    PthreadsSucceed.locksSucceed (mainSteps_succeed member s)) performed) fun rc returned => ?_).1⟩
  rw [show s.main = _ from standing] at returned
  cases returned

end Verdiff
