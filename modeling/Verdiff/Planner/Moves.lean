import Verdiff.Planner.Slots

/-! Everything one step of `plan_and_compare` can do.

Each constructor of `PlanMove` is one branch of the step function, with what its guard
checks and the state it leaves. The invariants are proved by cases on it and never
unfold the step function.
-/

set_option autoImplicit false

namespace Verdiff

inductive PlanMove (context : PlanContext) (s : PlanState) : PlanAction → PlanState → List PlanEvent → Prop where
  -- Setting up the pool, and giving up when a thread cannot be created.
  | startFailed (choice : MainChoice) : s.main = .starting → choice.rc ≠ 0 →
      PlanMove context s (.main choice) { s with main := .returned choice.rc } []
  | started (choice : MainChoice) : s.main = .starting → choice.rc = 0 →
      PlanMove context s (.main choice) { s with main := .creating 0 } []
  | createFailed (choice : MainChoice) (i : Nat) : s.main = .creating i →
      i < context.config.threadCount → choice.rc ≠ 0 →
      PlanMove context s (.main choice) { s with main := .createFailed choice.rc } []
  | created (choice : MainChoice) (i : Nat) : s.main = .creating i →
      i < context.config.threadCount → choice.rc = 0 →
      PlanMove context s (.main choice)
        { s with main := .creating (i + 1), workers := s.workers ++ [.ready] } []
  | poolReady (choice : MainChoice) (i : Nat) : s.main = .creating i → context.config.threadCount ≤ i →
      PlanMove context s (.main choice) { s with main := .scanningA 0 } []
  | abandoned (choice : MainChoice) (rc : Rc) : s.main = .createFailed rc →
      PlanMove context s (.main choice) { s.shutdownAll with main := .abandoning 0 rc } []
  | abandonJoined (choice : MainChoice) (j : Nat) (rc : Rc) : s.main = .abandoning j rc →
      s.workers[j]? = some .exited →
      PlanMove context s (.main choice) { s with main := .abandoning (j + 1) rc } []
  | abandonEnded (choice : MainChoice) (j : Nat) (rc : Rc) : s.main = .abandoning j rc →
      s.workers.length ≤ j →
      PlanMove context s (.main choice) { s with main := .returned rc } []
  -- The scan of the first index.
  | skippedA (choice : MainChoice) (i : Nat) : s.main = .scanningA i → i < context.indexA.capacity →
      context.slotA i = .skip →
      PlanMove context s (.main choice) { s with main := .scanningA (i + 1) } []
  | presentA (choice : MainChoice) (i : Nat) (record : ChangeRecord) : s.main = .scanningA i →
      i < context.indexA.capacity → context.slotA i = .present record →
      PlanMove context s (.main choice) (pushPresence s (.scanningA (i + 1)) record choice.push).1
        (pushPresence s (.scanningA (i + 1)) record choice.push).2
  | candidateA (choice : MainChoice) (i : Nat) (path : CString) : s.main = .scanningA i →
      i < context.indexA.capacity → context.slotA i = .candidate path →
      PlanMove context s (.main choice)
        { s with main := .enqueuing i path, progress := progressNoteCompareStart s.progress } []
  | endedA (choice : MainChoice) (i : Nat) : s.main = .scanningA i → context.indexA.capacity ≤ i →
      PlanMove context s (.main choice) { s with main := .scanningB 0 } []
  -- One pass of the main thread through `task_queue_push`.
  | pushFaulted (choice : MainChoice) (i : Nat) (path : CString) : s.main = .enqueuing i path →
      choice.rc ≠ 0 →
      PlanMove context s (.main choice) { s with main := .stopping choice.rc } [.enqueued path choice.rc]
  | pushWaits (choice : MainChoice) (i : Nat) (path : CString) : s.main = .enqueuing i path →
      s.queue.shutdown = false → s.queue.count = s.queue.capacity →
      PlanMove context s (.main choice) { s with main := .waitingNotFull i path } []
  | pushCanceled (choice : MainChoice) (i : Nat) (path : CString) : s.main = .enqueuing i path →
      s.queue.shutdown = true →
      PlanMove context s (.main choice) { s with main := .stopping Fault.ECANCELED.code }
        [.enqueued path Fault.ECANCELED.code]
  | pushAccepted (choice : MainChoice) (i : Nat) (path : CString) (queue : TaskQueue)
      (workers : List WorkerState) : s.main = .enqueuing i path →
      taskQueuePush s.queue ⟨path⟩ = .accepted queue →
      signalNotEmpty s.workers choice.wake = some workers →
      PlanMove context s (.main choice)
        { s with main := .scanningA (i + 1), queue := queue, workers := workers } [.enqueued path 0]
  -- The scan of the second index, shutdown and the joins.
  | skippedB (choice : MainChoice) (i : Nat) : s.main = .scanningB i → i < context.indexB.capacity →
      (∀ record, context.slotB i ≠ .present record) →
      PlanMove context s (.main choice) { s with main := .scanningB (i + 1) } []
  | presentB (choice : MainChoice) (i : Nat) (record : ChangeRecord) : s.main = .scanningB i →
      i < context.indexB.capacity → context.slotB i = .present record →
      PlanMove context s (.main choice) (pushPresence s (.scanningB (i + 1)) record choice.push).1
        (pushPresence s (.scanningB (i + 1)) record choice.push).2
  | endedB (choice : MainChoice) (i : Nat) : s.main = .scanningB i → context.indexB.capacity ≤ i →
      PlanMove context s (.main choice) { s with main := .stopping 0 } []
  | stopped (choice : MainChoice) (rc : Rc) : s.main = .stopping rc →
      PlanMove context s (.main choice) { s.shutdownAll with main := .joining 0 rc } []
  | joined (choice : MainChoice) (j : Nat) (rc : Rc) : s.main = .joining j rc →
      s.workers[j]? = some .exited →
      PlanMove context s (.main choice) { s with main := .joining (j + 1) rc } []
  | joinEnded (choice : MainChoice) (j : Nat) (rc : Rc) : s.main = .joining j rc →
      s.workers.length ≤ j →
      PlanMove context s (.main choice) { s with main := if rc = 0 then .reading else .returned rc } []
  | read (choice : MainChoice) : s.main = .reading →
      PlanMove context s (.main choice) { s with main := .returned s.firstError } []
  -- The workers.
  | popWaits (i : Nat) (env : CompareEnv) : s.workers[i]? = some .ready → s.queue.shutdown = false →
      s.queue.count = 0 →
      PlanMove context s (.worker i env) (s.setWorker i .waitingNotEmpty) []
  | popDrained (i : Nat) (env : CompareEnv) : s.workers[i]? = some .ready → s.queue.shutdown = true →
      s.queue.count = 0 →
      PlanMove context s (.worker i env) (s.setWorker i .exited) []
  | popTaken (i : Nat) (env : CompareEnv) (task : CompareTask) (queue : TaskQueue) :
      s.workers[i]? = some .ready → taskQueuePop s.queue = .taken task queue →
      PlanMove context s (.worker i env)
        ({ s with queue := queue, main := s.main.wake }.setWorker i (.comparing task))
        [.popped i task.relativePath]
  | compared (i : Nat) (env : CompareEnv) (task : CompareTask) (rc : Rc) (results : ResultSet) :
      s.workers[i]? = some (.comparing task) →
      compareCandidateFile context.toCompareContext task.relativePath env s.results = (rc, results) →
      PlanMove context s (.worker i env)
        ({ s with results := results }.setWorker i (if rc = 0 then .ready else .failing rc))
        [.compared i task.relativePath env rc]
  | errorSet (i : Nat) (env : CompareEnv) (rc : Rc) : s.workers[i]? = some (.failing rc) →
      PlanMove context s (.worker i env)
        ({ s with firstError := if s.firstError = 0 then rc else s.firstError }.setWorker i .stopping)
        [.errorSet rc]
  | workerStopped (i : Nat) (env : CompareEnv) : s.workers[i]? = some .stopping →
      PlanMove context s (.worker i env) (s.shutdownAll.setWorker i .exited) []
  -- What no thread asks for.
  | wokenMain (i : Nat) (path : CString) : s.main = .waitingNotFull i path →
      PlanMove context s .wakeMain { s with main := .enqueuing i path } []
  | wokenWorker (i : Nat) : s.workers[i]? = some .waitingNotEmpty →
      PlanMove context s (.wakeWorker i) (s.setWorker i .ready) []
  | popFaulted (i : Nat) : s.workers[i]? = some .ready ∨ s.workers[i]? = some .waitingNotEmpty →
      PlanMove context s (.popFault i) (s.setWorker i .exited) []
  -- A lock that fails without a word.
  | errorFaulted (i : Nat) (rc : Rc) : s.workers[i]? = some (.failing rc) →
      PlanMove context s (.lockFault i) (s.setWorker i .stopping) []
  | stopFaulted (i : Nat) : s.workers[i]? = some .stopping →
      PlanMove context s (.lockFault i) (s.setWorker i .exited) []
  | abandonFaulted (rc : Rc) : s.main = .createFailed rc →
      PlanMove context s .mainFault { s with main := .abandoning 0 rc } []
  | shutdownFaulted (rc : Rc) : s.main = .stopping rc →
      PlanMove context s .mainFault { s with main := .joining 0 rc } []
  | readFaulted : s.main = .reading →
      PlanMove context s .mainFault { s with main := .returned Fault.EINVAL.code } []

variable {context : PlanContext} {s t : PlanState} {events : List PlanEvent}

theorem joinWorker_some {j : Nat} {next last : MainState}
    (joined : joinWorker s j next last = some (t, events)) :
    (s.workers[j]? = some .exited ∧ t = { s with main := next } ∧ events = []) ∨
    (s.workers.length ≤ j ∧ t = { s with main := last } ∧ events = []) := by
  unfold joinWorker at joined
  split at joined
  · split at joined
    next exited => cases joined; exact .inl ⟨exited, rfl, rfl⟩
    · cases joined
  next outside => cases joined; exact .inr ⟨Nat.le_of_not_lt outside, rfl, rfl⟩

section
variable {choice : MainChoice} (stepped : mainStep context s choice = some (t, events))
include stepped

theorem mainStep_creating {i : Nat} (stage : s.main = .creating i) : PlanMove context s (.main choice) t events := by
  simp only [mainStep, stage] at stepped
  split at stepped
  · split at stepped <;> cases stepped
    · exact .createFailed choice i stage ‹_› ‹_›
    · exact .created choice i stage ‹_› (not_not.mp ‹_›)
  next full => cases stepped; exact .poolReady choice i stage (Nat.le_of_not_lt full)

theorem mainStep_scanningA {i : Nat} (stage : s.main = .scanningA i) : PlanMove context s (.main choice) t events := by
  simp only [mainStep, stage] at stepped
  split at stepped
  next inside =>
    split at stepped <;> cases stepped
    next plan => exact .skippedA choice i stage inside plan
    next record plan => exact .presentA choice i record stage inside plan
    next path plan => exact .candidateA choice i path stage inside plan
  next outside => cases stepped; exact .endedA choice i stage (Nat.le_of_not_lt outside)

theorem mainStep_enqueuing {i : Nat} {path : CString} (stage : s.main = .enqueuing i path) :
    PlanMove context s (.main choice) t events := by
  simp only [mainStep, stage] at stepped
  split at stepped
  next failed => cases stepped; exact .pushFaulted choice i path stage failed
  next =>
    cases pass : taskQueuePush s.queue ⟨path⟩ with
    | wait =>
      simp only [pass] at stepped
      cases stepped
      obtain ⟨running, full⟩ := taskQueuePush_wait.mp pass
      exact .pushWaits choice i path stage running full
    | canceled =>
      simp only [pass] at stepped
      cases stepped
      exact .pushCanceled choice i path stage (taskQueuePush_canceled.mp pass)
    | accepted queue =>
      simp only [pass] at stepped
      split at stepped <;> cases stepped
      next workers signalled => exact .pushAccepted choice i path queue workers stage pass signalled

theorem mainStep_scanningB {i : Nat} (stage : s.main = .scanningB i) : PlanMove context s (.main choice) t events := by
  simp only [mainStep, stage] at stepped
  split at stepped
  next inside =>
    split at stepped <;> cases stepped
    next record plan => exact .presentB choice i record stage inside plan
    next absent => exact .skippedB choice i stage inside absent
  next outside => cases stepped; exact .endedB choice i stage (Nat.le_of_not_lt outside)

theorem mainStep_move : PlanMove context s (.main choice) t events := by
  cases stage : s.main with
  | starting =>
    simp only [mainStep, stage] at stepped
    split at stepped <;> cases stepped
    · exact .startFailed choice stage ‹_›
    · exact .started choice stage (not_not.mp ‹_›)
  | creating i => exact mainStep_creating stepped stage
  | createFailed rc => simp only [mainStep, stage] at stepped; cases stepped; exact .abandoned choice rc stage
  | abandoning j rc =>
    simp only [mainStep, stage] at stepped
    rcases joinWorker_some stepped with ⟨exited, rfl, rfl⟩ | ⟨outside, rfl, rfl⟩
    · exact .abandonJoined choice j rc stage exited
    · exact .abandonEnded choice j rc stage outside
  | scanningA i => exact mainStep_scanningA stepped stage
  | enqueuing i path => exact mainStep_enqueuing stepped stage
  | waitingNotFull i path => simp [mainStep, stage] at stepped
  | scanningB i => exact mainStep_scanningB stepped stage
  | stopping rc => simp only [mainStep, stage] at stepped; cases stepped; exact .stopped choice rc stage
  | joining j rc =>
    simp only [mainStep, stage] at stepped
    rcases joinWorker_some stepped with ⟨exited, rfl, rfl⟩ | ⟨outside, rfl, rfl⟩
    · exact .joined choice j rc stage exited
    · exact .joinEnded choice j rc stage outside
  | reading => simp only [mainStep, stage] at stepped; cases stepped; exact .read choice stage
  | returned rc => simp [mainStep, stage] at stepped

end

theorem workerStep_move {i : Nat} {env : CompareEnv} (stepped : workerStep context s i env = some (t, events)) :
    PlanMove context s (.worker i env) t events := by
  unfold workerStep at stepped
  split at stepped
  next ready =>
    cases pass : taskQueuePop s.queue with
    | wait =>
      simp only [pass] at stepped
      cases stepped
      obtain ⟨running, empty⟩ := taskQueuePop_wait.mp pass
      exact .popWaits i env ready running empty
    | drained =>
      simp only [pass] at stepped
      cases stepped
      obtain ⟨stopped, empty⟩ := taskQueuePop_drained.mp pass
      exact .popDrained i env ready stopped empty
    | taken task queue => simp only [pass] at stepped; cases stepped; exact .popTaken i env task queue ready pass
  next task comparing => cases stepped; exact .compared i env task _ _ comparing rfl
  next rc failing => cases stepped; exact .errorSet i env rc failing
  next stopping => cases stepped; exact .workerStopped i env stopping
  · cases stepped

theorem planStep_move {action : PlanAction} (stepped : planStep context s action = some (t, events)) :
    PlanMove context s action t events := by
  cases action with
  | main choice => exact mainStep_move stepped
  | worker i env => exact workerStep_move stepped
  | wakeMain =>
    simp only [planStep] at stepped
    split at stepped <;> cases stepped
    exact .wokenMain _ _ ‹_›
  | wakeWorker i =>
    simp only [planStep] at stepped
    split at stepped <;> cases stepped
    exact .wokenWorker i ‹_›
  | popFault i =>
    simp only [planStep] at stepped
    split at stepped <;> cases stepped
    exact .popFaulted i ‹_›
  | lockFault i =>
    simp only [planStep] at stepped
    split at stepped <;> cases stepped
    next rc failing => exact .errorFaulted i rc failing
    next stopping => exact .stopFaulted i stopping
  | mainFault =>
    simp only [planStep] at stepped
    split at stepped <;> cases stepped
    next rc standing => exact .abandonFaulted rc standing
    next rc standing => exact .shutdownFaulted rc standing
    next standing => exact .readFaulted standing

/-- Induction over a run, one move at a time. -/
theorem PlanRun.invariant {allowed : PlanState → PlanAction → Prop} {results : ResultSet}
    {progress : ProgressState} {trace : List PlanEvent} (Inv : PlanState → List PlanEvent → Prop)
    (initial : Inv (planStart context results progress) [])
    (preserved : ∀ {s t : PlanState} {trace events : List PlanEvent} {action : PlanAction},
      PlanRun context allowed results progress s trace → Inv s trace → allowed s action →
      PlanMove context s action t events → Inv t (trace ++ events))
    (run : PlanRun context allowed results progress s trace) : Inv s trace :=
  Transition.Run.invariant Inv initial
    (fun earlier before permitted stepped => preserved earlier before permitted (planStep_move stepped)) run

section
variable {allowed : PlanState → PlanAction → Prop} {results : ResultSet} {progress : ProgressState}
  {trace : List PlanEvent} {choice : MainChoice}

theorem PlanRun.passesA (permitted : ∀ t, allowed t (.main choice)) {i n : Nat} (standing : s.main = .scanningA i)
    (inside : i + n ≤ context.indexA.capacity) (vacant : ∀ k, i ≤ k → k < i + n → context.slotA k = .skip)
    (run : PlanRun context allowed results progress s trace) :
    PlanRun context allowed results progress { s with main := .scanningA (i + n) } trace := by
  -- The first scan passes slots with nothing to do without leaving a trace.
  refine Transition.Run.iterate permitted (fun k => { s with main := .scanningA k }) ?_ (by rwa [← standing])
  intro k above below
  have within : k < context.indexA.capacity := by omega
  have skip : planSlotA context (context.indexA.slots.getD k none) = .skip := vacant k above below
  simp only [planStep, mainStep, within, ↓reduceIte, skip]

theorem PlanRun.passesB (permitted : ∀ t, allowed t (.main choice)) {i n : Nat} (standing : s.main = .scanningB i)
    (inside : i + n ≤ context.indexB.capacity) (vacant : ∀ k, i ≤ k → k < i + n → context.slotB k = .skip)
    (run : PlanRun context allowed results progress s trace) :
    PlanRun context allowed results progress { s with main := .scanningB (i + n) } trace := by
  refine Transition.Run.iterate permitted (fun k => { s with main := .scanningB k }) ?_ (by rwa [← standing])
  intro k above below
  have within : k < context.indexB.capacity := by omega
  have skip : planSlotB context (context.indexB.slots.getD k none) = .skip := vacant k above below
  simp only [planStep, mainStep, within, ↓reduceIte, skip]

end

/-! ## What moves leave alone -/

@[simp] theorem PlanState.setWorker_queue (s : PlanState) (i : Nat) (worker : WorkerState) :
    (s.setWorker i worker).queue = s.queue := rfl

@[simp] theorem PlanState.setWorker_workers (s : PlanState) (i : Nat) (worker : WorkerState) :
    (s.setWorker i worker).workers = s.workers.set i worker := rfl

@[simp] theorem PlanState.setWorker_results (s : PlanState) (i : Nat) (worker : WorkerState) :
    (s.setWorker i worker).results = s.results := rfl

@[simp] theorem PlanState.setWorker_firstError (s : PlanState) (i : Nat) (worker : WorkerState) :
    (s.setWorker i worker).firstError = s.firstError := rfl

@[simp] theorem PlanState.shutdownAll_workers (s : PlanState) :
    s.shutdownAll.workers = s.workers.map WorkerState.wake := rfl

theorem signalNotEmpty_some {workers woken : List WorkerState} {wake : Nat}
    (signalled : signalNotEmpty workers wake = some woken) :
    (.waitingNotEmpty ∉ workers ∧ woken = workers) ∨
    (workers[wake]? = some .waitingNotEmpty ∧ woken = workers.set wake .ready) := by
  unfold signalNotEmpty at signalled
  split at signalled
  · split at signalled <;> cases signalled
    exact .inr ⟨‹_›, rfl⟩
  · cases signalled
    exact .inl ⟨‹_›, rfl⟩

theorem WorkerState.wake_ne_waiting (worker : WorkerState) : worker.wake ≠ .waitingNotEmpty := by
  cases worker <;> simp [WorkerState.wake]

@[simp] theorem WorkerState.wake_exited {worker : WorkerState} : worker.wake = .exited ↔ worker = .exited := by
  cases worker <;> simp [WorkerState.wake]

end Verdiff
