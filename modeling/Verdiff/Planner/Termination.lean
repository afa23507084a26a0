import Verdiff.Planner.Liveness

/-! `plan_and_compare` ends under every schedule.

Each state is worth what the threads may still do in it: a task in the queue is worth the
comparison it will cost and the error this may end in, and an error is worth waking everybody.
A step pays for itself. Only a spurious wakeup is free, and it gains one.
-/

set_option autoImplicit false

namespace Verdiff
open Transition

def PlanAction.isWakeup : PlanAction → Bool
  | .wakeMain | .wakeWorker _ => true
  | _ => false

/-- With `n` threads. -/
def WorkerState.worth (n : Nat) : WorkerState → Nat
  | .exited => 0
  | .waitingNotEmpty => 1
  | .ready => 2
  | .stopping => n + 2
  | .failing _ => n + 3
  | .comparing _ => n + 4

def workersWorth (n : Nat) (workers : List WorkerState) : Nat := (workers.map (WorkerState.worth n)).sum

section
variable (context : PlanContext)

def PlanContext.worthB (i : Nat) : Nat := (context.indexB.capacity - i) + (2 * context.config.threadCount + 4)

def PlanContext.worthA (i : Nat) : Nat :=
  (context.indexA.capacity - i) * (context.config.threadCount + 7) + context.worthB 0 + 1

def MainState.worth : MainState → Nat
  | .starting => context.config.threadCount * 3 + context.worthA 0 + 2
  | .creating i => (context.config.threadCount - i) * 3 + context.worthA 0 + 1
  | .createFailed _ => 2 * context.config.threadCount + 2
  | .abandoning j _ => context.config.threadCount - j + 1
  | .scanningA i => context.worthA i
  | .enqueuing i _ => context.worthA (i + 1) + context.config.threadCount + 6
  | .waitingNotFull i _ => context.worthA (i + 1) + context.config.threadCount + 5
  | .scanningB i => context.worthB i
  | .stopping _ => 2 * context.config.threadCount + 3
  | .joining j _ => context.config.threadCount - j + 2
  | .reading => 1
  | .returned _ => 0

def PlanState.worth (s : PlanState) : Nat :=
  s.main.worth context + workersWorth context.config.threadCount s.workers +
    s.queue.count * (context.config.threadCount + 4)

def PlanState.Staffed (s : PlanState) : Prop :=
  s.workers.length ≤ context.config.threadCount ∧ (s.main = .starting → s.workers = []) ∧
    ∀ i, s.main = .creating i → s.workers.length = i

end

/-! ## What the parts of a move do to the worth -/

section
variable {n i : Nat} {workers woken : List WorkerState} {old new : WorkerState}

theorem workersWorth_set (new : WorkerState) (stands : workers[i]? = some old) :
    workersWorth n (workers.set i new) + old.worth n = workersWorth n workers + new.worth n := by
  induction workers generalizing i with
  | nil => simp at stands
  | cons worker rest ih =>
    cases i with
    | zero =>
      obtain rfl : worker = old := by simpa using stands
      simp only [workersWorth, List.set_cons_zero, List.map_cons, List.sum_cons]
      omega
    | succ i =>
      have later := ih (by simpa using stands)
      simp only [workersWorth, List.set_cons_succ, List.map_cons, List.sum_cons] at later ⊢
      omega

theorem WorkerState.worth_wake (n : Nat) (worker : WorkerState) : worker.wake.worth n ≤ worker.worth n + 1 := by
  cases worker <;> simp [WorkerState.wake, WorkerState.worth]

theorem workersWorth_wake (n : Nat) (workers : List WorkerState) :
    workersWorth n (workers.map WorkerState.wake) ≤ workersWorth n workers + workers.length := by
  induction workers with
  | nil => rfl
  | cons worker rest ih =>
    have first := worker.worth_wake n
    simp only [workersWorth, List.map_cons, List.sum_cons, List.length_cons] at ih ⊢
    omega

theorem workersWorth_signal {wake : Nat} (signalled : signalNotEmpty workers wake = some woken) :
    workersWorth n woken ≤ workersWorth n workers + 1 := by
  rcases signalNotEmpty_some signalled with ⟨_, rfl⟩ | ⟨waiter, rfl⟩
  · exact Nat.le_succ _
  · have changed := workersWorth_set (n := n) .ready waiter
    simp only [WorkerState.worth] at changed
    omega

theorem MainState.worth_wake (context : PlanContext) (stage : MainState) :
    stage.wake.worth context ≤ stage.worth context + 1 := by
  cases stage with
  | waitingNotFull i path => exact Nat.le_refl _
  | _ => exact Nat.le_succ _

theorem taskQueuePush_count {queue next : TaskQueue} {task : CompareTask}
    (pushed : taskQueuePush queue task = .accepted next) : next.count = queue.count + 1 := by
  unfold taskQueuePush at pushed
  split at pushed
  · cases pushed
  split at pushed <;> cases pushed
  rfl

theorem taskQueuePop_count {queue next : TaskQueue} {task : CompareTask}
    (popped : taskQueuePop queue = .taken task next) : queue.count = next.count + 1 := by
  unfold taskQueuePop at popped
  split at popped
  · cases popped
  split at popped <;> cases popped
  next some =>
    simp only [beq_iff_eq] at some
    exact (Nat.succ_pred_eq_of_ne_zero some).symm

end

section
variable {context : PlanContext} {i : Nat}

theorem worthA_step (inside : i < context.indexA.capacity) :
    context.worthA i = context.worthA (i + 1) + context.config.threadCount + 7 := by
  have slots : context.indexA.capacity - i = context.indexA.capacity - (i + 1) + 1 := by omega
  rw [PlanContext.worthA, slots, Nat.add_mul, PlanContext.worthA]
  omega

theorem worthA_end (outside : context.indexA.capacity ≤ i) : context.worthA i = context.worthB 0 + 1 := by
  rw [PlanContext.worthA, Nat.sub_eq_zero_of_le outside, Nat.zero_mul, Nat.zero_add]

theorem worthA_le (context : PlanContext) (i : Nat) : context.worthB 0 < context.worthA i := by
  simp only [PlanContext.worthA]
  omega

theorem worthB_pos (context : PlanContext) (i : Nat) : 2 * context.config.threadCount + 4 ≤ context.worthB i := by
  simp only [PlanContext.worthB]
  omega

end

/-! ## One move -/

variable {context : PlanContext} {s t : PlanState} {action : PlanAction} {events : List PlanEvent}

theorem PlanState.Staffed.elsewhere (staffed : s.Staffed context) (length : t.workers.length = s.workers.length)
    (other : t.main ≠ .starting ∧ ∀ i, t.main ≠ .creating i) : t.Staffed context :=
  ⟨length ▸ staffed.1, fun standing => absurd standing other.1, fun i standing => absurd standing (other.2 i)⟩

theorem PlanState.Staffed.here (staffed : s.Staffed context) (length : t.workers.length = s.workers.length)
    (same : t.main = s.main ∨ t.main = s.main.wake) : t.Staffed context := by
  have awake : t.main = .starting ∨ (∃ i, t.main = .creating i) → t.main = s.main := by
    rcases same with same | same
    · exact fun _ => same
    · rw [same]
      cases s.main <;> simp [MainState.wake]
  refine ⟨length ▸ staffed.1, fun standing => ?_, fun i standing => ?_⟩
  · have none := staffed.2.1 ((awake (.inl standing)).symm.trans standing)
    exact List.eq_nil_of_length_eq_zero (by rw [length, none]; rfl)
  · rw [length]
    exact staffed.2.2 i ((awake (.inr ⟨i, standing⟩)).symm.trans standing)

theorem PlanState.Staffed.presence {record : ChangeRecord} {next : MainState} {allocs : PushAllocs}
    (staffed : s.Staffed context) (other : next ≠ .starting ∧ ∀ i, next ≠ .creating i) :
    (pushPresence s next record allocs).1.Staffed context := by
  refine staffed.elsewhere rfl ?_
  simp only [pushPresence]
  split
  · exact other
  · simp

theorem PlanMove.staffed (move : PlanMove context s action t events) (staffed : s.Staffed context) :
    t.Staffed context := by
  cases move with
  | started choice standing => exact ⟨staffed.1, by simp, fun i same => by cases same; simp [staffed.2.1 standing]⟩
  | created choice i standing below =>
    have created := staffed.2.2 i standing
    exact ⟨by simp [created]; omega, by simp, fun j same => by cases same; simp [created]⟩
  | presentA choice i record => exact staffed.presence (by simp)
  | presentB choice i record => exact staffed.presence (by simp)
  | abandoned choice rc => exact staffed.elsewhere (by simp) (by simp)
  | stopped choice rc => exact staffed.elsewhere (by simp) (by simp)
  | pushAccepted choice i path queue workers standing pushed signalled =>
    refine staffed.elsewhere ?_ (by simp)
    rcases signalNotEmpty_some signalled with ⟨_, rfl⟩ | ⟨_, rfl⟩ <;> simp
  | joinEnded choice j rc =>
    refine staffed.elsewhere rfl ?_
    simp only
    split <;> simp
  | popWaits i env => exact staffed.here (by simp) (.inl rfl)
  | popDrained i env => exact staffed.here (by simp) (.inl rfl)
  | popTaken i env task queue => exact staffed.here (by simp) (.inr rfl)
  | compared i env task rc results => exact staffed.here (by simp) (.inl rfl)
  | errorSet i env rc => exact staffed.here (by simp) (.inl rfl)
  | workerStopped i env => exact staffed.here (by simp) (.inr rfl)
  | wokenWorker i => exact staffed.here (by simp) (.inl rfl)
  | popFaulted i => exact staffed.here (by simp) (.inl rfl)
  | errorFaulted i rc => exact staffed.here (by simp) (.inl rfl)
  | stopFaulted i => exact staffed.here (by simp) (.inl rfl)
  -- The main thread leaves the creation behind and the workers alone.
  | _ => exact staffed.elsewhere rfl (by simp)

theorem PlanMove.gains (move : PlanMove context s action t events) (free : action.isWakeup = true) :
    t.worth context ≤ s.worth context + 1 := by
  cases move with
  | wokenMain i path standing =>
    simp only [PlanState.worth, standing, MainState.worth]
    omega
  | wokenWorker i waiting =>
    have changed := workersWorth_set (n := context.config.threadCount) .ready waiting
    simp only [PlanState.worth, PlanState.setWorker, WorkerState.worth] at changed ⊢
    omega
  | _ => cases free

/-! ### What each move pays with -/

section
variable {old next : MainState}

theorem worth_main (standing : s.main = old) (less : next.worth context < old.worth context) :
    ({ s with main := next } : PlanState).worth context < s.worth context := by
  simp only [PlanState.worth, standing]
  omega

theorem worth_shutdown (staffed : s.Staffed context) (standing : s.main = old)
    (less : next.worth context + context.config.threadCount < old.worth context) :
    ({ s.shutdownAll with main := next } : PlanState).worth context < s.worth context := by
  -- The shutdown pays for waking everybody.
  have threads := staffed.1
  have waking := workersWorth_wake context.config.threadCount s.workers
  simp only [PlanState.worth, standing, PlanState.shutdownAll, taskQueueShutdown]
  omega

theorem stopping_worth (context : PlanContext) (i : Nat) (rc : Rc) :
    (MainState.stopping rc).worth context < (MainState.scanningA i).worth context := by
  have ahead := worthA_le context i
  have stop := worthB_pos context 0
  simp only [MainState.worth]
  omega

theorem scanningA_worth {i : Nat} (inside : i < context.indexA.capacity) :
    (MainState.scanningA i).worth context = (MainState.scanningA (i + 1)).worth context + context.config.threadCount + 7 :=
  worthA_step inside

theorem pushPresence_worth {record : ChangeRecord} {allocs : PushAllocs} (standing : s.main = old)
    (next_lt : next.worth context < old.worth context)
    (stopping_lt : ∀ rc, (MainState.stopping rc).worth context < old.worth context) :
    (pushPresence s next record allocs).1.worth context < s.worth context := by
  simp only [PlanState.worth, pushPresence, standing]
  split
  · omega
  · have less := stopping_lt (resultSetPush s.results record allocs).1
    omega

theorem created_worth {i : Nat} (standing : s.main = .creating i) (below : i < context.config.threadCount) :
    ({ s with main := .creating (i + 1), workers := s.workers ++ [.ready] } : PlanState).worth context <
      s.worth context := by
  simp only [PlanState.worth, standing, MainState.worth, workersWorth, List.map_append, List.sum_append, List.map_cons,
    List.map_nil, List.sum_cons, List.sum_nil, WorkerState.worth]
  omega

theorem accepted_worth {i : Nat} {path : CString} {queue : TaskQueue} {workers : List WorkerState} {wake : Nat}
    (standing : s.main = .enqueuing i path) (pushed : taskQueuePush s.queue ⟨path⟩ = .accepted queue)
    (signalled : signalNotEmpty s.workers wake = some workers) :
    ({ s with main := .scanningA (i + 1), queue := queue, workers := workers } : PlanState).worth context <
      s.worth context := by
  -- The slot has paid for the task and the wakeup.
  have signal := workersWorth_signal (n := context.config.threadCount) signalled
  have longer := taskQueuePush_count pushed
  simp only [PlanState.worth, standing, MainState.worth, longer, Nat.add_mul]
  omega

end

section
variable {i : Nat}

theorem worth_setWorker {old new : WorkerState} (stands : s.workers[i]? = some old)
    (less : new.worth context.config.threadCount < old.worth context.config.threadCount) :
    (s.setWorker i new).worth context < s.worth context := by
  have changed := workersWorth_set (n := context.config.threadCount) new stands
  simp only [PlanState.worth, PlanState.setWorker]
  omega

theorem taken_worth {task : CompareTask} {queue : TaskQueue} (ready : s.workers[i]? = some .ready)
    (popped : taskQueuePop s.queue = .taken task queue) :
    ({ s with queue := queue, main := s.main.wake }.setWorker i (.comparing task)).worth context < s.worth context := by
  -- The task has paid for its comparison and for waking the main thread.
  have changed := workersWorth_set (n := context.config.threadCount) (.comparing task) ready
  have shorter := taskQueuePop_count popped
  have waking := s.main.worth_wake context
  simp only [PlanState.worth, PlanState.setWorker, WorkerState.worth, shorter, Nat.add_mul] at changed ⊢
  omega

theorem workerStopped_worth (staffed : s.Staffed context) (stopping : s.workers[i]? = some .stopping) :
    (s.shutdownAll.setWorker i .exited).worth context < s.worth context := by
  have stands : (s.workers.map WorkerState.wake)[i]? = some .stopping := by simp [stopping, WorkerState.wake]
  have changed := workersWorth_set (n := context.config.threadCount) .exited stands
  have threads := staffed.1
  have waking := workersWorth_wake context.config.threadCount s.workers
  have mainWaking := s.main.worth_wake context
  simp only [PlanState.worth, PlanState.setWorker, PlanState.shutdownAll, taskQueueShutdown, WorkerState.worth] at changed ⊢
  omega

end

theorem PlanMove.pays_main {choice : MainChoice} (move : PlanMove context s (.main choice) t events)
    (staffed : s.Staffed context) : t.worth context < s.worth context := by
  have threads := staffed.1
  have stop := worthB_pos context
  cases move with
  | created _ i standing below => exact created_worth standing below
  | createFailed _ i standing =>
    have ahead := stopping_worth context 0 0
    exact worth_main standing (by simp only [MainState.worth] at ahead ⊢; omega)
  | abandoned _ rc standing => exact worth_shutdown staffed standing (by simp only [MainState.worth]; omega)
  | stopped _ rc standing => exact worth_shutdown staffed standing (by simp only [MainState.worth]; omega)
  | abandonJoined _ j rc standing exited =>
    have inside := (List.getElem?_eq_some_iff.mp exited).1
    exact worth_main standing (by simp only [MainState.worth]; omega)
  | joined _ j rc standing exited =>
    have inside := (List.getElem?_eq_some_iff.mp exited).1
    exact worth_main standing (by simp only [MainState.worth]; omega)
  | skippedA _ i standing inside => exact worth_main standing (by rw [scanningA_worth inside]; omega)
  | presentA _ i record standing inside =>
    exact pushPresence_worth standing (by rw [scanningA_worth inside]; omega) (stopping_worth context i)
  | candidateA _ i path standing inside =>
    exact worth_main standing (by rw [scanningA_worth inside]; simp only [MainState.worth]; omega)
  | endedA _ i standing outside => exact worth_main standing (by simp only [MainState.worth, worthA_end outside]; omega)
  | pushFaulted _ i path standing =>
    exact worth_main standing ((stopping_worth context (i + 1) _).trans (by simp only [MainState.worth]; omega))
  | pushCanceled _ i path standing =>
    exact worth_main standing ((stopping_worth context (i + 1) _).trans (by simp only [MainState.worth]; omega))
  | pushAccepted _ i path queue workers standing pushed signalled => exact accepted_worth standing pushed signalled
  | skippedB _ i standing inside => exact worth_main standing (by simp only [MainState.worth, PlanContext.worthB]; omega)
  | presentB _ i record standing inside =>
    exact pushPresence_worth standing (by simp only [MainState.worth, PlanContext.worthB]; omega) fun rc =>
      (Nat.lt_succ_self _).trans_le (stop i)
  | endedB _ i standing outside => exact worth_main standing ((Nat.lt_succ_self _).trans_le (stop i))
  | joinEnded _ j rc standing => exact worth_main standing (by split <;> simp only [MainState.worth] <;> omega)
  -- In the other moves the main thread goes on by itself.
  | startFailed _ standing | started _ standing | poolReady _ i standing | abandonEnded _ j rc standing
  | pushWaits _ i path standing | read _ standing => exact worth_main standing (by simp only [MainState.worth]; omega)

theorem PlanMove.pays_worker {i : Nat} {env : CompareEnv} (move : PlanMove context s (.worker i env) t events)
    (staffed : s.Staffed context) : t.worth context < s.worth context := by
  cases move with
  | popWaits _ _ ready => exact worth_setWorker ready (by simp [WorkerState.worth])
  | popDrained _ _ ready => exact worth_setWorker ready (by simp [WorkerState.worth])
  | popTaken _ _ task queue ready popped => exact taken_worth ready popped
  | compared _ _ task rc results comparing =>
    refine @worth_setWorker context { s with results := results } i _ _ comparing ?_
    split <;> simp only [WorkerState.worth] <;> omega
  | errorSet _ _ rc failing =>
    exact @worth_setWorker context { s with firstError := if s.firstError = 0 then rc else s.firstError } i _ _ failing
      (by simp [WorkerState.worth])
  | workerStopped _ _ stopping => exact workerStopped_worth staffed stopping

theorem PlanMove.pays (move : PlanMove context s action t events) (staffed : s.Staffed context)
    (costs : action.isWakeup = false) : t.worth context < s.worth context := by
  cases action with
  | main choice => exact move.pays_main staffed
  | worker i env => exact move.pays_worker staffed
  | popFault i =>
    cases move with
    | popFaulted _ asleep =>
      rcases asleep with ready | waiting
      · exact worth_setWorker ready (by simp [WorkerState.worth])
      · exact worth_setWorker waiting (by simp [WorkerState.worth])
  | lockFault i =>
    cases move with
    | errorFaulted _ rc failing => exact worth_setWorker failing (by simp [WorkerState.worth])
    | stopFaulted _ stopping => exact worth_setWorker stopping (by simp [WorkerState.worth])
  | mainFault =>
    cases move with
    | abandonFaulted rc standing => exact worth_main standing (by simp only [MainState.worth]; omega)
    | shutdownFaulted rc standing => exact worth_main standing (by simp only [MainState.worth]; omega)
    | readFaulted standing => exact worth_main standing (by simp only [MainState.worth]; omega)
  | wakeMain => cases costs
  | wakeWorker => cases costs

/-! ## Whole schedules -/

theorem staffed_start (context : PlanContext) (results : ResultSet) (progress : ProgressState) :
    (planStart context results progress).Staffed context :=
  ⟨Nat.zero_le _, fun _ => rfl, fun i standing => by cases standing⟩

/-- What the start is worth: two indexes to scan, a comparison for every slot of the first. -/
def PlanContext.planBound (context : PlanContext) : Nat :=
  context.indexA.capacity * (context.config.threadCount + 7) + context.indexB.capacity +
    5 * context.config.threadCount + 7

theorem worth_start (results : ResultSet) (progress : ProgressState) :
    (planStart context results progress).worth context = context.planBound := by
  simp only [PlanState.worth, planStart, MainState.worth, PlanContext.worthA, PlanContext.worthB, PlanContext.planBound,
    taskQueueInit, workersWorth, List.map_nil, List.sum_nil, Nat.sub_zero]
  omega

theorem staffed_perform {actions : List PlanAction} (staffed : s.Staffed context)
    (performed : perform (planStep context) actions s = some (t, events)) :
    actions.length + t.worth context ≤ s.worth context + 2 * actions.countP PlanAction.isWakeup :=
  perform_bounded (PlanState.Staffed context) (PlanState.worth context) PlanAction.isWakeup
    (fun staffed stepped => (planStep_move stepped).staffed staffed)
    (fun staffed stepped costs => (planStep_move stepped).pays staffed costs)
    (fun _ stepped free => (planStep_move stepped).gains free) staffed performed

/-- A step that needs no wakeup and in which no call of a thread function fails. -/
def PlanAction.Plain : PlanAction → Prop
  | .main choice => choice.rc = 0
  | .worker _ _ => True
  | _ => False

theorem PlanAction.Plain.costs (plain : action.Plain) : action.isWakeup = false := by
  cases action with
  | main choice => rfl
  | worker i env => rfl
  | _ => exact absurd plain id

theorem PlanAction.Plain.locksSucceed (plain : action.Plain) (s : PlanState) : LocksSucceed s action := by
  cases action with
  | popFault i => exact plain
  | lockFault i => exact plain
  | mainFault => exact plain
  | _ => trivial

theorem CanStep.plain (possible : s.CanStep context) :
    ∃ action t events, action.Plain ∧ planStep context s action = some (t, events) := by
  rcases possible with ⟨choice, succeeds, some⟩ | ⟨i, some⟩
  · obtain ⟨⟨t, events⟩, stepped⟩ := Option.isSome_iff_exists.mp some
    exact ⟨.main choice, t, events, succeeds, stepped⟩
  · obtain ⟨⟨t, events⟩, stepped⟩ := Option.isSome_iff_exists.mp (some (.quiet 4))
    exact ⟨.worker i (.quiet 4), t, events, trivial, stepped⟩

theorem Live.canStep (live : Live context s) (unfinished : ¬∃ rc, s.main = .returned rc) : s.CanStep context := by
  by_cases blocked : s.MainBlocked
  · obtain ⟨i, worker, stands, running, awake⟩ := live.worker_awake blocked
    exact .inr ⟨i, fun env => workerStep_isSome stands running awake⟩
  · exact .inl (mainStep_isSome blocked fun rc returned => unfinished ⟨rc, returned⟩)

/-- Without spurious wakeups no schedule is longer than the bound, whatever fails on the way; each
spurious wakeup allows two steps more. If no lock fails, one that cannot go on has returned. -/
theorem plan_steps_bounded (context : PlanContext) (results : ResultSet) (progress : ProgressState)
    {actions : List PlanAction}
    (performed : perform (planStep context) actions (planStart context results progress) = some (t, events)) :
    actions.length ≤ context.planBound + 2 * actions.countP PlanAction.isWakeup ∧
    ((∀ action ∈ actions, ∀ s, LocksSucceed s action) →
      (∀ action, action.Plain → planStep context t action = none) → ∃ rc, t.main = .returned rc) := by
  constructor
  · have bounded := staffed_perform (staffed_start context results progress) performed
    rw [worth_start] at bounded
    omega
  · intro succeed halted
    have run : PlanRun context LocksSucceed results progress t events := Run.of_perform succeed performed
    by_contra unfinished
    obtain ⟨action, next, later, plain, stepped⟩ := CanStep.plain (run.live.canStep unfinished)
    rw [halted action plain] at stepped
    cases stepped

/-- From wherever a schedule has led, plain steps alone lead to the return. -/
theorem plan_can_return {results : ResultSet} {progress : ProgressState} {actions : List PlanAction}
    (locksSucceed : ∀ action ∈ actions, ∀ s, LocksSucceed s action)
    (performed : perform (planStep context) actions (planStart context results progress) = some (s, events)) :
    ∃ more t later rc, (∀ action ∈ more, action.Plain) ∧ perform (planStep context) more s = some (t, later) ∧
      t.main = .returned rc := by
  have run : PlanRun context LocksSucceed results progress s events := Run.of_perform locksSucceed performed
  have staffed : s.Staffed context := PlanRun.invariant (fun s _ => s.Staffed context) (staffed_start context results progress)
    (fun _ staffed _ move => move.staffed staffed) run
  obtain ⟨more, t, later, plain, continued, rc, returned⟩ := perform_reaches (fun s => Live context s ∧ s.Staffed context)
    (fun s => ∃ rc, s.main = .returned rc) (PlanState.worth context) PlanAction.Plain
    (fun ⟨live, staffed⟩ unfinished => by
      obtain ⟨action, t, events, plain, stepped⟩ := CanStep.plain (live.canStep unfinished)
      have move := planStep_move stepped
      exact ⟨action, t, events, plain, stepped, ⟨move.live (plain.locksSucceed _) live, move.staffed staffed⟩,
        move.pays staffed plain.costs⟩)
    ⟨run.live, staffed⟩
  exact ⟨more, t, later, rc, plain, continued, returned⟩

def restlessActions : List PlanAction := mainSteps 20 ++ [.wakeMain] ++ mainSteps 1 ++ [.wakeMain]

def restlessPlan : PlanContext := samplePlan (fun _ => .error Fault.EIO) 1 Nat.one_pos

theorem restless_performed : ∃ s events, perform (planStep restlessPlan) restlessActions
    (planStart restlessPlan resultSetInit progressInit) = some (s, events) := by
  have possible : (perform (planStep restlessPlan) restlessActions
      (planStart restlessPlan resultSetInit progressInit)).isSome = true := by
    decide +kernel
  obtain ⟨⟨s, events⟩, performed⟩ := Option.isSome_iff_exists.mp possible
  exact ⟨s, events, performed⟩

theorem plan_steps_bounded_restless :
    restlessActions.length ≤ restlessPlan.planBound + 2 * restlessActions.countP PlanAction.isWakeup := by
  obtain ⟨s, events, performed⟩ := restless_performed
  exact (plan_steps_bounded _ _ _ performed).1

theorem plan_can_return_restless : ∃ s events,
    perform (planStep restlessPlan) restlessActions (planStart restlessPlan resultSetInit progressInit) =
      some (s, events) ∧
    ∃ more t later rc, (∀ action ∈ more, action.Plain) ∧ perform (planStep restlessPlan) more s = some (t, later) ∧
      t.main = .returned rc := by
  obtain ⟨s, events, performed⟩ := restless_performed
  refine ⟨s, events, performed, plan_can_return (fun action member s => ?_) performed⟩
  cases action with
  | popFault i => simp [restlessActions, mainSteps] at member
  | lockFault i => simp [restlessActions, mainSteps] at member
  | mainFault => simp [restlessActions, mainSteps] at member
  | _ => trivial

end Verdiff
