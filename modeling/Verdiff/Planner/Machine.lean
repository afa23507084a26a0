import Verdiff.Compare.Candidate
import Verdiff.Library.Transition
import Verdiff.Progress
import Verdiff.Queue.TaskQueue

/-! `plan_and_compare` as one system: the main thread, the workers and what they share.

A step is one critical section or one stretch of code between two of them. An action
names the thread that moves and resolves what the environment decides in its step:
the code of a creation, the waiter a signal wakes, and the outcomes of allocations
and of file operations. Waiting threads are woken by signals, by the broadcast, or
spuriously.
-/

set_option autoImplicit false

namespace Verdiff
open Transition

/-- The capacity `plan_and_compare` gives its queue. -/
def planQueueCapacity : Nat := 4096

theorem planQueueCapacity_pos : 0 < planQueueCapacity := by decide

structure PlanContext extends CompareContext where
  queueCapacity : Nat
  capacity_pos : 0 < queueCapacity
  threads_pos : 0 < config.threadCount

/-- Where the main thread stands. `scanningA`, `enqueuing`, `waitingNotFull` and `scanningB`
have `rc = 0`; the two `abandoning` states are the error path of `thread_pool_init`. -/
inductive MainState where
  | starting
  | creating (i : Nat)
  | createFailed (rc : Rc)
  | abandoning (j : Nat) (rc : Rc)
  | scanningA (i : Nat)
  | enqueuing (i : Nat) (path : CString)
  | waitingNotFull (i : Nat) (path : CString)
  | scanningB (i : Nat)
  | stopping (rc : Rc)
  | joining (j : Nat) (rc : Rc)
  | reading
  | returned (rc : Rc)
  deriving DecidableEq

/-- `ready` is in front of the critical section of `task_queue_pop`, `failing` in front of
`compare_context_set_error` and `stopping` in front of `task_queue_shutdown`. -/
inductive WorkerState where
  | ready
  | waitingNotEmpty
  | comparing (task : CompareTask)
  | failing (rc : Rc)
  | stopping
  | exited
  deriving DecidableEq

structure PlanState where
  main : MainState
  workers : List WorkerState
  queue : TaskQueue
  results : ResultSet
  firstError : Rc
  progress : ProgressState

inductive PlanEvent where
  | presence (record : ChangeRecord) (rc : Rc)
  | enqueued (path : CString) (rc : Rc)
  | popped (worker : Nat) (path : CString)
  | compared (worker : Nat) (path : CString) (env : CompareEnv) (rc : Rc)
  | errorSet (rc : Rc)

structure MainChoice where
  rc : Rc
  wake : Nat
  push : PushAllocs

/-- `wakeMain` and `wakeWorker` are spurious wakeups; `popFault` is a call of `task_queue_pop`
in which locking or waiting returns an error. In `lockFault` a worker's lock fails in
`compare_context_set_error` or `task_queue_shutdown`, in `mainFault` the main thread's in
`task_queue_shutdown` or `compare_context_get_error`. -/
inductive PlanAction where
  | main (choice : MainChoice)
  | worker (i : Nat) (env : CompareEnv)
  | wakeMain
  | wakeWorker (i : Nat)
  | popFault (i : Nat)
  | lockFault (i : Nat)
  | mainFault

/-! ## Signals -/

def MainState.wake : MainState → MainState
  | .waitingNotFull i path => .enqueuing i path
  | other => other

def WorkerState.wake : WorkerState → WorkerState
  | .waitingNotEmpty => .ready
  | other => other

def signalNotEmpty (workers : List WorkerState) (wake : Nat) : Option (List WorkerState) :=
  if .waitingNotEmpty ∈ workers then
    if workers[wake]? = some .waitingNotEmpty then some (workers.set wake .ready) else none
  else some workers

namespace PlanState

def shutdownAll (s : PlanState) : PlanState :=
  { s with
    queue := taskQueueShutdown s.queue
    workers := s.workers.map WorkerState.wake
    main := s.main.wake }

def setWorker (s : PlanState) (i : Nat) (worker : WorkerState) : PlanState :=
  { s with workers := s.workers.set i worker }

end PlanState

/-! ## The main thread -/

/-- What the scan does with one slot. -/
inductive SlotPlan where
  | skip
  | present (record : ChangeRecord)
  | candidate (path : CString)

section
variable (context : PlanContext)

def presenceRecord (path : CString) (type : ChangeType) (detailKind : DetailKind) (sizeA sizeB : Int) :
    ChangeRecord := ⟨path, type, detailKind, sizeA, sizeB, .zero⟩

def planSlotA : Option IndexSlot → SlotPlan
  | none => .skip
  | some slot =>
    match fileIndexFindConst context.hashPath context.indexB slot.key with
    | none => .present (presenceRecord slot.key .removed .onlyInSource slot.value.size 0)
    | some other =>
      if slot.value.size ≠ other.size then
        .present (presenceRecord slot.key .modified .sizeChanged slot.value.size other.size)
      else .candidate slot.key

def planSlotB : Option IndexSlot → SlotPlan
  | none => .skip
  | some slot =>
    match fileIndexFindConst context.hashPath context.indexA slot.key with
    | none => .present (presenceRecord slot.key .added .onlyInTarget 0 slot.value.size)
    | some _ => .skip

def pushPresence (s : PlanState) (next : MainState) (record : ChangeRecord) (allocs : PushAllocs) :
    PlanState × List PlanEvent :=
  let (rc, results) := resultSetPush s.results record allocs
  ({ s with results := results, main := if rc = 0 then next else .stopping rc }, [.presence record rc])

def joinWorker (s : PlanState) (j : Nat) (next last : MainState) : Option (PlanState × List PlanEvent) :=
  if j < s.workers.length then
    if s.workers[j]? = some .exited then some ({ s with main := next }, []) else none
  else some ({ s with main := last }, [])

def mainStep (s : PlanState) (choice : MainChoice) : Option (PlanState × List PlanEvent) :=
  match s.main with
  | .starting =>
    if choice.rc ≠ 0 then some ({ s with main := .returned choice.rc }, [])
    else some ({ s with main := .creating 0 }, [])
  -- The new worker is ready at once, while the others are still being created.
  | .creating i =>
    if i < context.config.threadCount then
      if choice.rc ≠ 0 then some ({ s with main := .createFailed choice.rc }, [])
      else some ({ s with main := .creating (i + 1), workers := s.workers ++ [.ready] }, [])
    else some ({ s with main := .scanningA 0 }, [])
  | .createFailed rc => some ({ s.shutdownAll with main := .abandoning 0 rc }, [])
  | .abandoning j rc => joinWorker s j (.abandoning (j + 1) rc) (.returned rc)
  | .scanningA i =>
    if i < context.indexA.capacity then
      match planSlotA context (context.indexA.slots.getD i none) with
      | .skip => some ({ s with main := .scanningA (i + 1) }, [])
      | .present record => some (pushPresence s (.scanningA (i + 1)) record choice.push)
      | .candidate path =>
        some ({ s with main := .enqueuing i path, progress := progressNoteCompareStart s.progress }, [])
    else some ({ s with main := .scanningB 0 }, [])
  | .enqueuing i path =>
    -- Locking or waiting returns an error, and `task_queue_push` with it.
    if choice.rc ≠ 0 then some ({ s with main := .stopping choice.rc }, [.enqueued path choice.rc])
    else
      match taskQueuePush s.queue ⟨path⟩ with
      | .wait => some ({ s with main := .waitingNotFull i path }, [])
      -- A worker has shut the queue down; this code ends both scans.
      | .canceled =>
        some ({ s with main := .stopping Fault.ECANCELED.code }, [.enqueued path Fault.ECANCELED.code])
      | .accepted queue =>
        match signalNotEmpty s.workers choice.wake with
        | none => none
        | some workers =>
          some ({ s with main := .scanningA (i + 1), queue := queue, workers := workers }, [.enqueued path 0])
  -- Asleep: only a wakeup moves it.
  | .waitingNotFull _ _ => none
  | .scanningB i =>
    if i < context.indexB.capacity then
      match planSlotB context (context.indexB.slots.getD i none) with
      | .present record => some (pushPresence s (.scanningB (i + 1)) record choice.push)
      | _ => some ({ s with main := .scanningB (i + 1) }, [])
    else some ({ s with main := .stopping 0 }, [])
  | .stopping rc => some ({ s.shutdownAll with main := .joining 0 rc }, [])
  | .joining j rc => joinWorker s j (.joining (j + 1) rc) (if rc = 0 then .reading else .returned rc)
  | .reading => some ({ s with main := .returned s.firstError }, [])
  | .returned _ => none

/-! ## The workers -/

def workerStep (s : PlanState) (i : Nat) (env : CompareEnv) : Option (PlanState × List PlanEvent) :=
  match s.workers[i]? with
  | some .ready =>
    match taskQueuePop s.queue with
    | .wait => some (s.setWorker i .waitingNotEmpty, [])
    | .drained => some (s.setWorker i .exited, [])
    | .taken task queue =>
      -- The signal on `not_full` has at most one waiter, the main thread.
      some ({ s with queue := queue, main := s.main.wake }.setWorker i (.comparing task),
        [.popped i task.relativePath])
  | some (.comparing task) =>
    let (rc, results) := compareCandidateFile context.toCompareContext task.relativePath env s.results
    some ({ s with results := results }.setWorker i (if rc = 0 then .ready else .failing rc),
      [.compared i task.relativePath env rc])
  -- Only the first code is kept.
  | some (.failing rc) =>
    some ({ s with firstError := if s.firstError = 0 then rc else s.firstError }.setWorker i .stopping,
      [.errorSet rc])
  | some .stopping => some (s.shutdownAll.setWorker i .exited, [])
  | _ => none

def planStep (s : PlanState) : PlanAction → Option (PlanState × List PlanEvent)
  | .main choice => mainStep context s choice
  | .worker i env => workerStep context s i env
  | .wakeMain =>
    match s.main with
    | .waitingNotFull i path => some ({ s with main := .enqueuing i path }, [])
    | _ => none
  | .wakeWorker i =>
    if s.workers[i]? = some .waitingNotEmpty then some (s.setWorker i .ready, []) else none
  -- The worker's loop ends as if the queue were drained.
  | .popFault i =>
    if s.workers[i]? = some .ready ∨ s.workers[i]? = some .waitingNotEmpty then
      some (s.setWorker i .exited, [])
    else none
  -- Both calls return without a word, the code unrecorded or the queue still open.
  | .lockFault i =>
    match s.workers[i]? with
    | some (.failing _) => some (s.setWorker i .stopping, [])
    | some .stopping => some (s.setWorker i .exited, [])
    | _ => none
  | .mainFault =>
    match s.main with
    | .createFailed rc => some ({ s with main := .abandoning 0 rc }, [])
    | .stopping rc => some ({ s with main := .joining 0 rc }, [])
    | .reading => some ({ s with main := .returned Fault.EINVAL.code }, [])
    | _ => none

def planStart (results : ResultSet) (progress : ProgressState) : PlanState where
  main := .starting
  workers := []
  queue := taskQueueInit context.queueCapacity
  results := results
  firstError := 0
  progress := progress

end

/-- No lock and no wait of a worker fails, and no lock around the shutdown or the error code. -/
def LocksSucceed (_ : PlanState) : PlanAction → Prop
  | .popFault _ => False
  | .lockFault _ => False
  | .mainFault => False
  | _ => True

/-- Moreover every thread is created, and no call of `task_queue_push` meets such a fault. -/
def PthreadsSucceed (s : PlanState) : PlanAction → Prop
  | .popFault _ => False
  | .lockFault _ => False
  | .mainFault => False
  | .main choice => (∀ i, s.main = .creating i → choice.rc = 0) ∧
    ∀ i path, s.main = .enqueuing i path → choice.rc = 0
  | _ => True

abbrev PlanRun (context : PlanContext) (allowed : PlanState → PlanAction → Prop) (results : ResultSet)
    (progress : ProgressState) : PlanState → List PlanEvent → Prop :=
  Run (planStep context) allowed (planStart context results progress)

/-! ## A plan small enough to run -/

def sampleRootA : CString := ⟨[97], by decide⟩

def sampleRootB : CString := ⟨[98], by decide⟩

def sampleX : CString := ⟨[120], by decide⟩

def sampleY : CString := ⟨[121], by decide⟩

def sampleSlot (path : CString) (size mtime : Int) : IndexSlot := ⟨path, ⟨path, size, mtime⟩, vdHashPath path⟩

/-- Two files `x` and `y` of three bytes in a table of sixteen slots. -/
def sampleIndex : FileIndex :=
  ⟨((List.replicate 16 none).set 1 (some (sampleSlot sampleX 3 0))).set 14 (some (sampleSlot sampleY 3 0)), 16, 2⟩

/-- The two trees `a` and `b` list the same files; one worker compares them. -/
def samplePlan (openFile : CString → Except Fault Bytes) (queueCapacity : Nat)
    (positive : 0 < queueCapacity) : PlanContext where
  config := ⟨sampleRootA, sampleRootB, 1, true, true, 4, 0, true⟩
  hashPath := vdHashPath
  indexA := sampleIndex
  indexB := sampleIndex
  files := ⟨fun _ => .error .ENOENT, fun _ => .error .ENOENT, openFile⟩
  xxh := .ofFunction fun bytes => bytes.length.toUInt64
  queueCapacity := queueCapacity
  capacity_pos := positive
  threads_pos := by decide

def mainSteps (n : Nat) : List PlanAction := List.replicate n (.main ⟨0, 0, ⟨true, true⟩⟩)

def workerSteps (n : Nat) : List PlanAction := List.replicate n (.worker 0 (.quiet 4))

theorem mainSteps_succeed {n : Nat} {action : PlanAction} (member : action ∈ mainSteps n) (s : PlanState) :
    PthreadsSucceed s action := by
  obtain ⟨_, rfl⟩ := List.mem_replicate.mp member
  exact ⟨fun _ _ => rfl, fun _ _ _ => rfl⟩

theorem workerSteps_succeed {n : Nat} {action : PlanAction} (member : action ∈ workerSteps n)
    (s : PlanState) : PthreadsSucceed s action := by
  obtain ⟨_, rfl⟩ := List.mem_replicate.mp member
  trivial

theorem PthreadsSucceed.locksSucceed {s : PlanState} {action : PlanAction} (succeed : PthreadsSucceed s action) :
    LocksSucceed s action := by
  cases action with
  | popFault i => exact succeed
  | lockFault i => exact succeed
  | mainFault => exact succeed
  | _ => trivial

end Verdiff
