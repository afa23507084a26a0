import Verdiff.Library.Monitor
import Verdiff.Queue.System

/-! The queue's code statement by statement, under its mutex.

While a thread is inside a function the others may call, wake up and wait for the mutex, and
nothing they do is lost on it or seen by it: the calls return what they return when every
critical section is one step. `pthread_cond_signal` and `pthread_cond_broadcast` change nothing
themselves, since a thread that waits may be woken at any time.
-/

set_option autoImplicit false

namespace Verdiff
open Transition Monitor

/-- The statements behind the mutex, with what the local variables hold. -/
inductive QueuePlace where
  -- The two halves of the loop condition, and the test behind the loop.
  | pushOpen (task : CompareTask)
  | pushFull (task : CompareTask)
  | pushCanceled (task : CompareTask)
  | pushItem (task : CompareTask)
  | pushTail (task : CompareTask)
  | pushCount (task : CompareTask)
  | pushSignal (task : CompareTask)
  | popOpen
  | popEmpty
  | popDrained
  | popItem
  | popHead (task : CompareTask)
  | popCount (task : CompareTask)
  | popSignal (task : CompareTask)
  | stopFlag
  | stopNotEmpty
  | stopNotFull

/-- What a call returns, with its argument. -/
inductive QueueResult where
  | pushed (task : CompareTask) (rc : Rc)
  | popped (task : Option CompareTask)
  | stopped

/-- Where a section starts: a thread that has been woken is at the loop condition again. -/
def queueEntry : QueueRequest → QueuePlace
  | .push task => .pushOpen task
  | .pop => .popOpen
  | .shutdown => .stopFlag

def queueExec (place : QueuePlace) (queue : TaskQueue) : TaskQueue × Control QueueRequest QueuePlace QueueResult :=
  match place with
  | .pushOpen task => (queue, .goto (if !queue.shutdown then .pushFull task else .pushCanceled task))
  | .pushFull task =>
    (queue, if queue.count == queue.capacity then .exit (.wait (.push task)) else .goto (.pushCanceled task))
  | .pushCanceled task =>
    (queue, if queue.shutdown then .exit (.leave (.pushed task Fault.ECANCELED.code)) else .goto (.pushItem task))
  | .pushItem task => ({ queue with items := queue.items.set queue.tail task }, .goto (.pushTail task))
  | .pushTail task => ({ queue with tail := (queue.tail + 1) % queue.capacity }, .goto (.pushCount task))
  | .pushCount task => ({ queue with count := queue.count + 1 }, .goto (.pushSignal task))
  | .pushSignal task => (queue, .exit (.leave (.pushed task 0)))
  | .popOpen => (queue, .goto (if !queue.shutdown then .popEmpty else .popDrained))
  | .popEmpty => (queue, if queue.count == 0 then .exit (.wait .pop) else .goto .popDrained)
  | .popDrained => (queue, if queue.count == 0 then .exit (.leave (.popped none)) else .goto .popItem)
  | .popItem => (queue, .goto (.popHead (queue.items.getD queue.head .zero)))
  | .popHead task => ({ queue with head := (queue.head + 1) % queue.capacity }, .goto (.popCount task))
  | .popCount task => ({ queue with count := queue.count - 1 }, .goto (.popSignal task))
  | .popSignal task => (queue, .exit (.leave (.popped (some task))))
  | .stopFlag => ({ queue with shutdown := true }, .goto .stopNotEmpty)
  | .stopNotEmpty => (queue, .goto .stopNotFull)
  | .stopNotFull => (queue, .exit (.leave .stopped))

def queueCode : Code TaskQueue QueueRequest QueuePlace QueueResult := ⟨queueEntry, queueExec⟩

def queueSummary (request : QueueRequest) (queue : TaskQueue) : TaskQueue × Exit QueueRequest QueueResult :=
  match request with
  | .push task =>
    match taskQueuePush queue task with
    | .wait => (queue, .wait (.push task))
    | .canceled => (queue, .leave (.pushed task Fault.ECANCELED.code))
    | .accepted next => (next, .leave (.pushed task 0))
  | .pop =>
    match taskQueuePop queue with
    | .wait => (queue, .wait .pop)
    | .drained => (queue, .leave (.popped none))
    | .taken task next => (next, .leave (.popped (some task)))
  | .shutdown => (taskQueueShutdown queue, .leave .stopped)

/-! ## One section -/

theorem taskQueuePush_stored {queue next : TaskQueue} {task : CompareTask}
    (pushed : taskQueuePush queue task = .accepted next) :
    queue.shutdown = false ∧ queue.count ≠ queue.capacity ∧ next = { queue with
      items := queue.items.set queue.tail task
      tail := (queue.tail + 1) % queue.capacity
      count := queue.count + 1 } := by
  unfold taskQueuePush at pushed
  split at pushed
  · cases pushed
  next through =>
    split at pushed
    · cases pushed
    next open_ =>
      rw [Bool.not_eq_true] at open_
      rw [open_] at through
      cases pushed
      exact ⟨open_, by simpa using through, rfl⟩

theorem taskQueuePop_read {queue next : TaskQueue} {task : CompareTask} (popped : taskQueuePop queue = .taken task next) :
    queue.count ≠ 0 ∧ task = queue.items.getD queue.head .zero ∧ next = { queue with
      head := (queue.head + 1) % queue.capacity
      count := queue.count - 1 } := by
  unfold taskQueuePop at popped
  split at popped
  · cases popped
  split at popped
  · cases popped
  next some_ =>
    cases popped
    exact ⟨by simpa using some_, rfl, rfl⟩

theorem pushItem_executes (task : CompareTask) (queue : TaskQueue) : Executes queueCode (.pushItem task) queue
    ({ queue with
      items := queue.items.set queue.tail task
      tail := (queue.tail + 1) % queue.capacity
      count := queue.count + 1 }, .leave (.pushed task 0)) :=
  .step rfl (.step rfl (.step rfl (.exit rfl)))

theorem popItem_executes (queue : TaskQueue) : Executes queueCode .popItem queue
    ({ queue with
      head := (queue.head + 1) % queue.capacity
      count := queue.count - 1 }, .leave (.popped (some (queue.items.getD queue.head .zero)))) :=
  .step rfl (.step rfl (.step rfl (.exit rfl)))

theorem pushLoop_left {task : CompareTask} {queue : TaskQueue} {pass : TaskQueue × Exit QueueRequest QueueResult}
    (later : Executes queueCode (.pushCanceled task) queue pass)
    (skips : queue.shutdown = true ∨ queue.count ≠ queue.capacity) : Executes queueCode (.pushOpen task) queue pass := by
  -- The loop of a push is left towards the test behind it.
  cases shut : queue.shutdown with
  | true =>
    have goes : queueExec (.pushOpen task) queue = (queue, .goto (.pushCanceled task)) := by simp [queueExec, shut]
    exact .step goes later
  | false =>
    have room : queue.count ≠ queue.capacity := skips.resolve_left (by simp [shut])
    have first : queueExec (.pushOpen task) queue = (queue, .goto (.pushFull task)) := by simp [queueExec, shut]
    have second : queueExec (.pushFull task) queue = (queue, .goto (.pushCanceled task)) := by simp [queueExec, room]
    exact .step first (.step second later)

theorem popLoop_left {queue : TaskQueue} {pass : TaskQueue × Exit QueueRequest QueueResult}
    (later : Executes queueCode .popDrained queue pass) (skips : queue.shutdown = true ∨ queue.count ≠ 0) :
    Executes queueCode .popOpen queue pass := by
  cases shut : queue.shutdown with
  | true =>
    have goes : queueExec .popOpen queue = (queue, .goto .popDrained) := by simp [queueExec, shut]
    exact .step goes later
  | false =>
    have some_ : queue.count ≠ 0 := skips.resolve_left (by simp [shut])
    have first : queueExec .popOpen queue = (queue, .goto .popEmpty) := by simp [queueExec, shut]
    have second : queueExec .popEmpty queue = (queue, .goto .popDrained) := by simp [queueExec, some_]
    exact .step first (.step second later)

theorem push_executes (task : CompareTask) (queue : TaskQueue) :
    Executes queueCode (.pushOpen task) queue (queueSummary (.push task) queue) := by
  cases pass : taskQueuePush queue task with
  | wait =>
    obtain ⟨open_, full⟩ := taskQueuePush_wait.mp pass
    have first : queueExec (.pushOpen task) queue = (queue, .goto (.pushFull task)) := by simp [queueExec, open_]
    have waits : queueExec (.pushFull task) queue = (queue, .exit (.wait (.push task))) := by simp [queueExec, full]
    simp only [queueSummary, pass]
    exact .step first (.exit waits)
  | canceled =>
    have shut := taskQueuePush_canceled.mp pass
    have leaves : queueExec (.pushCanceled task) queue =
        (queue, .exit (.leave (.pushed task Fault.ECANCELED.code))) := by simp [queueExec, shut]
    simp only [queueSummary, pass]
    exact pushLoop_left (.exit leaves) (.inl shut)
  | accepted next =>
    obtain ⟨open_, room, rfl⟩ := taskQueuePush_stored pass
    have goes : queueExec (.pushCanceled task) queue = (queue, .goto (.pushItem task)) := by simp [queueExec, open_]
    simp only [queueSummary, pass]
    exact pushLoop_left (.step goes (pushItem_executes task queue)) (.inr room)

theorem pop_executes (queue : TaskQueue) : Executes queueCode .popOpen queue (queueSummary .pop queue) := by
  cases pass : taskQueuePop queue with
  | wait =>
    obtain ⟨open_, empty⟩ := taskQueuePop_wait.mp pass
    have first : queueExec .popOpen queue = (queue, .goto .popEmpty) := by simp [queueExec, open_]
    have waits : queueExec .popEmpty queue = (queue, .exit (.wait .pop)) := by simp [queueExec, empty]
    simp only [queueSummary, pass]
    exact .step first (.exit waits)
  | drained =>
    obtain ⟨shut, empty⟩ := taskQueuePop_drained.mp pass
    have leaves : queueExec .popDrained queue = (queue, .exit (.leave (.popped none))) := by simp [queueExec, empty]
    simp only [queueSummary, pass]
    exact popLoop_left (.exit leaves) (.inl shut)
  | taken task next =>
    obtain ⟨some_, rfl, rfl⟩ := taskQueuePop_read pass
    have goes : queueExec .popDrained queue = (queue, .goto .popItem) := by simp [queueExec, some_]
    simp only [queueSummary, pass]
    exact popLoop_left (.step goes (popItem_executes queue)) (.inr some_)

theorem queueCode_summarises : Summarises queueCode queueSummary := by
  intro request queue
  cases request with
  | push task => exact push_executes task queue
  | pop => exact pop_executes queue
  | shutdown => exact .step rfl (.step rfl (.exit rfl))

/-! ## Sections and statements -/

def QueueCall.thread : QueueCall → Thread QueueRequest QueuePlace
  | .outside => .outside
  | .pushing task => .ready (.push task)
  | .waitingNotFull task => .asleep (.push task)
  | .popping => .ready .pop
  | .waitingNotEmpty => .asleep .pop
  | .stopping => .ready .shutdown

def QueueState.sections (s : QueueState) : Sections TaskQueue QueueRequest QueuePlace :=
  ⟨s.queue, QueueCall.thread ∘ s.threads⟩

/-- A call of `task_queue_shutdown` returns nothing. -/
def QueueResult.event? : Nat × QueueResult → Option QueueEvent
  | (i, .pushed task rc) => some (.pushed i task rc)
  | (i, .popped task) => some (.popped i task)
  | (_, .stopped) => none

theorem QueueState.sections_move (s : QueueState) (queue : TaskQueue) (i : Nat) (call : QueueCall) :
    QueueState.sections ({ s with queue := queue }.move i call) =
      ⟨queue, Function.update s.sections.threads i call.thread⟩ := by
  rw [QueueState.sections, QueueState.move, Function.comp_update]
  rfl

theorem QueueRequest.start_thread (request : QueueRequest) : request.start.thread = .ready request := by
  cases request <;> rfl

def QueueAction.section_ : QueueAction → Action QueueRequest
  | .call i request => .call i request
  | .enter i => .turn i
  | .wake i => .wake i

theorem QueueAction.section_surjective (action : Action QueueRequest) : ∃ other : QueueAction, other.section_ = action := by
  cases action with
  | call i request => exact ⟨.call i request, rfl⟩
  | turn i => exact ⟨.enter i, rfl⟩
  | wake i => exact ⟨.wake i, rfl⟩

theorem sectionStep_queue (s : QueueState) (action : QueueAction) :
    (sectionStep queueSummary s.sections action.section_).map (fun out => (out.1, out.2.filterMap QueueResult.event?)) =
      (queueStep s action).map fun out => (out.1.sections, out.2) := by
  have stands (i : Nat) : s.sections.threads i = (s.threads i).thread := rfl
  cases action with
  | call i request =>
    simp only [QueueAction.section_, sectionStep, queueStep, stands]
    cases call : s.threads i with
    | outside =>
      simp only [QueueCall.thread, ↓reduceIte, Option.map_some, List.filterMap_nil, Option.some.injEq, Prod.mk.injEq,
        and_true]
      rw [← request.start_thread]
      exact (s.sections_move s.queue i request.start).symm
    | _ => rfl
  | enter i =>
    simp only [QueueAction.section_, sectionStep, queueStep, queueEnter, stands]
    cases call : s.threads i with
    | pushing task =>
      simp only [QueueCall.thread, queueSummary, show s.sections.shared = s.queue from rfl]
      cases taskQueuePush s.queue task with
      | wait => exact congrArg some (Prod.ext (s.sections_move s.queue i (.waitingNotFull task)).symm rfl)
      | canceled => exact congrArg some (Prod.ext (s.sections_move s.queue i .outside).symm rfl)
      | accepted queue => exact congrArg some (Prod.ext (s.sections_move queue i .outside).symm rfl)
    | popping =>
      simp only [QueueCall.thread, queueSummary, show s.sections.shared = s.queue from rfl]
      cases taskQueuePop s.queue with
      | wait => exact congrArg some (Prod.ext (s.sections_move s.queue i .waitingNotEmpty).symm rfl)
      | drained => exact congrArg some (Prod.ext (s.sections_move s.queue i .outside).symm rfl)
      | taken task queue => exact congrArg some (Prod.ext (s.sections_move queue i .outside).symm rfl)
    | stopping => exact congrArg some (Prod.ext (s.sections_move (taskQueueShutdown s.queue) i .outside).symm rfl)
    | _ => rfl
  | wake i =>
    simp only [QueueAction.section_, sectionStep, queueStep, stands]
    cases call : s.threads i with
    | waitingNotFull task => exact congrArg some (Prod.ext (s.sections_move s.queue i (.pushing task)).symm rfl)
    | waitingNotEmpty => exact congrArg some (Prod.ext (s.sections_move s.queue i .popping).symm rfl)
    | _ => rfl

theorem sectionRun_queue {capacity : Nat} {c : Sections TaskQueue QueueRequest QueuePlace}
    {trace : List (Nat × QueueResult)} (run : SectionRun QueuePlace queueSummary (taskQueueInit capacity) c trace) :
    ∃ s, QueueRun capacity s (trace.filterMap QueueResult.event?) ∧ s.sections = c := by
  refine Run.invariant (fun c trace => ∃ s, QueueRun capacity s (trace.filterMap QueueResult.event?) ∧ s.sections = c)
    ⟨_, .start, rfl⟩ ?_ run
  rintro _ d trace events action _ ⟨s, sections, rfl⟩ _ stepped
  obtain ⟨other, rfl⟩ := QueueAction.section_surjective action
  have same := sectionStep_queue s other
  rw [stepped, Option.map_some, eq_comm, Option.map_eq_some_iff] at same
  obtain ⟨⟨t, reported⟩, moved, same⟩ := same
  simp only [Prod.mk.injEq] at same
  refine ⟨t, ?_, same.1⟩
  rw [List.filterMap_append, ← same.2]
  exact sections.next trivial moved

theorem queueRun_sections {capacity : Nat} {s : QueueState} {events : List QueueEvent} (run : QueueRun capacity s events) :
    ∃ trace, SectionRun QueuePlace queueSummary (taskQueueInit capacity) s.sections trace ∧
      trace.filterMap QueueResult.event? = events := by
  refine Run.invariant (fun s events => ∃ trace, SectionRun QueuePlace queueSummary (taskQueueInit capacity)
    s.sections trace ∧ trace.filterMap QueueResult.event? = events) ⟨[], .start, rfl⟩ ?_ run
  rintro s t _ reported action _ ⟨trace, sections, rfl⟩ _ stepped
  have same := sectionStep_queue s action
  rw [stepped, Option.map_some, Option.map_eq_some_iff] at same
  obtain ⟨⟨d, events⟩, moved, same⟩ := same
  simp only [Prod.mk.injEq] at same
  obtain ⟨rfl, rfl⟩ := same
  exact ⟨trace ++ events, sections.next trivial moved, List.filterMap_append⟩

/-! ## The queue under its mutex -/

/-- Run statement by statement, any number of threads get from the queue what they get when each
critical section is one step, and nothing else. -/
theorem task_queue_sections_suffice (capacity : Nat) (events : List QueueEvent) :
    (∃ s trace, StatementRun queueCode (taskQueueInit capacity) s trace ∧
        trace.filterMap QueueResult.event? = events) ↔ ∃ s, QueueRun capacity s events := by
  constructor
  · rintro ⟨s, trace, run, rfl⟩
    obtain ⟨c, sections⟩ := (same_traces queueCode_summarises).mp ⟨s, run⟩
    obtain ⟨t, queue, _⟩ := sectionRun_queue sections
    exact ⟨t, queue⟩
  · rintro ⟨s, run⟩
    obtain ⟨trace, sections, same⟩ := queueRun_sections run
    obtain ⟨t, statements⟩ := (same_traces queueCode_summarises).mpr ⟨_, sections⟩
    exact ⟨t, trace, statements, same⟩

/-- At every moment at most one thread is inside a function, which it can leave on its own; the
tasks handed out are the first of those accepted, and when the mutex is free the ring holds
the others. -/
theorem task_queue_statements {capacity : Nat} (positive : 0 < capacity)
    {s : Statements TaskQueue QueueRequest QueuePlace} {trace : List (Nat × QueueResult)}
    (run : StatementRun queueCode (taskQueueInit capacity) s trace) :
    let events := trace.filterMap QueueResult.event?
    (∀ i j place other, s.threads i = .inside place → s.threads j = .inside other → i = j) ∧
    (∀ i, s.lock = some i → ∃ n t later,
      perform (statementStep queueCode) (List.replicate n (.turn i)) s = some (t, later) ∧ t.lock = none) ∧
    deliveredPops events <+: acceptedPushes events ∧
    (s.lock = none → s.shared.count ≤ capacity ∧
      deliveredPops events ++ Ring.entries s.shared.items s.shared.head s.shared.count = acceptedPushes events) := by
  intro events
  obtain ⟨c, sections, follows⟩ := StatementRun.follows queueCode_summarises run
  obtain ⟨t, queue, rfl⟩ := sectionRun_queue sections
  obtain ⟨size, pending, holds, order⟩ := queue.conserved positive
  refine ⟨fun i j place other => follows.exclusive, fun i => follows.comes_free queueCode_summarises,
    ⟨pending, order⟩, fun free => ?_⟩
  rw [follows.free free]
  exact ⟨by rw [← size]; exact holds.bounded, by rw [← order, ← holds.unread]; rfl⟩

/-- A push between its two writes to the ring, with a pop waiting for the mutex: the count does
not know of the task yet, and the push can still be finished. -/
theorem task_queue_statements_torn :
    let task : CompareTask := ⟨⟨[113], by decide⟩⟩
    let actions : List (Action QueueRequest) := .call 0 (.push task) :: .call 1 .pop :: List.replicate 6 (.turn 0)
    ∃ s trace, perform (statementStep queueCode) actions (statementsFrom (taskQueueInit 2)) = some (s, trace) ∧
      s.lock = some 0 ∧ s.shared.tail = 1 ∧ s.shared.count = 0 ∧
      ∃ n t later, perform (statementStep queueCode) (List.replicate n (.turn 0)) s = some (t, later) ∧ t.lock = none := by
  intro task actions
  refine ⟨_, _, rfl, rfl, rfl, rfl, ?_⟩
  exact (task_queue_statements Nat.two_pos
    (Run.of_perform (fun action (_ : action ∈ actions) _ => trivial) rfl)).2.1 0 rfl

end Verdiff
