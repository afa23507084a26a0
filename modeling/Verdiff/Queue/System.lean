import Verdiff.Library.Transition
import Verdiff.Queue.TaskQueue
import Mathlib.Logic.Function.Basic

/-! Any number of threads calling the queue primitives in any order.

A thread between calls may start any call. A waiting thread may be woken at any
time: every wakeup of a signal or of the broadcast is such a step, and so is every
spurious one.
-/

set_option autoImplicit false

namespace Verdiff
open Transition

/-- Where a thread stands in the queue's code. -/
inductive QueueCall where
  | outside
  | pushing (task : CompareTask)
  | waitingNotFull (task : CompareTask)
  | popping
  | waitingNotEmpty
  | stopping
  deriving DecidableEq

inductive QueueRequest where
  | push (task : CompareTask)
  | pop
  | shutdown

def QueueRequest.start : QueueRequest → QueueCall
  | .push task => .pushing task
  | .pop => .popping
  | .shutdown => .stopping

structure QueueState where
  queue : TaskQueue
  threads : Nat → QueueCall

def QueueState.move (s : QueueState) (thread : Nat) (call : QueueCall) : QueueState :=
  { s with threads := Function.update s.threads thread call }

inductive QueueAction where
  | call (thread : Nat) (request : QueueRequest)
  | enter (thread : Nat)
  | wake (thread : Nat)

/-- A returned call: `task_queue_push` with its code, `task_queue_pop` with its task
or, for `false`, with none. -/
inductive QueueEvent where
  | pushed (thread : Nat) (task : CompareTask) (rc : Rc)
  | popped (thread : Nat) (task : Option CompareTask)

/-- One critical section, from the lock or a wakeup to the next wait or unlock. -/
def queueEnter (s : QueueState) (thread : Nat) : Option (QueueState × List QueueEvent) :=
  match s.threads thread with
  | .pushing task =>
    match taskQueuePush s.queue task with
    | .wait => some (s.move thread (.waitingNotFull task), [])
    | .canceled => some (s.move thread .outside, [.pushed thread task Fault.ECANCELED.code])
    | .accepted queue => some ({ s with queue := queue }.move thread .outside, [.pushed thread task 0])
  | .popping =>
    match taskQueuePop s.queue with
    | .wait => some (s.move thread .waitingNotEmpty, [])
    | .drained => some (s.move thread .outside, [.popped thread none])
    | .taken task queue => some ({ s with queue := queue }.move thread .outside, [.popped thread (some task)])
  | .stopping => some ({ s with queue := taskQueueShutdown s.queue }.move thread .outside, [])
  -- A thread that waits or is not in a call has no section to enter.
  | _ => none

def queueStep (s : QueueState) : QueueAction → Option (QueueState × List QueueEvent)
  | .call thread request =>
    if s.threads thread = .outside then some (s.move thread request.start, []) else none
  | .enter thread => queueEnter s thread
  -- `pthread_cond_wait` is left through the lock, in front of the loop condition.
  | .wake thread =>
    match s.threads thread with
    | .waitingNotFull task => some (s.move thread (.pushing task), [])
    | .waitingNotEmpty => some (s.move thread .popping, [])
    | _ => none

def queueStart (capacity : Nat) : QueueState := ⟨taskQueueInit capacity, fun _ => .outside⟩

abbrev QueueRun (capacity : Nat) :=
  Run queueStep (fun _ _ => True) (queueStart capacity)

/-- The tasks of the pushes that returned zero, in push order. -/
def acceptedPushes : List QueueEvent → List CompareTask :=
  List.filterMap fun
    | .pushed _ task 0 => some task
    | _ => none

def deliveredPops : List QueueEvent → List CompareTask :=
  List.filterMap fun
    | .popped _ task => task
    | _ => none

@[simp] theorem acceptedPushes_append (first second : List QueueEvent) :
    acceptedPushes (first ++ second) = acceptedPushes first ++ acceptedPushes second :=
  List.filterMap_append

@[simp] theorem deliveredPops_append (first second : List QueueEvent) :
    deliveredPops (first ++ second) = deliveredPops first ++ deliveredPops second :=
  List.filterMap_append

/-- Everything one step can do to the ring. -/
inductive QueueMove (s t : QueueState) : List QueueEvent → Prop where
  | quiet : t.queue = s.queue → QueueMove s t []
  | shutdown : t.queue = taskQueueShutdown s.queue → QueueMove s t []
  | canceled (thread : Nat) (task : CompareTask) : s.queue.shutdown = true → t.queue = s.queue →
      QueueMove s t [.pushed thread task Fault.ECANCELED.code]
  | accepted (thread : Nat) (task : CompareTask) : taskQueuePush s.queue task = .accepted t.queue →
      QueueMove s t [.pushed thread task 0]
  | drained (thread : Nat) : s.queue.shutdown = true → s.queue.count = 0 → t.queue = s.queue →
      QueueMove s t [.popped thread none]
  | taken (thread : Nat) (task : CompareTask) : taskQueuePop s.queue = .taken task t.queue →
      QueueMove s t [.popped thread (some task)]

theorem queueEnter_move {s t : QueueState} {thread : Nat} {events : List QueueEvent}
    (entered : queueEnter s thread = some (t, events)) : QueueMove s t events := by
  unfold queueEnter at entered
  cases call : s.threads thread with
  | outside => simp [call] at entered
  | waitingNotFull task => simp [call] at entered
  | waitingNotEmpty => simp [call] at entered
  | pushing task =>
    simp only [call] at entered
    cases pass : taskQueuePush s.queue task with
    | wait => simp only [pass] at entered; cases entered; exact .quiet rfl
    | canceled =>
      simp only [pass] at entered
      cases entered
      exact .canceled thread task (taskQueuePush_canceled.mp pass) rfl
    | accepted queue => simp only [pass] at entered; cases entered; exact .accepted thread task pass
  | popping =>
    simp only [call] at entered
    cases pass : taskQueuePop s.queue with
    | wait => simp only [pass] at entered; cases entered; exact .quiet rfl
    | drained =>
      simp only [pass] at entered
      cases entered
      obtain ⟨stopped, empty⟩ := taskQueuePop_drained.mp pass
      exact .drained thread stopped empty rfl
    | taken task queue => simp only [pass] at entered; cases entered; exact .taken thread task pass
  | stopping => simp only [call] at entered; cases entered; exact .shutdown rfl

theorem queueStep_move {s t : QueueState} {action : QueueAction} {events : List QueueEvent}
    (stepped : queueStep s action = some (t, events)) : QueueMove s t events := by
  cases action with
  | enter thread => exact queueEnter_move stepped
  | call thread request =>
    simp only [queueStep] at stepped
    split at stepped
    · cases stepped; exact .quiet rfl
    · cases stepped
  | wake thread =>
    simp only [queueStep] at stepped
    split at stepped
    · cases stepped; exact .quiet rfl
    · cases stepped; exact .quiet rfl
    · cases stepped

/-- Delivered tasks and unread tasks together are the accepted tasks, in order. -/
structure Conserved (capacity : Nat) (s : QueueState) (trace : List QueueEvent) : Prop where
  capacity_eq : s.queue.capacity = capacity
  fifo : ∃ pending, s.queue.Holds pending ∧ deliveredPops trace ++ pending = acceptedPushes trace

theorem QueueMove.conserved {capacity : Nat} {s t : QueueState} {trace events : List QueueEvent}
    (move : QueueMove s t events) (before : Conserved capacity s trace) :
    Conserved capacity t (trace ++ events) := by
  obtain ⟨size, pending, holds, order⟩ := before
  cases move with
  | quiet same =>
    rw [List.append_nil]
    exact ⟨same ▸ size, pending, same ▸ holds, order⟩
  | shutdown same =>
    rw [List.append_nil]
    exact ⟨by rw [same]; exact size, pending, by rw [same]; exact holds.shutdown, order⟩
  | canceled thread task stopped same =>
    refine ⟨same ▸ size, pending, same ▸ holds, ?_⟩
    simpa [acceptedPushes, deliveredPops, Fault.ECANCELED] using order
  | accepted thread task pushed =>
    obtain ⟨-, -, keeps, -, extended⟩ := taskQueuePush_accepted holds pushed
    refine ⟨keeps.trans size, pending ++ [task], extended, ?_⟩
    rw [acceptedPushes_append, deliveredPops_append, ← order]
    simp [acceptedPushes, deliveredPops]
  | drained thread stopped empty same =>
    refine ⟨same ▸ size, pending, same ▸ holds, ?_⟩
    simpa [acceptedPushes, deliveredPops] using order
  | taken thread task popped =>
    obtain ⟨-, keeps, -, rest, rfl, shrunk⟩ := taskQueuePop_taken holds popped
    refine ⟨keeps.trans size, rest, shrunk, ?_⟩
    rw [acceptedPushes_append, deliveredPops_append, ← List.append_nil (acceptedPushes trace), ← order]
    simp [acceptedPushes, deliveredPops]

theorem QueueRun.conserved {capacity : Nat} (positive : 0 < capacity) {s : QueueState}
    {trace : List QueueEvent} (run : QueueRun capacity s trace) : Conserved capacity s trace := by
  refine Run.invariant (Conserved capacity) ?_ ?_ run
  · exact ⟨rfl, [], .init positive, rfl⟩
  · intro s t trace events action _ before _ stepped
    exact (queueStep_move stepped).conserved before

namespace QueueMove

variable {s t : QueueState} {events : List QueueEvent} {pending : List CompareTask}

theorem appends (move : QueueMove s t events) (holds : s.queue.Holds pending) {thread : Nat} {task : CompareTask}
    (pushed : .pushed thread task 0 ∈ events) :
    s.queue.count < s.queue.capacity ∧ t.queue.Holds (pending ++ [task]) := by
  -- A push that returns zero has found room and puts its task behind the unread ones.
  cases move <;> simp [Fault.ECANCELED] at pushed
  case accepted accepted =>
    obtain ⟨rfl, rfl⟩ := pushed
    obtain ⟨-, -, keeps, grown, extended⟩ := taskQueuePush_accepted holds accepted
    have room := extended.bounded
    exact ⟨by omega, extended⟩

theorem stays_shut (move : QueueMove s t events) (holds : s.queue.Holds pending) (stopped : s.queue.shutdown = true) :
    t.queue.shutdown = true ∧ ∀ thread task rc, .pushed thread task rc ∈ events →
      rc = Fault.ECANCELED.code ∧ t.queue = s.queue := by
  -- Shutdown is for ever, and pushes behind it change nothing.
  cases move with
  | quiet same => exact ⟨same ▸ stopped, by simp⟩
  | shutdown same => exact ⟨by rw [same]; rfl, by simp⟩
  | canceled thread task _ same =>
    refine ⟨same ▸ stopped, ?_⟩
    intro other given rc member
    simp only [List.mem_singleton, QueueEvent.pushed.injEq] at member
    exact ⟨member.2.2, same⟩
  | accepted thread task pushed =>
    have running := (taskQueuePush_accepted holds pushed).1
    simp [stopped] at running
  | drained thread _ _ same => exact ⟨same ▸ stopped, by simp⟩
  | taken thread task popped => exact ⟨(taskQueuePop_taken holds popped).1.trans stopped, by simp⟩

theorem drained_empty (move : QueueMove s t events) (holds : s.queue.Holds pending) {thread : Nat}
    (popped : .popped thread none ∈ events) :
    s.queue.shutdown = true ∧ s.queue.count = 0 ∧ pending = [] := by
  -- A pop returns without a task only when the queue is shut down and nothing is unread.
  cases move <;> simp at popped
  case drained stopped empty same =>
    exact ⟨stopped, empty, List.length_eq_zero_iff.mp (by rw [holds.length_pending, empty])⟩

end QueueMove

theorem queueStep_enter_canceled {s : QueueState} {thread : Nat} {task : CompareTask}
    (calling : s.threads thread = .pushing task) (stopped : s.queue.shutdown = true) :
    queueStep s (.enter thread) =
      some (s.move thread .outside, [.pushed thread task Fault.ECANCELED.code]) := by
  simp [queueStep, queueEnter, calling, taskQueuePush_canceled.mpr stopped]

/-- FIFO order without loss or duplication, through every wrap of the ring, and
draining after shutdown. -/
theorem task_queue_fifo {capacity : Nat} (positive : 0 < capacity) {s : QueueState}
    {trace : List QueueEvent} (run : QueueRun capacity s trace) :
    (deliveredPops trace ++ Ring.entries s.queue.items s.queue.head s.queue.count =
        acceptedPushes trace ∧
      s.queue.count ≤ capacity ∧ s.queue.tail = (s.queue.head + s.queue.count) % capacity) ∧
    ∀ action t events, queueStep s action = some (t, events) →
      (∀ thread task, .pushed thread task 0 ∈ events →
        s.queue.count < capacity ∧
        Ring.entries t.queue.items t.queue.head t.queue.count =
          Ring.entries s.queue.items s.queue.head s.queue.count ++ [task]) ∧
      (s.queue.shutdown = true → t.queue.shutdown = true ∧
        (∀ thread task rc, .pushed thread task rc ∈ events →
          rc = Fault.ECANCELED.code ∧ t.queue = s.queue) ∧
        ∀ thread task, s.threads thread = .pushing task →
          queueStep s (.enter thread) =
            some (s.move thread .outside, [.pushed thread task Fault.ECANCELED.code])) ∧
      (∀ thread, .popped thread none ∈ events →
        s.queue.shutdown = true ∧ s.queue.count = 0 ∧ deliveredPops trace = acceptedPushes trace) := by
  obtain ⟨size, pending, holds, order⟩ := run.conserved positive
  refine ⟨⟨holds.unread ▸ order, size ▸ holds.bounded, size ▸ holds.tail_eq⟩, ?_⟩
  intro action t events stepped
  have move := queueStep_move stepped
  refine ⟨?_, ?_, ?_⟩
  · intro thread task pushed
    obtain ⟨room, extended⟩ := move.appends holds pushed
    exact ⟨size ▸ room, by rw [extended.unread, holds.unread]⟩
  · intro stopped
    obtain ⟨stays, canceled⟩ := move.stays_shut holds stopped
    exact ⟨stays, canceled, fun thread task calling => queueStep_enter_canceled calling stopped⟩
  · intro thread popped
    obtain ⟨stopped, empty, nothing⟩ := move.drained_empty holds popped
    exact ⟨stopped, empty, by simpa [nothing] using order⟩

/-- Two pushes, a pop and a third push on a ring of two: the third task wraps to
position zero and one entry in front of it is still unread. -/
theorem task_queue_fifo_wrapped :
    let task : CompareTask := ⟨⟨[97], by decide⟩⟩
    let actions : List QueueAction :=
      [.call 0 (.push task), .enter 0, .call 0 (.push task), .enter 0, .call 1 .pop, .enter 1,
        .call 2 (.push task), .enter 2]
    ∃ s trace, perform queueStep actions (queueStart 2) = some (s, trace) ∧ s.queue.tail = 1 ∧
      deliveredPops trace ++ Ring.entries s.queue.items s.queue.head s.queue.count =
        acceptedPushes trace := by
  intro task actions
  refine ⟨_, _, rfl, by decide +kernel, ?_⟩
  exact (task_queue_fifo (show 0 < 2 by decide)
    (Run.of_perform (fun action (_ : action ∈ actions) _ => trivial) rfl)).1.1

end Verdiff
