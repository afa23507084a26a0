import Verdiff.Common
import Verdiff.Library.Ring

/-! The bounded task queue, one critical section at a time.

A call of `task_queue_push` or `task_queue_pop` that has to wait leaves the section
at `pthread_cond_wait` and enters it again, at the loop condition, once it is woken.
The functions below are one pass through the section. Who is signalled is decided
where the waiting threads are known.
-/

set_option autoImplicit false

namespace Verdiff

structure CompareTask where
  relativePath : CString
  deriving DecidableEq

def CompareTask.zero : CompareTask := ⟨.empty⟩

structure TaskQueue where
  items : List CompareTask
  capacity : Nat
  head : Nat
  tail : Nat
  count : Nat
  shutdown : Bool
  deriving DecidableEq

def taskQueueInit (capacity : Nat) : TaskQueue where
  items := List.replicate capacity .zero
  capacity := capacity
  head := 0
  tail := 0
  count := 0
  shutdown := false

inductive PushPass where
  | wait
  | canceled
  | accepted (queue : TaskQueue)

def taskQueuePush (queue : TaskQueue) (task : CompareTask) : PushPass :=
  if !queue.shutdown && queue.count == queue.capacity then .wait
  else if queue.shutdown then .canceled
  else .accepted { queue with
    items := queue.items.set queue.tail task
    tail := (queue.tail + 1) % queue.capacity
    count := queue.count + 1 }

inductive PopPass where
  | wait
  | drained
  | taken (task : CompareTask) (queue : TaskQueue)

def taskQueuePop (queue : TaskQueue) : PopPass :=
  if !queue.shutdown && queue.count == 0 then .wait
  else if queue.count == 0 then .drained
  else .taken (queue.items.getD queue.head .zero) { queue with
    head := (queue.head + 1) % queue.capacity
    count := queue.count - 1 }

def taskQueueShutdown (queue : TaskQueue) : TaskQueue := { queue with shutdown := true }

/-- The ring is well formed and its unread entries are `pending`, oldest first. -/
structure TaskQueue.Holds (queue : TaskQueue) (pending : List CompareTask) : Prop where
  length : queue.items.length = queue.capacity
  head_lt : queue.head < queue.capacity
  tail_eq : queue.tail = (queue.head + queue.count) % queue.capacity
  bounded : queue.count ≤ queue.capacity
  unread : Ring.entries queue.items queue.head queue.count = pending

namespace TaskQueue.Holds

variable {queue : TaskQueue} {pending : List CompareTask}

theorem init {capacity : Nat} (positive : 0 < capacity) : (taskQueueInit capacity).Holds [] where
  length := by simp [taskQueueInit]
  head_lt := positive
  tail_eq := by simp [taskQueueInit]
  bounded := Nat.zero_le _
  unread := rfl

theorem length_pending (holds : queue.Holds pending) : pending.length = queue.count := by
  rw [← holds.unread, Ring.length_entries]
  rw [holds.length]
  exact Nat.lt_of_le_of_lt (Nat.zero_le _) holds.head_lt

theorem shutdown (holds : queue.Holds pending) : (taskQueueShutdown queue).Holds pending :=
  ⟨holds.length, holds.head_lt, holds.tail_eq, holds.bounded, holds.unread⟩

end TaskQueue.Holds

/-! ## What one pass can do -/

theorem taskQueuePush_wait {queue : TaskQueue} {task : CompareTask} :
    taskQueuePush queue task = .wait ↔ queue.shutdown = false ∧ queue.count = queue.capacity := by
  unfold taskQueuePush
  cases queue.shutdown <;> simp

theorem taskQueuePush_canceled {queue : TaskQueue} {task : CompareTask} :
    taskQueuePush queue task = .canceled ↔ queue.shutdown = true := by
  unfold taskQueuePush
  cases queue.shutdown <;> simp
  split <;> simp

theorem taskQueuePush_accepted {queue next : TaskQueue} {task : CompareTask}
    {pending : List CompareTask} (holds : queue.Holds pending)
    (pushed : taskQueuePush queue task = .accepted next) :
    queue.shutdown = false ∧ next.shutdown = false ∧ next.capacity = queue.capacity ∧
      next.count = queue.count + 1 ∧ next.Holds (pending ++ [task]) := by
  unfold taskQueuePush at pushed
  cases open_ : queue.shutdown with
  | true => simp [open_] at pushed
  -- The loop is only left with room, so the write at the tail does not hit an unread entry.
  | false =>
    simp only [open_, Bool.not_false, Bool.true_and, beq_iff_eq, Bool.false_eq_true,
      ↓reduceIte] at pushed
    split at pushed
    · cases pushed
    next notFull =>
      have room : queue.count < queue.capacity := by have := holds.bounded; omega
      cases pushed
      refine ⟨rfl, rfl, rfl, rfl, ?_⟩
      constructor
      · simpa using holds.length
      · exact holds.head_lt
      · simp only [holds.tail_eq, Nat.mod_add_mod, Nat.add_assoc]
      · exact room
      · simp only [holds.tail_eq, ← holds.length]
        rw [Ring.entries_push _ _ _ _ (by rw [holds.length]; exact room), holds.unread]

theorem taskQueuePop_wait {queue : TaskQueue} :
    taskQueuePop queue = .wait ↔ queue.shutdown = false ∧ queue.count = 0 := by
  unfold taskQueuePop
  cases queue.shutdown <;> by_cases empty : queue.count = 0 <;> simp [empty]

theorem taskQueuePop_drained {queue : TaskQueue} :
    taskQueuePop queue = .drained ↔ queue.shutdown = true ∧ queue.count = 0 := by
  unfold taskQueuePop
  cases queue.shutdown <;> by_cases empty : queue.count = 0 <;> simp [empty]

theorem taskQueuePop_taken {queue next : TaskQueue} {task : CompareTask}
    {pending : List CompareTask} (holds : queue.Holds pending)
    (popped : taskQueuePop queue = .taken task next) :
    next.shutdown = queue.shutdown ∧ next.capacity = queue.capacity ∧
      queue.count = next.count + 1 ∧ ∃ rest, pending = task :: rest ∧ next.Holds rest := by
  unfold taskQueuePop at popped
  split at popped
  · cases popped
  split at popped
  · cases popped
  next nonempty =>
    simp only [beq_iff_eq] at nonempty
    obtain ⟨count, counted⟩ := Nat.exists_eq_succ_of_ne_zero nonempty
    have inside : queue.head < queue.items.length := by rw [holds.length]; exact holds.head_lt
    have split := Ring.entries_pop queue.items queue.head count inside
    cases popped
    refine ⟨rfl, rfl, by simp only [counted]; omega, Ring.entries queue.items ((queue.head + 1) % queue.capacity) count,
      ?_, ?_⟩
    · rw [← holds.unread, counted, split, holds.length, List.getD_eq_getElem?_getD,
        List.getElem?_eq_getElem inside, Option.getD_some]
    · constructor
      · exact holds.length
      · exact Nat.mod_lt _ (Nat.lt_of_le_of_lt (Nat.zero_le _) holds.head_lt)
      · simp only [holds.tail_eq, counted, Nat.succ_eq_add_one, Nat.add_sub_cancel, Nat.mod_add_mod]
        congr 1
        omega
      · have := holds.bounded
        simp only
        omega
      · simp [counted]

end Verdiff
