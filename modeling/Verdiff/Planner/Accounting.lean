import Verdiff.Planner.Liveness

/-! Where every path is while the planner runs.

The trace is the ledger. A candidate is enqueued once, popped once and compared once:
the ring is what is enqueued and not popped, the workers' hands are what is popped and
not compared. The result set holds exactly the settled events.
-/

set_option autoImplicit false

namespace Verdiff

/-! ## Reading the trace -/

namespace PlanEvent

/-- The code of the call the event reports; zero where it reports none. -/
def rc : PlanEvent → Rc
  | .presence _ rc => rc
  | .enqueued _ rc => rc
  | .popped _ _ => 0
  | .compared _ _ _ rc => rc
  | .errorSet rc => rc

def presented? : PlanEvent → Option ChangeRecord
  | .presence record rc => if rc = 0 then some record else none
  | _ => none

def enqueued? : PlanEvent → Option CString
  | .enqueued path rc => if rc = 0 then some path else none
  | _ => none

def popped? : PlanEvent → Option CString
  | .popped _ path => some path
  | _ => none

def compared? : PlanEvent → Option CString
  | .compared _ path _ _ => some path
  | _ => none

def code? : PlanEvent → Option Rc
  | .errorSet rc => some rc
  | _ => none

def settled? (context : CompareContext) : PlanEvent → Option (CString × Outcome)
  | .presence record rc => if rc = 0 then some (record.path, .pushed record) else none
  | .compared _ path env rc =>
    if rc = 0 then
      match compareVerdict context path env with
      | .ok outcome => some (path, outcome)
      | .error _ => none
    else none
  | _ => none

def byMain : PlanEvent → Bool
  | .presence _ _ | .enqueued _ _ => true
  | _ => false

theorem presented?_of_not_byMain {event : PlanEvent} (other : event.byMain = false) : event.presented? = none := by
  cases event with
  | presence record rc => cases other
  | _ => rfl

theorem enqueued?_of_not_byMain {event : PlanEvent} (other : event.byMain = false) : event.enqueued? = none := by
  cases event with
  | enqueued path rc => cases other
  | _ => rfl

end PlanEvent

open PlanEvent

def WorkerState.hand : WorkerState → List CString
  | .comparing task => [task.relativePath]
  | _ => []

@[simp] theorem WorkerState.hand_wake (worker : WorkerState) : worker.wake.hand = worker.hand := by
  cases worker <;> rfl

def inHand (workers : List WorkerState) : List CString := workers.flatMap WorkerState.hand

@[simp] theorem inHand_wake (workers : List WorkerState) :
    inHand (workers.map WorkerState.wake) = inHand workers := by
  simp [inHand, List.flatMap_map]

theorem inHand_set {workers : List WorkerState} {i : Nat} {old : WorkerState} (new : WorkerState)
    (stands : workers[i]? = some old) :
    (inHand (workers.set i new) ++ old.hand).Perm (inHand workers ++ new.hand) := by
  obtain ⟨inside, rfl⟩ := List.getElem?_eq_some_iff.mp stands
  rw [List.set_eq_take_append_cons_drop, if_pos inside]
  conv_rhs => rw [← List.take_append_drop i workers, ← List.getElem_cons_drop inside]
  simp only [inHand, List.flatMap_append, List.flatMap_cons]
  rw [List.perm_iff_count]
  intro path
  simp only [List.count_append]
  omega

theorem inHand_set_empty {workers : List WorkerState} {i : Nat} {old new : WorkerState}
    (stands : workers[i]? = some old) (before : old.hand = []) (after : new.hand = []) :
    (inHand (workers.set i new)).Perm (inHand workers) := by
  simpa [before, after] using inHand_set new stands

theorem inHand_signalled {workers woken : List WorkerState} {wake : Nat}
    (signalled : signalNotEmpty workers wake = some woken) : (inHand woken).Perm (inHand workers) := by
  rcases signalNotEmpty_some signalled with ⟨_, rfl⟩ | ⟨waiter, rfl⟩
  · exact .refl _
  · exact inHand_set_empty waiter rfl rfl

variable {context : PlanContext} {s t : PlanState} {action : PlanAction} {trace events : List PlanEvent}

/-! ## The candidates -/

structure Handed (s : PlanState) (trace : List PlanEvent) : Prop where
  ring : ∃ pending, s.queue.Holds pending ∧
    trace.filterMap enqueued? = trace.filterMap popped? ++ pending.map CompareTask.relativePath
  hands : (trace.filterMap popped?).Perm (trace.filterMap compared? ++ inHand s.workers)

theorem Handed.quiet (handed : Handed s trace)
    (queue : ∀ pending, s.queue.Holds pending → t.queue.Holds pending)
    (hands : (inHand t.workers).Perm (inHand s.workers)) (pushes : events.filterMap enqueued? = [])
    (pops : events.filterMap popped? = []) (compares : events.filterMap compared? = []) :
    Handed t (trace ++ events) := by
  obtain ⟨pending, holds, order⟩ := handed.ring
  constructor
  · exact ⟨pending, queue pending holds, by simp [pushes, pops, order]⟩
  · simpa [pops, compares] using handed.hands.trans (hands.symm.append_left _)

theorem Handed.accepted {i wake : Nat} {path : CString} {queue : TaskQueue} {workers : List WorkerState}
    (handed : Handed s trace) (pushed : taskQueuePush s.queue ⟨path⟩ = .accepted queue)
    (signalled : signalNotEmpty s.workers wake = some workers) :
    Handed { s with main := .scanningA (i + 1), queue := queue, workers := workers }
      (trace ++ [.enqueued path 0]) := by
  obtain ⟨pending, holds, order⟩ := handed.ring
  obtain ⟨_, _, _, _, extended⟩ := taskQueuePush_accepted holds pushed
  constructor
  · exact ⟨pending ++ [⟨path⟩], extended, by simp [List.filterMap_cons, enqueued?, popped?, order]⟩
  · simpa [List.filterMap_cons, popped?, compared?] using
      handed.hands.trans ((inHand_signalled signalled).symm.append_left _)

theorem Handed.taken {i : Nat} {task : CompareTask} {queue : TaskQueue} {stage : MainState} (handed : Handed s trace)
    (ready : s.workers[i]? = some .ready) (popped : taskQueuePop s.queue = .taken task queue) :
    Handed ({ s with queue := queue, main := stage }.setWorker i (.comparing task))
      (trace ++ [.popped i task.relativePath]) := by
  -- The task leaves the ring for the worker's hand in one step.
  obtain ⟨pending, holds, order⟩ := handed.ring
  obtain ⟨_, _, _, rest, rfl, left⟩ := taskQueuePop_taken holds popped
  constructor
  · exact ⟨rest, left, by simp [List.filterMap_cons, enqueued?, popped?, order]⟩
  · have moved := inHand_set (.comparing task) ready
    simp only [WorkerState.hand, List.append_nil] at moved
    have taken := handed.hands.append_right [task.relativePath]
    rw [List.append_assoc] at taken
    replace taken := taken.trans (moved.symm.append_left _)
    simpa [List.filterMap_cons, popped?, compared?] using taken

theorem Handed.compared {i : Nat} {task : CompareTask} {env : CompareEnv} {rc : Rc} {results : ResultSet}
    (handed : Handed s trace) (comparing : s.workers[i]? = some (.comparing task)) :
    Handed ({ s with results := results }.setWorker i (if rc = 0 then .ready else .failing rc))
      (trace ++ [.compared i task.relativePath env rc]) := by
  -- Compared or failed, the worker's hand is empty again.
  obtain ⟨pending, holds, order⟩ := handed.ring
  constructor
  · exact ⟨pending, holds, by simp [List.filterMap_cons, enqueued?, popped?, order]⟩
  · have moved := inHand_set (if rc = 0 then .ready else .failing rc) comparing
    have empty : (if rc = 0 then WorkerState.ready else .failing rc).hand = [] := by split <;> rfl
    rw [empty, List.append_nil] at moved
    have given := handed.hands.trans ((List.perm_append_comm.trans moved).symm.append_left _)
    simpa [List.filterMap_cons, popped?, compared?, WorkerState.hand] using given

theorem Handed.setWorker {i : Nat} {old new : WorkerState} {code : Rc} (handed : Handed s trace)
    (stands : s.workers[i]? = some old) (before : old.hand = []) (after : new.hand = [])
    (pushes : events.filterMap enqueued? = []) (pops : events.filterMap popped? = [])
    (compares : events.filterMap compared? = []) :
    Handed ({ s with firstError := code }.setWorker i new) (trace ++ events) :=
  handed.quiet (fun _ holds => holds) (inHand_set_empty stands before after) pushes pops compares

theorem PlanMove.handed (move : PlanMove context s action t events) (handed : Handed s trace) :
    Handed t (trace ++ events) := by
  cases move with
  | created => exact handed.quiet (fun _ holds => holds) (by simp [inHand, WorkerState.hand]) rfl rfl rfl
  | abandoned => exact handed.quiet (fun _ holds => holds.shutdown) (by simp) rfl rfl rfl
  | stopped => exact handed.quiet (fun _ holds => holds.shutdown) (by simp) rfl rfl rfl
  | pushAccepted choice i path queue workers standing pushed signalled => exact handed.accepted pushed signalled
  | pushFaulted choice i path standing failed =>
    exact handed.quiet (fun _ holds => holds) (.refl _) (by simp [enqueued?, failed]) rfl rfl
  | popWaits i env ready => exact handed.setWorker ready rfl rfl rfl rfl rfl
  | popDrained i env ready => exact handed.setWorker ready rfl rfl rfl rfl rfl
  | popTaken i env task queue ready popped => exact handed.taken ready popped
  | compared i env task rc results comparing => exact handed.compared comparing
  | errorSet i env rc failing => exact handed.setWorker failing rfl rfl rfl rfl rfl
  | workerStopped i env stopping =>
    refine handed.quiet (fun _ holds => holds.shutdown) ?_ rfl rfl rfl
    have stands : (s.workers.map WorkerState.wake)[i]? = some .stopping := by simp [stopping, WorkerState.wake]
    simpa [WorkerState.hand] using inHand_set .exited stands
  | wokenWorker i waiting => exact handed.setWorker waiting rfl rfl rfl rfl rfl
  | popFaulted i asleep =>
    rcases asleep with ready | waiting
    · exact handed.setWorker ready rfl rfl rfl rfl rfl
    · exact handed.setWorker waiting rfl rfl rfl rfl rfl
  | errorFaulted i rc failing => exact handed.setWorker failing rfl rfl rfl rfl rfl
  | stopFaulted i stopping => exact handed.setWorker stopping rfl rfl rfl rfl rfl
  | _ => exact handed.quiet (fun _ holds => holds) (.refl _) rfl rfl rfl

/-! ## The result set -/

/-- Every compared event that returned zero is a call that recorded its verdict. -/
structure Tracked (context : PlanContext) (s : PlanState) (trace : List PlanEvent) : Prop where
  tracks : s.results.Tracks ((trace.filterMap (settled? context.toCompareContext)).map Prod.snd)
  verdicts : ∀ worker path env, .compared worker path env 0 ∈ trace → ∃ outcome results,
    compareVerdict context.toCompareContext path env = .ok outcome ∧
    (compareCandidateFile context.toCompareContext path env results).1 = 0 ∧
    results.Recorded outcome (compareCandidateFile context.toCompareContext path env results).2

theorem Tracked.quiet (tracked : Tracked context s trace) (results : t.results = s.results)
    (silent : events.filterMap (settled? context.toCompareContext) = [])
    (calls : ∀ worker path env rc, .compared worker path env rc ∉ events) :
    Tracked context t (trace ++ events) := by
  constructor
  · simpa [silent, results] using tracked.tracks
  · intro worker path env member
    rcases List.mem_append.mp member with earlier | now
    · exact tracked.verdicts worker path env earlier
    · exact absurd now (calls worker path env 0)

theorem Tracked.pushPresence {record : ChangeRecord} {allocs : PushAllocs} {next : MainState}
    (tracked : Tracked context s trace) :
    Tracked context (pushPresence s next record allocs).1
      (trace ++ (Verdiff.pushPresence s next record allocs).2) := by
  constructor
  · change (resultSetPush s.results record allocs).2.Tracks
      ((List.filterMap _ (trace ++ [.presence record (resultSetPush s.results record allocs).1])).map Prod.snd)
    rcases tracked.tracks.push record allocs with ⟨ok, pushed⟩ | ⟨failed, _, same⟩
    · simpa [ok, settled?] using pushed
    · simpa [failed, settled?, Fault.ENOMEM] using same
  · intro worker path env member
    rcases List.mem_append.mp member with earlier | now
    · exact tracked.verdicts worker path env earlier
    · simp [Verdiff.pushPresence] at now

theorem compareCandidateFile_tracks {context : CompareContext} {path : CString} {env : CompareEnv}
    {results : ResultSet} {log : List Outcome} (tracks : results.Tracks log)
    (failed : (compareCandidateFile context path env results).1 ≠ 0) :
    (compareCandidateFile context path env results).2.Tracks log := by
  rw [compareCandidateFile_eq] at failed ⊢
  cases verdict : compareVerdict context path env with
  | error rc => exact tracks
  | ok outcome =>
    rw [verdict] at failed
    cases outcome with
    | noted type => exact absurd rfl failed
    | pushed record =>
      rcases tracks.push record env.push with ⟨ok, _⟩ | ⟨_, _, same⟩
      · exact absurd ok failed
      · exact same

theorem ResultSet.Tracks.recorded {set next : ResultSet} {log : List Outcome} {outcome : Outcome}
    (tracks : set.Tracks log) (recorded : set.Recorded outcome next) : next.Tracks (log ++ [outcome]) := by
  cases outcome with
  | pushed record => exact tracks.extended recorded
  | noted type => rw [show next = _ from recorded]; exact tracks.noted type

theorem PlanMove.tracked (move : PlanMove context s action t events) (tracked : Tracked context s trace) :
    Tracked context t (trace ++ events) := by
  cases move with
  | presentA => exact tracked.pushPresence
  | presentB => exact tracked.pushPresence
  | compared i env task rc results comparing answer =>
    have code : (compareCandidateFile context.toCompareContext task.relativePath env s.results).1 = rc := by
      rw [answer]
    have after : (compareCandidateFile context.toCompareContext task.relativePath env s.results).2 = results := by
      rw [answer]
    by_cases ok : rc = 0
    · subst ok
      obtain ⟨outcome, verdict, recorded⟩ := compareCandidateFile_ok code
      constructor
      · have extended := tracked.tracks.recorded recorded
        rw [after] at extended
        simpa [settled?, verdict] using extended
      · intro worker path called member
        rcases List.mem_append.mp member with earlier | now
        · exact tracked.verdicts worker path called earlier
        · simp only [List.mem_singleton, PlanEvent.compared.injEq, and_true] at now
          obtain ⟨rfl, rfl, rfl⟩ := now
          exact ⟨outcome, s.results, verdict, code, recorded⟩
    · constructor
      · have same := compareCandidateFile_tracks tracked.tracks (by rw [code]; exact ok)
        rw [after] at same
        simpa [settled?, ok] using same
      · intro worker path called member
        rcases List.mem_append.mp member with earlier | now
        · exact tracked.verdicts worker path called earlier
        · simp only [List.mem_singleton, PlanEvent.compared.injEq] at now
          exact absurd now.2.2.2.symm ok
  | _ => exact tracked.quiet rfl (by simp [settled?]) (by simp)

/-! ## The scans -/

/-- The main thread is done with the first `i` and `j` slots and no call of it has failed. -/
structure Scanned (context : PlanContext) (trace : List PlanEvent) (i j : Nat) : Prop where
  presented : trace.filterMap presented? = context.recordsA i ++ context.recordsB j
  enqueued : trace.filterMap enqueued? = context.candidatesA i
  clean : ∀ event ∈ trace, event.byMain = true → event.rc = 0

def StageScanned (context : PlanContext) (trace : List PlanEvent) : MainState → Prop
  | .starting | .creating _ => Scanned context trace 0 0
  | .createFailed rc | .abandoning _ rc => rc ≠ 0
  | .scanningA i => i ≤ context.indexA.capacity ∧ Scanned context trace i 0
  | .enqueuing i path | .waitingNotFull i path => i < context.indexA.capacity ∧
    context.slotA i = .candidate path ∧ Scanned context trace i 0
  | .scanningB j => j ≤ context.indexB.capacity ∧ Scanned context trace context.indexA.capacity j
  | .stopping rc | .joining _ rc | .returned rc =>
    rc = 0 → Scanned context trace context.indexA.capacity context.indexB.capacity
  | .reading => Scanned context trace context.indexA.capacity context.indexB.capacity

theorem Scanned.append {i j k l : Nat} (scanned : Scanned context trace i j)
    (presented : context.recordsA i ++ context.recordsB j ++ events.filterMap presented? =
      context.recordsA k ++ context.recordsB l)
    (enqueued : context.candidatesA i ++ events.filterMap enqueued? = context.candidatesA k)
    (clean : ∀ event ∈ events, event.byMain = true → event.rc = 0) :
    Scanned context (trace ++ events) k l := by
  constructor
  · rw [List.filterMap_append, scanned.presented, presented]
  · rw [List.filterMap_append, scanned.enqueued, enqueued]
  · intro event member
    rcases List.mem_append.mp member with earlier | now
    · exact scanned.clean event earlier
    · exact clean event now

theorem Scanned.quiet {i j : Nat} (scanned : Scanned context trace i j)
    (others : ∀ event ∈ events, event.byMain = false) : Scanned context (trace ++ events) i j := by
  have presents : events.filterMap presented? = [] := List.filterMap_eq_nil_iff.mpr fun event member =>
    presented?_of_not_byMain (others event member)
  have enqueues : events.filterMap enqueued? = [] := List.filterMap_eq_nil_iff.mpr fun event member =>
    enqueued?_of_not_byMain (others event member)
  refine scanned.append (by rw [presents, List.append_nil]) (by rw [enqueues, List.append_nil]) ?_
  intro event member byMain
  rw [others event member] at byMain
  cases byMain

theorem StageScanned.quiet {stage : MainState} (ok : StageScanned context trace stage)
    (others : ∀ event ∈ events, event.byMain = false) : StageScanned context (trace ++ events) stage := by
  -- The workers' moves wake the main thread at most, and log nothing of its own.
  cases stage with
  | starting => exact Scanned.quiet ok others
  | creating i => exact Scanned.quiet ok others
  | createFailed rc => exact ok
  | abandoning j rc => exact ok
  | scanningA i => exact ⟨ok.1, ok.2.quiet others⟩
  | enqueuing i path => exact ⟨ok.1, ok.2.1, ok.2.2.quiet others⟩
  | waitingNotFull i path => exact ⟨ok.1, ok.2.1, ok.2.2.quiet others⟩
  | scanningB j => exact ⟨ok.1, ok.2.quiet others⟩
  | stopping rc => exact fun zero => (ok zero).quiet others
  | joining j rc => exact fun zero => (ok zero).quiet others
  | reading => exact Scanned.quiet ok others
  | returned rc => exact fun zero => (ok zero).quiet others

theorem StageScanned.wake {stage : MainState} (ok : StageScanned context trace stage) :
    StageScanned context trace stage.wake := by
  cases stage <;> exact ok

theorem Scanned.presence {i j k l : Nat} {record : ChangeRecord} {allocs : PushAllocs} {next : MainState}
    (scanned : Scanned context trace i j)
    (presented : context.recordsA i ++ context.recordsB j ++ [record] = context.recordsA k ++ context.recordsB l)
    (enqueued : context.candidatesA i = context.candidatesA k)
    (reaches : ∀ log, Scanned context log k l → StageScanned context log next) :
    StageScanned context (trace ++ (pushPresence s next record allocs).2)
      (pushPresence s next record allocs).1.main := by
  change StageScanned context (trace ++ [.presence record (resultSetPush s.results record allocs).1])
    (if (resultSetPush s.results record allocs).1 = 0 then next else .stopping _)
  split
  next ok =>
    refine reaches _ (scanned.append ?_ ?_ ?_)
    · simpa [presented?, ok] using presented
    · simpa [List.filterMap_cons, enqueued?] using enqueued
    · intro event member _
      simp only [List.mem_singleton] at member
      rw [member]
      exact ok
  next failed => exact fun zero => absurd zero failed

theorem Scanned.skippedA {i : Nat} (scanned : Scanned context trace i 0) (plan : context.slotA i = .skip) :
    Scanned context (trace ++ []) (i + 1) 0 := by
  refine scanned.append ?_ ?_ (by simp)
  · simp [context.recordsA_succ, plan, SlotPlan.record?, PlanContext.recordsB]
  · simp [context.candidatesA_succ, plan, SlotPlan.candidate?]

theorem Scanned.accepted {i : Nat} {path : CString} (scanned : Scanned context trace i 0)
    (plan : context.slotA i = .candidate path) : Scanned context (trace ++ [.enqueued path 0]) (i + 1) 0 := by
  refine scanned.append ?_ ?_ ?_
  · simp [context.recordsA_succ, plan, SlotPlan.record?, PlanContext.recordsB, List.filterMap_cons, presented?]
  · simp [context.candidatesA_succ, plan, SlotPlan.candidate?, enqueued?]
  · simp [PlanEvent.rc]

theorem Scanned.skippedB {i j : Nat} (scanned : Scanned context trace i j)
    (plan : ∀ record, context.slotB j ≠ .present record) : Scanned context (trace ++ []) i (j + 1) := by
  -- The second scan never enqueues, so all that counts is that it presents nothing here.
  have nothing : (context.slotB j).record? = none := by
    cases planned : context.slotB j with
    | present record => exact absurd planned (plan record)
    | skip => rfl
    | candidate path => rfl
  refine scanned.append ?_ (by simp) (by simp)
  simp [context.recordsB_succ, nothing]

theorem PlanMove.scanned_presentA {choice : MainChoice} {i : Nat} {record : ChangeRecord}
    (ok : i ≤ context.indexA.capacity ∧ Scanned context trace i 0) (inside : i < context.indexA.capacity)
    (plan : context.slotA i = .present record) :
    StageScanned context (trace ++ (pushPresence s (.scanningA (i + 1)) record choice.push).2)
      (pushPresence s (.scanningA (i + 1)) record choice.push).1.main := by
  refine ok.2.presence ?_ ?_ (fun _ scanned => ⟨inside, scanned⟩)
  · simp [context.recordsA_succ, plan, SlotPlan.record?, PlanContext.recordsB]
  · simp [context.candidatesA_succ, plan, SlotPlan.candidate?]

theorem PlanMove.scanned_presentB {choice : MainChoice} {j : Nat} {record : ChangeRecord}
    (ok : j ≤ context.indexB.capacity ∧ Scanned context trace context.indexA.capacity j)
    (inside : j < context.indexB.capacity) (plan : context.slotB j = .present record) :
    StageScanned context (trace ++ (pushPresence s (.scanningB (j + 1)) record choice.push).2)
      (pushPresence s (.scanningB (j + 1)) record choice.push).1.main := by
  refine ok.2.presence ?_ rfl (fun _ scanned => ⟨inside, scanned⟩)
  simp [context.recordsB_succ, plan, SlotPlan.record?]

theorem StageScanned.silently {old next : MainState} (ok : StageScanned context trace s.main) (standing : s.main = old)
    (goes : StageScanned context trace old → StageScanned context trace next) :
    StageScanned context (trace ++ []) next := by
  rw [List.append_nil]
  exact goes (standing ▸ ok)

theorem PlanMove.scanned_main {choice : MainChoice} (move : PlanMove context s (.main choice) t events)
    (ok : StageScanned context trace s.main) : StageScanned context (trace ++ events) t.main := by
  cases move with
  | startFailed _ standing failed => exact fun zero => absurd zero failed
  | started _ standing => exact ok.silently standing id
  | createFailed _ i standing below failed => exact failed
  | created _ i standing => exact ok.silently standing id
  | poolReady _ i standing => exact ok.silently standing fun scanned => ⟨Nat.zero_le _, scanned⟩
  | abandoned _ rc standing => exact ok.silently standing id
  | abandonJoined _ j rc standing => exact ok.silently standing id
  | abandonEnded _ j rc standing => exact ok.silently standing fun failed zero => absurd zero failed
  | skippedA _ i standing inside plan =>
    rw [standing] at ok
    exact ⟨inside, ok.2.skippedA plan⟩
  | presentA _ i record standing inside plan =>
    rw [standing] at ok
    exact PlanMove.scanned_presentA ok inside plan
  | candidateA _ i path standing inside plan => exact ok.silently standing fun ⟨_, scanned⟩ => ⟨inside, plan, scanned⟩
  | endedA _ i standing outside =>
    exact ok.silently standing fun ⟨below, scanned⟩ => ⟨Nat.zero_le _, Nat.le_antisymm below outside ▸ scanned⟩
  | pushWaits _ i path standing => exact ok.silently standing id
  | pushFaulted _ i path standing failed => exact fun zero => absurd zero failed
  | pushCanceled _ i path standing => exact fun zero => absurd zero Fault.ECANCELED.nonzero
  | pushAccepted _ i path queue workers standing =>
    rw [standing] at ok
    exact ⟨ok.1, ok.2.2.accepted ok.2.1⟩
  | skippedB _ j standing inside plan =>
    rw [standing] at ok
    exact ⟨inside, ok.2.skippedB plan⟩
  | presentB _ j record standing inside plan =>
    rw [standing] at ok
    exact PlanMove.scanned_presentB ok inside plan
  | endedB _ j standing outside =>
    exact ok.silently standing fun ⟨below, scanned⟩ _ => Nat.le_antisymm below outside ▸ scanned
  | stopped _ rc standing => exact ok.silently standing id
  | joined _ j rc standing => exact ok.silently standing id
  | joinEnded _ j rc standing =>
    refine ok.silently standing fun scanned => ?_
    split
    next zero => exact scanned zero
    next => exact scanned
  | read _ standing => exact ok.silently standing fun scanned _ => scanned

theorem PlanMove.scanned (move : PlanMove context s action t events)
    (ok : StageScanned context trace s.main) : StageScanned context (trace ++ events) t.main := by
  cases action with
  | main choice => exact move.scanned_main ok
  | worker i env =>
    cases move with
    | popTaken => exact ok.wake.quiet (by simp [byMain])
    | workerStopped => exact ok.wake.quiet (by simp)
    | compared => exact ok.quiet (by simp [byMain])
    | errorSet => exact ok.quiet (by simp [byMain])
    | popWaits => exact ok.quiet (by simp)
    | popDrained => exact ok.quiet (by simp)
  | popFault i => cases move; exact ok.quiet (by simp)
  | wakeWorker i => cases move; exact ok.quiet (by simp)
  | lockFault i => cases move <;> exact ok.quiet (by simp)
  | wakeMain =>
    cases move with
    | wokenMain i path standing => exact ok.silently standing id
  | mainFault =>
    cases move with
    | abandonFaulted rc standing => exact ok.silently standing id
    | shutdownFaulted rc standing => exact ok.silently standing id
    | readFaulted => exact fun zero => absurd zero Fault.EINVAL.nonzero

/-! ## Every run keeps the ledger -/

/-- The whole account at one moment of a run. -/
structure Accounted (context : PlanContext) (s : PlanState) (trace : List PlanEvent) : Prop where
  handed : Handed s trace
  tracked : Tracked context s trace
  scanned : StageScanned context trace s.main

section
variable {allowed : PlanState → PlanAction → Prop} {results : ResultSet} {progress : ProgressState}

theorem PlanRun.handed (run : PlanRun context allowed results progress s trace) : Handed s trace := by
  refine PlanRun.invariant Handed ?_ (fun _ handed _ move => move.handed handed) run
  exact ⟨⟨[], .init context.capacity_pos, rfl⟩, .refl _⟩

theorem PlanRun.scanned (run : PlanRun context allowed results progress s trace) :
    StageScanned context trace s.main := by
  refine PlanRun.invariant (fun s trace => StageScanned context trace s.main) ?_
    (fun _ scanned _ move => move.scanned scanned) run
  exact ⟨rfl, rfl, by simp⟩

theorem PlanRun.stageOk (run : PlanRun context allowed results progress s trace) :
    StageOk context s.queue s.workers s.main := by
  refine PlanRun.invariant (fun s _ => StageOk context s.queue s.workers s.main) rfl ?_ run
  exact fun _ stage _ move => move.stageOk stage

theorem PlanRun.accounted (run : PlanRun context allowed resultSetInit progress s trace) :
    Accounted context s trace := by
  refine ⟨run.handed, ?_, run.scanned⟩
  refine PlanRun.invariant (Tracked context) ?_ (fun _ tracked _ move => move.tracked tracked) run
  exact ⟨.init, by simp⟩

end

end Verdiff
