import Verdiff.Library.Monitor
import Verdiff.Results

/-! The result set's code statement by statement, under its mutex.

A push moves the count and the counter before the tree, so that the set is torn while a thread
is inside. The insertion into the tree is taken as one statement.
-/

set_option autoImplicit false

namespace Verdiff
open Transition Monitor

/-- The statements behind the mutex, with what the local variables hold. -/
inductive ResultPlace where
  | pushGrow (record : ChangeRecord) (allocs : PushAllocs)
  | pushItem (record : ChangeRecord) (allocs : PushAllocs)
  | pushCount (record : ChangeRecord) (allocs : PushAllocs) (index : Nat)
  | pushCounter (record : ChangeRecord) (allocs : PushAllocs) (index : Nat)
  | pushTree (record : ChangeRecord) (allocs : PushAllocs) (index : Nat)
  | pushUncount (record : ChangeRecord) (allocs : PushAllocs) (rc : Rc)
  | pushUncounter (record : ChangeRecord) (allocs : PushAllocs) (rc : Rc)
  | noteCounter (type : ChangeType)
  | unlock (call : ResultCall) (rc : Rc)

def resultEntry : ResultCall → ResultPlace
  | .push record allocs => .pushGrow record allocs
  | .note type => .noteCounter type

/-- A call returns its code; the call itself is in the report. -/
def resultExec (place : ResultPlace) (set : ResultSet) : ResultSet × Control ResultCall ResultPlace (ResultCall × Rc) :=
  match place with
  | .pushGrow record allocs =>
    match resultSetGrow set allocs.growOk with
    | none => (set, .goto (.unlock (.push record allocs) Fault.ENOMEM.code))
    | some grown => (grown, .goto (.pushItem record allocs))
  | .pushItem record allocs =>
    ({ set with items := set.items.take set.count ++ [record] }, .goto (.pushCount record allocs set.count))
  | .pushCount record allocs index => ({ set with count := set.count + 1 }, .goto (.pushCounter record allocs index))
  | .pushCounter record allocs index => (incrementCounter set record.type, .goto (.pushTree record allocs index))
  | .pushTree record allocs index =>
    let (rc, root) := pathTreeInsert set.orderedRoot set.items index allocs.nodeOk
    ({ set with orderedRoot := root },
      .goto (if rc ≠ 0 then .pushUncount record allocs rc else .unlock (.push record allocs) 0))
  | .pushUncount record allocs rc => ({ set with count := set.count - 1 }, .goto (.pushUncounter record allocs rc))
  | .pushUncounter record allocs rc => (decrementCounter set record.type, .goto (.unlock (.push record allocs) rc))
  | .noteCounter type => (incrementCounter set type, .goto (.unlock (.note type) 0))
  | .unlock call rc => (set, .exit (.leave (call, rc)))

def resultCode : Code ResultSet ResultCall ResultPlace (ResultCall × Rc) := ⟨resultEntry, resultExec⟩

def resultSummary (call : ResultCall) (set : ResultSet) : ResultSet × Exit ResultCall (ResultCall × Rc) :=
  ((call.perform set).2, .leave (call, (call.perform set).1))

theorem pushTree_executes (record : ChangeRecord) (allocs : PushAllocs) {index : Nat} {set : ResultSet} {rc : Rc}
    {root : PathTree} (inserted : pathTreeInsert set.orderedRoot set.items index allocs.nodeOk = (rc, root)) :
    Executes resultCode (.pushTree record allocs index) set
      (if rc ≠ 0 then
        (decrementCounter { set with orderedRoot := root, count := set.count - 1 } record.type,
          .leave (.push record allocs, rc))
      else ({ set with orderedRoot := root }, .leave (.push record allocs, 0))) := by
  have goes : resultExec (.pushTree record allocs index) set = ({ set with orderedRoot := root },
      .goto (if rc ≠ 0 then .pushUncount record allocs rc else .unlock (.push record allocs) 0)) := by
    simp only [resultExec, inserted]
  by_cases failed : rc ≠ 0
  · rw [if_pos failed] at goes ⊢
    exact .step goes (.step rfl (.step rfl (.exit rfl)))
  · rw [if_neg failed] at goes ⊢
    exact .step goes (.exit rfl)

theorem storeRecord_executes {record : ChangeRecord} {allocs : PushAllocs} {grown counted : ResultSet}
    (stored : counted = incrementCounter
      { grown with items := grown.items.take grown.count ++ [record], count := grown.count + 1 } record.type)
    {out : ResultSet × Exit ResultCall (ResultCall × Rc)}
    (later : Executes resultCode (.pushTree record allocs grown.count) counted out) :
    Executes resultCode (.pushItem record allocs) grown out := by
  subst stored
  exact .step rfl (.step rfl (.step rfl later))

theorem resultCode_summarises : Summarises resultCode resultSummary := by
  intro call set
  cases call with
  | note type => exact .step rfl (.exit rfl)
  | push record allocs =>
    change Executes resultCode (.pushGrow record allocs) set _
    simp only [resultSummary, ResultCall.perform, resultSetPush]
    cases grew : resultSetGrow set allocs.growOk with
    | none =>
      have goes : resultExec (.pushGrow record allocs) set =
          (set, .goto (.unlock (.push record allocs) Fault.ENOMEM.code)) := by simp only [resultExec, grew]
      exact .step goes (.exit rfl)
    | some grown =>
      have goes : resultExec (.pushGrow record allocs) set = (grown, .goto (.pushItem record allocs)) := by
        simp only [resultExec, grew]
      obtain ⟨counted, stored⟩ : ∃ counted, counted = incrementCounter
        { grown with items := grown.items.take grown.count ++ [record], count := grown.count + 1 } record.type := ⟨_, rfl⟩
      simp only [← stored]
      cases inserted : pathTreeInsert counted.orderedRoot counted.items grown.count allocs.nodeOk with
      | mk rc root =>
        have whole : Executes resultCode (.pushGrow record allocs) set _ :=
          .step goes (storeRecord_executes stored (pushTree_executes record allocs inserted))
        by_cases failed : rc ≠ 0
        · rw [if_pos failed] at whole
          simpa only [if_pos failed] using whole
        · rw [if_neg failed] at whole
          simpa only [if_neg failed] using whole

/-! ## The set under its mutex -/

/-- The outcomes of the calls that have returned zero, in the order in which they returned. -/
def returnedOutcomes (trace : List (Nat × ResultCall × Rc)) : List Outcome :=
  trace.filterMap fun (_, call, rc) => if rc = 0 then some call.outcome else none

theorem returnedOutcomes_append (trace : List (Nat × ResultCall × Rc)) (i : Nat) (call : ResultCall) (rc : Rc) :
    returnedOutcomes (trace ++ [(i, call, rc)]) =
      if rc = 0 then returnedOutcomes trace ++ [call.outcome] else returnedOutcomes trace := by
  by_cases ok : rc = 0 <;> simp [returnedOutcomes, ok]

/-- What a call has returned: zero, or `ENOMEM` for a push that was refused an allocation. -/
def ResultCall.Returns : ResultCall → Rc → Prop
  | .note _, rc => rc = 0
  | .push _ allocs, rc => rc = 0 ∨ rc = Fault.ENOMEM.code ∧ (allocs.growOk = false ∨ allocs.nodeOk = false)

theorem ResultCall.perform_returns (call : ResultCall) {set : ResultSet} {log : List Outcome} (tracks : set.Tracks log) :
    call.Returns (call.perform set).1 := by
  cases call with
  | note type => rfl
  | push record allocs =>
    rcases tracks.push record allocs with ⟨ok, _⟩ | ⟨failed, _⟩
    · exact .inl ok
    · refine .inr ⟨failed, ?_⟩
      by_contra granted
      simp only [not_or, Bool.not_eq_false] at granted
      have ok := (tracks.push_zero_iff record allocs).mpr ⟨fun _ => granted.1, fun _ => granted.2⟩
      exact Fault.ENOMEM.nonzero (failed.symm.trans ok)

theorem sectionRun_tracks {c : Sections ResultSet ResultCall ResultPlace} {trace : List (Nat × ResultCall × Rc)}
    (run : SectionRun ResultPlace resultSummary resultSetInit c trace) :
    c.shared.Tracks (returnedOutcomes trace) ∧ ∀ i call rc, (i, call, rc) ∈ trace → call.Returns rc := by
  refine Run.invariant (fun (c : Sections ResultSet ResultCall ResultPlace) (trace : List (Nat × ResultCall × Rc)) =>
    c.shared.Tracks (returnedOutcomes trace) ∧ ∀ i call rc, (i, call, rc) ∈ trace → call.Returns rc)
    ⟨ResultSet.Tracks.init, by simp⟩ ?_ run
  intro c d trace events action _ before _ stepped
  obtain ⟨tracks, returns⟩ := before
  have quiet : c.shared.Tracks (returnedOutcomes (trace ++ [])) ∧
      ∀ i call rc, (i, call, rc) ∈ trace ++ [] → call.Returns rc := by
    rw [List.append_nil]
    exact ⟨tracks, returns⟩
  cases action with
  | call i call =>
    simp only [sectionStep] at stepped
    split at stepped
    · cases stepped
      exact quiet
    · cases stepped
  | turn i =>
    simp only [sectionStep] at stepped
    split at stepped
    next call ready =>
      cases stepped
      simp only [resultSummary, Exit.events, returnedOutcomes_append]
      refine ⟨call.perform_tracks tracks, fun j other rc logged => ?_⟩
      rcases List.mem_append.mp logged with earlier | now
      · exact returns j other rc earlier
      · rw [List.mem_singleton] at now
        cases now
        exact call.perform_returns tracks
    · cases stepped
  | wake i =>
    simp only [sectionStep] at stepped
    split at stepped
    · cases stepped
      exact quiet
    · cases stepped

/-- At every moment at most one thread is inside a function, which it can leave on its own; when
the mutex is free the array, the counters and the tree all show the calls that have returned
zero, in the order in which they returned. These are all the notes, and all the pushes that
were not refused an allocation. -/
theorem result_set_statements {s : Statements ResultSet ResultCall ResultPlace} {trace : List (Nat × ResultCall × Rc)}
    (run : StatementRun resultCode resultSetInit s trace) :
    (∀ i j place other, s.threads i = .inside place → s.threads j = .inside other → i = j) ∧
    (∀ i, s.lock = some i → ∃ n t later,
      perform (statementStep resultCode) (List.replicate n (.turn i)) s = some (t, later) ∧ t.lock = none) ∧
    (s.lock = none → s.shared.Tracks (returnedOutcomes trace)) ∧
    ∀ i call rc, (i, call, rc) ∈ trace → call.Returns rc := by
  obtain ⟨c, sections, follows⟩ := StatementRun.follows resultCode_summarises run
  obtain ⟨tracks, returns⟩ := sectionRun_tracks sections
  refine ⟨fun i j place other => follows.exclusive, fun i => follows.comes_free resultCode_summarises, fun free => ?_,
    returns⟩
  rw [follows.free free]
  exact tracks

/-- A push whose record is counted and not in the tree yet, while another thread waits to note a
type; and both calls when they have returned. -/
theorem result_set_statements_torn :
    let record : ChangeRecord := ⟨.empty, .removed, .onlyInSource, 1, 0, .zero⟩
    let begun : List (Action ResultCall) :=
      .call 0 (.push record ⟨true, true⟩) :: .call 1 (.note .unchanged) :: List.replicate 5 (.turn 0)
    let ended := begun ++ List.replicate 2 (.turn 0) ++ List.replicate 3 (.turn 1)
    (∃ s trace, perform (statementStep resultCode) begun (statementsFrom resultSetInit) = some (s, trace) ∧
      s.shared.removedCount = 1 ∧ s.shared.orderedRoot = .null ∧
      ∃ n t later, perform (statementStep resultCode) (List.replicate n (.turn 0)) s = some (t, later) ∧ t.lock = none) ∧
    ∃ s trace, perform (statementStep resultCode) ended (statementsFrom resultSetInit) = some (s, trace) ∧
      s.shared.Tracks [.pushed record, .noted .unchanged] := by
  intro record begun ended
  refine ⟨⟨_, _, rfl, rfl, rfl, ?_⟩, _, _, rfl, ?_⟩
  · exact (result_set_statements (Run.of_perform (fun action (_ : action ∈ begun) _ => trivial) rfl)).2.1 0 rfl
  · exact (result_set_statements (Run.of_perform (fun action (_ : action ∈ ended) _ => trivial) rfl)).2.2.1 rfl

end Verdiff
