import Verdiff.Planner.Errors
import Mathlib.Data.Finset.Card

/-! A plan that returns zero has settled every path of both indexes exactly once. -/

set_option autoImplicit false

namespace Verdiff
open Transition PlanEvent

variable {context : PlanContext} {s t : PlanState} {action : PlanAction} {trace events : List PlanEvent}
  {progress : ProgressState}

/-- Zero is only returned by a main thread that has read it. -/
def ReadZero (s : PlanState) : Prop := s.main = .returned 0 → s.firstError = 0 ∧ s.workers ≠ []

theorem ReadZero.worker {i : Nat} {old : WorkerState} (stage : StageOk context s.queue s.workers s.main)
    (stands : s.workers[i]? = some old) (running : old ≠ .exited)
    (main : t.main = s.main ∨ t.main = s.main.wake) : ReadZero t := by
  intro returned
  refine absurd ?_ ((stage.underway stands running).2 0)
  rcases main with same | woken
  · exact same.symm.trans returned
  · rw [woken] at returned
    cases standing : s.main <;> rw [standing] at returned <;> simp_all [MainState.wake]

theorem ReadZero.elsewhere (other : t.main ≠ .returned 0) : ReadZero t := fun returned => absurd returned other

theorem ReadZero.presence {record : ChangeRecord} {allocs : PushAllocs} {next : MainState}
    (other : next ≠ .returned 0) : ReadZero (pushPresence s next record allocs).1 := by
  refine .elsewhere ?_
  change (if (resultSetPush s.results record allocs).1 = 0 then next else .stopping _) ≠ _
  split
  · exact other
  · simp

theorem PlanMove.readZero (move : PlanMove context s action t events)
    (stage : StageOk context s.queue s.workers s.main) (scanned : StageScanned context trace s.main) :
    ReadZero t := by
  cases move with
  | startFailed choice standing failed => exact .elsewhere (by simpa using failed)
  | abandonEnded choice j rc standing =>
    rw [standing] at scanned
    exact .elsewhere (by simpa using (show rc ≠ 0 from scanned))
  | presentA => exact .presence (by simp)
  | presentB => exact .presence (by simp)
  | joinEnded choice j rc standing =>
    refine .elsewhere ?_
    simp only
    split
    · simp
    next failed => simpa using failed
  | read choice standing =>
    rw [standing] at stage
    intro returned
    have zero : s.firstError = 0 := by simpa using returned
    refine ⟨zero, fun empty => ?_⟩
    have pool := stage.1
    have some_ := context.threads_pos
    rw [empty, List.length_nil] at pool
    omega
  | popWaits i env ready => exact .worker stage ready (by simp) (.inl rfl)
  | popDrained i env ready => exact .worker stage ready (by simp) (.inl rfl)
  | popTaken i env task queue ready => exact .worker stage ready (by simp) (.inr rfl)
  | compared i env task rc results comparing => exact .worker stage comparing (by simp) (.inl rfl)
  | errorSet i env rc failing => exact .worker stage failing (by simp) (.inl rfl)
  | workerStopped i env stopping => exact .worker stage stopping (by simp) (.inr rfl)
  | wokenWorker i waiting => exact .worker stage waiting (by simp) (.inl rfl)
  | popFaulted i asleep =>
    rcases asleep with ready | waiting
    · exact .worker stage ready (by simp) (.inl rfl)
    · exact .worker stage waiting (by simp) (.inl rfl)
  | errorFaulted i rc failing => exact .worker stage failing (by simp) (.inl rfl)
  | stopFaulted i stopping => exact .worker stage stopping (by simp) (.inl rfl)
  | readFaulted => exact .elsewhere (by simp [Fault.EINVAL])
  | _ => exact .elsewhere (by simp)

theorem PlanRun.readZero {allowed : PlanState → PlanAction → Prop} {results : ResultSet}
    (run : PlanRun context allowed results progress s trace) : ReadZero s := by
  refine PlanRun.invariant (fun s _ => ReadZero s) (.elsewhere (by simp [planStart])) ?_ run
  intro s t trace events action earlier _ _ move
  exact move.readZero (PlanRun.stageOk earlier) (PlanRun.scanned earlier)

/-- What a run that returns zero has done. -/
structure Finished (context : PlanContext) (s : PlanState) (trace : List PlanEvent) : Prop where
  succeeded : ∀ event ∈ trace, event.rc = 0
  tracked : Tracked context s trace
  presented : trace.filterMap presented? =
    context.recordsA context.indexA.capacity ++ context.recordsB context.indexB.capacity
  compared : (trace.filterMap compared?).Perm (context.candidatesA context.indexA.capacity)

theorem Handed.delivered (handed : Handed s trace) (empty : s.queue.count = 0)
    (exited : ∀ worker ∈ s.workers, worker = .exited) :
    (trace.filterMap compared?).Perm (trace.filterMap enqueued?) := by
  obtain ⟨pending, holds, order⟩ := handed.ring
  have nothing : pending = [] := List.length_eq_zero_iff.mp (by rw [holds.length_pending, empty])
  have hands : inHand s.workers = [] := by
    rw [inHand, List.flatMap_eq_nil_iff]
    intro worker member
    rw [exited worker member]
    rfl
  have popped := handed.hands
  rw [hands, List.append_nil] at popped
  rw [order, nothing, List.map_nil, List.append_nil]
  exact popped.symm

theorem PlanRun.finished (run : PlanRun context LocksSucceed resultSetInit progress s trace)
    (returned : s.main = .returned 0) : Finished context s trace := by
  obtain ⟨zero, some_⟩ := PlanRun.readZero run returned
  have alarmed := PlanRun.alarmed run
  have accounted := PlanRun.accounted run
  have stage := (PlanRun.live run).stage
  have exited : ∀ worker ∈ s.workers, worker = .exited := by rwa [returned] at stage
  have scanned := accounted.scanned
  rw [returned] at scanned
  have scans := scanned rfl
  refine ⟨?_, accounted.tracked, scans.presented, ?_⟩
  · intro event member
    cases event with
    | presence record rc => exact scans.clean _ member rfl
    | enqueued path rc => exact scans.clean _ member rfl
    | popped worker path => rfl
    | compared worker path env rc =>
      by_contra failed
      exact alarmed.failed_of_exited exited member failed zero
    | errorSet rc =>
      have recorded := List.filterMap_eq_nil_iff.mp (alarmed.unset_iff.mp zero) _ member
      cases recorded
  · -- An exited worker has seen the queue empty.
    obtain ⟨worker, rest, workers⟩ := List.exists_cons_of_ne_nil some_
    have gone : .exited ∈ s.workers := by
      have member : worker ∈ s.workers := by simp [workers]
      exact exited worker member ▸ member
    have empty := ((alarmed.drained gone).resolve_left (fun recorded => recorded zero)).2
    rw [← scans.enqueued]
    exact accounted.handed.delivered empty exited

/-! ## What is settled -/

/-- How the run settled a path. -/
inductive PlanContext.Settles (context : PlanContext) (trace : List PlanEvent) : CString → Outcome → Prop where
  | presence {record : ChangeRecord} : context.Present record →
      context.Settles trace record.path (.pushed record)
  | verdict {worker : Nat} {path : CString} {env : CompareEnv} {outcome : Outcome} {results : ResultSet}
      {a b : FileInfo} : .compared worker path env 0 ∈ trace →
      context.findA path = some a → context.findB path = some b → a.size = b.size →
      compareVerdict context.toCompareContext path env = .ok outcome →
      (compareCandidateFile context.toCompareContext path env results).1 = 0 →
      results.Recorded outcome (compareCandidateFile context.toCompareContext path env results).2 →
      context.Settles trace path outcome

/-- The settled paths with their outcomes, in the order of their recording. -/
def PlanContext.settled (context : PlanContext) (trace : List PlanEvent) : List (CString × Outcome) :=
  trace.filterMap (settled? context.toCompareContext)

theorem settled_paths (succeeded : ∀ event ∈ events, event.rc = 0)
    (verdicts : ∀ worker path env, .compared worker path env 0 ∈ events →
      ∃ outcome, compareVerdict context.toCompareContext path env = .ok outcome) :
    ((context.settled events).map Prod.fst).Perm
      ((events.filterMap presented?).map ChangeRecord.path ++ events.filterMap compared?) := by
  induction events with
  | nil => exact .nil
  | cons event rest ih =>
    have later := ih (fun other member => succeeded other (List.mem_cons_of_mem _ member))
      (fun worker path env member => verdicts worker path env (List.mem_cons_of_mem _ member))
    have ok := succeeded event (by simp)
    unfold PlanContext.settled at later ⊢
    cases event with
    | presence record rc =>
      obtain rfl : rc = 0 := ok
      simpa [settled?, presented?, compared?, List.filterMap_cons] using later
    | compared worker path env rc =>
      obtain rfl : rc = 0 := ok
      obtain ⟨outcome, verdict⟩ := verdicts worker path env (by simp)
      simpa [settled?, presented?, compared?, verdict, List.filterMap_cons] using
        (later.cons path).trans List.perm_middle.symm
    | enqueued path rc => simpa [settled?, presented?, compared?, List.filterMap_cons] using later
    | popped worker path => simpa [settled?, presented?, compared?, List.filterMap_cons] using later
    | errorSet rc => simpa [settled?, presented?, compared?, List.filterMap_cons] using later

namespace Finished

variable (finished : Finished context s trace) (indexed : context.Indexed)
include finished indexed

theorem paths : ((context.settled trace).map Prod.fst).Perm context.paths := by
  have shown := settled_paths finished.succeeded fun worker path env member =>
    let ⟨outcome, _, verdict, _⟩ := finished.tracked.verdicts worker path env member
    ⟨outcome, verdict⟩
  rw [finished.presented] at shown
  exact shown.trans ((finished.compared.append_left _).trans (PlanContext.paths_perm indexed))

theorem settles : ∀ entry ∈ context.settled trace, context.Settles trace entry.1 entry.2 := by
  rintro ⟨path, outcome⟩ member
  obtain ⟨event, logged, settled⟩ := List.mem_filterMap.mp member
  have ok := finished.succeeded event logged
  cases event with
  | presence record rc =>
    obtain rfl : rc = 0 := ok
    simp only [settled?, ↓reduceIte, Option.some.injEq, Prod.mk.injEq] at settled
    obtain ⟨rfl, rfl⟩ := settled
    have presented : record ∈ trace.filterMap presented? :=
      List.mem_filterMap.mpr ⟨_, logged, by simp [presented?]⟩
    rw [finished.presented, List.mem_append] at presented
    rcases presented with first | second
    · exact .presence (PlanContext.present_recordsA indexed first)
    · exact .presence (PlanContext.present_recordsB indexed second)
  | compared worker other env rc =>
    obtain rfl : rc = 0 := ok
    obtain ⟨verdicted, results, verdict, returned, recorded⟩ := finished.tracked.verdicts worker other env logged
    simp only [settled?, ↓reduceIte, verdict, Option.some.injEq, Prod.mk.injEq] at settled
    obtain ⟨rfl, rfl⟩ := settled
    have candidate : other ∈ trace.filterMap compared? := List.mem_filterMap.mpr ⟨_, logged, rfl⟩
    obtain ⟨a, b, inA, inB, sizes⟩ :=
      PlanContext.candidatesA_sizes indexed (finished.compared.mem_iff.mp candidate)
    exact .verdict logged inA inB sizes verdict returned recorded
  | enqueued => cases settled
  | popped => cases settled
  | errorSet => cases settled

end Finished

/-! ## The counters -/

namespace PlanContext

variable (context)

def domA : Finset CString := context.indexA.keys.toFinset

def domB : Finset CString := context.indexB.keys.toFinset

variable {context}

theorem mem_domA (indexed : context.Indexed) {path : CString} :
    path ∈ context.domA ↔ (context.findA path).isSome := by
  rw [domA, List.mem_toFinset, mem_keysA indexed]

theorem mem_domB (indexed : context.Indexed) {path : CString} :
    path ∈ context.domB ↔ (context.findB path).isSome := by
  rw [domB, List.mem_toFinset, mem_keysB indexed]

theorem mem_union (indexed : context.Indexed) {path : CString} :
    path ∈ context.domA ∪ context.domB ↔ path ∈ context.paths := by
  rw [Finset.mem_union, mem_domA indexed, mem_domB indexed, mem_paths indexed]

theorem Settles.outcome (indexed : context.Indexed) {path : CString} {outcome : Outcome}
    (settles : context.Settles trace path outcome) :
    (outcome.type = .removed ∧ path ∈ context.domA ∧ path ∉ context.domB) ∨
    (outcome.type = .added ∧ path ∉ context.domA ∧ path ∈ context.domB) ∨
    ((outcome.type = .unchanged ∨ outcome.type = .modified) ∧ path ∈ context.domA ∧ path ∈ context.domB) := by
  simp only [mem_domA indexed, mem_domB indexed]
  cases settles with
  | presence present =>
    cases present with
    | removed inA notB => exact .inl ⟨rfl, by simp [presenceRecord, inA], by simp [presenceRecord, notB]⟩
    | added notA inB => exact .inr (.inl ⟨rfl, by simp [presenceRecord, notA], by simp [presenceRecord, inB]⟩)
    | resized inA inB _ =>
      exact .inr (.inr ⟨.inr rfl, by simp [presenceRecord, inA], by simp [presenceRecord, inB]⟩)
  | verdict _ inA inB _ verdict =>
    refine .inr (.inr ⟨?_, by simp [inA], by simp [inB]⟩)
    rcases compareVerdict_ok verdict with ⟨record, rfl, _, modified | ⟨unchanged, _⟩⟩ | ⟨rfl, _⟩
    · exact .inr modified
    · exact .inl unchanged
    · exact .inl rfl

end PlanContext

namespace Finished

variable (finished : Finished context s trace)
include finished

theorem counter (type : ChangeType) :
    s.results.counter type = (context.settled trace).countP fun entry => entry.2.type = type := by
  rw [finished.tracked.tracks.counter_eq, List.map_map, List.count_eq_countP, List.countP_map]
  rfl

variable (indexed : context.Indexed)
include indexed

theorem countP_type (p : ChangeType → Bool) (paths : Finset CString)
    (agree : ∀ path outcome, context.Settles trace path outcome → (p outcome.type = true ↔ path ∈ paths))
    (within : paths ⊆ context.domA ∪ context.domB) :
    (context.settled trace).countP (fun entry => p entry.2.type) = paths.card := by
  have byPath : (context.settled trace).countP (fun entry => p entry.2.type) =
      ((context.settled trace).map Prod.fst).countP fun path => decide (path ∈ paths) := by
    rw [List.countP_map]
    apply List.countP_congr
    rintro ⟨path, outcome⟩ member
    simpa using agree path outcome (finished.settles indexed _ member)
  rw [byPath, (finished.paths indexed).countP_eq, List.countP_eq_length_filter,
    ← List.toFinset_card_of_nodup ((PlanContext.nodup_paths indexed).filter _)]
  congr 1
  ext path
  rw [List.mem_toFinset, List.mem_filter, ← PlanContext.mem_union indexed, decide_eq_true_iff]
  exact ⟨fun both => both.2, fun member => ⟨within member, member⟩⟩

theorem removed_card : s.results.removedCount = (context.domA \ context.domB).card := by
  have counted := finished.countP_type indexed (fun type => type = .removed)
    (context.domA \ context.domB) ?_ (Finset.sdiff_subset.trans Finset.subset_union_left)
  · exact (finished.counter .removed).trans counted
  · intro path outcome settles
    rcases settles.outcome indexed with ⟨type, a, b⟩ | ⟨type, a, b⟩ | ⟨type | type, a, b⟩ <;>
      simp [type, a, b]

theorem added_card : s.results.addedCount = (context.domB \ context.domA).card := by
  have counted := finished.countP_type indexed (fun type => type = .added)
    (context.domB \ context.domA) ?_ (Finset.sdiff_subset.trans Finset.subset_union_right)
  · exact (finished.counter .added).trans counted
  · intro path outcome settles
    rcases settles.outcome indexed with ⟨type, a, b⟩ | ⟨type, a, b⟩ | ⟨type | type, a, b⟩ <;>
      simp [type, a, b]

theorem common_card :
    s.results.unchangedCount + s.results.modifiedCount = (context.domA ∩ context.domB).card := by
  have split : ∀ entries : List (CString × Outcome),
      (entries.countP fun entry => entry.2.type = .unchanged) +
        (entries.countP fun entry => entry.2.type = .modified) =
      entries.countP fun entry => entry.2.type = .unchanged || entry.2.type = .modified := by
    intro entries
    induction entries with
    | nil => rfl
    | cons entry rest ih =>
      simp only [List.countP_cons, ← ih]
      cases entry.2.type <;> simp <;> omega
  have counted := finished.countP_type indexed (fun type => type = .unchanged || type = .modified)
    (context.domA ∩ context.domB) ?_ (Finset.inter_subset_left.trans Finset.subset_union_left)
  · have unchanged := finished.counter .unchanged
    have modified := finished.counter .modified
    simp only [ResultSet.counter] at unchanged modified
    rw [unchanged, modified, split, counted]
  · intro path outcome settles
    rcases settles.outcome indexed with ⟨type, a, b⟩ | ⟨type, a, b⟩ | ⟨type | type, a, b⟩ <;>
      simp [type, a, b]

end Finished

/-! ## The records -/

theorem PlanContext.Settles.record_path {path : CString} {record : ChangeRecord}
    (settles : context.Settles trace path (.pushed record)) : record.path = path := by
  cases settles with
  | presence present => rfl
  | verdict _ _ _ _ verdict =>
    rcases compareVerdict_ok verdict with ⟨_, same, path, _⟩ | ⟨noted, _⟩
    · cases same; exact path
    · cases noted

namespace Finished

variable (finished : Finished context s trace) (indexed : context.Indexed)
include finished indexed

theorem mem_records {record : ChangeRecord} :
    record ∈ s.results.records ↔ (record.path, .pushed record) ∈ context.settled trace := by
  rw [finished.tracked.tracks.records_eq, List.mem_filterMap]
  constructor
  · rintro ⟨outcome, member, pushed⟩
    obtain ⟨⟨path, outcome⟩, entered, rfl⟩ := List.mem_map.mp member
    cases outcome with
    | noted type => cases pushed
    | pushed other =>
      obtain rfl := Option.some.inj pushed
      rw [(finished.settles indexed _ entered).record_path]
      exact entered
  · intro entered
    exact ⟨.pushed record, List.mem_map.mpr ⟨_, entered, rfl⟩, rfl⟩

theorem records_paths : s.results.records.map ChangeRecord.path =
    ((context.settled trace).filter fun entry => entry.2.record?.isSome).map Prod.fst := by
  rw [finished.tracked.tracks.records_eq]
  have settles := finished.settles indexed
  change ((((context.settled trace).map Prod.snd).filterMap _).map _) = _
  generalize context.settled trace = entries at settles ⊢
  induction entries with
  | nil => rfl
  | cons entry rest ih =>
    have later := ih fun other member => settles other (List.mem_cons_of_mem _ member)
    obtain ⟨path, outcome⟩ := entry
    cases outcome with
    | noted type => simpa [Outcome.record?, List.filterMap_cons] using later
    | pushed record =>
      have same := (settles (path, .pushed record) (by simp)).record_path
      simpa [Outcome.record?, List.filterMap_cons, same] using later

theorem nodup_records : (s.results.records.map ChangeRecord.path).Nodup := by
  rw [finished.records_paths indexed]
  refine (List.Nodup.sublist (List.filter_sublist.map Prod.fst) ?_)
  exact (finished.paths indexed).nodup_iff.mpr (PlanContext.nodup_paths indexed)

theorem mem_records_path (everything : context.config.includeUnchanged = true) {path : CString} :
    path ∈ s.results.records.map ChangeRecord.path ↔ path ∈ context.paths := by
  rw [finished.records_paths indexed, List.filter_eq_self.mpr, (finished.paths indexed).mem_iff]
  rintro ⟨other, outcome⟩ member
  cases finished.settles indexed _ member with
  | presence present => rfl
  | verdict _ _ _ _ verdict =>
    rcases compareVerdict_ok verdict with ⟨_, rfl, _⟩ | ⟨rfl, hidden⟩
    · rfl
    · rw [everything] at hidden
      cases hidden

end Finished

/-! ## The kinds of records -/

theorem PlanContext.Settles.noted {path : CString} {type : ChangeType}
    (settles : context.Settles trace path (.noted type)) : type = .unchanged := by
  cases settles with
  | verdict _ _ _ _ verdict =>
    rcases compareVerdict_ok verdict with ⟨_, same, _⟩ | ⟨same, _⟩
    · cases same
    · cases same; rfl

theorem PlanContext.Settles.lines {path : CString} {record : ChangeRecord}
    (settles : context.Settles trace path (.pushed record)) (lines : record.detailKind = .lines) :
    record.type = .modified ∧ record.lineDiffs.items ≠ [] := by
  cases settles with
  | presence present => cases present <;> cases lines
  | verdict _ _ _ _ verdict => exact compareVerdict_lines verdict lines

namespace Finished

variable (finished : Finished context s trace) (indexed : context.Indexed)
include finished indexed

theorem settled_of_mem {path : CString} (present : path ∈ context.domA ∪ context.domB) :
    ∃ outcome, (path, outcome) ∈ context.settled trace := by
  have settled : path ∈ (context.settled trace).map Prod.fst := by
    rwa [(finished.paths indexed).mem_iff, ← PlanContext.mem_union indexed]
  obtain ⟨⟨_, outcome⟩, entered, rfl⟩ := List.mem_map.mp settled
  exact ⟨outcome, entered⟩

theorem countP_records {type : ChangeType} (changed : type ≠ .unchanged) :
    (s.results.records.countP fun record => record.type = type) = s.results.counter type := by
  refine finished.tracked.tracks.countP_records fun other noted => ?_
  obtain ⟨⟨path, outcome⟩, entered, rfl⟩ := List.mem_map.mp noted
  rw [(finished.settles indexed _ entered).noted]
  exact changed.symm

theorem lines {record : ChangeRecord} (member : record ∈ s.results.records)
    (detail : record.detailKind = .lines) : record.type = .modified ∧ record.lineDiffs.items ≠ [] :=
  (finished.settles indexed _ ((finished.mem_records indexed).mp member)).lines detail

end Finished

/-- What the record of a path has to be. For a pair of files it is the record a call of
`compare_candidate_file` that returned zero has made for it; for equal sizes the call is one
of the run. -/
def PlanContext.Expected (context : PlanContext) (trace : List PlanEvent) (record : ChangeRecord) : Prop :=
  match context.findA record.path, context.findB record.path with
  | some a, none => record = ⟨record.path, .removed, .onlyInSource, a.size, 0, .zero⟩
  | none, some b => record = ⟨record.path, .added, .onlyInTarget, 0, b.size, .zero⟩
  | some a, some b => (record.type = .modified ∨ record.type = .unchanged) ∧
    ∃ env results, (compareCandidateFile context.toCompareContext record.path env results).1 = 0 ∧
      results.Extends record (compareCandidateFile context.toCompareContext record.path env results).2 ∧
      (a.size = b.size → ∃ worker, .compared worker record.path env 0 ∈ trace)
  | none, none => False

theorem compareCandidateFile_resized {path : CString} {a b : FileInfo} (inA : context.findA path = some a)
    (inB : context.findB path = some b) (sizes : a.size ≠ b.size) :
    let answer := compareCandidateFile context.toCompareContext path (.quiet 1) resultSetInit
    answer.1 = 0 ∧
      resultSetInit.Extends (presenceRecord path .modified .sizeChanged a.size b.size) answer.2 := by
  have verdict : compareVerdict context.toCompareContext path (.quiet 1) =
      .ok (.pushed (presenceRecord path .modified .sizeChanged a.size b.size)) := by
    unfold compareVerdict
    rw [show fileIndexFindConst _ _ path = _ from inA, show fileIndexFindConst _ _ path = _ from inB]
    simp [sizes, presenceRecord]
  rw [compareCandidateFile_eq, verdict]
  rcases resultSetPush_cases resultSetInit (presenceRecord path .modified .sizeChanged a.size b.size)
    ⟨true, true⟩ with pushed | ⟨failed, _⟩
  · exact pushed
  · cases failed

theorem PlanContext.Settles.expected {record : ChangeRecord}
    (settles : context.Settles trace record.path (.pushed record)) : context.Expected trace record := by
  unfold PlanContext.Expected
  generalize path_eq : record.path = path at settles
  generalize outcome_eq : Outcome.pushed record = outcome at settles
  cases settles with
  | presence present =>
    cases outcome_eq
    cases present with
    | removed inA notB => simp [presenceRecord, inA, notB]
    | added notA inB => simp [presenceRecord, notA, inB]
    | resized inA inB sizes =>
      simp only [presenceRecord, inA, inB]
      obtain ⟨returned, extended⟩ := compareCandidateFile_resized inA inB sizes
      exact ⟨.inl trivial, _, _, returned, extended, fun same => absurd same sizes⟩
  | verdict logged inA inB sizes verdict returned recorded =>
    cases outcome_eq
    simp only [inA, inB]
    refine ⟨?_, _, _, returned, recorded, fun _ => ⟨_, logged⟩⟩
    rcases compareVerdict_ok verdict with ⟨_, same, _, modified | ⟨unchanged, _⟩⟩ | ⟨noted, _⟩
    · cases same; exact .inl modified
    · cases same; exact .inr unchanged
    · cases noted

/-- A plan that returns zero has had no failing call and has recorded every path of either
index once, with the record that the two indexes and the comparison give. -/
theorem plan_and_compare_accounts (builtA : Built context.hashPath context.indexA)
    (builtB : Built context.hashPath context.indexB) (everything : context.config.includeUnchanged = true)
    (run : PlanRun context LocksSucceed resultSetInit progress s trace) (returned : s.main = .returned 0) :
    (∀ event ∈ trace, event.rc = 0) ∧
    (s.results.records.map ChangeRecord.path).Nodup ∧
    (∀ path, path ∈ s.results.records.map ChangeRecord.path ↔
      (context.findA path).isSome ∨ (context.findB path).isSome) ∧
    (∀ record ∈ s.results.records, context.Expected trace record) ∧
    s.results.removedCount = (context.domA \ context.domB).card ∧
    s.results.addedCount = (context.domB \ context.domA).card ∧
    s.results.unchangedCount + s.results.modifiedCount = (context.domA ∩ context.domB).card := by
  have indexed : context.Indexed := ⟨builtA.wellFormed, builtB.wellFormed⟩
  have finished := PlanRun.finished run returned
  refine ⟨finished.succeeded, finished.nodup_records indexed, ?_, ?_, finished.removed_card indexed,
    finished.added_card indexed, finished.common_card indexed⟩
  · intro path
    rw [finished.mem_records_path indexed everything, PlanContext.mem_paths indexed]
  · intro record member
    exact (finished.settles indexed _ ((finished.mem_records indexed).mp member)).expected

theorem sampleIndex_built : Built vdHashPath sampleIndex := by
  have started : Built vdHashPath ⟨List.replicate 16 none, 16, 0⟩ :=
    @Built.init _ 16 true _ (by decide) rfl
  have first : Built vdHashPath ⟨(List.replicate 16 none).set 1 (some (sampleSlot sampleX 3 0)), 16, 1⟩ :=
    @Built.upsert _ _ _ sampleX 3 0 ⟨true, true⟩ 0 started (by decide +kernel)
  exact @Built.upsert _ _ _ sampleY 3 0 ⟨true, true⟩ 0 first (by decide +kernel)

def readablePlan : PlanContext :=
  let openFile (name : CString) : Except Fault Bytes :=
    match name.bytes with
    | [98, 47, 121] => .ok [1, 2, 4]
    | _ => .ok [1, 2, 3]
  samplePlan openFile planQueueCapacity planQueueCapacity_pos

theorem plan_and_compare_accounts_sample : ∃ (s : PlanState) (trace : List PlanEvent),
    PlanRun readablePlan LocksSucceed resultSetInit progressInit s trace ∧ s.main = .returned 0 ∧
    (∀ event ∈ trace, event.rc = 0) ∧ (∀ record ∈ s.results.records, readablePlan.Expected trace record) ∧
    s.results.unchangedCount + s.results.modifiedCount = (readablePlan.domA ∩ readablePlan.domB).card := by
  have ends : (perform (planStep readablePlan)
      (mainSteps 39 ++ workerSteps 4 ++ mainSteps 1 ++ workerSteps 1 ++ mainSteps 3)
      (planStart readablePlan resultSetInit progressInit)).map (fun run => run.1.main) = some (.returned 0) := by
    decide +kernel
  obtain ⟨⟨s, trace⟩, performed, returned⟩ := Option.map_eq_some_iff.mp ends
  have permitted : ∀ action ∈ mainSteps 39 ++ workerSteps 4 ++ mainSteps 1 ++ workerSteps 1 ++ mainSteps 3,
      ∀ s, LocksSucceed s action := by
    intro action member s
    simp only [List.mem_append, or_assoc] at member
    rcases member with own | other | own | other | own
    · exact (mainSteps_succeed own s).locksSucceed
    · exact (workerSteps_succeed other s).locksSucceed
    · exact (mainSteps_succeed own s).locksSucceed
    · exact (workerSteps_succeed other s).locksSucceed
    · exact (mainSteps_succeed own s).locksSucceed
  have run : PlanRun readablePlan LocksSucceed resultSetInit progressInit s trace := Run.of_perform permitted performed
  obtain ⟨succeeded, _, _, expected, _, _, common⟩ := plan_and_compare_accounts sampleIndex_built
    sampleIndex_built rfl run returned
  exact ⟨s, trace, run, returned, succeeded, expected, common⟩

end Verdiff
