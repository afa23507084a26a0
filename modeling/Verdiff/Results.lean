import Verdiff.PathTree

/-! The result set: the record array, the four counters and the path tree.

The mutex makes each call atomic. `items` is the part of the array written so far;
a record whose tree insertion failed stays behind `count` until it is overwritten.
-/

set_option autoImplicit false

namespace Verdiff

structure ResultSet where
  items : List ChangeRecord
  count : Nat
  capacity : Nat
  unchangedCount : Nat
  modifiedCount : Nat
  addedCount : Nat
  removedCount : Nat
  orderedRoot : PathTree
  deriving DecidableEq

def resultSetInit : ResultSet := ⟨[], 0, 0, 0, 0, 0, 0, .null⟩

def incrementCounter (set : ResultSet) : ChangeType → ResultSet
  | .unchanged => { set with unchangedCount := set.unchangedCount + 1 }
  | .modified => { set with modifiedCount := set.modifiedCount + 1 }
  | .added => { set with addedCount := set.addedCount + 1 }
  | .removed => { set with removedCount := set.removedCount + 1 }

def decrementCounter (set : ResultSet) : ChangeType → ResultSet
  | .unchanged => { set with unchangedCount := set.unchangedCount - 1 }
  | .modified => { set with modifiedCount := set.modifiedCount - 1 }
  | .added => { set with addedCount := set.addedCount - 1 }
  | .removed => { set with removedCount := set.removedCount - 1 }

/-- The outcomes of the two allocations a push may make. -/
structure PushAllocs where
  growOk : Bool
  nodeOk : Bool
  deriving DecidableEq

def resultSetGrow (set : ResultSet) (growOk : Bool) : Option ResultSet :=
  if set.count = set.capacity then
    if growOk then some { set with capacity := if set.capacity = 0 then 64 else set.capacity * 2 }
    else none
  else some set

def resultSetPush (set : ResultSet) (record : ChangeRecord) (allocs : PushAllocs) : Rc × ResultSet :=
  match resultSetGrow set allocs.growOk with
  | none => (Fault.ENOMEM.code, set)
  | some set =>
    let index := set.count
    -- The counter moves before the tree is asked; a failure takes it back.
    let set := incrementCounter
      { set with items := set.items.take index ++ [record], count := set.count + 1 } record.type
    let (rc, root) := pathTreeInsert set.orderedRoot set.items index allocs.nodeOk
    let set := { set with orderedRoot := root }
    if rc ≠ 0 then (rc, decrementCounter { set with count := set.count - 1 } record.type)
    else (0, set)

def resultSetNoteType (set : ResultSet) (type : ChangeType) : Rc × ResultSet :=
  (0, incrementCounter set type)

namespace ResultSet

def records (set : ResultSet) : List ChangeRecord := set.items.take set.count

def counter (set : ResultSet) : ChangeType → Nat
  | .unchanged => set.unchangedCount
  | .modified => set.modifiedCount
  | .added => set.addedCount
  | .removed => set.removedCount

@[simp] theorem counter_increment (set : ResultSet) (type other : ChangeType) :
    (incrementCounter set type).counter other = set.counter other + if type = other then 1 else 0 := by
  cases type <;> cases other <;> simp [incrementCounter, counter]

@[simp] theorem items_increment (set : ResultSet) (type : ChangeType) :
    (incrementCounter set type).items = set.items := by cases type <;> rfl

@[simp] theorem count_increment (set : ResultSet) (type : ChangeType) :
    (incrementCounter set type).count = set.count := by cases type <;> rfl

@[simp] theorem orderedRoot_increment (set : ResultSet) (type : ChangeType) :
    (incrementCounter set type).orderedRoot = set.orderedRoot := by cases type <;> rfl

structure SameView (set other : ResultSet) : Prop where
  records : other.records = set.records
  count : other.count = set.count
  counter : ∀ type, other.counter type = set.counter type
  root : other.orderedRoot = set.orderedRoot

structure Extends (set : ResultSet) (record : ChangeRecord) (next : ResultSet) : Prop where
  items : next.items = set.records ++ [record]
  count : next.count = set.count + 1
  counter : ∀ type, next.counter type = set.counter type + if record.type = type then 1 else 0
  root : ∃ nodeOk, insertNode next.items set.count nodeOk set.orderedRoot = (0, next.orderedRoot)

end ResultSet

open ResultSet

theorem rollback (set : ResultSet) (items : List ChangeRecord) (type : ChangeType) :
    decrementCounter { incrementCounter { set with items := items, count := set.count + 1 } type with
      items := items, count := set.count + 1 - 1, orderedRoot := set.orderedRoot } type =
      { set with items := items } := by
  -- Taking the increment and the index back leaves only the written slot behind.
  cases type <;> rfl

theorem resultSetGrow_view {set grown : ResultSet} {growOk : Bool}
    (grew : resultSetGrow set growOk = some grown) :
    grown.items = set.items ∧ grown.count = set.count ∧
      (∀ type, grown.counter type = set.counter type) ∧ grown.orderedRoot = set.orderedRoot := by
  unfold resultSetGrow at grew
  split at grew
  · split at grew
    · cases grew
      exact ⟨rfl, rfl, fun type => by cases type <;> rfl, rfl⟩
    · cases grew
  · cases grew
    exact ⟨rfl, rfl, fun _ => rfl, rfl⟩

/-- A push either extends the set or fails for lack of memory and shows nothing of it. -/
theorem resultSetPush_cases (set : ResultSet) (record : ChangeRecord) (allocs : PushAllocs) :
    ((resultSetPush set record allocs).1 = 0 ∧ Extends set record (resultSetPush set record allocs).2) ∨
    ((resultSetPush set record allocs).1 = Fault.ENOMEM.code ∧
      (set.count ≤ set.items.length → SameView set (resultSetPush set record allocs).2 ∧
        (resultSetPush set record allocs).2.count ≤ (resultSetPush set record allocs).2.items.length)) := by
  unfold resultSetPush
  cases grew : resultSetGrow set allocs.growOk with
  | none => exact .inr ⟨rfl, fun written => ⟨⟨rfl, rfl, fun _ => rfl, rfl⟩, written⟩⟩
  | some grown =>
    obtain ⟨items, count, counter, root⟩ := resultSetGrow_view grew
    simp only [items_increment, count_increment, orderedRoot_increment, pathTreeInsert]
    by_cases inserted : (insertNode (grown.items.take grown.count ++ [record]) grown.count allocs.nodeOk
        grown.orderedRoot).1 = 0
    · refine .inl ?_
      simp only [inserted, ne_eq, not_true_eq_false, ↓reduceIte, true_and]
      constructor
      · simp only [items, count, ResultSet.records]
      · simp only [count]
      · intro type
        rw [← counter type]
        exact counter_increment { grown with items := _, count := _ } record.type type
      · refine ⟨allocs.nodeOk, ?_⟩
        rw [items, count, root] at inserted
        simp only [items, count, root]
        exact Prod.ext inserted rfl
    · have failed := insertNode_failed inserted
      simp only [failed, Fault.ENOMEM.nonzero, ne_eq, not_false_eq_true, ↓reduceIte, rollback]
      refine .inr ⟨trivial, fun written => ?_⟩
      have kept : (grown.items.take grown.count ++ [record]).take grown.count = grown.items.take grown.count :=
        List.take_left' (by simp [items, count, written])
      refine ⟨⟨?_, count, counter, root⟩, by simp [items, count, written]⟩
      simpa only [ResultSet.records, items, count] using kept

/-! ## The three views agree -/

/-- One verdict in the set: a pushed record, or a type that is only counted. -/
inductive Outcome where
  | pushed (record : ChangeRecord)
  | noted (type : ChangeType)
  deriving DecidableEq

namespace Outcome

def type : Outcome → ChangeType
  | .pushed record => record.type
  | .noted type => type

def record? : Outcome → Option ChangeRecord
  | .pushed record => some record
  | .noted _ => none

end Outcome

/-- The set stands for a sequence of verdicts. -/
structure ResultSet.Tracks (set : ResultSet) (log : List Outcome) : Prop where
  written : set.count ≤ set.items.length
  records_eq : set.records = log.filterMap Outcome.record?
  counter_eq : ∀ type, set.counter type = (log.map Outcome.type).count type
  ordered : Keyed.Ascending (recordPath set.records) set.orderedRoot.inorder
  latest : ∀ i, i ∈ set.orderedRoot.inorder ↔
    i < set.count ∧ ∀ j, i < j → j < set.count → recordPath set.records j ≠ recordPath set.records i

namespace ResultSet.Tracks

variable {set next : ResultSet} {log : List Outcome}

theorem init : resultSetInit.Tracks [] where
  written := Nat.le_refl _
  records_eq := rfl
  counter_eq := fun type => by cases type <;> rfl
  ordered := List.Pairwise.nil
  latest := fun i => by simp [resultSetInit, PathTree.inorder]

theorem length_records (tracks : set.Tracks log) : set.records.length = set.count := by
  simp [ResultSet.records, tracks.written]

theorem noted (tracks : set.Tracks log) (type : ChangeType) :
    (resultSetNoteType set type).2.Tracks (log ++ [.noted type]) where
  written := by simpa [resultSetNoteType] using tracks.written
  records_eq := by
    rw [List.filterMap_append, ← tracks.records_eq]
    simp [resultSetNoteType, ResultSet.records, Outcome.record?]
  counter_eq := fun other => by
    simp [resultSetNoteType, tracks.counter_eq, Outcome.type, List.count_singleton]
  ordered := by simpa [resultSetNoteType, ResultSet.records] using tracks.ordered
  latest := by simpa [resultSetNoteType, ResultSet.records] using tracks.latest

theorem sameView (tracks : set.Tracks log) (view : SameView set next)
    (written : next.count ≤ next.items.length) : next.Tracks log where
  written := written
  records_eq := view.records.trans tracks.records_eq
  counter_eq := fun type => (view.counter type).trans (tracks.counter_eq type)
  ordered := by rw [view.records, view.root]; exact tracks.ordered
  latest := by rw [view.records, view.root, view.count]; exact tracks.latest

theorem recordPath_old (record : ChangeRecord) (tracks : set.Tracks log) {i : Nat} (old : i < set.count) :
    recordPath (set.records ++ [record]) i = recordPath set.records i := by
  have inside : i < set.records.length := by rw [tracks.length_records]; exact old
  simp [recordPath, List.getElem?_append_left inside]

theorem recordPath_new {record : ChangeRecord} (tracks : set.Tracks log) :
    recordPath (set.records ++ [record]) set.count = record.path := by
  simp [recordPath, ← tracks.length_records]

theorem records_extended {record : ChangeRecord} (tracks : set.Tracks log) (pushed : Extends set record next) :
    next.records = set.records ++ [record] := by
  rw [ResultSet.records, pushed.items, pushed.count]
  exact List.take_of_length_le (by simp [tracks.length_records])

theorem extended {record : ChangeRecord} (tracks : set.Tracks log) (pushed : Extends set record next) :
    next.Tracks (log ++ [.pushed record]) := by
  have length := tracks.length_records
  have records := tracks.records_extended pushed
  obtain ⟨nodeOk, inserted⟩ := pushed.root
  rw [pushed.items] at inserted
  have old : ∀ i ∈ set.orderedRoot.inorder, i < set.count := fun i member => ((tracks.latest i).mp member).1
  have sorted : Keyed.Ascending (recordPath (set.records ++ [record])) set.orderedRoot.inorder :=
    (Keyed.Ascending.congr fun i member => tracks.recordPath_old record (old i member)).mpr tracks.ordered
  have placed := inorder_insertNode set.count nodeOk sorted (by rw [inserted])
  rw [inserted] at placed
  constructor
  · simp [pushed.items, pushed.count, length]
  · simp [records, tracks.records_eq, Outcome.record?]
  · intro type
    simp [pushed.counter, tracks.counter_eq, Outcome.type, List.count_singleton]
  · rw [records, placed]
    exact Keyed.ascending_place sorted
  · intro i
    rw [records, placed, Keyed.mem_place sorted, tracks.latest, pushed.count, tracks.recordPath_new]
    -- The new index hides an older one of its path; for any other the latest stays the latest.
    constructor
    · rintro (rfl | ⟨⟨bound, newest⟩, apart⟩)
      · exact ⟨by omega, fun j above below => by omega⟩
      · refine ⟨by omega, fun j above below => ?_⟩
        rcases Nat.lt_succ_iff_lt_or_eq.mp below with earlier | rfl
        · rw [tracks.recordPath_old record earlier, tracks.recordPath_old record bound]
          exact newest j above earlier
        · rw [tracks.recordPath_new]
          exact Ne.symm apart
    · rintro ⟨bound, newest⟩
      rcases Nat.lt_succ_iff_lt_or_eq.mp bound with earlier | rfl
      · refine .inr ⟨⟨earlier, fun j above below => ?_⟩, ?_⟩
        · rw [← tracks.recordPath_old record below,
            ← tracks.recordPath_old record earlier]
          exact newest j above (by omega)
        · have last := newest set.count earlier (by omega)
          rw [tracks.recordPath_new] at last
          exact Ne.symm last
      · exact .inl rfl

theorem push (tracks : set.Tracks log) (record : ChangeRecord) (allocs : PushAllocs) :
    ((resultSetPush set record allocs).1 = 0 ∧
      (resultSetPush set record allocs).2.Tracks (log ++ [.pushed record])) ∨
    ((resultSetPush set record allocs).1 = Fault.ENOMEM.code ∧
      SameView set (resultSetPush set record allocs).2 ∧
      (resultSetPush set record allocs).2.Tracks log) := by
  rcases resultSetPush_cases set record allocs with ⟨ok, pushed⟩ | ⟨failed, same⟩
  · exact .inl ⟨ok, tracks.extended pushed⟩
  · obtain ⟨view, written⟩ := same tracks.written
    exact .inr ⟨failed, view, tracks.sameView view written⟩

theorem exists_latest (tracks : set.Tracks log) {i : Nat} (bound : i < set.count) :
    ∃ j ∈ set.orderedRoot.inorder, recordPath set.records j = recordPath set.records i := by
  by_cases newest : ∀ j, i < j → j < set.count → recordPath set.records j ≠ recordPath set.records i
  · exact ⟨i, (tracks.latest i).mpr ⟨bound, newest⟩, rfl⟩
  · simp only [not_forall, not_not] at newest
    obtain ⟨j, later, below, same⟩ := newest
    obtain ⟨k, member, again⟩ := tracks.exists_latest below
    exact ⟨k, member, again.trans same⟩
termination_by set.count - i

theorem inorder_paths (tracks : set.Tracks log) (path : CString) :
    (∀ i ∈ set.orderedRoot.inorder, recordPath set.records i ≠ path) ↔ ∀ record ∈ set.records, record.path ≠ path := by
  have shown : ∀ i < set.count, ∃ record ∈ set.records, recordPath set.records i = record.path := by
    intro i bound
    rw [← tracks.length_records] at bound
    exact ⟨_, List.getElem_mem bound, by simp [recordPath, List.getD_eq_getElem?_getD, bound]⟩
  constructor
  · rintro apart record member rfl
    obtain ⟨i, bound, rfl⟩ := List.getElem_of_mem member
    obtain ⟨j, inside, same⟩ := tracks.exists_latest (tracks.length_records ▸ bound)
    exact apart j inside (same.trans (by simp [recordPath, List.getD_eq_getElem?_getD, bound]))
  · intro apart i inside same
    obtain ⟨record, member, named⟩ := shown i ((tracks.latest i).mp inside).1
    exact apart record member (named.symm.trans same)

theorem push_zero_iff (tracks : set.Tracks log) (record : ChangeRecord) (allocs : PushAllocs) :
    (resultSetPush set record allocs).1 = 0 ↔ (set.count = set.capacity → allocs.growOk = true) ∧
      ((∀ earlier ∈ set.records, earlier.path ≠ record.path) → allocs.nodeOk = true) := by
  have asks : ∀ {grown : ResultSet}, resultSetGrow set allocs.growOk = some grown →
      ((resultSetPush set record allocs).1 = 0 ↔
        (insertNode (set.records ++ [record]) set.count allocs.nodeOk set.orderedRoot).1 = 0) := by
    intro grown grew
    obtain ⟨items, count, _, root⟩ := resultSetGrow_view grew
    simp only [resultSetPush, grew, items_increment, orderedRoot_increment, pathTreeInsert, items, count, root,
      ResultSet.records]
    by_cases inserted : (insertNode (set.items.take set.count ++ [record]) set.count allocs.nodeOk
      set.orderedRoot).1 = 0 <;> simp [inserted]
  have sorted : Keyed.Ascending (recordPath (set.records ++ [record])) set.orderedRoot.inorder :=
    (Keyed.Ascending.congr fun i member => tracks.recordPath_old record ((tracks.latest i).mp member).1).mpr tracks.ordered
  have node : (insertNode (set.records ++ [record]) set.count allocs.nodeOk set.orderedRoot).1 = 0 ↔
      ((∀ earlier ∈ set.records, earlier.path ≠ record.path) → allocs.nodeOk = true) := by
    rw [insertNode_zero_iff sorted, tracks.recordPath_new, ← tracks.inorder_paths]
    refine imp_congr_left (forall₂_congr fun i member => ?_)
    rw [tracks.recordPath_old record ((tracks.latest i).mp member).1]
  rw [← node]
  by_cases full : set.count = set.capacity
  · cases grown : allocs.growOk with
    | false => simp [resultSetPush, resultSetGrow, full, grown, Fault.ENOMEM.nonzero]
    | true => simpa [full] using asks (by rw [resultSetGrow, if_pos full, if_pos grown])
  · simpa [full] using asks (by rw [resultSetGrow, if_neg full])

theorem countP_records (tracks : set.Tracks log) {type : ChangeType}
    (recorded : ∀ other, .noted other ∈ log → other ≠ type) :
    (set.records.countP fun record => record.type = type) = set.counter type := by
  rw [tracks.records_eq, tracks.counter_eq]
  -- Both sides are read off the log now, so the induction is on the log alone.
  clear tracks
  induction log with
  | nil => rfl
  | cons outcome rest ih =>
    have later := ih fun other member => recorded other (List.mem_cons_of_mem _ member)
    cases outcome with
    | pushed record =>
      simp only [List.filterMap_cons, Outcome.record?, List.countP_cons, List.map_cons, List.count_cons, later,
        Outcome.type, decide_eq_true_eq, beq_iff_eq]
    | noted other =>
      have apart := recorded other (by simp)
      simp only [List.filterMap_cons, Outcome.record?, later, List.map_cons, List.count_cons, Outcome.type,
        beq_iff_eq, apart, ↓reduceIte, Nat.add_zero]

end ResultSet.Tracks

inductive ResultCall where
  | push (record : ChangeRecord) (allocs : PushAllocs)
  | note (type : ChangeType)

namespace ResultCall

def perform : ResultCall → ResultSet → Rc × ResultSet
  | .push record allocs, set => resultSetPush set record allocs
  | .note type, set => resultSetNoteType set type

def outcome : ResultCall → Outcome
  | .push record _ => .pushed record
  | .note type => .noted type

end ResultCall

def performCalls : List ResultCall → ResultSet × List Outcome → ResultSet × List Outcome
  | [], state => state
  | call :: rest, (set, log) =>
    let (rc, set) := call.perform set
    performCalls rest (set, if rc = 0 then log ++ [call.outcome] else log)

theorem ResultCall.perform_tracks (call : ResultCall) {set : ResultSet} {log : List Outcome}
    (tracks : set.Tracks log) :
    (call.perform set).2.Tracks (if (call.perform set).1 = 0 then log ++ [call.outcome] else log) := by
  cases call with
  | note type => exact tracks.noted type
  | push record allocs =>
    rcases tracks.push record allocs with ⟨ok, extended⟩ | ⟨failed, _, unchanged⟩
    · simpa only [ResultCall.perform, ResultCall.outcome, ok, ↓reduceIte] using extended
    · simpa only [ResultCall.perform, ResultCall.outcome, failed, Fault.ENOMEM.nonzero, ↓reduceIte] using unchanged

theorem performCalls_tracks (calls : List ResultCall) {set : ResultSet} {log : List Outcome}
    (tracks : set.Tracks log) :
    (performCalls calls (set, log)).1.Tracks (performCalls calls (set, log)).2 := by
  induction calls generalizing set log with
  | nil => exact tracks
  | cons call rest ih => exact ih (call.perform_tracks tracks)

def recordVisit (i : Nat) (seen : List Nat) : Int × List Nat := (0, seen ++ [i])

theorem pathTreeInorder_recordVisit (tree : PathTree) :
    pathTreeInorder recordVisit tree [] = (0, tree.inorder) := by
  have collects : ∀ (indexes seen : List Nat),
      indexes.foldl (fun state i => (recordVisit i state).2) seen = seen ++ indexes := by
    intro indexes
    induction indexes with
    | nil => simp
    | cons i rest ih =>
      intro seen
      rw [List.foldl_cons, ih]
      simp [recordVisit]
  rw [pathTreeInorder_eq_visitAll, visitAll_total _ (fun _ _ => rfl), collects, List.nil_append]

/-- After every sequence of calls the array, the counters and the tree show the
same successful calls, and a failed push shows nothing. A note does not fail, and a push only
for an allocation that it needs. -/
theorem result_set_views (calls : List ResultCall) :
    let (set, log) := performCalls calls (resultSetInit, [])
    set.items.take set.count = log.filterMap Outcome.record? ∧
    (set.unchangedCount = (log.map Outcome.type).count .unchanged ∧
      set.modifiedCount = (log.map Outcome.type).count .modified ∧
      set.addedCount = (log.map Outcome.type).count .added ∧
      set.removedCount = (log.map Outcome.type).count .removed) ∧
    (∃ indexes, pathTreeInorder recordVisit set.orderedRoot [] = (0, indexes) ∧
      indexes.Pairwise (fun i j => strcmp (recordPath set.items i) (recordPath set.items j) < 0) ∧
      ∀ i, i ∈ indexes ↔ i < set.count ∧
        ∀ j, i < j → j < set.count → recordPath set.items j ≠ recordPath set.items i) ∧
    (∀ type, (resultSetNoteType set type).1 = 0) ∧
    (∀ record allocs, (resultSetPush set record allocs).1 = 0 ↔
      (set.count = set.capacity → allocs.growOk = true) ∧
      ((∀ earlier ∈ set.items.take set.count, earlier.path ≠ record.path) → allocs.nodeOk = true)) ∧
    ∀ record allocs, (resultSetPush set record allocs).1 ≠ 0 →
      let after := (resultSetPush set record allocs).2
      after.items.take after.count = set.items.take set.count ∧ after.count = set.count ∧
      (after.unchangedCount = set.unchangedCount ∧ after.modifiedCount = set.modifiedCount ∧
        after.addedCount = set.addedCount ∧ after.removedCount = set.removedCount) ∧
      pathTreeInorder recordVisit after.orderedRoot [] = pathTreeInorder recordVisit set.orderedRoot [] := by
  have tracks := performCalls_tracks calls ResultSet.Tracks.init
  generalize performCalls calls (resultSetInit, []) = state at tracks ⊢
  obtain ⟨set, log⟩ := state
  simp only at tracks ⊢
  have shown : ∀ i < set.count, recordPath set.records i = recordPath set.items i := by
    intro i bound
    simp [recordPath, ResultSet.records, List.getElem?_take_of_lt bound]
  have live : ∀ i ∈ set.orderedRoot.inorder, i < set.count := fun i member => ((tracks.latest i).mp member).1
  refine ⟨tracks.records_eq, ⟨tracks.counter_eq .unchanged, tracks.counter_eq .modified,
    tracks.counter_eq .added, tracks.counter_eq .removed⟩, ⟨set.orderedRoot.inorder,
    pathTreeInorder_recordVisit _, ?_, ?_⟩, fun _ => rfl, tracks.push_zero_iff, ?_⟩
  · have ascending := (Keyed.Ascending.congr fun i member => shown i (live i member)).mp tracks.ordered
    exact ascending.imp fun less => (strcmp_neg _ _).mpr less
  · intro i
    rw [tracks.latest i]
    refine and_congr_right fun bound => forall_congr' fun j => forall_congr' fun _ =>
      forall_congr' fun below => ?_
    rw [shown i bound, shown j below]
  · intro record allocs failed
    rcases tracks.push record allocs with ⟨ok, _⟩ | ⟨_, view, _⟩
    · exact absurd ok failed
    · exact ⟨view.records, view.count, ⟨view.counter .unchanged, view.counter .modified,
        view.counter .added, view.counter .removed⟩, by rw [view.root]⟩

/-- A path that is pushed twice, a push that gets no node in between and a note. -/
theorem result_set_views_repeated :
    let first : ChangeRecord := ⟨⟨[97], by decide⟩, .removed, .onlyInSource, 1, 0, .zero⟩
    let refused : ChangeRecord := ⟨⟨[98], by decide⟩, .added, .onlyInTarget, 0, 1, .zero⟩
    let second : ChangeRecord := { first with type := .modified }
    let calls : List ResultCall :=
      [.push first ⟨true, true⟩, .push refused ⟨true, false⟩, .push second ⟨true, false⟩, .note .unchanged]
    let set := (performCalls calls (resultSetInit, [])).1
    set.items.take set.count = [first, second] ∧
    (set.unchangedCount = 1 ∧ set.modifiedCount = 1 ∧ set.addedCount = 0 ∧ set.removedCount = 1) ∧
    pathTreeInorder recordVisit set.orderedRoot [] = (0, [1]) ∧
    (resultSetPush set refused ⟨false, false⟩).1 ≠ 0 ∧ (resultSetPush set refused ⟨false, true⟩).1 = 0 := by
  intro first refused second calls set
  obtain ⟨records, ⟨unchanged, modified, added, removed⟩, _, _, pushes, _⟩ := result_set_views calls
  exact ⟨records.trans (by decide), ⟨unchanged.trans (by decide), modified.trans (by decide), added.trans (by decide),
    removed.trans (by decide)⟩, by decide, mt (pushes _ _).mp (by decide), (pushes _ _).mpr (by decide)⟩

end Verdiff
