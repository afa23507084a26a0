import Verdiff.Compare.Candidate
import Verdiff.Compare.LineMemory
import Verdiff.PathTree.Memory

/-! The result set as it lies in memory, and the comparisons that fill it.

A record that is pushed hands its line differences over to the set; one that is not pushed is
destroyed by its comparison. Streams and the buffers of `getline` are left out.
-/

set_option autoImplicit false

namespace Verdiff
open Transition

structure ResultSetPtrs where
  items : Growable
  unchangedCount : Nat
  modifiedCount : Nat
  addedCount : Nat
  removedCount : Nat
  orderedRoot : Option Nat

structure ResultMemory where
  set : ResultSetPtrs
  heap : ResultHeap

def resultSetInitAt (heap : ResultHeap) : ResultMemory := ⟨⟨⟨none, 0, 0⟩, 0, 0, 0, 0, none⟩, heap⟩

def incrementCounterAt (set : ResultSetPtrs) : ChangeType → ResultSetPtrs
  | .unchanged => { set with unchangedCount := set.unchangedCount + 1 }
  | .modified => { set with modifiedCount := set.modifiedCount + 1 }
  | .added => { set with addedCount := set.addedCount + 1 }
  | .removed => { set with removedCount := set.removedCount + 1 }

def decrementCounterAt (set : ResultSetPtrs) : ChangeType → ResultSetPtrs
  | .unchanged => { set with unchangedCount := set.unchangedCount - 1 }
  | .modified => { set with modifiedCount := set.modifiedCount - 1 }
  | .added => { set with addedCount := set.addedCount - 1 }
  | .removed => { set with removedCount := set.removedCount - 1 }

/-- The tree is no higher than the number of its records, which is the fuel of the insertion. -/
def resultSetPushAt (m : ResultMemory) (record : RecordPtrs) (allocs : PushAllocs) : Option (Rc × ResultMemory) := do
  let (roomy, items, heap) ← recordArrays.reserve 64 m.heap m.set.items allocs.growOk
  if !roomy then return (Fault.ENOMEM.code, ⟨{ m.set with items := items }, heap⟩)
  else
    let index := items.count
    let heap ← recordArrays.store heap items record
    let set := incrementCounterAt { m.set with items := { items with count := items.count + 1 } } record.type
    let (rc, tree) ← insertNodeAt set.items.items index allocs.nodeOk (index + 1) .orderedRoot ⟨set.orderedRoot, heap⟩
    let set := { set with orderedRoot := tree.orderedRoot }
    if rc ≠ 0 then
      let set := decrementCounterAt { set with items := { set.items with count := set.items.count - 1 } } record.type
      return (rc, ⟨set, tree.heap⟩)
    else return (0, ⟨set, tree.heap⟩)

def resultSetNoteTypeAt (m : ResultMemory) (type : ChangeType) : Rc × ResultMemory :=
  (0, ⟨incrementCounterAt m.set type, m.heap⟩)

def destroyRecords : List RecordPtrs → ResultHeap → Option ResultHeap
  | [], heap => some heap
  | record :: rest, heap => do
    let heap ← lineDiffVectorDestroyAt heap record.lineDiffs
    destroyRecords rest heap

def resultSetDestroyAt (m : ResultMemory) : Option ResultHeap := do
  let records ← recordArrays.used m.heap m.set.items
  let heap ← destroyRecords records m.heap
  let heap ← heap.freePtr m.set.items.items
  pathTreeDestroyAt m.set.items.count m.set.orderedRoot heap

def pushSimpleRecordAt (m : ResultMemory) (path : CString) (type : ChangeType) (detailKind : DetailKind)
    (sizeA sizeB : Int) (allocs : PushAllocs) : Option (Rc × ResultMemory) :=
  resultSetPushAt m ⟨path, type, detailKind, sizeA, sizeB, ⟨none, 0, 0⟩⟩ allocs

def joinPathAt (heap : ResultHeap) (root relative : CString) (ok : Bool) : Option Nat × ResultHeap :=
  heap.allocIf (.path (vdJoinPath root relative)) ok

def readPath (heap : ResultHeap) (block : Nat) : Option CString :=
  match heap.read block with
  | some (.path value) => some value
  | _ => none

section
variable (context : CompareContext)

def compareLinesAt (pathA pathB : Nat) (env : CompareEnv) (heap : ResultHeap) : Option (Rc × Growable × ResultHeap) := do
  let fileA := context.files.openFile (← readPath heap pathA)
  let fileB := context.files.openFile (← readPath heap pathB)
  if context.config.includeLines && env.textTestA fileA && env.textTestB fileB then
    detectLineDifferencesAt fileA fileB env.lines ⟨none, 0, 0⟩ heap
  else return (0, ⟨none, 0, 0⟩, heap)

def comparePathsAt (infoA infoB : FileInfo) (relativePath : CString) (pathA pathB : Nat) (env : CompareEnv)
    (m : ResultMemory) : Option (Rc × ResultMemory) := do
  let fileA := context.files.openFile (← readPath m.heap pathA)
  let fileB := context.files.openFile (← readPath m.heap pathB)
  match compareHashes context.xxh context.config fileA fileB env with
  | .error fault => return (fault.code, m)
  | .ok true =>
    if context.config.includeUnchanged then
      pushSimpleRecordAt m relativePath .unchanged .none infoA.size infoB.size env.push
    else return resultSetNoteTypeAt m .unchanged
  | .ok false =>
    let (rc, lineDiffs, heap) ← compareLinesAt context pathA pathB env m.heap
    let detailKind := if lineDiffs.count > 0 then DetailKind.lines else .binaryChanged
    let record : RecordPtrs := ⟨relativePath, .modified, detailKind, infoA.size, infoB.size, lineDiffs⟩
    let (rc, m) ← if rc ≠ 0 then some (rc, (⟨m.set, heap⟩ : ResultMemory))
      else resultSetPushAt ⟨m.set, heap⟩ record env.push
    let heap ← if rc ≠ 0 then lineDiffVectorDestroyAt m.heap lineDiffs else some m.heap
    return (rc, ⟨m.set, heap⟩)

def compareCandidateFileAt (relativePath : CString) (env : CompareEnv) (m : ResultMemory) :
    Option (Rc × ResultMemory) :=
  match fileIndexFindConst context.hashPath context.indexA relativePath,
      fileIndexFindConst context.hashPath context.indexB relativePath with
  | some infoA, some infoB =>
    if infoA.size ≠ infoB.size then
      pushSimpleRecordAt m relativePath .modified .sizeChanged infoA.size infoB.size env.push
    else
      let (pathA, heap) := joinPathAt m.heap context.config.rootA relativePath env.joinAOk
      let (pathB, heap) := joinPathAt heap context.config.rootB relativePath env.joinBOk
      match pathA, pathB with
      | some pathA, some pathB => do
        let (rc, m) ← comparePathsAt context infoA infoB relativePath pathA pathB env ⟨m.set, heap⟩
        let heap ← m.heap.free pathA
        let heap ← heap.free pathB
        return (rc, ⟨m.set, heap⟩)
      | _, _ => do
        let heap ← heap.freePtr pathA
        let heap ← heap.freePtr pathB
        return (Fault.ENOMEM.code, ⟨m.set, heap⟩)
  | _, _ => some (Fault.ENOENT.code, m)

end

/-- What the main thread and the workers do to the results. -/
inductive ResultsAction where
  | presence (path : CString) (type : ChangeType) (detailKind : DetailKind) (sizeA sizeB : Int) (allocs : PushAllocs)
  | compare (relativePath : CString) (env : CompareEnv)

def resultsStep (context : CompareContext) (set : ResultSet) (action : ResultsAction) :
    Option (ResultSet × List (ResultsAction × Rc)) :=
  match action with
  | .presence path type detailKind sizeA sizeB allocs =>
    let (rc, set) := pushSimpleRecord set path type detailKind sizeA sizeB allocs
    some (set, [(action, rc)])
  | .compare relativePath env =>
    let (rc, set) := compareCandidateFile context relativePath env set
    some (set, [(action, rc)])

def resultsStepAt (context : CompareContext) (m : ResultMemory) (action : ResultsAction) :
    Option (ResultMemory × List (ResultsAction × Rc)) :=
  match action with
  | .presence path type detailKind sizeA sizeB allocs => do
    let (rc, m) ← pushSimpleRecordAt m path type detailKind sizeA sizeB allocs
    return (m, [(action, rc)])
  | .compare relativePath env => do
    let (rc, m) ← compareCandidateFileAt context relativePath env m
    return (m, [(action, rc)])

abbrev ResultsRun (context : CompareContext) : ResultSet → List (ResultsAction × Rc) → Prop :=
  Run (resultsStep context) (fun _ _ => True) resultSetInit

abbrev ResultMemoryRun (context : CompareContext) (heap : ResultHeap) :
    ResultMemory → List (ResultsAction × Rc) → Prop :=
  Run (resultsStepAt context) (fun _ _ => True) (resultSetInitAt heap)

/-! ## The blocks of a result set -/

structure RecordAt (ptrs : RecordPtrs) (record : ChangeRecord) (cells : List (Nat × ResultBlock)) : Prop where
  path : ptrs.path = record.path
  type : ptrs.type = record.type
  detailKind : ptrs.detailKind = record.detailKind
  sizeA : ptrs.sizeA = record.sizeA
  sizeB : ptrs.sizeB = record.sizeB
  lineDiffs : VectorAt ptrs.lineDiffs record.lineDiffs cells

inductive RecordListAt : List RecordPtrs → List ChangeRecord → List (Nat × ResultBlock) → Prop where
  | nil : RecordListAt [] [] []
  | cons {ptr : RecordPtrs} {record : ChangeRecord} {ptrs : List RecordPtrs} {records : List ChangeRecord}
      {first cells : List (Nat × ResultBlock)} : RecordAt ptr record first → RecordListAt ptrs records cells →
      RecordListAt (ptr :: ptrs) (record :: records) (first ++ cells)

def ResultSetPtrs.counter (set : ResultSetPtrs) : ChangeType → Nat
  | .unchanged => set.unchangedCount
  | .modified => set.modifiedCount
  | .added => set.addedCount
  | .removed => set.removedCount

/-- The blocks of a result set: the array of records, the nodes of the tree, and the line differences. -/
inductive ResultSetAt (ptrs : ResultSetPtrs) (set : ResultSet) : List (Nat × ResultBlock) → Prop where
  | mk {log : List Outcome} {records : List RecordPtrs} {array nodes lines : List (Nat × ResultBlock)} :
      set.Tracks log → set.orderedRoot.Balanced → ptrs.items.capacity = set.capacity →
      (∀ type, ptrs.counter type = set.counter type) → recordArrays.Of ptrs.items records array →
      RecordListAt records set.records lines → TreeAt ptrs.orderedRoot set.orderedRoot nodes →
      ResultSetAt ptrs set (array ++ (nodes ++ lines))

section
variable {heap : ResultHeap} {rest cells lines : List (Nat × ResultBlock)} {ptr : RecordPtrs} {record : ChangeRecord}
  {ptrs : List RecordPtrs} {records : List ChangeRecord} {set : ResultSet} {setPtrs : ResultSetPtrs}

theorem RecordListAt.length (at_ : RecordListAt ptrs records cells) : ptrs.length = records.length := by
  induction at_ with
  | nil => rfl
  | cons _ _ ih => rw [List.length_cons, List.length_cons, ih]

theorem RecordListAt.concat (at_ : RecordListAt ptrs records cells) (recordAt : RecordAt ptr record lines) :
    RecordListAt (ptrs ++ [ptr]) (records ++ [record]) (cells ++ lines) := by
  induction at_ with
  | nil =>
    have single : RecordListAt [ptr] [record] (lines ++ []) := .cons recordAt .nil
    rwa [List.append_nil] at single
  | cons first _ ih =>
    rw [List.append_assoc]
    exact .cons first ih

theorem RecordListAt.paths (at_ : RecordListAt ptrs records cells) {i : Nat} (inside : i < records.length) :
    ∃ ptr, ptrs[i]? = some ptr ∧ ptr.path = recordPath records i := by
  induction at_ generalizing i with
  | nil => exact absurd inside (Nat.not_lt_zero i)
  | @cons ptr record _ _ _ _ first _ ih =>
    cases i with
    | zero => exact ⟨ptr, rfl, first.path⟩
    | succ i => exact ih (Nat.lt_of_succ_lt_succ inside)

theorem destroyRecords_ok (at_ : RecordListAt ptrs records cells) (holds : heap.Holds (cells ++ rest)) :
    ∃ after, destroyRecords ptrs heap = some after ∧ after.Holds rest := by
  induction at_ generalizing heap with
  | nil => exact ⟨heap, rfl, holds⟩
  | cons first _ ih =>
    rw [List.append_assoc] at holds
    obtain ⟨middle, freed, others⟩ := first.lineDiffs.destroy holds
    obtain ⟨after, freedAll, kept⟩ := ih others
    exact ⟨after, by simp only [destroyRecords, freed, freedAll, Option.bind_eq_bind, Option.bind_some], kept⟩

theorem resultSetInitAt_ok : ResultSetAt (resultSetInitAt heap).set resultSetInit [] :=
  @ResultSetAt.mk _ _ [] [] [] [] [] ResultSet.Tracks.init trivial rfl (fun type => by cases type <;> rfl) .null .nil .null

theorem ResultSet.Tracks.treeOrdered {log : List Outcome} (tracks : set.Tracks log) :
    set.orderedRoot.Ordered set.records :=
  ⟨fun i member => tracks.length_records ▸ ((tracks.latest i).mp member).1, tracks.ordered⟩

theorem ResultSetAt.destroy (at_ : ResultSetAt setPtrs set cells) (holds : heap.Holds (cells ++ rest)) :
    ∃ after, resultSetDestroyAt ⟨setPtrs, heap⟩ = some after ∧ after.Holds rest := by
  obtain @⟨log, records, array, nodes, lines, tracks, balanced, _, _, of, recordsAt, treeAt⟩ := at_
  have whole : heap.Holds (array ++ (nodes ++ (lines ++ rest))) := by
    refine holds.reorder ?_
    classical grind
  have front : heap.Holds (lines ++ (array ++ (nodes ++ rest))) := by
    refine holds.reorder ?_
    classical grind
  obtain ⟨first, freedLines, others⟩ := destroyRecords_ok recordsAt front
  obtain ⟨second, freedArray, others⟩ := of.free others
  have low : set.orderedRoot.height ≤ setPtrs.items.count := by
    rw [of.count, recordsAt.length]
    exact tracks.treeOrdered.height_le
  obtain ⟨after, freedNodes, kept⟩ := pathTreeDestroyAt_ok treeAt others low
  refine ⟨after, ?_, kept⟩
  simp only [resultSetDestroyAt, of.used whole, freedLines, freedArray, Option.bind_eq_bind, Option.bind_some]
  exact freedNodes

/-! ## Pushes -/

theorem resultSetPush_wide (set : ResultSet) (record : ChangeRecord) (allocs : PushAllocs)
    (roomy : set.count = set.capacity → allocs.growOk = true) :
    resultSetPush set record allocs =
      let wide : ResultSet := { set with
        items := set.records ++ [record], count := set.count + 1
        capacity := if set.count = set.capacity then if set.capacity = 0 then 64 else set.capacity * 2
          else set.capacity }
      let out := insertNode (set.records ++ [record]) set.count allocs.nodeOk set.orderedRoot
      if out.1 ≠ 0 then
        (out.1, decrementCounter { incrementCounter wide record.type with
          orderedRoot := out.2, count := set.count } record.type)
      else (0, { incrementCounter wide record.type with orderedRoot := out.2 }) := by
  -- What a push does once there is room.
  unfold resultSetPush resultSetGrow
  by_cases full : set.count = set.capacity
  · simp only [if_pos full, roomy full, ↓reduceIte]
    cases record.type <;> rfl
  · simp only [if_neg full]
    cases record.type <;> rfl

theorem resultSetPush_roomy (set : ResultSet) (record : ChangeRecord) (allocs : PushAllocs)
    (roomy : set.count = set.capacity → allocs.growOk = true) :
    let out := insertNode (set.records ++ [record]) set.count allocs.nodeOk set.orderedRoot
    let pushed := resultSetPush set record allocs
    pushed.1 = out.1 ∧ pushed.2.orderedRoot = out.2 ∧
      pushed.2.capacity = (if set.count = set.capacity then if set.capacity = 0 then 64 else set.capacity * 2
        else set.capacity) ∧
      ∀ type, pushed.2.counter type = set.counter type + if out.1 = 0 ∧ record.type = type then 1 else 0 := by
  intro out pushed
  have wide : pushed = _ := resultSetPush_wide set record allocs roomy
  by_cases ok : out.1 = 0
  · have same : pushed = (0, _) := wide.trans (if_neg (not_not.mpr ok))
    rw [same]
    refine ⟨ok.symm, rfl, by cases record.type <;> rfl, fun type => ?_⟩
    simp only [ok, true_and]
    cases record.type <;> cases type <;> rfl
  · have same : pushed = (out.1, _) := wide.trans (if_pos ok)
    rw [same]
    refine ⟨rfl, by cases record.type <;> rfl, by cases record.type <;> rfl, fun type => ?_⟩
    simp only [ok, false_and, ↓reduceIte]
    cases record.type <;> cases type <;> rfl

theorem items_incrementAt (set : ResultSetPtrs) (type : ChangeType) : (incrementCounterAt set type).items = set.items := by
  cases type <;> rfl

theorem orderedRoot_incrementAt (set : ResultSetPtrs) (type : ChangeType) :
    (incrementCounterAt set type).orderedRoot = set.orderedRoot := by
  cases type <;> rfl

theorem RecordListAt.recordsAt {array : Growable} (at_ : RecordListAt ptrs records lines)
    (of : recordArrays.Of array ptrs cells) (filled : ptrs ≠ []) (inside : cells ⊆ rest) :
    RecordsAt array.items records rest := by
  -- The array of a set shows its tree the paths of the records.
  cases of with
  | null => exact absurd rfl filled
  | @items block capacity written _ taken _ _ =>
    refine ⟨block, capacity, written, rfl, inside (List.mem_singleton_self _), fun i below => ?_⟩
    obtain ⟨ptr, found, path⟩ := at_.paths below
    refine ⟨ptr, ?_, path⟩
    rwa [← taken, List.getElem?_take_of_lt (at_.length ▸ below)] at found

theorem resultSetPushAt_roomy {first second after : ResultHeap} {wide : Growable} {allocs : PushAllocs} {rc : Rc}
    {next : Option Nat} (reserved : recordArrays.reserve 64 heap setPtrs.items allocs.growOk = some (true, wide, first))
    (written : recordArrays.store first wide ptr = some second)
    (inserted : insertNodeAt wide.items wide.count allocs.nodeOk (wide.count + 1) .orderedRoot
      ⟨setPtrs.orderedRoot, second⟩ = some (rc, ⟨next, after⟩)) :
    ∃ pushed, resultSetPushAt ⟨setPtrs, heap⟩ ptr allocs = some (rc, ⟨pushed, after⟩) ∧ pushed.orderedRoot = next ∧
      pushed.items = (if rc = 0 then { wide with count := wide.count + 1 } else wide) ∧
      ∀ type, pushed.counter type = setPtrs.counter type + if rc = 0 ∧ ptr.type = type then 1 else 0 := by
  simp only [resultSetPushAt, reserved, written, Option.bind_eq_bind, Option.bind_some, items_incrementAt,
    orderedRoot_incrementAt, inserted]
  by_cases ok : rc = 0
  · subst ok
    refine ⟨_, rfl, rfl, rfl, fun type => ?_⟩
    simp only [true_and]
    cases ptr.type <;> cases type <;> rfl
  · rw [if_pos ok, if_neg ok]
    refine ⟨_, rfl, by cases ptr.type <;> rfl, by cases ptr.type <;> rfl, fun type => ?_⟩
    simp only [ok, false_and, ↓reduceIte]
    cases ptr.type <;> cases type <;> rfl

theorem ResultSet.Tracks.inserts {set : ResultSet} {log : List Outcome} {items root : Option Nat}
    {nodes rest : List (Nat × ResultBlock)} (tracks : set.Tracks log) (balanced : set.orderedRoot.Balanced)
    (treeAt : TreeAt root set.orderedRoot nodes) (shown : RecordsAt items (set.records ++ [record]) rest)
    (holds : heap.Holds (nodes ++ rest)) (nodeOk : Bool) :
    let out := insertNode (set.records ++ [record]) set.count nodeOk set.orderedRoot
    ∃ next after nodes', insertNodeAt items set.count nodeOk (set.count + 1) .orderedRoot ⟨root, heap⟩ =
        some (out.1, ⟨next, after⟩) ∧
      TreeAt next out.2 nodes' ∧ out.2.Balanced ∧ after.Holds (nodes' ++ rest) := by
  intro out
  have length : (set.records ++ [record]).length = set.count + 1 := by
    rw [List.length_append, List.length_singleton, tracks.length_records]
  have low : set.orderedRoot.height < set.count + 1 := by
    rw [← tracks.length_records]
    exact Nat.lt_succ_of_le tracks.treeOrdered.height_le
  have inside : ∀ i ∈ set.orderedRoot.inorder, i < (set.records ++ [record]).length := fun i member => by
    have := ((tracks.latest i).mp member).1
    omega
  have ready : heap.Holds (nodes ++ (Hole.orderedRoot.cells root ++ rest)) := holds
  obtain ⟨next, after, nodes', inserted, treeAt', kept⟩ := Verdiff.inserts nodeOk (by omega : set.count < _)
    set.orderedRoot none balanced inside treeAt shown ready low
  exact ⟨next, after, nodes', inserted, treeAt', (insertNode_balanced set.count nodeOk balanced).1, kept⟩

theorem ResultSetAt.push (at_ : ResultSetAt setPtrs set cells) (recordAt : RecordAt ptr record lines)
    (holds : heap.Holds (cells ++ (lines ++ rest))) (allocs : PushAllocs) :
    ∃ next cells, resultSetPushAt ⟨setPtrs, heap⟩ ptr allocs = some ((resultSetPush set record allocs).1, next) ∧
      ResultSetAt next.set (resultSetPush set record allocs).2 cells ∧
      next.heap.Holds (cells ++ if (resultSetPush set record allocs).1 = 0 then rest else lines ++ rest) := by
  obtain @⟨log, records, array, nodes, texts, tracks, balanced, capacity, counters, of, recordsAt, treeAt⟩ := at_
  have counted : setPtrs.items.count = set.count := by rw [of.count, recordsAt.length, tracks.length_records]
  have front : heap.Holds (array ++ (nodes ++ (texts ++ (lines ++ rest)))) := by
    refine holds.reorder ?_
    classical grind
  rcases of.reserve front (by decide : 0 < 64) allocs.growOk with
    ⟨full, refused, reserved⟩ | ⟨allowed, wide, moved, first, reserved, ofWide, some_, room, wider, others⟩
  · have refuses : resultSetPush set record allocs = (Fault.ENOMEM.code, set) := by
      rw [counted, capacity] at full
      simp only [resultSetPush, resultSetGrow, if_pos full, refused, Bool.false_eq_true, ↓reduceIte]
    rw [refuses, if_neg Fault.ENOMEM.nonzero]
    refine ⟨⟨setPtrs, heap⟩, _, ?_, .mk tracks balanced capacity counters of recordsAt treeAt, holds⟩
    simp only [resultSetPushAt, reserved, Option.bind_eq_bind, Option.bind_some]
    rfl
  · rw [counted, capacity] at allowed wider
    obtain ⟨stored, second, written, ofShort, ofLong, others⟩ := ofWide.store some_ room others ptr
    have index : wide.count = set.count := by rw [ofShort.count, recordsAt.length, tracks.length_records]
    have list := recordsAt.concat recordAt
    have shown : RecordsAt ({ wide with count := wide.count + 1 } : Growable).items (set.records ++ [record])
        (stored ++ (texts ++ (lines ++ rest))) :=
      list.recordsAt ofLong (by simp) (List.subset_append_left _ _)
    have ready : second.Holds (nodes ++ (stored ++ (texts ++ (lines ++ rest)))) := by
      refine others.reorder ?_
      classical grind
    obtain ⟨root, after, nodes', inserted, treeAt', balanced', kept⟩ :=
      tracks.inserts balanced treeAt shown ready allocs.nodeOk
    obtain ⟨next, goes, root', items', counters'⟩ :=
      resultSetPushAt_roomy reserved written (by simpa only [index] using inserted)
    obtain ⟨rc, orderedRoot, capacity', counted'⟩ := resultSetPush_roomy set record allocs allowed
    rw [← orderedRoot] at balanced' treeAt'
    rw [← rc] at goes items' counters' counted'
    rw [recordAt.type] at counters'
    have counters'' : ∀ type, next.counter type = (resultSetPush set record allocs).2.counter type := fun type => by
      rw [counters', counted', counters]
    rw [← root'] at treeAt'
    rcases resultSetPush_cases set record allocs with ⟨ok, extends_⟩ | ⟨failed, same⟩
    · rw [if_pos ok] at items' ⊢
      have tracks' := tracks.extended extends_
      have records' := tracks.records_extended extends_
      refine ⟨⟨next, after⟩, _, goes, .mk tracks' balanced' ?_ counters'' (items' ▸ ofLong) (records' ▸ list) treeAt', ?_⟩
      · rw [items', capacity', ← wider]
      · refine kept.reorder ?_
        classical grind
    · have bad : (resultSetPush set record allocs).1 ≠ 0 := by rw [failed]; exact Fault.ENOMEM.nonzero
      rw [if_neg bad] at items' ⊢
      obtain ⟨view, written'⟩ := same tracks.written
      refine ⟨⟨next, after⟩, _, goes, .mk (tracks.sameView view written') balanced' ?_ counters'' (items' ▸ ofShort)
        (view.records ▸ recordsAt) treeAt', ?_⟩
      · rw [items', capacity', ← wider]
      · refine kept.reorder ?_
        classical grind

/-! ## Comparisons -/

/-- What a call gives in memory is what it gives without: the code, and a set with its blocks. -/
def Yields (rest : List (Nat × ResultBlock)) (given : Option (Rc × ResultMemory)) (expected : Rc × ResultSet) : Prop :=
  ∃ next cells, given = some (expected.1, next) ∧ ResultSetAt next.set expected.2 cells ∧ next.heap.Holds (cells ++ rest)

theorem pushSimpleRecordAt_ok (at_ : ResultSetAt setPtrs set cells) (holds : heap.Holds (cells ++ rest)) (path : CString)
    (type : ChangeType) (detailKind : DetailKind) (sizeA sizeB : Int) (allocs : PushAllocs) :
    Yields rest (pushSimpleRecordAt ⟨setPtrs, heap⟩ path type detailKind sizeA sizeB allocs)
      (pushSimpleRecord set path type detailKind sizeA sizeB allocs) := by
  have recordAt : RecordAt ⟨path, type, detailKind, sizeA, sizeB, ⟨none, 0, 0⟩⟩
      ⟨path, type, detailKind, sizeA, sizeB, .zero⟩ [] := ⟨rfl, rfl, rfl, rfl, rfl, .zero⟩
  obtain ⟨next, cells', given, setAt, kept⟩ := at_.push recordAt (show heap.Holds (cells ++ ([] ++ rest)) from holds) allocs
  rw [List.nil_append, ite_self] at kept
  exact ⟨next, cells', given, setAt, kept⟩

theorem resultSetNoteTypeAt_ok (at_ : ResultSetAt setPtrs set cells) (holds : heap.Holds (cells ++ rest))
    (type : ChangeType) :
    Yields rest (some (resultSetNoteTypeAt ⟨setPtrs, heap⟩ type)) (resultSetNoteType set type) := by
  obtain @⟨log, records, array, nodes, texts, tracks, balanced, capacity, counters, of, recordsAt, treeAt⟩ := at_
  have of' : recordArrays.Of (incrementCounterAt setPtrs type).items records array := by rwa [items_incrementAt]
  have records' : (resultSetNoteType set type).2.records = set.records := by cases type <;> rfl
  have root' : (resultSetNoteType set type).2.orderedRoot = set.orderedRoot := by cases type <;> rfl
  refine ⟨⟨incrementCounterAt setPtrs type, heap⟩, _, rfl, .mk (tracks.noted type) (root' ▸ balanced) ?_
    (fun other => ?_) of' (records' ▸ recordsAt) ?_, holds⟩
  · cases type <;> exact capacity
  · rw [resultSetNoteType, ResultSet.counter_increment, ← counters]
    cases type <;> cases other <;> rfl
  · rwa [orderedRoot_incrementAt, root']

variable {context : CompareContext} {pathA pathB : Nat} {nameA nameB : CString}

theorem readPath_ok {block : Nat} {value : CString} (holds : heap.Holds cells)
    (member : (block, .path value) ∈ cells) : readPath heap block = some value := by
  rw [readPath, holds.read member]

theorem compareLinesAt_ok (holds : heap.Holds rest) (memberA : (pathA, .path nameA) ∈ rest)
    (memberB : (pathB, .path nameB) ∈ rest) (env : CompareEnv) :
    ∃ vector lines after, compareLinesAt context pathA pathB env heap =
        some ((compareLines context.config (context.files.openFile nameA) (context.files.openFile nameB) env).1,
          vector, after) ∧
      VectorAt vector
        (compareLines context.config (context.files.openFile nameA) (context.files.openFile nameB) env).2 lines ∧
      after.Holds (lines ++ rest) := by
  simp only [compareLinesAt, readPath_ok holds memberA, readPath_ok holds memberB, Option.bind_eq_bind, Option.bind_some,
    compareLines]
  by_cases asked : (context.config.includeLines && env.textTestA (context.files.openFile nameA) &&
      env.textTestB (context.files.openFile nameB)) = true
  · rw [if_pos asked, if_pos asked]
    exact detectLineDifferencesAt_ok _ _ env.lines .zero holds
  · rw [if_neg asked, if_neg asked]
    exact ⟨⟨none, 0, 0⟩, [], heap, rfl, .zero, holds⟩

theorem comparePathsAt_differ {infoA infoB : FileInfo} {env : CompareEnv} (at_ : ResultSetAt setPtrs set cells)
    (holds : heap.Holds (cells ++ rest)) (memberA : (pathA, .path nameA) ∈ rest) (memberB : (pathB, .path nameB) ∈ rest)
    (differ : compareHashes context.xxh context.config (context.files.openFile nameA) (context.files.openFile nameB) env =
      .ok false) (relativePath : CString) :
    Yields rest (comparePathsAt context infoA infoB relativePath pathA pathB env ⟨setPtrs, heap⟩)
      (let (rc, lineDiffs) :=
        compareLines context.config (context.files.openFile nameA) (context.files.openFile nameB) env
      if rc ≠ 0 then (rc, set)
      else
        let detailKind := if lineDiffs.items.length > 0 then DetailKind.lines else .binaryChanged
        resultSetPush set ⟨relativePath, .modified, detailKind, infoA.size, infoB.size, lineDiffs⟩ env.push) := by
  -- Two files that differ: their line differences go to the set with the record, or are destroyed.
  have insideA := List.mem_append_right cells memberA
  have insideB := List.mem_append_right cells memberB
  obtain ⟨vector, lines, middle, compared, vectorAt, others⟩ := compareLinesAt_ok holds insideA insideB env
  generalize compareLines context.config (context.files.openFile nameA) (context.files.openFile nameB) env = lineDiffs
    at compared vectorAt ⊢
  obtain ⟨rc, lineDiffs⟩ := lineDiffs
  simp only [comparePathsAt, readPath_ok holds insideA, readPath_ok holds insideB, differ, compared, Option.bind_eq_bind,
    Option.bind_some]
  by_cases failed : rc ≠ 0
  · obtain ⟨after, destroyed, kept⟩ := vectorAt.destroy others
    simp only [if_pos failed, Option.bind_some, destroyed]
    exact ⟨⟨setPtrs, after⟩, cells, rfl, at_, kept⟩
  · rw [if_neg failed, if_neg failed]
    have recordAt : RecordAt
        ⟨relativePath, .modified, if vector.count > 0 then .lines else .binaryChanged, infoA.size, infoB.size, vector⟩
        ⟨relativePath, .modified, if lineDiffs.items.length > 0 then .lines else .binaryChanged, infoA.size, infoB.size,
          lineDiffs⟩ lines := ⟨rfl, rfl, by rw [vectorAt.count], rfl, rfl, vectorAt⟩
    have front : middle.Holds (cells ++ (lines ++ rest)) := by
      refine others.reorder ?_
      classical grind
    obtain ⟨next, cells', pushed, setAt, kept⟩ := at_.push recordAt front env.push
    simp only [pushed, Option.bind_some]
    generalize resultSetPush set ⟨relativePath, .modified, if lineDiffs.items.length > 0 then .lines else .binaryChanged,
      infoA.size, infoB.size, lineDiffs⟩ env.push = out at setAt kept ⊢
    by_cases recorded : out.1 = 0
    · rw [if_pos recorded] at kept
      refine ⟨next, cells', ?_, setAt, kept⟩
      rw [if_neg (not_not.mpr recorded)]
      rfl
    · rw [if_neg recorded] at kept
      have back : next.heap.Holds (lines ++ (cells' ++ rest)) := by
        refine kept.reorder ?_
        classical grind
      obtain ⟨after, destroyed, kept⟩ := vectorAt.destroy back
      refine ⟨⟨next.set, after⟩, cells', ?_, setAt, kept⟩
      rw [if_pos recorded, destroyed]
      rfl

theorem comparePathsAt_ok {infoA infoB : FileInfo} {relativePath : CString} {env : CompareEnv}
    (foundA : fileIndexFindConst context.hashPath context.indexA relativePath = some infoA)
    (foundB : fileIndexFindConst context.hashPath context.indexB relativePath = some infoB)
    (sizes : ¬ infoA.size ≠ infoB.size) (joined : ¬ (!env.joinAOk || !env.joinBOk) = true)
    (at_ : ResultSetAt setPtrs set cells) (holds : heap.Holds (cells ++ rest))
    (memberA : (pathA, .path (vdJoinPath context.config.rootA relativePath)) ∈ rest)
    (memberB : (pathB, .path (vdJoinPath context.config.rootB relativePath)) ∈ rest) :
    Yields rest (comparePathsAt context infoA infoB relativePath pathA pathB env ⟨setPtrs, heap⟩)
      (compareCandidateFile context relativePath env set) := by
  simp only [compareCandidateFile, foundA, foundB, if_neg sizes, if_neg joined]
  cases hashes : compareHashes context.xxh context.config
      (context.files.openFile (vdJoinPath context.config.rootA relativePath))
      (context.files.openFile (vdJoinPath context.config.rootB relativePath)) env with
  | error fault =>
    simp only [comparePathsAt, readPath_ok holds (List.mem_append_right cells memberA),
      readPath_ok holds (List.mem_append_right cells memberB), hashes, Option.bind_eq_bind, Option.bind_some]
    exact ⟨⟨setPtrs, heap⟩, cells, rfl, at_, holds⟩
  | ok equal =>
    cases equal with
    | false => exact comparePathsAt_differ at_ holds memberA memberB hashes relativePath
    | true =>
      simp only [comparePathsAt, readPath_ok holds (List.mem_append_right cells memberA),
        readPath_ok holds (List.mem_append_right cells memberB), hashes, Option.bind_eq_bind, Option.bind_some]
      by_cases listed : context.config.includeUnchanged = true
      · rw [if_pos listed, if_pos listed]
        exact pushSimpleRecordAt_ok at_ holds _ _ _ _ _ _
      · rw [if_neg listed, if_neg listed]
        exact resultSetNoteTypeAt_ok at_ holds _

/-- A comparison in memory gives what the comparison gives, and has freed its paths. -/
theorem compareCandidateFileAt_ok (context : CompareContext) (at_ : ResultSetAt setPtrs set cells) (holds : heap.Holds (cells ++ rest))
    (relativePath : CString) (env : CompareEnv) :
    Yields rest (compareCandidateFileAt context relativePath env ⟨setPtrs, heap⟩)
      (compareCandidateFile context relativePath env set) := by
  cases foundA : fileIndexFindConst context.hashPath context.indexA relativePath with
  | none =>
    simp only [compareCandidateFileAt, compareCandidateFile, foundA]
    exact ⟨⟨setPtrs, heap⟩, cells, rfl, at_, holds⟩
  | some infoA =>
    cases foundB : fileIndexFindConst context.hashPath context.indexB relativePath with
    | none =>
      simp only [compareCandidateFileAt, compareCandidateFile, foundA, foundB]
      exact ⟨⟨setPtrs, heap⟩, cells, rfl, at_, holds⟩
    | some infoB =>
      by_cases sizes : infoA.size ≠ infoB.size
      · simp only [compareCandidateFileAt, compareCandidateFile, foundA, foundB, if_pos sizes]
        exact pushSimpleRecordAt_ok at_ holds _ _ _ _ _ _
      · by_cases joined : (!env.joinAOk || !env.joinBOk) = true
        · obtain ⟨_, _, _, _, after, gotA, gotB, missing, _, freed, kept⟩ := holds.allocEither
            (.path (vdJoinPath context.config.rootA relativePath)) (.path (vdJoinPath context.config.rootB relativePath))
            joined
          simp only [compareCandidateFileAt, compareCandidateFile, foundA, foundB, if_neg sizes, if_pos joined, joinPathAt,
            gotA, gotB]
          exact ⟨⟨setPtrs, after⟩, cells, Heap.match_either _ _ missing freed, at_, kept⟩
        · have both := joined
          simp only [Bool.or_eq_true, Bool.not_eq_eq_eq_not, Bool.not_true, not_or, Bool.not_eq_false] at both
          obtain ⟨pathA, pathB, _, last, gotA, gotB, _, others⟩ := holds.allocBoth
            (.path (vdJoinPath context.config.rootA relativePath)) (.path (vdJoinPath context.config.rootB relativePath))
          have front : last.Holds (cells ++ ((pathA, .path (vdJoinPath context.config.rootA relativePath)) ::
              (pathB, .path (vdJoinPath context.config.rootB relativePath)) :: rest)) := by
            refine others.reorder ?_
            classical grind
          obtain ⟨next, cells', given, setAt, kept⟩ := comparePathsAt_ok foundA foundB sizes joined at_ front
            (List.mem_cons_self ..) (List.mem_cons_of_mem _ (List.mem_cons_self ..))
          have paths : next.heap.Holds ((pathA, .path (vdJoinPath context.config.rootA relativePath)) ::
              (pathB, .path (vdJoinPath context.config.rootB relativePath)) :: (cells' ++ rest)) := by
            refine kept.reorder ?_
            classical grind
          obtain ⟨middle, freedA, others⟩ := paths.free
          obtain ⟨after, freedB, kept⟩ := others.free
          refine ⟨⟨next.set, after⟩, cells', ?_, setAt, kept⟩
          simp only [compareCandidateFileAt, foundA, foundB, if_neg sizes, joinPathAt, both, gotA, gotB, given, freedA,
            freedB, Option.bind_eq_bind, Option.bind_some]
          rfl

/-! ## Runs -/

variable {m next : ResultMemory} {trace : List (ResultsAction × Rc)}

theorem resultsStepAt_ok (context : CompareContext) (at_ : ResultSetAt m.set set cells)
    (holds : m.heap.Holds (cells ++ rest)) (action : ResultsAction) :
    ∃ next grown rc cells', resultsStepAt context m action = some (next, [(action, rc)]) ∧
      resultsStep context set action = some (grown, [(action, rc)]) ∧ ResultSetAt next.set grown cells' ∧
      next.heap.Holds (cells' ++ rest) := by
  -- An action in memory can be taken, and is the action on the set.
  cases action with
  | presence path type detailKind sizeA sizeB allocs =>
    obtain ⟨next, cells', given, setAt, kept⟩ := pushSimpleRecordAt_ok at_ holds path type detailKind sizeA sizeB allocs
    refine ⟨next, _, _, cells', ?_, rfl, setAt, kept⟩
    simp only [resultsStepAt, given, Option.bind_eq_bind, Option.bind_some]
    rfl
  | compare relativePath env =>
    obtain ⟨next, cells', given, setAt, kept⟩ := compareCandidateFileAt_ok context at_ holds relativePath env
    refine ⟨next, _, _, cells', ?_, rfl, setAt, kept⟩
    simp only [resultsStepAt, given, Option.bind_eq_bind, Option.bind_some]
    rfl

theorem ResultMemoryRun.represents (holds : heap.Holds rest) (run : ResultMemoryRun context heap m trace) :
    ∃ set cells, ResultsRun context set trace ∧ ResultSetAt m.set set cells ∧ m.heap.Holds (cells ++ rest) := by
  refine Run.invariant (fun m trace => ∃ set cells, ResultsRun context set trace ∧ ResultSetAt m.set set cells ∧
    m.heap.Holds (cells ++ rest)) ⟨resultSetInit, [], .start, resultSetInitAt_ok, holds⟩ ?_ run
  rintro m next trace events action _ ⟨set, cells, before, setAt, held⟩ _ step
  obtain ⟨after, grown, told, cells', taken, same, setAt', kept⟩ := resultsStepAt_ok context setAt held action
  rw [step] at taken
  cases taken
  exact ⟨grown, cells', before.next trivial same, setAt', kept⟩

/-- In memory, pushes and comparisons give the codes and the results that the same ones give without it,
whatever allocations and reads fail, and follow no null or freed pointer. The results can then
be destroyed, and nothing is left of them or of the calls. -/
theorem result_set_memory (holds : heap.Holds rest) (run : ResultMemoryRun context heap m trace) :
    (∃ set cells, ResultsRun context set trace ∧ ResultSetAt m.set set cells ∧ m.heap.Holds (cells ++ rest)) ∧
      (∀ action, ∃ next rc, resultsStepAt context m action = some (next, [(action, rc)])) ∧
      ∃ after, resultSetDestroyAt m = some after ∧ after.Holds rest := by
  obtain ⟨set, cells, before, setAt, held⟩ := run.represents holds
  refine ⟨⟨set, cells, before, setAt, held⟩, fun action => ?_, setAt.destroy held⟩
  obtain ⟨next, _, rc, _, taken, _⟩ := resultsStepAt_ok context setAt held action
  exact ⟨next, rc, taken⟩

theorem resultsStep_named {set grown : ResultSet} {action : ResultsAction} {events : List (ResultsAction × Rc)}
    (stepped : resultsStep context set action = some (grown, events)) : ∃ rc, events = [(action, rc)] := by
  cases action <;> cases stepped <;> exact ⟨_, rfl⟩

end

/-- A record that is pushed, one that gets no node, and a comparison of two files of one size, which has
line differences to hand over. -/
theorem result_set_memory_unrecorded :
    let path : CString := ⟨[102], by decide⟩
    let index : FileIndex := ⟨some ⟨path, ⟨path, 2, 0⟩, 0⟩ :: List.replicate 15 none, 16, 1⟩
    let files : FileSystem :=
      ⟨fun _ => .error .ENOENT, fun _ => .error .ENOENT, fun name =>
        .ok (if name.bytes = [97, 47, 102] then [120, 10] else [121, 10])⟩
    let config : Config := ⟨⟨[97], by decide⟩, ⟨[98], by decide⟩, 1, true, true, 1, 0, true⟩
    let context : CompareContext := ⟨config, fun _ => 0, index, index, files, .ofFunction fun _ => 7⟩
    let pushed : ResultsAction := .presence path .removed .onlyInSource 2 0 ⟨true, true⟩
    let refused : ResultsAction := .presence ⟨[103], by decide⟩ .removed .onlyInSource 2 0 ⟨true, false⟩
    let compared : ResultsAction := .compare path (.quiet 1)
    ∃ m set cells after,
      ResultMemoryRun context ⟨[], 0⟩ m [(pushed, 0), (refused, Fault.ENOMEM.code), (compared, 0)] ∧
      ResultSetAt m.set set cells ∧ m.heap.Holds cells ∧
      set.records.map ChangeRecord.detailKind = [.onlyInSource, .lines] ∧
      resultSetDestroyAt m = some after ∧ after.Holds [] := by
  intro path index files config context pushed refused compared
  have ends : (perform (resultsStep context) [pushed, refused, compared] resultSetInit).map (fun run =>
      (run.2.map Prod.snd, run.1.records.map ChangeRecord.detailKind)) =
        some ([0, Fault.ENOMEM.code, 0], [.onlyInSource, .lines]) := by decide +kernel
  have possible : ∀ {m : ResultMemory} {trace : List (ResultsAction × Rc)},
      ResultMemoryRun context ⟨[], 0⟩ m trace →
      ∀ action, ∃ next rc, resultsStepAt context m action = some (next, [(action, rc)]) :=
    fun run => (result_set_memory (Heap.holds_empty 0) run).2.1
  obtain ⟨m, trace, ran, actions⟩ := Run.exists_taking (fun _ _ => trivial) possible [pushed, refused, compared]
  obtain ⟨⟨set, cells, told, setAt, held⟩, _, after, freed, kept⟩ := result_set_memory (Heap.holds_empty 0) ran
  have again := told.replay resultsStep_named
  rw [actions] at again
  rw [again] at ends
  obtain ⟨codes, records⟩ := Prod.mk.inj (Option.some.inj ends)
  obtain rfl : trace = [(pushed, 0), (refused, Fault.ENOMEM.code), (compared, 0)] :=
    List.zip_of_prod actions codes
  exact ⟨m, set, cells, after, ran, setAt, by simpa using held, records, freed, kept⟩

end Verdiff
