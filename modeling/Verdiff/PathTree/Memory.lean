import Verdiff.Library.Transition
import Verdiff.PathTree.Nodes

/-! Insertion, traversal and destruction of the tree in memory do what they do to the tree, and
need no more fuel than the height of the tree.
-/

set_option autoImplicit false

namespace Verdiff
open Transition

/-! ## Insertion -/

/-- A place that holds a pointer to a tree: the root, or a child of a node that is not in the tree. -/
inductive Hole where
  | orderedRoot
  | child (block i : Nat) (h : Int) (far : Option Nat) (side : Side)

namespace Hole

def place : Hole → NodePlace
  | orderedRoot => .orderedRoot
  | child block _ _ _ side => .child block side

def cells (hole : Hole) (ptr : Option Nat) : List (Nat × ResultBlock) :=
  match hole with
  | orderedRoot => []
  | child block i h far side => [(block, .node (.branch i h ptr far side))]

def root (hole : Hole) (outer ptr : Option Nat) : Option Nat :=
  match hole with
  | orderedRoot => ptr
  | child .. => outer

end Hole

section
variable {heap : ResultHeap} {rest cells : List (Nat × ResultBlock)} {hole : Hole} {ptr : Option Nat}

theorem load_ok (outer : Option Nat) (holds : heap.Holds cells) (inside : hole.cells ptr ⊆ cells) :
    TreeMemory.load ⟨hole.root outer ptr, heap⟩ hole.place = some ptr := by
  cases hole with
  | orderedRoot => rfl
  | child block i h far side =>
    have found := readNode_ok holds (inside (List.mem_singleton_self _))
    simp only [TreeMemory.load, Hole.place, found, Option.map_some, TreeNode.child_branch]

theorem store_ok (outer : Option Nat) (holds : heap.Holds (hole.cells ptr ++ rest)) (next : Option Nat) :
    ∃ after, TreeMemory.store ⟨hole.root outer ptr, heap⟩ next hole.place = some ⟨hole.root outer next, after⟩ ∧
      after.Holds (hole.cells next ++ rest) := by
  cases hole with
  | orderedRoot => exact ⟨heap, rfl, holds⟩
  | child block i h far side =>
    obtain ⟨after, stored, kept⟩ := setChild_ok holds side next
    rw [TreeNode.setChild_branch] at kept
    refine ⟨after, ?_, kept⟩
    simp only [TreeMemory.store, Hole.place, stored, Option.bind_eq_bind, Option.bind_some]
    rfl

def RecordsAt (items : Option Nat) (records : List ChangeRecord) (cells : List (Nat × ResultBlock)) : Prop :=
  ∃ block room written, items = some block ∧ (block, .records room written) ∈ cells ∧
    ∀ i < records.length, ∃ record, written[i]? = some record ∧ record.path = recordPath records i

variable {items : Option Nat} {recordIndex : Nat} {records : List ChangeRecord}

theorem RecordsAt.mono (at_ : RecordsAt items records rest) (inside : rest ⊆ cells) : RecordsAt items records cells := by
  obtain ⟨block, room, written, rfl, member, paths⟩ := at_
  exact ⟨block, room, written, rfl, inside member, paths⟩

theorem compareRecordsAt_ok (holds : heap.Holds cells) (at_ : RecordsAt items records cells) {lhs rhs : Nat}
    (first : lhs < records.length) (second : rhs < records.length) :
    compareRecordsAt heap items lhs rhs = some (compareRecords records lhs rhs) := by
  obtain ⟨block, room, written, rfl, member, paths⟩ := at_
  obtain ⟨left, foundL, pathL⟩ := paths lhs first
  obtain ⟨right, foundR, pathR⟩ := paths rhs second
  have found : recordArrays.read heap (some block) = some (room, written) := Arrays.read_ok holds member
  simp only [compareRecordsAt, found, foundL, foundR, Option.bind_eq_bind, Option.bind_some, compareRecords, ← pathL, ← pathR]
  rfl

theorem insertNode_branch {i : Nat} {h : Int} {near far : PathTree} {side : Side} (nodeOk : Bool)
    (differs : compareRecords records recordIndex i ≠ 0)
    (goes : side = if compareRecords records recordIndex i < 0 then .left else .right) :
    insertNode records recordIndex nodeOk (.branch i h near far side) =
      let out := insertNode records recordIndex nodeOk near
      if out.1 ≠ 0 then (out.1, .branch i h out.2 far side) else (0, rebalance (.branch i h out.2 far side)) := by
  by_cases less : compareRecords records recordIndex i < 0
  · rw [if_pos less] at goes
    subst goes
    simp only [PathTree.branch, insertNode, if_pos less]
  · have more : compareRecords records recordIndex i > 0 := by omega
    rw [if_neg less] at goes
    subst goes
    simp only [PathTree.branch, insertNode, if_neg less, if_pos more]

/-- What an insertion in memory does at a place, given the tree there. -/
def Inserts (items : Option Nat) (recordIndex : Nat) (nodeOk : Bool) (records : List ChangeRecord) (tree : PathTree) : Prop :=
  ∀ {fuel : Nat} {heap : ResultHeap} {hole : Hole} {ptr : Option Nat} {cells rest : List (Nat × ResultBlock)}
    (outer : Option Nat), tree.Balanced → (∀ i ∈ tree.inorder, i < records.length) → TreeAt ptr tree cells → RecordsAt items records rest →
    heap.Holds (cells ++ (hole.cells ptr ++ rest)) → tree.height < fuel →
    ∃ next after cells,
      insertNodeAt items recordIndex nodeOk fuel hole.place ⟨hole.root outer ptr, heap⟩ =
        some ((insertNode records recordIndex nodeOk tree).1, ⟨hole.root outer next, after⟩) ∧
      TreeAt next (insertNode records recordIndex nodeOk tree).2 cells ∧ after.Holds (cells ++ (hole.cells next ++ rest))

theorem inserts_null (nodeOk : Bool) : Inserts items recordIndex nodeOk records .null := by
  intro fuel heap hole ptr cells rest outer _ _ treeAt _ holds enough
  cases treeAt
  obtain ⟨fuel, rfl⟩ : ∃ less, fuel = less + 1 := ⟨fuel - 1, by omega⟩
  have loaded := load_ok outer holds (List.subset_append_left _ _)
  cases nodeOk with
  | false =>
    refine ⟨none, heap, [], ?_, .null, holds⟩
    simp only [insertNodeAt, loaded, Option.bind_eq_bind, Option.bind_some, Bool.false_eq_true, ↓reduceIte]
    rfl
  | true =>
    have grown : (heap.alloc (.node ⟨recordIndex, 1, none, none⟩)).2.Holds
        ((heap.next, .node ⟨recordIndex, 1, none, none⟩) :: (hole.cells none ++ rest)) := holds.alloc _
    obtain ⟨after, stored, kept⟩ := store_ok outer (grown.reorder List.perm_middle.symm) (some heap.next)
    refine ⟨some heap.next, after, _, ?_, .node .null .null (List.Perm.refl _), kept.reorder List.perm_middle⟩
    simp only [insertNodeAt, loaded, Option.bind_eq_bind, Option.bind_some, ↓reduceIte]
    rw [show (heap.alloc (.node ⟨recordIndex, 1, none, none⟩)).1 = heap.next from rfl, stored]
    rfl

theorem inserts_branch {i : Nat} {h : Int} {near far : PathTree} (side : Side) {nodeOk : Bool}
    (differs : compareRecords records recordIndex i ≠ 0)
    (goes : side = if compareRecords records recordIndex i < 0 then .left else .right)
    (bounded : recordIndex < records.length) (ih : Inserts items recordIndex nodeOk records near) :
    Inserts items recordIndex nodeOk records (.branch i h near far side) := by
  intro fuel heap hole ptr cells rest outer balanced inside treeAt recordsAt holds enough
  obtain ⟨fuel, rfl⟩ : ∃ less, fuel = less + 1 := ⟨fuel - 1, by omega⟩
  obtain ⟨block, n, f, cellsN, cellsF, rfl, nearAt, farAt, parts⟩ := treeAt.parts
  have all := inside
  simp only [mem_inorder_branch] at all
  have balancedN : near.Balanced := by simpa using balanced.child side
  have balancedF : far.Balanced := by simpa using balanced.child side.other
  rw [height_branch] at enough
  have top : readNode heap block = some (.branch i h n f side) :=
    readNode_ok holds (List.mem_append_left _ (parts.mem_iff.mpr (List.mem_cons_self ..)))
  have loaded := load_ok outer holds (List.subset_append_of_subset_right _ (List.subset_append_left _ _))
  have compared := compareRecordsAt_ok holds
    (recordsAt.mono (List.subset_append_of_subset_right _ (List.subset_append_right _ _))) bounded (all i (.inl rfl))
  have index : (TreeNode.branch i h n f side).recordIndex = i := by cases side <;> rfl
  have apart : heap.Holds (cellsN ++ ((Hole.child block i h f side).cells n ++
      (cellsF ++ (hole.cells (some block) ++ rest)))) := by
    refine holds.reorder ?_
    rw [Hole.cells]
    classical grind
  obtain ⟨next, middle, cellsN', inserted, nearAt', kept⟩ := ih (hole.root outer (some block)) balancedN
    (fun j member => all j (.inr (.inl member))) nearAt
    (recordsAt.mono (List.subset_append_of_subset_right _ (List.subset_append_right _ _))) apart (by omega : _ < fuel)
  have raised : TreeAt (some block) (.branch i h (insertNode records recordIndex nodeOk near).2 far side)
      ([(block, .node (.branch i h next f side))] ++ (cellsN' ++ cellsF)) := nearAt'.branch farAt side (List.Perm.refl _)
  have whole : middle.Holds ([(block, .node (.branch i h next f side))] ++ (cellsN' ++ cellsF) ++
      (hole.cells (some block) ++ rest)) := by
    refine kept.reorder ?_
    rw [Hole.cells]
    classical grind
  have inner : insertNodeAt items recordIndex nodeOk fuel (.child block side) ⟨hole.root outer (some block), heap⟩ =
      some ((insertNode records recordIndex nodeOk near).1, ⟨hole.root outer (some block), middle⟩) := inserted
  rw [insertNode_branch nodeOk differs goes]
  simp only [insertNodeAt, loaded, top, index, compared, Option.bind_eq_bind, Option.bind_some, if_neg differs, ← goes,
    inner]
  by_cases failed : (insertNode records recordIndex nodeOk near).1 ≠ 0
  · rw [if_pos failed, if_pos failed]
    exact ⟨some block, middle, _, rfl, raised, whole⟩
  · rw [if_neg failed, if_neg failed]
    have reloaded := load_ok outer whole (List.subset_append_of_subset_right _ (List.subset_append_left _ _))
    obtain ⟨lifted, after, cells', rebalanced, treeAt', kept⟩ :=
      rebalanceAt_branch (insertNode_balanced recordIndex nodeOk balancedN).1 balancedF raised whole
    have ready : after.Holds (hole.cells (some block) ++ (cells' ++ rest)) := by
      refine kept.reorder ?_
      classical grind
    obtain ⟨last, stored, final⟩ := store_ok outer ready (some lifted)
    refine ⟨some lifted, last, cells', ?_, treeAt', final.reorder ?_⟩
    · simp only [reloaded, rebalanced, stored, Option.bind_some]
      rfl
    · classical grind

theorem inserts_equal {i : Nat} {h : Int} {left right : PathTree} (nodeOk : Bool)
    (equal : compareRecords records recordIndex i = 0) (bounded : recordIndex < records.length) :
    Inserts items recordIndex nodeOk records (.node i h left right) := by
  -- At a node of its own path an insertion takes the node over.
  intro fuel heap hole ptr cells rest outer balanced inside treeAt recordsAt holds enough
  obtain ⟨fuel, rfl⟩ : ∃ less, fuel = less + 1 := ⟨fuel - 1, by omega⟩
  obtain _ | @⟨block, _, _, l, r, _, _, _, cellsL, cellsR, leftAt, rightAt, parts⟩ := treeAt
  have top : readNode heap block = some ⟨i, h, l, r⟩ :=
    readNode_ok holds (List.mem_append_left _ (parts.mem_iff.mpr (List.mem_cons_self ..)))
  have loaded := load_ok outer holds (List.subset_append_of_subset_right _ (List.subset_append_left _ _))
  have compared := compareRecordsAt_ok holds
    (recordsAt.mono (List.subset_append_of_subset_right _ (List.subset_append_right _ _))) bounded
    (inside i (List.mem_append_right _ (List.mem_cons_self ..)))
  have front : heap.Holds ((block, .node ⟨i, h, l, r⟩) :: (cellsL ++ cellsR ++ (hole.cells (some block) ++ rest))) := by
    refine holds.reorder ?_
    classical grind
  obtain ⟨after, written, kept⟩ := front.write (.node ⟨recordIndex, h, l, r⟩)
  have notLess : ¬ compareRecords records recordIndex i < 0 := by omega
  have notMore : ¬ compareRecords records recordIndex i > 0 := by omega
  simp only [insertNodeAt, loaded, top, compared, Option.bind_eq_bind, Option.bind_some, if_pos equal, written, insertNode,
    if_neg notLess, if_neg notMore]
  exact ⟨some block, after, _, rfl, .node leftAt rightAt (List.Perm.refl _), kept⟩

theorem inserts (nodeOk : Bool) (bounded : recordIndex < records.length) (tree : PathTree) :
    Inserts items recordIndex nodeOk records tree := by
  induction tree with
  | null => exact inserts_null nodeOk
  | node i h left right ihLeft ihRight =>
    by_cases equal : compareRecords records recordIndex i = 0
    · exact inserts_equal nodeOk equal bounded
    · by_cases less : compareRecords records recordIndex i < 0
      · exact inserts_branch .left equal (if_pos less).symm bounded ihLeft
      · exact inserts_branch .right equal (if_neg less).symm bounded ihRight

/-! ## Traversal and destruction -/

theorem pathTreeInorderAt_ok {σ : Type} (visitor : Nat → σ → Int × σ) {tree : PathTree} (holds : heap.Holds rest) :
    ∀ {fuel ptr cells state}, TreeAt ptr tree cells → cells ⊆ rest → tree.height ≤ fuel →
      pathTreeInorderAt visitor heap fuel ptr state = some (pathTreeInorder visitor tree state) := by
  induction tree with
  | null =>
    intro fuel ptr cells state treeAt _ _
    cases treeAt
    cases fuel <;> rfl
  | node i h left right ihLeft ihRight =>
    intro fuel ptr cells state treeAt inside enough
    obtain _ | @⟨block, _, _, l, r, _, _, _, cellsL, cellsR, leftAt, rightAt, parts⟩ := treeAt
    rw [PathTree.height] at enough
    obtain ⟨fuel, rfl⟩ : ∃ less, fuel = less + 1 := ⟨fuel - 1, by omega⟩
    have within := fun cell (member : cell ∈ _) => inside (parts.mem_iff.mpr member)
    have top := readNode_ok holds (within _ (List.mem_cons_self ..))
    have seenL := @ihLeft fuel l cellsL state leftAt
      (fun _ member => within _ (List.mem_append_right _ (List.mem_append_left _ member))) (by omega)
    simp only [pathTreeInorderAt, top, seenL, Option.bind_eq_bind, Option.bind_some, pathTreeInorder]
    by_cases failed : (pathTreeInorder visitor left state).1 ≠ 0
    · rw [if_pos failed, if_pos failed]
      rfl
    · rw [if_neg failed, if_neg failed]
      by_cases stopped : (visitor i (pathTreeInorder visitor left state).2).1 ≠ 0
      · rw [if_pos stopped, if_pos stopped]
        rfl
      · rw [if_neg stopped, if_neg stopped]
        exact ihRight rightAt
          (fun _ member => within _ (List.mem_append_right _ (List.mem_append_right _ member))) (by omega)

theorem pathTreeDestroyAt_ok {tree : PathTree} :
    ∀ {fuel ptr cells rest heap}, TreeAt ptr tree cells → Heap.Holds heap (cells ++ rest) → tree.height ≤ fuel →
      ∃ after, pathTreeDestroyAt fuel ptr heap = some after ∧ after.Holds rest := by
  -- Every node of the tree is freed, and nothing else.
  induction tree with
  | null =>
    intro fuel ptr cells rest heap treeAt holds _
    cases treeAt
    exact ⟨heap, by cases fuel <;> rfl, holds⟩
  | node i h left right ihLeft ihRight =>
    intro fuel ptr cells rest heap treeAt holds enough
    obtain _ | @⟨block, _, _, l, r, _, _, _, cellsL, cellsR, leftAt, rightAt, parts⟩ := treeAt
    rw [PathTree.height] at enough
    obtain ⟨fuel, rfl⟩ : ∃ less, fuel = less + 1 := ⟨fuel - 1, by omega⟩
    have front : heap.Holds (cellsL ++ (cellsR ++ ((block, .node ⟨i, h, l, r⟩) :: rest))) := by
      refine holds.reorder ?_
      classical grind
    have top := readNode_ok front (List.mem_append_right _ (List.mem_append_right _ (List.mem_cons_self ..)))
    obtain ⟨middle, freedL, others⟩ := ihLeft leftAt front (by omega : _ ≤ fuel)
    have still := readNode_ok others (List.mem_append_right _ (List.mem_cons_self ..))
    obtain ⟨last, freedR, left⟩ := ihRight rightAt others (by omega : _ ≤ fuel)
    obtain ⟨after, freed, kept⟩ := left.free
    refine ⟨after, ?_, kept⟩
    simp only [pathTreeDestroyAt, top, freedL, still, freedR, Option.bind_eq_bind, Option.bind_some]
    exact freed

theorem TreeAt.length {tree : PathTree} (treeAt : TreeAt ptr tree cells) : cells.length = tree.size := by
  induction treeAt with
  | null => rfl
  | node leftAt rightAt parts ihLeft ihRight =>
    rw [parts.length_eq, List.length_append, List.length_append, ihLeft, ihRight, PathTree.size, List.length_singleton]
    omega

theorem PathTree.size_eq (tree : PathTree) : tree.size = tree.inorder.length := by
  induction tree with
  | null => rfl
  | node i h left right ihLeft ihRight =>
    rw [PathTree.size, PathTree.inorder, ihLeft, ihRight, List.length_append, List.length_cons]
    omega

theorem PathTree.height_le_size (tree : PathTree) : tree.height ≤ tree.size := by
  induction tree with
  | null => exact le_rfl
  | node i h left right ihLeft ihRight =>
    rw [PathTree.height, PathTree.size]
    omega

theorem PathTree.Ordered.size_le {tree : PathTree} (ordered : tree.Ordered records) : tree.size ≤ records.length := by
  -- No two nodes refer to one record.
  have distinct : tree.inorder.Nodup := by
    refine List.Pairwise.imp (fun less same => ?_) ordered.ascending
    subst same
    exact lt_irrefl _ less
  have fits : tree.inorder ⊆ List.range records.length := fun i member => List.mem_range.mpr (ordered.inside i member)
  have short := (List.subperm_of_subset distinct fits).length_le
  rwa [List.length_range, ← tree.size_eq] at short

theorem PathTree.Ordered.height_le {tree : PathTree} (ordered : tree.Ordered records) : tree.height ≤ records.length :=
  tree.height_le_size.trans ordered.size_le

/-! ## Runs -/

abbrev InsertCall : Type := Nat × Bool

def insertStep (records : List ChangeRecord) (tree : PathTree) (call : InsertCall) :
    Option (PathTree × List (InsertCall × Rc)) :=
  let (rc, tree) := pathTreeInsert tree records call.1 call.2
  some (tree, [(call, rc)])

def insertStepAt (items : Option Nat) (fuel : Nat) (m : TreeMemory) (call : InsertCall) :
    Option (TreeMemory × List (InsertCall × Rc)) := do
  let (rc, m) ← insertNodeAt items call.1 call.2 fuel .orderedRoot m
  return (m, [(call, rc)])

abbrev TreeCalls (records : List ChangeRecord) : PathTree → List (InsertCall × Rc) → Prop :=
  Run (insertStep records) (fun _ call => call.1 < records.length) .null

abbrev TreeMemoryCalls (records : List ChangeRecord) (items : Option Nat) (fuel : Nat) (heap : ResultHeap) :
    TreeMemory → List (InsertCall × Rc) → Prop :=
  Run (insertStepAt items fuel) (fun _ call => call.1 < records.length) ⟨none, heap⟩

theorem TreeCalls.treeRun {tree : PathTree} {trace : List (InsertCall × Rc)} (calls : TreeCalls records tree trace) :
    TreeRun records tree := by
  refine Run.invariant (fun tree _ => TreeRun records tree) (.empty records) ?_ calls
  rintro tree next _ _ call _ before inside step
  cases step
  have longer := before.insert [] call.1 call.2 (by rwa [List.append_nil])
  rwa [List.append_nil] at longer

theorem TreeCalls.height_le {tree : PathTree} {trace : List (InsertCall × Rc)} (calls : TreeCalls records tree trace) :
    tree.height ≤ 2 * Nat.log 2 (records.length + 1) + 1 := by
  -- Fuel for twice the logarithm of the number of records is enough.
  have low := calls.treeRun.balanced.shape.height_le_log
  have few := calls.treeRun.ordered.size_le
  have monotone : Nat.log 2 (tree.size + 1) ≤ Nat.log 2 (records.length + 1) := Nat.log_mono_right (by omega)
  omega

theorem insertStepAt_ok {fuel : Nat} (recordsAt : RecordsAt items records rest)
    (enough : 2 * Nat.log 2 (records.length + 1) + 1 < fuel) {tree : PathTree} {trace : List (InsertCall × Rc)}
    (calls : TreeCalls records tree trace) {m : TreeMemory} (treeAt : TreeAt m.orderedRoot tree cells)
    (holds : m.heap.Holds (cells ++ rest)) (call : InsertCall) (inside : call.1 < records.length) :
    ∃ next grown rc cells, insertStepAt items fuel m call = some (next, [(call, rc)]) ∧
      insertStep records tree call = some (grown, [(call, rc)]) ∧ TreeAt next.orderedRoot grown cells ∧
      next.heap.Holds (cells ++ rest) := by
  have low := calls.height_le
  obtain ⟨root, heap⟩ := m
  have ready : heap.Holds (cells ++ (Hole.orderedRoot.cells root ++ rest)) := holds
  obtain ⟨next, after, cells', inserted, treeAt', kept⟩ := inserts call.2 inside tree none
    calls.treeRun.balanced calls.treeRun.ordered.inside treeAt recordsAt ready (by omega : _ < fuel)
  refine ⟨⟨next, after⟩, _, _, cells', ?_, rfl, treeAt', kept⟩
  rw [insertStepAt, show insertNodeAt items call.1 call.2 fuel .orderedRoot ⟨root, heap⟩ = _ from inserted]
  rfl

theorem TreeMemoryCalls.represents {fuel : Nat} (recordsAt : RecordsAt items records rest)
    (enough : 2 * Nat.log 2 (records.length + 1) + 1 < fuel) (holds : heap.Holds rest) {m : TreeMemory}
    {trace : List (InsertCall × Rc)} (calls : TreeMemoryCalls records items fuel heap m trace) :
    ∃ tree cells, TreeCalls records tree trace ∧ TreeAt m.orderedRoot tree cells ∧ m.heap.Holds (cells ++ rest) := by
  refine Run.invariant (fun (m : TreeMemory) trace => ∃ tree cells, TreeCalls records tree trace ∧
    TreeAt m.orderedRoot tree cells ∧ m.heap.Holds (cells ++ rest)) ⟨.null, [], .start, .null, holds⟩ ?_ calls
  rintro m next trace events call _ ⟨tree, cells, before, treeAt, held⟩ inside step
  obtain ⟨after, grown, told, cells', taken, same, treeAt', kept⟩ :=
    insertStepAt_ok recordsAt enough before treeAt held call inside
  rw [step] at taken
  cases taken
  exact ⟨grown, cells', before.next inside same, treeAt', kept⟩

/-- In memory, calls of `path_tree_insert` make the tree that the same calls make, one block a node,
with the same codes, whatever allocations fail. They follow no null or freed pointer, and none of
the recursions is deeper than twice the logarithm of the number of records. The traversal visits
what it visits in the tree, and the destruction gives back what was allocated. -/
theorem path_tree_memory {fuel : Nat} (recordsAt : RecordsAt items records rest)
    (enough : 2 * Nat.log 2 (records.length + 1) + 1 < fuel) (holds : heap.Holds rest) {m : TreeMemory}
    {trace : List (InsertCall × Rc)} (calls : TreeMemoryCalls records items fuel heap m trace) :
    ∃ tree cells, TreeCalls records tree trace ∧ TreeAt m.orderedRoot tree cells ∧ m.heap.Holds (cells ++ rest) ∧
      cells.length = tree.size ∧ tree.Balanced ∧
      (∀ call, call.1 < records.length → ∃ next rc, insertStepAt items fuel m call = some (next, [(call, rc)])) ∧
      (∀ {σ : Type} (visitor : Nat → σ → Int × σ) (state : σ),
        pathTreeInorderAt visitor m.heap fuel m.orderedRoot state = some (pathTreeInorder visitor tree state)) ∧
      ∃ after, pathTreeDestroyAt fuel m.orderedRoot m.heap = some after ∧ after.Holds rest := by
  obtain ⟨tree, cells, before, treeAt, held⟩ := TreeMemoryCalls.represents recordsAt enough holds calls
  have low : tree.height ≤ fuel := le_trans before.height_le (Nat.le_of_lt enough)
  refine ⟨tree, cells, before, treeAt, held, treeAt.length, before.treeRun.balanced, fun call inside => ?_,
    fun visitor state => ?_, pathTreeDestroyAt_ok treeAt held low⟩
  · obtain ⟨next, _, rc, _, taken, _⟩ := insertStepAt_ok recordsAt enough before treeAt held call inside
    exact ⟨next, rc, taken⟩
  · exact pathTreeInorderAt_ok visitor held treeAt (List.subset_append_left _ _) low

end

/-- Three paths inserted in ascending order, so that the second node becomes the root, and a fourth
call that takes over a node; then all nodes are freed. -/
theorem path_tree_memory_rotated :
    let record (byte : UInt8) (proper : (0 : UInt8) ∉ [byte]) : ChangeRecord :=
      ⟨⟨[byte], proper⟩, .removed, .onlyInSource, 0, 0, .zero⟩
    let records := [record 97 (by decide), record 98 (by decide), record 99 (by decide)]
    let written := records.map fun record =>
      (⟨record.path, .removed, .onlyInSource, 0, 0, ⟨none, 0, 0⟩⟩ : RecordPtrs)
    let heap : ResultHeap := ⟨[(0, .records 64 written)], 1⟩
    ∃ m after, TreeMemoryCalls records (some 0) 10 heap m
        [((0, true), 0), ((1, true), 0), ((2, true), 0), ((0, false), 0)] ∧ m.orderedRoot = some 2 ∧
      pathTreeDestroyAt 10 (some 2) m.heap = some after ∧ after.Holds heap.blocks := by
  intro record records written heap
  have holds : heap.Holds heap.blocks := ⟨.refl _, by simp [heap], by simp [heap]⟩
  have recordsAt : RecordsAt (some 0) records heap.blocks :=
    ⟨0, 64, written, rfl, by simp [heap], fun i inside => ⟨_, List.getElem?_eq_getElem (by simpa [written] using inside), by
      simp [written, recordPath, List.getD_eq_getElem?_getD, List.getElem?_eq_getElem inside]⟩⟩
  have ends : (perform (insertStepAt (some 0) 10) [(0, true), (1, true), (2, true), (0, false)] ⟨none, heap⟩).map
      (fun run => (run.1.orderedRoot, run.2)) =
        some (some 2, [((0, true), 0), ((1, true), 0), ((2, true), 0), ((0, false), 0)]) := by rfl
  obtain ⟨⟨m, trace⟩, performed, same⟩ := Option.map_eq_some_iff.mp ends
  obtain ⟨root, rfl⟩ := Prod.mk.inj same
  have calls : TreeMemoryCalls records (some 0) 10 heap m _ := Run.of_perform (by simp [records]) performed
  have enough := Nat.log_le_self 2 (records.length + 1)
  obtain ⟨_, _, _, _, _, _, _, _, _, after, freed, kept⟩ :=
    path_tree_memory recordsAt (show _ < 10 by simp [records] at enough ⊢; omega) holds calls
  exact ⟨m, after, calls, root, root ▸ freed, kept⟩

end Verdiff
