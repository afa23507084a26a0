import Verdiff.Library.Growable
import Verdiff.PathTree.Balance

/-! The path tree as its nodes lie in memory.

The functions follow pointers and write through them; to follow a null pointer, or one to
a block that is not there, is an error. The recursions are given fuel.
-/

set_option autoImplicit false

namespace Verdiff

inductive Side where
  | left
  | right
  deriving DecidableEq

def Side.other : Side → Side
  | .left => .right
  | .right => .left

/-- A `PathTreeNode`; a pointer may be `NULL`. -/
structure TreeNode where
  recordIndex : Nat
  height : Int
  left : Option Nat
  right : Option Nat

def TreeNode.child (node : TreeNode) : Side → Option Nat
  | .left => node.left
  | .right => node.right

def TreeNode.setChild (node : TreeNode) (ptr : Option Nat) : Side → TreeNode
  | .left => { node with left := ptr }
  | .right => { node with right := ptr }

structure OwnedString where
  data : Option Nat
  length : Nat

structure LineDiffPtrs where
  lineNumber : Nat
  left : OwnedString
  right : OwnedString

/-- A `ChangeRecord` in memory, with its vector of line differences; its path belongs to an index. -/
structure RecordPtrs where
  path : CString
  type : ChangeType
  detailKind : DetailKind
  sizeA : Int
  sizeB : Int
  lineDiffs : Growable

/-- The blocks that results are made of, and the paths of files that are being compared. -/
inductive ResultBlock where
  | node (node : TreeNode)
  | records (room : Nat) (items : List RecordPtrs)
  | lineDiffs (room : Nat) (items : List LineDiffPtrs)
  | text (bytes : Bytes)
  | path (value : CString)

abbrev ResultHeap := Heap ResultBlock

def readNode (heap : ResultHeap) (block : Nat) : Option TreeNode :=
  match heap.read block with
  | some (.node node) => some node
  | _ => none

def recordArrays : Arrays ResultBlock RecordPtrs where
  pack := .records
  unpack
    | .records room items => some (room, items)
    | _ => none
  unpack_pack _ _ := rfl

def setChild (heap : ResultHeap) (block : Nat) (side : Side) (ptr : Option Nat) : Option ResultHeap := do
  let node ← readNode heap block
  heap.write block (.node (node.setChild ptr side))

def nodeHeightAt (heap : ResultHeap) : Option Nat → Option Int
  | none => some 0
  | some block => (readNode heap block).map TreeNode.height

def updateHeightAt (heap : ResultHeap) (block : Nat) : Option ResultHeap := do
  let node ← readNode heap block
  let left ← nodeHeightAt heap node.left
  let right ← nodeHeightAt heap node.right
  heap.write block (.node { node with height := 1 + max left right })

def rotateAt (side : Side) (heap : ResultHeap) (block : Nat) : Option (Nat × ResultHeap) := do
  let node ← readNode heap block
  let lifted ← node.child side
  let child ← readNode heap lifted
  let heap ← setChild heap block side (child.child side.other)
  let heap ← setChild heap lifted side.other (some block)
  let heap ← updateHeightAt heap block
  let heap ← updateHeightAt heap lifted
  return (lifted, heap)

def rotateRightAt : ResultHeap → Nat → Option (Nat × ResultHeap) := rotateAt .left

def rotateLeftAt : ResultHeap → Nat → Option (Nat × ResultHeap) := rotateAt .right

/-- One of the two branches of `rebalance`, by the side that is too high. -/
def lowerAt (side : Side) (heap : ResultHeap) (block : Nat) : Option (Nat × ResultHeap) := do
  let node ← readNode heap block
  let high ← node.child side
  let child ← readNode heap high
  let near ← nodeHeightAt heap (child.child side)
  let far ← nodeHeightAt heap (child.child side.other)
  let heap ← if near < far then do
      let (lifted, heap) ← rotateAt side.other heap high
      setChild heap block side (some lifted)
    else some heap
  rotateAt side heap block

def rebalanceAt (heap : ResultHeap) (block : Nat) : Option (Nat × ResultHeap) := do
  let heap ← updateHeightAt heap block
  let node ← readNode heap block
  let left ← nodeHeightAt heap node.left
  let right ← nodeHeightAt heap node.right
  if left - right > 1 then lowerAt .left heap block
  else if left - right < -1 then lowerAt .right heap block
  else return (block, heap)

def compareRecordsAt (heap : ResultHeap) (items : Option Nat) (lhs rhs : Nat) : Option Int := do
  let (_, records) ← recordArrays.read heap items
  let first ← records[lhs]?
  let second ← records[rhs]?
  return strcmp first.path second.path

/-- What a `PathTreeNode **` can point to. -/
inductive NodePlace where
  | orderedRoot
  | child (block : Nat) (side : Side)

structure TreeMemory where
  orderedRoot : Option Nat
  heap : ResultHeap

def TreeMemory.load (m : TreeMemory) : NodePlace → Option (Option Nat)
  | .orderedRoot => some m.orderedRoot
  | .child block side => (readNode m.heap block).map fun node => node.child side

def TreeMemory.store (m : TreeMemory) (ptr : Option Nat) : NodePlace → Option TreeMemory
  | .orderedRoot => some { m with orderedRoot := ptr }
  | .child block side => do
    let heap ← setChild m.heap block side ptr
    return { m with heap := heap }

def insertNodeAt (items : Option Nat) (recordIndex : Nat) (nodeOk : Bool) : Nat → NodePlace → TreeMemory → Option (Rc × TreeMemory)
  | 0, _, _ => none
  | fuel + 1, root, m => do
    match ← m.load root with
    | none =>
      if nodeOk then
        let (block, heap) := m.heap.alloc (.node ⟨recordIndex, 1, none, none⟩)
        let m ← TreeMemory.store ⟨m.orderedRoot, heap⟩ (some block) root
        return (0, m)
      else return (Fault.ENOMEM.code, m)
    | some block =>
      let node ← readNode m.heap block
      let cmp ← compareRecordsAt m.heap items recordIndex node.recordIndex
      if cmp = 0 then
        let heap ← m.heap.write block (.node { node with recordIndex := recordIndex })
        return (0, { m with heap := heap })
      else
        let side := if cmp < 0 then .left else .right
        let (rc, m) ← insertNodeAt items recordIndex nodeOk fuel (.child block side) m
        if rc ≠ 0 then return (rc, m)
        else
          let block ← (← m.load root)
          let (block, heap) ← rebalanceAt m.heap block
          let m ← TreeMemory.store ⟨m.orderedRoot, heap⟩ (some block) root
          return (0, m)

def pathTreeInorderAt {σ : Type} (visitor : Nat → σ → Int × σ) (heap : ResultHeap) :
    Nat → Option Nat → σ → Option (Int × σ)
  | _, none, state => some (0, state)
  | 0, some _, _ => none
  | fuel + 1, some block, state => do
    let node ← readNode heap block
    let (rc, state) ← pathTreeInorderAt visitor heap fuel node.left state
    if rc ≠ 0 then return (rc, state)
    else
      let (rc, state) := visitor node.recordIndex state
      if rc ≠ 0 then return (rc, state) else pathTreeInorderAt visitor heap fuel node.right state

def pathTreeDestroyAt : Nat → Option Nat → ResultHeap → Option ResultHeap
  | _, none, heap => some heap
  | 0, some _, _ => none
  | fuel + 1, some block, heap => do
    let node ← readNode heap block
    let heap ← pathTreeDestroyAt fuel node.left heap
    -- The node is still there after its left subtree is gone.
    let node ← readNode heap block
    let heap ← pathTreeDestroyAt fuel node.right heap
    heap.free block

/-! ## Trees seen from one side -/

namespace PathTree

def branch (i : Nat) (h : Int) (near far : PathTree) : Side → PathTree
  | .left => .node i h near far
  | .right => .node i h far near

def child (tree : PathTree) : Side → PathTree
  | .left => tree.left
  | .right => tree.right

end PathTree

def rotate (tree : PathTree) : Side → PathTree
  | .left => rotateRight tree
  | .right => rotateLeft tree

def TreeNode.branch (i : Nat) (h : Int) (near far : Option Nat) : Side → TreeNode
  | .left => ⟨i, h, near, far⟩
  | .right => ⟨i, h, far, near⟩

section
variable (i j : Nat) (h k : Int) (near far nearNear nearFar : PathTree) (side : Side)

theorem rotate_branch :
    rotate (.branch i h (.branch j k nearNear nearFar side) far side) side =
      .branch j (1 + max (nodeHeight nearNear) (1 + max (nodeHeight nearFar) (nodeHeight far))) nearNear
        (.branch i (1 + max (nodeHeight nearFar) (nodeHeight far)) nearFar far side) side := by
  cases side with
  | left => rfl
  | right =>
    simp only [rotate, PathTree.branch, rotateLeft, updateHeight, PathTree.nodeHeight_node]
    rw [max_comm (nodeHeight far), max_comm _ (nodeHeight nearNear)]

theorem rebalance_branch (high : nodeHeight near - nodeHeight far > 1) :
    rebalance (.branch i h near far side) =
      rotate (.branch i (1 + max (nodeHeight near) (nodeHeight far))
        (if nodeHeight (near.child side) < nodeHeight (near.child side.other) then rotate near side.other else near)
        far side) side := by
  cases side with
  | left =>
    by_cases less : nodeHeight near.left < nodeHeight near.right
    · rw [if_pos (show nodeHeight (near.child .left) < nodeHeight (near.child Side.left.other) from less)]
      simp only [rebalance, PathTree.branch, updateHeight, if_pos high, if_pos less]
      rfl
    · rw [if_neg (show ¬ nodeHeight (near.child .left) < nodeHeight (near.child Side.left.other) from less)]
      simp only [rebalance, PathTree.branch, updateHeight, if_pos high, if_neg less]
      rfl
  | right =>
    have notLeft : ¬ nodeHeight far - nodeHeight near > 1 := by omega
    have low : nodeHeight far - nodeHeight near < -1 := by omega
    by_cases less : nodeHeight near.right < nodeHeight near.left
    · rw [if_pos (show nodeHeight (near.child .right) < nodeHeight (near.child Side.right.other) from less), max_comm]
      simp only [rebalance, PathTree.branch, updateHeight, if_neg notLeft, if_pos low, if_pos less]
      rfl
    · rw [if_neg (show ¬ nodeHeight (near.child .right) < nodeHeight (near.child Side.right.other) from less), max_comm]
      simp only [rebalance, PathTree.branch, updateHeight, if_neg notLeft, if_pos low, if_neg less]
      rfl

@[simp] theorem nodeHeight_branch : nodeHeight (.branch i h near far side) = h := by cases side <;> rfl

theorem branch_other : PathTree.branch i h near far side.other = .branch i h far near side := by cases side <;> rfl

@[simp] theorem child_branch : (PathTree.branch i h near far side).child side = near := by cases side <;> rfl

@[simp] theorem child_branch_other : (PathTree.branch i h near far side).child side.other = far := by
  cases side <;> rfl

end

section
variable (i : Nat) (h : Int) (near far ptr : Option Nat) (side : Side)

theorem TreeNode.branch_other : TreeNode.branch i h near far side.other = .branch i h far near side := by
  cases side <;> rfl

@[simp] theorem TreeNode.child_branch : (TreeNode.branch i h near far side).child side = near := by cases side <;> rfl

@[simp] theorem TreeNode.child_branch_other : (TreeNode.branch i h near far side).child side.other = far := by
  cases side <;> rfl

@[simp] theorem TreeNode.setChild_branch :
    (TreeNode.branch i h near far side).setChild ptr side = .branch i h ptr far side := by cases side <;> rfl

@[simp] theorem TreeNode.setChild_branch_other :
    (TreeNode.branch i h near far side).setChild ptr side.other = .branch i h near ptr side := by cases side <;> rfl

end

/-! ## The blocks of a tree -/

/-- The blocks of the tree below a pointer, in any order. -/
inductive TreeAt : Option Nat → PathTree → List (Nat × ResultBlock) → Prop where
  | null : TreeAt none .null []
  | node {block i : Nat} {h : Int} {l r : Option Nat} {left right : PathTree} {cells cellsL cellsR : List (Nat × ResultBlock)} :
      TreeAt l left cellsL → TreeAt r right cellsR → cells.Perm ([(block, .node ⟨i, h, l, r⟩)] ++ (cellsL ++ cellsR)) →
      TreeAt (some block) (.node i h left right) cells

section
variable {heap : ResultHeap} {rest cells cellsN cellsF : List (Nat × ResultBlock)} {block i : Nat} {h : Int}
  {ptr n f : Option Nat} {tree near far : PathTree} {side : Side}

@[simp] theorem height_branch : (PathTree.branch i h near far side).height = 1 + max near.height far.height := by
  cases side with
  | left => rfl
  | right => exact congrArg (1 + ·) (max_comm _ _)

@[simp] theorem mem_inorder_branch (x : Nat) :
    x ∈ (PathTree.branch i h near far side).inorder ↔ x = i ∨ x ∈ near.inorder ∨ x ∈ far.inorder := by
  cases side <;> simp [PathTree.branch, PathTree.inorder] <;> tauto

theorem TreeAt.branch (nearAt : TreeAt n near cellsN) (farAt : TreeAt f far cellsF) (side : Side)
    (parts : cells.Perm ([(block, .node (.branch i h n f side))] ++ (cellsN ++ cellsF))) :
    TreeAt (some block) (.branch i h near far side) cells := by
  cases side with
  | left => exact .node nearAt farAt parts
  | right => exact .node farAt nearAt (parts.trans (List.perm_append_comm.append_left _))

theorem TreeAt.parts (treeAt : TreeAt ptr (.branch i h near far side) cells) :
    ∃ block n f cellsN cellsF, ptr = some block ∧ TreeAt n near cellsN ∧ TreeAt f far cellsF ∧
      cells.Perm ([(block, .node (.branch i h n f side))] ++ (cellsN ++ cellsF)) := by
  cases side with
  | left =>
    obtain _ | ⟨leftAt, rightAt, parts⟩ := treeAt
    exact ⟨_, _, _, _, _, rfl, leftAt, rightAt, parts⟩
  | right =>
    obtain _ | ⟨leftAt, rightAt, parts⟩ := treeAt
    exact ⟨_, _, _, _, _, rfl, rightAt, leftAt, parts.trans (List.perm_append_comm.append_left _)⟩

theorem readNode_ok {node : TreeNode} (holds : heap.Holds cells) (member : (block, .node node) ∈ cells) :
    readNode heap block = some node := by
  rw [readNode, holds.read member]

theorem nodeHeightAt_ok (treeAt : TreeAt ptr tree cells) (holds : heap.Holds rest) (inside : cells ⊆ rest) :
    nodeHeightAt heap ptr = some (nodeHeight tree) := by
  cases treeAt with
  | null => rfl
  | node leftAt rightAt parts =>
    rw [nodeHeightAt, readNode_ok holds (inside (parts.mem_iff.mpr (List.mem_cons_self ..)))]
    rfl

theorem setChild_ok {node : TreeNode} (holds : heap.Holds ((block, .node node) :: rest)) (side : Side) (ptr : Option Nat) :
    ∃ after, setChild heap block side ptr = some after ∧ after.Holds ((block, .node (node.setChild ptr side)) :: rest) := by
  obtain ⟨after, written, kept⟩ := holds.write (.node (node.setChild ptr side))
  refine ⟨after, ?_, kept⟩
  rw [setChild, readNode_ok holds (List.mem_cons_self ..)]
  exact written

theorem updateHeightAt_ok (holds : heap.Holds ((block, .node (.branch i h n f side)) :: rest))
    (nearAt : TreeAt n near cellsN) (farAt : TreeAt f far cellsF) (insideN : cellsN ⊆ rest) (insideF : cellsF ⊆ rest) :
    ∃ after, updateHeightAt heap block = some after ∧
      after.Holds ((block, .node (.branch i (1 + max (nodeHeight near) (nodeHeight far)) n f side)) :: rest) := by
  obtain ⟨after, written, kept⟩ := holds.write
    (.node (.branch i (1 + max (nodeHeight near) (nodeHeight far)) n f side))
  refine ⟨after, ?_, kept⟩
  have heightN := nodeHeightAt_ok nearAt holds (List.subset_cons_of_subset _ insideN)
  have heightF := nodeHeightAt_ok farAt holds (List.subset_cons_of_subset _ insideF)
  rw [updateHeightAt, readNode_ok holds (List.mem_cons_self ..)]
  cases side with
  | left => simpa only [TreeNode.branch, heightN, heightF, Option.bind_eq_bind, Option.bind_some] using written
  | right =>
    simpa only [TreeNode.branch, heightN, heightF, Option.bind_eq_bind, Option.bind_some,
      max_comm (nodeHeight far)] using written

/-! ## Rotations -/

theorem TreeAt.filled (treeAt : TreeAt (some block) tree cells) : tree ≠ .null := by
  rintro rfl
  cases treeAt

theorem rotateAt_ok {low j : Nat} {k : Int} {nn nf : Option Nat} {nearNear nearFar : PathTree}
    {cellsNN cellsNF : List (Nat × ResultBlock)}
    (holds : heap.Holds ((block, .node (.branch i h (some low) f side)) :: (low, .node (.branch j k nn nf side)) :: rest))
    (nearNearAt : TreeAt nn nearNear cellsNN) (nearFarAt : TreeAt nf nearFar cellsNF) (farAt : TreeAt f far cellsF)
    (inside : cellsNN ++ (cellsNF ++ cellsF) ⊆ rest) :
    ∃ after, rotateAt side heap block = some (low, after) ∧
      after.Holds ((low, .node (.branch j (1 + max (nodeHeight nearNear) (1 + max (nodeHeight nearFar) (nodeHeight far)))
          nn (some block) side)) ::
        (block, .node (.branch i (1 + max (nodeHeight nearFar) (nodeHeight far)) nf f side)) :: rest) := by
  have insideNN : cellsNN ⊆ rest := fun _ member => inside (List.mem_append_left _ member)
  have insideNF : cellsNF ⊆ rest := fun _ member => inside (List.mem_append_right _ (List.mem_append_left _ member))
  have insideF : cellsF ⊆ rest := fun _ member => inside (List.mem_append_right _ (List.mem_append_right _ member))
  have top := readNode_ok holds (List.mem_cons_self ..)
  have child := readNode_ok holds (List.mem_cons_of_mem _ (List.mem_cons_self ..))
  obtain ⟨first, moved, holds⟩ := setChild_ok holds side nf
  obtain ⟨second, hung, holds⟩ := setChild_ok (holds.reorder (List.Perm.swap _ _ _)) side.other (some block)
  rw [TreeNode.setChild_branch, TreeNode.setChild_branch_other] at holds
  obtain ⟨third, lowered, holds⟩ := updateHeightAt_ok (holds.reorder (List.Perm.swap _ _ _)) nearFarAt farAt
    (List.subset_cons_of_subset _ insideNF) (List.subset_cons_of_subset _ insideF)
  -- The lifted node is brought up to date over the lowered one.
  have loweredAt : TreeAt (some block) (.branch i (1 + max (nodeHeight nearFar) (nodeHeight far)) nearFar far side)
      ([(block, .node (.branch i (1 + max (nodeHeight nearFar) (nodeHeight far)) nf f side))] ++ (cellsNF ++ cellsF)) :=
    nearFarAt.branch farAt side (List.Perm.refl _)
  have insideLowered := List.cons_subset_cons
    (block, ResultBlock.node (.branch i (1 + max (nodeHeight nearFar) (nodeHeight far)) nf f side))
    (List.append_subset.mpr ⟨insideNF, insideF⟩)
  obtain ⟨fourth, lifted, holds⟩ := updateHeightAt_ok (holds.reorder (List.Perm.swap _ _ _)) nearNearAt loweredAt
    (List.subset_cons_of_subset _ insideNN) insideLowered
  refine ⟨fourth, ?_, ?_⟩
  · simp only [rotateAt, top, child, TreeNode.child_branch, TreeNode.child_branch_other, moved, hung, lowered, lifted,
      Option.bind_eq_bind, Option.bind_some]
    rfl
  · rw [nodeHeight_branch] at holds
    exact holds

theorem rotateAt_tree {j : Nat} {k : Int} {nearNear nearFar : PathTree}
    (treeAt : TreeAt (some block) (.branch i h (.branch j k nearNear nearFar side) far side) cells)
    (holds : heap.Holds (cells ++ rest)) :
    ∃ lifted after cells, rotateAt side heap block = some (lifted, after) ∧
      TreeAt (some lifted) (rotate (.branch i h (.branch j k nearNear nearFar side) far side) side) cells ∧
      after.Holds (cells ++ rest) := by
  obtain ⟨_, n, f, cellsN, cellsF, same, nearAt, farAt, parts⟩ := treeAt.parts
  cases same
  obtain ⟨low, nn, nf, cellsNN, cellsNF, rfl, nearNearAt, nearFarAt, nearParts⟩ := nearAt.parts
  have apart : heap.Holds ((block, .node (.branch i h (some low) f side)) :: (low, .node (.branch j k nn nf side)) ::
      (cellsNN ++ (cellsNF ++ cellsF) ++ rest)) := by
    refine holds.reorder ?_
    classical grind
  obtain ⟨after, rotated, kept⟩ := rotateAt_ok apart nearNearAt nearFarAt farAt (List.subset_append_left _ _)
  rw [rotate_branch]
  have loweredAt : TreeAt (some block) (.branch i (1 + max (nodeHeight nearFar) (nodeHeight far)) nearFar far side) _ :=
    nearFarAt.branch farAt side (List.Perm.refl _)
  refine ⟨low, after, _, rotated, nearNearAt.branch loweredAt side (List.Perm.refl _), kept.reorder ?_⟩
  classical grind

theorem PathTree.as_branch (filled : tree ≠ .null) (side : Side) :
    ∃ i h, tree = .branch i h (tree.child side) (tree.child side.other) side := by
  cases tree with
  | null => exact absurd rfl filled
  | node i h left right => exact ⟨i, h, by cases side <;> rfl⟩

theorem PathTree.Balanced.child (balanced : tree.Balanced) (side : Side) : (tree.child side).Balanced := by
  cases tree with
  | null => cases side <;> trivial
  | node i h left right =>
    cases side with
    | left => exact balanced.2.2.2.1
    | right => exact balanced.2.2.2.2

theorem filled_of_higher (balanced : far.Balanced) (higher : nodeHeight far < nodeHeight near) : near ≠ .null := by
  -- What is higher than a balanced tree is not empty.
  rintro rfl
  rw [balanced.nodeHeight, nodeHeight] at higher
  omega

theorem leanAt_tree {low : Nat} (balanced : near.Balanced) (nearAt : TreeAt (some low) near cellsN)
    (less : nodeHeight (near.child side) < nodeHeight (near.child side.other))
    (holds : heap.Holds ((block, .node (.branch i h (some low) f side)) :: (cellsN ++ rest))) :
    ∃ lifted middle after cellsN, rotateAt side.other heap low = some (lifted, middle) ∧
      setChild middle block side (some lifted) = some after ∧ TreeAt (some lifted) (rotate near side.other) cellsN ∧
      after.Holds ((block, .node (.branch i h (some lifted) f side)) :: (cellsN ++ rest)) := by
  -- The child that leans to the other side is rotated first, and it is there.
  have filled : near ≠ .null := by
    rintro rfl
    cases side <;> exact absurd less (lt_irrefl _)
  obtain ⟨j, k, shape⟩ := PathTree.as_branch filled side.other
  obtain ⟨j', k', shape'⟩ := PathTree.as_branch (filled_of_higher (balanced.child side) less) side.other
  rw [shape'] at shape
  have front : heap.Holds (cellsN ++ ((block, .node (.branch i h (some low) f side)) :: rest)) := by
    refine holds.reorder ?_
    classical grind
  rw [shape] at nearAt ⊢
  obtain ⟨lifted, middle, cellsN', rotated, liftedAt, kept⟩ := rotateAt_tree nearAt front
  have back : middle.Holds ((block, .node (.branch i h (some low) f side)) :: (cellsN' ++ rest)) := by
    refine kept.reorder ?_
    classical grind
  obtain ⟨after, stored, kept⟩ := setChild_ok back side (some lifted)
  rw [TreeNode.setChild_branch] at kept
  exact ⟨lifted, middle, after, cellsN', rotated, stored, liftedAt, kept⟩

theorem lowerAt_tree (balanced : near.Balanced) (balancedF : far.Balanced)
    (high : nodeHeight near - nodeHeight far > 1)
    (treeAt : TreeAt (some block) (.branch i (1 + max (nodeHeight near) (nodeHeight far)) near far side) cells)
    (holds : heap.Holds (cells ++ rest)) :
    ∃ lifted after cells, lowerAt side heap block = some (lifted, after) ∧
      TreeAt (some lifted) (rebalance (.branch i h near far side)) cells ∧ after.Holds (cells ++ rest) := by
  obtain ⟨_, n, f, cellsN, cellsF, same, nearAt, farAt, parts⟩ := treeAt.parts
  cases same
  obtain ⟨j, k, shape⟩ := PathTree.as_branch (filled_of_higher balancedF (by omega : nodeHeight far < nodeHeight near)) side
  have seen := nearAt
  rw [shape] at seen
  obtain ⟨low, nn, nf, cellsNN, cellsNF, rfl, nearNearAt, nearFarAt, nearParts⟩ := seen.parts
  have apart : heap.Holds ((block, .node (.branch i (1 + max (nodeHeight near) (nodeHeight far)) (some low) f side)) ::
      (cellsN ++ (cellsF ++ rest))) := by
    refine holds.reorder ?_
    classical grind
  have top := readNode_ok apart (List.mem_cons_self ..)
  have child := readNode_ok apart (List.mem_cons_of_mem _ (List.mem_append_left _ (nearParts.mem_iff.mpr (List.mem_cons_self ..))))
  have inside (cells : List (Nat × ResultBlock)) (within : cells ⊆ cellsNN ++ cellsNF) :
      cells ⊆ (block, .node (.branch i (1 + max (nodeHeight near) (nodeHeight far)) (some low) f side)) ::
        (cellsN ++ (cellsF ++ rest)) := fun cell member =>
    List.mem_cons_of_mem _ (List.mem_append_left _ (nearParts.mem_iff.mpr (List.mem_cons_of_mem _ (within member))))
  have heightN := nodeHeightAt_ok nearNearAt apart (inside _ (List.subset_append_left _ _))
  have heightF := nodeHeightAt_ok nearFarAt apart (inside _ (List.subset_append_right _ _))
  simp only [lowerAt, top, child, TreeNode.child_branch, TreeNode.child_branch_other, heightN, heightF, Option.bind_eq_bind,
    Option.bind_some]
  rw [rebalance_branch _ _ _ _ _ high]
  by_cases less : nodeHeight (near.child side) < nodeHeight (near.child side.other)
  · obtain ⟨lifted, middle, next, cellsN', rotated, stored, liftedAt, kept⟩ := leanAt_tree balanced nearAt less apart
    rw [if_pos less, if_pos less]
    simp only [rotated, stored, Option.bind_some]
    have leaned : TreeAt (some block) (.branch i (1 + max (nodeHeight near) (nodeHeight far)) (rotate near side.other) far side)
        ([(block, .node (.branch i (1 + max (nodeHeight near) (nodeHeight far)) (some lifted) f side))] ++
          (cellsN' ++ cellsF)) :=
      liftedAt.branch farAt side (List.Perm.refl _)
    obtain ⟨j', k', shape'⟩ := PathTree.as_branch liftedAt.filled side
    rw [shape'] at leaned ⊢
    refine rotateAt_tree leaned (kept.reorder ?_)
    classical grind
  · rw [if_neg less, if_neg less]
    rw [shape] at treeAt ⊢
    exact rotateAt_tree treeAt holds

/-- Subtrees that are out of balance by any number of levels are rotated as the tree is. -/
theorem rebalanceAt_tree {left right : PathTree} (balancedL : left.Balanced) (balancedR : right.Balanced)
    (treeAt : TreeAt (some block) (.node i h left right) cells) (holds : heap.Holds (cells ++ rest)) :
    ∃ lifted after cells, rebalanceAt heap block = some (lifted, after) ∧
      TreeAt (some lifted) (rebalance (.node i h left right)) cells ∧ after.Holds (cells ++ rest) := by
  obtain _ | @⟨_, _, _, l, r, _, _, _, cellsL, cellsR, leftAt, rightAt, parts⟩ := treeAt
  have apart : heap.Holds ((block, .node (.branch i h l r .left)) :: (cellsL ++ (cellsR ++ rest))) := by
    refine holds.reorder ?_
    classical grind [TreeNode.branch]
  have insideL : cellsL ⊆ cellsL ++ (cellsR ++ rest) := List.subset_append_left _ _
  have insideR : cellsR ⊆ cellsL ++ (cellsR ++ rest) := fun _ member =>
    List.mem_append_right _ (List.mem_append_left _ member)
  obtain ⟨middle, updated, kept⟩ := updateHeightAt_ok apart leftAt rightAt insideL insideR
  have top := readNode_ok kept (List.mem_cons_self ..)
  have heightL := nodeHeightAt_ok leftAt kept (List.subset_cons_of_subset _ insideL)
  have heightR := nodeHeightAt_ok rightAt kept (List.subset_cons_of_subset _ insideR)
  simp only [rebalanceAt, updated, top, TreeNode.branch, heightL, heightR, Option.bind_eq_bind, Option.bind_some]
  have updatedAt : TreeAt (some block) (.node i (1 + max (nodeHeight left) (nodeHeight right)) left right)
      ([(block, .node (.branch i (1 + max (nodeHeight left) (nodeHeight right)) l r .left))] ++ (cellsL ++ cellsR)) :=
    leftAt.branch rightAt .left (List.Perm.refl _)
  have whole := kept.reorder (show List.Perm _ ([(block, ResultBlock.node (.branch i (1 + max (nodeHeight left) (nodeHeight right))
    l r .left))] ++ (cellsL ++ cellsR) ++ rest) by simp)
  by_cases highL : nodeHeight left - nodeHeight right > 1
  · rw [if_pos highL]
    exact @lowerAt_tree _ _ _ _ i h _ _ .left balancedL balancedR highL updatedAt whole
  · rw [if_neg highL]
    by_cases highR : nodeHeight left - nodeHeight right < -1
    · rw [if_pos highR]
      rw [max_comm] at updatedAt whole
      exact @lowerAt_tree _ _ _ _ i h _ _ .right balancedR balancedL (by omega) updatedAt whole
    · rw [if_neg highR]
      have level : rebalance (.node i h left right) = .node i (1 + max (nodeHeight left) (nodeHeight right)) left right := by
        simp only [rebalance, updateHeight, if_neg highL, if_neg highR]
      rw [level]
      exact ⟨block, middle, _, rfl, updatedAt, whole⟩

theorem rebalanceAt_branch (balancedN : near.Balanced) (balancedF : far.Balanced)
    (treeAt : TreeAt (some block) (.branch i h near far side) cells) (holds : heap.Holds (cells ++ rest)) :
    ∃ lifted after cells, rebalanceAt heap block = some (lifted, after) ∧
      TreeAt (some lifted) (rebalance (.branch i h near far side)) cells ∧ after.Holds (cells ++ rest) := by
  cases side with
  | left => exact rebalanceAt_tree balancedN balancedF treeAt holds
  | right => exact rebalanceAt_tree balancedF balancedN treeAt holds

end

end Verdiff
