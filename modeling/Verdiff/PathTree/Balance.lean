import Verdiff.Library.Shape
import Verdiff.PathTree

/-! The tree stays balanced: stored heights are the real ones, and the subtrees of every node
differ in height by at most one.
-/

set_option autoImplicit false

namespace Verdiff

namespace PathTree

/-- The real height; the stored ones are not looked at. -/
def height : PathTree → Nat
  | .null => 0
  | .node _ _ left right => 1 + max left.height right.height

def size : PathTree → Nat
  | .null => 0
  | .node _ _ left right => left.size + right.size + 1

/-- Every node stores its real height, and the heights of its subtrees differ by at most one. -/
def Balanced : PathTree → Prop
  | .null => True
  | .node i h left right =>
    h = (PathTree.node i h left right).height ∧ left.height ≤ right.height + 1 ∧
      right.height ≤ left.height + 1 ∧ left.Balanced ∧ right.Balanced

theorem Balanced.shape {tree : PathTree} (balanced : tree.Balanced) : Shape.Balanced tree.height tree.size := by
  induction tree with
  | null => exact .null
  | node i h left right ihLeft ihRight =>
    obtain ⟨_, leftHigh, rightHigh, left, right⟩ := balanced
    exact .node (ihLeft left) (ihRight right) leftHigh rightHigh

theorem Balanced.nodeHeight {tree : PathTree} (balanced : tree.Balanced) : nodeHeight tree = tree.height := by
  cases tree with
  | null => rfl
  | node i h left right => exact balanced.1

theorem height_updateHeight (tree : PathTree) : (updateHeight tree).height = tree.height := by
  cases tree <;> rfl

theorem balanced_updateHeight (i : Nat) (h : Int) {left right : PathTree} (balancedLeft : left.Balanced)
    (balancedRight : right.Balanced) (leftHigh : left.height ≤ right.height + 1)
    (rightHigh : right.height ≤ left.height + 1) : (updateHeight (.node i h left right)).Balanced := by
  refine ⟨?_, leftHigh, rightHigh, balancedLeft, balancedRight⟩
  rw [balancedLeft.nodeHeight, balancedRight.nodeHeight, height]
  omega

/-! ## Mirrored trees -/

def mirror : PathTree → PathTree
  | .null => .null
  | .node i h left right => .node i h right.mirror left.mirror

@[simp] theorem mirror_mirror (tree : PathTree) : tree.mirror.mirror = tree := by
  induction tree <;> simp_all [mirror]

@[simp] theorem nodeHeight_mirror (tree : PathTree) : nodeHeight tree.mirror = nodeHeight tree := by
  cases tree <;> rfl

@[simp] theorem nodeHeight_node (i : Nat) (h : Int) (left right : PathTree) :
    nodeHeight (.node i h left right) = h := rfl

@[simp] theorem left_mirror (tree : PathTree) : tree.mirror.left = tree.right.mirror := by
  cases tree <;> rfl

@[simp] theorem right_mirror (tree : PathTree) : tree.mirror.right = tree.left.mirror := by
  cases tree <;> rfl

@[simp] theorem height_mirror (tree : PathTree) : tree.mirror.height = tree.height := by
  induction tree with
  | null => rfl
  | node i h left right ihLeft ihRight => simp only [mirror, height, ihLeft, ihRight, Nat.max_comm]

theorem Balanced.mirror {tree : PathTree} (balanced : tree.Balanced) : tree.mirror.Balanced := by
  induction tree with
  | null => trivial
  | node i h left right ihLeft ihRight =>
    obtain ⟨stored, leftHigh, rightHigh, balancedLeft, balancedRight⟩ := balanced
    refine ⟨?_, ?_, ?_, ihRight balancedRight, ihLeft balancedLeft⟩
    · simpa [height, Nat.max_comm] using stored
    · simpa using rightHigh
    · simpa using leftHigh

theorem updateHeight_mirror (tree : PathTree) : updateHeight tree.mirror = (updateHeight tree).mirror := by
  cases tree with
  | null => rfl
  | node i h left right => simp [mirror, updateHeight, max_comm]

theorem rotateLeft_mirror (tree : PathTree) : rotateLeft tree.mirror = (rotateRight tree).mirror := by
  rcases tree with _ | ⟨i, h, _ | ⟨j, k, leftLeft, leftRight⟩, right⟩
  · rfl
  · cases right <;> rfl
  · simp [mirror, rotateLeft, rotateRight, updateHeight, max_comm]

theorem rotateRight_mirror (tree : PathTree) : rotateRight tree.mirror = (rotateLeft tree).mirror := by
  rw [← mirror_mirror (rotateRight tree.mirror), ← rotateLeft_mirror, mirror_mirror]

theorem rebalance_mirror (tree : PathTree) : rebalance tree.mirror = (rebalance tree).mirror := by
  -- Rebalancing treats the two sides alike.
  unfold rebalance
  rw [updateHeight_mirror]
  cases updateHeight tree with
  | null => rfl
  | node i h left right =>
    have fromRight : ∀ inner : PathTree,
        rotateRight (.node i h inner.mirror left.mirror) = (rotateLeft (.node i h left inner)).mirror := fun inner =>
      rotateRight_mirror (.node i h left inner)
    have fromLeft : ∀ inner : PathTree,
        rotateLeft (.node i h right.mirror inner.mirror) = (rotateRight (.node i h inner right)).mirror := fun inner =>
      rotateLeft_mirror (.node i h inner right)
    simp only [mirror, nodeHeight_mirror, left_mirror, right_mirror, rotateLeft_mirror, rotateRight_mirror,
      fromLeft, fromRight]
    by_cases leftHigh : nodeHeight left - nodeHeight right > 1
    · have notRight : ¬ nodeHeight right - nodeHeight left > 1 := by omega
      have turned : nodeHeight right - nodeHeight left < -1 := by omega
      simp only [leftHigh, notRight, turned, ↓reduceIte]
      split <;> rfl
    · by_cases rightHigh : nodeHeight left - nodeHeight right < -1
      · have turned : nodeHeight right - nodeHeight left > 1 := by omega
        simp only [leftHigh, rightHigh, turned, ↓reduceIte]
        split <;> rfl
      · have level₁ : ¬ nodeHeight right - nodeHeight left > 1 := by omega
        have level₂ : ¬ nodeHeight right - nodeHeight left < -1 := by omega
        simp only [leftHigh, rightHigh, level₁, level₂, ↓reduceIte]
        rfl

end PathTree

open PathTree

/-! ## Rebalancing -/

section
variable {i : Nat} {h : Int} {left right : PathTree}

theorem rotateRight_balanced {j : Nat} {k : Int} {leftLeft leftRight : PathTree}
    (balancedLL : leftLeft.Balanced) (balancedLR : leftRight.Balanced) (balancedRight : right.Balanced)
    (inner₁ : leftRight.height ≤ right.height + 1) (inner₂ : right.height ≤ leftRight.height + 1)
    (outer₁ : leftLeft.height ≤ max leftRight.height right.height + 2)
    (outer₂ : max leftRight.height right.height ≤ leftLeft.height) :
    (rotateRight (.node i h (.node j k leftLeft leftRight) right)).Balanced ∧
    (rotateRight (.node i h (.node j k leftLeft leftRight) right)).height =
      1 + max leftLeft.height (1 + max leftRight.height right.height) := by
  have lower : (updateHeight (.node i h leftRight right)).Balanced :=
    balanced_updateHeight i h balancedLR balancedRight inner₁ inner₂
  have lowerHeight : (updateHeight (.node i h leftRight right)).height =
      1 + max leftRight.height right.height := rfl
  refine ⟨balanced_updateHeight j k balancedLL lower ?_ ?_, rfl⟩
  · rw [lowerHeight]; omega
  · rw [lowerHeight]; omega

theorem rebalance_left (balancedLeft : left.Balanced) (balancedRight : right.Balanced)
    (high : left.height = right.height + 2) : (rebalance (.node i h left right)).Balanced ∧
      left.height ≤ (rebalance (.node i h left right)).height ∧
      (rebalance (.node i h left right)).height ≤ left.height + 1 := by
  -- The left subtree is too high by one level, so a single or a double rotation is due.
  have heightLeft := balancedLeft.nodeHeight
  have heightRight := balancedRight.nodeHeight
  cases left with
  | null => simp [height] at high
  | node j k leftLeft leftRight =>
    obtain ⟨_, close₁, close₂, balancedLL, balancedLR⟩ := balancedLeft
    have heightLL := balancedLL.nodeHeight
    have heightLR := balancedLR.nodeHeight
    have grand : (PathTree.node j k leftLeft leftRight).height = 1 + max leftLeft.height leftRight.height := rfl
    rw [grand] at high heightLeft ⊢
    unfold rebalance
    simp only [updateHeight, PathTree.left, PathTree.right, heightLL, heightLR]
    rw [if_pos (by omega)]
    generalize 1 + max (nodeHeight (.node j k leftLeft leftRight)) (nodeHeight right) = h
    split
    next leans =>
      -- The left subtree leans to the right, so its right subtree comes up two levels.
      cases leftRight with
      | null => exact absurd leans (by simp [height])
      | node l m midLeft midRight =>
        obtain ⟨_, close₃, close₄, balancedML, balancedMR⟩ := balancedLR
        have mid : (PathTree.node l m midLeft midRight).height = 1 + max midLeft.height midRight.height := rfl
        rw [mid] at high close₁ close₂ leans ⊢
        have lower : (updateHeight (.node j k leftLeft midLeft)).Balanced :=
          balanced_updateHeight j k balancedLL balancedML (by omega) (by omega)
        have lowerHeight : (updateHeight (.node j k leftLeft midLeft)).height =
          1 + max leftLeft.height midLeft.height := rfl
        obtain ⟨balanced, risen⟩ := @rotateRight_balanced i h right l (1 + max (nodeHeight (updateHeight
          (.node j k leftLeft midLeft))) (nodeHeight midRight)) _ midRight lower balancedMR balancedRight
          (by omega) (by omega) (by omega) (by omega)
        rw [lowerHeight] at risen
        refine ⟨balanced, ?_, ?_⟩
        · exact (by omega : _ ≤ _).trans_eq risen.symm
        · exact risen.le.trans (by omega)
    next leans =>
      obtain ⟨balanced, risen⟩ := @rotateRight_balanced i h right j k leftLeft leftRight balancedLL balancedLR
        balancedRight (by omega) (by omega) (by omega) (by omega)
      exact ⟨balanced, by omega, by omega⟩

/-- Subtrees that differ by at most two levels are brought back into balance. -/
theorem rebalance_balanced (i : Nat) (h : Int) (balancedLeft : left.Balanced) (balancedRight : right.Balanced)
    (leftHigh : left.height ≤ right.height + 2) (rightHigh : right.height ≤ left.height + 2) :
    (rebalance (.node i h left right)).Balanced ∧
      max left.height right.height ≤ (rebalance (.node i h left right)).height ∧
      (rebalance (.node i h left right)).height ≤ 1 + max left.height right.height ∧
      (left.height ≤ right.height + 1 → right.height ≤ left.height + 1 →
        (rebalance (.node i h left right)).height = 1 + max left.height right.height) := by
  by_cases high : left.height = right.height + 2
  · obtain ⟨balanced, low, up⟩ := @rebalance_left i h left right balancedLeft balancedRight high
    exact ⟨balanced, by omega, by omega, by omega⟩
  · by_cases low : right.height = left.height + 2
    · -- The mirrored tree is too high on its left.
      obtain ⟨balanced, down, up⟩ := @rebalance_left i h right.mirror left.mirror balancedRight.mirror
        balancedLeft.mirror (by simpa using low)
      rw [show PathTree.node i h right.mirror left.mirror = (PathTree.node i h left right).mirror from rfl,
        rebalance_mirror, height_mirror, height_mirror] at *
      exact ⟨by simpa using balanced.mirror, by omega, by omega, by omega⟩
    · have level : rebalance (.node i h left right) = updateHeight (.node i h left right) := by
        have heightLeft := balancedLeft.nodeHeight
        have heightRight := balancedRight.nodeHeight
        have notLeft : ¬ nodeHeight left - nodeHeight right > 1 := by omega
        have notRight : ¬ nodeHeight left - nodeHeight right < -1 := by omega
        simp only [rebalance, updateHeight, notLeft, notRight, ↓reduceIte]
      rw [level, height_updateHeight]
      refine ⟨balanced_updateHeight i h balancedLeft balancedRight (by omega) (by omega), ?_, ?_, ?_⟩
      · exact Nat.le_add_left _ _
      · exact le_rfl
      · exact fun _ _ => rfl

end

/-! ## Insertion -/

section
variable {records : List ChangeRecord}

/-- An insertion keeps the balance and raises the tree by at most one level. -/
theorem insertNode_balanced (recordIndex : Nat) (nodeOk : Bool) {tree : PathTree} (balanced : tree.Balanced) :
    (insertNode records recordIndex nodeOk tree).2.Balanced ∧
      tree.height ≤ (insertNode records recordIndex nodeOk tree).2.height ∧
      (insertNode records recordIndex nodeOk tree).2.height ≤ tree.height + 1 := by
  induction tree with
  | null =>
    cases nodeOk with
    | true => simp [insertNode, PathTree.Balanced, height]
    | false => simp [insertNode, PathTree.Balanced, height]
  | node i h left right ihLeft ihRight =>
    have unchanged : (PathTree.node i h left right).Balanced ∧
        (PathTree.node i h left right).height ≤ (PathTree.node i h left right).height ∧
        (PathTree.node i h left right).height ≤ (PathTree.node i h left right).height + 1 :=
      ⟨balanced, le_rfl, Nat.le_succ _⟩
    obtain ⟨stored, leftHigh, rightHigh, balancedLeft, balancedRight⟩ := balanced
    obtain ⟨leftAfter, left₁, left₂⟩ := ihLeft balancedLeft
    obtain ⟨rightAfter, right₁, right₂⟩ := ihRight balancedRight
    have whole : (PathTree.node i h left right).height = 1 + max left.height right.height := rfl
    rw [insertNode]
    simp only
    split
    next less =>
      split
      next failed => rwa [insertNode_failed failed]
      next inserted =>
        obtain ⟨kept, low, up, level⟩ := rebalance_balanced i h leftAfter balancedRight (by omega) (by omega)
        dsimp only
        exact ⟨kept, by omega, by omega⟩
    next notLess =>
      split
      next greater =>
        split
        next failed => rwa [insertNode_failed failed]
        next inserted =>
          obtain ⟨kept, low, up, level⟩ := rebalance_balanced i h balancedLeft rightAfter (by omega) (by omega)
          dsimp only
          exact ⟨kept, by omega, by omega⟩
      next equal => exact unchanged

/-- The calls of `insert_node` that are open at one time. -/
def insertDepth (records : List ChangeRecord) (recordIndex : Nat) : PathTree → Nat
  | .null => 1
  | .node i _ left right =>
    let cmp := compareRecords records recordIndex i
    if cmp < 0 then 1 + insertDepth records recordIndex left
    else if cmp > 0 then 1 + insertDepth records recordIndex right
    else 1

theorem insertDepth_le (recordIndex : Nat) (tree : PathTree) :
    insertDepth records recordIndex tree ≤ tree.height + 1 := by
  induction tree with
  | null => rfl
  | node i h left right ihLeft ihRight =>
    simp only [insertDepth, height]
    split
    · omega
    · split <;> omega

def PathTree.walkDepth : PathTree → Nat
  | .null => 1
  | .node _ _ left right => 1 + max left.walkDepth right.walkDepth

theorem walkDepth_eq (tree : PathTree) : tree.walkDepth = tree.height + 1 := by
  induction tree with
  | null => rfl
  | node i h left right ihLeft ihRight => simp only [PathTree.walkDepth, height, ihLeft, ihRight]; omega

end

/-! ## Runs -/

/-- The trees that calls of `path_tree_insert` make of an empty one, while records are added
to the array; `nodeOk` is whether a node could be allocated. -/
inductive TreeRun : List ChangeRecord → PathTree → Prop where
  | empty (records : List ChangeRecord) : TreeRun records .null
  | insert {records : List ChangeRecord} {tree : PathTree} (added : List ChangeRecord) (recordIndex : Nat)
      (nodeOk : Bool) : TreeRun records tree → recordIndex < (records ++ added).length →
      TreeRun (records ++ added) (pathTreeInsert tree (records ++ added) recordIndex nodeOk).2

/-- The nodes refer to records of the array, in the order of their paths. -/
structure PathTree.Ordered (records : List ChangeRecord) (tree : PathTree) : Prop where
  inside : ∀ i ∈ tree.inorder, i < records.length
  ascending : Keyed.Ascending (recordPath records) tree.inorder

theorem PathTree.Ordered.grow {records : List ChangeRecord} {tree : PathTree} (ordered : tree.Ordered records)
    (added : List ChangeRecord) : tree.Ordered (records ++ added) := by
  have shown : ∀ i ∈ tree.inorder, recordPath (records ++ added) i = recordPath records i := by
    intro i member
    have inside := ordered.inside i member
    simp [recordPath, List.getElem?_append_left inside]
  refine ⟨fun i member => ?_, (Keyed.Ascending.congr shown).mpr ordered.ascending⟩
  have inside := ordered.inside i member
  rw [List.length_append]
  omega

theorem PathTree.Ordered.insert {records : List ChangeRecord} {tree : PathTree} (ordered : tree.Ordered records)
    {recordIndex : Nat} (inside : recordIndex < records.length) (nodeOk : Bool) :
    (pathTreeInsert tree records recordIndex nodeOk).2.Ordered records := by
  by_cases failed : (pathTreeInsert tree records recordIndex nodeOk).1 = 0
  · have placed := inorder_insertNode recordIndex nodeOk ordered.ascending failed
    constructor
    · intro i member
      rw [pathTreeInsert, placed, Keyed.mem_place ordered.ascending] at member
      rcases member with rfl | ⟨older, _⟩
      · exact inside
      · exact ordered.inside i older
    · rw [pathTreeInsert, placed]
      exact Keyed.ascending_place ordered.ascending
  · rw [pathTreeInsert, insertNode_failed failed]
    exact ordered

theorem TreeRun.ordered {records : List ChangeRecord} {tree : PathTree} (run : TreeRun records tree) :
    tree.Ordered records := by
  induction run with
  | empty records => exact ⟨by simp [inorder], List.Pairwise.nil⟩
  | insert added recordIndex nodeOk _ inside ih => exact (ih.grow added).insert inside nodeOk

theorem TreeRun.balanced {records : List ChangeRecord} {tree : PathTree} (run : TreeRun records tree) :
    tree.Balanced := by
  induction run with
  | empty records => trivial
  | insert added recordIndex nodeOk _ _ ih => exact (insertNode_balanced recordIndex nodeOk ih).1

/-- After every call the tree is balanced and in order, so all recursions stay shallow, and a
call that fails has changed nothing. -/
theorem path_tree_insert_balanced {records : List ChangeRecord} {tree : PathTree} (run : TreeRun records tree) :
    tree.Balanced ∧
    (tree.inorder.map (recordPath records)).Pairwise (fun first second => strcmp first second < 0) ∧
    Nat.fib (tree.height + 2) - 1 ≤ tree.size ∧
    tree.height ≤ 2 * Nat.log 2 (tree.size + 1) + 1 ∧
    (∀ recordIndex, insertDepth records recordIndex tree ≤ tree.height + 1) ∧ tree.walkDepth = tree.height + 1 ∧
    ∀ added recordIndex nodeOk, (pathTreeInsert tree (records ++ added) recordIndex nodeOk).1 ≠ 0 →
      pathTreeInsert tree (records ++ added) recordIndex nodeOk = (Fault.ENOMEM.code, tree) := by
  have shape := run.balanced.shape
  refine ⟨run.balanced, ?_, ?_, shape.height_le_log, fun i => insertDepth_le i tree, walkDepth_eq tree,
    fun added recordIndex nodeOk failed => insertNode_failed failed⟩
  · rw [List.pairwise_map]
    exact run.ordered.ascending.imp fun less => (strcmp_neg _ _).mpr less
  · have enough := shape.fib_le
    omega

/-- Three paths inserted in ascending order, so that the root is rotated to the left; the next
node cannot be allocated. -/
theorem path_tree_insert_balanced_rotated :
    let record (byte : UInt8) (proper : (0 : UInt8) ∉ [byte]) : ChangeRecord :=
      ⟨⟨[byte], proper⟩, .added, .onlyInTarget, 0, 0, .zero⟩
    let records := [record 97 (by decide), record 98 (by decide), record 99 (by decide)]
    let tree := PathTree.node 1 2 (.node 0 1 .null .null) (.node 2 1 .null .null)
    tree.Balanced ∧ Nat.fib (tree.height + 2) - 1 ≤ tree.size ∧
      pathTreeInsert tree (records ++ [record 100 (by decide)]) 3 false = (Fault.ENOMEM.code, tree) := by
  intro record records tree
  have first : TreeRun records (.node 0 1 .null .null) :=
    (TreeRun.empty []).insert records 0 true (by decide)
  have second : TreeRun (records ++ []) (.node 0 2 .null (.node 1 1 .null .null)) :=
    first.insert [] 1 true (by decide)
  have third : TreeRun (records ++ [] ++ []) tree := second.insert [] 2 true (by decide)
  obtain ⟨balanced, _, enough, _, _, _, failed⟩ := path_tree_insert_balanced third
  exact ⟨balanced, enough, failed [record 100 (by decide)] 3 false (by decide +kernel)⟩

end Verdiff
