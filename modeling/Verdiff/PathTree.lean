import Verdiff.Common
import Verdiff.Library.Keyed

/-! The balanced tree of record indexes.

A node refers to a record by its index in the result array, and the order of two
nodes is the `strcmp` order of the paths of their records.
-/

set_option autoImplicit false

namespace Verdiff

inductive PathTree where
  | null
  | node (recordIndex : Nat) (height : Int) (left right : PathTree)
  deriving DecidableEq

def nodeHeight : PathTree → Int
  | .null => 0
  | .node _ height _ _ => height

def PathTree.left : PathTree → PathTree
  | .null => .null
  | .node _ _ left _ => left

def PathTree.right : PathTree → PathTree
  | .null => .null
  | .node _ _ _ right => right

def updateHeight : PathTree → PathTree
  | .null => .null
  | .node i _ left right => .node i (1 + max (nodeHeight left) (nodeHeight right)) left right

/-- The code reads the left child unconditionally; it only rotates where there is one. -/
def rotateRight : PathTree → PathTree
  | .node i h (.node j k leftLeft leftRight) right =>
    updateHeight (.node j k leftLeft (updateHeight (.node i h leftRight right)))
  | other => other

def rotateLeft : PathTree → PathTree
  | .node i h left (.node j k rightLeft rightRight) =>
    updateHeight (.node j k (updateHeight (.node i h left rightLeft)) rightRight)
  | other => other

def recordPath (records : List ChangeRecord) (i : Nat) : CString := (records.getD i default).path

def compareRecords (records : List ChangeRecord) (lhs rhs : Nat) : Int :=
  strcmp (recordPath records lhs) (recordPath records rhs)

def rebalance (node : PathTree) : PathTree :=
  match updateHeight node with
  | .null => .null
  | .node i h left right =>
    let balance := nodeHeight left - nodeHeight right
    -- A child that leans to the other side is rotated first.
    if balance > 1 then
      if nodeHeight left.left < nodeHeight left.right then rotateRight (.node i h (rotateLeft left) right)
      else rotateRight (.node i h left right)
    else if balance < -1 then
      if nodeHeight right.right < nodeHeight right.left then rotateLeft (.node i h left (rotateRight right))
      else rotateLeft (.node i h left right)
    else .node i h left right

/-- `nodeOk` is the outcome of the one `calloc` an insertion can make. A failed
insertion below leaves the path to it as it is, without rebalancing. -/
def insertNode (records : List ChangeRecord) (recordIndex : Nat) (nodeOk : Bool) :
    PathTree → Rc × PathTree
  | .null => if nodeOk then (0, .node recordIndex 1 .null .null) else (Fault.ENOMEM.code, .null)
  | .node i h left right =>
    let cmp := compareRecords records recordIndex i
    if cmp < 0 then
      let (rc, left) := insertNode records recordIndex nodeOk left
      if rc ≠ 0 then (rc, .node i h left right) else (0, rebalance (.node i h left right))
    else if cmp > 0 then
      let (rc, right) := insertNode records recordIndex nodeOk right
      if rc ≠ 0 then (rc, .node i h left right) else (0, rebalance (.node i h left right))
    -- The later record of a path takes over the node of the earlier one.
    else (0, .node recordIndex h left right)

def pathTreeInsert (root : PathTree) (records : List ChangeRecord) (recordIndex : Nat) (nodeOk : Bool) :
    Rc × PathTree :=
  insertNode records recordIndex nodeOk root

/-- A visitor carries its `user_data` as a state; a nonzero code ends the traversal. -/
def pathTreeInorder {σ : Type} (visitor : Nat → σ → Int × σ) : PathTree → σ → Int × σ
  | .null, state => (0, state)
  | .node i _ left right, state =>
    let (rc, state) := pathTreeInorder visitor left state
    if rc ≠ 0 then (rc, state)
    else
      let (rc, state) := visitor i state
      if rc ≠ 0 then (rc, state) else pathTreeInorder visitor right state

namespace PathTree

def inorder : PathTree → List Nat
  | .null => []
  | .node i _ left right => left.inorder ++ i :: right.inorder

@[simp] theorem inorder_updateHeight (tree : PathTree) : (updateHeight tree).inorder = tree.inorder := by
  cases tree <;> rfl

@[simp] theorem inorder_rotateRight (tree : PathTree) : (rotateRight tree).inorder = tree.inorder := by
  unfold rotateRight
  split <;> simp [inorder]

@[simp] theorem inorder_rotateLeft (tree : PathTree) : (rotateLeft tree).inorder = tree.inorder := by
  unfold rotateLeft
  split <;> simp [inorder]

@[simp] theorem inorder_rebalance (tree : PathTree) : (rebalance tree).inorder = tree.inorder := by
  rw [← inorder_updateHeight tree]
  unfold rebalance
  cases updateHeight tree with
  | null => rfl
  | node i h left right =>
    simp only
    split
    · split <;> simp [inorder]
    · split
      · split <;> simp [inorder]
      · rfl

end PathTree

def visitAll {σ : Type} (visitor : Nat → σ → Int × σ) : List Nat → σ → Int × σ
  | [], state => (0, state)
  | i :: rest, state =>
    let (rc, state) := visitor i state
    if rc ≠ 0 then (rc, state) else visitAll visitor rest state

section
variable {σ : Type} (visitor : Nat → σ → Int × σ)

theorem visitAll_append (first second : List Nat) (state : σ) :
    visitAll visitor (first ++ second) state =
      let (rc, state) := visitAll visitor first state
      if rc ≠ 0 then (rc, state) else visitAll visitor second state := by
  induction first generalizing state with
  | nil => simp [visitAll]
  | cons i rest ih =>
    simp only [List.cons_append, visitAll, ih]
    split <;> simp_all

theorem pathTreeInorder_eq_visitAll (tree : PathTree) (state : σ) :
    pathTreeInorder visitor tree state = visitAll visitor tree.inorder state := by
  induction tree generalizing state with
  | null => rfl
  | node i h left right ihLeft ihRight =>
    simp only [pathTreeInorder, PathTree.inorder, visitAll_append, visitAll, ihLeft, ihRight]

theorem visitAll_total (succeeds : ∀ i state, (visitor i state).1 = 0) (indexes : List Nat) (state : σ) :
    visitAll visitor indexes state =
      (0, indexes.foldl (fun state i => (visitor i state).2) state) := by
  -- A visitor that always succeeds sees every index.
  induction indexes generalizing state with
  | nil => rfl
  | cons i rest ih => simp [visitAll, succeeds, ih]

end

/-! ## Insertion -/

section
variable {records : List ChangeRecord} {recordIndex : Nat} {nodeOk : Bool}

theorem insertNode_failed {tree : PathTree}
    (failed : (insertNode records recordIndex nodeOk tree).1 ≠ 0) :
    insertNode records recordIndex nodeOk tree = (Fault.ENOMEM.code, tree) := by
  induction tree with
  | null =>
    cases nodeOk with
    | true => simp [insertNode] at failed
    | false => rfl
  | node i h left right ihLeft ihRight =>
    simp only [insertNode] at failed ⊢
    -- A replacement cannot fail, so the failure comes from below.
    split at failed
    next less =>
      simp only [less, ↓reduceIte]
      by_cases inner : (insertNode records recordIndex nodeOk left).1 = 0
      · simp [inner] at failed
      · rw [ihLeft inner]
        rfl
    next notLess =>
      split at failed
      next greater =>
        simp only [notLess, greater, ↓reduceIte]
        by_cases inner : (insertNode records recordIndex nodeOk right).1 = 0
        · simp [inner] at failed
        · rw [ihRight inner]
          rfl
      · simp at failed

/-- An insertion needs a node only for a path that the tree does not have. -/
theorem insertNode_zero_iff {tree : PathTree} (sorted : Keyed.Ascending (recordPath records) tree.inorder) :
    (insertNode records recordIndex nodeOk tree).1 = 0 ↔
      ((∀ i ∈ tree.inorder, recordPath records i ≠ recordPath records recordIndex) → nodeOk = true) := by
  induction tree with
  | null => cases nodeOk <;> simp [insertNode, PathTree.inorder, Fault.ENOMEM.nonzero]
  | node i h left right ihLeft ihRight =>
    obtain ⟨sortedLeft, sortedRest, across⟩ := List.pairwise_append.mp sorted
    obtain ⟨above, sortedRight⟩ := List.pairwise_cons.mp sortedRest
    have below : ∀ j ∈ left.inorder, recordPath records j < recordPath records i :=
      fun j member => across j member i (by simp)
    simp only [insertNode, compareRecords, PathTree.inorder]
    rcases lt_trichotomy (recordPath records recordIndex) (recordPath records i) with order | same | order
    · have less := (strcmp_neg _ _).mpr order
      -- What lies behind the path is larger, so only the left subtree can have it.
      have only : (∀ j ∈ left.inorder ++ i :: right.inorder, recordPath records j ≠ recordPath records recordIndex) ↔
          ∀ j ∈ left.inorder, recordPath records j ≠ recordPath records recordIndex := by
        refine ⟨fun apart j member => apart j (by simp [member]), fun apart j member => ?_⟩
        rcases List.mem_append.mp member with inside | rest
        · exact apart j inside
        rcases List.mem_cons.mp rest with rfl | inside
        · exact order.ne'
        · exact (order.trans (above j inside)).ne'
      rw [only, ← ihLeft sortedLeft]
      simp only [less, ↓reduceIte]
      by_cases inner : (insertNode records recordIndex nodeOk left).1 = 0 <;> simp [inner]
    · have equal := (strcmp_zero _ _).mpr same
      simp only [equal, lt_self_iff_false, ↓reduceIte, true_iff]
      exact fun apart => absurd same.symm (apart i (by simp))
    · have greater := (strcmp_pos _ _).mpr order
      have only : (∀ j ∈ left.inorder ++ i :: right.inorder, recordPath records j ≠ recordPath records recordIndex) ↔
          ∀ j ∈ right.inorder, recordPath records j ≠ recordPath records recordIndex := by
        refine ⟨fun apart j member => apart j (by simp [member]), fun apart j member => ?_⟩
        rcases List.mem_append.mp member with inside | rest
        · exact ((below j inside).trans order).ne
        rcases List.mem_cons.mp rest with rfl | inside
        · exact order.ne
        · exact apart j inside
      have notLess : ¬ strcmp (recordPath records recordIndex) (recordPath records i) < 0 := by omega
      rw [only, ← ihRight sortedRight]
      simp only [notLess, gt_iff_lt, greater, ↓reduceIte]
      by_cases inner : (insertNode records recordIndex nodeOk right).1 = 0 <;> simp [inner]

theorem inorder_insertNode (recordIndex : Nat) (nodeOk : Bool) {tree : PathTree}
    (sorted : Keyed.Ascending (recordPath records) tree.inorder)
    (inserted : (insertNode records recordIndex nodeOk tree).1 = 0) :
    (insertNode records recordIndex nodeOk tree).2.inorder =
      Keyed.place (recordPath records) recordIndex tree.inorder := by
  induction tree with
  | null =>
    cases nodeOk with
    | true => rfl
    | false => simp [insertNode, Fault.ENOMEM] at inserted
  | node i h left right ihLeft ihRight =>
    obtain ⟨sortedLeft, sortedRest, across⟩ := List.pairwise_append.mp sorted
    obtain ⟨_, sortedRight⟩ := List.pairwise_cons.mp sortedRest
    -- What is left of the root stays in front of the place where the new index goes.
    have below : ∀ j ∈ left.inorder, recordPath records j < recordPath records i :=
      fun j member => across j member i (by simp)
    simp only [insertNode, compareRecords] at inserted ⊢
    simp only [PathTree.inorder]
    rcases lt_trichotomy (recordPath records recordIndex) (recordPath records i)
      with order | same | order
    · have less := (strcmp_neg _ _).mpr order
      simp only [less, ↓reduceIte] at inserted ⊢
      have inner : (insertNode records recordIndex nodeOk left).1 = 0 := by
        by_contra failed
        simp [failed] at inserted
      simp only [inner, ne_eq, not_true_eq_false, ↓reduceIte, PathTree.inorder_rebalance,
        PathTree.inorder]
      rw [ihLeft sortedLeft inner, Keyed.place_before order]
    · have equal := (strcmp_zero _ _).mpr same
      simp only [equal, lt_self_iff_false, ↓reduceIte, PathTree.inorder]
      rw [Keyed.place_equal (fun j member => same ▸ below j member) same]
    · have greater := (strcmp_pos _ _).mpr order
      have notLess : ¬ strcmp (recordPath records recordIndex) (recordPath records i) < 0 := by omega
      simp only [notLess, gt_iff_lt, greater, ↓reduceIte] at inserted ⊢
      have inner : (insertNode records recordIndex nodeOk right).1 = 0 := by
        by_contra failed
        simp [failed] at inserted
      simp only [inner, ne_eq, not_true_eq_false, ↓reduceIte, PathTree.inorder_rebalance,
        PathTree.inorder]
      rw [ihRight sortedRight inner,
        Keyed.place_after (fun j member => (below j member).trans order) order]

end

end Verdiff
