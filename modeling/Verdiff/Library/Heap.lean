import Mathlib.Data.List.Nodup
import Mathlib.Data.List.Perm.Basic

/-! Blocks of memory that are allocated, read, written and freed.

A block is known by an identity that no other block ever gets. To use a block that is not there,
or to free it, is an error. What is known of a heap is the list of all its blocks, in any order:
a rule takes the blocks it needs out of the list and leaves the rest alone.
-/

set_option autoImplicit false

variable {Content View : Type}

structure Heap (Content : Type) where
  blocks : List (Nat × Content)
  next : Nat

namespace Heap

def alloc (heap : Heap Content) (content : Content) : Nat × Heap Content :=
  (heap.next, ⟨(heap.next, content) :: heap.blocks, heap.next + 1⟩)

def read (heap : Heap Content) (block : Nat) : Option Content :=
  (heap.blocks.find? fun cell => cell.1 = block).map Prod.snd

def write (heap : Heap Content) (block : Nat) (content : Content) : Option (Heap Content) :=
  if block ∈ heap.blocks.map Prod.fst then
    some { heap with blocks := (block, content) :: heap.blocks.filter fun cell => cell.1 ≠ block }
  else none

def free (heap : Heap Content) (block : Nat) : Option (Heap Content) :=
  if block ∈ heap.blocks.map Prod.fst then
    some { heap with blocks := heap.blocks.filter fun cell => cell.1 ≠ block }
  else none

def freePtr (heap : Heap Content) : Option Nat → Option (Heap Content)
  | none => some heap
  | some block => heap.free block

def readAs (view : Content → Option View) (heap : Heap Content) (block : Nat) : Option View :=
  (heap.read block).bind view

def freeAs (view : Content → Option View) (heap : Heap Content) (block : Nat) : Option (Heap Content) :=
  (heap.readAs view block).bind fun _ => heap.free block

def allocIf (heap : Heap Content) (content : Content) (ok : Bool) : Option Nat × Heap Content :=
  if ok then
    let (block, heap) := heap.alloc content
    (some block, heap)
  else (none, heap)

theorem allocIf_false (heap : Heap Content) (content : Content) : heap.allocIf content false = (none, heap) := rfl

/-- The blocks of the heap, in some order. -/
structure Holds (heap : Heap Content) (cells : List (Nat × Content)) : Prop where
  perm : heap.blocks.Perm cells
  distinct : (cells.map Prod.fst).Nodup
  below : ∀ cell ∈ cells, cell.1 < heap.next

variable {heap : Heap Content} {cells rest : List (Nat × Content)} {block : Nat} {content : Content}

theorem holds_empty (next : Nat) : Holds (⟨[], next⟩ : Heap Content) [] :=
  ⟨.nil, .nil, List.forall_mem_nil _⟩

namespace Holds

theorem reorder (holds : heap.Holds cells) (same : cells.Perm rest) : heap.Holds rest :=
  ⟨holds.perm.trans same, (same.map Prod.fst).nodup_iff.mp holds.distinct,
    fun cell member => holds.below cell (same.mem_iff.mpr member)⟩

theorem alloc (holds : heap.Holds cells) (content : Content) :
    (heap.alloc content).2.Holds ((heap.next, content) :: cells) where
  perm := holds.perm.cons _
  distinct := by
    rw [List.map_cons, List.nodup_cons]
    refine ⟨fun member => ?_, holds.distinct⟩
    obtain ⟨cell, inside, same⟩ := List.mem_map.mp member
    have below := holds.below cell inside
    rw [same] at below
    exact Nat.lt_irrefl _ below
  below := by
    rintro cell (_ | ⟨_, member⟩)
    · exact Nat.lt_succ_self _
    · exact Nat.lt_succ_of_lt (holds.below cell member)

theorem allocated (holds : heap.Holds cells) (content : Content) :
    ∃ block after, heap.alloc content = (block, after) ∧ after.Holds ((block, content) :: cells) :=
  ⟨heap.next, _, rfl, holds.alloc content⟩

theorem allocatedIf (holds : heap.Holds cells) (content : Content) :
    ∃ block after, heap.allocIf content true = (some block, after) ∧ after.Holds ((block, content) :: cells) :=
  ⟨heap.next, _, rfl, holds.alloc content⟩

theorem filter_rest (holds : heap.Holds ((block, content) :: rest)) :
    (heap.blocks.filter fun cell => cell.1 ≠ block).Perm rest := by
  have apart : ∀ cell ∈ rest, decide (cell.1 ≠ block) = true := by
    intro cell member
    rw [decide_eq_true_iff]
    intro same
    exact (List.nodup_cons.mp holds.distinct).1 (List.mem_map.mpr ⟨cell, member, same⟩)
  have kept := holds.perm.filter fun cell => decide (cell.1 ≠ block)
  rw [List.filter_cons_of_neg (by simp), List.filter_eq_self.mpr apart] at kept
  exact kept

theorem mem_blocks (holds : heap.Holds ((block, content) :: rest)) : block ∈ heap.blocks.map Prod.fst :=
  (holds.perm.map Prod.fst).mem_iff.mpr (List.mem_cons_self ..)

theorem tail (holds : heap.Holds ((block, content) :: rest)) :
    (rest.map Prod.fst).Nodup ∧ ∀ cell ∈ rest, cell.1 < heap.next :=
  ⟨(List.nodup_cons.mp holds.distinct).2, fun cell member => holds.below cell (List.mem_cons_of_mem _ member)⟩

theorem read (holds : heap.Holds cells) (member : (block, content) ∈ cells) : heap.read block = some content := by
  have inside : (block, content) ∈ heap.blocks := holds.perm.mem_iff.mpr member
  have distinct : (heap.blocks.map Prod.fst).Nodup := (holds.perm.map Prod.fst).nodup_iff.mpr holds.distinct
  rw [Heap.read]
  cases found : heap.blocks.find? fun cell => cell.1 = block with
  | none => exact absurd (List.find?_eq_none.mp found _ inside) (by simp)
  | some cell =>
    have same : cell.1 = block := by simpa using List.find?_some found
    rw [List.inj_on_of_nodup_map distinct (List.mem_of_find?_eq_some found) inside same]
    rfl

theorem write (holds : heap.Holds ((block, content) :: rest)) (stored : Content) :
    ∃ after, heap.write block stored = some after ∧ after.Holds ((block, stored) :: rest) := by
  refine ⟨_, if_pos holds.mem_blocks, holds.filter_rest.cons _, holds.distinct, ?_⟩
  rintro cell (_ | ⟨_, member⟩)
  · exact holds.below (block, content) (List.mem_cons_self ..)
  · exact holds.tail.2 cell member

theorem free (holds : heap.Holds ((block, content) :: rest)) :
    ∃ after, heap.free block = some after ∧ after.Holds rest :=
  ⟨_, if_pos holds.mem_blocks, holds.filter_rest, holds.tail.1, holds.tail.2⟩

variable {view : Content → Option View} {value : View}

theorem readAs (holds : heap.Holds cells) (member : (block, content) ∈ cells) (shown : view content = some value) :
    heap.readAs view block = some value := by
  rw [Heap.readAs, holds.read member, Option.bind_some, shown]

theorem freeAs (holds : heap.Holds ((block, content) :: rest)) (shown : view content = some value) :
    ∃ after, heap.freeAs view block = some after ∧ after.Holds rest := by
  obtain ⟨after, freed, kept⟩ := holds.free
  refine ⟨after, ?_, kept⟩
  rw [Heap.freeAs, holds.readAs (List.mem_cons_self ..) shown, Option.bind_some, freed]

/-! ## Two blocks that are of use only together -/

variable {firstOk secondOk : Bool}

theorem allocBoth (holds : heap.Holds cells) (first second : Content) :
    ∃ p q middle after, heap.allocIf first true = (some p, middle) ∧ middle.allocIf second true = (some q, after) ∧
      middle.Holds ((p, first) :: cells) ∧ after.Holds ((p, first) :: (q, second) :: cells) :=
  ⟨heap.next, (heap.alloc first).2.next, _, _, rfl, rfl, holds.alloc _,
    ((holds.alloc first).alloc second).reorder (List.Perm.swap _ _ _)⟩

/-- When one of the two cannot be had, the other is given back. -/
theorem allocEither (holds : heap.Holds cells) (first second : Content) (failed : (!firstOk || !secondOk) = true) :
    ∃ p middle q last after, heap.allocIf first firstOk = (p, middle) ∧ middle.allocIf second secondOk = (q, last) ∧
      (p = none ∨ q = none) ∧ (∃ more, middle.Holds (more ++ cells)) ∧
      ((last.freePtr p).bind fun heap => heap.freePtr q) = some after ∧ after.Holds cells := by
  cases firstOk <;> cases secondOk
  · exact ⟨none, heap, none, heap, heap, rfl, rfl, .inl rfl, ⟨[], holds⟩, rfl, holds⟩
  · obtain ⟨after, freed, kept⟩ := (holds.alloc second).free
    exact ⟨none, heap, some heap.next, _, after, rfl, rfl, .inl rfl, ⟨[], holds⟩, freed, kept⟩
  · obtain ⟨after, freed, kept⟩ := (holds.alloc first).free
    refine ⟨some heap.next, _, none, _, after, rfl, rfl, .inr rfl, ⟨[_], holds.alloc first⟩, ?_, kept⟩
    change ((heap.alloc first).2.free heap.next).bind _ = _
    rw [freed]
    rfl
  · cases failed

end Holds

theorem match_either {Result : Type} {p q : Option Nat} {last after : Heap Content} (result : Heap Content → Result)
    (use : Nat → Nat → Option Result) : p = none ∨ q = none →
    ((last.freePtr p).bind fun heap => heap.freePtr q) = some after →
    (match p, q with
      | some first, some second => use first second
      | _, _ => (last.freePtr p).bind fun heap => (heap.freePtr q).bind fun heap => some (result heap)) =
      some (result after) := by
  intro missing freed
  have given : ((last.freePtr p).bind fun heap => (heap.freePtr q).bind fun heap => some (result heap)) =
      some (result after) := by
    rw [← Option.bind_assoc, freed, Option.bind_some]
  rcases missing with rfl | rfl
  · exact given
  · cases p <;> exact given

end Heap
