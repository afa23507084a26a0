import Mathlib.Data.List.Basic

/-! Pieces handed out from the front of blocks.

A block is filled from its front up to a mark, and only the newest block is filled. A piece
written at the mark leaves everything below alone, so that what was handed out once is found
at its place ever after. Blocks are kept newest first and numbered from the oldest on.
-/

set_option autoImplicit false

namespace Bump

variable {α : Type}

/-- A piece stored from an offset on; what passes the end of the cells is lost. -/
def write (cells : List α) (offset : Nat) (piece : List α) : List α :=
  cells.take offset ++ piece.take (cells.length - offset) ++ cells.drop (offset + piece.length)

def Lies (cells : List α) (offset : Nat) (piece : List α) : Prop :=
  (cells.drop offset).take piece.length = piece

section
variable {cells piece : List α} {offset mark : Nat}

@[simp] theorem length_write : (write cells offset piece).length = cells.length := by
  simp only [write, List.length_append, List.length_take, List.length_drop]
  omega

theorem lies_write (fits : mark + piece.length ≤ cells.length) : Lies (write cells mark piece) mark piece := by
  have front : (cells.take mark).length = mark := List.length_take_of_le (by omega)
  rw [Lies, write, List.take_of_length_le (by omega : piece.length ≤ cells.length - mark), List.append_assoc,
    List.drop_append_of_le_length (by omega), List.drop_eq_nil_of_le (by omega), List.nil_append, List.take_left]

theorem Lies.write (lies : Lies cells offset piece) (below : offset + piece.length ≤ mark) (inside : mark ≤ cells.length)
    (other : List α) : Lies (Bump.write cells mark other) offset piece := by
  -- Writing at a mark changes nothing below it.
  have front : (cells.take mark).length = mark := List.length_take_of_le inside
  have same : ((cells.take mark).drop offset).take piece.length = piece := by
    rw [List.drop_take, List.take_take, Nat.min_eq_left (by omega)]
    exact lies
  rw [Lies, Bump.write, List.append_assoc, List.drop_append_of_le_length (by omega),
    List.take_append_of_le_length (by rw [List.length_drop]; omega), same]

end

/-! ## Blocks -/

structure Block (α : Type) where
  cells : List α
  used : Nat

structure Place where
  block : Nat
  offset : Nat
  deriving DecidableEq

def blockAt {β : Type} (blocks : List β) (number : Nat) : Option β := blocks.reverse[number]?

/-- Two ranges of cells, in different blocks or one behind the other. -/
def Apart (first second : Place × Nat) : Prop :=
  first.1.block ≠ second.1.block ∨ first.1.offset + first.2 ≤ second.1.offset ∨
    second.1.offset + second.2 ≤ first.1.offset

section
variable {β : Type} {block : β} {rest : List β} {number : Nat}

@[simp] theorem blockAt_newest : blockAt (block :: rest) rest.length = some block := by
  simp [blockAt]

theorem blockAt_lt (found : blockAt rest number = some block) : number < rest.length := by
  have inside := (List.getElem?_eq_some_iff.mp found).1
  rwa [List.length_reverse] at inside

theorem blockAt_older (newest : β) (older : number < rest.length) :
    blockAt (newest :: rest) number = blockAt rest number := by
  rw [blockAt, List.reverse_cons, List.getElem?_append_left (by rwa [List.length_reverse])]
  rfl

theorem blockAt_mem (found : blockAt rest number = some block) : block ∈ rest :=
  List.mem_reverse.mp (List.mem_of_getElem? found)

end

/-! ## Layouts -/

/-- The blocks hold every piece handed out, each at a place of its own below the mark. -/
structure Layout (blocks : List (Block α)) (handed : List (Place × List α)) : Prop where
  filled : ∀ block ∈ blocks, block.used ≤ block.cells.length
  lies : ∀ piece ∈ handed, ∃ block, blockAt blocks piece.1.block = some block ∧
    piece.1.offset + piece.2.length ≤ block.used ∧ Lies block.cells piece.1.offset piece.2
  apart : handed.Pairwise fun later earlier => Apart (later.1, later.2.length) (earlier.1, earlier.2.length)

theorem layout_nil : Layout ([] : List (Block α)) [] where
  filled := List.forall_mem_nil _
  lies := List.forall_mem_nil _
  apart := .nil

namespace Layout

variable {block : Block α} {blocks rest : List (Block α)} {handed : List (Place × List α)}

theorem grow (layout : Layout blocks handed) (cells : List α) : Layout (⟨cells, 0⟩ :: blocks) handed where
  filled := List.forall_mem_cons.mpr ⟨Nat.zero_le _, layout.filled⟩
  lies piece member := by
    obtain ⟨block, found, below, lies⟩ := layout.lies piece member
    exact ⟨block, by rw [blockAt_older _ (blockAt_lt found), found], below, lies⟩
  apart := layout.apart

theorem append (layout : Layout (block :: rest) handed) (piece : List α)
    (fits : block.used + piece.length ≤ block.cells.length) :
    Layout (⟨write block.cells block.used piece, block.used + piece.length⟩ :: rest)
      ((⟨rest.length, block.used⟩, piece) :: handed) where
  filled := by
    refine List.forall_mem_cons.mpr ⟨by simpa using fits, fun other member => ?_⟩
    exact layout.filled other (List.mem_cons_of_mem _ member)
  lies := by
    refine List.forall_mem_cons.mpr ⟨⟨_, blockAt_newest, Nat.le_refl _, lies_write fits⟩, fun earlier member => ?_⟩
    obtain ⟨home, found, below, lies⟩ := layout.lies earlier member
    rcases Nat.lt_or_ge earlier.1.block rest.length with older | newest
    · exact ⟨home, by rw [blockAt_older _ older, ← blockAt_older block older, found], below, lies⟩
    · -- In the newest block the earlier pieces lie below the mark.
      have same : earlier.1.block = rest.length :=
        Nat.le_antisymm (Nat.le_of_lt_succ (blockAt_lt found)) newest
      rw [same, blockAt_newest] at found
      cases found
      exact ⟨_, by rw [same, blockAt_newest], Nat.le_add_right_of_le below, lies.write below (by omega) piece⟩
  apart := by
    refine List.pairwise_cons.mpr ⟨fun earlier member => ?_, layout.apart⟩
    obtain ⟨home, found, below, _⟩ := layout.lies earlier member
    by_cases same : earlier.1.block = rest.length
    · rw [same, blockAt_newest] at found
      cases found
      exact .inr (.inr below)
    · exact .inl fun newest => same newest.symm

end Layout

end Bump
