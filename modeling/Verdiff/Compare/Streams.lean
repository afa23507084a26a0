import Verdiff.Compare.LineMemory
import Verdiff.Hash.Resources

/-! The streams of `detect_line_differences` and the buffers `getline` keeps for it.

A buffer stays from line to line and only grows, so behind a line there may be bytes of longer lines
that came before it.
-/

set_option autoImplicit false

namespace Verdiff

structure LineBuffer where
  ptr : Option Nat
  cap : Nat

/-- What one `getline` decides: whether it allocates before it reads, and how much more than it needs. -/
structure GetlineChoice where
  early : Bool
  spare : Nat

section
variable {State : Type} (raw : Nat → UInt8)

def renewBuffer (heap : HashHeap State) (line : LineBuffer) (room : Nat) : Option (LineBuffer × HashHeap State) := do
  let heap ← freeBuffer heap line.ptr
  let (block, heap) := heap.alloc (.buffer (rawBytes raw room))
  return (⟨some block, room⟩, heap)

def beginBuffer (heap : HashHeap State) (line : LineBuffer) (choice : GetlineChoice) :
    Option (LineBuffer × HashHeap State) :=
  if line.ptr = none ∧ choice.early = true then renewBuffer raw heap line choice.spare else some (line, heap)

def widenBuffer (heap : HashHeap State) (line : LineBuffer) (need : Nat) (choice : GetlineChoice) :
    Option (LineBuffer × HashHeap State) :=
  if line.ptr = none ∨ line.cap < need then renewBuffer raw heap line (need + choice.spare) else some (line, heap)

/-- A length, or none at the end of the file. The line is stored with a NUL behind it. -/
def getlineAt (heap : HashHeap State) (line : LineBuffer) (stream : Nat) (fault : Option Fault) (choice : GetlineChoice) :
    Option (Except Fault (Option Nat) × LineBuffer × HashHeap State) := do
  let (line, heap) ← beginBuffer raw heap line choice
  let (content, left) ← heap.readAs HashBlock.descriptor? stream
  match fault with
  | some fault => return (.error fault, line, heap)
  | none =>
    match getline left with
    | (none, _) => return (.ok none, line, heap)
    | (some text, later) =>
      let need := text.length + 1
      let (line, heap) ← widenBuffer raw heap line need choice
      let block ← line.ptr
      let bytes ← heap.readAs HashBlock.buffer? block
      if bytes.length < need then none
      else
        let heap ← heap.write block (.buffer (text ++ [0] ++ bytes.drop need))
        let heap ← heap.write stream (.descriptor content later)
        return (.ok (some text.length), line, heap)

def lineText (heap : HashHeap State) (line : LineBuffer) : Option Nat → Option Bytes
  | none => some [0]
  | some _ => line.ptr.bind (heap.readAs HashBlock.buffer?)

def detectStreamsLoop (env : LinesEnv) (choicesA choicesB : Nat → GetlineChoice) (fileA fileB : Nat) :
    Nat → Nat → LineBuffer → LineBuffer → LineDiffVector → HashHeap State →
      Option ((Rc × LineDiffVector) × LineBuffer × LineBuffer × HashHeap State)
  | 0, _, _, _, _, _ => none
  | fuel + 1, lineNo, lineA, lineB, lines, heap => do
    match ← getlineAt raw heap lineA fileA (env.lineA lineNo) (choicesA lineNo) with
    | (.error fault, lineA, heap) => return ((fault.code, lines), lineA, lineB, heap)
    | (.ok lenA, lineA, heap) =>
      match ← getlineAt raw heap lineB fileB (env.lineB lineNo) (choicesB lineNo) with
      | (.error fault, lineB, heap) => return ((fault.code, lines), lineA, lineB, heap)
      | (.ok lenB, lineB, heap) =>
        if lenA = none ∧ lenB = none then return ((0, lines), lineA, lineB, heap)
        else
          let textA ← lineText heap lineA lenA
          let textB ← lineText heap lineB lenB
          let leftLen := trimLineLength textA (lenA.getD 0)
          let rightLen := trimLineLength textB (lenB.getD 0)
          if lenA ≠ lenB ∨ textA.take (lenA.getD 0) ≠ textB.take (lenA.getD 0) then
            let (rc, lines) := lineDiffVectorPush lines lineNo textA leftLen textB rightLen (env.push lineNo)
            if rc ≠ 0 then return ((rc, lines), lineA, lineB, heap)
            else detectStreamsLoop env choicesA choicesB fileA fileB fuel (lineNo + 1) lineA lineB lines heap
          else detectStreamsLoop env choicesA choicesB fileA fileB fuel (lineNo + 1) lineA lineB lines heap

/-- Every turn of the loop but the last takes a byte of one of the files. -/
def detectLineStreams (fileA fileB : Except Fault Bytes) (env : LinesEnv) (choicesA choicesB : Nat → GetlineChoice)
    (lines : LineDiffVector) (heap : HashHeap State) : Option ((Rc × LineDiffVector) × HashHeap State) := do
  match fileA, env.streamA with
  | .error fault, _ => return ((fault.code, lines), heap)
  | .ok _, some fault => return ((fault.code, lines), heap)
  | .ok contentA, none =>
    let (streamA, heap) := heap.alloc (.descriptor contentA contentA)
    match fileB, env.streamB with
    | .error fault, _ =>
      let heap ← closeDescriptor heap streamA
      return ((fault.code, lines), heap)
    | .ok _, some fault =>
      let heap ← closeDescriptor heap streamA
      return ((fault.code, lines), heap)
    | .ok contentB, none =>
      let (streamB, heap) := heap.alloc (.descriptor contentB contentB)
      let (given, lineA, lineB, heap) ← detectStreamsLoop raw env choicesA choicesB streamA streamB
        (contentA.length + contentB.length + 1) 1 ⟨none, 0⟩ ⟨none, 0⟩ lines heap
      let heap ← freeBuffer heap lineA.ptr
      let heap ← freeBuffer heap lineB.ptr
      let heap ← closeDescriptor heap streamA
      let heap ← closeDescriptor heap streamB
      return (given, heap)

end

/-! ## Lines in buffers -/

theorem trimLineLength_front (line more : Bytes) {len : Nat} (inside : len ≤ line.length) :
    trimLineLength (line ++ more) len = trimLineLength line len := by
  induction len with
  | zero => rfl
  | succ len ih =>
    rw [trimLineLength, trimLineLength, List.getElem?_append_left (by omega), ih (by omega)]

inductive BufferAt {State : Type} : LineBuffer → List (Nat × HashBlock State) → Prop where
  | missing : BufferAt ⟨none, 0⟩ []
  | block {block : Nat} {bytes : Bytes} : BufferAt ⟨some block, bytes.length⟩ [(block, .buffer bytes)]

inductive LineAt {State : Type} : Option Bytes → LineBuffer → List (Nat × HashBlock State) → Prop where
  | missing {line : LineBuffer} {cells : List (Nat × HashBlock State)} : BufferAt line cells → LineAt none line cells
  | read {block : Nat} {text slack : Bytes} :
      LineAt (some text) ⟨some block, (text ++ slack).length⟩ [(block, .buffer (text ++ slack))]

section
variable {State : Type} {heap : HashHeap State} {rest cells : List (Nat × HashBlock State)} {line : LineBuffer}
  {stream : Nat} {content left : Bytes}

theorem LineAt.buffer {text : Option Bytes} (at_ : LineAt text line cells) : BufferAt line cells := by
  cases at_ with
  | missing buffer => exact buffer
  | read => exact .block

theorem LineAt.shown {text : Option Bytes} (at_ : LineAt text line cells) {whole : List (Nat × HashBlock State)}
    (holds : heap.Holds whole) (inside : cells ⊆ whole) :
    ∃ slack, lineText heap line (text.map List.length) = some (text.getD [] ++ slack) := by
  cases at_ with
  | missing buffer => exact ⟨[0], rfl⟩
  | @read block text slack => exact ⟨slack, holds.readAs (inside (List.mem_singleton.mpr rfl)) rfl⟩

theorem BufferAt.free (at_ : BufferAt line cells) (holds : heap.Holds (cells ++ rest)) :
    ∃ after, freeBuffer heap line.ptr = some after ∧ after.Holds rest := by
  cases at_ with
  | missing => exact ⟨heap, rfl, holds⟩
  | block => exact freeBuffer_ok holds

theorem BufferAt.renew (raw : Nat → UInt8) (at_ : BufferAt line cells) (holds : heap.Holds (cells ++ rest)) (room : Nat) :
    ∃ block after, renewBuffer raw heap line room = some (⟨some block, (rawBytes raw room).length⟩, after) ∧
      after.Holds ((block, .buffer (rawBytes raw room)) :: rest) := by
  obtain ⟨middle, freed, held⟩ := at_.free holds
  obtain ⟨block, after, allocated, kept⟩ := held.allocated (.buffer (rawBytes raw room))
  refine ⟨block, after, ?_, kept⟩
  simp only [renewBuffer, freed, allocated, rawBytes_length, Option.bind_eq_bind, Option.bind_some]
  rfl

theorem BufferAt.begin (raw : Nat → UInt8) (at_ : BufferAt line cells) (holds : heap.Holds (cells ++ rest))
    (choice : GetlineChoice) :
    ∃ line' cells' after, beginBuffer raw heap line choice = some (line', after) ∧ BufferAt line' cells' ∧
      after.Holds (cells' ++ rest) := by
  unfold beginBuffer
  split
  · obtain ⟨block, after, renewed, kept⟩ := at_.renew raw holds choice.spare
    exact ⟨_, _, after, renewed, .block, kept⟩
  · exact ⟨line, cells, heap, rfl, at_, holds⟩

theorem BufferAt.widen (raw : Nat → UInt8) (at_ : BufferAt line cells) (holds : heap.Holds (cells ++ rest))
    (need : Nat) (choice : GetlineChoice) :
    ∃ block bytes after, widenBuffer raw heap line need choice = some (⟨some block, bytes.length⟩, after) ∧
      need ≤ bytes.length ∧ after.Holds ((block, .buffer bytes) :: rest) := by
  unfold widenBuffer
  split
  · obtain ⟨block, after, renewed, kept⟩ := at_.renew raw holds (need + choice.spare)
    exact ⟨block, _, after, renewed, by rw [rawBytes_length]; omega, kept⟩
  next wide =>
    cases at_ with
    | missing => exact absurd (.inl rfl) wide
    | @block block bytes => exact ⟨block, bytes, heap, rfl, by simpa using wide, holds⟩

theorem getlineAt_fault (raw : Nat → UInt8) (fault : Fault) (choice : GetlineChoice) (at_ : BufferAt line cells)
    (holds : heap.Holds ((stream, .descriptor content left) :: (cells ++ rest))) :
    ∃ line' cells' after, getlineAt raw heap line stream (some fault) choice = some (.error fault, line', after) ∧
      BufferAt line' cells' ∧ after.Holds ((stream, .descriptor content left) :: (cells' ++ rest)) := by
  obtain ⟨line', cells', after, begun, at_', held⟩ := at_.begin raw (holds.reorder List.perm_middle.symm) choice
  have kept := held.reorder List.perm_middle
  have opened : after.readAs HashBlock.descriptor? stream = some (content, left) :=
    kept.readAs (List.mem_cons_self ..) rfl
  refine ⟨line', cells', after, ?_, at_', kept⟩
  simp only [getlineAt, begun, opened, Option.bind_eq_bind, Option.bind_some]
  rfl

theorem getlineAt_ok (raw : Nat → UInt8) (choice : GetlineChoice) (at_ : BufferAt line cells)
    (holds : heap.Holds ((stream, .descriptor content left) :: (cells ++ rest))) :
    ∃ line' cells' after, getlineAt raw heap line stream none choice =
        some (.ok ((getline left).1.map List.length), line', after) ∧
      LineAt (getline left).1 line' cells' ∧
      after.Holds ((stream, .descriptor content (getline left).2) :: (cells' ++ rest)) := by
  obtain ⟨line', cells', first, begun, at_', held⟩ := at_.begin raw (holds.reorder List.perm_middle.symm) choice
  have ready := held.reorder List.perm_middle
  have opened : first.readAs HashBlock.descriptor? stream = some (content, left) :=
    ready.readAs (List.mem_cons_self ..) rfl
  simp only [getlineAt, begun, opened, Option.bind_eq_bind, Option.bind_some]
  cases read : getline left with
  | mk given later =>
    cases given with
    | none =>
      have same : left = later := by simpa [read] using (getline_none (congrArg Prod.fst read)).2.symm
      exact ⟨line', cells', first, rfl, .missing at_', same ▸ ready⟩
    | some text =>
      obtain ⟨block, bytes, second, widened, wide, held⟩ := at_'.widen raw held (text.length + 1) choice
      have filled : second.readAs HashBlock.buffer? block = some bytes := held.readAs (List.mem_cons_self ..) rfl
      obtain ⟨third, stored, held⟩ := held.write (.buffer (text ++ [0] ++ bytes.drop (text.length + 1)))
      obtain ⟨after, moved, kept⟩ := (held.reorder (List.Perm.swap ..)).write (.descriptor content later)
      have length : bytes.length = (text ++ ([0] ++ bytes.drop (text.length + 1))).length := by
        simp only [List.length_append, List.length_drop, List.length_singleton]
        omega
      refine ⟨_, _, after, ?_, .read, by rwa [List.append_assoc] at kept⟩
      simp only [widened, filled, stored, moved, Option.bind_some,
        if_neg (by omega : ¬bytes.length < text.length + 1), ← length]
      rfl

end

/-! ## The loop -/

theorem length_getD (line : Option Bytes) : (line.map List.length).getD 0 = (line.getD []).length := by
  cases line <;> rfl

theorem lineDiffVectorPush_slack (lines : LineDiffVector) (lineNo : Nat) (lineA lineB slackA slackB : Bytes)
    (allocs : LinePushAllocs) :
    lineDiffVectorPush lines lineNo (lineA ++ slackA) (trimLineLength (lineA ++ slackA) lineA.length) (lineB ++ slackB)
        (trimLineLength (lineB ++ slackB) lineB.length) allocs =
      lineDiffVectorPush lines lineNo lineA (trimLineLength lineA lineA.length) lineB
        (trimLineLength lineB lineB.length) allocs := by
  -- What is behind the lines is not stored.
  rw [trimLineLength_front lineA slackA le_rfl, trimLineLength_front lineB slackB le_rfl]
  unfold lineDiffVectorPush
  rw [List.take_append_of_le_length (trimLineLength_le lineA lineA.length),
    List.take_append_of_le_length (trimLineLength_le lineB lineB.length)]

theorem differs_iff (lineA lineB : Option Bytes) (slackA slackB : Bytes) :
    (lineA.map List.length ≠ lineB.map List.length ∨
      (lineA.getD [] ++ slackA).take (lineA.getD []).length ≠ (lineB.getD [] ++ slackB).take (lineA.getD []).length) ↔
    lineA.map List.length ≠ lineB.map List.length ∨ lineA.getD [] ≠ lineB.getD [] := by
  -- The test of the loop looks at the lines alone.
  refine or_congr_right' fun same => ?_
  have length : (lineA.getD []).length = (lineB.getD []).length := by
    rw [← length_getD, ← length_getD, not_not.mp same]
  rw [List.take_left, length, List.take_left]

section
variable {State : Type} {heap : HashHeap State} {rest : List (Nat × HashBlock State)} {fileA fileB : Nat}
  {contentA contentB : Bytes}

inductive StreamsAt (fileA fileB : Nat) (contentA contentB leftA leftB : Bytes) (lineA lineB : LineBuffer)
    (rest : List (Nat × HashBlock State)) (heap : HashHeap State) : Prop where
  | mk {cellsA cellsB : List (Nat × HashBlock State)} : BufferAt lineA cellsA → BufferAt lineB cellsB →
      heap.Holds (((fileA, .descriptor contentA leftA) :: cellsA) ++
        (((fileB, .descriptor contentB leftB) :: cellsB) ++ rest)) →
      StreamsAt fileA fileB contentA contentB leftA leftB lineA lineB rest heap

theorem detectStreamsLoop_ok (raw : Nat → UInt8) (env : LinesEnv) (choicesA choicesB : Nat → GetlineChoice)
    {fuel : Nat} (lineNo : Nat) {leftA leftB : Bytes} {lineA lineB : LineBuffer} (lines : LineDiffVector)
    (enough : leftA.length + leftB.length < fuel)
    (at_ : StreamsAt fileA fileB contentA contentB leftA leftB lineA lineB rest heap) :
    ∃ lineA' lineB' leftA' leftB' after,
      detectStreamsLoop raw env choicesA choicesB fileA fileB fuel lineNo lineA lineB lines heap =
        some (detectLinesLoop env lineNo leftA leftB lines, lineA', lineB', after) ∧
      StreamsAt fileA fileB contentA contentB leftA' leftB' lineA' lineB' rest after := by
  induction fuel generalizing lineNo leftA leftB lineA lineB lines heap with
  | zero => omega
  | succ fuel ih =>
    obtain @⟨cellsA, cellsB, atA, atB, holds⟩ := at_
    rw [detectLinesLoop]
    cases readA : env.lineA lineNo with
    | some fault =>
      obtain ⟨lineA', cellsA', after, given, atA', kept⟩ := getlineAt_fault raw fault (choicesA lineNo) atA holds
      refine ⟨lineA', lineB, leftA, leftB, after, ?_, .mk atA' atB kept⟩
      simp only [detectStreamsLoop, readA, given, Option.bind_eq_bind, Option.bind_some]
      rfl
    | none =>
      obtain ⟨lineA', cellsA', first, givenA, shownA, held⟩ := getlineAt_ok raw (choicesA lineNo) atA holds
      have readyB := held.reorder (List.perm_append_comm_assoc (_ :: cellsA') (_ :: cellsB) rest)
      simp only [detectStreamsLoop, readA, givenA, Option.bind_eq_bind, Option.bind_some]
      cases readB : env.lineB lineNo with
      | some fault =>
        obtain ⟨lineB', cellsB', after, given, atB', kept⟩ := getlineAt_fault raw fault (choicesB lineNo) atB readyB
        refine ⟨lineA', lineB', (getline leftA).2, leftB, after, ?_, .mk shownA.buffer atB'
          (kept.reorder (List.perm_append_comm_assoc (_ :: cellsB') (_ :: cellsA') rest))⟩
        simp only [given, Option.bind_some]
        rfl
      | none =>
        obtain ⟨lineB', cellsB', second, givenB, shownB, heldB⟩ := getlineAt_ok raw (choicesB lineNo) atB readyB
        have both := heldB.reorder (List.perm_append_comm_assoc (_ :: cellsB') (_ :: cellsA') rest)
        have atBoth : StreamsAt fileA fileB contentA contentB (getline leftA).2 (getline leftB).2 lineA' lineB' rest
            second :=
          .mk shownA.buffer shownB.buffer both
        simp only [givenB, Option.bind_some, Option.map_eq_none_iff]
        by_cases ended : (getline leftA).1 = none ∧ (getline leftB).1 = none
        · simp only [if_pos ended]
          exact ⟨lineA', lineB', _, _, second, rfl, atBoth⟩
        · obtain ⟨slackA, textA⟩ := shownA.shown both (by intro cell member; simp [member])
          obtain ⟨slackB, textB⟩ := shownB.shown both (by intro cell member; simp [member])
          have shorter := getline_decreases ended
          simp only [if_neg ended, textA, textB, Option.bind_some, differs_iff, length_getD, lineDiffVectorPush_slack]
          generalize lineDiffVectorPush lines lineNo _ _ _ _ _ = pushed
          by_cases differs : (getline leftA).1.map List.length ≠ (getline leftB).1.map List.length ∨
              (getline leftA).1.getD [] ≠ (getline leftB).1.getD []
          · simp only [if_pos differs]
            by_cases failed : pushed.1 ≠ 0
            · simp only [if_pos failed]
              exact ⟨lineA', lineB', _, _, second, rfl, atBoth⟩
            · simp only [if_neg failed]
              exact ih (lineNo + 1) pushed.2 (by omega) atBoth
          · simp only [if_neg differs]
            exact ih (lineNo + 1) lines (by omega) atBoth

/-- Both streams are closed and both buffers freed, and what is recorded does not depend on the buffers. -/
theorem detectLineStreams_ok (raw : Nat → UInt8) (fileA fileB : Except Fault Bytes) (env : LinesEnv)
    (choicesA choicesB : Nat → GetlineChoice) (lines : LineDiffVector) (holds : heap.Holds rest) :
    ∃ after, detectLineStreams raw fileA fileB env choicesA choicesB lines heap =
        some (detectLineDifferences fileA fileB env lines, after) ∧
      after.Holds rest := by
  unfold detectLineStreams detectLineDifferences
  cases fileA with
  | error fault => exact ⟨heap, rfl, holds⟩
  | ok contentA =>
    cases env.streamA with
    | some fault => exact ⟨heap, rfl, holds⟩
    | none =>
      obtain ⟨streamA, first, openedA, withA⟩ := holds.allocated (.descriptor contentA contentA)
      obtain ⟨given, closed, back⟩ := closeDescriptor_ok withA
      cases fileB with
      | error fault =>
        refine ⟨given, ?_, back⟩
        simp only [openedA, closed, Option.bind_eq_bind, Option.bind_some]
        rfl
      | ok contentB =>
        cases env.streamB with
        | some fault =>
          refine ⟨given, ?_, back⟩
          simp only [openedA, closed, Option.bind_eq_bind, Option.bind_some]
          rfl
        | none =>
          obtain ⟨streamB, second, openedB, withBoth⟩ := withA.allocated (.descriptor contentB contentB)
          have start : StreamsAt streamA streamB contentA contentB contentA contentB ⟨none, 0⟩ ⟨none, 0⟩ rest second :=
            .mk .missing .missing (withBoth.reorder (List.Perm.swap ..))
          obtain ⟨lineA, lineB, leftA, leftB, third, looped, at_⟩ :=
            detectStreamsLoop_ok raw env choicesA choicesB 1 lines
              (by omega : contentA.length + contentB.length < contentA.length + contentB.length + 1) start
          obtain @⟨cellsA, cellsB, atA, atB, held⟩ := at_
          obtain ⟨fourth, freedA, held⟩ := atA.free (held.reorder List.perm_middle.symm)
          obtain ⟨fifth, freedB, held⟩ := atB.free (held.reorder (List.perm_append_comm_assoc [_, _] cellsB rest))
          obtain ⟨sixth, closedA, held⟩ := closeDescriptor_ok held
          obtain ⟨after, closedB, kept⟩ := closeDescriptor_ok held
          refine ⟨after, ?_, kept⟩
          simp only [openedA, openedB, looped, freedA, freedB, closedA, closedB, Option.bind_eq_bind, Option.bind_some]
          rfl

-- The lines `sa`, `x` and `sa`, `y`. Both buffers still hold the end of the first line when the second ones are compared.
example : detectLineStreams (fun _ => 255) (.ok [115, 97, 10, 120, 10]) (.ok [115, 97, 10, 121])
    ⟨none, none, fun _ => none, fun _ => none, fun _ => ⟨true, true, true⟩⟩ (fun _ => ⟨true, 9⟩) (fun _ => ⟨false, 0⟩) .zero
    (⟨[], 0⟩ : HashHeap Unit) = some ((0, ⟨[⟨2, [120], [121]⟩], 8⟩), ⟨[], 4⟩) := rfl

end

end Verdiff
