import Verdiff.Output.Cells

/-! The `snprintf` calls of the detail cell.

Each call is listed with the offset and the size it is given. Performing the calls in order is
what the formatting does to the buffer.
-/

set_option autoImplicit false

namespace Verdiff

structure SnprintfCall where
  offset : Nat
  size : Nat
  text : Bytes
  deriving DecidableEq

namespace SnprintfCall

def perform (buffer : Bytes) (call : SnprintfCall) : Bytes :=
  (snprintf buffer call.offset call.size call.text).2

def stored (call : SnprintfCall) : Nat := if call.size = 0 then 0 else min call.text.length (call.size - 1) + 1

/-- The call starts inside the buffer, is given what is left of it and stores nothing behind it. -/
structure Inside (bufferLen : Nat) (call : SnprintfCall) : Prop where
  starts : call.offset < bufferLen
  size : call.size = bufferLen - call.offset
  ends : call.offset + call.stored ≤ bufferLen

theorem inside_of_lt {bufferLen offset : Nat} (starts : offset < bufferLen) (text : Bytes) :
    Inside bufferLen ⟨offset, bufferLen - offset, text⟩ := by
  refine ⟨starts, rfl, ?_⟩
  simp only [stored, if_neg (show bufferLen - offset ≠ 0 by omega)]
  omega

end SnprintfCall

open SnprintfCall

def lineNumberCalls (bufferLen : Nat) : List LineDiff → Nat → Nat → List SnprintfCall
  | [], _, _ => []
  | diff :: rest, i, offset =>
    if offset < bufferLen then
      ⟨offset, sizeSub bufferLen offset, numberPiece i diff⟩ ::
        lineNumberCalls bufferLen rest (i + 1) ((offset + (numberPiece i diff).length) % wordSize)
    else []

def lineSummaryCalls (record : ChangeRecord) (bufferLen : Nat) : List SnprintfCall :=
  match record.detailKind with
  | .none => [⟨0, bufferLen, ascii "-"⟩]
  | .lines => ⟨0, bufferLen, ascii "Lines: "⟩ ::
      lineNumberCalls bufferLen record.lineDiffs.items 0 (ascii "Lines: ").length
  | .sizeChanged => [⟨0, bufferLen, ascii "Size Changed (line scan skipped)"⟩]
  | .binaryChanged => [⟨0, bufferLen, ascii "Binary Changed"⟩]
  | .onlyInTarget => [⟨0, bufferLen, ascii "New File"⟩]
  | .onlyInSource => [⟨0, bufferLen, ascii "Missing in Target"⟩]

theorem lineNumbersLoop_calls (bufferLen : Nat) (diffs : List LineDiff) (i offset : Nat) (buffer : Bytes) :
    lineNumbersLoop bufferLen diffs i offset buffer =
      (lineNumberCalls bufferLen diffs i offset).foldl perform buffer := by
  induction diffs generalizing i offset buffer with
  | nil => rfl
  | cons diff rest ih =>
    simp only [lineNumbersLoop, lineNumberCalls]
    split
    · rw [List.foldl_cons, ← ih]
      rfl
    · rfl

theorem formatLineSummary_calls (record : ChangeRecord) (buffer : Bytes) (bufferLen : Nat) :
    formatLineSummary record buffer bufferLen = (lineSummaryCalls record bufferLen).foldl perform buffer := by
  unfold formatLineSummary lineSummaryCalls
  cases record.detailKind with
  | lines => exact lineNumbersLoop_calls ..
  | _ => rfl

theorem lineNumberCalls_inside {bufferLen : Nat} (word : bufferLen < wordSize) (diffs : List LineDiff) (i offset : Nat) :
    ∀ call ∈ lineNumberCalls bufferLen diffs i offset, call.Inside bufferLen := by
  -- The guard of the loop keeps the subtraction behind it from wrapping.
  induction diffs generalizing i offset with
  | nil => exact List.forall_mem_nil _
  | cons diff rest ih =>
    rw [lineNumberCalls]
    split
    next starts =>
      refine List.forall_mem_cons.mpr ⟨?_, ih (i + 1) _⟩
      rw [sizeSub_eq starts.le word]
      exact inside_of_lt starts _
    next => exact List.forall_mem_nil _

theorem lineSummary_intercalate (numbers : List Nat) :
    lineSummary numbers = ascii "Lines: " ++ (ascii ", ").intercalate (numbers.map decimal) := by
  cases numbers with
  | nil => rfl
  | cons n rest =>
    rw [lineSummary, List.append_assoc]
    congr 1
    induction rest generalizing n with
    | nil => simp [List.intercalate_singleton]
    | cons m rest ih =>
      rw [List.flatMap_cons, List.map_cons, List.map_cons, List.intercalate_cons_cons, ← List.map_cons, ← ih m]
      simp only [List.append_assoc]

def lineDiffSize : Nat := 40

/-- No call leaves the buffer, and the list of line numbers is cut exactly where the buffer
ends, for numbers and sizes that are a `size_t` and an array of line differences that is an
object in memory. -/
theorem format_line_summary_bounded (record : ChangeRecord) (listed : record.detailKind = .lines)
    (words : ∀ diff ∈ record.lineDiffs.items, diff.lineNumber < wordSize) (buffer : Bytes) (bufferLen : Nat)
    (room : 1 ≤ bufferLen) (length : buffer.length = bufferLen) (word : bufferLen < wordSize)
    (object : lineDiffSize * record.lineDiffs.items.length < wordSize) :
    formatLineSummary record buffer bufferLen = (lineSummaryCalls record bufferLen).foldl perform buffer ∧
      (∀ call ∈ lineSummaryCalls record bufferLen, call.Inside bufferLen) ∧
      (formatLineSummary record buffer bufferLen).length = bufferLen ∧
      cText (formatLineSummary record buffer bufferLen) =
        (ascii "Lines: " ++ (ascii ", ").intercalate ((lineNumbers record).map decimal)).take (bufferLen - 1) := by
  -- An element takes more memory than the text that is printed for it.
  have fits : OffsetFits bufferLen (ascii "Lines: ").length record.lineDiffs.items.length := by
    have heading : (ascii "Lines: ").length = 7 := rfl
    have large : 100 ≤ wordSize := by decide
    unfold lineDiffSize at object
    exact .inr ⟨word, by omega⟩
  have holds := formatLineSummary_holds listed room fits words length
  refine ⟨formatLineSummary_calls record buffer bufferLen, ?_, holds.1, ?_⟩
  · rw [lineSummaryCalls, listed]
    exact List.forall_mem_cons.mpr ⟨inside_of_lt room _, lineNumberCalls_inside word _ _ _⟩
  · rw [← lineSummary_intercalate]
    exact holds.cText (lineSummary_nulFree _)

/-- A buffer that the second number exactly fills up: the third is not printed any more. -/
theorem format_line_summary_bounded_full :
    cText (formatLineSummary (changedLines 3) (List.replicate 12 65) 12) =
      (ascii "Lines: 1, 2, 3").take 11 := by
  obtain ⟨_, _, _, text⟩ := format_line_summary_bounded (changedLines 3) rfl (changedLines_words (by decide))
    (List.replicate 12 65) 12 (by decide) List.length_replicate (by decide) (by decide)
  rw [text]
  decide

end Verdiff
