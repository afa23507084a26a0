import Verdiff.Library.Numerals
import Verdiff.Output.Report

/-! The detail cell of a record with line differences.

The buffer holds the beginning of the list of line numbers, and the numbers in the cell are
read back as the longest runs of decimal digits.
-/

set_option autoImplicit false

namespace Verdiff
open Numerals

def digitOf (byte : UInt8) : Option Nat := if 48 ≤ byte ∧ byte ≤ 57 then some (byte.toNat - 48) else none

def printedNumbers (cell : Bytes) : List Nat := read digitOf 10 cell

def lineNumbers (record : ChangeRecord) : List Nat := record.lineDiffs.items.map LineDiff.lineNumber

/-- The list behind its heading, of any length. -/
def lineSummary : List Nat → Bytes
  | [] => ascii "Lines: "
  | n :: rest => ascii "Lines: " ++ decimal n ++ rest.flatMap fun n => ascii ", " ++ decimal n

def numberStart (numbers : List Nat) (k : Nat) : Nat :=
  (ascii "Lines: ").length +
    ((numbers.take k).map fun n => (decimal n).length + (ascii ", ").length).sum

/-- There is room for some of the digits of a number, but not for all of them. -/
def CutsNumber (room : Nat) (numbers : List Nat) : Prop :=
  ∃ k : Fin numbers.length, numberStart numbers k < room ∧
    room < numberStart numbers k + (decimal (numbers.get k)).length

instance (room : Nat) (numbers : List Nat) : Decidable (CutsNumber room numbers) :=
  inferInstanceAs (Decidable (∃ _ : Fin _, _ ∧ _))

/-! ## Decimal numerals -/

theorem digitOf_byte {c : Char} (digit : c.isDigit) : digitOf c.toNat.toUInt8 = some (c.toNat - 48) := by
  have bounds : 48 ≤ c.toNat ∧ c.toNat ≤ 57 := by
    simp only [Char.isDigit, Bool.and_eq_true, decide_eq_true_eq, ge_iff_le, UInt32.le_iff_toNat_le] at digit
    exact digit
  have small : c.toNat.toUInt8.toNat = c.toNat := by
    rw [Nat.toUInt8_eq, UInt8.toNat_ofNat']
    exact Nat.mod_eq_of_lt (by omega)
  rw [digitOf, if_pos, small]
  exact ⟨UInt8.le_iff_toNat_le.mpr (by simpa [small] using bounds.1),
    UInt8.le_iff_toNat_le.mpr (by simpa [small] using bounds.2)⟩

theorem decimal_char {n : Nat} {byte : UInt8} (member : byte ∈ decimal n) :
    ∃ c : Char, c.isDigit ∧ c.toNat.toUInt8 = byte := by
  obtain ⟨c, among, rfl⟩ := List.mem_map.mp member
  exact ⟨c, Nat.isDigit_of_mem_toDigits (by decide) (by decide) among, rfl⟩

theorem value_decimal (n : Nat) : value digitOf 10 (decimal n) = n := by
  have chars : ∀ (text : List Char) (number : Nat), (∀ c ∈ text, c.isDigit) →
      (text.map fun c => c.toNat.toUInt8).foldl (push digitOf 10) number = Nat.ofDigitChars 10 text number := by
    intro text
    induction text with
    | nil => exact fun number _ => by simp
    | cons c text ih =>
      intro number digits
      obtain ⟨first, others⟩ := List.forall_mem_cons.mp digits
      rw [List.map_cons, List.foldl_cons, ih _ others, Nat.ofDigitChars_cons, push, digitOf_byte first]
      rfl
  rw [value, decimal, chars _ _ fun c => Nat.isDigit_of_mem_toDigits (by decide) (by decide)]
  exact Nat.ofDigitChars_ten_toDigits

theorem decimal_numeral (n : Nat) : Numeral digitOf 10 (decimal n) where
  digits byte member := by
    obtain ⟨c, digit, rfl⟩ := decimal_char member
    simp [digitOf_byte digit]
  nonempty := by simp [decimal]
  leading := by
    rw [value_decimal]
    rcases Nat.lt_or_ge n 10 with single | several
    · left
      simp [decimal, Nat.toDigits_of_lt_base single]
    · right
      omega

theorem decimal_nulFree (n : Nat) : 0 ∉ decimal n := by
  intro member
  obtain ⟨c, digit, same⟩ := decimal_char member
  have read := digitOf_byte digit
  rw [same] at read
  cases read

theorem decimal_length {n : Nat} (word : n < wordSize) : (decimal n).length ≤ 20 := by
  rw [decimal, List.length_map, Nat.length_toDigits_le_iff (by decide) (by decide)]
  exact word.trans (by decide)

/-! ## The text in the buffer -/

/-- The buffer holds as much of the text as there is room for, and ends it. -/
def Holds (bufferLen : Nat) (text buffer : Bytes) : Prop :=
  buffer.length = bufferLen ∧ ∃ rest, buffer = text.take (bufferLen - 1) ++ 0 :: rest

section
variable {bufferLen : Nat} {text piece buffer : Bytes}

theorem Holds.cText (holds : Holds bufferLen text buffer) (nulFree : 0 ∉ text) :
    cText buffer = text.take (bufferLen - 1) := by
  obtain ⟨-, rest, rfl⟩ := holds
  exact takeWhile_terminated (fun member => nulFree (List.mem_of_mem_take member)) rest

theorem Holds.append (holds : Holds bufferLen text buffer) (full : bufferLen ≤ text.length) (piece : Bytes) :
    Holds bufferLen (text ++ piece) buffer := by
  refine ⟨holds.1, ?_⟩
  rw [List.take_append_of_le_length (by omega)]
  exact holds.2

theorem Holds.start (holds : Holds bufferLen text buffer) (inside : text.length < bufferLen) :
    buffer.take text.length = text := by
  obtain ⟨-, rest, rfl⟩ := holds
  rw [List.take_of_length_le (show text.length ≤ bufferLen - 1 by omega)]
  exact List.take_left

theorem snprintf_holds (length : buffer.length = bufferLen) (front : buffer.take text.length = text)
    (inside : text.length < bufferLen) (piece : Bytes) :
    Holds bufferLen (text ++ piece) (snprintf buffer text.length (bufferLen - text.length) piece).2 := by
  have some_room : bufferLen - text.length ≠ 0 := by omega
  have shape : (snprintf buffer text.length (bufferLen - text.length) piece).2 =
      (text ++ piece).take (bufferLen - 1) ++ 0 ::
        buffer.drop (text.length + (piece.take (bufferLen - text.length - 1) ++ [0]).length) := by
    have fits : text.take (bufferLen - 1) = text := List.take_of_length_le (by omega)
    have room : bufferLen - text.length - 1 = bufferLen - 1 - text.length := by omega
    simp only [snprintf, some_room, ↓reduceIte, store, front, List.take_append, fits, room, List.append_assoc,
      List.singleton_append]
  refine ⟨?_, _, shape⟩
  rw [shape]
  simp only [List.length_append, List.length_take, List.length_cons, List.length_drop, List.length_nil]
  omega

theorem lineNumbersLoop_full {offset : Nat} (full : bufferLen ≤ offset) (diffs : List LineDiff) (i : Nat)
    (buffer : Bytes) : lineNumbersLoop bufferLen diffs i offset buffer = buffer := by
  cases diffs with
  | nil => rfl
  | cons diff rest => rw [lineNumbersLoop, if_neg (by omega)]

def numberPiece (i : Nat) (diff : LineDiff) : Bytes :=
  (if i = 0 then [] else ascii ", ") ++ decimal diff.lineNumber

theorem numberPiece_length {diff : LineDiff} (word : diff.lineNumber < wordSize) (i : Nat) :
    (numberPiece i diff).length ≤ 22 := by
  have digits := decimal_length word
  have separator : (if i = 0 then [] else ascii ", ").length ≤ 2 := by
    split
    · exact Nat.zero_le 2
    · exact Nat.le_refl 2
  rw [numberPiece, List.length_append]
  omega

/-- The offset fits a word as far as the loop runs: the buffer ends before, or the pieces do. -/
def OffsetFits (bufferLen offset pieces : Nat) : Prop :=
  bufferLen + 22 ≤ wordSize ∨ bufferLen < wordSize ∧ offset + 22 * pieces < wordSize

theorem OffsetFits.word {offset pieces : Nat} (fits : OffsetFits bufferLen offset pieces) : bufferLen < wordSize := by
  rcases fits with before | ⟨word, _⟩
  · omega
  · exact word

theorem OffsetFits.next {offset pieces : Nat} (fits : OffsetFits bufferLen offset (pieces + 1))
    {width : Nat} (short : width ≤ 22) : OffsetFits bufferLen (offset + width) pieces := by
  rcases fits with before | ⟨word, few⟩
  · exact .inl before
  · exact .inr ⟨word, by omega⟩

theorem OffsetFits.mod_eq {offset pieces : Nat} (fits : OffsetFits bufferLen offset (pieces + 1))
    (inside : offset < bufferLen) {width : Nat} (short : width ≤ 22) : (offset + width) % wordSize = offset + width := by
  apply Nat.mod_eq_of_lt
  rcases fits with before | ⟨_, few⟩ <;> omega

theorem lineNumbersLoop_step {diff : LineDiff} {rest : List LineDiff}
    (fits : OffsetFits bufferLen text.length (rest.length + 1)) (word : diff.lineNumber < wordSize)
    (holds : Holds bufferLen text buffer) (i : Nat) :
    ∃ printed, Holds bufferLen (text ++ numberPiece i diff) printed ∧
      lineNumbersLoop bufferLen (diff :: rest) i text.length buffer =
        lineNumbersLoop bufferLen rest (i + 1) (text ++ numberPiece i diff).length printed := by
  by_cases inside : text.length < bufferLen
  · have offset := fits.mod_eq inside (numberPiece_length word i)
    refine ⟨_, snprintf_holds holds.1 (holds.start inside) inside (numberPiece i diff), ?_⟩
    rw [lineNumbersLoop, if_pos inside, sizeSub_eq inside.le fits.word, List.length_append, ← offset]
    rfl
  · refine ⟨buffer, holds.append (by omega) _, ?_⟩
    rw [lineNumbersLoop_full (by omega), lineNumbersLoop_full (by simp; omega)]

theorem lineNumbersLoop_holds {diffs : List LineDiff} (fits : OffsetFits bufferLen text.length diffs.length)
    (words : ∀ diff ∈ diffs, diff.lineNumber < wordSize) {i : Nat} (later : i ≠ 0)
    (holds : Holds bufferLen text buffer) :
    Holds bufferLen (text ++ diffs.flatMap fun diff => ascii ", " ++ decimal diff.lineNumber)
      (lineNumbersLoop bufferLen diffs i text.length buffer) := by
  induction diffs generalizing i text buffer with
  | nil => simpa [lineNumbersLoop] using holds
  | cons diff rest ih =>
    obtain ⟨word, others⟩ := List.forall_mem_cons.mp words
    obtain ⟨printed, next, goesOn⟩ := lineNumbersLoop_step fits word holds i
    have left := fits.next (numberPiece_length word i)
    rw [← List.length_append] at left
    rw [goesOn, List.flatMap_cons, ← List.append_assoc]
    simpa only [numberPiece, later, ↓reduceIte] using ih left others (Nat.succ_ne_zero i) next

end

section
variable {record : ChangeRecord} (listed : record.detailKind = .lines) {bufferLen : Nat} (room : 0 < bufferLen)
  (fits : OffsetFits bufferLen (ascii "Lines: ").length record.lineDiffs.items.length)
  (words : ∀ diff ∈ record.lineDiffs.items, diff.lineNumber < wordSize)
  {buffer : Bytes} (length : buffer.length = bufferLen)
include listed room fits words length

/-- The buffer holds the beginning of the list. -/
theorem formatLineSummary_holds :
    Holds bufferLen (lineSummary (lineNumbers record)) (formatLineSummary record buffer bufferLen) := by
  have heading : Holds bufferLen ([] ++ ascii "Lines: ") (snprintf buffer 0 bufferLen (ascii "Lines: ")).2 :=
    @snprintf_holds bufferLen [] buffer length rfl room (ascii "Lines: ")
  simp only [formatLineSummary, listed]
  revert words fits
  rw [lineNumbers]
  cases record.lineDiffs.items with
  | nil => exact fun _ _ => heading
  | cons diff rest =>
    intro fits words
    obtain ⟨word, others⟩ := List.forall_mem_cons.mp words
    obtain ⟨printed, first, goesOn⟩ := lineNumbersLoop_step fits word heading 0
    have left := fits.next (numberPiece_length word 0)
    rw [← List.length_append] at left
    have all := lineNumbersLoop_holds left others (Nat.succ_ne_zero 0) first
    rw [List.map_cons, lineSummary, List.flatMap_map]
    exact goesOn ▸ all

end

/-! ## The numbers in the cell -/

def lineEntries : List Nat → List (Bytes × Bytes)
  | [] => []
  | n :: rest => (ascii "Lines: ", decimal n) :: rest.map fun n => (ascii ", ", decimal n)

theorem blank_of_all {text : Bytes} (all : text.all fun byte => (digitOf byte).isNone) : Blank digitOf text :=
  fun byte member => Option.isNone_iff_eq_none.mp (List.all_eq_true.mp all byte member)

theorem heading_blank : Blank digitOf (ascii "Lines: ") := blank_of_all (by decide)

theorem separator_blank : Blank digitOf (ascii ", ") := blank_of_all (by decide)

theorem lineEntries_valid (numbers : List Nat) : ∀ entry ∈ lineEntries numbers, Entry digitOf 10 entry := by
  cases numbers with
  | nil => exact fun entry member => nomatch member
  | cons n rest =>
    refine List.forall_mem_cons.mpr ⟨⟨heading_blank, List.cons_ne_nil _ _, decimal_numeral n⟩, ?_⟩
    intro entry member
    obtain ⟨m, -, rfl⟩ := List.mem_map.mp member
    exact ⟨separator_blank, List.cons_ne_nil _ _, decimal_numeral m⟩

theorem lineEntries_getElem (numbers : List Nat) (k : Nat) : (lineEntries numbers)[k]? =
    numbers[k]?.map fun n => (if k = 0 then ascii "Lines: " else ascii ", ", decimal n) := by
  cases numbers with
  | nil => rfl
  | cons n rest =>
    cases k with
    | zero => rfl
    | succ k => simp [lineEntries]

theorem lineEntries_values (numbers : List Nat) :
    (lineEntries numbers).map (fun entry => value digitOf 10 entry.2) = numbers := by
  cases numbers with
  | nil => rfl
  | cons n rest => simp [lineEntries, value_decimal, Function.comp_def]

theorem start_separated (rest : List Nat) {k : Nat} (inside : k < rest.length) :
    start (rest.map fun n => (ascii ", ", decimal n)) k =
      ((rest.take k).map fun n => (decimal n).length + (ascii ", ").length).sum + (ascii ", ").length := by
  induction rest generalizing k with
  | nil => cases inside
  | cons n rest ih =>
    cases k with
    | zero => simp
    | succ k =>
      rw [List.map_cons, start_succ, ih (Nat.lt_of_succ_lt_succ inside), List.take_succ_cons, List.map_cons,
        List.sum_cons]
      dsimp only
      omega

theorem start_lineEntries (numbers : List Nat) {k : Nat} (inside : k < numbers.length) :
    start (lineEntries numbers) k = numberStart numbers k := by
  cases numbers with
  | nil => cases inside
  | cons n rest =>
    rw [lineEntries, numberStart]
    cases k with
    | zero => simp
    | succ k =>
      rw [start_succ, start_separated rest (Nat.lt_of_succ_lt_succ inside), List.take_succ_cons,
        List.map_cons, List.sum_cons]
      dsimp only
      omega

theorem lineSummary_numbers (numbers : List Nat) (room : Nat) :
    (printedNumbers ((lineSummary numbers).take room)).IsPrefix numbers ↔ ¬CutsNumber room numbers := by
  cases numbers with
  | nil =>
    have blank : Blank digitOf ((ascii "Lines: ").take room) :=
      fun byte member => heading_blank byte (List.mem_of_mem_take member)
    have nothing : Numerals.read digitOf 10 ((ascii "Lines: ").take room ++ []) = [] := read_blank blank []
    rw [List.append_nil] at nothing
    simp [printedNumbers, lineSummary, nothing, CutsNumber]
  | cons n rest =>
    have spelled : lineSummary (n :: rest) = spell (lineEntries (n :: rest)) := by
      rw [lineSummary, lineEntries, spell_cons, spell, List.flatMap_map, List.append_assoc]
    have cut := read_take_prefix (by decide : 1 < 10) (lineEntries_valid (n :: rest)) room
    rw [lineEntries_values, ← spelled] at cut
    rw [printedNumbers, cut, CutsNumber]
    simp only [not_exists, not_and]
    constructor
    · intro apart k
      have entry := lineEntries_getElem (n :: rest) k
      rw [List.getElem?_eq_getElem k.isLt] at entry
      rw [← start_lineEntries (n :: rest) k.isLt]
      exact apart k _ entry
    · intro apart k entry found
      rw [lineEntries_getElem] at found
      obtain ⟨m, at_k, rfl⟩ := Option.map_eq_some_iff.mp found
      obtain ⟨inside, rfl⟩ := List.getElem?_eq_some_iff.mp at_k
      rw [start_lineEntries (n :: rest) inside]
      exact apart ⟨k, inside⟩

theorem lineSummary_nulFree (numbers : List Nat) : 0 ∉ lineSummary numbers := by
  cases numbers with
  | nil => decide
  | cons n rest =>
    have heading : 0 ∉ ascii "Lines: " := by decide
    have separator : 0 ∉ ascii ", " := by decide
    simp [lineSummary, heading, separator, decimal_nulFree]

/-- The cell shows complete line numbers, from the first on, exactly where its end cuts none of them. -/
theorem format_line_summary_numbers (record : ChangeRecord) (listed : record.detailKind = .lines)
    (words : ∀ diff ∈ record.lineDiffs.items, diff.lineNumber < wordSize) (buffer : Bytes) (bufferLen : Nat)
    (room : 0 < bufferLen) (object : bufferLen ≤ wordSize / 2) (length : buffer.length = bufferLen) :
    (printedNumbers (cText (formatLineSummary record buffer bufferLen))).IsPrefix (lineNumbers record) ↔
      ¬CutsNumber (bufferLen - 1) (lineNumbers record) := by
  have large : wordSize / 2 + 22 ≤ wordSize := by decide
  have text := formatLineSummary_holds listed room (.inl (by omega)) words length
  rw [text.cText (lineSummary_nulFree _)]
  exact lineSummary_numbers (lineNumbers record) (bufferLen - 1)

/-- A record of a file whose first `n` lines all differ. -/
def changedLines (n : Nat) : ChangeRecord where
  path := ⟨ascii "a.txt", by decide⟩
  type := .modified
  detailKind := .lines
  sizeA := 2 * n
  sizeB := 2 * n
  lineDiffs := ⟨(List.range n).map fun i => ⟨i + 1, ascii "a", ascii "b"⟩, 256⟩

theorem changedLines_words {n : Nat} (word : n < wordSize) :
    ∀ diff ∈ (changedLines n).lineDiffs.items, diff.lineNumber < wordSize := by
  intro diff member
  obtain ⟨i, inside, rfl⟩ := List.mem_map.mp member
  exact Nat.lt_of_le_of_lt (List.mem_range.mp inside) word

theorem format_line_summary_numbers_fits :
    (printedNumbers (recordRow (changedLines 3)).detail).IsPrefix (lineNumbers (changedLines 3)) :=
  (format_line_summary_numbers (changedLines 3) rfl (changedLines_words (by decide)) (List.replicate 512 0) 512
    (by decide) (by decide) List.length_replicate).mpr (by decide)

/-- The cell of the line numbers 1 to 123 ends behind the first two digits of the last one. -/
theorem format_line_summary_numbers_cut :
    ¬(printedNumbers (recordRow (changedLines 123)).detail).IsPrefix (lineNumbers (changedLines 123)) := by
  have text : Holds 512 (lineSummary (lineNumbers (changedLines 123))) (formatLineSummary (changedLines 123)
      (List.replicate 512 0) 512) :=
    formatLineSummary_holds rfl (by decide) (.inl (by decide)) (changedLines_words (by decide)) List.length_replicate
  rw [recordRow, text.cText (lineSummary_nulFree _), lineSummary_numbers, not_not]
  exact ⟨⟨122, by simp [lineNumbers, changedLines]⟩, by decide +kernel⟩

end Verdiff
