import Mathlib.Data.List.Infix
import Mathlib.Tactic.Ring

/-! Numerals in a text, read back as the numbers they stand for.

The symbols are any type with a partial map to digits. A text of numerals that is cut at a
position still reads as the first of its numbers, unless the position is inside a numeral.
-/

set_option autoImplicit false

namespace Numerals

variable {α : Type} (digit? : α → Option Nat) (base : Nat)

def push (number : Nat) (symbol : α) : Nat := base * number + (digit? symbol).getD 0

def value (text : List α) : Nat := text.foldl (push digit? base) 0

/-- The numbers of the longest runs of digits; `pending` is the run that is being read. -/
def readFrom (pending : Option Nat) : List α → List Nat
  | [] => pending.toList
  | symbol :: rest =>
    if (digit? symbol).isSome then readFrom (some (push digit? base (pending.getD 0) symbol)) rest
    else pending.toList ++ readFrom none rest

def read : List α → List Nat := readFrom digit? base none

/-- Only a numeral of a single digit is zero. -/
structure Numeral (text : List α) : Prop where
  digits : ∀ symbol ∈ text, (digit? symbol).isSome
  nonempty : text ≠ []
  leading : text.length = 1 ∨ 0 < value digit? base text

def Blank (text : List α) : Prop := ∀ symbol ∈ text, digit? symbol = none

/-- A numeral behind a text that ends the one before it. -/
structure Entry (entry : List α × List α) : Prop where
  blank : Blank digit? entry.1
  apart : entry.1 ≠ []
  numeral : Numeral digit? base entry.2

def spell (entries : List (List α × List α)) : List α := entries.flatMap fun entry => entry.1 ++ entry.2

def start (entries : List (List α × List α)) (k : Nat) : Nat :=
  (spell (entries.take k)).length + ((entries.map Prod.fst).getD k []).length

variable {digit? base} {text lead rest : List α}

@[simp] theorem spell_nil : spell ([] : List (List α × List α)) = [] := rfl

@[simp] theorem spell_cons (entry : List α × List α) (entries : List (List α × List α)) :
    spell (entry :: entries) = entry.1 ++ (entry.2 ++ spell entries) := by
  simp [spell]

@[simp] theorem start_zero (entry : List α × List α) (entries : List (List α × List α)) :
    start (entry :: entries) 0 = entry.1.length := by
  simp [start]

@[simp] theorem start_succ (entry : List α × List α) (entries : List (List α × List α)) (k : Nat) :
    start (entry :: entries) (k + 1) = entry.1.length + entry.2.length + start entries k := by
  simp [start]
  omega

/-! ## Values -/

theorem foldl_push (number : Nat) (text : List α) :
    text.foldl (push digit? base) number = base ^ text.length * number + value digit? base text := by
  induction text generalizing number with
  | nil => simp [value]
  | cons symbol rest ih =>
    simp only [value, List.foldl_cons, List.length_cons]
    rw [ih, ih (push digit? base 0 symbol), push, push]
    ring

theorem value_append (first second : List α) :
    value digit? base (first ++ second) =
      base ^ second.length * value digit? base first + value digit? base second := by
  rw [value, List.foldl_append, foldl_push]
  rfl

/-- A numeral that is cut short stands for another number. -/
theorem Numeral.value_take_lt (numeral : Numeral digit? base text) (large : 1 < base) {k : Nat}
    (positive : 0 < k) (short : k < text.length) :
    value digit? base (text.take k) < value digit? base text := by
  have nonzero : 0 < value digit? base text := numeral.leading.resolve_left (by omega)
  have split : value digit? base text = _ :=
    (congrArg _ (List.take_append_drop k text).symm).trans (value_append (text.take k) (text.drop k))
  have places : 2 ≤ base ^ (text.drop k).length := by
    have : (text.drop k).length ≠ 0 := by simp; omega
    exact large.trans_le (Nat.le_self_pow this base)
  have := Nat.mul_le_mul_right (value digit? base (text.take k)) places
  omega

/-! ## Reading -/

theorem readFrom_digits (digits : ∀ symbol ∈ text, (digit? symbol).isSome) (number : Nat) (rest : List α) :
    readFrom digit? base (some number) (text ++ rest) =
      readFrom digit? base (some (text.foldl (push digit? base) number)) rest := by
  induction text generalizing number with
  | nil => rfl
  | cons symbol text ih =>
    obtain ⟨first, others⟩ := List.forall_mem_cons.mp digits
    simp only [List.cons_append, readFrom, first, ↓reduceIte, Option.getD_some, List.foldl_cons, ih others]

theorem read_digits (digits : ∀ symbol ∈ text, (digit? symbol).isSome) (nonempty : text ≠ []) (rest : List α) :
    read digit? base (text ++ rest) = readFrom digit? base (some (value digit? base text)) rest := by
  obtain ⟨symbol, text, rfl⟩ := List.exists_cons_of_ne_nil nonempty
  obtain ⟨first, others⟩ := List.forall_mem_cons.mp digits
  simp only [read, List.cons_append, readFrom, first, ↓reduceIte, Option.getD_none, value, List.foldl_cons,
    readFrom_digits others]

theorem read_blank (blank : Blank digit? lead) (rest : List α) :
    read digit? base (lead ++ rest) = read digit? base rest := by
  induction lead with
  | nil => rfl
  | cons symbol lead ih =>
    obtain ⟨first, others⟩ := List.forall_mem_cons.mp blank
    simpa [read, readFrom, first] using ih others

theorem readFrom_blank (blank : Blank digit? lead) (pending : Option Nat) (apart : lead ≠ []) (rest : List α) :
    readFrom digit? base pending (lead ++ rest) = pending.toList ++ read digit? base (lead ++ rest) := by
  obtain ⟨symbol, lead, rfl⟩ := List.exists_cons_of_ne_nil apart
  obtain ⟨first, others⟩ := List.forall_mem_cons.mp blank
  simp [read, readFrom, first]

theorem readFrom_spell {entries : List (List α × List α)} (valid : ∀ entry ∈ entries, Entry digit? base entry)
    (pending : Option Nat) (c : Nat) :
    readFrom digit? base pending ((spell entries).take c) =
      pending.toList ++ read digit? base ((spell entries).take c) := by
  -- At the start of an entry, or at the end of the text, the number before it is complete.
  cases entries with
  | nil => simp [readFrom, read]
  | cons entry entries =>
    obtain ⟨first, -⟩ := List.forall_mem_cons.mp valid
    rw [spell_cons, List.take_append]
    cases c with
    | zero => simp [readFrom, read]
    | succ c =>
      have apart : entry.1.take (c + 1) ≠ [] := by simp [first.apart]
      exact readFrom_blank (fun symbol member => first.blank symbol (List.mem_of_mem_take member)) pending apart _

theorem forall_indexed_cons {β : Type} {p : Nat → β → Prop} {x : β} {xs : List β} :
    (∀ k y, (x :: xs)[k]? = some y → p k y) ↔ p 0 x ∧ ∀ k y, xs[k]? = some y → p (k + 1) y := by
  constructor
  · exact fun all => ⟨all 0 x rfl, fun k y found => all (k + 1) y found⟩
  · rintro ⟨first, others⟩ k y found
    cases k with
    | zero => cases found; exact first
    | succ k => exact others k y found

theorem read_take_prefix (large : 1 < base) {entries : List (List α × List α)}
    (valid : ∀ entry ∈ entries, Entry digit? base entry) (c : Nat) :
    (read digit? base ((spell entries).take c)).IsPrefix (entries.map fun entry => value digit? base entry.2) ↔
      ∀ k entry, entries[k]? = some entry →
        ¬(start entries k < c ∧ c < start entries k + entry.2.length) := by
  induction entries generalizing c with
  | nil => simp [read, readFrom]
  | cons entry entries ih =>
    obtain ⟨first, others⟩ := List.forall_mem_cons.mp valid
    have blank : Blank digit? (entry.1.take c) :=
      fun symbol member => first.blank symbol (List.mem_of_mem_take member)
    rw [spell_cons, List.take_append, read_blank blank, List.take_append, List.map_cons]
    simp only [forall_indexed_cons, start_zero, start_succ]
    rcases Nat.lt_or_ge entry.1.length c with lead | lead
    · rcases Nat.lt_or_ge c (entry.1.length + entry.2.length) with inside | behind
      · -- The digits in front of the cut are read as a smaller number.
        have digits : ∀ symbol ∈ entry.2.take (c - entry.1.length), (digit? symbol).isSome :=
          fun symbol member => first.numeral.digits symbol (List.mem_of_mem_take member)
        have begun : entry.2.take (c - entry.1.length) ≠ [] := by
          simp [first.numeral.nonempty]
          omega
        have smaller := first.numeral.value_take_lt large (k := c - entry.1.length) (by omega) (by omega)
        have none_left : c - entry.1.length - entry.2.length = 0 := by omega
        rw [none_left, List.take_zero, read_digits digits begun]
        simp [readFrom, smaller.ne, lead, inside]
      · -- The whole numeral is read, and the cut is in the rest.
        have whole : entry.2.take (c - entry.1.length) = entry.2 := List.take_of_length_le (by omega)
        rw [whole, read_digits first.numeral.digits first.numeral.nonempty, readFrom_spell others]
        simp only [Option.toList_some, List.singleton_append, List.cons_prefix_cons, true_and, ih others]
        constructor
        · exact fun all => ⟨by omega, fun k e at_k => by have := all k e at_k; omega⟩
        · exact fun all k e at_k => by have := all.2 k e at_k; omega
    · have nothing : c - entry.1.length = 0 := by omega
      simp only [nothing, List.take_zero, Nat.zero_sub, List.nil_append]
      constructor
      · exact fun _ => ⟨by omega, fun k e _ => by omega⟩
      · exact fun _ => by simp [read, readFrom]

end Numerals
