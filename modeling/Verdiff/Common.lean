import Mathlib.Algebra.GroupWithZero.Nat
import Mathlib.Data.List.Lex
import Mathlib.Order.Basic
import Mathlib.Order.Lattice

/-! Data shared by every part of the comparison engine.

A C string is kept as the bytes in front of its terminator, a return code as the
number the code returns, and an `off_t` or `time_t` as an integer.
-/

set_option autoImplicit false

namespace Verdiff

abbrev Bytes := List UInt8

def wordSize : Nat := 2 ^ 64

/-- Subtraction of `size_t`. -/
def sizeSub (a b : Nat) : Nat := (a + (wordSize - b)) % wordSize

theorem sizeSub_eq {a b : Nat} (above : b ≤ a) (word : a < wordSize) : sizeSub a b = a - b := by
  rw [sizeSub, show a + (wordSize - b) = a - b + wordSize by omega, Nat.add_mod_right,
    Nat.mod_eq_of_lt (by omega)]

theorem takeWhile_terminated {text : Bytes} (nulFree : 0 ∉ text) (rest : Bytes) :
    (text ++ 0 :: rest).takeWhile (· ≠ 0) = text := by
  have before : ∀ byte ∈ text, decide (byte ≠ 0) = true := by
    intro byte member
    simpa using fun zero : byte = 0 => nulFree (zero ▸ member)
  rw [List.takeWhile_append_of_pos before]
  simp

/-- A NUL-terminated byte string. -/
structure CString where
  bytes : Bytes
  nulFree : 0 ∉ bytes
  deriving DecidableEq

namespace CString

theorem bytes_injective : Function.Injective bytes := by
  rintro ⟨first, _⟩ ⟨second, _⟩ same
  cases same
  rfl

@[ext] theorem ext {first second : CString} (same : first.bytes = second.bytes) : first = second :=
  bytes_injective same

def empty : CString := ⟨[], by simp⟩

instance : Inhabited CString := ⟨empty⟩

def append (first second : CString) : CString :=
  ⟨first.bytes ++ second.bytes, by simp [first.nulFree, second.nulFree]⟩

instance : Append CString := ⟨append⟩

@[simp] theorem bytes_empty : empty.bytes = [] := rfl

@[simp] theorem bytes_append (first second : CString) :
    (first ++ second).bytes = first.bytes ++ second.bytes := rfl

instance : LinearOrder CString :=
  LinearOrder.lift' (fun s => s.bytes.map UInt8.toNat) fun _ _ same =>
    bytes_injective (List.map_injective_iff.mpr (fun _ _ => UInt8.toNat_inj.mp) same)

end CString

/-- The first differing bytes decide; the terminator counts as byte zero. -/
def strcmpBytes : Bytes → Bytes → Int
  | [], [] => 0
  | [], b :: _ => -(b.toNat : Int)
  | a :: _, [] => a.toNat
  | a :: as, b :: bs => if a = b then strcmpBytes as bs else (a.toNat : Int) - b.toNat

def strcmp (first second : CString) : Int := strcmpBytes first.bytes second.bytes

private theorem toNat_pos {byte : UInt8} (nonzero : byte ≠ 0) : 0 < byte.toNat :=
  Nat.pos_of_ne_zero fun zero => nonzero (UInt8.toNat_inj.mp zero)

private theorem strcmpBytes_swap (first second : Bytes) :
    strcmpBytes first second = -strcmpBytes second first := by
  induction first generalizing second with
  | nil => cases second <;> simp [strcmpBytes]
  | cons a as ih =>
    cases second with
    | nil => simp [strcmpBytes]
    | cons b bs =>
      by_cases same : a = b
      · simp [strcmpBytes, same, ih bs]
      · simp only [strcmpBytes, same, ↓reduceIte, Ne.symm same]
        omega

private theorem strcmpBytes_neg {first second : Bytes} (left : 0 ∉ first) (right : 0 ∉ second) :
    strcmpBytes first second < 0 ↔ first.map UInt8.toNat < second.map UInt8.toNat := by
  induction first generalizing second with
  | nil =>
    cases second with
    | nil => simp [strcmpBytes]
    | cons b bs =>
      -- A byte that is not NUL is above the terminator the shorter string ends with.
      have := toNat_pos (show b ≠ 0 by simpa [eq_comm] using fun h => right (by simp [h]))
      simp [strcmpBytes, this]
  | cons a as ih =>
    cases second with
    | nil => simp [strcmpBytes]
    | cons b bs =>
      simp only [List.mem_cons, not_or] at left right
      by_cases same : a = b
      · subst same
        simp [strcmpBytes, ih left.2 right.2]
      · have distinct : a.toNat ≠ b.toNat := fun h => same (UInt8.toNat_inj.mp h)
        simp only [strcmpBytes, same, ↓reduceIte, List.map_cons, List.cons_lt_cons_iff, distinct,
          false_and, or_false]
        omega

theorem strcmp_neg (first second : CString) : strcmp first second < 0 ↔ first < second :=
  strcmpBytes_neg first.nulFree second.nulFree

theorem strcmp_pos (first second : CString) : 0 < strcmp first second ↔ second < first := by
  rw [← strcmp_neg, strcmp, strcmp, strcmpBytes_swap]
  omega

theorem strcmp_zero (first second : CString) : strcmp first second = 0 ↔ first = second := by
  have less := strcmp_neg first second
  have more := strcmp_pos first second
  constructor
  · intro zero
    exact le_antisymm (not_lt.mp fun h => by have := more.mpr h; omega)
      (not_lt.mp fun h => by have := less.mpr h; omega)
  · rintro rfl
    have := (not_congr less).mpr (lt_irrefl _)
    have := (not_congr more).mpr (lt_irrefl _)
    omega

/-- A return code; zero is success. -/
abbrev Rc := Nat

structure Fault where
  code : Rc
  nonzero : code ≠ 0
  deriving DecidableEq

namespace Fault

def ENOENT : Fault := ⟨2, by decide⟩
def EIO : Fault := ⟨5, by decide⟩
def ENOMEM : Fault := ⟨12, by decide⟩
def EINVAL : Fault := ⟨22, by decide⟩
def EMFILE : Fault := ⟨24, by decide⟩
def ECANCELED : Fault := ⟨125, by decide⟩

end Fault

inductive ChangeType where
  | unchanged
  | modified
  | added
  | removed
  deriving DecidableEq, Repr

inductive DetailKind where
  | none
  | lines
  | sizeChanged
  | binaryChanged
  | onlyInTarget
  | onlyInSource
  deriving DecidableEq, Repr

/-- `left` and `right` are owned copies, so they are plain byte lists. -/
structure LineDiff where
  lineNumber : Nat
  left : Bytes
  right : Bytes
  deriving DecidableEq

structure LineDiffVector where
  items : List LineDiff
  capacity : Nat
  deriving DecidableEq

def LineDiffVector.zero : LineDiffVector := ⟨[], 0⟩

structure ChangeRecord where
  path : CString
  type : ChangeType
  detailKind : DetailKind
  sizeA : Int
  sizeB : Int
  lineDiffs : LineDiffVector
  deriving DecidableEq

instance : Inhabited ChangeRecord := ⟨⟨.empty, .unchanged, .none, 0, 0, .zero⟩⟩

structure Config where
  rootA : CString
  rootB : CString
  threadCount : Nat
  includeLines : Bool
  includeUnchanged : Bool
  hashBufferSize : Nat
  mmapThreshold : Nat
  verifyEqualHashes : Bool

structure FileInfo where
  path : CString
  size : Int
  mtime : Int
  deriving DecidableEq

end Verdiff
