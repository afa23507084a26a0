import Verdiff.Common

/-! The file system as the program sees it, and single `read` calls.

What a path names does not change during a run. A call that can fail for other
reasons takes its outcome from the environment of the function that makes it; so does
each `open` apart from what the path names.
-/

set_option autoImplicit false

namespace Verdiff

inductive FileKind where
  | directory
  | regular
  | symlink
  | special
  deriving DecidableEq, Repr

structure Stat where
  kind : FileKind
  size : Int
  mtime : Int
  deriving DecidableEq

/-- The names `readdir` yields in order, then the fault it ends with, if any. -/
structure DirStream where
  names : List CString
  fault : Option Fault

structure FileSystem where
  lstat : CString → Except Fault Stat
  opendir : CString → Except Fault DirStream
  /-- The content of the file a path opens. -/
  openFile : CString → Except Fault Bytes

/-- One `open` of what a path names: it may fail on its own, for want of a descriptor for instance. -/
def openCall (fault : Option Fault) (file : Except Fault Bytes) : Except Fault Bytes :=
  match fault with
  | some fault => .error fault
  | none => file

theorem openCall_ok {fault : Option Fault} {file : Except Fault Bytes} {content : Bytes}
    (opened : openCall fault file = .ok content) : fault = none ∧ file = .ok content := by
  cases fault with
  | none => exact ⟨rfl, opened⟩
  | some fault => cases opened

/-- The kernel's answer to one `read`: a fault, or the number of bytes it would like to give. -/
inductive ReadResult where
  | fault (fault : Fault)
  | upTo (wanted : Nat)

/-- At least one byte before the end of the file, at most what fits and what is left. -/
def readLength (bufferSize left wanted : Nat) : Nat := min (min bufferSize left) (max 1 wanted)

def readChunk (bufferSize : Nat) (left : Bytes) : ReadResult → Except Fault (Bytes × Bytes)
  | .fault fault => .error fault
  | .upTo wanted =>
    let length := readLength bufferSize left.length wanted
    .ok (left.take length, left.drop length)

def ReadResult.Full (bufferSize : Nat) : ReadResult → Prop
  | .fault _ => False
  | .upTo wanted => bufferSize ≤ wanted

def ReadResult.Succeeds : ReadResult → Prop
  | .fault _ => False
  | .upTo _ => True

/-- The lengths of the chunks in which a schedule cuts a file, from one turn on. -/
def readLengths (bufferSize : Nat) (reads : Nat → ReadResult) (turn left : Nat) : List Nat :=
  match reads turn with
  | .fault _ => []
  | .upTo wanted =>
    let length := readLength bufferSize left wanted
    if length = 0 then [] else length :: readLengths bufferSize reads (turn + 1) (left - length)
termination_by left
decreasing_by
  have bounded : length ≤ left := by simp only [length, readLength]; omega
  omega

theorem readChunk_ok {bufferSize : Nat} {left chunk rest : Bytes} {result : ReadResult}
    (read : readChunk bufferSize left result = .ok (chunk, rest)) : left = chunk ++ rest := by
  cases result with
  | fault fault => cases read
  | upTo wanted =>
    cases read
    exact (List.take_append_drop _ _).symm

theorem readLength_full {bufferSize wanted : Nat} (enough : bufferSize ≤ wanted) (left : Nat) :
    readLength bufferSize left wanted = min bufferSize left := by
  unfold readLength
  omega

theorem readChunk_full {bufferSize : Nat} {result : ReadResult} (full : result.Full bufferSize) (left : Bytes) :
    readChunk bufferSize left result = .ok (left.take bufferSize, left.drop bufferSize) := by
  cases result with
  | fault fault => exact full.elim
  | upTo wanted =>
    simp only [readChunk, readLength_full full]
    rcases Nat.le_total bufferSize left.length with short | long
    · rw [Nat.min_eq_left short]
    · rw [Nat.min_eq_right long, List.take_length, List.drop_length, List.take_of_length_le long,
        List.drop_eq_nil_of_le long]

theorem readChunk_succeeds {result : ReadResult} (succeeds : result.Succeeds) (bufferSize : Nat) (left : Bytes) :
    ∃ chunk rest, readChunk bufferSize left result = .ok (chunk, rest) := by
  cases result with
  | fault fault => exact succeeds.elim
  | upTo wanted => exact ⟨_, _, rfl⟩

theorem ReadResult.Full.succeeds {bufferSize : Nat} {result : ReadResult} (full : result.Full bufferSize) :
    result.Succeeds := by
  cases result with
  | fault fault => exact full
  | upTo wanted => trivial

theorem readLengths_full {bufferSize : Nat} {reads other : Nat → ReadResult}
    (full : ∀ turn, (reads turn).Full bufferSize) (full' : ∀ turn, (other turn).Full bufferSize)
    (turn turn' left : Nat) : readLengths bufferSize reads turn left = readLengths bufferSize other turn' left := by
  induction left using Nat.strong_induction_on generalizing turn turn' with
  | _ left ih =>
    have here := full turn
    have there := full' turn'
    rw [readLengths, readLengths]
    cases result : reads turn with
    | fault fault => rw [result] at here; exact here.elim
    | upTo wanted =>
      cases result' : other turn' with
      | fault fault => rw [result'] at there; exact there.elim
      | upTo wanted' =>
        rw [result] at here
        rw [result'] at there
        simp only [readLength_full here, readLength_full there]
        split
        · rfl
        next nonempty => rw [ih _ (by omega)]

theorem readLengths_chunk {bufferSize turn : Nat} {reads : Nat → ReadResult} {left chunk rest : Bytes}
    (read : readChunk bufferSize left (reads turn) = .ok (chunk, rest)) :
    readLengths bufferSize reads turn left.length =
      if chunk.length = 0 then [] else chunk.length :: readLengths bufferSize reads (turn + 1) rest.length := by
  rw [readLengths]
  cases result : reads turn with
  | fault fault => rw [result] at read; cases read
  | upTo wanted =>
    rw [result] at read
    simp only [readChunk, Except.ok.injEq, Prod.mk.injEq] at read
    have bounded : readLength bufferSize left.length wanted ≤ left.length := by unfold readLength; omega
    simp [← read.1, ← read.2, bounded]

theorem readChunk_decreases {bufferSize : Nat} {left chunk rest : Bytes} {result : ReadResult}
    (read : readChunk bufferSize left result = .ok (chunk, rest)) (nonempty : chunk.length ≠ 0) :
    rest.length < left.length := by
  rw [readChunk_ok read, List.length_append]
  omega

theorem readChunk_end {bufferSize : Nat} (positive : 1 ≤ bufferSize) {left chunk rest : Bytes}
    {result : ReadResult} (read : readChunk bufferSize left result = .ok (chunk, rest))
    (empty : chunk.length = 0) : left = [] := by
  cases result with
  | fault fault => cases read
  | upTo wanted =>
    simp only [readChunk, Except.ok.injEq, Prod.mk.injEq] at read
    rw [← read.1, List.length_take, readLength] at empty
    exact List.length_eq_zero_iff.mp (by omega)

end Verdiff
