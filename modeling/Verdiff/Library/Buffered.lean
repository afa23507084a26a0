import Verdiff.Library.Writer

/-! A stream that holds output back.

Every call may write out any part of what the buffer holds and reports a failure of these
writes only. What is still held when the stream is closed is written out then.
-/

set_option autoImplicit false

namespace Buffered
open Writer

variable {Piece α : Type}

/-- How much the file takes in the writes of one call, and whether none of them failed. -/
structure Flush where
  taken : Nat
  ok : Bool
  deriving DecidableEq

structure Stream (α : Type) where
  calls : Nat
  reached : List α
  held : List α
  deriving DecidableEq

namespace Stream

def opened : Stream α := ⟨0, [], []⟩

def sent (stream : Stream α) : List α := stream.reached ++ stream.held

end Stream

def put (symbols : Piece → List α) (file : Nat → Flush) : Sink Piece (Stream α) := fun piece stream =>
  let pending := stream.held ++ symbols piece
  let flush := file stream.calls
  (flush.ok, ⟨stream.calls + 1, stream.reached ++ pending.take flush.taken, pending.drop flush.taken⟩)

def close (flush : Flush) (stream : Stream α) : Bool × List α :=
  (flush.ok && decide (stream.held.length ≤ flush.taken), stream.reached ++ stream.held.take flush.taken)

def heldAfter (file : Nat → Flush) : List Nat → Nat → Nat → Nat
  | [], _, held => held
  | length :: rest, call, held => heldAfter file rest (call + 1) (held + length - (file call).taken)

variable {symbols : Piece → List α} {file : Nat → Flush}

@[simp] theorem put_calls (piece : Piece) (stream : Stream α) :
    (put symbols file piece stream).2.calls = stream.calls + 1 := rfl

@[simp] theorem put_sent (piece : Piece) (stream : Stream α) :
    (put symbols file piece stream).2.sent = stream.sent ++ symbols piece := by
  -- Nothing is lost between the buffer and the file.
  simp only [put, Stream.sent, List.append_assoc, List.take_append_drop]

@[simp] theorem put_held (piece : Piece) (stream : Stream α) : (put symbols file piece stream).2.held.length =
    stream.held.length + (symbols piece).length - (file stream.calls).taken := by
  simp only [put, List.length_drop, List.length_append]

theorem putAll_succeeds (pieces : List Piece) (stream : Stream α) :
    (putAll (put symbols file) pieces stream).1 = 0 ↔ ∀ k < pieces.length, (file (stream.calls + k)).ok = true := by
  induction pieces generalizing stream with
  | nil => simp [putAll]
  | cons piece rest ih =>
    rw [List.length_cons, Nat.forall_lt_succ_left, Nat.add_zero]
    by_cases first : (file stream.calls).ok = true
    · rw [putAll_cons_accepted first, ih]
      simp only [put_calls, first, true_and, Nat.add_assoc, Nat.add_comm 1]
    · rw [putAll_cons_refused (Bool.eq_false_iff.mpr first)]
      simp [first]

theorem putAll_sent {pieces : List Piece} {stream : Stream α}
    (succeeds : (putAll (put symbols file) pieces stream).1 = 0) :
    (putAll (put symbols file) pieces stream).2.sent = stream.sent ++ pieces.flatMap symbols := by
  induction pieces generalizing stream with
  | nil => simp [putAll]
  | cons piece rest ih =>
    have first : (file stream.calls).ok = true := (putAll_succeeds _ _).mp succeeds 0 (Nat.zero_lt_succ _)
    rw [putAll_cons_accepted first] at succeeds ⊢
    rw [ih succeeds, put_sent, List.flatMap_cons, List.append_assoc]

theorem putAll_held {pieces : List Piece} {stream : Stream α}
    (succeeds : (putAll (put symbols file) pieces stream).1 = 0) :
    (putAll (put symbols file) pieces stream).2.held.length =
      heldAfter file (pieces.map fun piece => (symbols piece).length) stream.calls stream.held.length := by
  induction pieces generalizing stream with
  | nil => rfl
  | cons piece rest ih =>
    have first : (file stream.calls).ok = true := (putAll_succeeds _ _).mp succeeds 0 (Nat.zero_lt_succ _)
    rw [putAll_cons_accepted first] at succeeds ⊢
    rw [ih succeeds, put_calls, put_held, List.map_cons, heldAfter]

theorem close_complete (flush : Flush) (stream : Stream α) :
    (close flush stream).2 = stream.sent ↔ stream.held.length ≤ flush.taken := by
  rw [close, Stream.sent, List.append_cancel_left_eq]
  constructor
  · intro whole
    rw [← whole]
    exact List.length_take_le _ _
  · exact List.take_of_length_le

/-- After successful calls everything reaches the file if the closing call takes what is held. -/
theorem close_putAll {pieces : List Piece} (succeeds : (putAll (put symbols file) pieces .opened).1 = 0)
    (flush : Flush) : (close flush (putAll (put symbols file) pieces .opened).2).2 = pieces.flatMap symbols ↔
      heldAfter file (pieces.map fun piece => (symbols piece).length) 0 0 ≤ flush.taken := by
  have complete := close_complete flush (putAll (put symbols file) pieces .opened).2
  rwa [putAll_sent succeeds, putAll_held succeeds] at complete

end Buffered
