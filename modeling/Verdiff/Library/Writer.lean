import Mathlib.Data.List.Basic

/-! Output in pieces to a sink that can refuse one.

A routine that writes returns zero, or a negative code as soon as a piece is refused.
Routines in a row put their pieces in a row, whatever the sink does with them.
-/

set_option autoImplicit false

namespace Writer

variable {Piece σ : Type}

abbrev Sink (Piece σ : Type) := Piece → σ → Bool × σ

def putAll (put : Sink Piece σ) : List Piece → σ → Int × σ
  | [], state => (0, state)
  | piece :: rest, state =>
    let (ok, state) := put piece state
    if ok then putAll put rest state else (-1, state)

def andThen (first next : σ → Int × σ) (state : σ) : Int × σ :=
  let (rc, state) := first state
  if rc ≠ 0 then (-1, state) else next state

def Accepting (put : Sink Piece σ) : Prop := ∀ piece state, (put piece state).1 = true

def feed (put : Sink Piece σ) (pieces : List Piece) (state : σ) : σ :=
  pieces.foldl (fun state piece => (put piece state).2) state

/-- The routine succeeds and its output is the given pieces. -/
def Writes (put : Sink Piece σ) (routine : σ → Int × σ) (pieces : List Piece) : Prop :=
  ∀ state, routine state = (0, feed put pieces state)

variable {put : Sink Piece σ}

theorem putAll_cons_accepted {piece : Piece} {state : σ} (accepted : (put piece state).1 = true)
    (rest : List Piece) : putAll put (piece :: rest) state = putAll put rest (put piece state).2 := by
  simp only [putAll, accepted, ↓reduceIte]

theorem putAll_cons_refused {piece : Piece} {state : σ} (refused : (put piece state).1 = false)
    (rest : List Piece) : putAll put (piece :: rest) state = (-1, (put piece state).2) := by
  simp only [putAll, refused, Bool.false_eq_true, ↓reduceIte]

theorem putAll_rc (pieces : List Piece) (state : σ) :
    (putAll put pieces state).1 = 0 ∨ (putAll put pieces state).1 = -1 := by
  induction pieces generalizing state with
  | nil => exact .inl rfl
  | cons piece rest ih =>
    simp only [putAll]
    split
    · exact ih _
    · exact .inr rfl

theorem putAll_append (pieces later : List Piece) :
    putAll put (pieces ++ later) = andThen (putAll put pieces) (putAll put later) := by
  funext state
  induction pieces generalizing state with
  | nil => rfl
  | cons piece rest ih =>
    simp only [List.cons_append, putAll, andThen]
    split
    · exact ih _
    · rfl

theorem Writes.putAll (accepting : Accepting put) (pieces : List Piece) :
    Writes put (putAll put pieces) pieces := by
  intro state
  induction pieces generalizing state with
  | nil => rfl
  | cons piece rest ih => simp only [Writer.putAll, accepting piece state, ↓reduceIte, ih, feed, List.foldl_cons]

/-! ## Reading back what was written -/

variable {α Value : Type} {make : α → Piece} {read : Piece → Option Value}

theorem filterMap_map_none (blind : ∀ x, read (make x) = none) (xs : List α) :
    (xs.map make).filterMap read = [] := by
  rw [List.filterMap_map, List.filterMap_eq_nil_iff]
  exact fun x _ => blind x

theorem filterMap_map_some {value : α → Value} (reads : ∀ x, read (make x) = some (value x)) (xs : List α) :
    (xs.map make).filterMap read = xs.map value := by
  rw [List.filterMap_map, show read ∘ make = some ∘ value from funext reads]
  exact congrFun List.filterMap_eq_map xs

theorem flatMap_selected {β : Type} (select : α → β) (p : β → Prop) [DecidablePred p] (pieces : β → List Piece)
    (xs : List α) : (xs.flatMap fun x => if p (select x) then pieces (select x) else []) =
      ((xs.map select).filter p).flatMap pieces := by
  induction xs with
  | nil => rfl
  | cons x xs ih => by_cases selected : p (select x) <;> simp [selected, ih]

def recorder : Sink Piece (List Piece) := fun piece written => (true, written ++ [piece])

theorem recorder_accepting : Accepting (@recorder Piece) := fun _ _ => rfl

theorem feed_recorder (pieces written : List Piece) : feed recorder pieces written = written ++ pieces := by
  induction pieces generalizing written with
  | nil => simp [feed]
  | cons piece rest ih =>
    rw [feed, List.foldl_cons]
    change feed recorder rest (written ++ [piece]) = _
    rw [ih, List.append_assoc, List.singleton_append]

end Writer
