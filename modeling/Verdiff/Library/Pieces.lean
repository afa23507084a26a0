import Mathlib.Data.List.Basic

/-! Cutting a list behind every separator. The last piece may lack one. -/

set_option autoImplicit false

namespace Pieces

variable {α : Type} [DecidableEq α] (separator : α)

def cutAfter : List α → List (List α)
  | [] => []
  | x :: xs =>
    if x = separator then [x] :: cutAfter xs
    else match cutAfter xs with
      | [] => [[x]]
      | piece :: pieces => (x :: piece) :: pieces

def firstPiece : List α → Option (List α × List α)
  | [] => none
  | x :: xs =>
    if x = separator then some ([x], xs)
    else match firstPiece xs with
      | none => some ([x], [])
      | some (piece, rest) => some (x :: piece, rest)

variable {separator}

@[simp] theorem flatten_cutAfter (xs : List α) : (cutAfter separator xs).flatten = xs := by
  induction xs with
  | nil => rfl
  | cons x xs ih =>
    simp only [cutAfter]
    split
    · simp [ih]
    · split
      next none => rw [none] at ih; simp [← ih]
      next piece pieces cut => rw [cut] at ih; simp [← ih]

theorem cutAfter_injective {xs ys : List α} (same : cutAfter separator xs = cutAfter separator ys) :
    xs = ys := by
  -- No content is lost, so equal cuts come from equal lists.
  have flat := congrArg List.flatten same
  rwa [flatten_cutAfter, flatten_cutAfter] at flat

theorem firstPiece_eq (separator : α) (xs : List α) :
    match firstPiece separator xs with
    | none => xs = [] ∧ cutAfter separator xs = []
    | some (piece, rest) => cutAfter separator xs = piece :: cutAfter separator rest ∧
        rest.length < xs.length := by
  induction xs with
  | nil => exact ⟨rfl, rfl⟩
  | cons x xs ih =>
    by_cases last : x = separator
    · simp [firstPiece, cutAfter, last]
    · cases found : firstPiece separator xs with
      | none =>
        rw [found] at ih
        simp only [firstPiece, cutAfter, last, ↓reduceIte, found, ih.2]
        exact ⟨trivial, by simp⟩
      | some answer =>
        obtain ⟨piece, rest⟩ := answer
        rw [found] at ih
        simp only [firstPiece, cutAfter, last, ↓reduceIte, found, ih.1]
        exact ⟨trivial, by have := ih.2; simp only [List.length_cons]; omega⟩

theorem firstPiece_none {xs : List α} (found : firstPiece separator xs = none) : xs = [] := by
  have spec := firstPiece_eq separator xs
  rw [found] at spec
  exact spec.1

theorem firstPiece_some {xs piece rest : List α} (found : firstPiece separator xs = some (piece, rest)) :
    cutAfter separator xs = piece :: cutAfter separator rest ∧ rest.length < xs.length := by
  have spec := firstPiece_eq separator xs
  rwa [found] at spec

end Pieces
