import Mathlib.Data.List.Pairwise
import Mathlib.Data.List.Sort
import Mathlib.Order.Basic

/-! Lists kept in strictly ascending order of a key.

`place` puts an element where its key belongs and takes the place of an element
with the same key. It is what insertion into an ordered search tree does to the
in-order sequence of the tree.
-/

set_option autoImplicit false

namespace Keyed

variable {α κ : Type} [LinearOrder κ]

abbrev Ascending (key : α → κ) (xs : List α) : Prop := xs.Pairwise fun x y => key x < key y

def place (key : α → κ) (x : α) : List α → List α
  | [] => [x]
  | y :: ys =>
    if key x < key y then x :: y :: ys
    else if key y < key x then y :: place key x ys
    else x :: ys

variable {key : α → κ} {x y : α} {xs ys : List α}

theorem place_before (less : key x < key y) :
    place key x (xs ++ y :: ys) = place key x xs ++ y :: ys := by
  induction xs with
  | nil => simp [place, less]
  | cons z zs ih =>
    simp only [List.cons_append, place]
    split
    · rfl
    · split
      · rw [ih, List.cons_append]
      · rfl

theorem place_after (below : ∀ z ∈ xs, key z < key x) (less : key y < key x) :
    place key x (xs ++ y :: ys) = xs ++ y :: place key x ys := by
  induction xs with
  | nil => simp [place, less, less.not_gt]
  | cons z zs ih =>
    have head := below z (by simp)
    simp only [List.cons_append, place, head, head.not_gt, ↓reduceIte]
    rw [ih fun w member => below w (List.mem_cons_of_mem _ member)]

theorem place_equal (below : ∀ z ∈ xs, key z < key x) (same : key x = key y) :
    place key x (xs ++ y :: ys) = xs ++ x :: ys := by
  induction xs with
  | nil => simp [place, same]
  | cons z zs ih =>
    have head := below z (by simp)
    simp only [List.cons_append, place, head, head.not_gt, ↓reduceIte]
    rw [ih fun w member => below w (List.mem_cons_of_mem _ member)]

theorem mem_place (sorted : Ascending key xs) :
    y ∈ place key x xs ↔ y = x ∨ (y ∈ xs ∧ key y ≠ key x) := by
  induction xs with
  | nil => simp [place]
  | cons z zs ih =>
    obtain ⟨first, rest⟩ := List.pairwise_cons.mp sorted
    simp only [place]
    split
    next less =>
      have apart : ∀ w ∈ z :: zs, key w ≠ key x := by
        intro w member
        rcases List.mem_cons.mp member with rfl | later
        · exact less.ne'
        · exact (less.trans (first w later)).ne'
      constructor
      · rintro (_ | ⟨_, member⟩)
        · exact .inl rfl
        · exact .inr ⟨member, apart y member⟩
      · rintro (rfl | ⟨member, _⟩)
        · exact List.mem_cons_self
        · exact List.mem_cons_of_mem _ member
    next notLess =>
      split
      next greater =>
        rw [List.mem_cons, ih rest, List.mem_cons]
        constructor
        · rintro (rfl | rfl | ⟨member, apart⟩)
          · exact .inr ⟨.inl rfl, greater.ne⟩
          · exact .inl rfl
          · exact .inr ⟨.inr member, apart⟩
        · rintro (rfl | ⟨rfl | member, apart⟩)
          · exact .inr (.inl rfl)
          · exact .inl rfl
          · exact .inr (.inr ⟨member, apart⟩)
      next notGreater =>
        have same : key z = key x := le_antisymm (not_lt.mp notLess) (not_lt.mp notGreater)
        rw [List.mem_cons, List.mem_cons]
        constructor
        · rintro (rfl | member)
          · exact .inl rfl
          · exact .inr ⟨.inr member, same ▸ (first y member).ne'⟩
        · rintro (rfl | ⟨rfl | member, apart⟩)
          · exact .inl rfl
          · exact absurd same apart
          · exact .inr member

theorem ascending_place (sorted : Ascending key xs) : Ascending key (place key x xs) := by
  induction xs with
  | nil => simp [place]
  | cons z zs ih =>
    obtain ⟨first, rest⟩ := List.pairwise_cons.mp sorted
    simp only [place]
    split
    next less =>
      refine List.pairwise_cons.mpr ⟨?_, sorted⟩
      intro w member
      rcases List.mem_cons.mp member with rfl | later
      · exact less
      · exact less.trans (first w later)
    next notLess =>
      split
      next greater =>
        refine List.pairwise_cons.mpr ⟨?_, ih rest⟩
        intro w member
        rcases (mem_place rest).mp member with rfl | ⟨later, _⟩
        · exact greater
        · exact first w later
      next notGreater =>
        have same : key z = key x := le_antisymm (not_lt.mp notLess) (not_lt.mp notGreater)
        exact List.pairwise_cons.mpr ⟨fun w member => same ▸ first w member, rest⟩

theorem Ascending.eq_of_mem_iff (left : Ascending key xs) (right : Ascending key ys)
    (same : ∀ x, x ∈ xs ↔ x ∈ ys) : xs = ys := by
  -- Without repeated keys the two lists are permutations, and a sorted permutation is unique.
  have distinct : ∀ {zs : List α}, Ascending key zs → zs.Nodup := fun sorted =>
    sorted.imp fun less equal => less.ne (congrArg key equal)
  have permuted : xs.Perm ys := (List.perm_ext_iff_of_nodup (distinct left) (distinct right)).mpr same
  exact permuted.eq_of_pairwise (fun a b _ _ forth back => absurd back forth.not_gt) left right

theorem Ascending.congr {other : α → κ} (agree : ∀ x ∈ xs, key x = other x) :
    Ascending key xs ↔ Ascending other xs :=
  List.Pairwise.iff_of_mem fun first second => by rw [agree _ first, agree _ second]

theorem filterMap_unique {α κ : Type} {key : α → Option κ} {xs : List α} (once : (xs.filterMap key).Nodup) {x y : α}
    (first : x ∈ xs) (second : y ∈ xs) {k : κ} (hasX : key x = some k) (hasY : key y = some k) : x = y := by
  let alike (a b : α) : Prop := ∀ k, key a = some k → key b = some k → a = b
  have symmetric : Std.Symm alike := ⟨fun _ _ same k hasA hasB => (same k hasB hasA).symm⟩
  have pairwise : xs.Pairwise alike :=
    (List.pairwise_filterMap.mp once).imp fun apart k hasA hasB => absurd rfl (apart k hasA k hasB)
  exact pairwise.forall_of_forall (fun _ _ _ _ _ => rfl) first second k hasX hasY

end Keyed
