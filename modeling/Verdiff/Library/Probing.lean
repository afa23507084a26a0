import Mathlib.Data.List.Basic
import Mathlib.Data.List.Forall2
import Mathlib.Data.Nat.ModEq
import Mathlib.Logic.Function.Iterate

/-! Linear probing in a table of slots.

An element is looked for from its home position on, one slot after the other and
around the end of the table, until it is met or a vacant slot is. `Placed` is the
invariant under which that search is complete: nothing between an element and its
home is vacant.
-/

set_option autoImplicit false

namespace Probing

variable {ε : Type}

/-- Probe from `pos` on; no answer means that `fuel` slots were all occupied misses. -/
def search (slots : List (Option ε)) (next : Nat → Nat) (hit : ε → Bool) :
    Nat → Nat → Option (Nat × Option ε)
  | 0, _ => none
  | fuel + 1, pos =>
    match slots[pos]? with
    | some (some e) => if hit e then some (pos, some e) else search slots next hit fuel (next pos)
    | _ => some (pos, none)

def elements (slots : List (Option ε)) : List ε := slots.filterMap id

def Occupied (slots : List (Option ε)) (pos : Nat) : Prop := ∃ e, slots[pos]? = some (some e)

/-- Every slot from an element's home to the element is occupied. -/
def Placed (slots : List (Option ε)) (home : ε → Nat) : Prop :=
  ∀ pos e, slots[pos]? = some (some e) → ∃ d < slots.length, pos = (home e + d) % slots.length ∧
    ∀ j < d, Occupied slots ((home e + j) % slots.length)

/-- A probe that goes from `start` on stops within `bound` steps: the slots it passes are
occupied and miss, and the one it stops at is vacant or a hit. -/
def EndsWithin (bound : Nat) (slots : List (Option ε)) (next : Nat → Nat) (hit : ε → Bool) (start : Nat) : Prop :=
  ∃ k < bound, (∀ j < k, ∃ e, slots[next^[j] start]? = some (some e) ∧ hit e = false) ∧
    ∃ content, slots[next^[k] start]? = some content ∧ ∀ e, content = some e → hit e = true

theorem mem_elements {slots : List (Option ε)} {e : ε} :
    e ∈ elements slots ↔ ∃ pos : Nat, slots[pos]? = some (some e) := by
  rw [elements, List.mem_filterMap]
  simp only [id_eq, exists_eq_right, List.mem_iff_getElem?]

theorem elements_set {slots : List (Option ε)} {pos : Nat} {content : Option ε}
    (slot : slots[pos]? = some content) (e : ε) : ∃ before after,
      elements slots = before ++ content.toList ++ after ∧
      elements (slots.set pos (some e)) = before ++ e :: after := by
  obtain ⟨bound, slot⟩ := List.getElem?_eq_some_iff.mp slot
  refine ⟨elements (slots.take pos), elements (slots.drop (pos + 1)), ?_, ?_⟩
  · conv_lhs => rw [← List.take_append_drop pos slots, ← List.getElem_cons_drop bound, slot]
    cases content with
    | none => simp [elements]
    | some old => simp [elements]
  · rw [List.set_eq_take_append_cons_drop, if_pos bound]
    simp [elements]

theorem elements_set_vacant {slots : List (Option ε)} {pos : Nat} (vacant : slots[pos]? = some none)
    (e : ε) : ∃ before after, elements slots = before ++ after ∧
      elements (slots.set pos (some e)) = before ++ e :: after := by
  simpa using elements_set vacant e

theorem elements_set_occupied {slots : List (Option ε)} {pos : Nat} {old : ε}
    (occupied : slots[pos]? = some (some old)) (e : ε) :
    ∃ before after, elements slots = before ++ old :: after ∧
      elements (slots.set pos (some e)) = before ++ e :: after := by
  simpa using elements_set occupied e

theorem exists_vacant {slots : List (Option ε)} (room : (elements slots).length < slots.length) :
    ∃ pos : Nat, slots[pos]? = some none := by
  -- A table with fewer elements than slots has a vacant slot.
  by_contra full
  have occupied : ∀ slot ∈ slots, (id slot : Option ε).isSome = true := by
    intro slot member
    cases slot with
    | some e => rfl
    | none =>
      obtain ⟨pos, at_⟩ := List.mem_iff_getElem?.mp member
      exact absurd ⟨pos, at_⟩ full
  rw [elements, List.length_filterMap_eq_countP, List.countP_eq_length.mpr occupied] at room
  exact lt_irrefl _ room

theorem exists_distance {size pos : Nat} (home : Nat) (bound : pos < size) :
    ∃ d < size, (home + d) % size = pos := by
  have positive : 0 < size := by omega
  have inside := Nat.mod_lt home positive
  refine ⟨(pos + (size - home % size)) % size, Nat.mod_lt _ positive, ?_⟩
  rw [Nat.add_mod_mod, ← Nat.mod_add_mod,
    show home % size + (pos + (size - home % size)) = pos + size by omega, Nat.add_mod_right,
    Nat.mod_eq_of_lt bound]

section
variable {slots : List (Option ε)} {next : Nat → Nat} {hit : ε → Bool} {home : ε → Nat}
  (wraps : ∀ pos < slots.length, next pos = (pos + 1) % slots.length)

include wraps

/-- What an answer of the search means, by distance from the start. -/
theorem search_spec (nonempty : 0 < slots.length) {fuel start d pos : Nat} {found : Option ε}
    (answer : search slots next hit fuel ((start + d) % slots.length) = some (pos, found)) :
    ∃ k, d ≤ k ∧ k < d + fuel ∧ pos = (start + k) % slots.length ∧ slots[pos]? = some found ∧
      (∀ e, found = some e → hit e = true) ∧
      ∀ j, d ≤ j → j < k → ∃ e, slots[(start + j) % slots.length]? = some (some e) ∧ hit e = false := by
  -- The start stays fixed; the distance grows by one with each slot that misses.
  induction fuel generalizing d with
  | zero => simp [search] at answer
  | succ fuel ih =>
    have inside : (start + d) % slots.length < slots.length := Nat.mod_lt _ nonempty
    simp only [search] at answer
    split at answer
    next e slot =>
      split at answer
      next matched =>
        simp only [Option.some.injEq, Prod.mk.injEq] at answer
        obtain ⟨rfl, rfl⟩ := answer
        refine ⟨d, le_refl d, by omega, rfl, slot, ?_, fun j _ _ => by omega⟩
        rintro _ ⟨⟩
        exact matched
      next missed =>
        rw [wraps _ inside, Nat.mod_add_mod, Nat.add_assoc] at answer
        obtain ⟨k, above, below, at_, content, hits, misses⟩ := ih answer
        refine ⟨k, by omega, by omega, at_, content, hits, fun j lower upper => ?_⟩
        rcases Nat.eq_or_lt_of_le lower with rfl | later
        · exact ⟨e, slot, by simpa using missed⟩
        · exact misses j later upper
    next vacant =>
      simp only [Option.some.injEq, Prod.mk.injEq] at answer
      obtain ⟨rfl, rfl⟩ := answer
      refine ⟨d, le_refl d, by omega, rfl, ?_, by simp, fun j _ _ => by omega⟩
      cases slot : slots[(start + d) % slots.length]? with
      | none => exact absurd (List.getElem?_eq_none_iff.mp slot) (by omega)
      | some content =>
        cases content with
        | none => rfl
        | some e => exact absurd slot (vacant e)

theorem search_total (hit : ε → Bool) {fuel start d k : Nat} (nonempty : 0 < slots.length) (above : d ≤ k)
    (below : k < d + fuel) (vacant : slots[(start + k) % slots.length]? = some none) :
    ∃ answer, search slots next hit fuel ((start + d) % slots.length) = some answer := by
  induction fuel generalizing d with
  | zero => omega
  | succ fuel ih =>
    have inside : (start + d) % slots.length < slots.length := Nat.mod_lt _ nonempty
    simp only [search]
    split
    next e slot =>
      split
      · exact ⟨_, rfl⟩
      · rw [wraps _ inside, Nat.mod_add_mod, Nat.add_assoc]
        refine ih ?_ (by omega)
        rcases Nat.eq_or_lt_of_le above with rfl | later
        · simp [slot] at vacant
        · exact later
    · exact ⟨_, rfl⟩

theorem search_answers (hit : ε → Bool) (room : (elements slots).length < slots.length) {start : Nat}
    (inside : start < slots.length) :
    ∃ answer, search slots next hit slots.length start = some answer := by
  obtain ⟨pos, vacant⟩ := exists_vacant room
  obtain ⟨k, below, at_⟩ := exists_distance start (List.getElem?_eq_some_iff.mp vacant).1
  have found := search_total (d := 0) wraps hit (by omega) (Nat.zero_le _) (by omega : k < 0 + slots.length)
    (show slots[(start + k) % slots.length]? = some none by rw [at_]; exact vacant)
  rwa [Nat.add_zero, Nat.mod_eq_of_lt inside] at found

theorem iterate_next {start : Nat} (inside : start < slots.length) (j : Nat) :
    next^[j] start = (start + j) % slots.length := by
  induction j with
  | zero => rw [Function.iterate_zero_apply, Nat.add_zero, Nat.mod_eq_of_lt inside]
  | succ j ih =>
    rw [Function.iterate_succ_apply', ih, wraps _ (Nat.mod_lt _ (by omega)), Nat.mod_add_mod, Nat.add_assoc]

/-- With a vacant slot in the table every probe ends within one round, whatever it looks for. -/
theorem endsWithin_round (hit : ε → Bool) (room : (elements slots).length < slots.length) {start : Nat}
    (inside : start < slots.length) : EndsWithin slots.length slots next hit start := by
  obtain ⟨⟨pos, content⟩, answer⟩ := search_answers wraps hit room inside
  rw [← Nat.mod_eq_of_lt inside, ← Nat.add_zero start] at answer
  obtain ⟨k, _, below, at_, slot, hits, misses⟩ := search_spec wraps (by omega) answer
  have step := iterate_next wraps inside
  refine ⟨k, by omega, fun j before => ?_, content, ?_, hits⟩
  · rw [step]
    exact misses j (Nat.zero_le j) before
  · rw [step, ← at_]
    exact slot

theorem search_complete (placed : Placed slots home) {e : ε} (member : e ∈ elements slots)
    (matched : hit e = true) (inside : home e < slots.length) {fuel pos : Nat} {found : Option ε}
    (answer : search slots next hit fuel (home e) = some (pos, found)) : ∃ other, found = some other := by
  cases found with
  | some other => exact ⟨other, rfl⟩
  | none =>
    obtain ⟨here, slot⟩ := mem_elements.mp member
    obtain ⟨d, _, rfl, between⟩ := placed here e slot
    rw [← Nat.mod_eq_of_lt inside, ← Nat.add_zero (home e)] at answer
    obtain ⟨k, _, _, rfl, vacant, _, misses⟩ := search_spec wraps (by omega) answer
    -- The search ends in front of the element, at it or behind it; only a hit is possible.
    rcases Nat.lt_trichotomy k d with before | rfl | after
    · obtain ⟨other, occupied⟩ := between k before
      simp [occupied] at vacant
    · simp [slot] at vacant
    · obtain ⟨other, at_, missed⟩ := misses d (Nat.zero_le _) after
      rw [slot] at at_
      simp only [Option.some.injEq] at at_
      subst at_
      simp [matched] at missed

theorem Placed.insert (placed : Placed slots home) {e : ε} (inside : home e < slots.length) {pos : Nat}
    (answer : search slots next hit slots.length (home e) = some (pos, none)) :
    Placed (slots.set pos (some e)) home := by
  -- Filling the vacant slot that ended an element's search keeps the invariant.
  rw [← Nat.mod_eq_of_lt inside, ← Nat.add_zero (home e)] at answer
  obtain ⟨k, _, below, at_, vacant, _, misses⟩ := search_spec wraps (by omega) answer
  have bound := (List.getElem?_eq_some_iff.mp vacant).1
  have grows : ∀ p, Occupied slots p → Occupied (slots.set pos (some e)) p := by
    rintro p ⟨other, slot⟩
    have apart : pos ≠ p := by rintro rfl; simp [vacant] at slot
    exact ⟨other, by rw [List.getElem?_set_ne apart]; exact slot⟩
  intro p other slot
  rw [List.length_set]
  by_cases same : pos = p
  · subst same
    rw [List.getElem?_set_self bound] at slot
    simp only [Option.some.injEq] at slot
    subst slot
    refine ⟨k, by omega, at_, fun j before => grows _ ?_⟩
    obtain ⟨other, occupied, _⟩ := misses j (Nat.zero_le _) before
    exact ⟨other, occupied⟩
  · rw [List.getElem?_set_ne same] at slot
    obtain ⟨d, short, position, between⟩ := placed p other slot
    exact ⟨d, short, position, fun j before => grows _ (between j before)⟩

end

theorem Placed.overwrite {slots : List (Option ε)} {home : ε → Nat} (placed : Placed slots home)
    {pos : Nat} {old e : ε} (occupied : slots[pos]? = some (some old)) (same : home e = home old) :
    Placed (slots.set pos (some e)) home := by
  have bound := (List.getElem?_eq_some_iff.mp occupied).1
  have keeps : ∀ p, Occupied slots p → Occupied (slots.set pos (some e)) p := by
    rintro p ⟨other, slot⟩
    by_cases here : pos = p
    · subst here
      exact ⟨e, List.getElem?_set_self bound⟩
    · exact ⟨other, by rw [List.getElem?_set_ne here]; exact slot⟩
  intro p other slot
  rw [List.length_set]
  by_cases here : pos = p
  · subst here
    rw [List.getElem?_set_self bound] at slot
    simp only [Option.some.injEq] at slot
    subst slot
    obtain ⟨d, short, position, between⟩ := placed pos old occupied
    exact ⟨d, short, same ▸ position, fun j before => keeps _ (same ▸ between j before)⟩
  · rw [List.getElem?_set_ne here] at slot
    obtain ⟨d, short, position, between⟩ := placed p other slot
    exact ⟨d, short, position, fun j before => keeps _ (between j before)⟩

theorem placed_replicate (size : Nat) (home : ε → Nat) : Placed (List.replicate size none) home := by
  intro pos e slot
  simp [List.getElem?_replicate] at slot

theorem elements_replicate (size : Nat) : elements (List.replicate size (none : Option ε)) = [] := by
  simp [elements]

/-! ## Tables that stand for tables -/

variable {ρ : Type}

/-- The search in a table whose elements have to be looked into, which may go wrong. To read
behind the end of the table is an error as well. -/
def searchThrough (refs : List (Option ρ)) (next : Nat → Nat) (hit : ρ → Option Bool) :
    Nat → Nat → Option (Nat × Option ρ)
  | 0, _ => none
  | fuel + 1, pos =>
    match refs[pos]? with
    | none => none
    | some none => some (pos, none)
    | some (some ref) =>
      match hit ref with
      | none => none
      | some true => some (pos, some ref)
      | some false => searchThrough refs next hit fuel (next pos)

/-- The same slots are vacant, and the elements in the others stand for each other. -/
abbrev Stands (R : ρ → ε → Prop) : List (Option ρ) → List (Option ε) → Prop := List.Forall₂ (Option.Rel R)

section
variable {R : ρ → ε → Prop} {refs : List (Option ρ)} {slots : List (Option ε)} {next : Nat → Nat}

theorem stands_vacant (R : ρ → ε → Prop) (size : Nat) : Stands R (List.replicate size none) (List.replicate size none) := by
  induction size with
  | zero => exact .nil
  | succ size ih => exact .cons .none ih

theorem Stands.imp {S : ρ → ε → Prop} (weaker : ∀ ref e, R ref e → S ref e) (stands : Stands R refs slots) :
    Stands S refs slots := by
  refine List.Forall₂.imp (fun first second related => ?_) stands
  cases related with
  | none => exact .none
  | some related => exact .some (weaker _ _ related)

theorem Stands.set (stands : Stands R refs slots) {ref : ρ} {e : ε} (related : R ref e) (pos : Nat) :
    Stands R (refs.set pos (some ref)) (slots.set pos (some e)) := by
  induction stands generalizing pos with
  | nil => exact .nil
  | cons first rest ih =>
    cases pos with
    | zero => exact .cons (.some related) rest
    | succ pos => exact .cons first (ih pos)

theorem Stands.at (stands : Stands R refs slots) {pos : Nat} {content : Option ε} (found : slots[pos]? = some content) :
    ∃ ref, refs[pos]? = some ref ∧ Option.Rel R ref content := by
  induction stands generalizing pos with
  | nil => cases found
  | cons first rest ih =>
    cases pos with
    | zero =>
      cases found
      exact ⟨_, rfl, first⟩
    | succ pos => exact ih found

theorem Stands.search (stands : Stands R refs slots) (inside : ∀ pos < slots.length, next pos < slots.length)
    {hit : ε → Bool} {through : ρ → Option Bool} (hits : ∀ ref e, R ref e → through ref = some (hit e))
    {fuel start pos : Nat} {found : Option ε} (within : start < slots.length)
    (answer : Probing.search slots next hit fuel start = some (pos, found)) :
    ∃ ref, searchThrough refs next through fuel start = some (pos, ref) ∧ Option.Rel R ref found ∧ pos < refs.length := by
  induction fuel generalizing start with
  | zero => cases answer
  | succ fuel ih =>
    obtain ⟨ref, read, related⟩ := stands.at (List.getElem?_eq_getElem within)
    simp only [Probing.search, List.getElem?_eq_getElem within] at answer
    simp only [searchThrough, read]
    generalize slots[start] = content at answer related
    cases related with
    | none =>
      cases answer
      exact ⟨none, rfl, .none, stands.length_eq ▸ within⟩
    | @some ref e related =>
      simp only [hits ref e related]
      cases met : hit e with
      | true =>
        simp only [met, ↓reduceIte] at answer
        cases answer
        exact ⟨some ref, rfl, .some related, stands.length_eq ▸ within⟩
      | false =>
        simp only [met, Bool.false_eq_true, ↓reduceIte] at answer
        exact ih (inside start within) answer

end

end Probing
