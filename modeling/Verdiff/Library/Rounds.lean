import Mathlib.Data.Nat.ModEq

/-! Items absorbed in rounds of equal length, after each of which the state is closed.

The state after so many items is one function of their number. A routine that absorbs items in
stretches, in any division, is correct when each stretch leads from one value of that function
to another.
-/

set_option autoImplicit false

namespace Rounds

variable {σ : Type} (absorb : Nat → Nat → σ → σ) (close : σ → σ) (perRound : Nat)

/-- An item is absorbed by its number and its place in the round. -/
def step (state : σ) (item : Nat) : σ :=
  if item % perRound + 1 = perRound then close (absorb item (item % perRound) state)
  else absorb item (item % perRound) state

def after (start : σ) : Nat → σ
  | 0 => start
  | count + 1 => step absorb close perRound (after start count) count

def stretch (item place : Nat) (state : σ) : Nat → σ
  | 0 => state
  | count + 1 => absorb (item + count) (place + count) (stretch item place state count)

variable {perRound}

theorem after_congr {absorb' : Nat → Nat → σ → σ} {close' : σ → σ} (start : σ) {count : Nat}
    (same : ∀ item < count, ∀ state, absorb item (item % perRound) state = absorb' item (item % perRound) state)
    (sameClose : ∀ state, close state = close' state) :
    after absorb close perRound start count = after absorb' close' perRound start count := by
  -- Only the items absorbed matter, each at its place.
  induction count with
  | zero => rfl
  | succ count ih =>
    have earlier := ih fun item below => same item (by omega)
    simp only [after, step, earlier, same count (by omega), sameClose]

theorem place_of_within {item count : Nat} (within : item % perRound + count < perRound) :
    (item + count) % perRound = item % perRound + count := by
  rw [Nat.add_mod, Nat.mod_eq_of_lt (show count < perRound by omega), Nat.mod_eq_of_lt within]

theorem place_of_fills {item count : Nat} (fills : item % perRound + count = perRound) :
    (item + count) % perRound = 0 := by
  rw [← Nat.mod_add_mod, fills, Nat.mod_self]

theorem after_within (start : σ) {item count : Nat} (within : item % perRound + count < perRound) :
    after absorb close perRound start (item + count) =
      stretch absorb item (item % perRound) (after absorb close perRound start item) count := by
  induction count with
  | zero => rfl
  | succ count ih =>
    have place := @place_of_within perRound item count (by omega)
    have earlier := ih (by omega)
    change step absorb close perRound (after absorb close perRound start (item + count)) (item + count) = _
    rw [step, place, if_neg (by omega), earlier, stretch]

theorem after_round (start : σ) {item count : Nat} (positive : 0 < count)
    (fills : item % perRound + count = perRound) :
    after absorb close perRound start (item + count) =
      close (stretch absorb item (item % perRound) (after absorb close perRound start item) count) := by
  obtain ⟨count, rfl⟩ := Nat.exists_eq_succ_of_ne_zero positive.ne'
  have place := @place_of_within perRound item count (by omega)
  have earlier := @after_within σ absorb close perRound start item count (by omega)
  change step absorb close perRound (after absorb close perRound start (item + count)) (item + count) = _
  rw [step, place, if_pos (by omega), earlier, stretch]

end Rounds
