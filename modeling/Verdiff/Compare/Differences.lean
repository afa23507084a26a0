import Verdiff.Compare.Lines
import Mathlib.Data.List.DropRight

/-! What a line comparison appends, number by number, and how far it gets when an allocation
fails.
-/

set_option autoImplicit false

namespace Verdiff
open Pieces

def bareLine (line : Bytes) : Bytes := line.rdropWhile fun byte => byte = newline ∨ byte = carriageReturn

/-- An entry for each number under which the two lists have different lines, or only one has
a line. -/
def expectedDifferences (as bs : List Bytes) : List LineDiff :=
  (List.range (max as.length bs.length)).filterMap fun i =>
    if as[i]? = bs[i]? then none
    else some ⟨i + 1, bareLine (as[i]?.getD []), bareLine (bs[i]?.getD [])⟩

theorem take_trimLineLength (line : Bytes) {len : Nat} (within : len ≤ line.length) :
    line.take (trimLineLength line len) = bareLine (line.take len) := by
  induction len with
  | zero => simp [trimLineLength, bareLine]
  | succ len ih =>
    have inside : len < line.length := within
    rw [List.take_succ_eq_append_getElem inside, trimLineLength, List.getElem?_eq_getElem inside]
    simp only [Option.some.injEq]
    by_cases ending : (line)[len] = newline ∨ (line)[len] = carriageReturn
    · rw [if_pos ending, ih (by omega), bareLine, bareLine, List.rdropWhile_concat_pos _ _ _ (by simpa using ending)]
    · rw [if_neg ending, bareLine, List.rdropWhile_concat_neg _ _ _ (by simpa using ending),
        List.take_succ_eq_append_getElem inside]

theorem trimmed_eq (line : Bytes) : trimmed line = bareLine line := by
  rw [trimmed, take_trimLineLength line le_rfl, List.take_length]

theorem filterMap_range_head {β : Type} (f : Nat → Option β) (n : Nat) :
    (List.range (n + 1)).filterMap f = (f 0).toList ++ (List.range n).filterMap fun i => f (i + 1) := by
  rw [List.range_succ_eq_map, List.filterMap_cons, List.filterMap_map]
  cases head : f 0 with
  | none => rfl
  | some y => rfl

theorem differingLines_eq (n : Nat) (as bs : List Bytes) : differingLines n as bs =
    (List.range (max as.length bs.length)).filterMap fun i =>
      if as[i]? = bs[i]? then none
      else some ⟨n + i, bareLine (as[i]?.getD []), bareLine (bs[i]?.getD [])⟩ := by
  have shift : ∀ i, n + 1 + i = n + (i + 1) := fun i => by omega
  fun_induction differingLines n as bs with
  | case1 n => simp
  | case2 n a as ih =>
    simp only [List.length_cons, List.length_nil, Nat.max_zero, filterMap_range_head]
    simp only [List.length_nil, Nat.max_zero] at ih
    rw [ih fun i => by omega]
    simp [trimmed_eq, bareLine, shift]
  | case3 n b bs ih =>
    simp only [List.length_cons, List.length_nil, Nat.zero_max, filterMap_range_head]
    simp only [List.length_nil, Nat.zero_max] at ih
    rw [ih fun i => by omega]
    simp [trimmed_eq, bareLine, shift]
  | case4 n as b bs ih =>
    rw [List.length_cons, List.length_cons, Nat.succ_max_succ, filterMap_range_head, ih fun i => by omega]
    simp [shift]
  | case5 n a as b bs differ ih =>
    rw [List.length_cons, List.length_cons, Nat.succ_max_succ, filterMap_range_head, ih fun i => by omega]
    simp [shift, differ, trimmed_eq]

theorem expectedDifferences_eq (as bs : List Bytes) : expectedDifferences as bs = differingLines 1 as bs := by
  rw [differingLines_eq, expectedDifferences]
  simp only [Nat.add_comm 1]

theorem expectedDifferences_ascending (as bs : List Bytes) :
    (expectedDifferences as bs).Pairwise fun first second => first.lineNumber < second.lineNumber := by
  rw [expectedDifferences, List.pairwise_filterMap]
  refine List.pairwise_lt_range.imp fun {i j} less first found second later => ?_
  split at found <;> cases found
  split at later <;> cases later
  exact Nat.add_lt_add_right less 1

/-! ## Pushing them -/

/-- One of the allocations a push makes fails; the items only grow when they are full. -/
def LineDiffVector.Refuses (lines : LineDiffVector) (allocs : LinePushAllocs) : Prop :=
  (lines.items.length = lines.capacity ∧ allocs.growOk = false) ∨ allocs.leftOk = false ∨ allocs.rightOk = false

section
variable {lines : LineDiffVector} {allocs : LinePushAllocs}

theorem lineDiffVectorPush_refused {lineNumber leftLen rightLen : Nat} {left right : Bytes}
    (refuses : lines.Refuses allocs) :
    (lineDiffVectorPush lines lineNumber left leftLen right rightLen allocs).1 = Fault.ENOMEM.code ∧
    (lineDiffVectorPush lines lineNumber left leftLen right rightLen allocs).2.items = lines.items := by
  unfold lineDiffVectorPush LineDiffVector.Refuses at *
  simp only
  split
  · exact ⟨rfl, rfl⟩
  next grown =>
    split
    · refine ⟨rfl, ?_⟩
      split <;> rfl
    next leftOk =>
      split
      · refine ⟨rfl, ?_⟩
        split <;> rfl
      next rightOk => simp_all

theorem lineDiffVectorPush_accepted {lineNumber leftLen rightLen : Nat} {left right : Bytes}
    (accepts : ¬ lines.Refuses allocs) :
    (lineDiffVectorPush lines lineNumber left leftLen right rightLen allocs).1 = 0 := by
  unfold lineDiffVectorPush LineDiffVector.Refuses at *
  simp only
  split
  · simp_all
  · split
    · simp_all
    · split
      · simp_all
      · rfl

end

def FailsBehind (env : LinesEnv) (lines : LineDiffVector) (expected before : List LineDiff) : Prop :=
  ∃ diff after grown, expected = before ++ diff :: after ∧ pushDifferences env before lines = (0, grown) ∧
    grown.Refuses (env.push diff.lineNumber)

theorem FailsBehind.refused {env : LinesEnv} {lines : LineDiffVector} {expected before : List LineDiff}
    (fails : FailsBehind env lines expected before) : ∃ n, env.push n ≠ ⟨true, true, true⟩ := by
  obtain ⟨diff, after, grown, _, _, refuses⟩ := fails
  refine ⟨diff.lineNumber, fun granted => ?_⟩
  rw [granted] at refuses
  simp [LineDiffVector.Refuses] at refuses

theorem FailsBehind.next {env : LinesEnv} {lines grown : LineDiffVector} {diff : LineDiff}
    {rest before : List LineDiff} (fails : FailsBehind env grown rest before)
    (pushed : lineDiffVectorPush lines diff.lineNumber diff.left diff.left.length diff.right
      diff.right.length (env.push diff.lineNumber) = (0, grown)) :
    FailsBehind env lines (diff :: rest) (diff :: before) := by
  obtain ⟨failing, after, last, rfl, grew, refuses⟩ := fails
  refine ⟨failing, after, last, rfl, ?_, refuses⟩
  rw [pushDifferences_cons pushed]
  exact grew

theorem pushDifferences_cases (env : LinesEnv) (expected : List LineDiff) (lines : LineDiffVector) :
    ((pushDifferences env expected lines).1 = 0 ∧
      (pushDifferences env expected lines).2.items = lines.items ++ expected) ∨
    ∃ before, FailsBehind env lines expected before := by
  -- Either every push succeeds or the entries in front of one that fails are there.
  induction expected generalizing lines with
  | nil => exact .inl ⟨rfl, by simp [pushDifferences]⟩
  | cons diff rest ih =>
    by_cases refuses : lines.Refuses (env.push diff.lineNumber)
    · exact .inr ⟨[], diff, rest, lines, rfl, rfl, refuses⟩
    · have ok := @lineDiffVectorPush_accepted _ _ diff.lineNumber diff.left.length diff.right.length
        diff.left diff.right refuses
      have added := lineDiffVectorPush_ok lines diff.lineNumber diff.left diff.right (env.push diff.lineNumber) ok
      cases pushed : lineDiffVectorPush lines diff.lineNumber diff.left diff.left.length diff.right
        diff.right.length (env.push diff.lineNumber) with
      | mk rc grown =>
        rw [pushed] at ok added
        obtain rfl : rc = 0 := ok
        simp only [List.take_length] at added
        rcases ih grown with ⟨done, items⟩ | ⟨before, fails⟩
        · refine .inl ⟨?_, ?_⟩ <;> rw [pushDifferences_cons pushed, if_neg (not_not.mpr rfl)]
          · exact done
          · rw [items, added, List.append_assoc, List.singleton_append]
        · exact .inr ⟨diff :: before, fails.next pushed⟩

theorem pushDifferences_append {env : LinesEnv} {before : List LineDiff} {lines grown : LineDiffVector}
    (pushed : pushDifferences env before lines = (0, grown)) (rest : List LineDiff) :
    pushDifferences env (before ++ rest) lines = pushDifferences env rest grown := by
  induction before generalizing lines with
  | nil => cases pushed; rfl
  | cons diff before ih =>
    rw [pushDifferences] at pushed
    rw [List.cons_append, pushDifferences]
    simp only at pushed ⊢
    split at pushed
    next failed => exact absurd (congrArg Prod.fst pushed) failed
    next ok => rw [if_neg ok, ih pushed]

theorem pushDifferences_fails {env : LinesEnv} {lines : LineDiffVector} {expected before : List LineDiff}
    (fails : FailsBehind env lines expected before) :
    (pushDifferences env expected lines).1 = Fault.ENOMEM.code ∧
      (pushDifferences env expected lines).2.items = lines.items ++ before := by
  obtain ⟨diff, after, grown, rfl, pushed, refuses⟩ := fails
  obtain ⟨code, kept⟩ := @lineDiffVectorPush_refused _ _ diff.lineNumber diff.left.length diff.right.length
    diff.left diff.right refuses
  rw [pushDifferences_append pushed, pushDifferences]
  simp only [code, ne_eq, Fault.ENOMEM.nonzero, not_false_eq_true, ↓reduceIte, true_and]
  have items := pushDifferences_items (congrArg Prod.fst pushed)
  rw [pushed] at items
  rw [kept, items]

/-- The comparison of two readable files appends one entry for each number whose lines differ,
in order, and with a failing allocation those in front of it. -/
theorem detect_line_differences_complete {env : LinesEnv} (opened : env.streamA = none ∧ env.streamB = none)
    (readable : ∀ n, env.lineA n = none ∧ env.lineB n = none) (contentA contentB : Bytes) (lines : LineDiffVector) :
    let expected := expectedDifferences (cutAfter newline contentA) (cutAfter newline contentB)
    let result := detectLineDifferences (.ok contentA) (.ok contentB) env lines
    expected.Pairwise (fun first second => first.lineNumber < second.lineNumber) ∧
    (expected = [] ↔ contentA = contentB) ∧
    ((∀ before, ¬ FailsBehind env lines expected before) →
      result.1 = 0 ∧ result.2.items = lines.items ++ expected) ∧
    ∀ before, FailsBehind env lines expected before →
      result.1 = Fault.ENOMEM.code ∧ result.2.items = lines.items ++ before := by
  intro expected result
  have pushes : result = pushDifferences env expected lines := by
    simp only [result, expected, detectLineDifferences, opened.1, opened.2]
    rw [detectLinesLoop_eq (.inl readable), expectedDifferences_eq]
  refine ⟨expectedDifferences_ascending _ _, ?_, ?_, ?_⟩
  · simp only [expected, expectedDifferences_eq]
    constructor
    · exact fun nothing => cutAfter_injective (differingLines_nil nothing)
    · rintro rfl
      rw [← expectedDifferences_eq]
      simp [expectedDifferences]
  · intro succeed
    rw [pushes]
    exact (pushDifferences_cases env expected lines).resolve_right fun ⟨before, fails⟩ => succeed before fails
  · intro before fails
    rw [pushes]
    exact pushDifferences_fails fails

/-- The second lines differ and the second file does not end its own; then the same where the
copy of the left text fails. -/
theorem detect_line_differences_complete_sample :
    (detectLineDifferences (.ok [120, 10, 121, 13, 10]) (.ok [120, 10, 122])
      ⟨none, none, fun _ => none, fun _ => none, fun _ => ⟨true, true, true⟩⟩ .zero).2.items =
        [⟨2, [121], [122]⟩] ∧
    (detectLineDifferences (.ok [120, 10, 121, 13, 10]) (.ok [120, 10, 122])
      ⟨none, none, fun _ => none, fun _ => none, fun _ => ⟨true, false, true⟩⟩ .zero).1 = Fault.ENOMEM.code := by
  constructor
  · have complete := (@detect_line_differences_complete
      ⟨none, none, fun _ => none, fun _ => none, fun _ => ⟨true, true, true⟩⟩ ⟨rfl, rfl⟩
      (fun _ => ⟨rfl, rfl⟩) [120, 10, 121, 13, 10] [120, 10, 122] .zero).2.2.1
    refine (complete fun before fails => ?_).2.trans (by decide +kernel)
    obtain ⟨n, refused⟩ := fails.refused
    exact refused rfl
  · have fails := (@detect_line_differences_complete
      ⟨none, none, fun _ => none, fun _ => none, fun _ => ⟨true, false, true⟩⟩ ⟨rfl, rfl⟩
      (fun _ => ⟨rfl, rfl⟩) [120, 10, 121, 13, 10] [120, 10, 122] .zero).2.2.2
    have listed : expectedDifferences (cutAfter newline [120, 10, 121, 13, 10]) (cutAfter newline [120, 10, 122]) =
        [⟨2, [121], [122]⟩] := by decide +kernel
    exact (fails [] ⟨⟨2, [121], [122]⟩, [], .zero, listed, rfl, .inr (.inl rfl)⟩).1

end Verdiff
