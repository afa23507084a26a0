import Verdiff.Compare.Mirror
import Verdiff.Main.Determinism

/-! Comparing the second directory with the first gives the mirror of comparing the first
with the second.
-/

set_option autoImplicit false

namespace Verdiff
open Transition

def PairContents.swap (contents : PairContents) : PairContents := ⟨contents.b, contents.a⟩

def ResultSet.recordOf (set : ResultSet) (path : CString) : Option ChangeRecord :=
  set.records.find? fun record => record.path = path

theorem ResultSet.recordOf_eq_some {set : ResultSet} (distinct : (set.records.map ChangeRecord.path).Nodup)
    {path : CString} {record : ChangeRecord} :
    set.recordOf path = some record ↔ record ∈ set.records ∧ record.path = path := by
  unfold ResultSet.recordOf
  constructor
  · intro found
    exact ⟨List.mem_of_find?_eq_some found, by simpa using List.find?_some found⟩
  · rintro ⟨member, rfl⟩
    cases found : set.records.find? fun other => other.path = record.path with
    | none => simpa using List.find?_eq_none.mp found record member
    | some other =>
      have same : other.path = record.path := by simpa using List.find?_some found
      rw [List.inj_on_of_nodup_map distinct (List.mem_of_find?_eq_some found) member same]

variable {context other : PlanContext} {s : PlanState} {trace : List PlanEvent}

theorem Outcome.record?_eq_some {outcome : Outcome} {record : ChangeRecord} :
    outcome.record? = some record ↔ outcome = .pushed record := by
  cases outcome <;> simp [Outcome.record?]

theorem Finished.recordOf_eq (finished : Finished context s trace) (indexed : context.Indexed)
    {outcome : CString → Option Outcome}
    (settles : ∀ path entry, (path, entry) ∈ context.settled trace ↔ outcome path = some entry) (path : CString) :
    s.results.recordOf path = (outcome path).bind Outcome.record? := by
  refine Option.ext fun record => ?_
  rw [ResultSet.recordOf_eq_some (finished.nodup_records indexed), finished.mem_records indexed, Option.bind_eq_some_iff]
  constructor
  · rintro ⟨entered, rfl⟩
    exact ⟨_, (settles _ _).mp entered, rfl⟩
  · rintro ⟨entry, found, pushed⟩
    obtain rfl := Outcome.record?_eq_some.mp pushed
    have entered := (settles _ _).mpr found
    obtain rfl : record.path = path := (finished.settles indexed _ entered).record_path
    exact ⟨entered, rfl⟩

/-- Exchanging the indexes and the contents mirrors every outcome. -/
theorem PlanContext.outcomeWith_mirror (contents : PairContents)
    (lines : context.config.includeLines = other.config.includeLines)
    (unchanged : context.config.includeUnchanged = other.config.includeUnchanged)
    (verify : context.config.verifyEqualHashes = other.config.verifyEqualHashes)
    (hash : context.xxh.oneShot = other.xxh.oneShot) (opened : Bool) (path : CString)
    (sideA : other.findA path = context.findB path) (sideB : other.findB path = context.findA path) :
    other.outcomeWith contents.swap opened path = (context.outcomeWith contents opened path).map Outcome.mirror := by
  have taken : takenEqual other.xxh other.config (contents.b path) (contents.a path) =
      takenEqual context.xxh context.config (contents.a path) (contents.b path) := by
    rw [takenEqual_comm]
    simp only [takenEqual, verify, hash]
  unfold PlanContext.outcomeWith
  rw [sideA, sideB]
  cases context.findA path with
  | none => cases context.findB path <;> rfl
  | some infoA =>
    cases context.findB path with
    | none => rfl
    | some infoB =>
      simp only [PairContents.swap, Option.map_some, taken]
      rw [verdictWith_congr lines.symm unchanged.symm, verdictWith_mirror]

/-- The mirrored record is the record of the mirrored outcome, unless the text tests open one of them only
where line differences are due. -/
theorem PlanContext.record_mirror_iff {contents : PairContents} {opened opened' : Bool} {path : CString} :
    ((context.outcomeWith contents opened' path).map Outcome.mirror).bind Outcome.record? =
        ((context.outcomeWith contents opened path).bind Outcome.record?).map ChangeRecord.mirror ↔
      (context.LinesDue contents path → opened = opened') := by
  constructor
  · intro same due
    obtain ⟨record, found, _, _, detail⟩ := due.outcomeWith opened
    obtain ⟨record', found', _, _, detail'⟩ := due.outcomeWith opened'
    rw [found, found'] at same
    have mirrored : record'.detailKind.mirror = record.detailKind.mirror :=
      congrArg ChangeRecord.detailKind (Option.some.inj same)
    rw [detail, detail'] at mirrored
    cases opened <;> cases opened' <;> first | rfl | cases mirrored
  · intro agree
    rw [PlanContext.outcomeWith_undue agree]
    cases context.outcomeWith contents opened' path with
    | none => rfl
    | some outcome => exact outcome.mirror_record?

theorem ChangeType.mirror_injective : Function.Injective ChangeType.mirror :=
  Function.LeftInverse.injective ChangeType.mirror_mirror

/-- Two comparisons whose text tests open as told, of two directories and of the same two exchanged. -/
theorem Comparison.Run.mirror {first second : Comparison} {A B : Directory}
    (lines : first.config.includeLines = second.config.includeLines)
    (unchanged : first.config.includeUnchanged = second.config.includeUnchanged)
    (verify : first.config.verifyEqualHashes = second.config.verifyEqualHashes)
    (hash : first.xxh.oneShot = second.xxh.oneShot)
    (positive : 1 ≤ first.config.hashBufferSize) (positive' : 1 ≤ second.config.hashBufferSize)
    (firstA : A.ShownBy first.scanA) (firstB : B.ShownBy first.scanB)
    (secondA : B.ShownBy second.scanA) (secondB : A.ShownBy second.scanB) {opened opened' : CString → Bool}
    {indexA indexB indexA' indexB' : FileIndex} {results results' : ResultSet}
    (run : first.Run (FullTests first.config.hashBufferSize opened) indexA indexB results)
    (run' : second.Run (FullTests second.config.hashBufferSize opened') indexA' indexB' results') :
    (results.records.map ChangeRecord.path).Nodup ∧ (results'.records.map ChangeRecord.path).Nodup ∧
    (∀ type, results.counter type = results'.counter type.mirror) ∧
    ((∀ path, results'.recordOf path = (results.recordOf path).map ChangeRecord.mirror) ↔
      ∀ path, first.LinesDue A B path → opened path = opened' path) := by
  obtain ⟨ofA, ofB, s, trace, finished, rfl, settles⟩ := run.settled firstA firstB positive
  obtain ⟨ofB', ofA', t, later, finished', rfl, settles'⟩ := run'.settled secondA secondB positive'
  have indexed : (first.plan indexA indexB).Indexed := ⟨ofA.wf, ofB.wf⟩
  have indexed' : (second.plan indexA' indexB').Indexed := ⟨ofB'.wf, ofA'.wf⟩
  have mirrored : ∀ (opened : Bool) path, (second.plan indexA' indexB').outcomeWith ⟨B.content, A.content⟩ opened path =
      ((first.plan indexA indexB).outcomeWith ⟨A.content, B.content⟩ opened path).map Outcome.mirror :=
    fun opened path => PlanContext.outcomeWith_mirror ⟨A.content, B.content⟩ lines unchanged verify hash opened path
      (ofB'.find_eq ofB path) (ofA'.find_eq ofA path)
  refine ⟨finished.nodup_records indexed, finished'.nodup_records indexed', ?_, ?_⟩
  · refine finished.counter_view indexed finished' indexed' settles settles' ChangeType.mirror_injective fun path => ?_
    -- The types are those of any way in which the text tests open.
    have types := congrArg (Option.map ChangeType.mirror)
      ((first.plan indexA indexB).outcomeWith_type ⟨A.content, B.content⟩ (opened path) (opened' path) path)
    rw [Option.map_map, Option.map_map] at types
    rw [mirrored, Option.map_map]
    simp only [Function.comp_def, Outcome.mirror_type] at types ⊢
    exact types
  · refine forall_congr' fun path => ?_
    rw [finished.recordOf_eq indexed settles, finished'.recordOf_eq indexed' settles', mirrored,
      PlanContext.record_mirror_iff]
    exact imp_congr_left (first.linesDue_iff ofA ofB)

/-- The comparison with the directories exchanged has the mirrored record for every path exactly
when the text tests of the files that are due for line differences could be opened in both
comparisons or in neither. The counters of the added and the removed files are exchanged in any
case. -/
theorem comparison_mirror {first second : Comparison} {A B : Directory}
    (lines : first.config.includeLines = second.config.includeLines)
    (unchanged : first.config.includeUnchanged = second.config.includeUnchanged)
    (verify : first.config.verifyEqualHashes = second.config.verifyEqualHashes)
    (hash : first.xxh.oneShot = second.xxh.oneShot)
    (positive : 1 ≤ first.config.hashBufferSize) (positive' : 1 ≤ second.config.hashBufferSize)
    (firstA : A.ShownBy first.scanA) (firstB : B.ShownBy first.scanB)
    (secondA : B.ShownBy second.scanA) (secondB : A.ShownBy second.scanB)
    {indexA indexB indexA' indexB' : FileIndex} {results results' : ResultSet}
    (run : first.Run (FullReads first.config.hashBufferSize) indexA indexB results)
    (run' : second.Run (FullReads second.config.hashBufferSize) indexA' indexB' results') :
    let tested (comparison : Comparison) (opened : CString → Bool) := comparison.Run
      (FullTests comparison.config.hashBufferSize opened)
    (results.records.map ChangeRecord.path).Nodup ∧ (results'.records.map ChangeRecord.path).Nodup ∧
    results'.addedCount = results.removedCount ∧ results'.removedCount = results.addedCount ∧
    results'.modifiedCount = results.modifiedCount ∧ results'.unchangedCount = results.unchangedCount ∧
    (∃ opened, tested first opened indexA indexB results) ∧
    (∃ opened', tested second opened' indexA' indexB' results') ∧
    ∀ opened opened', tested first opened indexA indexB results → tested second opened' indexA' indexB' results' →
      ((∀ path, results'.recordOf path = (results.recordOf path).map ChangeRecord.mirror) ↔
        ∀ path, first.LinesDue A B path → opened path = opened' path) := by
  intro tested
  have mirror := fun {opened opened'} (run : tested first opened indexA indexB results)
      (run' : tested second opened' indexA' indexB' results') =>
    Comparison.Run.mirror lines unchanged verify hash positive positive' firstA firstB secondA secondB run run'
  obtain ⟨opened, told⟩ := run.exists_opened firstA firstB
  obtain ⟨opened', told'⟩ := run'.exists_opened secondA secondB
  obtain ⟨distinct, distinct', counters, _⟩ := mirror told told'
  exact ⟨distinct, distinct', (counters .removed).symm, (counters .added).symm, (counters .modified).symm,
    (counters .unchanged).symm, ⟨opened, told⟩, ⟨opened', told'⟩,
    fun opened opened' told told' => (mirror told told').2.2.2⟩

/-! ## Two directories with one file each -/

/-- Both directories hold the file `x`, with equal or with different contents; `swapped` exchanges
them, and `listed` keeps the records of equal files. -/
def samplePair (equal swapped listed : Bool) : MainContext where
  options := ⟨if swapped then sampleRootB else sampleRootA, if swapped then sampleRootA else sampleRootB, 1,
    Nat.one_pos, true, listed⟩
  xxh := .ofFunction fun bytes => bytes.length.toUInt64
  files :=
    { lstat := fun path =>
        match path.bytes with
        | [97, 47, 120] => .ok ⟨.regular, 2, 1⟩
        | [98, 47, 120] => .ok ⟨.regular, 2, 1⟩
        | _ => .error .ENOENT
      opendir := fun path =>
        match path.bytes with
        | [97] => .ok ⟨[sampleX, dotDot, dot], none⟩
        | [98] => .ok ⟨[sampleX, dotDot, dot], none⟩
        | _ => .error .ENOENT
      openFile := fun path => .ok (if path.bytes = [98, 47, 120] ∧ equal = false then [50, 10] else [49, 10]) }

def samplePairPlan (equal swapped listed : Bool) : PlanContext :=
  (samplePair equal swapped listed).plan sampleIndexB sampleIndexB

def sampleSide (equal second : Bool) : Directory :=
  ⟨sampleTreeB, fun _ => if second = true ∧ equal = false then [50, 10] else [49, 10]⟩

theorem sampleSide_shown {equal second : Bool} {scan : ScanContext}
    (rooted : scan.root = if second then sampleRootB else sampleRootA)
    (stored : scan.files = (samplePair equal false false).files) : (sampleSide equal second).ShownBy scan := by
  have named : ∀ name ∈ [sampleX], name = sampleX := fun name member => List.mem_singleton.mp member
  refine ⟨⟨⟨_, _, rfl⟩, ?_, ?_, ?_⟩, ?_⟩
  · intro name member
    rw [named name member]
    exact ⟨.ofByte (by decide) (by decide), trivial⟩
  · intro stream opened
    rw [rooted, stored] at opened
    cases second <;> obtain rfl := Except.ok.inj opened <;> exact ⟨by decide, fun _ => by decide⟩
  · intro name member
    rw [named name member, rooted, stored]
    cases second <;> exact ⟨fun stat shown => (Except.ok.inj shown).symm, trivial⟩
  · intro components size mtime leads content opened
    cases leads with
    | inside member later =>
      cases later
      rw [named _ member, rooted, stored] at opened
      cases second <;> cases equal <;> exact (Except.ok.inj opened).symm

theorem samplePairPlan_slotA (equal swapped listed : Bool) {k : Nat} (notX : k ≠ 897) :
    (samplePairPlan equal swapped listed).slotA k = .skip := by
  rw [PlanContext.slotA, show (samplePairPlan equal swapped listed).indexA = sampleIndexB from rfl, sampleIndexB,
    getD_set_of_ne notX, getD_vacant]
  rfl

theorem samplePairPlan_slotB (equal swapped listed : Bool) (k : Nat) :
    (samplePairPlan equal swapped listed).slotB k = .skip := by
  exact @slotB_sampleIndexB (samplePairPlan equal swapped listed) rfl (sampleEvaluates false).foundB k

/-! The plan of the pair, with the vacant slots passed over. -/

def samplePairReady (equal swapped listed : Bool) : PlanState :=
  after (planStep (samplePairPlan equal swapped listed)) (mainSteps 3)
    (planStart (samplePairPlan equal swapped listed) resultSetInit ⟨.plan, 1, 1, 0⟩)

def samplePairEnqueued (equal swapped listed : Bool) : PlanState :=
  after (planStep (samplePairPlan equal swapped listed)) (mainSteps 2)
    { samplePairReady equal swapped listed with main := .scanningA 897 }

def samplePairScanned (equal swapped listed : Bool) : PlanState :=
  after (planStep (samplePairPlan equal swapped listed)) (mainSteps 1)
    { samplePairEnqueued equal swapped listed with main := .scanningA 1024 }

def samplePairEnd (equal swapped listed refused : Bool) : PlanState :=
  after (planStep (samplePairPlan equal swapped listed))
    (mainSteps 2 ++ (List.replicate 3 0).map (readAll refused) ++ mainSteps 3)
    { samplePairScanned equal swapped listed with main := .scanningB 1024 }

structure PairEvaluates (equal swapped listed : Bool) : Prop where
  scanA : scanned (samplePair equal swapped listed).scanA 7 progressInit =
    some (.returned 0, sampleIndexB, ⟨.scanA, 1, 0, 0⟩)
  scanB : scanned (samplePair equal swapped listed).scanB 7 ⟨.scanA, 1, 0, 0⟩ =
    some (.returned 0, sampleIndexB, ⟨.scanB, 1, 1, 0⟩)
  ready : (samplePairReady equal swapped listed).main = .scanningA 0
  enqueued : (samplePairEnqueued equal swapped listed).main = .scanningA 898
  scanned : (samplePairScanned equal swapped listed).main = .scanningB 0
  returned : ∀ refused, (samplePairEnd equal swapped listed refused).main = .returned 0

theorem pairEvaluates (equal swapped listed : Bool) : PairEvaluates equal swapped listed where
  -- A scan reads neither the contents nor the configuration.
  scanA := by
    change scanned (samplePair false swapped false).scanA 7 progressInit = _
    cases swapped <;> decide +kernel
  scanB := by
    change scanned (samplePair false swapped false).scanB 7 ⟨.scanA, 1, 0, 0⟩ = _
    cases swapped <;> decide +kernel
  ready := by cases equal <;> cases swapped <;> cases listed <;> decide +kernel
  enqueued := by cases equal <;> cases swapped <;> cases listed <;> decide +kernel
  scanned := by cases equal <;> cases swapped <;> cases listed <;> decide +kernel
  returned refused := by cases equal <;> cases swapped <;> cases listed <;> cases refused <;> decide +kernel

theorem samplePairPlan_run (equal swapped listed refused : Bool) : ∃ trace,
    PlanRun (samplePairPlan equal swapped listed) (FullTests (2 ^ 20) fun _ => !refused) resultSetInit ⟨.plan, 1, 1, 0⟩
      (samplePairEnd equal swapped listed refused) trace := by
  have mains : ∀ t, FullTests (2 ^ 20) (fun _ => !refused) t (.main ⟨0, 0, ⟨true, true⟩⟩) := fun _ => ⟨trivial, trivial⟩
  have own := mainSteps_allowed mains
  have evaluates := pairEvaluates equal swapped listed
  have begun : PlanRun (samplePairPlan equal swapped listed) (FullTests (2 ^ 20) fun _ => !refused) resultSetInit
    ⟨.plan, 1, 1, 0⟩ (planStart _ _ _) [] := .start
  obtain ⟨_, ready⟩ := Run.after (own 3) begun
  obtain ⟨_, enqueued⟩ := Run.after (own 2) (@PlanRun.passesA _ _ _ _ _ _ _ mains 0 897
    evaluates.ready (show 0 + 897 ≤ 1024 by decide)
    (fun k _ below => samplePairPlan_slotA equal swapped listed (by omega)) ready)
  obtain ⟨_, scanned⟩ := Run.after (own 1) (@PlanRun.passesA _ _ _ _ _ _ _ mains 898 126
    evaluates.enqueued (show 898 + 126 ≤ 1024 by decide)
    (fun k above _ => samplePairPlan_slotA equal swapped listed (by omega)) enqueued)
  refine Run.after ?_ (@PlanRun.passesB _ _ _ _ _ _ _ mains 0 1024
    evaluates.scanned (show 0 + 1024 ≤ 1024 by decide) (fun k _ _ => samplePairPlan_slotB equal swapped listed k) scanned)
  intro action member t
  simp only [List.mem_append] at member
  rcases member with (first | second) | third
  · exact own _ action first t
  · obtain ⟨i, _, rfl⟩ := List.mem_map.mp second
    exact ⟨sampleEnv_full refused, fun _ _ => sampleEnv_opened refused⟩
  · exact own _ action third t

theorem samplePair_tested (equal swapped listed refused : Bool) : MainRun (samplePair equal swapped listed)
    (FullTests (2 ^ 20) fun _ => !refused) (.compared sampleIndexB sampleIndexB
      (samplePairEnd equal swapped listed refused).results (samplePairEnd equal swapped listed refused).progress) := by
  have evaluates := pairEvaluates equal swapped listed
  obtain ⟨trace, plan⟩ := samplePairPlan_run equal swapped listed refused
  exact .ofScans evaluates.scanA evaluates.scanB plan (evaluates.returned refused)

theorem samplePair_run (equal swapped listed refused : Bool) : MainRun (samplePair equal swapped listed)
    (FullReads (2 ^ 20)) (.compared sampleIndexB sampleIndexB (samplePairEnd equal swapped listed refused).results
      (samplePairEnd equal swapped listed refused).progress) :=
  (samplePair_tested equal swapped listed refused).compared_weaken fun _ _ full => full.1

/-- The file is modified both ways, and its line differences are mirrored. -/
theorem comparison_mirror_sample : ∃ results results' : ResultSet,
    ((results.recordOf sampleX).map fun record => record.lineDiffs.items) = some [⟨1, [49], [50]⟩] ∧
    results'.recordOf sampleX = (results.recordOf sampleX).map ChangeRecord.mirror := by
  obtain ⟨_, _, _, _, _, _, _, _, mirrored⟩ := @comparison_mirror (samplePair false false true).comparison
    (samplePair false true true).comparison (sampleSide false false) (sampleSide false true) rfl rfl rfl rfl
    Nat.one_le_two_pow Nat.one_le_two_pow (sampleSide_shown rfl rfl) (sampleSide_shown rfl rfl)
    (sampleSide_shown rfl rfl) (sampleSide_shown rfl rfl) _ _ _ _ _ _ (samplePair_run false false true false).comparison
    (samplePair_run false true true false).comparison
  have same := (mirrored _ _ (samplePair_tested false false true false).comparison
    (samplePair_tested false true true false).comparison).mpr fun _ _ => rfl
  exact ⟨_, _, by decide +kernel, same sampleX⟩

/-- Without a descriptor for the first text test of the second comparison there is nothing to mirror the line
differences of the first one. -/
theorem comparison_mirror_refused : ∃ results results' : ResultSet,
    (sampleSide false false).ShownBy (samplePair false false true).comparison.scanA ∧
    (sampleSide false true).ShownBy (samplePair false false true).comparison.scanB ∧
    (sampleSide false true).ShownBy (samplePair false true true).comparison.scanA ∧
    (sampleSide false false).ShownBy (samplePair false true true).comparison.scanB ∧
    (samplePair false false true).comparison.Run (FullReads (2 ^ 20)) sampleIndexB sampleIndexB results ∧
    (samplePair false true true).comparison.Run (FullReads (2 ^ 20)) sampleIndexB sampleIndexB results' ∧
    results'.recordOf sampleX ≠ (results.recordOf sampleX).map ChangeRecord.mirror :=
  ⟨_, _, sampleSide_shown rfl rfl, sampleSide_shown rfl rfl, sampleSide_shown rfl rfl, sampleSide_shown rfl rfl,
    (samplePair_run false false true false).comparison, (samplePair_run false true true true).comparison,
    by decide +kernel⟩

end Verdiff
