import Verdiff.Compare.Soundness
import Verdiff.Main.Determinism

/-! What the reports say of two directories is what is true of them.

The truth about a path is said in terms of the directories alone: which of them has a file there,
and what the files hold. Indexes, threads, hashes and reads do not come into it.
-/

set_option autoImplicit false

namespace Verdiff

def Directory.Sized (listed : Directory) : Prop :=
  ∀ components size mtime, listed.tree.Leads components (.file size mtime) →
    size = (listed.content (relativeOf components)).length

open Classical in
/-- What has become of the first directory's file, or how the second one came by its own. -/
noncomputable def trueStatus (A B : Directory) (path : CString) : Option ChangeType :=
  if A.tree.HasFile path then
    if B.tree.HasFile path then some (if A.content path = B.content path then .unchanged else .modified)
    else some .removed
  else if B.tree.HasFile path then some .added
  else none

/-- The same files, and in each the same bytes. -/
def Directory.Same (A B : Directory) : Prop :=
  ∀ path, (A.tree.HasFile path ↔ B.tree.HasFile path) ∧ (A.tree.HasFile path → A.content path = B.content path)

theorem same_iff (A B : Directory) :
    A.Same B ↔ ∀ path status, trueStatus A B path = some status → status = .unchanged := by
  constructor
  · intro same path status is
    obtain ⟨files, contents⟩ := same path
    unfold trueStatus at is
    by_cases inA : A.tree.HasFile path
    · rw [if_pos inA, if_pos (files.mp inA), if_pos (contents inA)] at is
      exact (Option.some.inj is).symm
    · rw [if_neg inA, if_neg (mt files.mpr inA)] at is
      cases is
  · intro unchanged path
    have only := unchanged path
    unfold trueStatus at only
    by_cases inA : A.tree.HasFile path <;> by_cases inB : B.tree.HasFile path
    · refine ⟨iff_of_true inA inB, fun _ => ?_⟩
      by_contra apart
      rw [if_pos inA, if_pos inB, if_neg apart] at only
      cases only _ rfl
    · rw [if_pos inA, if_neg inB] at only
      cases only _ rfl
    · rw [if_neg inA, if_pos inB] at only
      cases only _ rfl
    · exact ⟨iff_of_false inA inB, fun inside => absurd inside inA⟩

/-! ## What a run says of one path -/

section
variable {context : MainContext} {A B : Directory} {indexA indexB : FileIndex} {s : PlanState} {trace : List PlanEvent}

theorem mem_domA_iff (ofA : IndexOf A.tree indexA) {path : CString} :
    path ∈ (context.plan indexA indexB).domA ↔ A.tree.HasFile path := by
  rw [PlanContext.domA, List.mem_toFinset, ← ofA.mem_keys]
  rfl

theorem mem_domB_iff (ofB : IndexOf B.tree indexB) {path : CString} :
    path ∈ (context.plan indexA indexB).domB ↔ B.tree.HasFile path := by
  rw [PlanContext.domB, List.mem_toFinset, ← ofB.mem_keys]
  rfl

/-- However the reads come, a settled path has its true status, or it is an unchanged one that
was taken for modified. -/
theorem PlanContext.Settles.told (shownA : A.ShownBy context.scanA) (shownB : B.ShownBy context.scanB)
    (ofA : IndexOf A.tree indexA) (ofB : IndexOf B.tree indexB) {path : CString} {outcome : Outcome}
    (settles : (context.plan indexA indexB).Settles trace path outcome) :
    trueStatus A B path = some outcome.type ∨ outcome.type = .modified ∧ trueStatus A B path = some .unchanged := by
  have indexed : (context.plan indexA indexB).Indexed := ⟨ofA.wf, ofB.wf⟩
  have place := settles.outcome indexed
  rw [mem_domA_iff ofA, mem_domB_iff ofB] at place
  unfold trueStatus
  rcases place with ⟨type, inA, notB⟩ | ⟨type, notA, inB⟩ | ⟨type, inA, inB⟩
  · exact .inl (by rw [if_pos inA, if_neg notB, type])
  · exact .inl (by rw [if_neg notA, if_pos inB, type])
  · rw [if_pos inA, if_pos inB]
    by_cases same : A.content path = B.content path
    · rw [if_pos same]
      rcases type with unchanged | modified
      · exact .inl (by rw [unchanged])
      · exact .inr ⟨modified, rfl⟩
    · rw [if_neg same]
      rcases type with unchanged | modified
      · -- only a comparison says so, and it has found equal contents in both files
        cases settles with
        | presence present => cases present <;> cases unchanged
        | verdict _ foundA foundB _ verdict =>
          obtain ⟨content, openedA, openedB⟩ := compareVerdict_unchanged Nat.one_le_two_pow rfl verdict unchanged
          have holdsA := shownA.opened ofA (by rw [show fileIndexFind vdHashPath indexA path = _ from foundA]; rfl) openedA
          have holdsB := shownB.opened ofB (by rw [show fileIndexFind vdHashPath indexB path = _ from foundB]; rfl) openedB
          exact absurd (holdsA.symm.trans holdsB) same
      · exact .inl (by rw [modified])

theorem Finished.settled_of_true (finished : Finished (context.plan indexA indexB) s trace)
    (ofA : IndexOf A.tree indexA) (ofB : IndexOf B.tree indexB) {path : CString} {status : ChangeType}
    (is : trueStatus A B path = some status) : ∃ outcome, (path, outcome) ∈ (context.plan indexA indexB).settled trace := by
  -- Nothing is passed over: what is in a directory is settled.
  refine finished.settled_of_mem ⟨ofA.wf, ofB.wf⟩ ?_
  rw [Finset.mem_union, mem_domA_iff ofA, mem_domB_iff ofB]
  by_contra neither
  rw [not_or] at neither
  rw [trueStatus, if_neg neither.1, if_neg neither.2] at is
  cases is

theorem IndexOf.found_iff {tree : Node} {index : FileIndex} (indexOf : IndexOf tree index) {path : CString} :
    tree.HasFile path ↔ (fileIndexFind vdHashPath index path).isSome := by
  rw [← indexOf.mem_keys, indexOf.wf.mem_keys]

theorem Directory.ShownBy.sized {listed : Directory} {scan : ScanContext} (shown : listed.ShownBy scan)
    (sized : listed.Sized) {index : FileIndex} (indexOf : IndexOf listed.tree index) {path : CString} {info : FileInfo}
    (found : fileIndexFind vdHashPath index path = some info) : info.size = (listed.content path).length := by
  obtain ⟨_, components, leads, bytes⟩ := indexOf.find_iff.mp found
  obtain rfl : path = relativeOf components :=
    CString.ext (bytes.trans (relativeOf_bytes (shown.file_named leads).2).symm)
  exact sized components _ _ leads

theorem outcomeOf_true (shownA : A.ShownBy context.scanA) (shownB : B.ShownBy context.scanB)
    (sizedA : A.Sized) (sizedB : B.Sized) (ofA : IndexOf A.tree indexA) (ofB : IndexOf B.tree indexB)
    {opened : Bool} {path : CString} {outcome : Outcome}
    (decided : (context.plan indexA indexB).outcomeOf ⟨A.content, B.content⟩ opened path = some outcome) :
    trueStatus A B path = some outcome.type := by
  -- The outcome that the entries and the contents decide is the true one.
  have inA : A.tree.HasFile path ↔ ((context.plan indexA indexB).findA path).isSome := ofA.found_iff
  have inB : B.tree.HasFile path ↔ ((context.plan indexA indexB).findB path).isSome := ofB.found_iff
  unfold PlanContext.outcomeOf at decided
  unfold trueStatus
  cases foundA : (context.plan indexA indexB).findA path <;> cases foundB : (context.plan indexA indexB).findB path
  all_goals simp only [foundA, foundB, Option.isSome_none, Option.isSome_some, Bool.false_eq_true, iff_false,
    iff_true] at decided inA inB
  · cases decided
  · cases decided
    rw [if_neg inA, if_pos inB]
    rfl
  · cases decided
    rw [if_pos inA, if_neg inB]
    rfl
  next infoA infoB =>
    cases decided
    have sizeA := shownA.sized sizedA ofA foundA
    have sizeB := shownB.sized sizedB ofB foundB
    rw [if_pos inA, if_pos inB, verdictOf]
    by_cases sizes : infoA.size = infoB.size
    · by_cases same : A.content path = B.content path
      · cases (context.plan indexA indexB).config.includeUnchanged <;> simp [sizes, same, Outcome.type]
      · simp [sizes, same, Outcome.type]
    · -- of two sizes there are no equal contents
      have apart : A.content path ≠ B.content path := fun same => sizes (by rw [sizeA, sizeB, same])
      simp [sizes, apart, Outcome.type]

end

/-! ## What a run says of the directories -/

section
variable {context : MainContext} {A B : Directory} {indexA indexB : FileIndex} {results : ResultSet}
  {progress : ProgressState}

open Classical in
theorem Finished.counter_true {s : PlanState} {trace : List PlanEvent}
    (finished : Finished (context.plan indexA indexB) s trace) (ofA : IndexOf A.tree indexA) (ofB : IndexOf B.tree indexB)
    (told : ∀ path outcome, (context.plan indexA indexB).Settles trace path outcome →
      trueStatus A B path = some outcome.type) (type : ChangeType) :
    s.results.counter type = {path | trueStatus A B path = some type}.ncard := by
  let plan := context.plan indexA indexB
  have indexed : plan.Indexed := ⟨ofA.wf, ofB.wf⟩
  have within : ∀ path, trueStatus A B path = some type → path ∈ plan.domA ∪ plan.domB := by
    intro path is
    obtain ⟨outcome, entered⟩ := finished.settled_of_true ofA ofB is
    rw [PlanContext.mem_union indexed, ← (finished.paths indexed).mem_iff]
    exact List.mem_map_of_mem (f := Prod.fst) entered
  have counted := finished.countP_type indexed (fun other => decide (other = type))
    ((plan.domA ∪ plan.domB).filter fun path => trueStatus A B path = some type) (by
      intro path outcome settles
      have is := told path outcome settles
      rw [Finset.mem_filter, decide_eq_true_iff, is, Option.some.injEq]
      exact ⟨fun same => ⟨within path (by rw [is, same]), same⟩, fun both => both.2⟩)
    (Finset.filter_subset _ _)
  rw [finished.counter, counted, ← Set.ncard_coe_finset]
  congr 1
  ext path
  simp only [Finset.coe_filter, Set.mem_ofPred_eq]
  exact ⟨fun both => both.2, fun is => ⟨within path is, is⟩⟩

theorem MainRun.told (shownA : A.ShownBy context.scanA) (shownB : B.ShownBy context.scanB)
    (sizedA : A.Sized) (sizedB : B.Sized)
    (run : MainRun context (FullReads context.config.hashBufferSize) (.compared indexA indexB results progress)) :
    IndexOf A.tree indexA ∧ IndexOf B.tree indexB ∧ ∃ s trace,
      Finished (context.plan indexA indexB) s trace ∧ s.results = results ∧
      ∀ path outcome, (context.plan indexA indexB).Settles trace path outcome →
        trueStatus A B path = some outcome.type := by
  obtain ⟨ofA, ofB, _, s, trace, plan, returned, same⟩ := run.sound shownA.toScannable shownB.toScannable
  have holds : (context.plan indexA indexB).Holds ⟨A.content, B.content⟩ :=
    ⟨fun path content => shownA.opened ofA, fun path content => shownB.opened ofB⟩
  have finished := PlanRun.finished (plan.weaken fun _ _ => FullReads.locksSucceed) returned
  obtain ⟨opened, openedAs⟩ := finished.exists_openedAs ⟨ofA.wf, ofB.wf⟩
  refine ⟨ofA, ofB, s, trace, finished, same, ?_⟩
  intro path outcome settles
  have decided := settles.outcomeWith holds Nat.one_le_two_pow (PlanRun.fullReads plan) openedAs
  rw [PlanContext.outcomeWith_verify rfl] at decided
  exact outcomeOf_true shownA shownB sizedA sizedB ofA ofB decided

/-- When the reads give all they can, each counter is the number of the paths of its status,
and the changed records are the changed paths with what has become of them. -/
theorem main_reports_truth (shownA : A.ShownBy context.scanA) (shownB : B.ShownBy context.scanB)
    (sizedA : A.Sized) (sizedB : B.Sized)
    (run : MainRun context (FullReads context.config.hashBufferSize) (.compared indexA indexB results progress)) :
    (∀ type, results.counter type = {path | trueStatus A B path = some type}.ncard) ∧
    (∀ path type, type ≠ .unchanged →
      ((∃ record ∈ changedRecords results, record.path = path ∧ record.type = type) ↔
        trueStatus A B path = some type)) ∧
    (changedRecords results = [] ↔ A.Same B) := by
  obtain ⟨ofA, ofB, s, trace, finished, rfl, told⟩ := run.told shownA shownB sizedA sizedB
  have indexed : (context.plan indexA indexB).Indexed := ⟨ofA.wf, ofB.wf⟩
  have records : ∀ path type, type ≠ .unchanged →
      ((∃ record ∈ changedRecords s.results, record.path = path ∧ record.type = type) ↔
        trueStatus A B path = some type) := by
    intro path type changed
    rw [finished.changedRecords_iff indexed changed]
    constructor
    · rintro ⟨outcome, entered, rfl⟩
      exact told _ _ (finished.settles indexed _ entered)
    · intro is
      obtain ⟨outcome, entered⟩ := finished.settled_of_true ofA ofB is
      have other := told _ _ (finished.settles indexed _ entered)
      exact ⟨outcome, entered, Option.some.inj (other.symm.trans is)⟩
  refine ⟨finished.counter_true ofA ofB told, records, ?_⟩
  rw [same_iff]
  constructor
  · intro none path status is
    by_contra changed
    obtain ⟨record, member, _⟩ := (records path status changed).mpr is
    rw [none] at member
    cases member
  · intro unchanged
    rw [List.eq_nil_iff_forall_not_mem]
    intro record member
    have changed := ((finished.mem_changedRecords indexed).mp member).2
    exact changed (unchanged _ _ ((records record.path record.type changed).mp ⟨record, member, rfl, rfl⟩))

/-- However the reads come, every change is reported as what it is, and the only thing that is
reported without having happened is a modification of a file that both directories have. -/
theorem main_overlooks_nothing (shownA : A.ShownBy context.scanA) (shownB : B.ShownBy context.scanB)
    (run : MainRun context LocksSucceed (.compared indexA indexB results progress)) :
    (∀ path status, trueStatus A B path = some status → status ≠ .unchanged →
      ∃ record ∈ changedRecords results, record.path = path ∧ record.type = status) ∧
    (∀ record ∈ changedRecords results, trueStatus A B record.path = some record.type ∨
      record.type = .modified ∧ trueStatus A B record.path = some .unchanged) ∧
    (changedRecords results = [] → A.Same B) := by
  obtain ⟨ofA, ofB, _, s, trace, plan, returned, rfl⟩ := run.sound shownA.toScannable shownB.toScannable
  have finished : Finished (context.plan indexA indexB) s trace := PlanRun.finished plan returned
  have indexed : (context.plan indexA indexB).Indexed := ⟨ofA.wf, ofB.wf⟩
  have reported : ∀ path status, trueStatus A B path = some status → status ≠ .unchanged →
      ∃ record ∈ changedRecords s.results, record.path = path ∧ record.type = status := by
    intro path status is changed
    rw [finished.changedRecords_iff indexed changed]
    obtain ⟨outcome, entered⟩ := finished.settled_of_true ofA ofB is
    rcases (finished.settles indexed _ entered).told shownA shownB ofA ofB with truth | ⟨_, unchanged⟩
    · exact ⟨outcome, entered, Option.some.inj (truth.symm.trans is)⟩
    · exact absurd (Option.some.inj (is.symm.trans unchanged)) changed
  refine ⟨reported, ?_, ?_⟩
  · intro record member
    have recorded := ((finished.mem_changedRecords indexed).mp member).1
    exact (finished.settles indexed _ ((finished.mem_records indexed).mp recorded)).told shownA shownB ofA ofB
  · rw [same_iff]
    intro none path status is
    by_contra changed
    obtain ⟨record, member, _⟩ := reported path status is changed
    rw [none] at member
    cases member

end

/-! ## The sample once more -/

theorem sampleDirectoryA_sized : sampleDirectoryA.Sized := by
  intro components size mtime leads
  cases leads with
  | inside member later =>
    cases later
    rfl

theorem sampleDirectoryB_sized : sampleDirectoryB.Sized := by
  intro components size mtime leads
  cases leads with
  | inside member later =>
    cases later
    rfl

theorem sampleDirectoryA_y : sampleDirectoryA.tree.HasFile sampleY :=
  ⟨[sampleY], 2, 1, .inside (by simp) .here, (List.append_nil _).symm⟩

theorem sampleDirectoryB_y : ¬sampleDirectoryB.tree.HasFile sampleY := by
  rintro ⟨components, size, mtime, leads, bytes⟩
  cases leads with
  | inside member later =>
    cases later
    rw [List.mem_singleton] at member
    subst member
    cases bytes

theorem sample_removed : trueStatus sampleDirectoryA sampleDirectoryB sampleY = some .removed := by
  rw [trueStatus, if_pos sampleDirectoryA_y, if_neg sampleDirectoryB_y]

/-- `y` has been removed, and so say the records. -/
theorem main_reports_truth_sample : ∃ results : ResultSet,
    results.counter .removed = {path | trueStatus sampleDirectoryA sampleDirectoryB path = some .removed}.ncard ∧
    (∃ record ∈ changedRecords results, record.path = sampleY ∧ record.type = .removed) ∧
    (changedRecords results = [] ↔ sampleDirectoryA.Same sampleDirectoryB) := by
  have run := @sampleMain_run (FullReads (2 ^ 20)) (fun _ => trivial) false (fun _ _ => sampleEnv_full false) false
  obtain ⟨counters, records, same⟩ := main_reports_truth (sampleDirectoryA_shown false) (sampleDirectoryB_shown false)
    sampleDirectoryA_sized sampleDirectoryB_sized run
  exact ⟨_, counters .removed, (records _ _ (by decide)).mpr sample_removed, same⟩

/-- With only the pops known to succeed it is still in the records. -/
theorem main_overlooks_nothing_sample : ∃ results : ResultSet,
    (∃ record ∈ changedRecords results, record.path = sampleY ∧ record.type = .removed) ∧
    ∀ record ∈ changedRecords results,
      trueStatus sampleDirectoryA sampleDirectoryB record.path = some record.type ∨
      record.type = .modified ∧ trueStatus sampleDirectoryA sampleDirectoryB record.path = some .unchanged := by
  have run := @sampleMain_run LocksSucceed (fun _ => trivial) false (fun _ _ => trivial) false
  obtain ⟨reported, known, _⟩ := main_overlooks_nothing (sampleDirectoryA_shown false) (sampleDirectoryB_shown false) run
  exact ⟨_, reported _ _ sample_removed (by decide), known⟩

end Verdiff
