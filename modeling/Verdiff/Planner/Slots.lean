import Verdiff.Planner.Machine

/-! What the two scans find in the slots of the indexes.

Of well-formed indexes the scans present or enqueue every path of either index
exactly once.
-/

set_option autoImplicit false

namespace Verdiff

namespace SlotPlan

def record? : SlotPlan → Option ChangeRecord
  | .present record => some record
  | _ => none

def candidate? : SlotPlan → Option CString
  | .candidate path => some path
  | _ => none

end SlotPlan

namespace PlanContext

variable (context : PlanContext)

def findA (path : CString) : Option FileInfo := fileIndexFindConst context.hashPath context.indexA path

def findB (path : CString) : Option FileInfo := fileIndexFindConst context.hashPath context.indexB path

def slotA (i : Nat) : SlotPlan := planSlotA context (context.indexA.slots.getD i none)

def slotB (i : Nat) : SlotPlan := planSlotB context (context.indexB.slots.getD i none)

def recordsA (n : Nat) : List ChangeRecord := (List.range n).filterMap fun i => (context.slotA i).record?

def candidatesA (n : Nat) : List CString := (List.range n).filterMap fun i => (context.slotA i).candidate?

def recordsB (n : Nat) : List ChangeRecord := (List.range n).filterMap fun i => (context.slotB i).record?

theorem filterMap_range_succ {α : Type} (f : Nat → Option α) (n : Nat) :
    (List.range (n + 1)).filterMap f = (List.range n).filterMap f ++ (f n).toList := by
  rw [List.range_succ, List.filterMap_append]
  cases answer : f n <;> simp [answer]

theorem recordsA_succ (n : Nat) :
    context.recordsA (n + 1) = context.recordsA n ++ (context.slotA n).record?.toList :=
  filterMap_range_succ _ n

theorem candidatesA_succ (n : Nat) :
    context.candidatesA (n + 1) = context.candidatesA n ++ (context.slotA n).candidate?.toList :=
  filterMap_range_succ _ n

theorem recordsB_succ (n : Nat) :
    context.recordsB (n + 1) = context.recordsB n ++ (context.slotB n).record?.toList :=
  filterMap_range_succ _ n

/-- Every path to settle: those of the first index, then the others of the second. -/
def paths : List CString :=
  context.indexA.keys ++ context.indexB.keys.filter fun path => (context.findA path).isNone

structure Indexed : Prop where
  a : context.indexA.WellFormed context.hashPath
  b : context.indexB.WellFormed context.hashPath

inductive Present : ChangeRecord → Prop where
  | removed {path : CString} {a : FileInfo} : context.findA path = some a → context.findB path = none →
      Present (presenceRecord path .removed .onlyInSource a.size 0)
  | added {path : CString} {b : FileInfo} : context.findA path = none → context.findB path = some b →
      Present (presenceRecord path .added .onlyInTarget 0 b.size)
  | resized {path : CString} {a b : FileInfo} : context.findA path = some a →
      context.findB path = some b → a.size ≠ b.size →
      Present (presenceRecord path .modified .sizeChanged a.size b.size)

end PlanContext

theorem FileIndex.Laid.filterMap_slots {β : Type} {index : FileIndex} (laid : index.Laid)
    (f : Option IndexSlot → Option β) (vacant : f none = none) :
    ((List.range index.capacity).filterMap fun i => f (index.slots.getD i none)) =
      index.entries.filterMap fun slot => f (some slot) := by
  -- Going through all slots is going through the entries.
  have read : (List.range index.capacity).map (fun i => index.slots.getD i none) = index.slots := by
    apply List.ext_getElem
    · simp [laid.length]
    · intro i _ inside
      simp [inside]
  have composed : ((List.range index.capacity).filterMap fun i => f (index.slots.getD i none)) =
      index.slots.filterMap f := by
    conv_rhs => rw [← read, List.filterMap_map]
    rfl
  rw [composed, FileIndex.entries, Probing.elements, List.filterMap_filterMap]
  congr 1
  funext content
  cases content with
  | none => exact vacant
  | some slot => rfl

namespace PlanContext

variable {context : PlanContext}

theorem planSlotB_new {slot : IndexSlot} (absent : context.findA slot.key = none) :
    planSlotB context (some slot) =
      .present (presenceRecord slot.key .added .onlyInTarget 0 slot.value.size) := by
  unfold planSlotB
  simp only
  rw [show fileIndexFindConst context.hashPath context.indexA slot.key = none from absent]

theorem planSlotB_known {slot : IndexSlot} {other : FileInfo} (found : context.findA slot.key = some other) :
    planSlotB context (some slot) = .skip := by
  unfold planSlotB
  simp only
  rw [show fileIndexFindConst context.hashPath context.indexA slot.key = some other from found]

section
variable (indexed : context.Indexed)
include indexed

theorem findA_entry {slot : IndexSlot} (member : slot ∈ context.indexA.entries) :
    context.findA slot.key = some slot.value := indexed.a.find_entry member

theorem findB_entry {slot : IndexSlot} (member : slot ∈ context.indexB.entries) :
    context.findB slot.key = some slot.value := indexed.b.find_entry member

theorem mem_keysA {path : CString} : path ∈ context.indexA.keys ↔ (context.findA path).isSome :=
  indexed.a.mem_keys

theorem mem_keysB {path : CString} : path ∈ context.indexB.keys ↔ (context.findB path).isSome :=
  indexed.b.mem_keys

theorem recordsA_eq : context.recordsA context.indexA.capacity =
    context.indexA.entries.filterMap fun slot => (planSlotA context (some slot)).record? :=
  indexed.a.filterMap_slots (fun content => (planSlotA context content).record?) rfl

theorem candidatesA_eq : context.candidatesA context.indexA.capacity =
    context.indexA.entries.filterMap fun slot => (planSlotA context (some slot)).candidate? :=
  indexed.a.filterMap_slots (fun content => (planSlotA context content).candidate?) rfl

theorem recordsB_eq : context.recordsB context.indexB.capacity =
    context.indexB.entries.filterMap fun slot => (planSlotB context (some slot)).record? :=
  indexed.b.filterMap_slots (fun content => (planSlotB context content).record?) rfl

theorem present_recordsA {record : ChangeRecord}
    (member : record ∈ context.recordsA context.indexA.capacity) : context.Present record := by
  rw [recordsA_eq indexed] at member
  obtain ⟨slot, stored, planned⟩ := List.mem_filterMap.mp member
  have found := findA_entry indexed stored
  unfold planSlotA at planned
  simp only at planned
  split at planned
  next absent =>
    obtain rfl := Option.some.inj planned
    exact .removed found absent
  next other both =>
    split at planned
    next sizes =>
      obtain rfl := Option.some.inj planned
      exact .resized found both sizes
    · cases planned

theorem present_recordsB {record : ChangeRecord}
    (member : record ∈ context.recordsB context.indexB.capacity) : context.Present record := by
  rw [recordsB_eq indexed] at member
  obtain ⟨slot, stored, planned⟩ := List.mem_filterMap.mp member
  have found := findB_entry indexed stored
  unfold planSlotB at planned
  simp only at planned
  split at planned
  next absent =>
    obtain rfl := Option.some.inj planned
    exact .added absent found
  · cases planned

theorem candidatesA_sizes {path : CString} (member : path ∈ context.candidatesA context.indexA.capacity) :
    ∃ a b, context.findA path = some a ∧ context.findB path = some b ∧ a.size = b.size := by
  rw [candidatesA_eq indexed] at member
  obtain ⟨slot, stored, planned⟩ := List.mem_filterMap.mp member
  have found := findA_entry indexed stored
  unfold planSlotA at planned
  simp only at planned
  split at planned
  · cases planned
  next other both =>
    split at planned
    · cases planned
    next sizes =>
      obtain rfl := Option.some.inj planned
      exact ⟨slot.value, other, found, both, not_not.mp sizes⟩

/-- Each slot of the first index is either presented or enqueued, under its own path. -/
theorem pathsA_perm : ((context.recordsA context.indexA.capacity).map ChangeRecord.path ++
    context.candidatesA context.indexA.capacity).Perm context.indexA.keys := by
  rw [recordsA_eq indexed, candidatesA_eq indexed, FileIndex.keys]
  -- An entry contributes to one of the two lists, whatever the other entries are.
  generalize context.indexA.entries = entries
  induction entries with
  | nil => exact .nil
  | cons slot rest ih =>
    have planned : (∃ record, planSlotA context (some slot) = .present record ∧ record.path = slot.key) ∨
        planSlotA context (some slot) = .candidate slot.key := by
      unfold planSlotA
      simp only
      split
      · exact .inl ⟨_, rfl, rfl⟩
      · split
        · exact .inl ⟨_, rfl, rfl⟩
        · exact .inr rfl
    rcases planned with ⟨record, planned, same⟩ | planned
    · simpa [planned, SlotPlan.record?, SlotPlan.candidate?, same] using ih.cons slot.key
    · simpa [planned, SlotPlan.record?, SlotPlan.candidate?] using List.perm_middle.trans (ih.cons slot.key)

theorem nodup_candidatesA : (context.candidatesA context.indexA.capacity).Nodup :=
  ((pathsA_perm indexed).nodup_iff.mpr indexed.a.distinct).of_append_right

theorem pathsB_eq : (context.recordsB context.indexB.capacity).map ChangeRecord.path =
    context.indexB.keys.filter fun path => (context.findA path).isNone := by
  rw [recordsB_eq indexed, FileIndex.keys]
  generalize context.indexB.entries = entries
  induction entries with
  | nil => rfl
  | cons slot rest ih =>
    cases found : context.findA slot.key with
    | none => simpa [planSlotB_new found, found, SlotPlan.record?, presenceRecord] using ih
    | some other => simpa [planSlotB_known found, found, SlotPlan.record?] using ih

theorem paths_perm : (((context.recordsA context.indexA.capacity ++
    context.recordsB context.indexB.capacity).map ChangeRecord.path) ++
    context.candidatesA context.indexA.capacity).Perm context.paths := by
  rw [List.map_append, paths, ← pathsB_eq indexed, List.append_assoc]
  refine (List.Perm.append_left _ List.perm_append_comm).trans ?_
  rw [← List.append_assoc]
  exact (pathsA_perm indexed).append_right _

theorem mem_paths {path : CString} :
    path ∈ context.paths ↔ (context.findA path).isSome ∨ (context.findB path).isSome := by
  rw [paths, List.mem_append, List.mem_filter, mem_keysA indexed, mem_keysB indexed]
  cases context.findA path <;> simp

theorem nodup_paths : context.paths.Nodup := by
  rw [paths, List.nodup_append]
  refine ⟨indexed.a.distinct, indexed.b.distinct.filter _, ?_⟩
  rintro path inA other inB rfl
  have absent := (List.mem_filter.mp inB).2
  have present := (mem_keysA indexed).mp inA
  cases found : context.findA path <;> simp [found] at absent present

end

end PlanContext

end Verdiff
