import Verdiff.Compare.Streams
import Verdiff.Results.Memory

/-! Whole comparisons with all they open, map and allocate besides the results: each gives back everything. -/

set_option autoImplicit false

namespace Verdiff
open Transition

structure ComparisonCall where
  relativePath : CString
  env : CompareEnv
  choicesA : Nat → GetlineChoice
  choicesB : Nat → GetlineChoice

def ComparisonCall.action (call : ComparisonCall) : ResultsAction := .compare call.relativePath call.env

structure ComparisonMemory (State : Type) where
  results : ResultSet
  heap : HashHeap State

section
variable (context : CompareContext) (raw : Nat → UInt8)

def compareHashesAt (fileA fileB : Except Fault Bytes) (env : CompareEnv) (heap : HashHeap context.xxh.State) :
    Option (Except Fault Bool × HashHeap context.xxh.State) := do
  let bufferSize := context.config.hashBufferSize
  let (hashedA, heap) ← hashFileXxh3At context.xxh raw (openCall env.opens.hashA fileA) bufferSize
    context.config.mmapThreshold env.hashA heap
  match hashedA with
  | .error fault => return (.error fault, heap)
  | .ok hashA =>
    let (hashedB, heap) ← hashFileXxh3At context.xxh raw (openCall env.opens.hashB fileB) bufferSize
      context.config.mmapThreshold env.hashB heap
    match hashedB with
    | .error fault => return (.error fault, heap)
    | .ok hashB =>
      if hashA ≠ hashB then return (.ok false, heap)
      else if context.config.verifyEqualHashes then
        vdCompareBinaryFilesAt raw (openCall env.opens.binaryA fileA) (openCall env.opens.binaryB fileB) bufferSize
          env.binary heap
      else return (.ok true, heap)

/-- The second file is looked at only when the first one looks like text. -/
def bothTextAt (fileA fileB : Except Fault Bytes) (env : CompareEnv) (heap : HashHeap context.xxh.State) :
    Option (Bool × HashHeap context.xxh.State) := do
  if context.config.includeLines then
    let (text, heap) ← vdIsLikelyTextFileAt raw (openCall env.opens.textA fileA) env.textA heap
    if text then vdIsLikelyTextFileAt raw (openCall env.opens.textB fileB) env.textB heap else return (false, heap)
  else return (false, heap)

def compareStreams (fileA fileB : Except Fault Bytes) (call : ComparisonCall) (heap : HashHeap context.xxh.State) :
    Option ((Rc × LineDiffVector) × HashHeap context.xxh.State) := do
  let (text, heap) ← bothTextAt context raw fileA fileB call.env heap
  if text then detectLineStreams raw fileA fileB call.env.lines call.choicesA call.choicesB .zero heap
  else return ((0, .zero), heap)

/-- The results, their paths and the joined paths are in a heap of their own. -/
def compareCandidateResources (call : ComparisonCall) (m : ComparisonMemory context.xxh.State) :
    Option (Rc × ComparisonMemory context.xxh.State) :=
  match fileIndexFindConst context.hashPath context.indexA call.relativePath,
      fileIndexFindConst context.hashPath context.indexB call.relativePath with
  | some infoA, some infoB =>
    if infoA.size ≠ infoB.size then
      let (rc, results) :=
        pushSimpleRecord m.results call.relativePath .modified .sizeChanged infoA.size infoB.size call.env.push
      some (rc, ⟨results, m.heap⟩)
    else if !call.env.joinAOk || !call.env.joinBOk then some (Fault.ENOMEM.code, m)
    else do
      let fileA := context.files.openFile (vdJoinPath context.config.rootA call.relativePath)
      let fileB := context.files.openFile (vdJoinPath context.config.rootB call.relativePath)
      let (equal, heap) ← compareHashesAt context raw fileA fileB call.env m.heap
      match equal with
      | .error fault => return (fault.code, ⟨m.results, heap⟩)
      | .ok true =>
        let (rc, results) :=
          if context.config.includeUnchanged then
            pushSimpleRecord m.results call.relativePath .unchanged .none infoA.size infoB.size call.env.push
          else resultSetNoteType m.results .unchanged
        return (rc, ⟨results, heap⟩)
      | .ok false =>
        let ((rc, lineDiffs), heap) ← compareStreams context raw fileA fileB call heap
        if rc ≠ 0 then return (rc, ⟨m.results, heap⟩)
        else
          let detailKind := if lineDiffs.items.length > 0 then DetailKind.lines else .binaryChanged
          let (rc, results) := resultSetPush m.results
            ⟨call.relativePath, .modified, detailKind, infoA.size, infoB.size, lineDiffs⟩ call.env.push
          return (rc, ⟨results, heap⟩)
  | _, _ => some (Fault.ENOENT.code, m)

def comparisonStep (m : ComparisonMemory context.xxh.State) (call : ComparisonCall) :
    Option (ComparisonMemory context.xxh.State × List (ComparisonCall × Rc)) :=
  (compareCandidateResources context raw call m).map fun (rc, m) => (m, [(call, rc)])

abbrev ComparisonRun (heap : HashHeap context.xxh.State) :
    ComparisonMemory context.xxh.State → List (ComparisonCall × Rc) → Prop :=
  Run (comparisonStep context raw) (fun _ _ => True) ⟨resultSetInit, heap⟩

end

section
variable {context : CompareContext} {heap : HashHeap context.xxh.State} {rest : List (Nat × HashBlock context.xxh.State)}
  {m : ComparisonMemory context.xxh.State} {trace : List (ComparisonCall × Rc)}

theorem compareHashesAt_ok (raw : Nat → UInt8) (fileA fileB : Except Fault Bytes) (env : CompareEnv)
    (holds : heap.Holds rest) :
    ∃ after, compareHashesAt context raw fileA fileB env heap =
        some (compareHashes context.xxh context.config fileA fileB env, after) ∧
      after.Holds rest := by
  obtain ⟨first, hashedA, held⟩ := hashFileXxh3At_ok raw (openCall env.opens.hashA fileA)
    context.config.hashBufferSize context.config.mmapThreshold env.hashA holds
  simp only [compareHashesAt, compareHashes, hashedA, Option.bind_eq_bind, Option.bind_some]
  cases hashFileXxh3 context.xxh (openCall env.opens.hashA fileA) context.config.hashBufferSize
    context.config.mmapThreshold env.hashA with
  | error fault => exact ⟨first, rfl, held⟩
  | ok hashA =>
    obtain ⟨second, hashedB, held⟩ := hashFileXxh3At_ok raw (openCall env.opens.hashB fileB)
      context.config.hashBufferSize context.config.mmapThreshold env.hashB held
    simp only [hashedB, Option.bind_some]
    cases hashFileXxh3 context.xxh (openCall env.opens.hashB fileB) context.config.hashBufferSize
      context.config.mmapThreshold env.hashB with
    | error fault => exact ⟨second, rfl, held⟩
    | ok hashB =>
      by_cases differ : hashA ≠ hashB
      · simp only [if_pos differ]
        exact ⟨second, rfl, held⟩
      · simp only [if_neg differ]
        by_cases verify : context.config.verifyEqualHashes = true
        · simp only [if_pos verify]
          exact vdCompareBinaryFilesAt_ok raw _ _ context.config.hashBufferSize env.binary held
        · simp only [if_neg verify]
          exact ⟨second, rfl, held⟩

theorem bothTextAt_ok (raw : Nat → UInt8) (fileA fileB : Except Fault Bytes) (env : CompareEnv)
    (holds : heap.Holds rest) :
    ∃ after, bothTextAt context raw fileA fileB env heap =
        some (context.config.includeLines && env.textTestA fileA && env.textTestB fileB, after) ∧
      after.Holds rest := by
  unfold bothTextAt CompareEnv.textTestA CompareEnv.textTestB
  cases context.config.includeLines with
  | false => exact ⟨heap, rfl, holds⟩
  | true =>
    obtain ⟨first, testedA, held⟩ := vdIsLikelyTextFileAt_ok raw (openCall env.opens.textA fileA) env.textA holds
    simp only [testedA, Option.bind_eq_bind, Option.bind_some, ↓reduceIte, Bool.true_and]
    cases vdIsLikelyTextFile (openCall env.opens.textA fileA) env.textA with
    | false => exact ⟨first, rfl, held⟩
    | true => exact vdIsLikelyTextFileAt_ok raw (openCall env.opens.textB fileB) env.textB held

theorem compareStreams_ok (raw : Nat → UInt8) (fileA fileB : Except Fault Bytes) (call : ComparisonCall)
    (holds : heap.Holds rest) :
    ∃ after, compareStreams context raw fileA fileB call heap =
        some (compareLines context.config fileA fileB call.env, after) ∧
      after.Holds rest := by
  obtain ⟨first, tested, held⟩ := bothTextAt_ok raw fileA fileB call.env holds
  simp only [compareStreams, compareLines, tested, Option.bind_eq_bind, Option.bind_some]
  split
  · exact detectLineStreams_ok raw fileA fileB call.env.lines call.choicesA call.choicesB .zero held
  · exact ⟨first, rfl, held⟩

theorem compareCandidateResources_ok (raw : Nat → UInt8) (call : ComparisonCall) (holds : m.heap.Holds rest) :
    ∃ after, compareCandidateResources context raw call m =
        some ((compareCandidateFile context call.relativePath call.env m.results).1,
          ⟨(compareCandidateFile context call.relativePath call.env m.results).2, after⟩) ∧
      after.Holds rest := by
  unfold compareCandidateResources compareCandidateFile
  cases fileIndexFindConst context.hashPath context.indexA call.relativePath with
  | none => exact ⟨m.heap, rfl, holds⟩
  | some infoA =>
    cases fileIndexFindConst context.hashPath context.indexB call.relativePath with
    | none => exact ⟨m.heap, rfl, holds⟩
    | some infoB =>
      by_cases sizes : infoA.size ≠ infoB.size
      · simp only [if_pos sizes]
        exact ⟨m.heap, rfl, holds⟩
      by_cases unjoined : (!call.env.joinAOk || !call.env.joinBOk) = true
      · simp only [if_neg sizes, if_pos unjoined]
        exact ⟨m.heap, rfl, holds⟩
      obtain ⟨first, compared, held⟩ := compareHashesAt_ok raw
        (context.files.openFile (vdJoinPath context.config.rootA call.relativePath))
        (context.files.openFile (vdJoinPath context.config.rootB call.relativePath)) call.env holds
      simp only [if_neg sizes, if_neg unjoined, compared, Option.bind_eq_bind, Option.bind_some]
      cases compareHashes context.xxh context.config _ _ call.env with
      | error fault => exact ⟨first, rfl, held⟩
      | ok equal =>
        cases equal with
        | true => exact ⟨first, rfl, held⟩
        | false =>
          obtain ⟨second, listed, held⟩ := compareStreams_ok raw
            (context.files.openFile (vdJoinPath context.config.rootA call.relativePath))
            (context.files.openFile (vdJoinPath context.config.rootB call.relativePath)) call held
          refine ⟨second, ?_, held⟩
          simp only [listed, Option.bind_some]
          by_cases failed : (compareLines context.config
              (context.files.openFile (vdJoinPath context.config.rootA call.relativePath))
              (context.files.openFile (vdJoinPath context.config.rootB call.relativePath)) call.env).1 ≠ 0
          · simp only [if_pos failed]
            rfl
          · simp only [if_neg failed]
            rfl

theorem comparisonStep_ok (raw : Nat → UInt8) (call : ComparisonCall) (holds : m.heap.Holds rest) :
    ∃ next rc, comparisonStep context raw m call = some (next, [(call, rc)]) ∧
      resultsStep context m.results call.action = some (next.results, [(call.action, rc)]) ∧
      next.heap.Holds rest := by
  obtain ⟨after, compared, kept⟩ := compareCandidateResources_ok raw call holds
  refine ⟨⟨_, after⟩, _, ?_, rfl, kept⟩
  rw [comparisonStep, compared]
  rfl

theorem comparisonStep_named {raw : Nat → UInt8} {next : ComparisonMemory context.xxh.State} {call : ComparisonCall}
    {events : List (ComparisonCall × Rc)} (stepped : comparisonStep context raw m call = some (next, events)) :
    ∃ rc, events = [(call, rc)] := by
  obtain ⟨⟨rc, _⟩, _, given⟩ := Option.map_eq_some_iff.mp stepped
  cases given
  exact ⟨rc, rfl⟩

/-- The codes and the results are those of the same calls in the model, the heap is as it was, and
the next comparison will go through. -/
theorem comparison_resources (raw : Nat → UInt8) (holds : heap.Holds rest) (run : ComparisonRun context raw heap m trace) :
    ResultsRun context m.results (trace.map fun (call, rc) => (call.action, rc)) ∧ m.heap.Holds rest ∧
      ∀ call, ∃ next rc, comparisonStep context raw m call = some (next, [(call, rc)]) ∧ next.heap.Holds rest := by
  have kept : ResultsRun context m.results (trace.map fun (call, rc) => (call.action, rc)) ∧ m.heap.Holds rest := by
    refine Run.invariant (fun (m : ComparisonMemory context.xxh.State) (trace : List (ComparisonCall × Rc)) =>
      ResultsRun context m.results (trace.map fun (call, rc) => (call.action, rc)) ∧ m.heap.Holds rest)
      ⟨.start, holds⟩ ?_ run
    rintro m after trace events call _ ⟨before, held⟩ _ step
    obtain ⟨next, rc, stepped, recorded, kept⟩ := comparisonStep_ok raw call held
    rw [stepped] at step
    cases step
    rw [List.map_append]
    exact ⟨before.next trivial recorded, kept⟩
  refine ⟨kept.1, kept.2, fun call => ?_⟩
  obtain ⟨next, rc, stepped, _, held⟩ := comparisonStep_ok raw call kept.2
  exact ⟨next, rc, stepped, held⟩

end

def collisionPath : CString := ⟨[102, 105, 108, 101], by decide⟩

/-- Both directories have the path with three bytes, of which the last one differs, and every file
has one hash. -/
def collisionContext : CompareContext where
  config := ⟨⟨[115, 114, 99], by decide⟩, ⟨[100, 115, 116], by decide⟩, 1, true, true, 2, 0, true⟩
  hashPath := fun _ => 0
  indexA := ⟨some ⟨collisionPath, ⟨collisionPath, 3, 0⟩, 0⟩ :: List.replicate 15 none, 16, 1⟩
  indexB := ⟨some ⟨collisionPath, ⟨collisionPath, 3, 0⟩, 0⟩ :: List.replicate 15 none, 16, 1⟩
  files := ⟨fun _ => .error .ENOENT, fun _ => .error .ENOENT, fun name =>
    .ok (if name.bytes = [115, 114, 99, 47, 102, 105, 108, 101] then [115, 97, 120] else [115, 97, 121])⟩
  xxh := .ofFunction fun _ => 7

/-- The comparison that catches the collision, and the same one where the text test finds no descriptor left. -/
theorem comparison_resources_collision :
    let call (opened : Option Fault) : ComparisonCall :=
      ⟨collisionPath, { CompareEnv.quiet 2 with opens := ⟨none, none, none, none, opened, none⟩ },
        fun _ => ⟨true, 9⟩, fun _ => ⟨false, 0⟩⟩
    ∃ m, ComparisonRun collisionContext (fun _ => 255) ⟨[], 0⟩ m [(call none, 0), (call (some .EMFILE), 0)] ∧
      m.heap.Holds [] ∧ ResultsRun collisionContext m.results
        [((call none).action, 0), ((call (some .EMFILE)).action, 0)] ∧
      m.results.records.map ChangeRecord.detailKind = [.lines, .binaryChanged] := by
  intro call
  have ends : (perform (comparisonStep collisionContext fun _ => 255) [call none, call (some .EMFILE)]
      ⟨resultSetInit, ⟨[], 0⟩⟩).map (fun run =>
        (run.2.map Prod.snd, run.1.results.records.map ChangeRecord.detailKind)) =
          some ([0, 0], [.lines, .binaryChanged]) := by
    decide +kernel
  have possible : ∀ {m trace}, ComparisonRun collisionContext (fun _ => 255) ⟨[], 0⟩ m trace → ∀ call, ∃ next rc,
      comparisonStep collisionContext (fun _ => 255) m call = some (next, [(call, rc)]) := by
    intro m trace run call
    obtain ⟨next, rc, stepped, _⟩ := (comparison_resources (fun _ => 255) (Heap.holds_empty 0) run).2.2 call
    exact ⟨next, rc, stepped⟩
  obtain ⟨m, trace, run, calls⟩ := Run.exists_taking (fun _ _ => trivial) possible [call none, call (some .EMFILE)]
  have again := run.replay comparisonStep_named
  rw [calls] at again
  rw [again] at ends
  obtain ⟨codes, recorded⟩ := Prod.mk.inj (Option.some.inj ends)
  obtain rfl : trace = [(call none, 0), (call (some .EMFILE), 0)] := List.zip_of_prod calls codes
  obtain ⟨results, held, _⟩ := comparison_resources (fun _ => 255) (Heap.holds_empty 0) run
  exact ⟨m, run, held, results, recorded⟩

end Verdiff
