import Verdiff.Scanner.Machine

/-! A scan of a tree ends, and it indexes exactly the tree's files.

Every file is at any moment either in the index, or below a frame on the stack, or behind
a name the open directory has still to yield. Each step lowers what is left to do.
-/

set_option autoImplicit false

namespace Verdiff
open Transition Node

variable {context : ScanContext} {tree : Node} {s t : ScanState} {events : List ScanEvent}

/-- The frame the scanner makes for the directory some components lead to. -/
def frameAt (context : ScanContext) (components : List CString) : ScanFrame :=
  ⟨relativeOf components, absoluteOf context.root components⟩

/-- The open directory is one of the tree, with entries still to come. -/
structure ReadingAt (context : ScanContext) (tree : Node) (frame : ScanFrame) (pending : List CString)
    (front names : List CString) (child : CString → Node) : Prop where
  frame_eq : frame = frameAt context front
  leads : tree.Leads front (.dir names child)
  entries : ∀ name ∈ pending, name = dot ∨ name = dotDot ∨ name ∈ names

/-- All frames are directories of the tree; the number bounds the steps they take. -/
inductive Stacked (context : ScanContext) (tree : Node) : List ScanFrame → Nat → Prop where
  | nil : Stacked context tree [] 0
  | cons {front names : List CString} {child : CString → Node} {rest : List ScanFrame} {n : Nat} :
      tree.Leads front (.dir names child) → Stacked context tree rest n →
      Stacked context tree (frameAt context front :: rest)
        ((Node.dir names child).cost context.files (absoluteOf context.root front) + n)

/-- The steps still needed for the names a directory has to yield. -/
def entriesCost (context : ScanContext) (child : CString → Node) (path : CString) (pending : List CString) : Nat :=
  (pending.map fun name => 1 + (child name).cost context.files (vdJoinPath path name)).sum

/-- A bound on the steps left. -/
inductive Remaining (context : ScanContext) (tree : Node) : ScanStage → List ScanFrame → Nat → Prop where
  | starting : Remaining context tree .starting [] (tree.cost context.files context.root + 2)
  | popping {items : List ScanFrame} {n : Nat} : Stacked context tree items n →
      Remaining context tree .popping items (n + 1)
  | reading {frame : ScanFrame} {pending front names : List CString} {fault : Option Fault}
      {child : CString → Node} {items : List ScanFrame} {n : Nat} :
      ReadingAt context tree frame pending front names child → Stacked context tree items n →
      Remaining context tree (.reading frame pending fault) items
        (entriesCost context child (absoluteOf context.root front) pending + n + 2)
  | returned {rc : Rc} {items : List ScanFrame} : (rc = 0 → items = []) →
      Remaining context tree (.returned rc) items 0

theorem ReadingAt.entry {frame : ScanFrame} {name : CString} {rest front names : List CString}
    {child : CString → Node} {st : Stat} (mounted : tree.Mounted context.files context.root)
    (reading : ReadingAt context tree frame (name :: rest) front names child) (notDot : name ≠ dot)
    (notDotDot : name ≠ dotDot) (shown : context.files.lstat (vdJoinPath frame.absolute name) = .ok st) :
    tree.Leads (front ++ [name]) (child name) ∧ (child name).Shows st ∧
      (⟨vdNormalizeJoinedRelative frame.relative name, vdJoinPath frame.absolute name⟩ : ScanFrame) =
        frameAt context (front ++ [name]) := by
  obtain ⟨rfl, leads, entries⟩ := reading
  have member : name ∈ names := by
    rcases entries name (by simp) with isDot | isDotDot | listed
    · exact absurd isDot notDot
    · exact absurd isDotDot notDotDot
    · exact listed
  exact ⟨leads.snoc member, ((leads.mounted mounted).2 name member).1 st shown, by simp [frameAt]⟩

theorem ReadingAt.rest {frame : ScanFrame} {name : CString} {rest front names : List CString}
    {child : CString → Node} (reading : ReadingAt context tree frame (name :: rest) front names child) :
    ReadingAt context tree frame rest front names child :=
  ⟨reading.frame_eq, reading.leads, fun other later => reading.entries other (List.mem_cons_of_mem _ later)⟩

/-! ## Each step leaves less to do -/

section
variable {frame : ScanFrame} {name : CString} {later : List CString} {fault : Option Fault} {items : List ScanFrame}
  {n : Nat}

theorem Remaining.positive {stage : ScanStage} (remaining : Remaining context tree stage items n)
    (running : ∀ rc, stage ≠ .returned rc) : 0 < n := by
  cases remaining with
  | returned => exact absurd rfl (running _)
  | _ => omega

theorem Remaining.failed {stage : ScanStage} {rc : Rc} {left : List ScanFrame}
    (remaining : Remaining context tree stage items n) (running : ∀ rc, stage ≠ .returned rc) (failed : rc ≠ 0) :
    ∃ m, Remaining context tree (.returned rc) left m ∧ m < n :=
  ⟨0, .returned fun zero => absurd zero failed, remaining.positive running⟩

theorem Remaining.started (directory : ∃ names child, tree = .dir names child)
    (remaining : Remaining context tree .starting items n) :
    ∃ m, Remaining context tree .popping (⟨.empty, context.root⟩ :: items) m ∧ m < n := by
  cases remaining
  obtain ⟨names, child, rfl⟩ := directory
  exact ⟨_, .popping (.cons .here .nil), by simp only [absoluteOf, List.foldl_nil]; omega⟩

theorem Remaining.opened {dir : DirStream} (mounted : tree.Mounted context.files context.root)
    (opened : context.files.opendir frame.absolute = .ok dir)
    (remaining : Remaining context tree .popping (frame :: items) n) :
    ∃ m, Remaining context tree (.reading frame dir.names dir.fault) items m ∧ m < n := by
  -- What the frame was worth is now what its names are worth.
  cases remaining with
  | popping stacked =>
    cases stacked with
    | @cons front names child _ m leads below =>
      have listed := (leads.mounted mounted).1 dir opened
      have yielded : streamNames context.files (absoluteOf context.root front) = dir.names := by
        rw [streamNames, show context.files.opendir (absoluteOf context.root front) = _ from opened]
      refine ⟨_, .reading ⟨rfl, leads, listed.only⟩ below, ?_⟩
      simp only [cost_dir, yielded, entriesCost]
      omega

theorem Remaining.ended (remaining : Remaining context tree (.reading frame [] fault) items n) :
    ∃ m, Remaining context tree .popping items m ∧ m < n := by
  cases remaining with
  | reading _ stacked => exact ⟨_, .popping stacked, by omega⟩

theorem Remaining.passed (remaining : Remaining context tree (.reading frame (name :: later) fault) items n) :
    ∃ m, Remaining context tree (.reading frame later fault) items m ∧ m < n := by
  cases remaining with
  | reading reading stacked =>
    refine ⟨_, .reading reading.rest stacked, ?_⟩
    simp only [entriesCost, List.map_cons, List.sum_cons]
    omega

theorem Remaining.descended {st : Stat} (mounted : tree.Mounted context.files context.root)
    (notDot : name ≠ dot) (notDotDot : name ≠ dotDot)
    (shown : context.files.lstat (vdJoinPath frame.absolute name) = .ok st) (kind : st.kind = .directory)
    (remaining : Remaining context tree (.reading frame (name :: later) fault) items n) :
    ∃ m, Remaining context tree (.reading frame later fault)
      (⟨vdNormalizeJoinedRelative frame.relative name, vdJoinPath frame.absolute name⟩ :: items) m ∧ m < n := by
  -- What the name was worth is now what the frame on the stack is worth.
  cases remaining with
  | reading reading stacked =>
    obtain ⟨leads, shows, same⟩ := reading.entry mounted notDot notDotDot shown
    obtain ⟨inner, below, dir⟩ := shows.directory kind
    rw [dir] at leads
    simp only [same]
    refine ⟨_, .reading reading.rest (.cons leads stacked), ?_⟩
    simp only [entriesCost, List.map_cons, List.sum_cons, dir, absoluteOf_snoc]
    omega

end

theorem ScanMove.lowers {n : Nat} (move : ScanMove context s t events)
    (mounted : tree.Mounted context.files context.root) (directory : ∃ names child, tree = .dir names child)
    (remaining : Remaining context tree s.stage s.stack.items n) :
    ∃ m, Remaining context tree t.stage t.stack.items m ∧ m < n := by
  cases move with
  | startFailed call rc stage failed => exact remaining.failed (by simp [stage]) failed
  | started capacity stage => exact (stage ▸ remaining).started directory
  | finished stage empty => exact ⟨0, .returned fun _ => empty, remaining.positive (by simp [stage])⟩
  | openFailed frame rest fault stage => exact remaining.failed (by simp [stage]) fault.nonzero
  | opened frame rest dir stage items opened =>
    rw [stage, items] at remaining
    exact remaining.opened mounted opened
  | readEnded frame stage => exact (stage ▸ remaining).ended
  | readFailed frame fault stage => exact remaining.failed (by simp [stage]) fault.nonzero
  | dots frame name rest fault stage => exact (stage ▸ remaining).passed
  | entryFailed frame name rest fault call rc index stage failed => exact remaining.failed (by simp [stage]) failed
  | descended frame name rest fault st capacity stage notDot notDotDot shown kind =>
    exact (stage ▸ remaining).descended mounted notDot notDotDot shown kind
  | indexed frame name rest fault st allocs index stage => exact (stage ▸ remaining).passed
  | passed frame name rest fault st stage => exact (stage ▸ remaining).passed

/-! ## Where a node is -/

/-- `lstat` tells what is there. Nobody asks it about the root. -/
def Shown (context : ScanContext) (components : List CString) : Prop :=
  components ≠ [] → ∃ st, context.files.lstat (absoluteOf context.root components) = .ok st

def Listed (context : ScanContext) (components : List CString) : Prop :=
  ∃ dir, context.files.opendir (absoluteOf context.root components) = .ok dir ∧ dir.fault = none

/-- The file system refuses no call that a scan of the tree makes. -/
structure Faultless (context : ScanContext) (tree : Node) : Prop where
  shown : ∀ components node, tree.Leads components node → Shown context components
  listed : ∀ components names child, tree.Leads components (.dir names child) → Listed context components

def Stored (context : ScanContext) (index : FileIndex) (components : List CString) (size mtime : Int) : Prop :=
  ∃ info, fileIndexFind context.hashPath index (relativeOf components) = some info ∧
    info.size = size ∧ info.mtime = mtime

/-- The scan has done what it does with such a node. -/
def Met (context : ScanContext) (index : FileIndex) (components : List CString) (node : Node) : Prop :=
  Shown context components ∧
    match node with
    | .file size mtime => Stored context index components size mtime
    | .dir _ _ => Listed context components
    | _ => True

theorem Met.keeps {index after : FileIndex} {components : List CString} {node : Node}
    (met : Met context index components node)
    (kept : ∀ size mtime, node = .file size mtime → Stored context index components size mtime →
      Stored context after components size mtime) : Met context after components node := by
  refine ⟨met.1, ?_⟩
  cases node with
  | file size mtime => exact kept size mtime rfl met.2
  | dir => exact met.2
  | symlink => trivial
  | special => trivial

/-- The scan has still to come to the node. -/
inductive Waiting (context : ScanContext) (tree : Node) (s : ScanState) : List CString → Prop where
  | start {components : List CString} : s.stage = .starting → Waiting context tree s components
  | stacked {front rest names : List CString} {child : CString → Node} :
      tree.Leads front (.dir names child) → Shown context front → frameAt context front ∈ s.stack.items →
      Waiting context tree s (front ++ rest)
  | pending {front rest names pending : List CString} {name : CString} {child : CString → Node}
      {fault : Option Fault} : tree.Leads front (.dir names child) →
      s.stage = .reading (frameAt context front) pending fault → name ∈ pending →
      Waiting context tree s (front ++ name :: rest)

/-- Nothing has failed so far, and no `readdir` is going to in the open directory. -/
def ScanStage.Intact : ScanStage → Prop
  | .reading _ _ fault => fault = none
  | .returned rc => rc = 0
  | _ => True

structure Indexes (context : ScanContext) (tree : Node) (s : ScanState) : Prop where
  sound : ∀ path info, fileIndexFind context.hashPath s.index path = some info →
    ∃ components, tree.Leads components (.file info.size info.mtime) ∧ path = relativeOf components
  complete : ∀ components node, tree.Leads components node →
    Met context s.index components node ∨ Waiting context tree s components

structure Scanning (context : ScanContext) (tree : Node) (s : ScanState) : Prop where
  wf : s.index.WellFormed context.hashPath
  bounded : ∃ n, Remaining context tree s.stage s.stack.items n
  indexes : s.stage.Intact → Indexes context tree s

/-- A tree a scan can be asked for: a directory with proper names that the files show. -/
structure Scannable (context : ScanContext) (tree : Node) : Prop where
  directory : ∃ names child, tree = .dir names child
  named : tree.WellNamed
  mounted : tree.Mounted context.files context.root

namespace Scannable

variable (scannable : Scannable context tree)
include scannable

theorem file_named {components : List CString} {size mtime : Int}
    (leads : tree.Leads components (.file size mtime)) :
    components ≠ [] ∧ ∀ name ∈ components, EntryName name := by
  refine ⟨?_, (leads.wellNamed scannable.named).2⟩
  rintro rfl
  obtain ⟨names, child, dir⟩ := scannable.directory
  rw [dir] at leads
  cases leads

theorem joined_inj {first second : List CString} {node : Node} {size mtime : Int}
    (left : tree.Leads first node) (right : tree.Leads second (.file size mtime))
    (same : joined first = joined second) : first = second := by
  have named₁ := (left.wellNamed scannable.named).2
  obtain ⟨some₂, named₂⟩ := scannable.file_named right
  refine joined_injective named₁ named₂ ?_ some₂ same
  rintro rfl
  exact joined_ne_nil named₂ some₂ same.symm

theorem relativeOf_inj {first second : List CString} {size mtime size' mtime' : Int}
    (left : tree.Leads first (.file size mtime)) (right : tree.Leads second (.file size' mtime'))
    (same : relativeOf first = relativeOf second) : first = second := by
  apply scannable.joined_inj left right
  rw [← relativeOf_bytes (scannable.file_named left).2, ← relativeOf_bytes (scannable.file_named right).2, same]

theorem pending_entry {front names rest : List CString} {child : CString → Node} {name : CString} {node : Node}
    (leads : tree.Leads front (.dir names child)) (deeper : tree.Leads (front ++ name :: rest) node) :
    name ∈ names ∧ EntryName name ∧ (child name).Leads rest node ∧
      ∀ st, context.files.lstat (vdJoinPath (absoluteOf context.root front) name) = .ok st →
        (child name).Shows st := by
  have entry := (deeper.wellNamed scannable.named).2 name (by simp)
  rw [leads.append] at deeper
  obtain ⟨member, later⟩ := deeper.entry
  exact ⟨member, entry, later, fun st shown => ((leads.mounted scannable.mounted).2 name member).1 st shown⟩

end Scannable

theorem Waiting.of_popping {components : List CString} (stage : s.stage = .popping)
    (waiting : Waiting context tree s components) :
    ∃ front rest names child, components = front ++ rest ∧ tree.Leads front (.dir names child) ∧
      Shown context front ∧ frameAt context front ∈ s.stack.items := by
  cases waiting with
  | start other => rw [stage] at other; cases other
  | stacked leads shown member => exact ⟨_, _, _, _, rfl, leads, shown, member⟩
  | pending _ other => rw [stage] at other; cases other

/-- Going on to the next name: what waits on the stack waits on, and so does what is behind
a later name. Only what is behind the name just read needs an account. -/
theorem Waiting.next {frame : ScanFrame} {name : CString} {later : List CString} {fault : Option Fault}
    {components : List CString} (stage : s.stage = .reading frame (name :: later) fault)
    (stacked : ∀ other ∈ s.stack.items, other ∈ t.stack.items) (next : t.stage = .reading frame later fault)
    (waiting : Waiting context tree s components) :
    Waiting context tree t components ∨
    ∃ front names child rest, components = front ++ name :: rest ∧ frame = frameAt context front ∧
      tree.Leads front (.dir names child) := by
  cases waiting with
  | start other => rw [stage] at other; cases other
  | stacked leads shown member => exact .inl (.stacked leads shown (stacked _ member))
  | pending leads other member =>
    rw [stage] at other
    cases other
    rcases List.mem_cons.mp member with rfl | behind
    · exact .inr ⟨_, _, _, _, rfl, rfl, leads⟩
    · exact .inl (.pending leads next behind)

/-! ## What each move does to the nodes -/

section
variable {frame : ScanFrame} {name : CString} {later : List CString} {fault : Option Fault} {st : Stat}
  (scannable : Scannable context tree) (indexes : Indexes context tree s)

include indexes in
theorem Indexes.started (index : t.index = s.index) (leads : tree.Leads [] tree)
    (directory : ∃ names child, tree = .dir names child) (root : frameAt context [] ∈ t.stack.items) :
    Indexes context tree t := by
  -- The root is on the stack, and everything is below it.
  refine ⟨index ▸ indexes.sound, fun components node _ => .inr ?_⟩
  obtain ⟨names, child, rfl⟩ := directory
  exact @Waiting.stacked _ _ _ [] components _ _ leads (fun nonempty => absurd rfl nonempty) root

include indexes in
theorem Indexes.finished (stage : s.stage = .popping) (empty : s.stack.items = []) (index : t.index = s.index) :
    Indexes context tree t := by
  refine ⟨index ▸ indexes.sound, fun components node leads => ?_⟩
  rcases indexes.complete components node leads with met | waiting
  · exact .inl (index ▸ met)
  · obtain ⟨_, _, _, _, _, _, _, member⟩ := waiting.of_popping stage
    rw [empty] at member
    cases member

include scannable indexes in
theorem Indexes.opened {rest : List ScanFrame} {dir : DirStream} (stage : s.stage = .popping)
    (items : s.stack.items = frame :: rest) (opened : context.files.opendir frame.absolute = .ok dir)
    (whole : dir.fault = none) (index : t.index = s.index) (stack : t.stack.items = rest)
    (next : t.stage = .reading frame dir.names dir.fault) : Indexes context tree t := by
  -- The directory just opened is met. What is below it waits behind one of its names, else on the stack.
  refine ⟨index ▸ indexes.sound, fun components node node_leads => ?_⟩
  rcases indexes.complete components node node_leads with met | waiting
  · exact .inl (index ▸ met)
  · obtain ⟨front, below, names, child, rfl, leads, shown, member⟩ := waiting.of_popping stage
    rw [items] at member
    rcases List.mem_cons.mp member with rfl | deeper
    · rw [leads.append] at node_leads
      cases below with
      | nil =>
        cases node_leads
        rw [List.append_nil]
        exact .inl ⟨shown, dir, opened, whole⟩
      | cons name rest =>
        have listed := (leads.mounted scannable.mounted).1 dir opened
        exact .inr (.pending leads next (listed.all whole name node_leads.entry.1))
    · exact .inr (.stacked leads shown (stack ▸ deeper))

include indexes in
theorem Indexes.ended (stage : s.stage = .reading frame [] fault) (index : t.index = s.index)
    (stack : t.stack = s.stack) : Indexes context tree t := by
  refine ⟨index ▸ indexes.sound, fun components node node_leads => ?_⟩
  rcases indexes.complete components node node_leads with met | waiting
  · exact .inl (index ▸ met)
  · cases waiting with
    | start other => rw [stage] at other; cases other
    | stacked leads shown member => exact .inr (.stacked leads shown (stack ▸ member))
    | pending _ other member =>
      rw [stage] at other
      cases other
      cases member

include indexes in
theorem Indexes.next (stage : s.stage = .reading frame (name :: later) fault)
    (index : t.index = s.index) (stacked : ∀ other ∈ s.stack.items, other ∈ t.stack.items)
    (next : t.stage = .reading frame later fault)
    (settled : ∀ front names child rest node, frame = frameAt context front →
      tree.Leads front (.dir names child) → tree.Leads (front ++ name :: rest) node →
      Met context s.index (front ++ name :: rest) node ∨ Waiting context tree t (front ++ name :: rest)) :
    Indexes context tree t := by
  refine ⟨index ▸ indexes.sound, fun components node node_leads => ?_⟩
  rw [index]
  rcases indexes.complete components node node_leads with met | waiting
  · exact .inl met
  · rcases waiting.next stage stacked next with still | ⟨front, names, child, rest, rfl, same, leads⟩
    · exact .inr still
    · exact settled front names child rest node same leads node_leads

include scannable indexes in
theorem Indexes.dots (stage : s.stage = .reading frame (name :: later) fault) (isDot : name = dot ∨ name = dotDot)
    (index : t.index = s.index) (stack : t.stack = s.stack) (next : t.stage = .reading frame later fault) :
    Indexes context tree t := by
  -- Nothing is behind a dot name, as an entry has none.
  refine indexes.next stage index (fun _ member => stack ▸ member) next ?_
  intro front names child rest node _ leads deeper
  obtain ⟨_, entry, _, _⟩ := scannable.pending_entry leads deeper
  rcases isDot with same | same
  · exact absurd same entry.notDot
  · exact absurd same entry.notDotDot

include scannable indexes in
theorem Indexes.descended (stage : s.stage = .reading frame (name :: later) fault)
    (shown : context.files.lstat (vdJoinPath frame.absolute name) = .ok st) (kind : st.kind = .directory)
    (index : t.index = s.index) (stack : t.stack.items =
      ⟨vdNormalizeJoinedRelative frame.relative name, vdJoinPath frame.absolute name⟩ :: s.stack.items)
    (next : t.stage = .reading frame later fault) : Indexes context tree t := by
  -- What is behind the name is below the frame just pushed.
  refine indexes.next stage index (fun _ member => stack ▸ List.mem_cons_of_mem _ member) next ?_
  intro front names child rest node located leads deeper
  obtain ⟨member, _, _, shows⟩ := scannable.pending_entry leads deeper
  rw [located] at shown
  obtain ⟨_, _, dir⟩ := (shows st shown).directory kind
  have further := leads.snoc member
  rw [dir] at further
  rw [List.append_cons]
  refine .inr (.stacked further (fun _ => ⟨st, by rw [absoluteOf_snoc]; exact shown⟩) ?_)
  simp [stack, located, frameAt]

include scannable indexes in
theorem Indexes.passed (stage : s.stage = .reading frame (name :: later) fault)
    (shown : context.files.lstat (vdJoinPath frame.absolute name) = .ok st)
    (kind : st.kind = .symlink ∨ st.kind = .special)
    (index : t.index = s.index) (stack : t.stack = s.stack) (next : t.stage = .reading frame later fault) :
    Indexes context tree t := by
  -- A link or a special file is met once `lstat` has told what it is.
  refine indexes.next stage index (fun _ member => stack ▸ member) next ?_
  intro front names child rest node located leads deeper
  obtain ⟨_, _, below, shows⟩ := scannable.pending_entry leads deeper
  rw [located] at shown
  have shows := shows st shown
  obtain ⟨rfl, rfl⟩ := shows.leaf (by rcases kind with kind | kind <;> simp [kind]) below
  refine .inl ⟨fun _ => ⟨st, by rw [absoluteOf_snoc]; exact shown⟩, ?_⟩
  cases node : child name with
  | file size mtime =>
    rw [node] at shows
    rw [show st = _ from shows] at kind
    simp at kind
  | dir names child =>
    rw [node] at shows
    rw [show st.kind = _ from shows] at kind
    simp at kind
  | symlink => trivial
  | special => trivial

include scannable indexes in
theorem Indexes.indexed {front names : List CString} {child : CString → Node} {allocs : UpsertAllocs}
    {index : FileIndex} (wf : s.index.WellFormed context.hashPath)
    (stage : s.stage = .reading frame (name :: later) fault)
    (reading : ReadingAt context tree frame (name :: later) front names child)
    (notDot : name ≠ dot) (notDotDot : name ≠ dotDot)
    (shown : context.files.lstat (vdJoinPath frame.absolute name) = .ok st) (kind : st.kind = .regular)
    (upserted : fileIndexUpsert context.hashPath s.index (vdNormalizeJoinedRelative frame.relative name)
      st.size st.mtime allocs = some (0, index))
    (after : t.index = index) (stack : t.stack = s.stack) (next : t.stage = .reading frame later fault) :
    Indexes context tree t := by
  -- The file just read is stored; the others are where they were, under other keys.
  obtain ⟨leads, shows, same⟩ := reading.entry scannable.mounted notDot notDotDot shown
  rw [shows.regular kind] at leads
  rw [show vdNormalizeJoinedRelative frame.relative name = relativeOf (front ++ [name]) from
    congrArg ScanFrame.relative same] at upserted
  have lookups := fileIndexUpsert_lookups wf upserted
  constructor
  · intro path info found
    rw [after, lookups] at found
    split at found
    next here => cases found; exact ⟨_, leads, here⟩
    next => exact indexes.sound path info found
  · intro components node node_leads
    have stores : components = front ++ [name] → Met context t.index components node := by
      rintro rfl
      obtain rfl := leads.unique node_leads
      refine ⟨fun _ => ⟨st, ?_⟩, _, by rw [after, lookups, if_pos rfl], rfl, rfl⟩
      rw [← shown]
      exact congrArg (context.files.lstat ·.absolute) same.symm
    rcases indexes.complete components node node_leads with met | waiting
    -- A stored file keeps its entry unless it has the key just written, and then it is the file.
    · by_cases here : components = front ++ [name]
      · exact .inl (stores here)
      · refine .inl (met.keeps fun size mtime file ⟨info, found, values⟩ => ⟨info, ?_, values⟩)
        rw [file] at node_leads
        rw [after, lookups, if_neg fun key => here (scannable.relativeOf_inj node_leads leads key), found]
    · rcases waiting.next stage (fun _ member => stack ▸ member) next with still | found
      · exact .inr still
      · obtain ⟨other, names, child, rest, rfl, located, dir⟩ := found
        obtain ⟨_, _, below, shows⟩ := scannable.pending_entry dir node_leads
        rw [located] at shown
        have shows := shows st shown
        obtain ⟨rfl, rfl⟩ := shows.leaf (by simp [kind]) below
        rw [shows.regular kind] at node_leads
        refine .inl (stores (scannable.relativeOf_inj node_leads leads ?_))
        rw [relativeOf_snoc, relativeOf_snoc]
        have frames := reading.frame_eq.symm.trans located
        rw [show relativeOf other = relativeOf front from (congrArg ScanFrame.relative frames).symm]

end

theorem ScanMove.scanning (move : ScanMove context s t events) (scannable : Scannable context tree)
    (scanning : Scanning context tree s) : Scanning context tree t := by
  obtain ⟨wf, ⟨n, remaining⟩, indexes⟩ := scanning
  obtain ⟨m, less, _⟩ := move.lowers scannable.mounted scannable.directory remaining
  refine ⟨move.wellFormed wf, ⟨m, less⟩, fun intact => ?_⟩
  cases move with
  | startFailed call rc stage failed => exact absurd intact failed
  | started capacity stage =>
    rw [stage] at indexes
    exact (indexes trivial).started rfl .here scannable.directory (List.mem_cons_self ..)
  | finished stage empty =>
    rw [stage] at indexes
    exact (indexes trivial).finished stage empty rfl
  | openFailed frame rest fault stage => exact absurd intact fault.nonzero
  | opened frame rest dir stage items opened =>
    rw [stage] at indexes
    exact (indexes trivial).opened scannable stage items opened intact rfl rfl rfl
  | readEnded frame stage =>
    rw [stage] at indexes
    exact (indexes rfl).ended stage rfl rfl
  | readFailed frame fault stage => exact absurd intact fault.nonzero
  | dots frame name rest fault stage isDot =>
    rw [stage] at indexes
    exact (indexes intact).dots scannable stage isDot rfl rfl rfl
  | entryFailed frame name rest fault call rc index stage failed => exact absurd intact failed
  | descended frame name rest fault st capacity stage notDot notDotDot shown kind =>
    rw [stage] at indexes
    exact (indexes intact).descended scannable stage shown kind rfl rfl rfl
  | indexed frame name rest fault st allocs index stage notDot notDotDot shown kind upserted =>
    rw [stage] at indexes remaining
    cases remaining with
    | reading reading _ =>
      exact (indexes intact).indexed scannable wf stage reading notDot notDotDot shown kind upserted rfl rfl rfl
  | passed frame name rest fault st stage notDot notDotDot shown kind =>
    rw [stage] at indexes
    exact (indexes intact).passed scannable stage shown kind rfl rfl rfl

/-! ## Nothing is refused -/

theorem Remaining.accepted {n : Nat} (remaining : Remaining context tree s.stage s.stack.items n)
    (faultless : Faultless context tree) (intact : s.stage.Intact) : ¬ScanRefused context s := by
  -- Every call of the next step is one for the tree.
  unfold ScanRefused
  cases stage : s.stage with
  | starting => exact id
  | returned rc => exact id
  | popping =>
    rw [stage] at remaining
    rintro ⟨frame, rest, fault, items, refused⟩
    rw [items] at remaining
    cases remaining with
    | popping stacked =>
      cases stacked with
      | cons leads =>
        obtain ⟨dir, opened, _⟩ := faultless.listed _ _ _ leads
        rw [show context.files.opendir (absoluteOf context.root _) = _ from refused] at opened
        cases opened
  | reading frame names fault =>
    rw [stage] at remaining intact
    cases names with
    | nil => simp [show fault = none from intact]
    | cons name later =>
      rintro ⟨entry, fault, refused⟩
      rw [not_or] at entry
      cases remaining with
      | reading reading _ =>
        have member := ((reading.entries name (by simp)).resolve_left entry.1).resolve_left entry.2
        obtain ⟨st, told⟩ := faultless.shown _ _ (reading.leads.snoc member) (by simp)
        rw [reading.frame_eq, frameAt, ← absoluteOf_snoc, told] at refused
        cases refused

theorem ScanMove.intact {n : Nat} (move : ScanMove context s t events) (faultless : Faultless context tree)
    (remaining : Remaining context tree s.stage s.stack.items n) (intact : s.stage.Intact)
    (unfailed : t.stage.Unfailed) : t.stage.Intact := by
  cases move with
  | opened frame rest dir stage items opened =>
    rw [stage, items] at remaining
    cases remaining with
    | popping stacked =>
      cases stacked with
      | cons leads =>
        obtain ⟨_, again, whole⟩ := faultless.listed _ _ _ leads
        rw [show context.files.opendir (absoluteOf context.root _) = _ from opened] at again
        cases again
        exact whole
  | started => trivial
  | finished => rfl
  | readEnded => trivial
  | dots frame name rest fault stage => rwa [stage] at intact
  | descended frame name rest fault st capacity stage => rwa [stage] at intact
  | indexed frame name rest fault st allocs index stage => rwa [stage] at intact
  | passed frame name rest fault st stage => rwa [stage] at intact
  | startFailed => exact unfailed _ rfl
  | openFailed => exact unfailed _ rfl
  | readFailed => exact unfailed _ rfl
  | entryFailed => exact unfailed _ rfl

/-! ## Whole scans -/

/-- All calls have returned zero, and so has the scan if it is over; or a call has failed
and ended the scan with its code. -/
def ScanStage.Coded (stage : ScanStage) (events : List ScanEvent) : Prop :=
  (∀ event ∈ events, event.rc = 0) ∧ (∀ rc, stage = .returned rc → rc = 0) ∨
  ∃ rc, stage = .returned rc ∧ rc ≠ 0 ∧ ∃ event ∈ events, event.rc = rc

theorem ScanMove.codes (move : ScanMove context s t events) : t.stage.Coded events := by
  cases move with
  | startFailed call rc _ failed => exact .inr ⟨rc, rfl, failed, _, List.mem_singleton_self _, rfl⟩
  | openFailed frame rest fault => exact .inr ⟨_, rfl, fault.nonzero, _, List.mem_singleton_self _, rfl⟩
  | readFailed frame fault => exact .inr ⟨_, rfl, fault.nonzero, _, List.mem_singleton_self _, rfl⟩
  | entryFailed frame name rest fault call rc index _ failed =>
    exact .inr ⟨rc, rfl, failed, ⟨call, rc⟩, by simp, rfl⟩
  | finished => exact .inl ⟨by simp, by simp⟩
  | started => exact .inl ⟨by simp, by simp⟩
  | opened => exact .inl ⟨by simp, by simp⟩
  | readEnded => exact .inl ⟨by simp, by simp⟩
  | dots => exact .inl ⟨by simp, by simp⟩
  | descended => exact .inl ⟨by simp, by simp⟩
  | indexed => exact .inl ⟨by simp, by simp⟩
  | passed => exact .inl ⟨by simp, by simp⟩

section
variable {index : FileIndex} (wf : index.WellFormed context.hashPath) (empty : index.entries = [])
  {progress : ProgressState} {trace : List ScanEvent} {rc : Rc}
include wf empty

theorem Scanning.start : Scanning context tree (scanStart index progress) := by
  refine ⟨wf, ⟨_, .starting⟩, fun _ => ⟨fun path info found => ?_, fun _ _ _ => .inr (.start rfl)⟩⟩
  have absent : fileIndexFind context.hashPath index path = none :=
    wf.find_absent (by simp [FileIndex.keys, empty])
  rw [show fileIndexFind context.hashPath index path = some info from found] at absent
  cases absent

variable (scannable : Scannable context tree)
include scannable

theorem ScanRun.scanning (run : ScanRun context index progress s trace) : Scanning context tree s := by
  refine Run.invariant (fun s _ => Scanning context tree s) (.start wf empty) ?_ run
  intro s t trace events allocs _ before _ stepped
  exact (scanStep_some before.wf stepped).1.scanning scannable before

theorem ScanRun.codes (run : ScanRun context index progress s trace) : s.stage.Coded trace := by
  refine Run.invariant (fun s trace => s.stage.Coded trace) (.inl (by simp [scanStart])) ?_ run
  intro s t trace events allocs earlier before _ stepped
  obtain ⟨move, running⟩ := scanStep_some (ScanRun.scanning wf empty scannable earlier).wf stepped
  rcases before with ⟨clean, _⟩ | ⟨rc, returned, _⟩
  · rcases move.codes with ⟨fine, zero⟩ | ⟨rc, returned, failed, event, member, code⟩
    · refine .inl ⟨fun event member => ?_, zero⟩
      rcases List.mem_append.mp member with old | new
      · exact clean event old
      · exact fine event new
    · exact .inr ⟨rc, returned, failed, event, List.mem_append_right _ member, code⟩
  -- A scan that has ended takes no further step.
  · exact absurd returned (running rc)

theorem ScanRun.clean_iff {rc : Rc} (run : ScanRun context index progress s trace) (returned : s.stage = .returned rc) :
    rc = 0 ↔ ∀ event ∈ trace, event.rc = 0 := by
  rcases ScanRun.codes wf empty scannable run with ⟨clean, zero⟩ | ⟨code, stage, failed, event, member, same⟩
  · exact ⟨fun _ => clean, fun _ => zero rc returned⟩
  · rw [returned] at stage
    cases stage
    exact ⟨fun zero => absurd zero failed, fun clean => (same ▸ clean event member : rc = 0)⟩

/-- Whatever the allocations do, the scan returns within a number of steps the tree fixes. -/
theorem scan_ends : ∃ n, ∀ choices : List ScanAllocs, n ≤ choices.length → ∃ k s trace rc,
    perform (scanStep context) (choices.take k) (scanStart index progress) = some (s, trace) ∧
      s.stage = .returned rc := by
  refine ⟨tree.cost context.files context.root + 2, fun choices enough => ?_⟩
  have started : Scanning context tree (scanStart index progress) := .start wf empty
  have lowers : ∀ s n, Scanning context tree s ∧ Remaining context tree s.stage s.stack.items n →
      (¬∃ rc, s.stage = .returned rc) → 0 < n ∧ ∀ allocs, ∃ t events m,
        scanStep context s allocs = some (t, events) ∧
          (Scanning context tree t ∧ Remaining context tree t.stage t.stack.items m) ∧ m < n := by
    rintro s n ⟨scanning, remaining⟩ running
    rw [not_exists] at running
    refine ⟨remaining.positive running, fun allocs => ?_⟩
    obtain ⟨t, events, stepped, move⟩ := scanStep_move scanning.wf running allocs
    obtain ⟨m, less, below⟩ := move.lowers scannable.mounted scannable.directory remaining
    exact ⟨t, events, m, stepped, ⟨move.scanning scannable scanning, less⟩, below⟩
  obtain ⟨k, s, trace, performed, rc, returned⟩ := perform_ends _ _ lowers ⟨started, .starting⟩ choices enough
  exact ⟨k, s, trace, rc, performed, returned⟩

theorem ScanRun.met (run : ScanRun context index progress s trace) (returned : s.stage = .returned 0)
    {components : List CString} {node : Node} (leads : tree.Leads components node) :
    Met context s.index components node := by
  have scanning := ScanRun.scanning wf empty scannable run
  have indexes := scanning.indexes (by rw [returned]; exact rfl)
  refine (indexes.complete components node leads).resolve_right fun waiting => ?_
  cases waiting with
  | start stage => rw [returned] at stage; cases stage
  | pending _ stage => rw [returned] at stage; cases stage
  | stacked _ _ member =>
    obtain ⟨_, remaining⟩ := scanning.bounded
    rw [returned] at remaining
    cases remaining with
    | returned empty =>
      rw [empty rfl] at member
      cases member

theorem ScanRun.faultless (run : ScanRun context index progress s trace) (returned : s.stage = .returned 0) :
    Faultless context tree :=
  ⟨fun _ _ leads => (ScanRun.met wf empty scannable run returned leads).1,
    fun _ _ _ leads => (ScanRun.met wf empty scannable run returned leads).2⟩

theorem ScanRun.granted (run : ScanRun context index progress s trace) (unfailed : s.stage.Unfailed) :
    Run (scanStep context) (ScanGranted context) (scanStart index progress) s trace := by
  -- A step that has not failed had its allocations.
  refine Run.invariant (fun s trace => s.stage.Unfailed →
    Run (scanStep context) (ScanGranted context) (scanStart index progress) s trace) (fun _ => .start) ?_ run unfailed
  intro s t trace events allocs earlier before _ stepped unfailed
  have wf := (ScanRun.scanning wf empty scannable earlier).wf
  obtain ⟨_, running⟩ := scanStep_some wf stepped
  exact (before fun rc returned => absurd returned (running rc)).next
    ((scanStep_unfailed_iff stepped wf).mp unfailed).1 stepped

theorem ScanRun.intact (faultless : Faultless context tree)
    (run : Run (scanStep context) (ScanGranted context) (scanStart index progress) s trace) : s.stage.Intact := by
  -- Nothing fails where the allocations are granted and the file system refuses nothing.
  refine Run.invariant (fun s _ => s.stage.Intact) trivial ?_ run
  intro s t trace events allocs earlier before granted stepped
  have scanning := ScanRun.scanning wf empty scannable (earlier.weaken fun _ _ _ => trivial)
  obtain ⟨move, _⟩ := scanStep_some scanning.wf stepped
  obtain ⟨_, remaining⟩ := scanning.bounded
  exact move.intact faultless remaining before
    ((scanStep_unfailed_iff stepped scanning.wf).mpr ⟨granted, remaining.accepted faultless before⟩)

/-- A scan returns zero exactly when all its allocations are granted and the file system refuses
no call for the tree. -/
theorem ScanRun.zero_iff {rc : Rc} (run : ScanRun context index progress s trace) (returned : s.stage = .returned rc) :
    rc = 0 ↔ Faultless context tree ∧
      Run (scanStep context) (ScanGranted context) (scanStart index progress) s trace := by
  constructor
  · rintro rfl
    have unfailed : s.stage.Unfailed := fun rc again => by rw [returned] at again; cases again; rfl
    exact ⟨ScanRun.faultless wf empty scannable run returned, ScanRun.granted wf empty scannable run unfailed⟩
  · rintro ⟨faultless, granted⟩
    have intact := ScanRun.intact wf empty scannable faultless granted
    rwa [returned] at intact

/-- A scan that returns zero has the tree's files as its map. -/
theorem ScanRun.find_iff (run : ScanRun context index progress s trace) (returned : s.stage = .returned 0)
    {path : CString} {info : FileInfo} : fileIndexFind context.hashPath s.index path = some info ↔
      info.path = path ∧ ∃ components, tree.Leads components (.file info.size info.mtime) ∧
        path.bytes = joined components := by
  have scanning := ScanRun.scanning wf empty scannable run
  have indexes := scanning.indexes (by rw [returned]; exact rfl)
  constructor
  · intro found
    obtain ⟨components, leads, rfl⟩ := indexes.sound path info found
    exact ⟨scanning.wf.find_path found, components, leads, relativeOf_bytes (scannable.file_named leads).2⟩
  · rintro ⟨rfl, components, leads, bytes⟩
    have here : info.path = relativeOf components :=
      CString.ext (bytes.trans (relativeOf_bytes (scannable.file_named leads).2).symm)
    obtain ⟨_, other, found, size, mtime⟩ := ScanRun.met wf empty scannable run returned leads
    rw [here, found]
    have path := scanning.wf.find_path found
    cases info
    cases other
    simp_all

theorem ScanRun.mem_keys (run : ScanRun context index progress s trace) (returned : s.stage = .returned 0)
    {path : CString} : path ∈ s.index.keys ↔
      ∃ components size mtime, tree.Leads components (.file size mtime) ∧ path.bytes = joined components := by
  rw [(ScanRun.scanning wf empty scannable run).wf.mem_keys, Option.isSome_iff_exists]
  constructor
  · rintro ⟨info, found⟩
    obtain ⟨_, components, leads, bytes⟩ := (ScanRun.find_iff wf empty scannable run returned).mp found
    exact ⟨components, _, _, leads, bytes⟩
  · rintro ⟨components, size, mtime, leads, bytes⟩
    exact ⟨⟨path, size, mtime⟩,
      (ScanRun.find_iff wf empty scannable run returned).mpr ⟨rfl, components, leads, bytes⟩⟩

end

/-- A scan of a tree into an empty index ends. It returns zero exactly when the file system refuses no
call for the tree and every allocation is granted, and then the index holds the tree's files and nothing
else, whatever the order of the entries. -/
theorem scan_directory_covers {index : FileIndex} (scannable : Scannable context tree)
    (wf : index.WellFormed context.hashPath) (empty : index.entries = []) (progress : ProgressState) :
    (∃ n, ∀ choices : List ScanAllocs, n ≤ choices.length → ∃ k s trace rc,
      perform (scanStep context) (choices.take k) (scanStart index progress) = some (s, trace) ∧
        s.stage = .returned rc) ∧
    ∀ s trace rc, ScanRun context index progress s trace → s.stage = .returned rc →
      (rc = 0 ↔ Faultless context tree ∧
        Run (scanStep context) (ScanGranted context) (scanStart index progress) s trace) ∧
      (rc = 0 ↔ ∀ event ∈ trace, event.rc = 0) ∧
      (rc = 0 → s.index.keys.Nodup ∧
        (∀ path, path ∈ s.index.keys ↔ ∃ components size mtime,
          tree.Leads components (.file size mtime) ∧ path.bytes = joined components) ∧
        (∀ components size mtime path, tree.Leads components (.file size mtime) →
          path.bytes = joined components →
          fileIndexFind context.hashPath s.index path = some ⟨path, size, mtime⟩) ∧
        (∀ first second size mtime size' mtime', tree.Leads first (.file size mtime) →
          tree.Leads second (.file size' mtime') → joined first = joined second → first = second) ∧
        (∀ components node path, tree.Leads components node → path.bytes = joined components →
          path ∈ s.index.keys → ∃ size mtime, node = .file size mtime) ∧
        ∀ (other : ScanContext) otherIndex otherProgress t later, Scannable other tree →
          otherIndex.WellFormed other.hashPath → otherIndex.entries = [] →
          ScanRun other otherIndex otherProgress t later → t.stage = .returned 0 →
          ∀ path, fileIndexFind other.hashPath t.index path =
            fileIndexFind context.hashPath s.index path) := by
  refine ⟨scan_ends wf empty scannable, fun s trace rc run returned =>
    ⟨ScanRun.zero_iff wf empty scannable run returned, ScanRun.clean_iff wf empty scannable run returned, ?_⟩⟩
  rintro rfl
  refine ⟨(ScanRun.scanning wf empty scannable run).wf.distinct,
    fun path => ScanRun.mem_keys wf empty scannable run returned, ?_, ?_, ?_, ?_⟩
  · intro components size mtime path leads bytes
    exact (ScanRun.find_iff wf empty scannable run returned).mpr ⟨rfl, components, leads, bytes⟩
  · intro first second size mtime size' mtime' left right
    exact scannable.joined_inj left right
  · intro components node path leads bytes member
    obtain ⟨others, size, mtime, file, named⟩ :=
      (ScanRun.mem_keys wf empty scannable run returned).mp member
    obtain rfl := scannable.joined_inj leads file (bytes.symm.trans named)
    exact ⟨size, mtime, leads.unique file⟩
  · intro other otherIndex otherProgress t later otherScannable otherWf otherEmpty otherRun otherReturned path
    apply Option.ext
    intro info
    rw [ScanRun.find_iff wf empty scannable run returned,
      ScanRun.find_iff otherWf otherEmpty otherScannable otherRun otherReturned]

def sampleTree : Node :=
  .dir [⟨[102], by decide⟩, ⟨[100], by decide⟩, ⟨[108], by decide⟩] fun name =>
    match name.bytes with
    | [102] => .file 3 7
    | [100] => .dir [⟨[103], by decide⟩] fun _ => .file 5 9
    | _ => .symlink

def sampleScan (backwards : Bool) : ScanContext where
  root := ⟨[114], by decide⟩
  hashPath := vdHashPath
  phase := .scanA
  files :=
    let top := [dot, ⟨[102], by decide⟩, dotDot, ⟨[100], by decide⟩, ⟨[108], by decide⟩]
    { lstat := fun path =>
        match path.bytes with
        | [114, 47, 102] => .ok ⟨.regular, 3, 7⟩
        | [114, 47, 100] => .ok ⟨.directory, 4096, 1⟩
        | [114, 47, 108] => .ok ⟨.symlink, 1, 1⟩
        | [114, 47, 100, 47, 103] => .ok ⟨.regular, 5, 9⟩
        | _ => .error .ENOENT
      opendir := fun path =>
        match path.bytes with
        | [114] => .ok ⟨if backwards then top.reverse else top, none⟩
        | [114, 47, 100] => .ok ⟨[⟨[103], by decide⟩, dot, dotDot], none⟩
        | _ => .error .ENOENT
      openFile := fun _ => .error .ENOENT }

def sampleVacant : FileIndex := ⟨List.replicate 16 none, 16, 0⟩

theorem sampleScan_scannable (backwards : Bool) : Scannable (sampleScan backwards) sampleTree := by
  refine ⟨⟨_, _, rfl⟩, ?_, ?_⟩
  · intro name member
    simp only [List.mem_cons, List.not_mem_nil, or_false] at member
    rcases member with rfl | rfl | rfl
    · exact ⟨.ofByte (by decide) (by decide), trivial⟩
    · refine ⟨.ofByte (by decide) (by decide), ?_⟩
      intro name member
      rw [List.mem_singleton] at member
      subst member
      exact ⟨.ofByte (by decide) (by decide), trivial⟩
    · exact ⟨.ofByte (by decide) (by decide), trivial⟩
  · refine ⟨?_, ?_⟩
    · rintro stream opened
      obtain rfl := Except.ok.inj opened
      cases backwards
      · exact ⟨by decide, fun _ => by decide⟩
      · exact ⟨by decide, fun _ => by decide⟩
    · intro name member
      simp only [List.mem_cons, List.not_mem_nil, or_false] at member
      rcases member with rfl | rfl | rfl
      · exact ⟨fun stat shown => (Except.ok.inj shown).symm, trivial⟩
      · refine ⟨fun stat shown => congrArg Stat.kind (Except.ok.inj shown).symm, ?_, ?_⟩
        · intro stream opened
          obtain rfl := Except.ok.inj opened
          exact ⟨by decide, fun _ => by decide⟩
        · intro name member
          rw [List.mem_singleton] at member
          subst member
          exact ⟨fun stat shown => (Except.ok.inj shown).symm, trivial⟩
      · exact ⟨fun stat shown => congrArg Stat.kind (Except.ok.inj shown).symm, trivial⟩

/-- Both orders give the same map. -/
theorem scan_directory_covers_sample : ∃ s trace t later path,
    ScanRun (sampleScan false) sampleVacant progressInit s trace ∧ s.stage = .returned 0 ∧
    (∀ event ∈ trace, event.rc = 0) ∧ Faultless (sampleScan false) sampleTree ∧
    ScanRun (sampleScan true) sampleVacant progressInit t later ∧ t.stage = .returned 0 ∧
    path.bytes = [100, 47, 103] ∧ fileIndexFind vdHashPath s.index path = some ⟨path, 5, 9⟩ ∧
    fileIndexFind vdHashPath t.index path = some ⟨path, 5, 9⟩ := by
  let choices : List ScanAllocs := List.replicate 14 ⟨true, true, true, true, true⟩
  have wf : sampleVacant.WellFormed vdHashPath := wellFormed_vacant ⟨4, by decide, rfl⟩ (by decide)
  have runs : ∀ backwards, ∃ s trace, ScanRun (sampleScan backwards) sampleVacant progressInit s trace ∧
      s.stage = .returned 0 := by
    intro backwards
    have ends : (perform (scanStep (sampleScan backwards)) choices (scanStart sampleVacant progressInit)).map
        (fun run => run.1.stage) = some (.returned 0) := by
      cases backwards <;> decide +kernel
    obtain ⟨⟨s, trace⟩, performed, returned⟩ := Option.map_eq_some_iff.mp ends
    exact ⟨s, trace, Run.of_perform (fun _ _ _ => trivial) performed, returned⟩
  obtain ⟨s, trace, run, returned⟩ := runs false
  obtain ⟨t, later, again, stopped⟩ := runs true
  obtain ⟨_, covers⟩ := scan_directory_covers (sampleScan_scannable false) wf rfl progressInit
  obtain ⟨zero, clean, map⟩ := covers s trace 0 run returned
  obtain ⟨_, _, stored, _, _, orders⟩ := map rfl
  have file : sampleTree.Leads [⟨[100], by decide⟩, ⟨[103], by decide⟩] (.file 5 9) :=
    .inside (by decide) (.inside (by decide) .here)
  let path : CString := ⟨[100, 47, 103], by decide⟩
  have found := stored _ _ _ path file rfl
  exact ⟨s, trace, t, later, path, run, returned, clean.mp rfl, (zero.mp rfl).1, again, stopped, rfl, found,
    (orders _ _ _ t later (sampleScan_scannable true) wf rfl again stopped path).trans found⟩

end Verdiff
