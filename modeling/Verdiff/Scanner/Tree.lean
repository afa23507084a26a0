import Mathlib.Data.List.Induction
import Verdiff.Paths
import Verdiff.Syscalls

/-! Finite directory trees, the paths into them, and file systems that show one.

A tree is what the scanner is meant to see. A file system shows it when `opendir` lists
exactly the entries of each directory, in whatever order and with the two dot names
among them, and `lstat` tells what each entry is.
-/

set_option autoImplicit false

namespace Verdiff

inductive Node where
  | file (size mtime : Int)
  | symlink
  | special
  | dir (names : List CString) (child : CString → Node)

def dot : CString := ⟨[46], by decide⟩

def dotDot : CString := ⟨[46, 46], by decide⟩

structure EntryName (name : CString) : Prop where
  nonempty : name.bytes ≠ []
  noSlash : slash ∉ name.bytes
  notDot : name ≠ dot
  notDotDot : name ≠ dotDot

theorem EntryName.ofByte {byte : UInt8} {nul : 0 ∉ [byte]} (apart : byte ≠ slash) (notDot : byte ≠ 46) :
    EntryName ⟨[byte], nul⟩ := by
  refine ⟨by simp, by simpa [eq_comm] using apart, ?_, ?_⟩
  · simpa [dot] using notDot
  · simp [dotDot]

/-- The stream names nothing but entries and dots, and without a fault all entries. -/
structure DirStream.Lists (stream : DirStream) (names : List CString) : Prop where
  only : ∀ name ∈ stream.names, name = dot ∨ name = dotDot ∨ name ∈ names
  all : stream.fault = none → ∀ name ∈ names, name ∈ stream.names

/-! ## Paths -/

def relativeOf (components : List CString) : CString := components.foldl vdNormalizeJoinedRelative .empty

def absoluteOf (root : CString) (components : List CString) : CString := components.foldl vdJoinPath root

@[simp] theorem relativeOf_snoc (components : List CString) (name : CString) :
    relativeOf (components ++ [name]) = vdNormalizeJoinedRelative (relativeOf components) name := by
  simp [relativeOf]

@[simp] theorem absoluteOf_snoc (root : CString) (components : List CString) (name : CString) :
    absoluteOf root (components ++ [name]) = vdJoinPath (absoluteOf root components) name := by
  simp [absoluteOf]

def joined (components : List CString) : Bytes := [slash].intercalate (components.map CString.bytes)

theorem joined_shift (first name : CString) (rest : List CString) :
    joined ((first ++ separator ++ name) :: rest) = joined (first :: name :: rest) := by
  simp only [joined, List.map_cons, List.intercalate_cons_cons, CString.bytes_append]
  cases rest with
  | nil => simp [separator]
  | cons next rest => simp [separator, List.intercalate_cons_cons]

theorem foldl_normalize {first : CString} (nonempty : first.bytes ≠ []) (rest : List CString) :
    (rest.foldl vdNormalizeJoinedRelative first).bytes = joined (first :: rest) := by
  induction rest generalizing first with
  | nil => simp [joined]
  | cons name rest ih =>
    have extended : vdNormalizeJoinedRelative first name = first ++ separator ++ name := by
      simp [vdNormalizeJoinedRelative, List.length_pos_iff.mpr nonempty]
    rw [List.foldl_cons, extended, ih (by simp [nonempty]), joined_shift]

theorem relativeOf_bytes {components : List CString} (named : ∀ name ∈ components, EntryName name) :
    (relativeOf components).bytes = joined components := by
  cases components with
  | nil => rfl
  | cons name rest =>
    have nonempty := (named name (by simp)).nonempty
    have first : vdNormalizeJoinedRelative .empty name = name := by simp [vdNormalizeJoinedRelative]
    rw [relativeOf, List.foldl_cons, first, foldl_normalize nonempty]

theorem joined_injective {first second : List CString} (left : ∀ name ∈ first, EntryName name)
    (right : ∀ name ∈ second, EntryName name) (some₁ : first ≠ []) (some₂ : second ≠ [])
    (same : joined first = joined second) : first = second := by
  -- Without slashes in the names the joined path still tells them.
  have split : ∀ {components : List CString}, (∀ name ∈ components, EntryName name) → components ≠ [] →
      (joined components).splitOn slash = components.map CString.bytes := by
    intro components named some_
    apply List.splitOn_intercalate
    · intro bytes member
      obtain ⟨name, inside, rfl⟩ := List.mem_map.mp member
      exact (named name inside).noSlash
    · simpa using some_
  apply List.map_injective_iff.mpr CString.bytes_injective
  rw [← split left some₁, ← split right some₂, same]

theorem joined_ne_nil {components : List CString} (named : ∀ name ∈ components, EntryName name)
    (some_ : components ≠ []) : joined components ≠ [] := by
  cases components with
  | nil => exact absurd rfl some_
  | cons name rest =>
    have nonempty := (named name (by simp)).nonempty
    cases rest with
    | nil => simpa [joined] using nonempty
    | cons next rest => simp [joined, List.intercalate_cons_cons]

theorem EntryName.openEnded {name : CString} (entry : EntryName name) : name.OpenEnded := by
  refine ⟨entry.nonempty, fun last => ?_⟩
  exact entry.noSlash (List.mem_of_getLast? last)

theorem relativeOf_openEnded {components : List CString} (named : ∀ name ∈ components, EntryName name)
    (some_ : components ≠ []) : (relativeOf components).OpenEnded := by
  obtain ⟨front, name, rfl⟩ := List.eq_nil_or_concat components |>.resolve_left some_
  have ends := (named name (by simp)).openEnded
  rw [List.concat_eq_append, relativeOf_snoc, vdNormalizeJoinedRelative]
  split
  · exact ends.append
  · exact ends

/-- The file a key names is the file the scanner has found under it. -/
theorem vdJoinPath_relativeOf {root : CString} {components : List CString}
    (named : ∀ name ∈ components, EntryName name) (some_ : components ≠ []) :
    vdJoinPath root (relativeOf components) = absoluteOf root components := by
  induction components using List.reverseRecOn with
  | nil => exact absurd rfl some_
  | append_singleton front name ih =>
    have namedFront : ∀ other ∈ front, EntryName other := fun other member => named other (by simp [member])
    rw [relativeOf_snoc, absoluteOf_snoc]
    by_cases deeper : front = []
    · subst deeper
      simp [relativeOf, absoluteOf, vdNormalizeJoinedRelative]
    · rw [← vdJoinPath_joined (relativeOf_openEnded namedFront deeper), ih namedFront deeper]

/-! ## Trees -/

namespace Node

def WellNamed : Node → Prop
  | .dir names child => ∀ name ∈ names, EntryName name ∧ (child name).WellNamed
  | _ => True

/-- The node some components lead to, through real directories only. -/
inductive Leads : Node → List CString → Node → Prop where
  | here {node : Node} : Leads node [] node
  | inside {names : List CString} {child : CString → Node} {name : CString} {rest : List CString}
      {node : Node} : name ∈ names → Leads (child name) rest node → Leads (.dir names child) (name :: rest) node

def Shows : Node → Stat → Prop
  | .file size mtime, stat => stat = ⟨.regular, size, mtime⟩
  | .symlink, stat => stat.kind = .symlink
  | .special, stat => stat.kind = .special
  | .dir _ _, stat => stat.kind = .directory

/-- The file system shows the tree below a path: what the calls say that succeed. -/
def Mounted (files : FileSystem) : Node → CString → Prop
  | .dir names child, path =>
    (∀ stream, files.opendir path = .ok stream → stream.Lists names) ∧
    ∀ name ∈ names, (∀ stat, files.lstat (vdJoinPath path name) = .ok stat → (child name).Shows stat) ∧
      (child name).Mounted files (vdJoinPath path name)
  | _, _ => True

variable {tree node : Node} {names components rest : List CString} {child : CString → Node}
  {name : CString} {files : FileSystem} {root : CString}

theorem Shows.directory {st : Stat} (shows : node.Shows st) (kind : st.kind = .directory) :
    ∃ names child, node = .dir names child := by
  cases node with
  | file size mtime => rw [show st = _ from shows] at kind; cases kind
  | symlink => rw [show st.kind = _ from shows] at kind; cases kind
  | special => rw [show st.kind = _ from shows] at kind; cases kind
  | dir names child => exact ⟨names, child, rfl⟩

theorem Shows.regular {st : Stat} (shows : node.Shows st) (kind : st.kind = .regular) :
    node = .file st.size st.mtime := by
  cases node with
  | file size mtime => rw [show st = _ from shows]
  | symlink => rw [show st.kind = _ from shows] at kind; cases kind
  | special => rw [show st.kind = _ from shows] at kind; cases kind
  | dir names child => rw [show st.kind = _ from shows] at kind; cases kind

theorem Shows.leaf {st : Stat} {other : Node} (shows : node.Shows st) (kind : st.kind ≠ .directory)
    (leads : node.Leads rest other) : rest = [] ∧ other = node := by
  cases leads with
  | here => exact ⟨rfl, rfl⟩
  | inside => exact absurd shows kind

theorem Leads.unique {other : Node} (first : tree.Leads components node) (second : tree.Leads components other) :
    node = other := by
  induction first with
  | here => cases second; rfl
  | inside _ _ ih =>
    cases second with
    | inside _ later => exact ih later

theorem Leads.append (leads : tree.Leads components node) :
    tree.Leads (components ++ rest) = node.Leads rest := by
  induction leads with
  | here => rfl
  | inside member _ ih =>
    funext other
    rw [List.cons_append, ← ih]
    apply propext
    constructor
    · intro deeper
      cases deeper with
      | inside _ later => exact later
    · exact fun later => .inside member later

theorem Leads.snoc (leads : tree.Leads components (.dir names child)) (member : name ∈ names) :
    tree.Leads (components ++ [name]) (child name) := by
  rw [leads.append]
  exact .inside member .here

theorem Leads.entry (leads : (Node.dir names child).Leads (name :: rest) node) :
    name ∈ names ∧ (child name).Leads rest node := by
  -- What lies below a directory lies behind one of its entries.
  cases leads with
  | inside member later => exact ⟨member, later⟩

theorem Leads.wellNamed (leads : tree.Leads components node) (named : tree.WellNamed) :
    node.WellNamed ∧ ∀ name ∈ components, EntryName name := by
  induction leads with
  | here => exact ⟨named, by simp⟩
  | inside member _ ih =>
    obtain ⟨entry, inside⟩ := named _ member
    obtain ⟨deeper, others⟩ := ih inside
    refine ⟨deeper, ?_⟩
    rintro name (_ | ⟨_, later⟩)
    · exact entry
    · exact others name later

theorem Leads.mounted (leads : tree.Leads components node) (mounted : tree.Mounted files root) :
    node.Mounted files (absoluteOf root components) := by
  induction leads generalizing root with
  | here => exact mounted
  | inside member _ ih => exact ih (mounted.2 _ member).2

/-! ## The work a scan has -/

def streamNames (files : FileSystem) (path : CString) : List CString :=
  match files.opendir path with
  | .ok stream => stream.names
  | .error _ => []

/-- A bound on the steps a scan takes for the directory at a path: to open it, one for each
name and for what is below it, and one for the end of the stream. -/
def cost (files : FileSystem) : Node → CString → Nat
  | .dir _ child, path =>
    2 + ((streamNames files path).map fun name => 1 + (child name).cost files (vdJoinPath path name)).sum
  | _, _ => 0

theorem cost_dir (files : FileSystem) (names : List CString) (child : CString → Node) (path : CString) :
    (Node.dir names child).cost files path = 2 + ((streamNames files path).map fun name =>
      1 + (child name).cost files (vdJoinPath path name)).sum := rfl

end Node

end Verdiff
