import Verdiff.Common

/-! Building paths: the join used for opening files and the join of relative paths. -/

set_option autoImplicit false

namespace Verdiff

def slash : UInt8 := 47

def separator : CString := ⟨[slash], by decide⟩

/-- The file a relative path names below a root; a root's own final slash is kept. -/
def vdJoinPath (root relative : CString) : CString :=
  let needSep := decide (root.bytes.length > 0) && root.bytes.getLast? != some slash
  if needSep then root ++ separator ++ relative else root ++ relative

def vdNormalizeJoinedRelative (parentRel name : CString) : CString :=
  if parentRel.bytes.length > 0 then parentRel ++ separator ++ name else name

/-! ## What a join puts in front -/

theorem CString.append_assoc (first second third : CString) :
    first ++ second ++ third = first ++ (second ++ third) := by
  ext1
  simp

structure CString.OpenEnded (path : CString) : Prop where
  nonempty : path.bytes ≠ []
  noSlash : path.bytes.getLast? ≠ some slash

theorem CString.OpenEnded.append {front path : CString} (ends : path.OpenEnded) : (front ++ path).OpenEnded := by
  refine ⟨by simp [ends.nonempty], ?_⟩
  rw [CString.bytes_append, List.getLast?_append_of_ne_nil _ ends.nonempty]
  exact ends.noSlash

def joinPrefix (root : CString) : CString := vdJoinPath root .empty

theorem vdJoinPath_eq (root relative : CString) : vdJoinPath root relative = joinPrefix root ++ relative := by
  unfold joinPrefix vdJoinPath
  ext1
  simp only
  split <;> simp

theorem joinPrefix_openEnded {root : CString} (ends : root.OpenEnded) : joinPrefix root = root ++ separator := by
  unfold joinPrefix vdJoinPath
  ext1
  simp [ends.noSlash, List.length_pos_iff.mpr ends.nonempty]

theorem vdJoinPath_joined {root path : CString} (ends : path.OpenEnded) (name : CString) :
    vdJoinPath (vdJoinPath root path) name = vdJoinPath root (vdNormalizeJoinedRelative path name) := by
  have extended : vdNormalizeJoinedRelative path name = path ++ separator ++ name := by
    simp [vdNormalizeJoinedRelative, List.length_pos_iff.mpr ends.nonempty]
  rw [extended, vdJoinPath_eq root, vdJoinPath_eq root, vdJoinPath_eq _ name, joinPrefix_openEnded ends.append]
  simp only [CString.append_assoc]

end Verdiff
