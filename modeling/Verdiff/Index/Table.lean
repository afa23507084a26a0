import Verdiff.Common
import Verdiff.Library.Probing

/-! The path index: an open-addressing table that doubles at seventy percent load.

A slot that is not occupied has no other content, so a slot is an optional entry.
A stored key is the string the arena copied. `size_t` arithmetic wraps at the word
size. An operation has no result where one of its loops would never end.
-/

set_option autoImplicit false

namespace Verdiff

/-- `sizeof(IndexSlot)`. -/
def slotSize : Nat := 48

/-- `calloc` refuses a product that does not fit a word; otherwise it may fail or not. -/
def callocOk (count size : Nat) (ok : Bool) : Bool := ok && decide (count * size < wordSize)

structure IndexSlot where
  key : CString
  value : FileInfo
  hash : UInt64
  deriving DecidableEq

structure FileIndex where
  slots : List (Option IndexSlot)
  capacity : Nat
  count : Nat
  deriving DecidableEq

def nextPow2Loop : Nat → Nat → Nat → Option Nat
  | 0, _, _ => none
  | fuel + 1, n, value =>
    if n < value then nextPow2Loop fuel (n * 2 % wordSize) value else some n

/-- Sixty-four doublings empty the word, so a search this long goes on for ever. -/
def nextPow2 (value : Nat) : Option Nat := nextPow2Loop 64 16 value

def vdHashPath (key : CString) : UInt64 :=
  key.bytes.foldl (fun hash byte => (hash ^^^ byte.toUInt64) * 1099511628211) 1469598103934665603

/-- `capacity - 1`, which wraps for zero. -/
def probeMask (capacity : Nat) : Nat := (capacity + (wordSize - 1)) % wordSize

def probeIndex (hash : UInt64) (capacity : Nat) : Nat := hash.toNat &&& probeMask capacity

def nextProbe (capacity pos : Nat) : Nat := (pos + 1) % wordSize &&& probeMask capacity

/-- The loop over the old slots. Each occupied one goes to the first vacant position
from its home on. -/
def rehashSlots : List (Option IndexSlot) → FileIndex → Option FileIndex
  | [], index => some index
  | none :: rest, index => rehashSlots rest index
  | some slot :: rest, index =>
    match Probing.search index.slots (nextProbe index.capacity) (fun _ => false) index.capacity
        (probeIndex slot.hash index.capacity) with
    | some (pos, _) => rehashSlots rest { index with
        slots := index.slots.set pos (some slot)
        count := index.count + 1 }
    | none => none

def fileIndexRehash (index : FileIndex) (newCapacity : Nat) (slotsOk : Bool) : Option (Rc × FileIndex) :=
  if callocOk newCapacity slotSize slotsOk then
    match rehashSlots index.slots ⟨List.replicate newCapacity none, newCapacity, 0⟩ with
    | some moved => some (0, moved)
    | none => none
  else some (Fault.ENOMEM.code, index)

def fileIndexInit (initialCapacity : Nat) (slotsOk : Bool) : Option (Rc × FileIndex) :=
  match nextPow2 (if initialCapacity = 0 then 16 else initialCapacity) with
  | none => none
  | some capacity =>
    if callocOk capacity slotSize slotsOk then some (0, ⟨List.replicate capacity none, capacity, 0⟩)
    else some (Fault.ENOMEM.code, ⟨[], 0, 0⟩)

/-- The position the probe stops at, with the slot's content when it holds the path. -/
def fileIndexFindSlot (index : FileIndex) (path : CString) (hash : UInt64) :
    Option (Nat × Option IndexSlot) :=
  if index.capacity = 0 then some (0, none)
  else Probing.search index.slots (nextProbe index.capacity)
    (fun slot => slot.hash == hash && strcmp slot.key path == 0) index.capacity
    (probeIndex hash index.capacity)

structure UpsertAllocs where
  slotsOk : Bool
  copyOk : Bool
  deriving DecidableEq

section
variable (hashPath : CString → UInt64)

/-- `NULL` also stands for a probe that never ends; `findSlot_total` rules that out. -/
def fileIndexFind (index : FileIndex) (path : CString) : Option FileInfo :=
  match fileIndexFindSlot index path (hashPath path) with
  | some (_, some slot) => some slot.value
  | _ => none

def fileIndexFindConst (index : FileIndex) (path : CString) : Option FileInfo :=
  fileIndexFind hashPath index path

def fileIndexReserve (index : FileIndex) (slotsOk : Bool) : Option (Rc × FileIndex) :=
  if (index.count + 1) * 10 % wordSize ≥ index.capacity * 7 % wordSize then
    fileIndexRehash index (index.capacity * 2 % wordSize) slotsOk
  else some (0, index)

def fileIndexUpsert (index : FileIndex) (path : CString) (size mtime : Int) (allocs : UpsertAllocs) :
    Option (Rc × FileIndex) :=
  match fileIndexReserve index allocs.slotsOk with
  | none => none
  | some (rc, index) =>
    if rc ≠ 0 then some (rc, index)
    else
      let hash := hashPath path
      match fileIndexFindSlot index path hash with
      | none => none
      | some (slot, some existing) =>
        let value := { existing.value with size := size, mtime := mtime }
        some (0, { index with slots := index.slots.set slot (some { existing with value := value }) })
      | some (slot, none) =>
        if allocs.copyOk then
          some (0, { index with
            slots := index.slots.set slot (some ⟨path, ⟨path, size, mtime⟩, hash⟩)
            count := index.count + 1 })
        else some (Fault.ENOMEM.code, index)

end

end Verdiff
