import Verdiff.Common

/-! The cells of the report as text.

Numbers are printed in decimal and texts are padded by bytes. A `double` is only used for
sizes from a kilobyte on; it is an integer rounded to 53 bits and scaled by a power of two,
so it is kept as that integer.
-/

set_option autoImplicit false

namespace Verdiff

def ascii (text : String) : Bytes := text.toList.map fun c => c.toNat.toUInt8

def decimal (n : Nat) : Bytes := (Nat.toDigits 10 n).map fun c => c.toNat.toUInt8

def decimalInt : Int → Bytes
  | .ofNat n => decimal n
  | .negSucc n => ascii "-" ++ decimal (n + 1)

def padRight (width : Nat) (text : Bytes) : Bytes := text ++ List.replicate (width - text.length) 32

/-- What `strlen` and `%s` see of a buffer. -/
def cText (buffer : Bytes) : Bytes := buffer.takeWhile (· ≠ 0)

/-! ## Buffers -/

def store (buffer : Bytes) (offset : Nat) (bytes : Bytes) : Bytes :=
  buffer.take offset ++ bytes ++ buffer.drop (offset + bytes.length)

/-- `snprintf` to `buffer + offset`: the length of the whole text, and the buffer afterwards. -/
def snprintf (buffer : Bytes) (offset size : Nat) (text : Bytes) : Nat × Bytes :=
  (text.length, if size = 0 then buffer else store buffer offset (text.take (size - 1) ++ [0]))

/-! ## Sizes -/

def roundHalfEven (n d : Nat) : Nat :=
  let quotient := n / d
  let twice := 2 * (n % d)
  if twice < d ∨ twice = d ∧ quotient % 2 = 0 then quotient else quotient + 1

def toDouble (n : Nat) : Nat :=
  let ulp := 2 ^ (n.log2 - 52)
  roundHalfEven n ulp * ulp

def sizeUnits : List Bytes := [ascii "B", ascii "KB", ascii "MB", ascii "GB", ascii "TB"]

/-- The loop that divides by 1024, at most `steps` more times. -/
def sizeUnitLoop (value : Nat) : Nat → Nat → Nat
  | 0, unitIndex => unitIndex
  | steps + 1, unitIndex =>
    if value ≥ 1024 ^ (unitIndex + 1) then sizeUnitLoop value steps (unitIndex + 1) else unitIndex

def formatSize (size : Int) (bufferLen : Nat) : Bytes :=
  let value := toDouble size.toNat
  let unitIndex := sizeUnitLoop value (sizeUnits.length - 1) 0
  let text :=
    if unitIndex = 0 then decimalInt size ++ ascii " B"
    else
      let tenths := roundHalfEven (value * 10) (1024 ^ unitIndex)
      decimal (tenths / 10) ++ ascii "." ++ decimal (tenths % 10) ++ ascii " " ++ sizeUnits.getD unitIndex []
  text.take (bufferLen - 1)

example : formatSize 1587 32 = ascii "1.5 KB" := by decide +kernel

/-! ## Texts that do not fit -/

def clipText (src : Bytes) (width destSize : Nat) : Bytes :=
  let width := if width + 1 > destSize then destSize - 1 else width
  let src := cText src
  if src.length ≤ width then src
  else if width ≤ 3 then src.take width
  else src.take (width - 3) ++ ascii "..."

/-- The loop over the line numbers; it stops once the text is longer than the buffer. -/
def lineNumbersLoop (bufferLen : Nat) : List LineDiff → Nat → Nat → Bytes → Bytes
  | [], _, _, buffer => buffer
  | diff :: rest, i, offset, buffer =>
    if offset < bufferLen then
      let (written, buffer) := snprintf buffer offset (sizeSub bufferLen offset)
        ((if i = 0 then [] else ascii ", ") ++ decimal diff.lineNumber)
      lineNumbersLoop bufferLen rest (i + 1) ((offset + written) % wordSize) buffer
    else buffer

/-- The buffer is not initialised, so it is passed in. -/
def formatLineSummary (record : ChangeRecord) (buffer : Bytes) (bufferLen : Nat) : Bytes :=
  match record.detailKind with
  | .none => (snprintf buffer 0 bufferLen (ascii "-")).2
  | .lines =>
    let (written, buffer) := snprintf buffer 0 bufferLen (ascii "Lines: ")
    lineNumbersLoop bufferLen record.lineDiffs.items 0 written buffer
  | .sizeChanged => (snprintf buffer 0 bufferLen (ascii "Size Changed (line scan skipped)")).2
  | .binaryChanged => (snprintf buffer 0 bufferLen (ascii "Binary Changed")).2
  | .onlyInTarget => (snprintf buffer 0 bufferLen (ascii "New File")).2
  | .onlyInSource => (snprintf buffer 0 bufferLen (ascii "Missing in Target")).2

def statusName : ChangeType → Bytes
  | .unchanged => ascii "UNCHANGED"
  | .modified => ascii "MODIFIED"
  | .added => ascii "ADDED"
  | .removed => ascii "REMOVED"

theorem statusName_injective : Function.Injective statusName := by
  intro first second same
  cases first <;> cases second <;> first | rfl | (exact absurd same (by decide))

end Verdiff
