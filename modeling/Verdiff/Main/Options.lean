import Verdiff.Main.Machine
import Verdiff.Output.Cells
import Mathlib.Data.List.TakeWhile

/-! The option loop of `main`, and the command lines it is to accept.

A command line is read against a reader of thread counts, for which zero is a refusal: the
loop reads them by `strtoul`, the documented grammar takes decimal numerals only. Everything
between the two readers is one grammar.
-/

set_option autoImplicit false

namespace Verdiff
open Numerals

def cString (text : String) : CString :=
  ⟨(ascii text).takeWhile (· ≠ 0), fun member => absurd (List.mem_takeWhile_imp member) (by simp)⟩

def defaultReportPath : CString := cString "verdiff_report.txt"

def usage : Bytes :=
  ascii "Usage: verdiff [--thread N|--threads N|-j N] [--lines] [--skip-unchanged] [-o file] DIR_A DIR_B\n" ++
    ascii "       verdiff [--help] [--version]\n"

/-- `VERDIFF_VERSION` comes from the build. -/
def printVersion (version : Bytes) : Bytes := ascii "verdiff " ++ version ++ ascii "\n"

def defaultThreadCount (online : Int) : Nat := if online < 1 then 4 else online.toNat

/-! ## Numbers -/

def isSpace (byte : UInt8) : Bool := decide (byte = 32 ∨ (9 ≤ byte ∧ byte ≤ 13))

def strtoulSign : Bytes → Bool × Bytes
  | [] => (false, [])
  | byte :: rest => if byte = 45 then (true, rest) else if byte = 43 then (false, rest) else (false, byte :: rest)

/-- `strtoul` to base ten, without `endptr` and `errno`. -/
def strtoul (text : CString) : Nat :=
  let (negative, digits) := strtoulSign (text.bytes.dropWhile isSpace)
  let magnitude := value digitOf 10 (digits.takeWhile fun byte => (digitOf byte).isSome)
  if wordSize ≤ magnitude then wordSize - 1
  else if negative then (wordSize - magnitude) % wordSize else magnitude

def numeralCount (text : CString) : Nat :=
  if (text.bytes.all fun byte => (digitOf byte).isSome) && decide (value digitOf 10 text.bytes < wordSize) then
    value digitOf 10 text.bytes
  else 0

/-! ## The loop -/

structure CommandLine where
  threadCount : Nat
  includeLines : Bool
  includeUnchanged : Bool
  outputPath : CString
  rootA : CString
  rootB : CString
  deriving DecidableEq

structure OptionState where
  threadCount : Nat
  includeLines : Bool
  includeUnchanged : Bool
  outputPath : Option CString
  deriving DecidableEq

/-- `main` returns with a status and what it has printed, or goes on. -/
inductive OptionOutcome where
  | ends (status : Nat) (out err : Bytes)
  | runs (line : CommandLine)
  deriving DecidableEq

def readRoots (remaining : List CString) (state : OptionState) : OptionOutcome :=
  match remaining with
  | [rootA, rootB] => .runs ⟨state.threadCount, state.includeLines, state.includeUnchanged,
      state.outputPath.getD defaultReportPath, rootA, rootB⟩
  | _ => .ends 2 [] usage

section
variable (version : Bytes) (count : CString → Nat)

def optionLoop : List CString → OptionState → OptionOutcome
  | [], state => readRoots [] state
  | arg :: rest, state =>
    if strcmp arg (cString "--help") = 0 ∨ strcmp arg (cString "-h") = 0 then .ends 0 usage []
    else if strcmp arg (cString "--version") = 0 ∨ strcmp arg (cString "-V") = 0 then
      .ends 0 (printVersion version) []
    else if strcmp arg (cString "--lines") = 0 then optionLoop rest { state with includeLines := true }
    else if strcmp arg (cString "--skip-unchanged") = 0 then
      optionLoop rest { state with includeUnchanged := false }
    else if strcmp arg (cString "-j") = 0 ∨ strcmp arg (cString "--thread") = 0 ∨
        strcmp arg (cString "--threads") = 0 then
      match rest with
      | [] => .ends 2 [] usage
      | text :: rest =>
        if count text = 0 then .ends 2 [] (ascii "invalid thread count\n")
        else optionLoop rest { state with threadCount := count text }
    else if strcmp arg (cString "-o") = 0 then
      match rest with
      | [] => .ends 2 [] usage
      | path :: rest => optionLoop rest { state with outputPath := some path }
    else readRoots (arg :: rest) state

end

def optionInit (threadCount : Nat) : OptionState := ⟨threadCount, false, true, none⟩

/-- `main` up to its two directories, for the arguments behind the program's name. -/
def mainOptions (version : Bytes) (online : Int) (args : List CString) : OptionOutcome :=
  optionLoop version strtoul args (optionInit (defaultThreadCount online))

example : mainOptions [] 8 [cString "-j", cString "2", cString "a", cString "b"] =
    .runs ⟨2, false, true, defaultReportPath, cString "a", cString "b"⟩ := by decide +kernel

end Verdiff
