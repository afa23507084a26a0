import Verdiff.Common

/-! The progress counters. What is printed of them, and when, is left out. -/

set_option autoImplicit false

namespace Verdiff

inductive ProgressPhase where
  | idle
  | scanA
  | scanB
  | plan
  | compare
  | write
  | done
  deriving DecidableEq, Repr

structure ProgressState where
  phase : ProgressPhase
  scannedA : Nat
  scannedB : Nat
  compared : Nat
  deriving DecidableEq

def progressInit : ProgressState := ⟨.idle, 0, 0, 0⟩

def progressPhaseBegin (state : ProgressState) (phase : ProgressPhase) : ProgressState :=
  { state with phase := phase }

def progressNoteScan (state : ProgressState) (phase : ProgressPhase) : ProgressState :=
  match phase with
  | .scanA => { state with phase := phase, scannedA := state.scannedA + 1 }
  | .scanB => { state with phase := phase, scannedB := state.scannedB + 1 }
  | _ => { state with phase := phase }

def progressNoteCompareStart (state : ProgressState) : ProgressState := { state with phase := .compare }

/-- Nothing in the program calls this. -/
def progressNoteCompareDone (state : ProgressState) : ProgressState :=
  { state with phase := .compare, compared := state.compared + 1 }

end Verdiff
