import Verdiff.Library.Transition
import Verdiff.Output.Cells
import Verdiff.Progress

/-! The progress display: what it prints.

A call holds the mutex from its first to its last statement, so it is one step. The counters
are words, and buffers on the stack are not initialised.
-/

set_option autoImplicit false

namespace Verdiff
open Transition

/-- `struct timespec` as `clock_gettime` fills it. -/
structure Timespec where
  sec : Int
  nsec : Nat
  below : nsec < 1000000000
  deriving DecidableEq

def Timespec.nanos (time : Timespec) : Int := time.sec * 1000000000 + time.nsec

/-- The division of C truncates towards zero. -/
def diffMillis (lhs rhs : Timespec) : Int :=
  let sec := lhs.sec - rhs.sec
  let nsec : Int := lhs.nsec - rhs.nsec
  sec * 1000 + nsec.tdiv 1000000

def phaseName : ProgressPhase → Bytes
  | .scanA => ascii "INFO"
  | .scanB => ascii "INFO"
  | .plan => ascii "INFO"
  | .compare => ascii "INFO"
  | .write => ascii "INFO"
  | .done => ascii "INFO"
  | .idle => ascii "INFO"

def clipPath (src : CString) (dest : Bytes) : Bytes :=
  if src.bytes.length + 1 ≤ dest.length then store dest 0 (src.bytes ++ [0])
  else if dest.length ≤ 4 then store dest 0 [0]
  else
    let keep := dest.length - 4
    store (store dest 0 (src.bytes.take keep)) keep (ascii "..." ++ [0])

structure Display where
  initialized : Bool
  interactive : Bool
  counters : ProgressState
  currentPath : Bytes
  lastEmit : Timespec

def Display.zero : Display := ⟨false, false, progressInit, List.replicate 160 0, ⟨0, 0, by decide⟩⟩

def displayInit (mutexRc : Rc) (interactive : Bool) (now : Timespec) : Rc × Display :=
  if mutexRc ≠ 0 then (mutexRc, .zero)
  else (0, { Display.zero with initialized := true, interactive := interactive, lastEmit := now })

/-- What one `emit_locked` meets: the time, and the bytes of its buffer. -/
structure EmitEnv where
  now : Timespec
  line : Bytes
  size : line.length = 320

def progressLine (counters : ProgressState) (path : Bytes) : Bytes :=
  if counters.phase = .compare then
    ascii "[" ++ phaseName counters.phase ++ ascii "] Comparing files: scanned_source=" ++
      decimal (counters.scannedA % wordSize) ++ ascii " scanned_target=" ++ decimal (counters.scannedB % wordSize) ++
      ascii " compared=" ++ decimal (counters.compared % wordSize) ++ ascii " current=" ++ path
  else
    ascii "[" ++ phaseName counters.phase ++ ascii "] Reading files: scanned_source=" ++
      decimal (counters.scannedA % wordSize) ++ ascii " scanned_target=" ++ decimal (counters.scannedB % wordSize) ++
      ascii " current=" ++ path

def frameLine (interactive : Bool) (line : Bytes) : Bytes :=
  if interactive then ascii "\r" ++ padRight 120 line else line ++ ascii "\n"

def emitLocked (display : Display) (force : Bool) (env : EmitEnv) : Display × Bytes :=
  if !force && decide (diffMillis env.now display.lastEmit < 200) then (display, [])
  else
    let display := { display with lastEmit := env.now }
    let path := if display.currentPath.head? = some 0 then ascii "-" else cText display.currentPath
    let line := (snprintf env.line 0 320 (progressLine display.counters path)).2
    (display, frameLine display.interactive (cText line))

def frameMessage (interactive : Bool) (phase : ProgressPhase) (message : CString) : Bytes :=
  (if interactive then ascii "\r" ++ padRight 120 [] ++ ascii "\r" else []) ++
    ascii "[" ++ phaseName phase ++ ascii "] " ++ message.bytes ++ ascii "\n"

def displayPhaseBegin (display : Display) (phase : ProgressPhase) (message : CString) (now : Timespec) :
    Display × Bytes :=
  if !display.initialized then (display, [])
  else
    let display := { display with
      counters := progressPhaseBegin display.counters phase, currentPath := store display.currentPath 0 [0] }
    ({ display with lastEmit := now }, frameMessage display.interactive phase message)

def displayNoteScan (display : Display) (phase : ProgressPhase) (path : CString) (env : EmitEnv) : Display × Bytes :=
  if !display.initialized then (display, [])
  else emitLocked { display with
    counters := progressNoteScan display.counters phase, currentPath := clipPath path display.currentPath } false env

def displayNoteCompareStart (display : Display) (path : CString) (env : EmitEnv) : Display × Bytes :=
  if !display.initialized then (display, [])
  else emitLocked { display with
    counters := progressNoteCompareStart display.counters, currentPath := clipPath path display.currentPath } false env

def displayNoteCompareDone (display : Display) (env : EmitEnv) : Display × Bytes :=
  if !display.initialized then (display, [])
  else emitLocked { display with counters := progressNoteCompareDone display.counters } false env

def displayPhaseEnd (display : Display) (message : CString) : Display × Bytes :=
  if !display.initialized then (display, [])
  else (display, frameMessage display.interactive display.counters.phase message)

inductive DisplayCall where
  | phaseBegin (phase : ProgressPhase) (message : CString) (now : Timespec)
  | noteScan (phase : ProgressPhase) (path : CString) (env : EmitEnv)
  | noteCompareStart (path : CString) (env : EmitEnv)
  | noteCompareDone (env : EmitEnv)
  | phaseEnd (message : CString)

def displayCall (display : Display) : DisplayCall → Display × Bytes
  | .phaseBegin phase message now => displayPhaseBegin display phase message now
  | .noteScan phase path env => displayNoteScan display phase path env
  | .noteCompareStart path env => displayNoteCompareStart display path env
  | .noteCompareDone env => displayNoteCompareDone display env
  | .phaseEnd message => displayPhaseEnd display message

def displayStep (display : Display) (call : DisplayCall) : Option (Display × List (DisplayCall × Bytes)) :=
  let (display, printed) := displayCall display call
  some (display, [(call, printed)])

/-- Calls in any order, from any number of threads. -/
abbrev DisplayRun (start : Display) : Display → List (DisplayCall × Bytes) → Prop :=
  Run displayStep (fun _ _ => True) start

/-! ## Buffers -/

def clippedPath (size : Nat) (path : CString) : Bytes :=
  if path.bytes.length + 1 ≤ size then path.bytes
  else if size ≤ 4 then []
  else path.bytes.take (size - 4) ++ ascii "..."

theorem clippedPath_length {size : Nat} (positive : 0 < size) (path : CString) : (clippedPath size path).length < size := by
  unfold clippedPath
  split
  · assumption
  · split
    · exact positive
    · have dots : (ascii "...").length = 3 := rfl
      rw [List.length_append, List.length_take, dots]
      omega

theorem clippedPath_nulFree (size : Nat) (path : CString) : 0 ∉ clippedPath size path := by
  unfold clippedPath
  split
  · exact path.nulFree
  · split
    · exact List.not_mem_nil
    · rw [List.mem_append, not_or]
      exact ⟨fun member => path.nulFree (List.mem_of_mem_take member), by decide⟩

section
variable {buffer text : Bytes} {size : Nat}

theorem store_zero (buffer bytes : Bytes) : store buffer 0 bytes = bytes ++ buffer.drop bytes.length := by
  rw [store, List.take_zero, List.nil_append, Nat.zero_add]

theorem store_store (buffer first second : Bytes) :
    store (store buffer 0 first) first.length second = store buffer 0 (first ++ second) := by
  -- What is stored behind what was stored first.
  rw [store_zero, store_zero, store, List.take_left, List.length_append, List.drop_append, List.drop_drop]
  simp

theorem store_holds (length : buffer.length = size) (room : text.length < size) :
    Holds size text (store buffer 0 (text ++ [0])) := by
  rw [store_zero]
  refine ⟨?_, buffer.drop (text ++ [0]).length, ?_⟩
  · rw [List.length_append, List.length_drop, List.length_append, List.length_singleton]
    omega
  · rw [List.take_of_length_le (by omega), List.append_assoc]
    rfl

theorem clipPath_holds (length : buffer.length = size) (positive : 0 < size) (path : CString) :
    Holds size (clippedPath size path) (clipPath path buffer) := by
  have short := clippedPath_length positive path
  unfold clipPath
  unfold clippedPath at short ⊢
  rw [length]
  split
  next fits => exact store_holds length fits
  next long =>
    split
    next => exact store_holds length positive
    next wide =>
      have kept : (path.bytes.take (size - 4)).length = size - 4 := List.length_take_of_le (by omega)
      rw [if_neg long, if_neg wide] at short
      have both := store_store buffer (path.bytes.take (size - 4)) (ascii "..." ++ [0])
      rw [kept, ← List.append_assoc] at both
      rw [both]
      exact store_holds length short

theorem shownPath_of_holds (holds : Holds size text buffer) (room : text.length < size) (nulFree : 0 ∉ text) :
    (if buffer.head? = some 0 then ascii "-" else cText buffer) = if text = [] then ascii "-" else text := by
  have whole : text.take (size - 1) = text := List.take_of_length_le (by omega)
  rw [holds.cText nulFree, whole]
  obtain ⟨-, rest, rfl⟩ := holds
  rw [whole]
  cases text with
  | nil => rfl
  | cons byte text =>
    have printable : byte ≠ 0 := fun same => nulFree (same ▸ List.mem_cons_self ..)
    simp [printable]

end

/-! ## Lines -/

theorem progressLine_length (counters : ProgressState) {path : Bytes} (short : path.length ≤ 159) :
    (progressLine counters path).length ≤ 293 := by
  have word (n : Nat) : (decimal (n % wordSize)).length ≤ 20 := decimal_length (Nat.mod_lt n (by decide))
  have a := word counters.scannedA
  have b := word counters.scannedB
  have c := word counters.compared
  have name : (phaseName counters.phase).length = 4 := by cases counters.phase <;> rfl
  have opening : (ascii "[").length = 1 := rfl
  have comparing : (ascii "] Comparing files: scanned_source=").length = 34 := rfl
  have reading : (ascii "] Reading files: scanned_source=").length = 32 := rfl
  have target : (ascii " scanned_target=").length = 16 := rfl
  have compared : (ascii " compared=").length = 10 := rfl
  have current : (ascii " current=").length = 9 := rfl
  unfold progressLine
  split <;> simp only [List.length_append, name, opening, comparing, reading, target, compared, current] <;> omega

theorem progressLine_nulFree (counters : ProgressState) {path : Bytes} (nulFree : 0 ∉ path) :
    0 ∉ progressLine counters path := by
  have number (n : Nat) := decimal_nulFree (n % wordSize)
  have name (phase : ProgressPhase) : 0 ∉ phaseName phase := by cases phase <;> decide
  have opening : 0 ∉ ascii "[" := by decide
  have comparing : 0 ∉ ascii "] Comparing files: scanned_source=" := by decide
  have reading : 0 ∉ ascii "] Reading files: scanned_source=" := by decide
  have target : 0 ∉ ascii " scanned_target=" := by decide
  have compared : 0 ∉ ascii " compared=" := by decide
  have current : 0 ∉ ascii " current=" := by decide
  unfold progressLine
  split <;> simp only [List.mem_append, number, name, opening, comparing, reading, target, compared, current, nulFree,
    or_self, not_false_eq_true]

theorem snprintf_whole {buffer text : Bytes} {size : Nat} (length : buffer.length = size) (room : text.length < size)
    (nulFree : 0 ∉ text) : cText (snprintf buffer 0 size text).2 = text := by
  have printed : Holds size text (snprintf buffer 0 size text).2 :=
    snprintf_holds length (show buffer.take ([] : Bytes).length = [] from rfl) (Nat.zero_lt_of_lt room) text
  rw [printed.cText nulFree, List.take_of_length_le (by omega)]

theorem emitLocked_printed {display : Display} {env : EmitEnv} {text : Bytes} (holds : Holds 160 text display.currentPath)
    (room : text.length < 160) (nulFree : 0 ∉ text) :
    emitLocked display false env = if diffMillis env.now display.lastEmit < 200 then (display, [])
      else ({ display with lastEmit := env.now }, frameLine display.interactive
        (progressLine display.counters (if text = [] then ascii "-" else text))) := by
  -- A line is printed whole.
  have path : 0 ∉ if text = [] then ascii "-" else text := by
    split
    · decide
    · exact nulFree
  have short : (if text = [] then ascii "-" else text).length ≤ 159 := by
    split
    · decide
    · omega
  have line := progressLine_length display.counters short
  simp only [emitLocked, Bool.not_false, Bool.true_and, decide_eq_true_eq, shownPath_of_holds holds room nulFree,
    snprintf_whole env.size (line.trans_lt (by decide)) (progressLine_nulFree display.counters path)]

/-! ## What the calls so far say -/

def DisplayCall.emits : DisplayCall → Option EmitEnv
  | .noteScan _ _ env => some env
  | .noteCompareStart _ env => some env
  | .noteCompareDone env => some env
  | _ => none

def DisplayCall.scans (phase : ProgressPhase) : DisplayCall → Bool
  | .noteScan other _ _ => decide (other = phase)
  | _ => false

def DisplayCall.compares : DisplayCall → Bool
  | .noteCompareDone _ => true
  | _ => false

def phaseAfter (phase : ProgressPhase) : DisplayCall → ProgressPhase
  | .phaseBegin begun _ _ => begun
  | .noteScan noted _ _ => noted
  | .noteCompareStart .. => .compare
  | .noteCompareDone _ => .compare
  | .phaseEnd _ => phase

def pathAfter (path : Bytes) : DisplayCall → Bytes
  | .phaseBegin .. => []
  | .noteScan _ noted _ => clippedPath 160 noted
  | .noteCompareStart noted _ => clippedPath 160 noted
  | _ => path

def countedBy (calls : List DisplayCall) : ProgressState :=
  ⟨calls.foldl phaseAfter .idle, calls.countP (DisplayCall.scans .scanA), calls.countP (DisplayCall.scans .scanB),
    calls.countP DisplayCall.compares⟩

/-- The path that was noted last in the phase. -/
def notedPath (calls : List DisplayCall) : Bytes := calls.foldl pathAfter []

def lineAfter (calls : List DisplayCall) : Bytes :=
  progressLine (countedBy calls) (if notedPath calls = [] then ascii "-" else notedPath calls)

def printedBy (interactive : Bool) (calls : List DisplayCall) : DisplayCall → Bytes
  | .phaseBegin phase message _ => frameMessage interactive phase message
  | .phaseEnd message => frameMessage interactive (countedBy calls).phase message
  | call => frameLine interactive (lineAfter (calls ++ [call]))

theorem notedPath_concat (calls : List DisplayCall) (call : DisplayCall) :
    notedPath (calls ++ [call]) = pathAfter (notedPath calls) call := by
  rw [notedPath, List.foldl_append]
  rfl

theorem countedBy_concat (calls : List DisplayCall) (call : DisplayCall) : countedBy (calls ++ [call]) =
    match call with
    | .phaseBegin phase _ _ => progressPhaseBegin (countedBy calls) phase
    | .noteScan phase _ _ => progressNoteScan (countedBy calls) phase
    | .noteCompareStart .. => progressNoteCompareStart (countedBy calls)
    | .noteCompareDone _ => progressNoteCompareDone (countedBy calls)
    | .phaseEnd _ => countedBy calls := by
  simp only [countedBy, List.foldl_append, List.countP_append, List.foldl_cons, List.foldl_nil]
  cases call with
  | noteScan phase path env => cases phase <;> rfl
  | _ => rfl

theorem pathAfter_fits {path : Bytes} (fits : path.length < 160 ∧ 0 ∉ path) (call : DisplayCall) :
    (pathAfter path call).length < 160 ∧ 0 ∉ pathAfter path call := by
  cases call with
  | phaseBegin => exact ⟨Nat.zero_lt_succ 159, List.not_mem_nil⟩
  | noteScan _ noted _ => exact ⟨clippedPath_length (by decide) noted, clippedPath_nulFree 160 noted⟩
  | noteCompareStart noted _ => exact ⟨clippedPath_length (by decide) noted, clippedPath_nulFree 160 noted⟩
  | noteCompareDone => exact fits
  | phaseEnd => exact fits

theorem notedPath_fits (calls : List DisplayCall) : (notedPath calls).length < 160 ∧ 0 ∉ notedPath calls := by
  induction calls using List.reverseRecOn with
  | nil => exact ⟨Nat.zero_lt_succ 159, List.not_mem_nil⟩
  | append_singleton calls call ih =>
    rw [notedPath_concat]
    exact pathAfter_fits ih call

theorem lineAfter_length (calls : List DisplayCall) : (lineAfter calls).length ≤ 293 := by
  refine progressLine_length _ ?_
  split
  · decide
  · exact Nat.le_of_lt_succ (notedPath_fits calls).1

/-- The display is as the calls say. -/
structure Display.Follows (display : Display) (interactive : Bool) (calls : List DisplayCall) : Prop where
  initialized : display.initialized = true
  interactive : display.interactive = interactive
  counters : display.counters = countedBy calls
  path : Holds 160 (notedPath calls) display.currentPath

section
variable {display : Display} {interactive : Bool} {calls : List DisplayCall} {call : DisplayCall} {env : EmitEnv}

def Display.noted (display : Display) : DisplayCall → Display
  | .noteScan phase path _ => { display with
      counters := progressNoteScan display.counters phase, currentPath := clipPath path display.currentPath }
  | .noteCompareStart path _ => { display with
      counters := progressNoteCompareStart display.counters, currentPath := clipPath path display.currentPath }
  | .noteCompareDone _ => { display with counters := progressNoteCompareDone display.counters }
  | _ => display

theorem displayCall_note (initialized : display.initialized = true) (emits : call.emits = some env) :
    displayCall display call = emitLocked (display.noted call) false env := by
  cases call <;> cases emits <;>
    simp only [displayCall, displayNoteScan, displayNoteCompareStart, displayNoteCompareDone, initialized, Bool.not_true,
      Bool.false_eq_true, ↓reduceIte, Display.noted]

theorem Display.Follows.noted (follows : display.Follows interactive calls) (emits : call.emits = some env) :
    (display.noted call).Follows interactive (calls ++ [call]) := by
  obtain ⟨initialized, shown, counters, path⟩ := follows
  cases call <;> cases emits
  case noteScan noted => exact ⟨initialized, shown, by rw [countedBy_concat, ← counters]; rfl,
    notedPath_concat calls _ ▸ clipPath_holds path.1 (by decide) _⟩
  case noteCompareStart noted => exact ⟨initialized, shown, by rw [countedBy_concat, ← counters]; rfl,
    notedPath_concat calls _ ▸ clipPath_holds path.1 (by decide) _⟩
  case noteCompareDone => exact ⟨initialized, shown, by rw [countedBy_concat, ← counters]; rfl,
    notedPath_concat calls _ ▸ path⟩

theorem printedBy_note (emits : call.emits = some env) :
    printedBy interactive calls call = frameLine interactive (lineAfter (calls ++ [call])) := by
  cases call <;> cases emits <;> rfl

/-- A call keeps the display as the calls say, and prints what they call for or is too early. -/
theorem Display.Follows.step (follows : display.Follows interactive calls) (call : DisplayCall) :
    (displayCall display call).1.Follows interactive (calls ++ [call]) ∧
      ((displayCall display call).2 = printedBy interactive calls call ∨
        call.emits.isSome ∧ (displayCall display call).2 = []) := by
  cases emits : call.emits with
  | some env =>
    have noted := follows.noted emits
    obtain ⟨short, nulFree⟩ := notedPath_fits (calls ++ [call])
    rw [displayCall_note follows.initialized emits, emitLocked_printed noted.path short nulFree, printedBy_note emits]
    split
    · exact ⟨noted, .inr ⟨rfl, rfl⟩⟩
    · refine ⟨⟨noted.initialized, noted.interactive, noted.counters, noted.path⟩, .inl ?_⟩
      rw [noted.interactive, noted.counters]
      rfl
  | none =>
    obtain ⟨initialized, shown, counters, path⟩ := follows
    cases call with
    | phaseBegin phase message now =>
      rw [displayCall, displayPhaseBegin, if_neg (by rw [initialized]; decide)]
      refine ⟨⟨initialized, shown, by rw [countedBy_concat, ← counters], ?_⟩, .inl ?_⟩
      · rw [notedPath_concat]
        exact store_holds path.1 (Nat.zero_lt_succ 159)
      · rw [shown]
        rfl
    | phaseEnd message =>
      rw [displayCall, displayPhaseEnd, if_neg (by rw [initialized]; decide)]
      refine ⟨⟨initialized, shown, by rw [countedBy_concat, ← counters], notedPath_concat calls _ ▸ path⟩, .inl ?_⟩
      rw [shown, counters]
      rfl
    | _ => cases emits

end

/-! ## Runs -/

theorem displayInit_follows {interactive : Bool} {now : Timespec} {start : Display}
    (started : displayInit 0 interactive now = (0, start)) : start.Follows interactive [] := by
  cases started
  exact ⟨rfl, rfl, rfl, List.length_replicate, List.replicate 159 0, rfl⟩

/-- Whatever was called by any number of threads, a call that prints a line prints it whole, with
the numbers of scans and comparisons up to then and the path that was noted last; the counters are
those that the rest of the program keeps. -/
theorem progress_lines {interactive : Bool} {now : Timespec} {start display : Display}
    {log : List (DisplayCall × Bytes)} (started : displayInit 0 interactive now = (0, start))
    (run : DisplayRun start display log) :
    display.counters = countedBy (log.map Prod.fst) ∧ display.currentPath.length = 160 ∧
      (∀ (i : Nat) call printed, log[i]? = some (call, printed) →
        printed = printedBy interactive ((log.take i).map Prod.fst) call ∨ call.emits.isSome ∧ printed = []) ∧
      ∀ calls, (lineAfter calls).length ≤ 293 := by
  have told : display.Follows interactive (log.map Prod.fst) ∧ ∀ (i : Nat) call printed,
      log[i]? = some (call, printed) →
        printed = printedBy interactive ((log.take i).map Prod.fst) call ∨ call.emits.isSome ∧ printed = [] := by
    refine Run.invariant (fun display log => display.Follows interactive (log.map Prod.fst) ∧
      ∀ (i : Nat) call printed, log[i]? = some (call, printed) →
        printed = printedBy interactive ((log.take i).map Prod.fst) call ∨ call.emits.isSome ∧ printed = [])
      ⟨displayInit_follows started, fun i call printed found => by cases found⟩ ?_ run
    rintro s t log events call _ ⟨follows, earlier⟩ _ step
    cases step
    obtain ⟨next, printed⟩ := follows.step call
    refine ⟨by rw [List.map_append]; exact next, fun i other text found => ?_⟩
    rcases Nat.lt_or_ge i log.length with inside | behind
    · rw [List.getElem?_append_left inside] at found
      rw [List.take_append_of_le_length (Nat.le_of_lt inside)]
      exact earlier i other text found
    · rw [List.getElem?_append_right behind, List.getElem?_singleton, Option.ite_none_right_eq_some] at found
      obtain ⟨last, same⟩ := found
      cases same
      rw [Nat.le_antisymm (Nat.sub_eq_zero_iff_le.mp last) behind, List.take_left]
      exact printed
  obtain ⟨follows, told⟩ := told
  exact ⟨follows.counters, follows.path.1, told, lineAfter_length⟩

def firstScan : DisplayCall :=
  .noteScan .scanA ⟨[110], by decide⟩ ⟨⟨1, 0, by decide⟩, List.replicate 320 7, List.length_replicate⟩

theorem progress_lines_first : ∃ start display, displayInit 0 false ⟨0, 0, by decide⟩ = (0, start) ∧
    DisplayRun start display
      [(firstScan, ascii "[INFO] Reading files: scanned_source=1 scanned_target=0 current=n\n")] := by
  obtain ⟨start, started⟩ : ∃ start, displayInit 0 false ⟨0, 0, by decide⟩ = (0, start) := ⟨_, rfl⟩
  have step : displayStep start firstScan =
      some ((displayCall start firstScan).1, [(firstScan, (displayCall start firstScan).2)]) := rfl
  have run : DisplayRun start _ _ := Run.start.next trivial step
  have prints : (displayCall start firstScan).2 ≠ [] := by
    cases started
    exact fun same => by cases same
  obtain ⟨_, _, told, _⟩ := progress_lines started run
  obtain same | ⟨_, nothing⟩ := told 0 _ _ rfl
  · have text : printedBy false [] firstScan =
        ascii "[INFO] Reading files: scanned_source=1 scanned_target=0 current=n\n" := by decide
    have printed : (displayCall start firstScan).2 = _ := same.trans text
    rw [printed] at run
    exact ⟨start, _, started, run⟩
  · exact absurd nothing prints

end Verdiff
