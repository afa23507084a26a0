import Verdiff.Progress.Display

/-! The progress display: when it prints. -/

set_option autoImplicit false

namespace Verdiff
open Transition

section
variable {now last : Timespec}

theorem diffMillis_eq (lhs rhs : Timespec) : diffMillis lhs rhs = (lhs.sec - rhs.sec) * 1000 +
    (((lhs.nsec : Int) - rhs.nsec) / 1000000 +
      if 0 ≤ (lhs.nsec : Int) - rhs.nsec ∨ (1000000 : Int) ∣ (lhs.nsec : Int) - rhs.nsec then 0 else 1) := by
  rw [diffMillis, Int.tdiv_eq_ediv]
  rfl

/-- Two times that are 200 milliseconds apart by the code's count are more than 199 apart. -/
theorem diffMillis_late (late : ¬diffMillis now last < 200) : last.nanos + 199000000 < now.nanos := by
  have first := now.below
  have second := last.below
  rw [diffMillis_eq] at late
  unfold Timespec.nanos
  split at late <;> omega

theorem diffMillis_due (due : last.nanos + 200000000 ≤ now.nanos) : ¬diffMillis now last < 200 := by
  have first := now.below
  have second := last.below
  unfold Timespec.nanos at due
  rw [diffMillis_eq]
  split <;> omega

end

def DisplayCall.clock : DisplayCall → Option Timespec
  | .phaseBegin _ _ now => some now
  | call => call.emits.map EmitEnv.now

/-- The clock of a call has not gone back behind the time the display keeps. -/
def Clocked (display : Display) (call : DisplayCall) : Prop :=
  ∀ now, call.clock = some now → display.lastEmit.nanos ≤ now.nanos

abbrev TimedRun (start : Display) : Display → List (DisplayCall × Bytes) → Prop := Run displayStep Clocked start

def lineTime (event : DisplayCall × Bytes) : Option Timespec :=
  if event.2 = [] then none else event.1.emits.map EmitEnv.now

def resetTime (event : DisplayCall × Bytes) : Option Timespec :=
  match event.1 with
  | .phaseBegin _ _ now => some now
  | _ => lineTime event

def lastReset (start : Timespec) (log : List (DisplayCall × Bytes)) : Timespec :=
  (log.filterMap resetTime).getLast?.getD start

/-- A later line is more than 199 milliseconds behind an earlier line or begin of a phase. -/
def Spaced (earlier later : DisplayCall × Bytes) : Prop :=
  ∀ reset line, resetTime earlier = some reset → lineTime later = some line → reset.nanos + 199000000 < line.nanos

section
variable {display : Display} {interactive : Bool} {calls : List DisplayCall} {call : DisplayCall} {env : EmitEnv}

theorem frameLine_ne_nil (interactive : Bool) (line : Bytes) : frameLine interactive line ≠ [] := by
  cases interactive <;> simp [frameLine, ascii]

theorem resetTime_of_line {event : DisplayCall × Bytes} {line : Timespec} (printed : lineTime event = some line) :
    resetTime event = some line := by
  obtain ⟨call, text⟩ := event
  cases call with
  | phaseBegin =>
    simp only [lineTime, DisplayCall.emits, Option.map_none, ite_self] at printed
    cases printed
  | _ => exact printed

/-- A note prints, and keeps its time, exactly when the code counts 200 milliseconds. -/
theorem Display.Follows.prints (follows : display.Follows interactive calls) (emits : call.emits = some env) :
    (diffMillis env.now display.lastEmit < 200 ∧ (displayCall display call).2 = [] ∧
      (displayCall display call).1.lastEmit = display.lastEmit) ∨
    (¬diffMillis env.now display.lastEmit < 200 ∧ (displayCall display call).2 ≠ [] ∧
      (displayCall display call).1.lastEmit = env.now) := by
  have noted := follows.noted emits
  have same : (display.noted call).lastEmit = display.lastEmit := by cases call <;> rfl
  obtain ⟨short, nulFree⟩ := notedPath_fits (calls ++ [call])
  rw [displayCall_note follows.initialized emits, emitLocked_printed noted.path short nulFree, same]
  by_cases early : diffMillis env.now display.lastEmit < 200
  · rw [if_pos early]
    exact .inl ⟨early, rfl, same⟩
  · rw [if_neg early]
    exact .inr ⟨early, frameLine_ne_nil _ _, rfl⟩

theorem Display.Follows.clocked (follows : display.Follows interactive calls) (clocked : Clocked display call) :
    (displayCall display call).1.lastEmit =
        (resetTime (call, (displayCall display call).2)).getD display.lastEmit ∧
      display.lastEmit.nanos ≤ (displayCall display call).1.lastEmit.nanos ∧
      ∀ line, lineTime (call, (displayCall display call).2) = some line →
        display.lastEmit.nanos + 199000000 < line.nanos := by
  cases emits : call.emits with
  | some env =>
    have times : ∀ printed, resetTime (call, printed) = lineTime (call, printed) := fun printed => by
      cases call <;> first | rfl | cases emits
    rw [times, lineTime, emits]
    rcases follows.prints emits with ⟨_, silent, kept⟩ | ⟨late, prints, kept⟩
    · rw [kept, if_pos silent]
      exact ⟨rfl, le_refl _, fun line impossible => by cases impossible⟩
    · have spaced := diffMillis_late late
      rw [kept, if_neg prints]
      refine ⟨rfl, by omega, ?_⟩
      rintro line ⟨⟩
      exact spaced
  | none =>
    have silent : ∀ printed, lineTime (call, printed) = none := fun printed => by
      rw [lineTime, emits]
      exact ite_self _
    refine ⟨?_, ?_, fun line impossible => by rw [silent] at impossible; cases impossible⟩
    · cases call with
      | phaseBegin => rw [displayCall, displayPhaseBegin, if_neg (by rw [follows.initialized]; decide)]; rfl
      | phaseEnd =>
        rw [resetTime, silent, displayCall, displayPhaseEnd, if_neg (by rw [follows.initialized]; decide)]
        rfl
      | _ => cases emits
    · cases call with
      | phaseBegin _ _ now =>
        rw [displayCall, displayPhaseBegin, if_neg (by rw [follows.initialized]; decide)]
        exact clocked now rfl
      | phaseEnd =>
        rw [displayCall, displayPhaseEnd, if_neg (by rw [follows.initialized]; decide)]
      | _ => cases emits

/-- What the times of a run are, and the display that it ends with. -/
structure Timed (start : Timespec) (interactive : Bool) (display : Display) (log : List (DisplayCall × Bytes)) : Prop where
  follows : display.Follows interactive (log.map Prod.fst)
  reset : display.lastEmit = lastReset start log
  resets : ∀ event ∈ log, ∀ time, resetTime event = some time → time.nanos ≤ display.lastEmit.nanos
  spaced : log.Pairwise Spaced
  rate : (log.filterMap lineTime).length * 199000000 ≤ display.lastEmit.nanos - start.nanos

theorem Timed.step {start : Timespec} {log : List (DisplayCall × Bytes)} (timed : Timed start interactive display log)
    (clocked : Clocked display call) :
    Timed start interactive (displayCall display call).1 (log ++ [(call, (displayCall display call).2)]) := by
  obtain ⟨reset, forward, late⟩ := timed.follows.clocked clocked
  have follows := (timed.follows.step call).1
  generalize (displayCall display call).1 = next at reset forward follows
  generalize (displayCall display call).2 = printed at reset late
  refine ⟨by rw [List.map_append]; exact follows, ?_, ?_, ?_, ?_⟩
  · rw [reset, timed.reset, lastReset, lastReset, List.filterMap_append, List.getLast?_append]
    cases shown : resetTime (call, printed) <;> simp [shown]
  · intro event member time given
    rcases List.mem_append.mp member with earlier | last
    · exact (timed.resets event earlier time given).trans forward
    · rw [List.mem_singleton.mp last] at given
      rw [reset, given]
      exact le_refl _
  · refine List.pairwise_append.mpr ⟨timed.spaced, List.pairwise_singleton _ _, fun earlier member later last => ?_⟩
    intro time line given printed
    rw [List.mem_singleton.mp last] at printed
    have before := timed.resets earlier member time given
    have behind := late line printed
    omega
  · have rate := timed.rate
    rw [List.filterMap_append, List.length_append]
    cases shown : lineTime (call, printed) with
    | none =>
      simp only [List.filterMap_cons, shown, List.filterMap_nil, List.length_nil]
      omega
    | some line =>
      have behind := late line shown
      rw [resetTime_of_line shown] at reset
      simp only [List.filterMap_cons, shown, List.filterMap_nil, List.length_singleton, reset, Option.getD_some]
      omega

end

/-- The display does not flood the terminal, and does not fall silent. Whatever is called while the
clock does not go back, a line comes more than 199 milliseconds after every earlier line and begin
of a phase, so that there are never more lines than the time since the start has room for; and a
note that comes 200 milliseconds after the last of them prints. -/
theorem progress_throttled {interactive : Bool} {now : Timespec} {start display : Display}
    {log : List (DisplayCall × Bytes)} (started : displayInit 0 interactive now = (0, start))
    (run : TimedRun start display log) :
    display.lastEmit = lastReset now log ∧ log.Pairwise Spaced ∧
      (log.filterMap lineTime).length * 199000000 ≤ display.lastEmit.nanos - now.nanos ∧
      ∀ call env, call.emits = some env →
        (display.lastEmit.nanos + 200000000 ≤ env.now.nanos → (displayCall display call).2 ≠ []) ∧
        (env.now.nanos ≤ display.lastEmit.nanos + 199000000 → (displayCall display call).2 = []) := by
  have timed : Timed now interactive display log := by
    refine Run.invariant (Timed now interactive) ?_ (fun _ timed clocked step => ?_) run
    · have follows := displayInit_follows started
      cases started
      exact ⟨follows, rfl, List.forall_mem_nil _, .nil, by simp⟩
    · cases step
      exact timed.step clocked
  refine ⟨timed.reset, timed.spaced, timed.rate, fun call env emits => ?_⟩
  rcases timed.follows.prints emits with ⟨early, silent, _⟩ | ⟨late, prints, _⟩
  · exact ⟨fun due => absurd early (diffMillis_due due), fun _ => silent⟩
  · refine ⟨fun _ => prints, fun soon => ?_⟩
    have spaced := diffMillis_late late
    omega

def secondScan : DisplayCall :=
  .noteScan .scanA ⟨[109], by decide⟩ ⟨⟨1, 100000000, by decide⟩, List.replicate 320 8, List.length_replicate⟩

theorem progress_throttled_soon : ∃ start display printed, displayInit 0 false ⟨0, 0, by decide⟩ = (0, start) ∧
    TimedRun start display [(firstScan, printed)] ∧ printed ≠ [] ∧ (displayCall display secondScan).2 = [] := by
  obtain ⟨start, started⟩ : ∃ start, displayInit 0 false ⟨0, 0, by decide⟩ = (0, start) := ⟨_, rfl⟩
  have step : displayStep start firstScan =
      some ((displayCall start firstScan).1, [(firstScan, (displayCall start firstScan).2)]) := rfl
  have clocked : Clocked start firstScan := by
    cases started
    rintro now ⟨⟩
    decide
  have run : TimedRun start _ _ := Run.start.next clocked step
  have prints : (displayCall start firstScan).2 ≠ [] := by
    cases started
    exact fun same => by cases same
  obtain ⟨last, _, _, notes⟩ := progress_throttled started run
  have time : (displayCall start firstScan).1.lastEmit = ⟨1, 0, by decide⟩ := by
    have line : lineTime (firstScan, (displayCall start firstScan).2) = some ⟨1, 0, by decide⟩ := if_neg prints
    rw [last, lastReset, List.nil_append, List.filterMap_cons, resetTime_of_line line]
    rfl
  refine ⟨start, _, _, started, run, prints, (notes secondScan _ rfl).2 ?_⟩
  rw [time]
  decide

end Verdiff
