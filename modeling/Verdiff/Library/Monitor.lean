import Verdiff.Library.Transition
import Mathlib.Logic.Function.Basic

/-! Threads whose code shares a state behind one lock.

A section of the code starts with the lock and ends where it waits on a condition, which gives
the lock up, or returns. Statement by statement the other threads run in between; section by
section they do not. The two systems report the same.
-/

set_option autoImplicit false

namespace Monitor
open Transition

/-- How a section ends: asleep, to go on at `rest` with the lock, or back at its caller. -/
inductive Exit (Rest Result : Type) where
  | wait (rest : Rest)
  | leave (result : Result)

inductive Control (Rest Place Result : Type) where
  | goto (place : Place)
  | exit (how : Exit Rest Result)

structure Code (Shared Rest Place Result : Type) where
  start : Rest → Place
  exec : Place → Shared → Shared × Control Rest Place Result

variable {Shared Rest Place Result : Type}

inductive Reaches (code : Code Shared Rest Place Result) (from_ : Place) (shared : Shared) : Place → Shared → Prop where
  | refl : Reaches code from_ shared from_ shared
  | step {place next : Place} {middle after : Shared} : Reaches code from_ shared place middle →
      code.exec place middle = (after, .goto next) → Reaches code from_ shared next after

inductive Executes (code : Code Shared Rest Place Result) : Place → Shared → Shared × Exit Rest Result → Prop where
  | exit {place : Place} {shared after : Shared} {how : Exit Rest Result} :
      code.exec place shared = (after, .exit how) → Executes code place shared (after, how)
  | step {place next : Place} {shared after : Shared} {out : Shared × Exit Rest Result} :
      code.exec place shared = (after, .goto next) → Executes code next after out → Executes code place shared out

/-- What whole sections do. -/
def Summarises (code : Code Shared Rest Place Result) (summary : Rest → Shared → Shared × Exit Rest Result) : Prop :=
  ∀ rest shared, Executes code (code.start rest) shared (summary rest shared)

variable {code : Code Shared Rest Place Result}

theorem Executes.deterministic {place : Place} {shared : Shared} {out other : Shared × Exit Rest Result}
    (first : Executes code place shared out) (second : Executes code place shared other) : out = other := by
  induction first with
  | exit exits =>
    cases second with
    | exit again =>
      rw [exits] at again
      cases again
      rfl
    | step goes _ =>
      rw [exits] at goes
      cases goes
  | step goes _ ih =>
    cases second with
    | exit exits =>
      rw [goes] at exits
      cases exits
    | step again later =>
      rw [goes] at again
      cases again
      exact ih later

theorem Reaches.executes {from_ place : Place} {shared middle : Shared} {out : Shared × Exit Rest Result}
    (reaches : Reaches code from_ shared place middle) (later : Executes code place middle out) :
    Executes code from_ shared out := by
  induction reaches with
  | refl => exact later
  | step _ goes ih => exact ih (.step goes later)

theorem Reaches.rest {from_ place : Place} {shared middle : Shared} {out : Shared × Exit Rest Result}
    (reaches : Reaches code from_ shared place middle) (whole : Executes code from_ shared out) :
    Executes code place middle out := by
  -- What is left of a section still ends as the section does.
  induction reaches with
  | refl => exact whole
  | step _ goes ih =>
    cases ih with
    | exit exits =>
      rw [goes] at exits
      cases exits
    | step again later =>
      rw [goes] at again
      cases again
      exact later

/-! ## The two systems -/

/-- Where a thread stands; `ready` and `inside` are in front of and behind the lock. -/
inductive Thread (Rest Place : Type) where
  | outside
  | ready (rest : Rest)
  | inside (place : Place)
  | asleep (rest : Rest)

namespace Exit

def thread (Place : Type) : Exit Rest Result → Thread Rest Place
  | .wait rest => .asleep rest
  | .leave _ => .outside

def events (thread : Nat) : Exit Rest Result → List (Nat × Result)
  | .wait _ => []
  | .leave result => [(thread, result)]

end Exit

/-- A thread may call, take its turn, or be woken, for a reason or for none. -/
inductive Action (Rest : Type) where
  | call (thread : Nat) (rest : Rest)
  | turn (thread : Nat)
  | wake (thread : Nat)

/-- Threads that run whole sections. -/
structure Sections (Shared Rest Place : Type) where
  shared : Shared
  threads : Nat → Thread Rest Place

structure Statements (Shared Rest Place : Type) where
  shared : Shared
  lock : Option Nat
  threads : Nat → Thread Rest Place

def sectionStep (summary : Rest → Shared → Shared × Exit Rest Result) (s : Sections Shared Rest Place) :
    Action Rest → Option (Sections Shared Rest Place × List (Nat × Result))
  | .call i rest =>
    match s.threads i with
    | .outside => some ({ s with threads := Function.update s.threads i (.ready rest) }, [])
    | _ => none
  | .turn i =>
    match s.threads i with
    | .ready rest =>
      let (shared, how) := summary rest s.shared
      some (⟨shared, Function.update s.threads i (how.thread Place)⟩, how.events i)
    | _ => none
  | .wake i =>
    match s.threads i with
    | .asleep rest => some ({ s with threads := Function.update s.threads i (.ready rest) }, [])
    | _ => none

def statementStep (code : Code Shared Rest Place Result) (s : Statements Shared Rest Place) :
    Action Rest → Option (Statements Shared Rest Place × List (Nat × Result))
  | .call i rest =>
    match s.threads i with
    | .outside => some ({ s with threads := Function.update s.threads i (.ready rest) }, [])
    | _ => none
  | .turn i =>
    match s.threads i with
    | .ready rest =>
      match s.lock with
      | none => some ({ s with lock := some i, threads := Function.update s.threads i (.inside (code.start rest)) }, [])
      | some _ => none
    | .inside place =>
      match code.exec place s.shared with
      | (shared, .goto next) =>
        some ({ s with shared := shared, threads := Function.update s.threads i (.inside next) }, [])
      | (shared, .exit how) =>
        some (⟨shared, none, Function.update s.threads i (how.thread Place)⟩, how.events i)
    | _ => none
  | .wake i =>
    match s.threads i with
    | .asleep rest => some ({ s with threads := Function.update s.threads i (.ready rest) }, [])
    | _ => none

def sectionsFrom (shared : Shared) : Sections Shared Rest Place := ⟨shared, fun _ => .outside⟩

def statementsFrom (shared : Shared) : Statements Shared Rest Place := ⟨shared, none, fun _ => .outside⟩

abbrev SectionRun (Place : Type) (summary : Rest → Shared → Shared × Exit Rest Result) (shared : Shared) :
    Sections Shared Rest Place → List (Nat × Result) → Prop :=
  Run (sectionStep summary) (fun _ _ => True) (sectionsFrom shared)

abbrev StatementRun (code : Code Shared Rest Place Result) (shared : Shared) :
    Statements Shared Rest Place → List (Nat × Result) → Prop :=
  Run (statementStep code) (fun _ _ => True) (statementsFrom shared)

/-! ## Statements are as sections -/

/-- A thread in its section has not taken its turn in the system of sections. -/
structure Follows (code : Code Shared Rest Place Result) (s : Statements Shared Rest Place)
    (c : Sections Shared Rest Place) : Prop where
  free : s.lock = none → s.shared = c.shared
  held : ∀ i, s.lock = some i → ∃ rest place, s.threads i = .inside place ∧ c.threads i = .ready rest ∧
    Reaches code (code.start rest) c.shared place s.shared
  others : ∀ i, s.lock ≠ some i → s.threads i = c.threads i
  whole : ∀ i place, c.threads i ≠ .inside place

variable {summary : Rest → Shared → Shared × Exit Rest Result} {s t : Statements Shared Rest Place}
  {c d : Sections Shared Rest Place} {events trace : List (Nat × Result)} {shared : Shared}

theorem update_agree {f g : Nat → Thread Rest Place} {i : Nat} (thread : Thread Rest Place)
    (agree : ∀ j, j ≠ i → f j = g j) (j : Nat) : Function.update f i thread j = Function.update g i thread j := by
  by_cases same : j = i
  · rw [same, Function.update_self, Function.update_self]
  · rw [Function.update_of_ne same, Function.update_of_ne same, agree j same]

theorem update_whole {f : Nat → Thread Rest Place} {thread : Thread Rest Place} (i : Nat)
    (stands : ∀ place, thread ≠ .inside place) (whole : ∀ j place, f j ≠ .inside place) (j : Nat) (place : Place) :
    Function.update f i thread j ≠ .inside place := by
  by_cases same : j = i
  · rw [same, Function.update_self]
    exact stands place
  · rw [Function.update_of_ne same]
    exact whole j place

theorem Follows.start (code : Code Shared Rest Place Result) (shared : Shared) :
    Follows code (statementsFrom shared) (sectionsFrom shared) where
  free _ := rfl
  held _ locked := nomatch locked
  others _ _ := rfl
  whole _ _ := nofun

theorem Follows.locked (follows : Follows code s c) {i : Nat} {place : Place} (inside : s.threads i = .inside place) :
    s.lock = some i := by
  by_contra free
  rw [follows.others i free] at inside
  exact follows.whole i place inside

theorem Follows.exclusive (follows : Follows code s c) {i j : Nat} {place other : Place}
    (first : s.threads i = .inside place) (second : s.threads j = .inside other) : i = j :=
  Option.some.inj ((follows.locked first).symm.trans (follows.locked second))

theorem Follows.move (follows : Follows code s c) {i : Nat} (apart : s.lock ≠ some i) {thread : Thread Rest Place}
    (stands : ∀ place, thread ≠ .inside place) :
    Follows code { s with threads := Function.update s.threads i thread }
      { c with threads := Function.update c.threads i thread } where
  free := follows.free
  held j locked := by
    obtain ⟨rest, place, inside, ready, reaches⟩ := follows.held j locked
    have other : j ≠ i := fun same => apart (same ▸ locked)
    exact ⟨rest, place, (Function.update_of_ne other ..).trans inside, (Function.update_of_ne other ..).trans ready, reaches⟩
  others j free := by
    change Function.update s.threads i thread j = Function.update c.threads i thread j
    by_cases same : j = i
    · rw [same, Function.update_self, Function.update_self]
    · rw [Function.update_of_ne same, Function.update_of_ne same]
      exact follows.others j free
  whole := update_whole i stands follows.whole

theorem Follows.enter (follows : Follows code s c) {i : Nat} {rest : Rest} (free : s.lock = none)
    (ready : s.threads i = .ready rest) : Follows code
      { s with lock := some i, threads := Function.update s.threads i (.inside (code.start rest)) } c where
  free locked := nomatch locked
  held j locked := by
    obtain rfl : i = j := Option.some.inj locked
    refine ⟨rest, code.start rest, Function.update_self .., ?_, ?_⟩
    · rw [← follows.others i (by simp [free]), ready]
    · rw [← follows.free free]
      exact .refl
  others j apart := by
    have other : j ≠ i := fun same => apart (by rw [same])
    exact (Function.update_of_ne other ..).trans (follows.others j (by simp [free]))
  whole := follows.whole

theorem Follows.goto (follows : Follows code s c) {i : Nat} {place next : Place} {after : Shared}
    (inside : s.threads i = .inside place) (goes : code.exec place s.shared = (after, .goto next)) :
    Follows code { s with shared := after, threads := Function.update s.threads i (.inside next) } c where
  free free := nomatch (follows.locked inside).symm.trans free
  held j locked := by
    obtain rfl : i = j := Option.some.inj ((follows.locked inside).symm.trans locked)
    obtain ⟨rest, _, again, ready, reaches⟩ := follows.held i locked
    rw [inside] at again
    cases again
    exact ⟨rest, next, Function.update_self .., ready, reaches.step goes⟩
  others j apart := by
    have other : j ≠ i := fun same => apart (by rw [same]; exact follows.locked inside)
    exact (Function.update_of_ne other ..).trans (follows.others j apart)
  whole := follows.whole

theorem Follows.exit (summarises : Summarises code summary) (follows : Follows code s c) {i : Nat} {place : Place}
    {after : Shared} {how : Exit Rest Result} (inside : s.threads i = .inside place)
    (exits : code.exec place s.shared = (after, .exit how)) :
    ∃ d, sectionStep summary c (.turn i) = some (d, how.events i) ∧
      Follows code ⟨after, none, Function.update s.threads i (how.thread Place)⟩ d := by
  -- The last statement of a section is the turn of the thread in the system of sections.
  have locked := follows.locked inside
  obtain ⟨rest, _, again, ready, reaches⟩ := follows.held i locked
  rw [inside] at again
  cases again
  have section_ : summary rest c.shared = (after, how) :=
    (summarises rest c.shared).deterministic (reaches.executes (.exit exits))
  refine ⟨⟨after, Function.update c.threads i (how.thread Place)⟩, by simp only [sectionStep, ready, section_], ?_⟩
  constructor
  · exact fun _ => rfl
  · exact fun j locked => nomatch locked
  · exact fun j _ => update_agree _ (fun j apart => follows.others j fun other =>
      apart (Option.some.inj (other.symm.trans locked))) j
  · exact update_whole i (by cases how <;> nofun) follows.whole

theorem Follows.step (summarises : Summarises code summary) (follows : Follows code s c) {action : Action Rest}
    (stepped : statementStep code s action = some (t, events)) :
    (events = [] ∧ Follows code t c) ∨ ∃ d, sectionStep summary c action = some (d, events) ∧ Follows code t d := by
  have free {i : Nat} {thread : Thread Rest Place} (stands : s.threads i = thread)
      (elsewhere : ∀ place, thread ≠ .inside place) : s.lock ≠ some i := by
    intro locked
    obtain ⟨_, place, inside, _⟩ := follows.held i locked
    exact elsewhere place (stands.symm.trans inside)
  cases action with
  | call i rest =>
    simp only [statementStep] at stepped
    split at stepped
    next outside =>
      cases stepped
      have apart := free outside nofun
      refine .inr ⟨_, ?_, follows.move apart nofun⟩
      simp only [sectionStep, ← follows.others i apart, outside]
    next => cases stepped
  | turn i =>
    simp only [statementStep] at stepped
    split at stepped
    next rest ready =>
      split at stepped
      next unlocked =>
        cases stepped
        exact .inl ⟨rfl, follows.enter unlocked ready⟩
      next => cases stepped
    next place inside =>
      split at stepped
      next after next goes =>
        cases stepped
        exact .inl ⟨rfl, follows.goto inside goes⟩
      next after how exits =>
        cases stepped
        exact .inr (follows.exit summarises inside exits)
    next => cases stepped
  | wake i =>
    simp only [statementStep] at stepped
    split at stepped
    next rest asleep =>
      cases stepped
      have apart := free asleep nofun
      refine .inr ⟨_, ?_, follows.move apart nofun⟩
      simp only [sectionStep, ← follows.others i apart, asleep]
    next => cases stepped

/-- What threads do statement by statement they can do section by section. -/
theorem StatementRun.follows (summarises : Summarises code summary) (run : StatementRun code shared s trace) :
    ∃ c, SectionRun Place summary shared c trace ∧ Follows code s c := by
  refine Run.invariant (fun s trace => ∃ c, SectionRun Place summary shared c trace ∧ Follows code s c)
    ⟨_, .start, .start code shared⟩ ?_ run
  rintro s t trace events action _ ⟨c, sections, follows⟩ _ stepped
  rcases follows.step summarises stepped with ⟨rfl, still⟩ | ⟨d, turned, after⟩
  · exact ⟨c, by rwa [List.append_nil], still⟩
  · exact ⟨d, sections.next trivial turned, after⟩

/-! ## Sections are as statements -/

theorem Executes.run {place : Place} {middle : Shared} {out : Shared × Exit Rest Result} {i : Nat}
    {threads : Nat → Thread Rest Place} (executes : Executes code place middle out)
    (run : StatementRun code shared ⟨middle, some i, Function.update threads i (.inside place)⟩ trace) :
    StatementRun code shared ⟨out.1, none, Function.update threads i (out.2.thread Place)⟩
      (trace ++ out.2.events i) := by
  -- The thread with the lock can run its section to the end.
  induction executes generalizing trace with
  | exit exits =>
    refine run.next trivial (show statementStep code _ (.turn i) = _ from ?_)
    simp only [statementStep, Function.update_self, exits, Function.update_idem]
  | step goes _ ih =>
    refine ih ?_
    rw [← List.append_nil trace]
    refine run.next trivial (show statementStep code _ (.turn i) = _ from ?_)
    simp only [statementStep, Function.update_self, goes, Function.update_idem]

theorem SectionRun.statements (summarises : Summarises code summary) (run : SectionRun Place summary shared c trace) :
    StatementRun code shared ⟨c.shared, none, c.threads⟩ trace := by
  refine Run.invariant (fun c trace => StatementRun code shared ⟨c.shared, none, c.threads⟩ trace) .start ?_ run
  intro c d trace events action _ statements _ stepped
  cases action with
  | call i rest =>
    simp only [sectionStep] at stepped
    split at stepped
    next outside =>
      cases stepped
      exact statements.next trivial (show statementStep code _ (.call i rest) = _ by simp only [statementStep, outside])
    next => cases stepped
  | turn i =>
    simp only [sectionStep] at stepped
    split at stepped
    next rest ready =>
      cases stepped
      have locked : StatementRun code shared
          ⟨c.shared, some i, Function.update c.threads i (.inside (code.start rest))⟩ trace := by
        rw [← List.append_nil trace]
        exact statements.next trivial (show statementStep code _ (.turn i) = _ by simp only [statementStep, ready])
      exact (summarises rest c.shared).run locked
    next => cases stepped
  | wake i =>
    simp only [sectionStep] at stepped
    split at stepped
    next rest asleep =>
      cases stepped
      exact statements.next trivial (show statementStep code _ (.wake i) = _ by simp only [statementStep, asleep])
    next => cases stepped

/-- The two systems report the same. -/
theorem same_traces (summarises : Summarises code summary) :
    (∃ s, StatementRun code shared s trace) ↔ ∃ c, SectionRun Place summary shared c trace := by
  constructor
  · rintro ⟨s, run⟩
    obtain ⟨c, sections, _⟩ := StatementRun.follows summarises run
    exact ⟨c, sections⟩
  · rintro ⟨c, run⟩
    exact ⟨_, SectionRun.statements summarises run⟩

/-! ## The lock comes free -/

theorem Executes.turns {place : Place} {out : Shared × Exit Rest Result} (executes : Executes code place shared out)
    (i : Nat) (threads : Nat → Thread Rest Place) :
    ∃ n, perform (statementStep code) (List.replicate n (.turn i))
      ⟨shared, some i, Function.update threads i (.inside place)⟩ =
        some (⟨out.1, none, Function.update threads i (out.2.thread Place)⟩, out.2.events i) := by
  induction executes with
  | exit exits =>
    refine ⟨1, ?_⟩
    simp only [List.replicate_one, perform, statementStep, Function.update_self, exits, Function.update_idem,
      List.append_nil]
  | step goes _ ih =>
    obtain ⟨n, performed⟩ := ih
    refine ⟨n + 1, ?_⟩
    simp only [List.replicate_succ, perform, statementStep, Function.update_self, goes, Function.update_idem, performed,
      List.nil_append]

theorem Follows.comes_free (summarises : Summarises code summary) (follows : Follows code s c) {i : Nat}
    (locked : s.lock = some i) :
    ∃ n t events, perform (statementStep code) (List.replicate n (.turn i)) s = some (t, events) ∧ t.lock = none := by
  obtain ⟨rest, place, inside, _, reaches⟩ := follows.held i locked
  obtain ⟨n, performed⟩ := (reaches.rest (summarises rest c.shared)).turns i s.threads
  rw [← inside, Function.update_eq_self, ← locked] at performed
  exact ⟨n, _, _, performed, rfl⟩

end Monitor
