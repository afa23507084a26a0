import Mathlib.Data.List.Induction
import Mathlib.Logic.Basic

/-! Runs of a partial step function that reports events.

An action resolves every choice the environment has in one step, so the step
itself is a function. A run collects the events of its steps, and `allowed`
restricts the actions by the state they are taken in.
-/

set_option autoImplicit false

namespace Transition

variable {State Action Event : Type}

/-- The states reached from `start` by allowed actions, each with its events. -/
inductive Run (step : State → Action → Option (State × List Event))
    (allowed : State → Action → Prop) (start : State) : State → List Event → Prop where
  | start : Run step allowed start start []
  | next {state next : State} {trace events : List Event} {action : Action} :
      Run step allowed start state trace → allowed state action →
      step state action = some (next, events) → Run step allowed start next (trace ++ events)

variable {step : State → Action → Option (State × List Event)}
  {allowed wider : State → Action → Prop} {start state : State} {trace : List Event}

/-- What holds at the start and survives every allowed step holds at every state
reached. The step may use that its source was reached. -/
theorem Run.invariant (Inv : State → List Event → Prop) (initial : Inv start [])
    (preserved : ∀ {s t : State} {trace events : List Event} {action : Action},
      Run step allowed start s trace → Inv s trace → allowed s action →
      step s action = some (t, events) → Inv t (trace ++ events))
    (run : Run step allowed start state trace) : Inv state trace := by
  induction run with
  | start => exact initial
  | next earlier permitted stepped ih => exact preserved earlier ih permitted stepped

theorem Run.weaken (admits : ∀ s action, allowed s action → wider s action)
    (run : Run step allowed start state trace) : Run step wider start state trace := by
  induction run with
  | start => exact .start
  | next _ permitted stepped ih => exact .next ih (admits _ _ permitted) stepped

theorem Run.iterate {action : Action} (permitted : ∀ s, allowed s action) (states : Nat → State) {i n : Nat}
    (steps : ∀ k, i ≤ k → k < i + n → step (states k) action = some (states (k + 1), []))
    (run : Run step allowed start (states i) trace) : Run step allowed start (states (i + n)) trace := by
  induction n with
  | zero => exact run
  | succ n ih =>
    have earlier := ih fun k above below => steps k above (by omega)
    have longer := earlier.next (permitted _) (steps (i + n) (by omega) (by omega))
    rwa [List.append_nil] at longer

/-- Perform a list of actions in order, failing where one is not possible. -/
def perform (step : State → Action → Option (State × List Event)) :
    List Action → State → Option (State × List Event)
  | [], state => some (state, [])
  | action :: rest, state =>
    match step state action with
    | none => none
    | some (next, events) =>
      match perform step rest next with
      | none => none
      | some (final, later) => some (final, events ++ later)

theorem perform_append {first second : List Action} {middle final : State} {events later : List Event}
    (performed : perform step first start = some (middle, events))
    (continued : perform step second middle = some (final, later)) :
    perform step (first ++ second) start = some (final, events ++ later) := by
  induction first generalizing start events with
  | nil =>
    cases performed
    exact continued
  | cons action rest ih =>
    simp only [perform, List.cons_append] at performed ⊢
    split at performed
    · cases performed
    next next early stepped =>
      split at performed
      · cases performed
      next reached more rested =>
        cases performed
        rw [ih rested]
        simp only [List.append_assoc]

/-- Where each event names the action it reports, a run can be taken again from its trace. -/
theorem Run.replay {Out : Type} {step : State → Action → Option (State × List (Action × Out))}
    {trace : List (Action × Out)}
    (named : ∀ {s t : State} {a : Action} {events : List (Action × Out)}, step s a = some (t, events) →
      ∃ out, events = [(a, out)])
    (run : Run step allowed start state trace) : perform step (trace.map Prod.fst) start = some (state, trace) := by
  refine Run.invariant (fun s trace => perform step (trace.map Prod.fst) start = some (s, trace)) rfl ?_ run
  intro s t trace events action _ before _ stepped
  obtain ⟨out, rfl⟩ := named stepped
  rw [List.map_append]
  exact perform_append before (by simp only [List.map_cons, List.map_nil, perform, stepped, List.append_nil])

theorem Run.exists_taking {Out : Type} {step : State → Action → Option (State × List (Action × Out))}
    (permitted : ∀ s action, allowed s action)
    (possible : ∀ {s : State} {trace : List (Action × Out)}, Run step allowed start s trace →
      ∀ action, ∃ t out, step s action = some (t, [(action, out)]))
    (actions : List Action) : ∃ s trace, Run step allowed start s trace ∧ trace.map Prod.fst = actions := by
  induction actions using List.reverseRecOn with
  | nil => exact ⟨start, [], .start, rfl⟩
  | append_singleton earlier action ih =>
    obtain ⟨s, trace, run, named⟩ := ih
    obtain ⟨t, out, stepped⟩ := possible run action
    exact ⟨t, _, run.next (permitted s action) stepped, by rw [List.map_append, named]; rfl⟩

theorem Run.perform {actions : List Action} (permitted : ∀ action ∈ actions, ∀ s, allowed s action)
    {final : State} {events : List Event} (run : Run step allowed start state trace)
    (performed : Transition.perform step actions state = some (final, events)) :
    Run step allowed start final (trace ++ events) := by
  induction actions generalizing state trace events with
  | nil =>
    simp only [Transition.perform, Option.some.injEq, Prod.mk.injEq] at performed
    obtain ⟨rfl, rfl⟩ := performed
    simpa using run
  | cons action rest ih =>
    simp only [Transition.perform] at performed
    split at performed
    · cases performed
    next middle first stepped =>
      split at performed
      · cases performed
      next last later continued =>
        simp only [Option.some.injEq, Prod.mk.injEq] at performed
        obtain ⟨rfl, rfl⟩ := performed
        have extended := ih (fun a member => permitted a (List.mem_cons_of_mem _ member))
          (run.next (permitted action (by simp) _) stepped) continued
        rwa [List.append_assoc] at extended

theorem Run.of_perform {actions : List Action} (permitted : ∀ action ∈ actions, ∀ s, allowed s action)
    {final : State} {events : List Event}
    (performed : Transition.perform step actions start = some (final, events)) :
    Run step allowed start final events := by
  simpa using Run.perform permitted .start performed

/-- The state some actions lead to, or the state itself where they cannot all be taken. -/
def after (step : State → Action → Option (State × List Event)) (actions : List Action) (state : State) : State :=
  match Transition.perform step actions state with
  | some (final, _) => final
  | none => state

theorem Run.after {actions : List Action} (permitted : ∀ action ∈ actions, ∀ s, allowed s action)
    (run : Run step allowed start state trace) :
    ∃ longer, Run step allowed start (Transition.after step actions state) longer := by
  unfold Transition.after
  split
  next final events performed => exact ⟨_, Run.perform permitted run performed⟩
  next => exact ⟨_, run⟩

/-- Where every step lowers a bound, as many actions as the bound says are enough to end. -/
theorem perform_ends (Bounded : State → Nat → Prop) (Ended : State → Prop)
    (lowers : ∀ s n, Bounded s n → ¬Ended s → 0 < n ∧ ∀ action, ∃ t events m,
      step s action = some (t, events) ∧ Bounded t m ∧ m < n)
    {n : Nat} {s : State} (bounded : Bounded s n) (actions : List Action) (enough : n ≤ actions.length) :
    ∃ k t events, Transition.perform step (actions.take k) s = some (t, events) ∧ Ended t := by
  induction actions generalizing n s with
  | nil =>
    refine ⟨0, s, [], rfl, Classical.byContradiction fun running => ?_⟩
    have positive := (lowers s n bounded running).1
    simp only [List.length_nil] at enough
    omega
  | cons action rest ih =>
    by_cases ended : Ended s
    · exact ⟨0, s, [], rfl, ended⟩
    · obtain ⟨t, events, m, stepped, lower, below⟩ := (lowers s n bounded ended).2 action
      simp only [List.length_cons] at enough
      obtain ⟨k, final, later, performed, done⟩ := ih lower (by omega)
      refine ⟨k + 1, final, events ++ later, ?_, done⟩
      simp only [List.take_succ_cons, Transition.perform, stepped, performed]

/-- Where every step pays for itself but the free ones, which gain at most one, a list of actions
that can be performed is not much longer than its free actions are many. -/
theorem perform_bounded (Inv : State → Prop) (worth : State → Nat) (free : Action → Bool)
    (keeps : ∀ {s t events action}, Inv s → step s action = some (t, events) → Inv t)
    (pays : ∀ {s t events action}, Inv s → step s action = some (t, events) → free action = false → worth t < worth s)
    (gains : ∀ {s t events action}, Inv s → step s action = some (t, events) → free action = true →
      worth t ≤ worth s + 1)
    {actions : List Action} {s t : State} {events : List Event} (inv : Inv s)
    (performed : Transition.perform step actions s = some (t, events)) :
    actions.length + worth t ≤ worth s + 2 * actions.countP free := by
  induction actions generalizing s events with
  | nil =>
    cases performed
    simp
  | cons action rest ih =>
    simp only [Transition.perform] at performed
    split at performed
    · cases performed
    next middle first stepped =>
      split at performed
      · cases performed
      next last later continued =>
        cases performed
        have bounded := ih (keeps inv stepped) continued
        rw [List.length_cons]
        cases costs : free action with
        | false =>
          rw [List.countP_cons_of_neg (by simp [costs])]
          have := pays inv stepped costs
          omega
        | true =>
          rw [List.countP_cons_of_pos costs]
          have := gains inv stepped costs
          omega

/-- Where a state that has not ended can always take some step of a kind, and such a step pays,
steps of that kind lead to an end. -/
theorem perform_reaches (Inv Ended : State → Prop) (worth : State → Nat) (kind : Action → Prop)
    (continues : ∀ {s}, Inv s → ¬Ended s → ∃ action t events, kind action ∧ step s action = some (t, events) ∧
      Inv t ∧ worth t < worth s)
    {s : State} (inv : Inv s) :
    ∃ actions t events, (∀ action ∈ actions, kind action) ∧ Transition.perform step actions s = some (t, events) ∧
      Ended t := by
  induction s using WellFounded.induction (measure worth).wf with
  | _ s ih =>
    by_cases ended : Ended s
    · exact ⟨[], s, [], by simp, rfl, ended⟩
    · obtain ⟨action, middle, first, ofKind, stepped, kept, less⟩ := continues inv ended
      obtain ⟨rest, t, later, ofKinds, performed, done⟩ := ih middle less kept
      refine ⟨action :: rest, t, first ++ later, ?_, ?_, done⟩
      · rintro other (_ | ⟨_, member⟩)
        · exact ofKind
        · exact ofKinds other member
      · simp only [Transition.perform, stepped, performed]

end Transition
