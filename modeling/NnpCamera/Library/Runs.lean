import Mathlib.Data.Option.Basic
import Mathlib.Logic.Basic

namespace NnpCamera.Library

/-- A system moves by one event, and only when the state enables that event. -/
structure System (State Event : Type) where
  step : State → Event → Option State

namespace System
variable {State Event : Type}

/-- A run takes its events in order and fails at the first event that is not enabled. -/
def run (sys : System State Event) : State → List Event → Option State
  | state, [] => some state
  | state, event :: rest => (sys.step state event).bind fun next => sys.run next rest

@[simp] theorem run_nil (sys : System State Event) (state : State) :
    sys.run state [] = some state := rfl

theorem run_cons (sys : System State Event) (state : State) (event : Event) (rest : List Event) :
    sys.run state (event :: rest) =
      (sys.step state event).bind fun next => sys.run next rest := rfl

/-- These states end the finite runs whose steps all meet one condition. -/
inductive Reaches (sys : System State Event) (meets : State → Event → Prop) (start : State) :
    State → Prop where
  | start : Reaches sys meets start start
  | next {state after : State} {event : Event} : Reaches sys meets start state →
      meets state event → sys.step state event = some after → Reaches sys meets start after

/-- A reachable state ends some finite run. -/
abbrev Reachable (sys : System State Event) (start : State) : State → Prop :=
  sys.Reaches (fun _ _ => True) start

/-- A fact that holds at the start and survives each permitted step holds after each run. -/
theorem Reaches.invariant {sys : System State Event} {meets : State → Event → Prop}
    {start state : State} {fact : State → Prop} (reached : sys.Reaches meets start state)
    (base : fact start)
    (keeps : ∀ before event after, fact before → meets before event →
      sys.step before event = some after → fact after) : fact state := by
  induction reached with
  | start => exact base
  | next _ met stepped ih => exact keeps _ _ _ ih met stepped

/-- Two runs with the same condition join at their common state. -/
theorem Reaches.trans {sys : System State Event} {meets : State → Event → Prop}
    {start middle state : State} (first : sys.Reaches meets start middle)
    (second : sys.Reaches meets middle state) : sys.Reaches meets start state := by
  induction second with
  | start => exact first
  | next _ met stepped ih => exact .next ih met stepped

/-- The guarded system refuses each step that fails the condition. -/
def guarded (sys : System State Event) (meets : State → Event → Prop)
    [∀ state event, Decidable (meets state event)] : System State Event where
  step state event := if meets state event then sys.step state event else none

section Checks
variable (sys : System State Event) (meets : State → Event → Prop)
  [∀ state event, Decidable (meets state event)]

/-- A successful guarded run reaches its final state by permitted steps. -/
theorem guarded_run (start : State) (events : List Event) {final : State}
    (ran : (sys.guarded meets).run start events = some final) :
    sys.Reaches meets start final := by
  induction events generalizing start with
  | nil =>
      simp only [run_nil, Option.some.injEq] at ran
      exact ran ▸ .start
  | cons event rest ih =>
      rw [run_cons, Option.bind_eq_some_iff] at ran
      obtain ⟨next, stepped, tail⟩ := ran
      by_cases met : meets start event
      · simp only [guarded, if_pos met] at stepped
        exact Reaches.trans (.next .start met stepped) (ih next tail)
      · simp [guarded, met] at stepped

/-- A check that a guarded run passes at its end is passed by a reached state. -/
theorem guarded_check (start : State) (events : List Event) (check : State → Bool)
    (passed : ((sys.guarded meets).run start events).any check = true) :
    ∃ final, sys.Reaches meets start final ∧ check final = true := by
  obtain ⟨final, ran, checked⟩ := (Option.any_eq_true _ _).mp passed
  exact ⟨final, guarded_run sys meets start events ran, checked⟩

end Checks

/-- A successful run reaches its final state. -/
theorem run_reachable (sys : System State Event) (start : State) (events : List Event)
    {final : State} (ran : sys.run start events = some final) : sys.Reachable start final := by
  have same : sys.guarded (fun _ _ => True) = sys := by simp [guarded]
  apply guarded_run sys (fun _ _ => True) start events
  rw [same]
  exact ran

/-- A check that a run passes at its end is passed by a reachable state. -/
theorem run_check (sys : System State Event) (start : State) (events : List Event)
    (check : State → Bool) (passed : (sys.run start events).any check = true) :
    ∃ final, sys.Reachable start final ∧ check final = true := by
  obtain ⟨final, ran, checked⟩ := (Option.any_eq_true _ _).mp passed
  exact ⟨final, sys.run_reachable start events ran, checked⟩

end System

end NnpCamera.Library
