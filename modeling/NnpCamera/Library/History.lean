/-
This file adds a history to a system. The steps of the system do not depend on it.
-/

import NnpCamera.Library.Runs

namespace NnpCamera.Library.System
variable {State Event History : Type} {sys : System State Event}
  {record : State → Event → History → History}

/-- Each step of the system is recorded. -/
def traced (sys : System State Event) (record : State → Event → History → History) :
    System (State × History) Event where
  step state event := (sys.step state.1 event).map fun next => (next, record state.1 event state.2)

/-- The history does not change which states are reached. -/
theorem Reaches.untraced {start state : State × History}
    (reached : (sys.traced record).Reachable start state) : sys.Reachable start.1 state.1 := by
  induction reached with
  | start => exact .start
  | next _ _ stepped ih =>
      obtain ⟨next, moved, rfl⟩ := Option.map_eq_some_iff.mp stepped
      exact .next ih trivial moved

/-- A fact about a state and its history holds after each run when each step keeps it. The step may
use a fact of the system alone. -/
theorem Reaches.traced_invariant {start state : State × History} {known : State → Prop}
    {fact : State → History → Prop} (reached : (sys.traced record).Reachable start state)
    (knows : ∀ state, sys.Reachable start.1 state → known state) (base : fact start.1 start.2)
    (keeps : ∀ before event after history, known before → fact before history →
      sys.step before event = some after → fact after (record before event history)) :
    fact state.1 state.2 := by
  induction reached with
  | start => exact base
  | next earlier _ stepped ih =>
      obtain ⟨next, moved, rfl⟩ := Option.map_eq_some_iff.mp stepped
      exact keeps _ _ _ _ (knows _ (Reaches.untraced earlier)) ih moved

end NnpCamera.Library.System
