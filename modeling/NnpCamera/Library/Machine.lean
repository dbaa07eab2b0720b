/-
This file compares two machines by the results that they give for the same calls.
-/

import Mathlib.Tactic.Common

namespace NnpCamera.Library

/-- A machine takes a call in each state, and gives a result and the next state. -/
structure Machine (State Call Result : Type) where
  step : State → Call → State × Result

namespace Machine
variable {State Other Call Result : Type}

/-- The state after some calls. -/
def after (machine : Machine State Call Result) (state : State) (calls : List Call) : State :=
  calls.foldl (fun state call => (machine.step state call).1) state

/-- The results of some calls in their order. -/
def results (machine : Machine State Call Result) : State → List Call → List Result
  | _, [] => []
  | state, call :: rest =>
      let next := machine.step state call
      next.2 :: machine.results next.1 rest

/-- A relation simulates when each call keeps it and gives equal results. -/
def Simulates (concrete : Machine State Call Result) (abstract : Machine Other Call Result)
    (related : State → Other → Prop) : Prop :=
  ∀ state other call, related state other →
    (concrete.step state call).2 = (abstract.step other call).2 ∧
      related (concrete.step state call).1 (abstract.step other call).1

variable {concrete : Machine State Call Result} {abstract : Machine Other Call Result}
  {related : State → Other → Prop} {state : State} {other : Other}

/-- The last call starts where the calls before it end. -/
theorem after_concat (machine : Machine State Call Result) (state : State) (calls : List Call)
    (call : Call) :
    machine.after state (calls ++ [call]) = (machine.step (machine.after state calls) call).1 :=
  List.foldl_append ..

/-- A fact that each call keeps holds after all calls. -/
theorem after_invariant {machine : Machine State Call Result} (fact : State → Prop)
    (keeps : ∀ state call, fact state → fact (machine.step state call).1) (start : fact state)
    (calls : List Call) : fact (machine.after state calls) := by
  induction calls generalizing state with
  | nil => exact start
  | cons call rest ih => exact ih (keeps state call start)

/-- A simulation gives equal results for all calls. -/
theorem Simulates.results_eq (simulates : concrete.Simulates abstract related)
    (start : related state other) (calls : List Call) :
    concrete.results state calls = abstract.results other calls := by
  induction calls generalizing state other with
  | nil => rfl
  | cons call rest ih =>
      obtain ⟨same, next⟩ := simulates state other call start
      rw [results, results, same]
      exact congrArg _ (ih next)

/-- A simulation lasts over all calls. -/
theorem Simulates.after (simulates : concrete.Simulates abstract related)
    (start : related state other) (calls : List Call) :
    related (concrete.after state calls) (abstract.after other calls) := by
  induction calls generalizing state other with
  | nil => exact start
  | cons call rest ih => exact ih (simulates state other call start).2

/-- Two simulations make one. -/
theorem Simulates.trans {Middle : Type} {between : Machine Middle Call Result}
    {low : State → Middle → Prop} {high : Middle → Other → Prop}
    (lower : concrete.Simulates between low) (upper : between.Simulates abstract high) :
    concrete.Simulates abstract fun state other => ∃ middle, low state middle ∧ high middle other := by
  intro state other call ⟨middle, one, two⟩
  obtain ⟨lowSame, lowNext⟩ := lower state middle call one
  obtain ⟨highSame, highNext⟩ := upper middle other call two
  exact ⟨lowSame.trans highSame, _, lowNext, highNext⟩

end Machine

/-- A caller reads from a queue or writes a value to it. -/
inductive QueueCall (Value : Type) where
  | read
  | write (value : Value)

/-- A read gives a value if there is one. A write is stored or refused. -/
inductive QueueResult (Value : Type) where
  | value (value : Option Value)
  | stored (room : Bool)
  deriving DecidableEq

/-- A bounded queue stores values up to its capacity and gives them back in their order. -/
def boundedQueue (Value : Type) (capacity : Nat) :
    Machine (List Value) (QueueCall Value) (QueueResult Value) where
  step contents call :=
    match call with
    | .read => (contents.tail, .value contents.head?)
    | .write value =>
        if contents.length < capacity then (contents ++ [value], .stored true)
        else (contents, .stored false)

end NnpCamera.Library
