import Mathlib.Tactic.Common

namespace NnpCamera.Library

/-- A program takes atomic actions and tests the state between them. -/
inductive Program (State : Type) where
  | done
  | act (action : State → State) (rest : Program State)
  | branch (test : State → Bool) (yes no : Program State)

namespace Program
variable {State View : Type}

/-- The second program starts where the first one ends. -/
def seq : Program State → Program State → Program State
  | done, second => second
  | act action rest, second => act action (rest.seq second)
  | branch test yes no, second => branch test (yes.seq second) (no.seq second)

instance : Append (Program State) := ⟨seq⟩

/-- A straight-line program takes its actions in order. -/
def acts : List (State → State) → Program State
  | [] => done
  | action :: rest => act action (acts rest)

/-- This program runs its body only when the test holds. -/
def only (test : State → Bool) (body : Program State) : Program State := branch test body done

/-- An uninterrupted run executes the program to its end. -/
def exec : Program State → State → State
  | done, state => state
  | act action rest, state => rest.exec (action state)
  | branch test yes no, state => if test state then yes.exec state else no.exec state

@[simp] theorem exec_done (state : State) : (done : Program State).exec state = state := rfl

@[simp] theorem exec_act (action : State → State) (rest : Program State) (state : State) :
    (act action rest).exec state = rest.exec (action state) := rfl

@[simp] theorem exec_append (first second : Program State) (state : State) :
    (first ++ second).exec state = second.exec (first.exec state) := by
  change (first.seq second).exec state = _
  induction first generalizing state with
  | done => rfl
  | act action rest ih => exact ih (action state)
  | branch test yes no ihYes ihNo =>
      simp only [seq, exec]
      split
      · exact ihYes state
      · exact ihNo state

theorem acts_append (first second : List (State → State)) :
    (acts (first ++ second) : Program State) = acts first ++ acts second := by
  induction first with
  | nil => rfl
  | cons action rest ih => exact congrArg (act action) ih

@[simp] theorem exec_only (test : State → Bool) (body : Program State) (state : State) :
    (only test body).exec state = if test state then body.exec state else state := rfl

/-- A branch carries a map along when its test does not see the map. -/
theorem exec_branch_map {map : State → State} {test : State → Bool} {yes no : Program State}
    {state : State} (same : test (map state) = test state)
    (passed : yes.exec (map state) = map (yes.exec state))
    (failed : no.exec (map state) = map (no.exec state)) :
    (branch test yes no).exec (map state) = map ((branch test yes no).exec state) := by
  rw [exec, exec, same]
  split
  · exact passed
  · exact failed

/-- One step is one action or one test. -/
def next : Program State → State → Option (State × Program State)
  | done, _ => none
  | act action rest, state => some (action state, rest)
  | branch test yes no, state => some (state, if test state then yes else no)

/-- A step does not change where the uninterrupted run ends. -/
theorem next_exec {program rest : Program State} {state after : State}
    (stepped : program.next state = some (after, rest)) :
    rest.exec after = program.exec state := by
  cases program with
  | done => simp [next] at stepped
  | act action tail =>
      obtain ⟨rfl, rfl⟩ : action state = after ∧ tail = rest := by simpa [next] using stepped
      rfl
  | branch test yes no =>
      obtain ⟨rfl, rfl⟩ : state = after ∧ (if test state then yes else no) = rest := by
        simpa [next] using stepped
      simp only [exec]
      split <;> rfl

/-- Only a complete program has no next step. -/
theorem next_none {program : Program State} {state : State}
    (stopped : program.next state = none) : program = done := by
  cases program with
  | done => rfl
  | act action rest => simp [next] at stopped
  | branch test yes no => simp [next] at stopped

/-- A program that is cut short ends after this number of steps at most. -/
def execFor : Nat → Program State → State → State
  | 0, _, state => state
  | _ + 1, done, state => state
  | count + 1, act action rest, state => rest.execFor count (action state)
  | count + 1, branch test yes no, state =>
      if test state then yes.execFor count state else no.execFor count state

@[simp] theorem execFor_zero (program : Program State) (state : State) :
    program.execFor 0 state = state := by
  cases program <;> rfl

@[simp] theorem execFor_done (count : Nat) (state : State) :
    (done : Program State).execFor count state = state := by
  cases count <;> rfl

/-- Each action of the program keeps the view of the state. -/
def Keeps (view : State → View) : Program State → Prop
  | done => True
  | act action rest => (∀ state, view (action state) = view state) ∧ rest.Keeps view
  | branch _ yes no => yes.Keeps view ∧ no.Keeps view

@[simp] theorem keeps_done (view : State → View) : (done : Program State).Keeps view := trivial

@[simp] theorem keeps_append (view : State → View) (first second : Program State) :
    (first ++ second).Keeps view ↔ first.Keeps view ∧ second.Keeps view := by
  change (first.seq second).Keeps view ↔ _
  induction first with
  | done => simp [seq, Keeps]
  | act action rest ih => simp only [seq, Keeps, ih, and_assoc]
  | branch test yes no ihYes ihNo =>
      simp only [seq, Keeps, ihYes, ihNo]
      constructor
      · intro ⟨⟨keepsYes, keepsSecond⟩, keepsNo, _⟩
        exact ⟨⟨keepsYes, keepsNo⟩, keepsSecond⟩
      · intro ⟨⟨keepsYes, keepsNo⟩, keepsSecond⟩
        exact ⟨⟨keepsYes, keepsSecond⟩, keepsNo, keepsSecond⟩

@[simp] theorem keeps_acts (view : State → View) (actions : List (State → State)) :
    (acts actions).Keeps view ↔ ∀ action ∈ actions, ∀ state, view (action state) = view state := by
  induction actions with
  | nil => simp [acts]
  | cons action rest ih => simp only [acts, Keeps, ih, List.forall_mem_cons]

@[simp] theorem keeps_branch (view : State → View) (test : State → Bool)
    (yes no : Program State) :
    (branch test yes no).Keeps view ↔ yes.Keeps view ∧ no.Keeps view := .rfl

@[simp] theorem keeps_only (view : State → View) (test : State → Bool) (body : Program State) :
    (only test body).Keeps view ↔ body.Keeps view := by
  simp [only, Keeps]

/-- A complete run keeps each view that all actions keep. -/
theorem Keeps.exec {view : State → View} {program : Program State}
    (keeps : program.Keeps view) (state : State) : view (program.exec state) = view state := by
  induction program generalizing state with
  | done => rfl
  | act action rest ih =>
      rw [exec_act, ih keeps.2, keeps.1]
  | branch test yes no ihYes ihNo =>
      simp only [Program.exec]
      split
      · exact ihYes keeps.1 state
      · exact ihNo keeps.2 state

/-- No complete run changes a view that all actions keep. -/
theorem Keeps.unchanged {view : State → View} {program : Program State} {goal : Prop}
    (keeps : program.Keeps view) (state : State)
    (changed : view (program.exec state) ≠ view state) : goal :=
  absurd (keeps.exec state) changed

/-- Each complete run of the program carries the fact along. -/
def Preserves (fact : State → Prop) (program : Program State) : Prop :=
  ∀ state, fact state → fact (program.exec state)

theorem Preserves.append {fact : State → Prop} {first second : Program State}
    (one : first.Preserves fact) (two : second.Preserves fact) :
    (first ++ second).Preserves fact := by
  intro state holds
  rw [exec_append]
  exact two _ (one state holds)

/-- A guarded body can use its test. -/
theorem Preserves.only {fact : State → Prop} {test : State → Bool} {body : Program State}
    (inner : ∀ state, test state = true → fact state → fact (body.exec state)) :
    (only test body).Preserves fact := by
  intro state holds
  rw [exec_only]
  split
  next passed => exact inner state passed holds
  next => exact holds

end Program

end NnpCamera.Library
