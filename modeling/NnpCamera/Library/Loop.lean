import Mathlib.Tactic.Common

namespace NnpCamera.Library
variable {State View : Type}

/-- A counted loop runs its body for the indices below the count. -/
def loop (body : Nat → State → State) : Nat → State → State
  | 0, state => state
  | count + 1, state => body count (loop body count state)

/-- A fact that each pass carries to the next index holds after the loop. -/
theorem loop_invariant {body : Nat → State → State} {start : State} (fact : Nat → State → Prop)
    (count : Nat) (base : fact 0 start)
    (keeps : ∀ index state, index < count → fact index state →
      fact (index + 1) (body index state)) : fact count (loop body count start) := by
  induction count with
  | zero => exact base
  | succ count ih =>
      have before := ih fun index state inside => keeps index state (by omega)
      exact keeps count _ (by omega) before

/-- A loop keeps each view that its body keeps. -/
theorem loop_keeps {body : Nat → State → State} (view : State → View)
    (keeps : ∀ index state, view (body index state) = view state) (count : Nat) (start : State) :
    view (loop body count start) = view start := by
  induction count with
  | zero => rfl
  | succ count ih => rw [loop, keeps, ih]

/-- A loop advances a counter once in each pass. -/
theorem loop_counts {body : Nat → State → State} (counter : State → Nat)
    (advances : ∀ index state, counter (body index state) = counter state + 1) (count : Nat)
    (start : State) : counter (loop body count start) = counter start + count := by
  induction count with
  | zero => rfl
  | succ count ih => rw [loop, advances, ih, Nat.add_assoc]

/-- Two nested loops visit the cells of a grid row by row. -/
theorem loop_rows {body : Nat → Nat → State → State} {start : State} (fact : Nat → State → Prop)
    (width height : Nat) (base : fact 0 start)
    (keeps : ∀ x y state, x < width → y < height → fact (y * width + x) state →
      fact (y * width + x + 1) (body x y state)) :
    fact (height * width) (loop (fun y => loop (fun x => body x y) width) height start) := by
  refine loop_invariant (fun y => fact (y * width)) height (by simpa using base) ?_
  intro y state inside before
  rw [Nat.succ_mul]
  exact loop_invariant (fun x => fact (y * width + x)) width before
    fun x state within => keeps x y state within inside

attribute [irreducible] loop

section While
variable {test : State → Bool} {body : State → State} {state : State}

/-- A loop with a test has no result when the test still holds after so many passes. -/
def whileLoop (test : State → Bool) (body : State → State) : Nat → State → Option State
  | 0, state => if test state then none else some state
  | passes + 1, state =>
      if test state then whileLoop test body passes (body state) else some state

/-- A loop whose test fails ends at once. -/
theorem whileLoop_ended (ended : test state = false) (passes : Nat) :
    whileLoop test body passes state = some state := by
  cases passes with
  | zero => simp [whileLoop, ended]
  | succ passes => simp [whileLoop, ended]

/-- A loop does not end when the body keeps a fact under which the test holds. -/
theorem whileLoop_never (fact : State → Prop) (holds : ∀ state, fact state → test state = true)
    (keeps : ∀ state, fact state → fact (body state)) (begun : fact state) (passes : Nat) :
    whileLoop test body passes state = none := by
  induction passes generalizing state with
  | zero => simp [whileLoop, holds state begun]
  | succ passes ih =>
      rw [whileLoop, if_pos (holds state begun)]
      exact ih (keeps state begun)

end While

end NnpCamera.Library
