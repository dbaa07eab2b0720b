/-
This file models a counting semaphore with a largest count.
-/

import Mathlib.Logic.Function.Iterate
import Mathlib.Tactic.Common

namespace NnpCamera.Library

/-- A post increments the count. It has no effect at the limit. -/
def semaphorePost (limit count : Nat) : Nat := if count < limit then count + 1 else count

/-- A pend decrements the count. It blocks at zero. -/
def semaphorePend (count : Nat) : Option Nat := if 0 < count then some (count - 1) else none

/-- A granted pend takes one token. -/
theorem semaphorePend_some {before after : Nat} (granted : semaphorePend before = some after) :
    before = after + 1 := by
  unfold semaphorePend at granted
  split at granted
  next positive =>
    obtain rfl := Option.some.inj granted
    omega
  next => simp at granted

/-- Posts add their number to the count up to the limit. -/
theorem semaphorePost_iterate (limit count posts : Nat) :
    min limit (count + posts) ≤ (semaphorePost limit)^[posts] count := by
  induction posts generalizing count with
  | zero => exact Nat.min_le_right _ _
  | succ posts ih =>
      rw [Function.iterate_succ_apply]
      have rest := ih (semaphorePost limit count)
      have first : min limit (count + (posts + 1)) ≤
          min limit (semaphorePost limit count + posts) := by
        unfold semaphorePost
        split <;> omega
      exact Nat.le_trans first rest

end NnpCamera.Library
