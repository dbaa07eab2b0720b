/-
This file develops lists of timers that count from the timer before, and their deadlines.
-/

import Mathlib.Data.List.Sort

namespace NnpCamera.Library

variable {Value : Type}

/-- Each entry of a delta list waits for its own time after the entry before it. -/
abbrev DeltaList (Value : Type) := List (Nat × Value)

namespace DeltaList

/-- An earlier deadline goes first. -/
def earlier (one two : Nat × Value) : Prop := one.1 < two.1

instance : DecidableRel (@earlier Value) := fun one two => Nat.decLt one.1 two.1

theorem earlier_add {clock time delta : Nat} {new value : Value} :
    earlier (clock + time, new) (clock + delta, value) ↔ time < delta :=
  Nat.add_lt_add_iff_left

/-- The deadlines of the entries from a clock. -/
def deadlines (clock : Nat) : DeltaList Value → List (Nat × Value)
  | [] => []
  | (delta, value) :: rest => (clock + delta, value) :: deadlines (clock + delta) rest

/-- The time until the last entry. -/
def total : DeltaList Value → Nat
  | [] => 0
  | (delta, _) :: rest => delta + total rest

/-- A new entry goes before the first entry with more time, which then counts from it. -/
def insert (time : Nat) (new : Value) : DeltaList Value → DeltaList Value
  | [] => [(time, new)]
  | (delta, value) :: rest =>
      if time < delta then (time, new) :: (delta - time, value) :: rest
      else (delta, value) :: insert (time - delta) new rest

/-- The next entry takes over a time. -/
def postpone (time : Nat) : DeltaList Value → DeltaList Value
  | [] => []
  | (delta, value) :: rest => (delta + time, value) :: rest

/-- The first entry with a property goes, and the next entry takes over its time. -/
def remove (found : Value → Bool) : DeltaList Value → DeltaList Value
  | [] => []
  | (delta, value) :: rest =>
      if found value then postpone delta rest else (delta, value) :: remove found rest

@[simp] theorem deadlines_nil (clock : Nat) : deadlines clock ([] : DeltaList Value) = [] := rfl

@[simp] theorem deadlines_cons (clock delta : Nat) (value : Value) (rest : DeltaList Value) :
    deadlines clock ((delta, value) :: rest) =
      (clock + delta, value) :: deadlines (clock + delta) rest := rfl

theorem length_deadlines (clock : Nat) (entries : DeltaList Value) :
    (deadlines clock entries).length = entries.length := by
  induction entries generalizing clock with
  | nil => rfl
  | cons entry rest ih => exact congrArg (· + 1) (ih _)

/-- No deadline is before the clock or after the total. -/
theorem deadlines_bounds {clock : Nat} {entries : DeltaList Value} {entry : Nat × Value}
    (inside : entry ∈ deadlines clock entries) :
    clock ≤ entry.1 ∧ entry.1 ≤ clock + total entries := by
  induction entries generalizing clock with
  | nil => cases inside
  | cons first rest ih =>
      obtain ⟨delta, value⟩ := first
      rcases List.mem_cons.mp inside with rfl | later
      · exact ⟨Nat.le_add_right .., by simp only [total]; omega⟩
      · obtain ⟨lower, upper⟩ := ih later
        simp only [total]
        omega

/-- The deadlines are in order. -/
theorem deadlines_sorted (clock : Nat) (entries : DeltaList Value) :
    (deadlines clock entries).Pairwise fun one two => one.1 ≤ two.1 := by
  induction entries generalizing clock with
  | nil => exact .nil
  | cons entry rest ih =>
      exact .cons (fun later inside => (deadlines_bounds inside).1) (ih _)

/-- An entry is inserted at its deadline, after the entries with an equal deadline. -/
theorem deadlines_insert (clock time : Nat) (new : Value) (entries : DeltaList Value) :
    deadlines clock (insert time new entries) =
      (deadlines clock entries).orderedInsert earlier (clock + time, new) := by
  induction entries generalizing clock time with
  | nil => rfl
  | cons entry rest ih =>
      obtain ⟨delta, value⟩ := entry
      rw [insert, deadlines_cons, List.orderedInsert_cons]
      by_cases before : time < delta
      · have sum : clock + time + (delta - time) = clock + delta := by omega
        rw [if_pos before, if_pos (earlier_add.mpr before)]
        simp only [deadlines_cons, sum]
      · have sum : clock + delta + (time - delta) = clock + time := by omega
        rw [if_neg before, if_neg (mt earlier_add.mp before), deadlines_cons, ih, sum]

/-- The entries keep their deadlines when the one before them goes. -/
theorem deadlines_postpone (clock time : Nat) (entries : DeltaList Value) :
    deadlines clock (postpone time entries) = deadlines (clock + time) entries := by
  cases entries with
  | nil => rfl
  | cons entry rest =>
      obtain ⟨delta, value⟩ := entry
      simp only [postpone, deadlines_cons, Nat.add_assoc, Nat.add_comm delta time]

/-- The removal keeps all other deadlines. -/
theorem deadlines_remove (found : Value → Bool) (clock : Nat) (entries : DeltaList Value) :
    deadlines clock (remove found entries) =
      (deadlines clock entries).eraseP fun entry => found entry.2 := by
  induction entries generalizing clock with
  | nil => rfl
  | cons entry rest ih =>
      obtain ⟨delta, value⟩ := entry
      rw [remove, deadlines_cons, List.eraseP_cons]
      cases found value with
      | true => exact deadlines_postpone ..
      | false => exact congrArg _ (ih _)

theorem total_insert (time : Nat) (new : Value) (entries : DeltaList Value) :
    total (insert time new entries) = max time (total entries) := by
  induction entries generalizing time with
  | nil => simp [insert, total]
  | cons entry rest ih =>
      obtain ⟨delta, value⟩ := entry
      rw [insert]
      split
      · simp only [total]
        omega
      · simp only [total, ih]
        omega

theorem total_postpone (time : Nat) (entries : DeltaList Value) :
    total (postpone time entries) ≤ time + total entries := by
  cases entries with
  | nil => exact Nat.zero_le _
  | cons entry rest =>
      simp only [postpone, total]
      omega

theorem total_remove (found : Value → Bool) (entries : DeltaList Value) :
    total (remove found entries) ≤ total entries := by
  induction entries with
  | nil => exact Nat.le_refl _
  | cons entry rest ih =>
      obtain ⟨delta, value⟩ := entry
      rw [remove]
      split
      · exact total_postpone ..
      · exact Nat.add_le_add_left ih delta

end DeltaList

end NnpCamera.Library
