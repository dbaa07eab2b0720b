/-
This file describes the sums of ones' complement arithmetic, which has two zeros.
-/

import Mathlib.Data.Nat.ModEq

namespace NnpCamera.Library

/-- The sums are equal around the modulus, and one is empty when the other is. -/
structure SameSum (modulus first second : Nat) : Prop where
  modEq : first ≡ second [MOD modulus]
  empty : first = 0 ↔ second = 0

namespace SameSum
variable {modulus first second third other : Nat}

theorem refl (sum : Nat) : SameSum modulus sum sum := ⟨.rfl, Iff.rfl⟩

theorem symm (same : SameSum modulus first second) : SameSum modulus second first :=
  ⟨same.modEq.symm, same.empty.symm⟩

theorem trans (same : SameSum modulus first second) (next : SameSum modulus second third) :
    SameSum modulus first third :=
  ⟨same.modEq.trans next.modEq, same.empty.trans next.empty⟩

theorem add (same : SameSum modulus first second) (more : SameSum modulus third other) :
    SameSum modulus (first + third) (second + other) :=
  ⟨same.modEq.add more.modEq, by
    rw [Nat.add_eq_zero_iff, Nat.add_eq_zero_iff, same.empty, more.empty]⟩

theorem mul (factor : Nat) (same : SameSum modulus first second) :
    SameSum modulus (factor * first) (factor * second) :=
  ⟨same.modEq.mul_left factor, by
    rw [Nat.mul_eq_zero, Nat.mul_eq_zero, same.empty]⟩

/-- One number below the modulus and the modulus itself represent each sum. -/
theorem eq (same : SameSum modulus first second) (less : first ≤ modulus) (fits : second ≤ modulus) :
    first = second := by
  obtain rfl | inside := Nat.eq_or_lt_of_le less
  · obtain rfl | below := Nat.eq_or_lt_of_le fits
    · rfl
    · have none : second = 0 := by
        have rest := same.modEq
        rwa [Nat.ModEq, Nat.mod_self, Nat.mod_eq_of_lt below, eq_comm] at rest
      exact (same.empty.mpr none).trans none.symm
  · obtain rfl | below := Nat.eq_or_lt_of_le fits
    · have none : first = 0 := by
        have rest := same.modEq
        rwa [Nat.ModEq, Nat.mod_self, Nat.mod_eq_of_lt inside] at rest
      exact none.trans (same.empty.mp none).symm
    · exact same.modEq.eq_of_lt_of_lt inside below

/-- The carry is added at the other end. -/
theorem fold (sum : Nat) : SameSum modulus (sum / (modulus + 1) + sum % (modulus + 1)) sum := by
  have split := Nat.div_add_mod sum (modulus + 1)
  refine ⟨?_, by constructor <;> intro <;> grind⟩
  calc
    sum / (modulus + 1) + sum % (modulus + 1)
      ≡ modulus * (sum / (modulus + 1)) + (sum / (modulus + 1) + sum % (modulus + 1)) [MOD modulus] := by
        rw [Nat.ModEq, Nat.mul_add_mod]
    _ = sum := by rw [← Nat.add_assoc, ← Nat.succ_mul]; exact split

/-- A shift by two digits changes no sum. -/
theorem shift {base : Nat} (square : base * base = modulus + 1) (sum : Nat) :
    SameSum modulus (base * (base * sum)) sum := by
  have whole : base * (base * sum) = modulus * sum + sum := by
    rw [← Nat.mul_assoc, square, Nat.succ_mul]
  rw [whole]
  exact ⟨by rw [Nat.ModEq, Nat.mul_add_mod],
    ⟨fun none => Nat.eq_zero_of_add_eq_zero_left none, fun none => by rw [none, Nat.mul_zero]⟩⟩

/-- The digits of a word in the other order are the word times its base. -/
theorem swap {base : Nat} (square : base * base = modulus + 1) (word : Nat) :
    SameSum modulus (base * (word % base) + word / base) (base * word) := by
  have split : base * word = base * (word % base) + base * (base * (word / base)) := by
    rw [← Nat.mul_add, Nat.add_comm (word % base), Nat.div_add_mod]
  rw [split]
  exact (refl _).add (shift square _).symm

end SameSum

end NnpCamera.Library
