/-
This file models a set of cells as rows of bits with a summary of the rows that are not empty.
-/

import Mathlib.Logic.Function.Basic
import Mathlib.Tactic.Common

namespace NnpCamera.Library

section Bits
variable {width : Nat} (bits : BitVec width) (index : Fin width)

/-- Setting a bit leaves the others. -/
theorem getLsbD_set (other : Fin width) :
    (bits ||| BitVec.twoPow width index).getLsbD other = true ↔
      other = index ∨ bits.getLsbD other = true := by
  simp [Fin.ext_iff, or_comm]

/-- Clearing a bit leaves the others. -/
theorem getLsbD_clear (other : Fin width) :
    (bits &&& ~~~BitVec.twoPow width index).getLsbD other = true ↔
      other ≠ index ∧ bits.getLsbD other = true := by
  simp [Fin.ext_iff, and_comm]

/-- A vector with a set bit is not zero. -/
theorem ne_zero_of_getLsbD {bits : BitVec width} (set : bits.getLsbD index = true) :
    bits ≠ BitVec.ofNat width 0 := by
  rintro rfl
  simp at set

end Bits

/-- A bit of the summary is set exactly when its row has a set bit. -/
structure Bitmap (rows columns : Nat) where
  grp : BitVec rows
  tbl : Fin rows → BitVec columns
  summary : ∀ row : Fin rows, grp.getLsbD row = true ↔ tbl row ≠ BitVec.ofNat columns 0

namespace Bitmap
variable {rows columns : Nat} (bitmap : Bitmap rows columns)

/-- A cell is a member when its bit is set. -/
def Has (row : Fin rows) (column : Fin columns) : Prop :=
  (bitmap.tbl row).getLsbD column = true

instance (row : Fin rows) (column : Fin columns) : Decidable (bitmap.Has row column) :=
  inferInstanceAs (Decidable (_ = _))

/-- The empty bitmap has no set bit. -/
def empty (rows columns : Nat) : Bitmap rows columns where
  grp := 0
  tbl := fun _ => 0
  summary := by simp

/-- An insertion sets the bit of the cell and the bit of its row. -/
def insert (row : Fin rows) (column : Fin columns) : Bitmap rows columns where
  grp := bitmap.grp ||| BitVec.twoPow rows row
  tbl := Function.update bitmap.tbl row (bitmap.tbl row ||| BitVec.twoPow columns column)
  summary := by
    intro other
    rw [getLsbD_set]
    by_cases same : other = row
    · subst same
      have filled := ne_zero_of_getLsbD column
        ((getLsbD_set (bitmap.tbl other) column column).mpr (Or.inl rfl))
      simpa using filled
    · rw [Function.update_of_ne same, ← bitmap.summary other]
      exact or_iff_right same

/-- A removal clears the bit of the cell, and the bit of its row when the row is empty after it. -/
def remove (row : Fin rows) (column : Fin columns) : Bitmap rows columns where
  grp :=
    if bitmap.tbl row &&& ~~~BitVec.twoPow columns column = BitVec.ofNat columns 0 then
      bitmap.grp &&& ~~~BitVec.twoPow rows row
    else bitmap.grp
  tbl := Function.update bitmap.tbl row (bitmap.tbl row &&& ~~~BitVec.twoPow columns column)
  summary := by
    intro other
    by_cases same : other = row
    · subst same
      rw [Function.update_self]
      split
      next zero =>
        rw [getLsbD_clear]
        exact iff_of_false (fun kept => kept.1 rfl) (not_not_intro zero)
      next filled =>
        have before : bitmap.tbl other ≠ BitVec.ofNat columns 0 := by
          intro zero
          rw [zero] at filled
          exact filled (BitVec.zero_and)
        exact iff_of_true ((bitmap.summary other).mpr before) filled
    · rw [Function.update_of_ne same, ← bitmap.summary other]
      split
      next =>
        rw [getLsbD_clear]
        exact and_iff_right same
      next => rfl

@[simp] theorem has_empty (row : Fin rows) (column : Fin columns) :
    ¬ (empty rows columns).Has row column := by
  simp [Has, empty]

theorem has_insert (row other : Fin rows) (column cell : Fin columns) :
    (bitmap.insert row column).Has other cell ↔
      (other = row ∧ cell = column) ∨ bitmap.Has other cell := by
  by_cases same : other = row
  · subst same
    have set := getLsbD_set (bitmap.tbl other) column cell
    simpa only [Has, insert, Function.update_self, true_and] using set
  · simp [Has, insert, same]

theorem has_remove (row other : Fin rows) (column cell : Fin columns) :
    (bitmap.remove row column).Has other cell ↔
      ¬ (other = row ∧ cell = column) ∧ bitmap.Has other cell := by
  by_cases same : other = row
  · subst same
    have kept := getLsbD_clear (bitmap.tbl other) column cell
    simpa only [Has, remove, Function.update_self, true_and] using kept
  · simp [Has, remove, same]

/-- The summary is zero exactly when no cell is a member. -/
theorem grp_eq_zero : bitmap.grp = BitVec.ofNat rows 0 ↔ ∀ row column, ¬ bitmap.Has row column := by
  constructor
  · intro zero row column member
    have set := (bitmap.summary row).mpr (ne_zero_of_getLsbD column member)
    simp [zero] at set
  · intro none
    apply BitVec.eq_of_getLsbD_eq
    intro index inside
    have row : bitmap.tbl ⟨index, inside⟩ = BitVec.ofNat columns 0 := by
      apply BitVec.eq_of_getLsbD_eq
      intro column within
      simpa [Has] using none ⟨index, inside⟩ ⟨column, within⟩
    have clear := mt (bitmap.summary ⟨index, inside⟩).mp (not_not_intro row)
    simpa using clear

/-- The index is that of the lowest set bit. -/
def IsLowest {width : Nat} (bits : BitVec width) (index : Nat) : Prop :=
  bits.getLsbD index = true ∧ ∀ lower < index, bits.getLsbD lower = false

/-- The lowest row in the summary and the lowest bit in that row give the least member. -/
theorem lowest_least {bitmap : Bitmap rows columns} {row : Fin rows} {column : Fin columns}
    (first : IsLowest bitmap.grp row) (lowest : IsLowest (bitmap.tbl row) column) :
    bitmap.Has row column ∧ ∀ other cell, bitmap.Has other cell →
      row < other ∨ row = other ∧ column ≤ cell := by
  refine ⟨lowest.1, ?_⟩
  intro other cell member
  have set := (bitmap.summary other).mpr (ne_zero_of_getLsbD cell member)
  obtain below | same | above := Nat.lt_trichotomy other row
  · exact absurd set (Bool.eq_false_iff.mp (first.2 other below))
  · obtain rfl := Fin.ext same
    refine Or.inr ⟨rfl, Nat.le_of_not_lt fun below => ?_⟩
    exact absurd member (Bool.eq_false_iff.mp (lowest.2 cell below))
  · exact Or.inl above

end Bitmap

end NnpCamera.Library
