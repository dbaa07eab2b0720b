/-
This file models the ready table and the wait lists of the kernel as sets of priorities.
-/

import NnpCamera.Library.Bitmap
import Mathlib.Order.Fin.Basic

namespace NnpCamera.Scheduler
open Library

/-- The priority is the number of a task. A task with a smaller number runs first. -/
abbrev Prio := Fin 64

/-- The table gives the lowest set bit of each byte. -/
def osUnMapTbl : List (Fin 8) := [
  0, 0, 1, 0, 2, 0, 1, 0, 3, 0, 1, 0, 2, 0, 1, 0,
  4, 0, 1, 0, 2, 0, 1, 0, 3, 0, 1, 0, 2, 0, 1, 0,
  5, 0, 1, 0, 2, 0, 1, 0, 3, 0, 1, 0, 2, 0, 1, 0,
  4, 0, 1, 0, 2, 0, 1, 0, 3, 0, 1, 0, 2, 0, 1, 0,
  6, 0, 1, 0, 2, 0, 1, 0, 3, 0, 1, 0, 2, 0, 1, 0,
  4, 0, 1, 0, 2, 0, 1, 0, 3, 0, 1, 0, 2, 0, 1, 0,
  5, 0, 1, 0, 2, 0, 1, 0, 3, 0, 1, 0, 2, 0, 1, 0,
  4, 0, 1, 0, 2, 0, 1, 0, 3, 0, 1, 0, 2, 0, 1, 0,
  7, 0, 1, 0, 2, 0, 1, 0, 3, 0, 1, 0, 2, 0, 1, 0,
  4, 0, 1, 0, 2, 0, 1, 0, 3, 0, 1, 0, 2, 0, 1, 0,
  5, 0, 1, 0, 2, 0, 1, 0, 3, 0, 1, 0, 2, 0, 1, 0,
  4, 0, 1, 0, 2, 0, 1, 0, 3, 0, 1, 0, 2, 0, 1, 0,
  6, 0, 1, 0, 2, 0, 1, 0, 3, 0, 1, 0, 2, 0, 1, 0,
  4, 0, 1, 0, 2, 0, 1, 0, 3, 0, 1, 0, 2, 0, 1, 0,
  5, 0, 1, 0, 2, 0, 1, 0, 3, 0, 1, 0, 2, 0, 1, 0,
  4, 0, 1, 0, 2, 0, 1, 0, 3, 0, 1, 0, 2, 0, 1, 0]

def osUnMap (bits : BitVec 8) : Fin 8 := osUnMapTbl.getD bits.toNat 0

/-- The row of a priority. -/
def osTCBY (prio : Prio) : Fin 8 := ⟨prio / 8, by omega⟩

/-- The bit of a priority in its row. -/
def osTCBX (prio : Prio) : Fin 8 := ⟨prio % 8, by omega⟩

theorem prio_ext {one two : Prio} :
    one = two ↔ osTCBY one = osTCBY two ∧ osTCBX one = osTCBX two := by
  simp only [Fin.ext_iff, osTCBY, osTCBX]
  omega

/-- The ready table and each wait list have eight rows of eight priorities. -/
abbrev PrioMap := Bitmap 8 8

namespace PrioMap

instance : Membership Prio PrioMap where
  mem map prio := map.Has (osTCBY prio) (osTCBX prio)

instance (map : PrioMap) (prio : Prio) : Decidable (prio ∈ map) :=
  inferInstanceAs (Decidable (map.Has _ _))

/-- No priority is in the table. -/
def init : PrioMap := Bitmap.empty 8 8

def set (map : PrioMap) (prio : Prio) : PrioMap := map.insert (osTCBY prio) (osTCBX prio)

def clear (map : PrioMap) (prio : Prio) : PrioMap := map.remove (osTCBY prio) (osTCBX prio)

/-- The row comes from the group, and the bit from the row. -/
def highest (map : PrioMap) : Prio :=
  ⟨osUnMap map.grp * 8 + osUnMap (map.tbl (osUnMap map.grp)), by omega⟩

variable (map : PrioMap) (prio other : Prio)

@[simp] theorem not_mem_init : prio ∉ init :=
  Bitmap.has_empty _ _

@[simp] theorem mem_set : other ∈ map.set prio ↔ other = prio ∨ other ∈ map := by
  rw [prio_ext]
  exact map.has_insert _ _ _ _

@[simp] theorem mem_clear : other ∈ map.clear prio ↔ other ≠ prio ∧ other ∈ map := by
  rw [ne_eq, prio_ext]
  exact map.has_remove _ _ _ _

/-- The group is zero exactly when the table is empty. -/
theorem grp_eq_zero : map.grp = 0#8 ↔ ∀ prio, prio ∉ map := by
  rw [Bitmap.grp_eq_zero]
  constructor
  · intro none prio
    exact none _ _
  · intro none row column member
    apply none ⟨row * 8 + column, by omega⟩
    have place : osTCBY ⟨row * 8 + column, by omega⟩ = row ∧
        osTCBX ⟨row * 8 + column, by omega⟩ = column := by
      simp only [Fin.ext_iff, osTCBY, osTCBX]
      omega
    show map.Has _ _
    rw [place.1, place.2]
    exact member

/-- The table in the source has the lowest set bit of each byte that is not zero. -/
theorem osUnMap_lowest (bits : BitVec 8) (filled : bits ≠ 0#8) :
    Bitmap.IsLowest bits (osUnMap bits) := by
  have table : ∀ value < 256, value ≠ 0 →
      (BitVec.ofNat 8 value).getLsbD (osUnMap (BitVec.ofNat 8 value)) = true ∧
        ∀ lower < (osUnMap (BitVec.ofNat 8 value)).val,
          (BitVec.ofNat 8 value).getLsbD lower = false := by
    decide +kernel
  have different : bits.toNat ≠ 0 := by
    intro zero
    exact filled (BitVec.eq_of_toNat_eq zero)
  have found := table bits.toNat bits.isLt different
  rwa [BitVec.ofNat_toNat, BitVec.setWidth_eq] at found

/-- A table with a member has a highest priority, which has the smallest number. -/
theorem highest_least (member : prio ∈ map) :
    map.highest ∈ map ∧ ∀ other ∈ map, map.highest ≤ other := by
  have filled : map.grp ≠ 0#8 := by
    intro zero
    exact (map.grp_eq_zero.mp zero) prio member
  have first := osUnMap_lowest map.grp filled
  have row : map.tbl (osUnMap map.grp) ≠ 0#8 := (map.summary _).mp first.1
  obtain ⟨has, least⟩ := Bitmap.lowest_least first (osUnMap_lowest _ row)
  have place : osTCBY map.highest = osUnMap map.grp ∧
      osTCBX map.highest = osUnMap (map.tbl (osUnMap map.grp)) := by
    simp only [Fin.ext_iff, osTCBY, osTCBX, highest]
    omega
  constructor
  · show map.Has _ _
    rw [place.1, place.2]
    exact has
  · intro other member
    have order := least _ _ member
    rw [← place.2, ← place.1] at order
    simp only [Fin.lt_def, Fin.le_def, Fin.ext_iff, osTCBY, osTCBX] at order ⊢
    omega

/-- The least member is the highest priority. -/
theorem highest_eq {map : PrioMap} {prio : Prio} (member : prio ∈ map)
    (least : ∀ other ∈ map, prio ≤ other) : map.highest = prio := by
  obtain ⟨first, below⟩ := map.highest_least prio member
  exact le_antisymm (below prio member) (least _ first)

end PrioMap

end NnpCamera.Scheduler
