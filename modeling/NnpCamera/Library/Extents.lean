/-
This file describes a table whose free cells are handed out in runs, from the top of the table down.
-/

import NnpCamera.Library.Memory
import Mathlib.Data.Set.Card
import Mathlib.Order.CompletePartialOrder
import Mathlib.Order.Bounds.Basic
import Mathlib.Order.Interval.Finset.Nat

namespace NnpCamera.Library

/-- An extent is a run of cells. -/
structure Extent where
  first : Nat
  count : Nat
  deriving DecidableEq, Repr

namespace Extent

/-- The cells of the extent. -/
def cells (extent : Extent) : Set Nat := Set.Ico extent.first (extent.first + extent.count)

@[simp] theorem mem_cells {extent : Extent} {cell : Nat} :
    cell ∈ extent.cells ↔ extent.first ≤ cell ∧ cell < extent.first + extent.count := Set.mem_Ico

theorem mem_run {first count cell : Nat} :
    cell ∈ (Extent.mk first count).cells ↔ first ≤ cell ∧ cell < first + count := Set.mem_Ico

instance (extent : Extent) (cell : Nat) : Decidable (cell ∈ extent.cells) :=
  decidable_of_iff _ mem_cells.symm

/-- Two extents without a common cell. -/
def Apart (first second : Extent) : Prop := Disjoint first.cells second.cells

theorem Apart.symm {first second : Extent} (apart : Apart first second) : Apart second first :=
  Disjoint.symm apart

end Extent

section Placement
variable {free : Set Nat} {count first : Nat}

/-- A run of this length can start here. -/
def Starts (free : Set Nat) (count : Nat) : Set Nat := {first | (Extent.mk first count).cells ⊆ free}

/-- The topmost place for a run. -/
def Topmost (free : Set Nat) (count first : Nat) : Prop := IsGreatest (Starts free count) first

/-- Runs of these lengths are placed one after the other. Each takes the topmost place, and a run
without a place is left out. -/
inductive Placed : Set Nat → List Nat → List (Option Extent) → Set Nat → Prop where
  | nil {free : Set Nat} : Placed free [] [] free
  | fits {free after : Set Nat} {count first : Nat} {counts : List Nat}
      {extents : List (Option Extent)} : Topmost free count first →
      Placed (free \ (Extent.mk first count).cells) counts extents after →
      Placed free (count :: counts) (some ⟨first, count⟩ :: extents) after
  | full {free after : Set Nat} {count : Nat} {counts : List Nat}
      {extents : List (Option Extent)} : Starts free count = ∅ →
      Placed free counts extents after → Placed free (count :: counts) (none :: extents) after

/-- There is a place for each of these runs. -/
def Fits (free : Set Nat) (counts : List Nat) : Prop :=
  ∃ extents after, Placed free counts extents after ∧ none ∉ extents

/-- The placement is determined. -/
theorem Placed.unique {free one two : Set Nat} {counts : List Nat}
    {firsts seconds : List (Option Extent)} (left : Placed free counts firsts one)
    (right : Placed free counts seconds two) : firsts = seconds ∧ one = two := by
  induction left generalizing seconds two with
  | nil =>
      cases right with
      | nil => exact ⟨rfl, rfl⟩
  | fits top _ ih =>
      cases right with
      | fits other rest =>
          obtain rfl := top.unique other
          obtain ⟨rfl, rfl⟩ := ih rest
          exact ⟨rfl, rfl⟩
      | full empty _ => exact absurd top.1 (empty ▸ Set.notMem_empty _)
  | full empty _ ih =>
      cases right with
      | fits other _ => exact absurd other.1 (empty ▸ Set.notMem_empty _)
      | full _ rest =>
          obtain ⟨rfl, rfl⟩ := ih rest
          exact ⟨rfl, rfl⟩

/-- Two placements follow each other. -/
theorem Placed.append {free middle after : Set Nat} {counts others : List Nat}
    {firsts seconds : List (Option Extent)} (left : Placed free counts firsts middle)
    (right : Placed middle others seconds after) :
    Placed free (counts ++ others) (firsts ++ seconds) after := by
  induction left with
  | nil => exact right
  | fits top _ ih => exact .fits top (ih right)
  | full empty _ ih => exact .full empty (ih right)

/-- A placement of two lists places one after the other. -/
theorem Placed.split {free after : Set Nat} {counts others : List Nat}
    {extents : List (Option Extent)} (placed : Placed free (counts ++ others) extents after) :
    ∃ firsts seconds middle, extents = firsts ++ seconds ∧ Placed free counts firsts middle ∧
      Placed middle others seconds after := by
  induction counts generalizing free extents with
  | nil => exact ⟨[], extents, free, rfl, .nil, placed⟩
  | cons count counts ih =>
      cases placed with
      | fits top rest =>
          obtain ⟨firsts, seconds, middle, rfl, left, right⟩ := ih rest
          exact ⟨_ :: firsts, seconds, middle, rfl, .fits top left, right⟩
      | full empty rest =>
          obtain ⟨firsts, seconds, middle, rfl, left, right⟩ := ih rest
          exact ⟨none :: firsts, seconds, middle, rfl, .full empty left, right⟩

theorem Placed.length {free after : Set Nat} {counts : List Nat} {extents : List (Option Extent)}
    (placed : Placed free counts extents after) : extents.length = counts.length := by
  induction placed with
  | nil => rfl
  | fits _ _ ih => simpa using ih
  | full _ _ ih => simpa using ih

/-- The placement of the runs decides whether each has a place. -/
theorem Placed.fits_iff {free after : Set Nat} {counts : List Nat}
    {extents : List (Option Extent)} (placed : Placed free counts extents after) :
    Fits free counts ↔ none ∉ extents := by
  constructor
  · rintro ⟨others, last, other, full⟩
    obtain ⟨rfl, rfl⟩ := placed.unique other
    exact full
  · exact fun full => ⟨extents, after, placed, full⟩

/-- After some runs with a place each, the others must fit in the cells that are left. -/
theorem Placed.fits_append {free after : Set Nat} {counts others : List Nat}
    {extents : List (Option Extent)} (placed : Placed free counts extents after) :
    Fits free (counts ++ others) ↔ none ∉ extents ∧ Fits after others := by
  constructor
  · rintro ⟨_, last, both, full⟩
    obtain ⟨firsts, seconds, middle, rfl, left, right⟩ := both.split
    obtain ⟨rfl, rfl⟩ := placed.unique left
    rw [List.mem_append, not_or] at full
    exact ⟨full.1, seconds, last, right, full.2⟩
  · rintro ⟨full, seconds, last, right, rest⟩
    refine ⟨extents ++ seconds, last, placed.append right, ?_⟩
    rw [List.mem_append, not_or]
    exact ⟨full, rest⟩

/-- The first runs of a list that fits fit alone. -/
theorem Fits.left {free : Set Nat} {counts others : List Nat}
    (fits : Fits free (counts ++ others)) : Fits free counts := by
  obtain ⟨_, after, both, full⟩ := fits
  obtain ⟨firsts, seconds, middle, rfl, left, _⟩ := both.split
  exact ⟨firsts, middle, left, fun missing => full (List.mem_append_left _ missing)⟩

/-- Once a run has no place, no later run of the same length has one. -/
theorem Placed.full_replicate {free after : Set Nat} {count size : Nat}
    {extents : List (Option Extent)} (empty : Starts free count = ∅)
    (placed : Placed free (List.replicate size count) extents after) :
    extents = List.replicate size none := by
  induction size generalizing extents with
  | zero =>
      cases placed with
      | nil => rfl
  | succ size ih =>
      cases placed with
      | fits top _ => exact absurd top.1 (empty ▸ Set.notMem_empty _)
      | full _ rest =>
          rw [ih rest]
          rfl

/-- Of some runs of one length, the last one has a place only if all have one. -/
theorem Placed.last_replicate {free after : Set Nat} {count size : Nat}
    {extents : List (Option Extent)}
    (placed : Placed free (List.replicate size count) extents after)
    (last : extents.getLast? ≠ some none) : none ∉ extents := by
  induction size generalizing free extents with
  | zero =>
      cases placed with
      | nil => exact List.not_mem_nil
  | succ size ih =>
      cases placed with
      | fits top rest =>
          rename_i first tail
          intro missing
          have later : none ∈ tail := (List.mem_cons.mp missing).resolve_left (by simp)
          refine ih rest ?_ later
          intro ended
          apply last
          rw [List.getLast?_cons, ended]
          rfl
      | full empty rest =>
          exfalso
          apply last
          rw [rest.full_replicate empty, ← List.replicate_succ, List.getLast?_replicate]
          simp

/-- Runs with a place each use up as many cells as they have. -/
theorem Placed.ncard {free after : Set Nat} {counts : List Nat} {extents : List (Option Extent)}
    (placed : Placed free counts extents after) (fits : none ∉ extents) (finite : free.Finite) :
    after.ncard + counts.sum = free.ncard := by
  induction placed with
  | nil => simp
  | @fits free after count first counts extents top rest ih =>
      have tail := ih (fun missing => fits (List.mem_cons_of_mem _ missing)) (finite.subset Set.sdiff_subset)
      have run : (Extent.mk first count).cells.ncard = count := by
        rw [Extent.cells, Set.ncard_eq_toFinset_card', Set.toFinset_Ico, Nat.card_Ico]
        exact Nat.add_sub_cancel_left _ _
      have split := Set.ncard_sdiff_add_ncard_of_subset top.1 finite
      rw [List.sum_cons]
      omega
  | full => simp at fits

/-- The topmost place in an interval is at its end. -/
theorem topmost_Ico {low high : Nat} (positive : 0 < count) (room : low + count ≤ high) :
    Topmost (Set.Ico low high) count (high - count) := by
  constructor
  · intro cell inside
    rw [Extent.mem_run] at inside
    rw [Set.mem_Ico]
    omega
  · intro other inside
    have last : other + count - 1 ∈ Set.Ico low high :=
      inside (Extent.mem_run.mpr ⟨by omega, by omega⟩)
    rw [Set.mem_Ico] at last
    omega

/-- An interval has places for runs with as many cells together. -/
theorem fits_Ico {low high : Nat} {counts : List Nat} (positive : 0 ∉ counts)
    (room : low + counts.sum ≤ high) : Fits (Set.Ico low high) counts := by
  induction counts generalizing high with
  | nil => exact ⟨[], _, .nil, List.not_mem_nil⟩
  | cons count counts ih =>
      rw [List.mem_cons, not_or] at positive
      rw [List.sum_cons] at room
      have rest : Set.Ico low high \ (Extent.mk (high - count) count).cells =
          Set.Ico low (high - count) := by
        ext cell
        simp only [Set.mem_sdiff, Set.mem_Ico, Extent.mem_run]
        omega
      have left : low + counts.sum ≤ high - count := by omega
      obtain ⟨extents, after, placed, full⟩ := ih positive.2 left
      rw [← rest] at placed
      have some : 0 < count := Nat.pos_of_ne_zero fun none => positive.1 none.symm
      refine ⟨_, after, .fits (topmost_Ico some (by omega)) placed, ?_⟩
      simpa using full

/-- Runs that fit have no more cells than there are. -/
theorem Fits.sum_le {free : Set Nat} {counts : List Nat} (fits : Fits free counts)
    (finite : free.Finite) : counts.sum ≤ free.ncard := by
  obtain ⟨extents, after, placed, full⟩ := fits
  have cells := placed.ncard full finite
  omega

end Placement

end NnpCamera.Library
