/-
This file describes an allocation table: runs of marked cells over a table of free cells.
-/

import NnpCamera.Library.Extents

namespace NnpCamera.Library
variable {Cell : Type}

/-- The fill loop stores one value in each cell of a run. -/
def Memory.fill (table : Memory Cell) (extent : Extent) (value : Cell) : Memory Cell :=
  table.copy extent.first (fun _ => value) extent.count

theorem Memory.fill_apply (table : Memory Cell) (extent : Extent) (value : Cell) (cell : Nat) :
    table.fill extent value cell = if cell ∈ extent.cells then value else table cell := by
  rw [Memory.fill]
  split
  next inside =>
    obtain ⟨low, high⟩ := Extent.mem_cells.mp inside
    have place : cell = extent.first + (cell - extent.first) := by omega
    rw [place]
    exact Memory.copy_inside _ _ _ _ _ (by omega)
  next outside =>
    apply Memory.copy_outside
    by_contra inside
    exact outside (Extent.mem_cells.mpr ⟨by omega, by omega⟩)

section Tables
variable [Zero Cell]

/-- The free cells of a table with this size. -/
def freeCells (table : Memory Cell) (size : Nat) : Set Nat := {cell | cell < size ∧ table cell = 0}

theorem freeCells_finite (table : Memory Cell) (size : Nat) : (freeCells table size).Finite :=
  (Set.finite_Iio size).subset fun _ inside => inside.1

/-- A cleared table is free from its start to its end. -/
theorem freeCells_cleared (table : Memory Cell) (size : Nat) :
    freeCells (table.fill ⟨0, size⟩ 0) size = Set.Ico 0 size := by
  ext cell
  simp only [freeCells, Set.mem_ofPred_eq, Memory.fill_apply, Set.mem_Ico]
  constructor
  · exact fun free => ⟨Nat.zero_le _, free.1⟩
  · intro inside
    exact ⟨inside.2, if_pos (Extent.mem_run.mpr ⟨inside.1, by omega⟩)⟩

/-- This search goes down from the end of the table and counts consecutive free cells. -/
def searchDown [DecidableEq Cell] (table : Memory Cell) (count : Nat) : Nat → Nat → Option Nat
  | 0, _ => none
  | offset + 1, run =>
      let run := if table offset = 0 then run + 1 else 0
      if run = count then some offset else searchDown table count offset run

/-- What the search knows at one offset: the run that ends its free cells is shorter than it looks
for, it cannot grow upwards, and there is no place above. -/
structure Searched (table : Memory Cell) (size count offset run : Nat) : Prop where
  short : run < count
  bounded : offset + run ≤ size
  vacant : ∀ cell, offset ≤ cell → cell < offset + run → table cell = 0
  closed : offset + run < size → table (offset + run) ≠ 0
  passed : ∀ place ∈ Starts (freeCells table size) count, place < offset

/-- Nothing is known before the search starts. -/
theorem Searched.start (table : Memory Cell) (size : Nat) {count : Nat} (positive : 0 < count) :
    Searched table size count size 0 where
  short := positive
  bounded := Nat.le_refl _
  vacant cell low high := by omega
  closed inside := by omega
  passed place starts := (starts (Extent.mem_run.mpr ⟨Nat.le_refl _, by omega⟩)).1

/-- A cell in use starts a new run. -/
theorem Searched.used {table : Memory Cell} {size count offset run : Nat}
    (searched : Searched table size count (offset + 1) run) (used : table offset ≠ 0) :
    Searched table size count offset 0 where
  short := Nat.lt_of_le_of_lt (Nat.zero_le _) searched.short
  bounded := by have bounded := searched.bounded; omega
  vacant cell low high := by omega
  closed _ := used
  passed place starts := by
    have before := searched.passed place starts
    by_contra same
    obtain rfl : place = offset := by omega
    have short := searched.short
    exact used (starts (Extent.mem_run.mpr ⟨Nat.le_refl _, by omega⟩)).2

/-- A free cell makes the run longer. -/
theorem Searched.free {table : Memory Cell} {size count offset run : Nat}
    (searched : Searched table size count (offset + 1) run) (free : table offset = 0)
    (short : run + 1 < count) : Searched table size count offset (run + 1) where
  short := short
  bounded := by have bounded := searched.bounded; omega
  vacant cell low high := by
    by_cases first : cell = offset
    · rw [first]
      exact free
    · exact searched.vacant cell (by omega) (by omega)
  closed inside := by
    have closed := searched.closed (by omega)
    rw [show offset + (run + 1) = offset + 1 + run by omega]
    exact closed
  passed place starts := by
    have before := searched.passed place starts
    by_contra same
    obtain rfl : place = offset := by omega
    obtain ⟨inside, vacant⟩ := starts (a := place + (run + 1))
      (Extent.mem_run.mpr ⟨by omega, by omega⟩)
    apply searched.closed (by omega)
    rw [show place + 1 + run = place + (run + 1) by omega]
    exact vacant

/-- The free cell that completes the run is the topmost place. -/
theorem Searched.found {table : Memory Cell} {size count offset run : Nat}
    (searched : Searched table size count (offset + 1) run) (free : table offset = 0)
    (long : run + 1 = count) : Topmost (freeCells table size) count offset := by
  constructor
  · intro cell inside
    obtain ⟨low, high⟩ := Extent.mem_run.mp inside
    have bounded := searched.bounded
    refine ⟨by omega, ?_⟩
    by_cases first : cell = offset
    · rw [first]
      exact free
    · exact searched.vacant cell (by omega) (by omega)
  · intro place starts
    have before := searched.passed place starts
    omega

/-- The search finds the topmost place, or there is none. -/
theorem Searched.searchDown [DecidableEq Cell] {table : Memory Cell} {size count offset run : Nat}
    (searched : Searched table size count offset run) :
    match searchDown table count offset run with
    | some first => Topmost (freeCells table size) count first
    | none => Starts (freeCells table size) count = ∅ := by
  induction offset generalizing run with
  | zero =>
      apply Set.eq_empty_of_forall_notMem
      intro place starts
      exact absurd (searched.passed place starts) (Nat.not_lt_zero _)
  | succ offset ih =>
      rw [Library.searchDown]
      have short := searched.short
      by_cases free : table offset = 0
      · rw [if_pos free]
        by_cases long : run + 1 = count
        · rw [if_pos long]
          exact searched.found free long
        · rw [if_neg long]
          exact ih (searched.free free (by omega))
      · rw [if_neg free, if_neg (by omega)]
        exact ih (searched.used free)

/-- Each live extent marks its own cells, which are free in the base table. All other cells are as
in the base table. -/
structure Tiling (mark : Extent → Cell) (size : Nat) (base table : Memory Cell)
    (live : List Extent) : Prop where
  inside : ∀ extent ∈ live, 0 < extent.count ∧ extent.cells ⊆ freeCells base size
  apart : live.Pairwise Extent.Apart
  marked : ∀ extent ∈ live, ∀ cell ∈ extent.cells, table cell = mark extent
  rest : ∀ cell, (∀ extent ∈ live, cell ∉ extent.cells) → table cell = base cell

namespace Tiling
variable {mark : Extent → Cell} {size : Nat} {base table : Memory Cell} {live : List Extent}
  {extent : Extent}

/-- Without an extent the table is the base table. -/
theorem start (mark : Extent → Cell) (size : Nat) (base : Memory Cell) :
    Tiling mark size base base [] where
  inside := by simp
  apart := .nil
  marked := by simp
  rest _ _ := rfl

theorem eq_base (tiling : Tiling mark size base table []) : table = base := by
  funext cell
  exact tiling.rest cell (by simp)

/-- The order of the extents does not matter. -/
theorem perm {other : List Extent} (tiling : Tiling mark size base table live)
    (same : live.Perm other) : Tiling mark size base table other where
  inside extent found := tiling.inside extent (same.mem_iff.mpr found)
  apart := (same.pairwise_iff fun apart => Extent.Apart.symm apart).mp tiling.apart
  marked extent found := tiling.marked extent (same.mem_iff.mpr found)
  rest cell outside := tiling.rest cell fun extent found => outside extent (same.mem_iff.mp found)

/-- A free cell is in no extent and is free in the base table. -/
theorem free_outside (tiling : Tiling mark size base table live)
    (marks : ∀ extent ∈ live, mark extent ≠ 0) {cell : Nat} (free : cell ∈ freeCells table size) :
    (∀ extent ∈ live, cell ∉ extent.cells) ∧ cell ∈ freeCells base size := by
  have outside : ∀ extent ∈ live, cell ∉ extent.cells := by
    intro extent found inside
    apply marks extent found
    rw [← tiling.marked extent found cell inside]
    exact free.2
  exact ⟨outside, free.1, (tiling.rest cell outside).symm.trans free.2⟩

/-- A run of free cells becomes an extent. -/
theorem allocate (tiling : Tiling mark size base table live)
    (marks : ∀ extent ∈ live, mark extent ≠ 0) (positive : 0 < extent.count)
    (free : extent.cells ⊆ freeCells table size) :
    Tiling mark size base (table.fill extent (mark extent)) (extent :: live) where
  inside other found := by
    rcases List.mem_cons.mp found with rfl | found
    · exact ⟨positive, fun cell inside => (tiling.free_outside marks (free inside)).2⟩
    · exact tiling.inside other found
  apart := by
    refine List.pairwise_cons.mpr ⟨?_, tiling.apart⟩
    intro other found
    refine Set.disjoint_left.mpr fun cell inside => ?_
    exact (tiling.free_outside marks (free inside)).1 other found
  marked other found cell inside := by
    rw [Memory.fill_apply]
    rcases List.mem_cons.mp found with rfl | found
    · exact if_pos inside
    · have outside : cell ∉ extent.cells := fun both =>
        (tiling.free_outside marks (free both)).1 other found inside
      rw [if_neg outside]
      exact tiling.marked other found cell inside
  rest cell outside := by
    rw [Memory.fill_apply, if_neg (outside extent (List.mem_cons_self ..))]
    exact tiling.rest cell fun other found => outside other (List.mem_cons_of_mem _ found)

/-- Clearing the cells of an extent releases it. -/
theorem release (tiling : Tiling mark size base table (extent :: live)) :
    Tiling mark size base (table.fill extent 0) live where
  inside other found := tiling.inside other (List.mem_cons_of_mem _ found)
  apart := (List.pairwise_cons.mp tiling.apart).2
  marked other found cell inside := by
    have apart := (List.pairwise_cons.mp tiling.apart).1 other found
    rw [Memory.fill_apply, if_neg fun both => Set.disjoint_left.mp apart both inside]
    exact tiling.marked other (List.mem_cons_of_mem _ found) cell inside
  rest cell outside := by
    rw [Memory.fill_apply]
    by_cases inside : cell ∈ extent.cells
    · rw [if_pos inside]
      exact ((tiling.inside extent (List.mem_cons_self ..)).2 inside).2.symm
    · rw [if_neg inside]
      apply tiling.rest
      intro other found
      rcases List.mem_cons.mp found with rfl | found
      · exact inside
      · exact outside other found

/-- A new extent takes its cells from the free cells. -/
theorem freeCells_fill {value : Cell} (used : value ≠ 0) (extent : Extent)
    (table : Memory Cell) (size : Nat) :
    freeCells (table.fill extent value) size = freeCells table size \ extent.cells := by
  ext cell
  simp only [freeCells, Set.mem_ofPred_eq, Memory.fill_apply, Set.mem_sdiff]
  by_cases inside : cell ∈ extent.cells
  · simp [inside, used]
  · simp [inside]

end Tiling

end Tables

end NnpCamera.Library
