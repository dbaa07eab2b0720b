/-
This file models the memory banks of `malloc.c` and their allocation maps.
-/

import NnpCamera.Library.Tiling
import Mathlib.Data.List.ReduceOption
import Mathlib.Data.UInt

namespace NnpCamera.Allocator
open Library

/-- The pools lie in the internal SRAM, the SDRAM and the DTCM. -/
inductive Memx where
  | sramin
  | sramex
  | sramdtcm
  deriving DecidableEq, Repr

/-- The bytes of one block. -/
def memblksize : Memx → UInt32
  | .sramin => 64
  | .sramex => 64
  | .sramdtcm => 64

/-- The bytes of one pool. -/
def memsize : Memx → UInt32
  | .sramin => 160 * 1024
  | .sramex => 28912 * 1024
  | .sramdtcm => 60 * 1024

/-- The entries of one map. -/
def memtblsize (memx : Memx) : UInt32 := memsize memx / memblksize memx

/-- The same number without a width. -/
def tableSize (memx : Memx) : Nat := (memtblsize memx).toNat

/-- The part of `mallco_dev` that belongs to one pool. -/
structure Bank where
  memmap : Memory UInt32
  memrdy : Bool

/-- `my_mem_init` clears all entries of the map. -/
def myMemInit (memx : Memx) (bank : Bank) : Bank where
  memmap := bank.memmap.fill ⟨0, tableSize memx⟩ 0
  memrdy := true

/-- A request takes this number of blocks. -/
def nmemb (memx : Memx) (size : UInt32) : UInt32 :=
  let whole := size / memblksize memx
  if size % memblksize memx ≠ 0 then whole + 1 else whole

/-- The first call initialises a pool that is not ready. -/
def Bank.initialised (memx : Memx) (bank : Bank) : Bank :=
  if bank.memrdy then bank else myMemInit memx bank

/-- `my_mem_malloc` searches from the top and stores the number of blocks in each entry. -/
def myMemMalloc (memx : Memx) (bank : Bank) (size : UInt32) : UInt32 × Bank :=
  let bank := bank.initialised memx
  if size = 0 then (0xFFFFFFFF, bank)
  else
    match searchDown bank.memmap (nmemb memx size).toNat (tableSize memx) 0 with
    | some offset =>
        (.ofNat offset * memblksize memx,
          { bank with
            memmap := bank.memmap.fill ⟨offset, (nmemb memx size).toNat⟩ (nmemb memx size) })
    | none => (0xFFFFFFFF, bank)

/-- `my_mem_free` clears as many entries as the entry at the offset says. -/
def myMemFree (memx : Memx) (bank : Bank) (offset : UInt32) : UInt8 × Bank :=
  if bank.memrdy = false then (1, myMemInit memx bank)
  else if offset < memsize memx then
    let index := (offset / memblksize memx).toNat
    -- The loop bound is a signed integer.
    let nmemb := (bank.memmap index).toInt32.toInt.toNat
    (0, { bank with memmap := bank.memmap.fill ⟨index, nmemb⟩ 0 })
  else (2, bank)

/-- The linker places each pool inside the address space and not at the null pointer. -/
structure Membase where
  membase : Memx → UInt32
  inside : ∀ memx, 0 < (membase memx).toNat ∧
    (membase memx).toNat + (memsize memx).toNat ≤ 4294967296

/-- The addresses in one build of the program. -/
def mallcoDev : Membase where
  membase
    | .sramin => 0x24003780
    | .sramex => 0xC01F4000
    | .sramdtcm => 0x20000000
  inside memx := by cases memx <;> decide

section Pointers
variable (base : Membase) (memx : Memx) (bank : Bank)

/-- `myfree` ignores the null pointer. -/
def myfree (ptr : UInt32) : Bank :=
  if ptr = 0 then bank else (myMemFree memx bank (ptr - base.membase memx)).2

/-- `mymalloc` gives the null pointer when no blocks are found. -/
def mymalloc (size : UInt32) : UInt32 × Bank :=
  let (offset, bank) := myMemMalloc memx bank size
  if offset = 0xFFFFFFFF then (0, bank) else (base.membase memx + offset, bank)

end Pointers

section Initialised
variable (memx : Memx) (bank : Bank)

theorem Bank.initialised_of_ready {memx : Memx} {bank : Bank} (ready : bank.memrdy = true) :
    bank.initialised memx = bank := if_pos ready

theorem Bank.initialised_ready : (bank.initialised memx).memrdy = true := by
  unfold initialised
  split
  next ready => exact ready
  next => rfl

/-- The request initialises the pool first. -/
theorem myMemMalloc_initialised (size : UInt32) :
    myMemMalloc memx (bank.initialised memx) size = myMemMalloc memx bank size := by
  rw [myMemMalloc, myMemMalloc, Bank.initialised_of_ready (bank.initialised_ready memx)]

end Initialised

theorem memblksize_eq (memx : Memx) : memblksize memx = 64 := by
  cases memx <;> rfl

theorem tableSize_mul (memx : Memx) : 64 * tableSize memx = (memsize memx).toNat := by
  cases memx <;> rfl

theorem tableSize_le (memx : Memx) : tableSize memx ≤ 462592 := by
  cases memx <;> decide

theorem nmemb_toNat (memx : Memx) (size : UInt32) :
    (nmemb memx size).toNat = (size.toNat + 63) / 64 := by
  have bound := size.toNat_lt
  simp only [nmemb, memblksize_eq]
  have rest : size % 64 = 0 ↔ size.toNat % 64 = 0 := by
    rw [← UInt32.toNat_inj, UInt32.toNat_mod]
    rfl
  have whole : (size / 64).toNat = size.toNat / 64 := UInt32.toNat_div size 64
  by_cases even : size % 64 = 0
  · rw [if_neg (not_not.mpr even), whole]
    have none := rest.mp even
    omega
  · rw [if_pos even, UInt32.toNat_add, whole]
    change (size.toNat / 64 + 1) % 4294967296 = _
    have some : size.toNat % 64 ≠ 0 := fun none => even (rest.mpr none)
    omega

/-- A request for some bytes takes a block. -/
theorem nmemb_pos {memx : Memx} {size : UInt32} (asked : size ≠ 0) :
    0 < (nmemb memx size).toNat := by
  have bytes : size.toNat ≠ 0 := fun none => asked (UInt32.toNat_inj.mp none)
  rw [nmemb_toNat]
  omega

/-- The entries of an extent hold its length. -/
def mark (extent : Extent) : UInt32 := .ofNat extent.count

/-- The offset of a found extent, or the error value. -/
def offsetOf : Option Extent → UInt32
  | none => 0xFFFFFFFF
  | some extent => .ofNat (64 * extent.first)

/-- The pool after a request that found the extent. -/
def Bank.grant (bank : Bank) : Option Extent → Bank
  | none => bank
  | some extent => { bank with memmap := bank.memmap.fill extent (mark extent) }

theorem grant_ready {bank : Bank} (ready : bank.memrdy = true) (found : Option Extent) :
    (bank.grant found).memrdy = true := by
  cases found with
  | none => exact ready
  | some extent => exact ready

/-- The pool without the entries of the extent. -/
def Bank.cleared (bank : Bank) (extent : Extent) : Bank :=
  { bank with memmap := bank.memmap.fill extent 0 }

/-- The free entries of the map. -/
def Bank.free (memx : Memx) (bank : Bank) : Set Nat := freeCells bank.memmap (tableSize memx)

/-- The map is a tiling over the entries that were there before. -/
abbrev Bank.Tiles (memx : Memx) (before : Memory UInt32) (bank : Bank) (live : List Extent) : Prop :=
  Tiling mark (tableSize memx) before bank.memmap live

section Extents
variable {memx : Memx} {bank : Bank} {before : Memory UInt32} {extent : Extent}
  {live : List Extent}

/-- An extent of free entries lies in the table. -/
theorem extent_inside {table : Memory UInt32} (positive : 0 < extent.count)
    (inside : extent.cells ⊆ freeCells table (tableSize memx)) :
    extent.first + extent.count ≤ tableSize memx := by
  have last : extent.first + extent.count - 1 ∈ freeCells table (tableSize memx) :=
    inside (Extent.mem_cells.mpr ⟨by omega, by omega⟩)
  have small := last.1
  omega

theorem mark_toNat (inside : extent.first + extent.count ≤ tableSize memx) :
    (mark extent).toNat = extent.count := by
  have bound := tableSize_le memx
  rw [mark, UInt32.toNat_ofNat']
  omega

theorem mark_toInt32 (inside : extent.first + extent.count ≤ tableSize memx) :
    (mark extent).toInt32.toInt.toNat = extent.count := by
  have bound := tableSize_le memx
  have value := mark_toNat inside
  have signed : (mark extent).toInt32.toInt = (mark extent).toNat := by
    change (mark extent).toBitVec.toInt = _
    apply BitVec.toInt_eq_toNat_of_lt
    change 2 * (mark extent).toNat < 4294967296
    omega
  rw [signed, value, Int.toNat_natCast]

theorem mark_ne (positive : 0 < extent.count)
    (inside : extent.first + extent.count ≤ tableSize memx) : mark extent ≠ 0 := by
  intro zero
  have value := mark_toNat inside
  rw [zero] at value
  change 0 = extent.count at value
  omega

/-- The marks of a tiling are no free entries. -/
theorem tiles_marks (tiles : bank.Tiles memx before live) :
    ∀ extent ∈ live, mark extent ≠ 0 := by
  intro extent found
  obtain ⟨positive, inside⟩ := tiles.inside extent found
  exact mark_ne positive (extent_inside positive inside)

theorem offsetOf_toNat (inside : extent.first + extent.count ≤ tableSize memx) :
    (offsetOf (some extent)).toNat = 64 * extent.first := by
  have bound := tableSize_le memx
  rw [offsetOf, UInt32.toNat_ofNat']
  omega

theorem offsetOf_index (inside : extent.first + extent.count ≤ tableSize memx) :
    (offsetOf (some extent) / memblksize memx).toNat = extent.first := by
  rw [memblksize_eq, UInt32.toNat_div, offsetOf_toNat inside]
  exact Nat.mul_div_cancel_left _ (by decide)

/-- A request for some bytes gets the topmost run of free entries. -/
theorem myMemMalloc_placed (memx : Memx) (ready : bank.memrdy = true) {size : UInt32} (asked : size ≠ 0) :
    ∃ found, Placed (bank.free memx) [(nmemb memx size).toNat] [found]
        ((bank.grant found).free memx) ∧
      myMemMalloc memx bank size = (offsetOf found, bank.grant found) := by
  have positive : 0 < (nmemb memx size).toNat := nmemb_pos asked
  have searched := (Searched.start bank.memmap (tableSize memx) positive).searchDown
  rw [myMemMalloc, Bank.initialised_of_ready ready, if_neg asked]
  cases found : searchDown bank.memmap (nmemb memx size).toNat (tableSize memx) 0 with
  | none =>
      rw [found] at searched
      exact ⟨none, .full searched .nil, rfl⟩
  | some first =>
      rw [found] at searched
      let extent : Extent := ⟨first, (nmemb memx size).toNat⟩
      have inside : extent.first + extent.count ≤ tableSize memx :=
        extent_inside positive searched.1
      have value : mark extent = nmemb memx size := UInt32.ofNat_toNat
      have rest : (bank.grant (some extent)).free memx = bank.free memx \ extent.cells :=
        Tiling.freeCells_fill (mark_ne positive inside) extent bank.memmap _
      refine ⟨some extent, ?_, ?_⟩
      · rw [rest]
        exact .fits searched .nil
      · simp only [Bank.grant, value]
        refine Prod.ext ?_ rfl
        apply UInt32.toNat_inj.mp
        have bound := tableSize_le memx
        rw [offsetOf_toNat inside, memblksize_eq, UInt32.toNat_mul, UInt32.toNat_ofNat']
        change first % 4294967296 * 64 % 4294967296 = 64 * first
        have low : first ≤ tableSize memx := Nat.le_trans (Nat.le_add_right _ _) inside
        omega

/-- A request for no bytes fails. -/
theorem myMemMalloc_zero (ready : bank.memrdy = true) :
    myMemMalloc memx bank 0 = (offsetOf none, bank) := by
  rw [myMemMalloc, Bank.initialised_of_ready ready, if_pos rfl, offsetOf]

/-- An offset that was found is not the error value. -/
theorem offsetOf_ne (inside : extent.first + extent.count ≤ tableSize memx) :
    offsetOf (some extent) ≠ 0xFFFFFFFF := by
  intro same
  have value := offsetOf_toNat inside
  have bound := tableSize_le memx
  rw [same] at value
  change 4294967295 = 64 * extent.first at value
  omega

/-- A found extent extends the tiling. -/
theorem tiles_grant (tiles : bank.Tiles memx before live) {count : Nat} (positive : 0 < count)
    {found : Option Extent} {after : Set Nat}
    (placed : Placed (bank.free memx) [count] [found] after) :
    (bank.grant found).Tiles memx before (found.toList ++ live) := by
  cases placed with
  | fits top _ => exact tiles.allocate (tiles_marks tiles) positive top.1
  | full _ _ => exact tiles

/-- The free of a live extent clears exactly its entries. -/
theorem myMemFree_live (ready : bank.memrdy = true)
    (tiles : bank.Tiles memx before (extent :: live)) :
    myMemFree memx bank (offsetOf (some extent)) = (0, bank.cleared extent) := by
  obtain ⟨positive, free⟩ := tiles.inside extent (List.mem_cons_self ..)
  have inside := extent_inside positive free
  have value := offsetOf_toNat inside
  have small : offsetOf (some extent) < memsize memx := by
    have pool := tableSize_mul memx
    rw [UInt32.lt_iff_toNat_lt]
    omega
  have entry : bank.memmap extent.first = mark extent :=
    tiles.marked extent (List.mem_cons_self ..) _ (Extent.mem_cells.mpr ⟨Nat.le_refl _, by omega⟩)
  rw [myMemFree, if_neg (by simp [ready]), if_pos small]
  simp only [offsetOf_index inside, entry, mark_toInt32 inside]
  rfl

end Extents

section Pointers
variable {base : Membase} {memx : Memx} {bank : Bank} {before : Memory UInt32}
  {extent : Extent} {live : List Extent}

/-- The pointer to a found extent, or the null pointer. -/
def Membase.pointer (base : Membase) (memx : Memx) : Option Extent → UInt32
  | none => 0
  | some extent => base.membase memx + offsetOf (some extent)

/-- A pointer into the pool is not the null pointer. -/
theorem pointer_ne (positive : 0 < extent.count)
    (inside : extent.first + extent.count ≤ tableSize memx) :
    base.pointer memx (some extent) ≠ 0 := by
  intro null
  have value := offsetOf_toNat inside
  obtain ⟨low, high⟩ := base.inside memx
  have pool := tableSize_mul memx
  have sum := congrArg UInt32.toNat null
  rw [Membase.pointer, UInt32.toNat_add, value] at sum
  change ((base.membase memx).toNat + 64 * extent.first) % 4294967296 = 0 at sum
  omega

/-- `mymalloc` gives the pointer to the topmost run of free entries. -/
theorem mymalloc_placed (base : Membase) (ready : bank.memrdy = true) {size : UInt32} (asked : size ≠ 0) :
    ∃ found, Placed (bank.free memx) [(nmemb memx size).toNat] [found]
        ((bank.grant found).free memx) ∧
      mymalloc base memx bank size = (base.pointer memx found, bank.grant found) := by
  obtain ⟨found, placed, result⟩ := myMemMalloc_placed memx ready asked
  refine ⟨found, placed, ?_⟩
  rw [mymalloc, result]
  cases placed with
  | @fits _ _ _ first _ _ top _ =>
      let extent : Extent := ⟨first, (nmemb memx size).toNat⟩
      have inside : extent.first + extent.count ≤ tableSize memx :=
        extent_inside (nmemb_pos asked) top.1
      exact if_neg (offsetOf_ne inside)
  | full _ _ => exact if_pos rfl

/-- `myfree` of the null pointer does nothing. -/
theorem myfree_null : myfree base memx bank (base.pointer memx none) = bank := if_pos rfl

/-- `myfree` of a live extent clears exactly its entries. -/
theorem myfree_live (ready : bank.memrdy = true)
    (tiles : bank.Tiles memx before (extent :: live)) :
    myfree base memx bank (base.pointer memx (some extent)) = bank.cleared extent := by
  obtain ⟨positive, free⟩ := tiles.inside extent (List.mem_cons_self ..)
  have inside := extent_inside positive free
  rw [myfree, if_neg (pointer_ne positive inside), Membase.pointer, UInt32.add_comm,
    UInt32.add_sub_cancel, myMemFree_live ready tiles]

/-- The requests of a list follow each other. -/
def mymallocs (base : Membase) (memx : Memx) : Bank → List UInt32 → List UInt32 × Bank
  | bank, [] => ([], bank)
  | bank, size :: sizes =>
      let (ptr, bank) := mymalloc base memx bank size
      let (ptrs, bank) := mymallocs base memx bank sizes
      (ptr :: ptrs, bank)

/-- The pointers of a list are freed one after the other. -/
def myfrees (base : Membase) (memx : Memx) (bank : Bank) (ptrs : List UInt32) : Bank :=
  ptrs.foldl (myfree base memx) bank

/-- The requests place their blocks, and the found blocks extend the tiling. -/
theorem mymallocs_placed (base : Membase) (ready : bank.memrdy = true) (sizes : List UInt32)
    (asked : 0 ∉ sizes) (tiles : bank.Tiles memx before live) :
    ∃ extents after, mymallocs base memx bank sizes = (extents.map (base.pointer memx), after) ∧
      Placed (bank.free memx) (sizes.map fun size => (nmemb memx size).toNat) extents
        (after.free memx) ∧
      after.memrdy = true ∧ after.Tiles memx before (extents.reduceOption ++ live) := by
  induction sizes generalizing bank live with
  | nil => exact ⟨[], bank, rfl, .nil, ready, tiles⟩
  | cons size sizes ih =>
      rw [List.mem_cons, not_or] at asked
      have some : size ≠ 0 := fun none => asked.1 none.symm
      obtain ⟨found, placed, result⟩ := mymalloc_placed base ready some
      have granted := tiles_grant tiles (nmemb_pos some) placed
      obtain ⟨extents, after, results, rest, still, tiled⟩ :=
        ih (grant_ready ready found) asked.2 granted
      refine ⟨found :: extents, after, ?_, placed.append rest, still, tiled.perm ?_⟩
      · rw [mymallocs, result]
        simp only [results, List.map_cons]
      · cases found with
        | none => exact .refl _
        | some extent => exact List.perm_middle

/-- The null pointer says that there was no place. -/
theorem pointer_eq_zero_iff (base : Membase) {extents : List (Option Extent)}
    (tiles : bank.Tiles memx before (extents.reduceOption ++ live)) {found : Option Extent}
    (listed : found ∈ extents) : base.pointer memx found = 0 ↔ found = none := by
  cases found with
  | none => exact iff_of_true rfl rfl
  | some extent =>
      have used : extent ∈ extents.reduceOption ++ live :=
        List.mem_append_left _ (List.reduceOption_mem_iff.mpr listed)
      obtain ⟨positive, free⟩ := tiles.inside extent used
      exact iff_of_false (pointer_ne positive (extent_inside positive free)) (by simp)

/-- Freeing the pointers of some blocks leaves the others. -/
theorem myfrees_tiles (base : Membase) (ready : bank.memrdy = true) (extents : List (Option Extent))
    (tiles : bank.Tiles memx before (extents.reduceOption ++ live)) :
    (myfrees base memx bank (extents.map (base.pointer memx))).memrdy = true ∧
      (myfrees base memx bank (extents.map (base.pointer memx))).Tiles memx before live := by
  induction extents generalizing bank with
  | nil => exact ⟨ready, tiles⟩
  | cons found extents ih =>
      cases found with
      | none =>
          rw [List.map_cons, myfrees, List.foldl_cons, myfree_null]
          exact ih ready tiles
      | some extent =>
          rw [List.map_cons, myfrees, List.foldl_cons, myfree_live ready tiles]
          exact ih ready tiles.release

/-- Freeing all pointers of a list of requests, in any order, gives the pool before them. -/
theorem myfrees_all (base : Membase) (ready : bank.memrdy = true)
    {extents others : List (Option Extent)} {after : Bank} (still : after.memrdy = true)
    (tiles : after.Tiles memx bank.memmap (extents.reduceOption ++ []))
    (same : extents.Perm others) :
    myfrees base memx after (others.map (base.pointer memx)) = bank := by
  have tiled : after.Tiles memx bank.memmap (others.reduceOption ++ []) :=
    tiles.perm ((same.filterMap id).append_right [])
  obtain ⟨freed, empty⟩ := myfrees_tiles base still others tiled
  exact congrArg₂ Bank.mk empty.eq_base (freed.trans ready.symm)

end Pointers

-- A comparison of two pools must not run the search.
attribute [irreducible] myMemMalloc myMemFree mymalloc myfree

end NnpCamera.Allocator
