/-
This file shows for which addresses `myfree` releases a whole block or nothing.
-/

import NnpCamera.Allocator.Realloc

namespace NnpCamera.Allocator
open Library

/-- A free releases exactly the block that contains the address, or leaves the map as each call sees
it. It uses no entry behind the table. -/
structure FreeLaw (base : Membase) (memx : Memx) (heap : Heap) (ptr : UInt32) : Prop where
  effect : (∃ handed ∈ heap.live,
      (ptr - base.membase memx).toNat ∈ heap.bank.bytesAt memx handed.offset ∧
        myfree base memx heap.bank ptr =
          heap.bank.cleared (heap.bank.blockAt memx handed.offset)) ∨
    (myfree base memx heap.bank ptr).initialised memx = heap.bank.initialised memx
  entries : ∀ entry ∈ myfreeEntries base memx heap.bank ptr, entry < tableSize memx

namespace Used
variable {base : Membase} {memx : Memx} {before : Memory UInt32} {heap : Heap} {ptr : UInt32}

/-- An address lies in the first entry of each block that contains it. -/
theorem firstEntry_iff (base : Membase) (used : Used memx before heap.usage) (ptr : UInt32) :
    heap.FirstEntry base memx ptr ↔ ∀ handed ∈ heap.live,
      ((ptr - base.membase memx) / memblksize memx).toNat ∈ (handed.extent memx).cells →
        (handed.extent memx).first = ((ptr - base.membase memx) / memblksize memx).toNat := by
  refine forall₂_congr fun handed found => ?_
  have start := used.offset_toNat found
  rw [used.mem_bytesAt found, offset_index, memblksize_eq]
  refine imp_congr_right fun inside => ?_
  have low := (Extent.mem_cells.mp inside).1
  change _ < _ + 64 ↔ _
  omega

/-- From the first entry of a block, or from a free entry, the loop of `my_mem_free` stays in the
table. -/
theorem entries_inside (used : Used memx before heap.usage)
    (zero : ∀ cell < tableSize memx, before cell = 0) (first : heap.FirstEntry base memx ptr) :
    ∀ entry ∈ myfreeEntries base memx heap.bank ptr, entry < tableSize memx := by
  rw [used.firstEntry_iff] at first
  generalize index_eq : ((ptr - base.membase memx) / memblksize memx).toNat = index at first
  have pool := tableSize_mul memx
  intro entry listed
  simp only [myfreeEntries, myMemFreeEntries, index_eq] at listed
  split at listed
  · exact absurd listed List.not_mem_nil
  split at listed
  · exact List.mem_range.mp listed
  split at listed
  next ready within =>
    have small := UInt32.lt_iff_toNat_lt.mp within
    have place : index = (ptr - base.membase memx).toNat / 64 := index_eq ▸ offset_index _
    by_cases taken : ∃ handed ∈ heap.live, index ∈ (handed.extent memx).cells
    · obtain ⟨handed, found, inside⟩ := taken
      have start := first handed found inside
      have last := (used.extent_inside found).2
      rw [used.memmap_mark found inside, mark_toInt32 last] at listed
      simp only [List.mem_cons, List.mem_map, List.mem_range] at listed
      omega
    · have free : ∀ handed ∈ heap.live, index ∉ (handed.extent memx).cells :=
        fun handed found inside => taken ⟨handed, found, inside⟩
      rw [used.memmap_free zero (by simpa using ready) free (by omega)] at listed
      change entry ∈ [index] at listed
      rw [List.mem_singleton.mp listed]
      omega
  next => exact absurd listed List.not_mem_nil

/-- A free from a later entry of a block neither releases this block nor leaves the map. -/
theorem interior (used : Used memx before heap.usage) {handed : Handed} (found : handed ∈ heap.live)
    {index : Nat} (later : (handed.extent memx).first < index)
    (inside : index ∈ (handed.extent memx).cells) :
    heap.bank.cleared ⟨index, (handed.extent memx).count⟩ ≠ heap.bank.cleared (handed.extent memx) ∧
      heap.bank.cleared ⟨index, (handed.extent memx).count⟩ ≠ heap.bank := by
  obtain ⟨positive, room⟩ := used.extent_inside found
  have first : (handed.extent memx).first ∈ (handed.extent memx).cells :=
    Extent.mem_cells.mpr ⟨Nat.le_refl _, by omega⟩
  have marked := mark_ne positive room
  constructor
  · intro same
    have entry := congrArg (Bank.memmap · (handed.extent memx).first) same
    simp only [Bank.cleared, Memory.fill_apply, if_pos first] at entry
    rw [if_neg (by rw [Extent.mem_run]; omega), used.memmap_mark found first] at entry
    exact marked entry
  · intro same
    have entry := congrArg (Bank.memmap · index) same
    simp only [Bank.cleared, Memory.fill_apply] at entry
    rw [if_pos (Extent.mem_run.mpr ⟨Nat.le_refl _, by omega⟩), used.memmap_mark found inside] at entry
    exact marked entry.symm

/-- The law holds exactly for the addresses in no block or in the first entry of one. -/
theorem freeLaw_iff (used : Used memx before heap.usage)
    (zero : ∀ cell < tableSize memx, before cell = 0) :
    FreeLaw base memx heap ptr ↔ heap.FirstEntry base memx ptr := by
  have place := used.firstEntry_iff base ptr
  have byte {handed : Handed} (found : handed ∈ heap.live) :
      (ptr - base.membase memx).toNat ∈ heap.bank.bytesAt memx handed.offset ↔
        ((ptr - base.membase memx) / memblksize memx).toNat ∈ (handed.extent memx).cells := by
    rw [used.mem_bytesAt found, offset_index]
  rcases used.myfree_cases base zero ptr with
    ⟨handed, found, same, freed⟩ | ⟨free, freed⟩ | ⟨handed, found, later, inside, freed⟩
  · have positive := (used.extent_inside found).1
    have inside : ((ptr - base.membase memx) / memblksize memx).toNat ∈ (handed.extent memx).cells :=
      same ▸ Extent.mem_cells.mpr ⟨Nat.le_refl _, by omega⟩
    have first : heap.FirstEntry base memx ptr := by
      rw [place]
      intro other present within
      rw [← used.handed_eq found present inside within, same]
    refine iff_of_true ⟨.inl ⟨handed, found, (byte found).mpr inside, ?_⟩, ?_⟩ first
    · rw [freed, used.blockAt_eq found]
    · exact used.entries_inside zero first
  · have first : heap.FirstEntry base memx ptr :=
      place.mpr fun handed found inside => absurd inside (free handed found)
    refine iff_of_true ⟨.inr ?_, used.entries_inside zero first⟩ first
    rcases freed with freed | freed
    · rw [freed]
    · rw [freed, Bank.initialised_of_ready (heap.bank.initialised_ready memx)]
  · obtain ⟨release, leave⟩ := used.interior found later inside
    refine iff_of_false (fun law => ?_) fun first => ?_
    · rcases law.effect with ⟨other, present, within, cleared⟩ | unchanged
      · rw [← used.handed_eq found present inside ((byte present).mp within), freed,
          used.blockAt_eq found] at cleared
        exact release cleared
      · have ready : heap.bank.memrdy = true := used.ready (List.ne_nil_of_mem found)
        have still (extent : Extent) : (heap.bank.cleared extent).memrdy = true := ready
        rw [freed, Bank.initialised_of_ready ready, Bank.initialised_of_ready (still _)] at unchanged
        exact leave unchanged
    · have start := place.mp first handed found inside
      omega

end Used

/-- In each run in which no address behind the first entry of a block was freed, `myfree` of any
address obeys the law exactly when its address is not behind the first entry of a block. -/
theorem myfree_contained {base : Membase} {memx : Memx} {start heap : Heap}
    (fresh : Fresh memx start.usage)
    (reached : (heapCalls base memx).Reaches (Heap.Proper base memx) start heap) (ptr : UInt32) :
    FreeLaw base memx heap ptr ↔ heap.FirstEntry base memx ptr :=
  (heap_used fresh reached).freeLaw_iff fresh.initialised_zero

/-- The pointer to a block of two entries obeys the law. -/
theorem myfree_contained_dtcm : ∃ heap, heap.live = [⟨61248, 65⟩, ⟨61376, 1⟩] ∧
    (FreeLaw mallcoDev .sramdtcm heap 0x2000EF40 ↔
      heap.FirstEntry mallcoDev .sramdtcm 0x2000EF40) := by
  obtain ⟨heap, reached, live⟩ := dtcm_reached
  exact ⟨heap, live, myfree_contained dtcmReset_fresh reached 0x2000EF40⟩

/-- The second entry of a block is freed. The block keeps its first entry, and the block above it
loses its only one. -/
theorem myfree_interior : ∃ heap,
    (heapCalls mallcoDev .sramdtcm).Reaches (Heap.Proper mallcoDev .sramdtcm) dtcmReset heap ∧
      heap.live = [⟨61248, 65⟩, ⟨61376, 1⟩] ∧
      ¬ FreeLaw mallcoDev .sramdtcm heap 0x2000EF80 ∧
      (myfree mallcoDev .sramdtcm heap.bank 0x2000EF80).memmap 957 = 2 ∧
      (myfree mallcoDev .sramdtcm heap.bank 0x2000EF80).memmap 959 = 0 := by
  have passed : (((heapCalls mallcoDev .sramdtcm).guarded (Heap.Proper mallcoDev .sramdtcm)).run
      dtcmReset [.mymalloc 1, .mymalloc 65]).any
        (fun heap => decide (heap.live = [⟨61248, 65⟩, ⟨61376, 1⟩] ∧
          ¬ heap.FirstEntry mallcoDev .sramdtcm 0x2000EF80 ∧
          (myfree mallcoDev .sramdtcm heap.bank 0x2000EF80).memmap 957 = 2 ∧
          (myfree mallcoDev .sramdtcm heap.bank 0x2000EF80).memmap 959 = 0)) = true := by
    decide +kernel
  obtain ⟨heap, reached, checked⟩ := System.guarded_check _ _ _ _ _ passed
  obtain ⟨live, behind, rest⟩ := of_decide_eq_true checked
  have used := heap_used dtcmReset_fresh reached
  exact ⟨heap, reached, live,
    fun law => behind ((used.freeLaw_iff dtcmReset_fresh.initialised_zero).mp law), rest⟩

end NnpCamera.Allocator
