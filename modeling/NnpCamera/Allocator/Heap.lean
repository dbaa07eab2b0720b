/-
This file models `myrealloc` and the callers that allocate, reallocate and free, and write to the
pool. A call of `myfree` takes any address.
-/

import NnpCamera.Allocator.Correctness
import NnpCamera.Library.Loop

namespace NnpCamera.Allocator
open Library

/-- The bytes of the address space. `reads` is history and lists the addresses that were copied. -/
structure Space where
  bytes : UInt32 → UInt8
  reads : List UInt32

/-- `mymemcpy` copies one byte after the other. -/
def mymemcpy (des src n : UInt32) (space : Space) : Space :=
  loop (fun index space => {
      bytes := Function.update space.bytes (des + .ofNat index) (space.bytes (src + .ofNat index))
      reads := space.reads ++ [src + .ofNat index] }) n.toNat space

section Pointers
variable (base : Membase) (memx : Memx)

/-- `myrealloc` copies as many bytes as the new block was asked for. -/
def myrealloc (bank : Bank) (space : Space) (ptr size : UInt32) : UInt32 × Bank × Space :=
  let (offset, bank) := myMemMalloc memx bank size
  if offset = 0xFFFFFFFF then (0, bank, space)
  else
    let space := mymemcpy (base.membase memx + offset) ptr size space
    (base.membase memx + offset, myfree base memx bank ptr, space)

/-- The entries of the map that `my_mem_free` reads or writes. -/
def myMemFreeEntries (bank : Bank) (offset : UInt32) : List Nat :=
  if bank.memrdy = false then List.range (tableSize memx)
  else if offset < memsize memx then
    let index := (offset / memblksize memx).toNat
    let nmemb := (bank.memmap index).toInt32.toInt.toNat
    index :: (List.range nmemb).map (index + ·)
  else []

/-- The entries of the map that `myfree` reads or writes. -/
def myfreeEntries (bank : Bank) (ptr : UInt32) : List Nat :=
  if ptr = 0 then [] else myMemFreeEntries memx bank (ptr - base.membase memx)

end Pointers

/-- A pool with its bytes and the blocks that are handed out and not yet freed. -/
structure Heap where
  bank : Bank
  bytes : UInt32 → UInt8
  live : List Handed

/-- The same pool without its bytes. -/
abbrev Heap.usage (heap : Heap) : Usage := ⟨heap.bank, heap.live⟩

/-- A caller calls the allocator or writes a byte. -/
inductive HeapCall where
  | mymalloc (size : UInt32)
  | myfree (ptr : UInt32)
  | myrealloc (ptr size : UInt32)
  | store (address : UInt32) (value : UInt8)
  deriving DecidableEq, Repr

/-- The block with its first entry at this offset is given back. -/
def released (memx : Memx) (offset : UInt32) (live : List Handed) : List Handed :=
  live.eraseP fun handed => handed.offset / memblksize memx = offset / memblksize memx

section Calls
variable (base : Membase) (memx : Memx)

/-- The pointer of a reallocation belongs to a block that is handed out. The pointer of a free does
not have to. -/
def heapCalls : System Heap HeapCall where
  step heap call :=
    match call with
    | .mymalloc size =>
        let (ptr, bank) := mymalloc base memx heap.bank size
        some { heap with
          bank := bank
          live := if ptr = 0 then heap.live else ⟨ptr - base.membase memx, size⟩ :: heap.live }
    | .myfree ptr =>
        some { heap with
          bank := myfree base memx heap.bank ptr
          live := released memx (ptr - base.membase memx) heap.live }
    | .myrealloc ptr size =>
        if ptr - base.membase memx ∈ heap.live.map Handed.offset then
          let (new, bank, space) := myrealloc base memx heap.bank ⟨heap.bytes, []⟩ ptr size
          some {
            bank := bank
            bytes := space.bytes
            live :=
              if new = 0 then heap.live
              else ⟨new - base.membase memx, size⟩ ::
                released memx (ptr - base.membase memx) heap.live }
        else none
    | .store address value =>
        some { heap with bytes := Function.update heap.bytes address value }

/-- An address in a block that is handed out lies in the first entry of this block. -/
def Heap.FirstEntry (heap : Heap) (ptr : UInt32) : Prop :=
  ∀ handed ∈ heap.live,
    (ptr - base.membase memx).toNat ∈ heap.bank.bytesAt memx handed.offset →
      (ptr - base.membase memx).toNat < handed.offset.toNat + (memblksize memx).toNat

instance (heap : Heap) (ptr : UInt32) : Decidable (heap.FirstEntry base memx ptr) :=
  inferInstanceAs (Decidable (∀ handed ∈ heap.live,
    (ptr - base.membase memx).toNat ∈ Set.Ico _ _ → _))

/-- A caller frees no address behind the first entry of a block. -/
def Heap.Proper (heap : Heap) : HeapCall → Prop
  | .myfree ptr => heap.FirstEntry base memx ptr
  | _ => True

instance (heap : Heap) : (call : HeapCall) → Decidable (heap.Proper base memx call)
  | .mymalloc _ => .isTrue trivial
  | .myfree ptr => inferInstanceAs (Decidable (heap.FirstEntry base memx ptr))
  | .myrealloc _ _ => .isTrue trivial
  | .store _ _ => .isTrue trivial

end Calls

/-- The address of a byte of the pool. -/
def Membase.byte (base : Membase) (memx : Memx) (byte : Nat) : UInt32 :=
  base.membase memx + .ofNat byte

section Addresses
variable {base : Membase} {memx : Memx}

/-- The offset of an address that starts from the pool. -/
theorem membase_add_sub (offset : UInt32) :
    base.membase memx + offset - base.membase memx = offset := by
  rw [UInt32.add_comm, UInt32.add_sub_cancel]

theorem byte_sub (byte : Nat) :
    base.byte memx byte - base.membase memx = .ofNat byte := by
  rw [Membase.byte, membase_add_sub]

/-- Two bytes of the address space have different addresses. -/
theorem byte_inj {one other : Nat} (first : one < 4294967296) (second : other < 4294967296)
    (same : base.byte memx one = base.byte memx other) : one = other := by
  have offsets : UInt32.ofNat one = UInt32.ofNat other := by
    have shifted := congrArg (· - base.membase memx) same
    simpa only [byte_sub] using shifted
  have numbers := congrArg UInt32.toNat offsets
  rw [UInt32.toNat_ofNat', UInt32.toNat_ofNat'] at numbers
  omega

theorem offset_index (offset : UInt32) :
    (offset / memblksize memx).toNat = offset.toNat / 64 := by
  rw [memblksize_eq, UInt32.toNat_div]
  rfl

/-- The null pointer is outside the pool. -/
theorem null_outside : (memsize memx).toNat ≤ (0 - base.membase memx).toNat := by
  obtain ⟨low, high⟩ := base.inside memx
  rw [UInt32.toNat_sub]
  change _ ≤ (4294967296 - (base.membase memx).toNat + 0) % 4294967296
  omega

end Addresses

/-- `my_mem_free` clears from the entry of the address as many entries as this entry says. -/
theorem myMemFree_inside {memx : Memx} {bank : Bank} {offset : UInt32} (ready : bank.memrdy = true)
    (within : offset < memsize memx) :
    (myMemFree memx bank offset).2 = bank.cleared ⟨(offset / memblksize memx).toNat,
      (bank.memmap (offset / memblksize memx).toNat).toInt32.toInt.toNat⟩ := by
  rw [myMemFree, if_neg (by simp [ready]), if_pos within]
  rfl

/-- A run of no entries clears nothing. -/
theorem cleared_none (bank : Bank) (index : Nat) : bank.cleared ⟨index, 0⟩ = bank := by
  have same : bank.memmap.fill ⟨index, 0⟩ 0 = bank.memmap := by
    funext cell
    rw [Memory.fill_apply, if_neg (by simp)]
  rw [Bank.cleared, same]

namespace Used
variable {base : Membase} {memx : Memx} {before : Memory UInt32} {usage : Usage} {handed : Handed}

/-- A block that is handed out starts at its first entry. -/
theorem offset_toNat (used : Used memx before usage) (found : handed ∈ usage.live) :
    handed.offset.toNat = 64 * (handed.extent memx).first := by
  have value := offsetOf_toNat (used.extent_inside found).2
  rwa [← used.offsets handed found] at value

/-- An entry of a block holds the number of its blocks. -/
theorem memmap_mark (used : Used memx before usage) (found : handed ∈ usage.live) {entry : Nat}
    (inside : entry ∈ (handed.extent memx).cells) :
    usage.bank.memmap entry = mark (handed.extent memx) := by
  have marked := used.tiles.marked _ (List.mem_map_of_mem found) entry inside
  rwa [used.initialised_eq found] at marked

/-- An entry of no block holds zero. -/
theorem memmap_free (used : Used memx before usage)
    (zero : ∀ cell < tableSize memx, before cell = 0) (ready : usage.bank.memrdy = true) {entry : Nat}
    (free : ∀ handed ∈ usage.live, entry ∉ (handed.extent memx).cells)
    (inside : entry < tableSize memx) : usage.bank.memmap entry = 0 := by
  have rest := used.tiles.rest entry (by simpa using free)
  rw [Bank.initialised_of_ready ready] at rest
  exact rest.trans (zero entry inside)

/-- Two blocks with a common entry are the same extent. -/
theorem extent_eq (used : Used memx before usage) {other : Handed} (first : handed ∈ usage.live)
    (second : other ∈ usage.live)
    (same : (handed.extent memx).first = (other.extent memx).first) :
    handed.extent memx = other.extent memx := by
  rw [← used.blockAt_eq first, ← used.blockAt_eq second]
  change (handed.offset / memblksize memx).toNat = (other.offset / memblksize memx).toNat at same
  simp only [Bank.blockAt, same]

/-- The block at an offset is cleared and leaves the list. -/
theorem releases (used : Used memx before usage) (found : handed ∈ usage.live) {offset : UInt32}
    (same : handed.offset / memblksize memx = offset / memblksize memx) :
    Used memx before
      ⟨usage.bank.cleared (handed.extent memx), released memx offset usage.live⟩ := by
  obtain ⟨given, one, two, _, equal, parts, rest⟩ := List.exists_of_eraseP
    (p := fun handed => handed.offset / memblksize memx = offset / memblksize memx) found
    (by simp [same])
  have present : given ∈ usage.live := by simp [parts]
  have place : given.offset / memblksize memx = offset / memblksize memx := of_decide_eq_true equal
  have extent : handed.extent memx = given.extent memx :=
    used.extent_eq found present (congrArg UInt32.toNat (same.trans place.symm))
  rw [released, rest, extent]
  exact used.clear present (parts ▸ List.perm_middle)

/-- What `myfree` does depends on where the address lies: in the first entry of a block, in no block,
or in a later entry of a block. -/
theorem myfree_cases (base : Membase) (used : Used memx before usage)
    (zero : ∀ cell < tableSize memx, before cell = 0) (ptr : UInt32) :
    let index := ((ptr - base.membase memx) / memblksize memx).toNat
    (∃ handed ∈ usage.live, (handed.extent memx).first = index ∧
        myfree base memx usage.bank ptr = usage.bank.cleared (handed.extent memx)) ∨
      ((∀ handed ∈ usage.live, index ∉ (handed.extent memx).cells) ∧
        (myfree base memx usage.bank ptr = usage.bank ∨
          myfree base memx usage.bank ptr = usage.bank.initialised memx)) ∨
      ∃ handed ∈ usage.live, (handed.extent memx).first < index ∧
        index ∈ (handed.extent memx).cells ∧
        myfree base memx usage.bank ptr =
          usage.bank.cleared ⟨index, (handed.extent memx).count⟩ := by
  intro index
  have place : index = (ptr - base.membase memx).toNat / 64 := offset_index _
  have pool := tableSize_mul memx
  have beyond (outside : (memsize memx).toNat ≤ (ptr - base.membase memx).toNat) :
      ∀ handed ∈ usage.live, index ∉ (handed.extent memx).cells := by
    intro handed found inside
    have last := (Extent.mem_cells.mp inside).2
    have room := (used.extent_inside found).2
    omega
  by_cases null : ptr = 0
  · refine .inr (.inl ⟨beyond ?_, .inl ?_⟩)
    · rw [null]
      exact null_outside
    · rw [myfree, if_pos null]
  rw [myfree, if_neg null]
  cases ready : usage.bank.memrdy with
  | false =>
      refine .inr (.inl ⟨fun handed found => ?_, .inr ?_⟩)
      · have still := used.ready (List.ne_nil_of_mem found)
        rw [ready] at still
        contradiction
      · rw [myMemFree, if_pos ready, Bank.initialised, if_neg (by simp [ready])]
  | true =>
      by_cases within : ptr - base.membase memx < memsize memx
      · rw [myMemFree_inside ready within]
        by_cases taken : ∃ handed ∈ usage.live, index ∈ (handed.extent memx).cells
        · obtain ⟨handed, found, inside⟩ := taken
          rw [used.memmap_mark found inside, mark_toInt32 (used.extent_inside found).2]
          rcases Nat.eq_or_lt_of_le (Extent.mem_cells.mp inside).1 with first | later
          · refine .inl ⟨handed, found, first, ?_⟩
            show usage.bank.cleared ⟨index, (handed.extent memx).count⟩ = _
            rw [← first]
          · exact .inr (.inr ⟨handed, found, later, inside, rfl⟩)
        · have free : ∀ handed ∈ usage.live, index ∉ (handed.extent memx).cells :=
            fun handed found inside => taken ⟨handed, found, inside⟩
          have small := UInt32.lt_iff_toNat_lt.mp within
          refine .inr (.inl ⟨free, .inl ?_⟩)
          rw [used.memmap_free zero ready free (by omega)]
          exact cleared_none usage.bank index
      · have outside : (memsize memx).toNat ≤ (ptr - base.membase memx).toNat :=
          Nat.le_of_not_lt fun less => within (UInt32.lt_iff_toNat_lt.mpr less)
        refine .inr (.inl ⟨beyond outside, .inl ?_⟩)
        rw [myMemFree, if_neg (by simp [ready]), if_neg within]

/-- A free of an address outside the blocks, or in the first entry of one, keeps the tiling. -/
theorem myfree {bank : Bank} {live : List Handed} (used : Used memx before ⟨bank, live⟩)
    (zero : ∀ cell < tableSize memx, before cell = 0) {bytes : UInt32 → UInt8} {ptr : UInt32}
    (first : Heap.FirstEntry base memx ⟨bank, bytes, live⟩ ptr) :
    Used memx before ⟨Allocator.myfree base memx bank ptr,
      released memx (ptr - base.membase memx) live⟩ := by
  have place : ((ptr - base.membase memx) / memblksize memx).toNat =
      (ptr - base.membase memx).toNat / 64 := offset_index _
  rcases used.myfree_cases base zero ptr with
    ⟨handed, found, same, freed⟩ | ⟨free, freed⟩ | ⟨handed, found, later, inside, _⟩
  · rw [freed]
    exact used.releases found (UInt32.toNat_inj.mp same)
  · have kept : released memx (ptr - base.membase memx) live = live := by
      apply List.eraseP_of_forall_not
      intro handed found equal
      have equal := congrArg UInt32.toNat (of_decide_eq_true equal)
      change (handed.extent memx).first = _ at equal
      have positive := (used.extent_inside found).1
      exact free handed found (Extent.mem_cells.mpr ⟨by omega, by omega⟩)
    rw [kept]
    rcases freed with freed | freed
    · rw [freed]
      exact used
    · rw [freed]
      exact used.initialise
  · have byte : (ptr - base.membase memx).toNat ∈ bank.bytesAt memx handed.offset := by
      rw [used.mem_bytesAt found, ← place]
      exact inside
    have early := first handed found byte
    have offset := used.offset_toNat found
    rw [memblksize_eq] at early
    change _ < _ + 64 at early
    omega

/-- The pointer to a block releases this block. -/
theorem myfree_handed (used : Used memx before usage) (found : handed ∈ usage.live) :
    Allocator.myfree base memx usage.bank (base.membase memx + handed.offset) =
      usage.bank.cleared (handed.extent memx) := by
  obtain ⟨positive, inside⟩ := used.extent_inside found
  have pointer : base.membase memx + handed.offset = base.pointer memx (some (handed.extent memx)) := by
    rw [Membase.pointer, ← used.offsets handed found]
  rw [Allocator.myfree, if_neg (pointer ▸ pointer_ne positive inside), membase_add_sub,
    used.myMemFree_eq found]

/-- A new block and an old one have different first entries. -/
theorem new_ne {given : Handed} {live : List Handed} {bank : Bank}
    (used : Used memx before ⟨bank, given :: live⟩) (found : handed ∈ live) :
    given.offset / memblksize memx ≠ handed.offset / memblksize memx := by
  intro same
  have first := congrArg UInt32.toNat same
  change (given.extent memx).first = (handed.extent memx).first at first
  have one := (used.extent_inside (List.mem_cons_self ..)).1
  have two := (used.extent_inside (List.mem_cons_of_mem _ found)).1
  have apart := (List.pairwise_cons.mp used.tiles.apart).1 _ (List.mem_map_of_mem found)
  exact Set.disjoint_left.mp apart
    (Extent.mem_cells.mpr ⟨Nat.le_refl _, Nat.lt_add_of_pos_right one⟩)
    (Extent.mem_cells.mpr ⟨Nat.le_of_eq first.symm, by omega⟩)

/-- The two ends of a reallocation: no place for the new block, or the topmost place, and then the old
block is released. -/
theorem myrealloc_cases (base : Membase) (used : Used memx before usage) (found : handed ∈ usage.live)
    (space : Space) (size : UInt32) :
    (myrealloc base memx usage.bank space (base.membase memx + handed.offset) size =
          (0, usage.bank, space) ∧
        (size = 0 ∨ Starts (usage.bank.free memx) (nmemb memx size).toNat = ∅)) ∨
      ∃ extent : Extent, extent.count = (nmemb memx size).toNat ∧ size ≠ 0 ∧
        Topmost (usage.bank.free memx) extent.count extent.first ∧
        myrealloc base memx usage.bank space (base.membase memx + handed.offset) size =
          (base.pointer memx (some extent),
            (usage.bank.grant (some extent)).cleared (handed.extent memx),
            mymemcpy (base.membase memx + offsetOf (some extent))
              (base.membase memx + handed.offset) size space) ∧
        Used memx before ⟨usage.bank.grant (some extent), ⟨offsetOf (some extent), size⟩ :: usage.live⟩ ∧
        Used memx before ⟨(usage.bank.grant (some extent)).cleared (handed.extent memx),
          ⟨offsetOf (some extent), size⟩ :: released memx handed.offset usage.live⟩ := by
  have same := used.initialised_eq found
  rcases myMemMalloc_cases memx usage.bank size with
    ⟨result, full⟩ | ⟨extent, length, positive, asked, top, result⟩
  · rw [same] at result full
    refine .inl ⟨?_, full⟩
    simp only [myrealloc, result, if_true]
  · have granted : Used memx before ⟨(usage.bank.initialised memx).grant (some extent),
        ⟨offsetOf (some extent), size⟩ :: usage.live⟩ := used.grant length positive top
    rw [same] at result top granted
    have kept : handed ∈ (⟨offsetOf (some extent), size⟩ :: usage.live : List Handed) :=
      List.mem_cons_of_mem _ found
    have inside := Allocator.extent_inside positive top.1
    have rest := granted.releases kept rfl
    rw [released, List.eraseP_cons_of_neg (by simpa using granted.new_ne found)] at rest
    refine .inr ⟨extent, length, asked, top, ?_, granted, rest⟩
    simp only [myrealloc, result, if_neg (offsetOf_ne inside)]
    rw [granted.myfree_handed kept]
    rfl

/-- A request through `mymalloc` keeps the tiling. -/
theorem mymalloc {heap after : Heap} (used : Used memx before heap.usage) (size : UInt32)
    (stepped : (heapCalls base memx).step heap (.mymalloc size) = some after) :
    Used memx before after.usage := by
  rcases myMemMalloc_cases memx heap.bank size with
    ⟨result, _⟩ | ⟨extent, length, positive, _, top, result⟩
  · simp only [heapCalls, Allocator.mymalloc, result, if_true] at stepped
    obtain rfl := Option.some.inj stepped
    exact used.initialise
  · have inside := Allocator.extent_inside positive top.1
    have pointer : base.membase memx + offsetOf (some extent) ≠ 0 := pointer_ne positive inside
    simp only [heapCalls, Allocator.mymalloc, result, if_neg (offsetOf_ne inside),
      if_neg pointer] at stepped
    obtain rfl := Option.some.inj stepped
    rw [Heap.usage, membase_add_sub]
    exact used.grant length positive top

/-- A reallocation keeps the tiling. -/
theorem myrealloc {heap after : Heap} (used : Used memx before heap.usage) (ptr size : UInt32)
    (stepped : (heapCalls base memx).step heap (.myrealloc ptr size) = some after) :
    Used memx before after.usage := by
  simp only [heapCalls] at stepped
  split at stepped
  next known =>
    obtain ⟨handed, found, place⟩ := List.mem_map.mp known
    have pointer : ptr = base.membase memx + handed.offset := by
      rw [place, UInt32.add_comm, UInt32.sub_add_cancel]
    rw [pointer] at stepped
    obtain rfl := Option.some.inj stepped
    rcases used.myrealloc_cases base found ⟨heap.bytes, []⟩ size with
      ⟨result, _⟩ | ⟨extent, length, asked, top, result, _, rest⟩
    · simp only [result, if_true]
      exact used
    · have positive : 0 < extent.count := length ▸ nmemb_pos asked
      have inside := Allocator.extent_inside positive top.1
      have nonzero : base.pointer memx (some extent) ≠ 0 := pointer_ne positive inside
      simp only [result, if_neg nonzero]
      rw [Heap.usage, Membase.pointer, membase_add_sub, membase_add_sub]
      exact rest
  next => contradiction

/-- Each proper call keeps the tiling. -/
theorem heapStep {heap after : Heap} (used : Used memx before heap.usage)
    (zero : ∀ cell < tableSize memx, before cell = 0) (call : HeapCall)
    (proper : heap.Proper base memx call)
    (stepped : (heapCalls base memx).step heap call = some after) : Used memx before after.usage := by
  cases call with
  | mymalloc size => exact used.mymalloc size stepped
  | myfree ptr =>
      obtain rfl := Option.some.inj stepped
      exact used.myfree zero proper
  | myrealloc ptr size => exact used.myrealloc ptr size stepped
  | store address value =>
      obtain rfl := Option.some.inj stepped
      exact used

end Used

/-- In each run of proper calls from a fresh pool, the blocks that are handed out tile the map. -/
theorem heap_used {base : Membase} {memx : Memx} {start heap : Heap} (fresh : Fresh memx start.usage)
    (reached : (heapCalls base memx).Reaches (Heap.Proper base memx) start heap) :
    Used memx (start.bank.initialised memx).memmap heap.usage := by
  let fact : Heap → Prop := fun heap => Used memx (start.bank.initialised memx).memmap heap.usage
  have base : fact start := Used.start fresh
  exact reached.invariant base fun _ call _ used proper stepped =>
    used.heapStep fresh.initialised_zero call proper stepped

end NnpCamera.Allocator
