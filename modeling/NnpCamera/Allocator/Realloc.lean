/-
This file shows that `myrealloc` keeps the contents of the blocks, and that its copy reads behind the
old block exactly when the new size is larger.
-/

import NnpCamera.Allocator.Heap

namespace NnpCamera.Allocator
open Library

section Copies
variable {base : Membase} {memx : Memx}

/-- The loop of `mymemcpy` moves bytes and notes the addresses that it reads. -/
theorem mymemcpy_eq (des src n : UInt32) (space : Space) :
    mymemcpy des src n space = {
      bytes := Memory.move (fun index => des + .ofNat index) (fun index => src + .ofNat index)
        space.bytes n.toNat
      reads := space.reads ++ (List.range n.toNat).map fun index => src + .ofNat index } := by
  refine loop_invariant (fun count (state : Space) => state = {
    bytes := Memory.move (fun index => des + .ofNat index) (fun index => src + .ofNat index)
      space.bytes count
    reads := space.reads ++ (List.range count).map fun index => src + .ofNat index }) n.toNat ?_ ?_
  · simp [Memory.move]
  · rintro index state _ rfl
    simp [Memory.move, List.range_succ]

/-- An address some bytes behind a block. -/
theorem membase_add (offset : UInt32) (index : Nat) :
    base.membase memx + offset + .ofNat index = base.byte memx (offset.toNat + index) := by
  rw [Membase.byte, UInt32.ofNat_add, UInt32.ofNat_toNat, UInt32.add_assoc]

/-- A pool is much smaller than the address space. -/
theorem memsize_lt (memx : Memx) : (memsize memx).toNat < 4294967296 / 2 := by
  cases memx <;> decide

/-- The bytes of an extent that was asked for with this size. -/
theorem extent_bytes {extent : Extent} {size : UInt32}
    (length : extent.count = (nmemb memx size).toNat) :
    size.toNat ≤ 64 * extent.count := by
  rw [length, nmemb_toNat]
  omega

/-- A copy to an extent leaves each byte outside it. -/
theorem mymemcpy_outside {extent : Extent} {src size : UInt32}
    (inside : extent.first + extent.count ≤ tableSize memx) (room : size.toNat ≤ 64 * extent.count)
    (space : Space) {byte : Nat} (small : byte < 4294967296)
    (outside : byte / 64 ∉ extent.cells) :
    (mymemcpy (base.membase memx + offsetOf (some extent)) src size space).bytes
      (base.byte memx byte) = space.bytes (base.byte memx byte) := by
  rw [mymemcpy_eq]
  apply Memory.move_outside
  intro index before same
  have pool := tableSize_mul memx
  have bound := memsize_lt memx
  rw [membase_add, offsetOf_toNat inside] at same
  have place := byte_inj small (by omega) same
  exact outside (Extent.mem_cells.mpr ⟨by omega, by omega⟩)

/-- A byte of another extent arrives in the extent of the copy. -/
theorem mymemcpy_inside {extent : Extent} {offset size : UInt32}
    (inside : extent.first + extent.count ≤ tableSize memx) (room : size.toNat ≤ 64 * extent.count)
    (space : Space) {byte : Nat} (copied : byte < size.toNat)
    (small : offset.toNat + byte < 4294967296)
    (other : (offset.toNat + byte) / 64 ∉ extent.cells) :
    (mymemcpy (base.membase memx + offsetOf (some extent)) (base.membase memx + offset) size
      space).bytes (base.byte memx (64 * extent.first + byte)) =
        space.bytes (base.byte memx (offset.toNat + byte)) := by
  have pool := tableSize_mul memx
  have bound := memsize_lt memx
  have target (index : Nat) : base.membase memx + offsetOf (some extent) + .ofNat index =
      base.byte memx (64 * extent.first + index) := by
    rw [membase_add, offsetOf_toNat inside]
  rw [mymemcpy_eq, ← target, ← membase_add]
  apply Memory.move_inside (fun index => base.membase memx + offsetOf (some extent) + .ofNat index)
    (fun index => base.membase memx + offset + .ofNat index) _ copied
  · intro index before same
    rw [target, membase_add] at same
    have place := byte_inj small (by omega) same
    exact other (Extent.mem_cells.mpr ⟨by omega, by omega⟩)
  · intro index before later same
    rw [target, target] at same
    have place := byte_inj (by omega) (by omega) same
    omega

end Copies

/-- The number of bytes that a block takes. -/
def Bank.sizeAt (memx : Memx) (bank : Bank) (offset : UInt32) : Nat :=
  (bank.blockAt memx offset).count * (memblksize memx).toNat

/-- A reallocation that succeeds gives the new block the contents of the old one, and releases the old
one once. The other blocks `rest` keep their entries and their bytes. -/
structure Reallocated (base : Membase) (memx : Memx) (heap after : Heap) (old new : Handed)
    (rest : List Handed) : Prop where
  before : heap.live.Perm (old :: rest)
  live : after.live = new :: rest
  enough : new.size.toNat ≤ after.bank.sizeAt memx new.offset
  contents : ∀ byte < min (heap.bank.sizeAt memx old.offset) new.size.toNat,
    after.bytes (base.byte memx (new.offset.toNat + byte)) =
      heap.bytes (base.byte memx (old.offset.toNat + byte))
  released : ∀ entry ∈ (heap.bank.blockAt memx old.offset).cells, after.bank.memmap entry = 0
  taken : (after.bank.blockAt memx new.offset).cells ⊆ heap.bank.free memx
  map : ∀ entry, entry ∉ (heap.bank.blockAt memx old.offset).cells →
    entry ∉ (after.bank.blockAt memx new.offset).cells →
      after.bank.memmap entry = heap.bank.memmap entry
  entries : ∀ other ∈ rest, ∀ entry ∈ (heap.bank.blockAt memx other.offset).cells,
    after.bank.memmap entry = heap.bank.memmap entry
  bytes : ∀ other ∈ rest, ∀ byte ∈ heap.bank.bytesAt memx other.offset,
    after.bytes (base.byte memx byte) = heap.bytes (base.byte memx byte)

/-- A reallocation that fails changes nothing, and the old block stays in use. -/
structure ReallocLaw (base : Membase) (memx : Memx) (heap after : Heap) (old : Handed)
    (size : UInt32) (new : UInt32) : Prop where
  fails : new = 0 → after = heap
  succeeds : new ≠ 0 → ∃ rest,
    Reallocated base memx heap after old ⟨new - base.membase memx, size⟩ rest

namespace Used
variable {base : Membase} {memx : Memx} {before : Memory UInt32} {usage : Usage} {handed : Handed}

/-- Two blocks with a common entry are the same block. -/
theorem handed_eq (used : Used memx before usage) {other : Handed} (first : handed ∈ usage.live)
    (second : other ∈ usage.live) {entry : Nat} (one : entry ∈ (handed.extent memx).cells)
    (two : entry ∈ (other.extent memx).cells) : handed = other := by
  by_contra different
  have : Std.Symm fun one two : Handed => Extent.Apart (one.extent memx) (two.extent memx) :=
    ⟨fun _ _ apart => Extent.Apart.symm apart⟩
  have apart := (List.pairwise_map.mp used.tiles.apart).forall first second different
  exact Set.disjoint_left.mp apart one two

/-- The block of a pointer leaves the list once. -/
theorem released_perm (used : Used memx before usage) (found : handed ∈ usage.live) :
    usage.live.Perm (handed :: released memx handed.offset usage.live) := by
  obtain ⟨given, _, _, _, equal, parts, rest⟩ := List.exists_of_eraseP
    (p := fun other => other.offset / memblksize memx = handed.offset / memblksize memx) found
    (by simp)
  have present : given ∈ usage.live := by simp [parts]
  have place : (given.extent memx).first = (handed.extent memx).first :=
    congrArg UInt32.toNat (of_decide_eq_true equal)
  have positive := (used.extent_inside found).1
  have same := (used.extent_inside present).1
  have one : (handed.extent memx).first ∈ (given.extent memx).cells :=
    Extent.mem_cells.mpr ⟨by omega, by omega⟩
  have two : (handed.extent memx).first ∈ (handed.extent memx).cells :=
    Extent.mem_cells.mpr ⟨by omega, by omega⟩
  obtain rfl := used.handed_eq present found one two
  rw [released, rest, parts]
  exact List.perm_middle

/-- A grant and a release write the entries of their blocks. -/
theorem grant_cleared (bank : Bank) (given old : Extent) (entry : Nat) :
    ((bank.grant (some given)).cleared old).memmap entry =
      if entry ∈ old.cells then 0
      else if entry ∈ given.cells then mark given else bank.memmap entry := by
  simp only [Bank.cleared, Bank.grant, Memory.fill_apply]

/-- The extents of a new block, of an old one and of the others have no common entry. -/
theorem granted_apart {bank : Bank} {new old : Handed} {live rest : List Handed}
    (granted : Used memx before ⟨bank, new :: live⟩) (perm : live.Perm (old :: rest)) :
    (new.extent memx).Apart (old.extent memx) ∧ ∀ other ∈ rest,
      (new.extent memx).Apart (other.extent memx) ∧
        (old.extent memx).Apart (other.extent memx) := by
  have apart := (granted.tiles.perm ((perm.cons new).map (Handed.extent memx))).apart
  simp only [List.map_cons, List.pairwise_cons, List.forall_mem_cons] at apart
  obtain ⟨⟨newOld, newOthers⟩, oldOthers, _⟩ := apart
  exact ⟨newOld, fun other listed => ⟨newOthers _ (List.mem_map_of_mem listed),
    oldOthers _ (List.mem_map_of_mem listed)⟩⟩

/-- The place for the new block is free, so the copy and the release leave the other blocks. -/
theorem reallocated {heap : Heap} {old : Handed} {size : UInt32} {extent : Extent}
    (used : Used memx before heap.usage) (found : old ∈ heap.live)
    (length : extent.count = (nmemb memx size).toNat) (asked : size ≠ 0)
    (top : Topmost (heap.bank.free memx) extent.count extent.first)
    (granted : Used memx before
      ⟨heap.bank.grant (some extent), ⟨offsetOf (some extent), size⟩ :: heap.live⟩)
    (left : Used memx before ⟨(heap.bank.grant (some extent)).cleared (old.extent memx),
      ⟨offsetOf (some extent), size⟩ :: released memx old.offset heap.live⟩) :
    Reallocated base memx heap
      ⟨(heap.bank.grant (some extent)).cleared (old.extent memx),
        (mymemcpy (base.membase memx + offsetOf (some extent)) (base.membase memx + old.offset) size
          ⟨heap.bytes, []⟩).bytes,
        ⟨offsetOf (some extent), size⟩ :: released memx old.offset heap.live⟩
      old ⟨offsetOf (some extent), size⟩ (released memx old.offset heap.live) := by
  have positive : 0 < extent.count := length ▸ nmemb_pos asked
  have inside := Allocator.extent_inside positive top.1
  have room : size.toNat ≤ 64 * extent.count := extent_bytes length
  have pool := tableSize_mul memx
  have bound := memsize_lt memx
  have perm := used.released_perm found
  have place : Handed.extent memx ⟨offsetOf (some extent), size⟩ = extent := by
    rw [Handed.extent, offsetOf_index inside, ← length]
  have oldBlock : heap.bank.blockAt memx old.offset = old.extent memx := used.blockAt_eq found
  have newBlock := left.blockAt_eq (List.mem_cons_self ..)
  rw [place] at newBlock
  obtain ⟨newOld, others⟩ := granted.granted_apart perm
  rw [place] at newOld others
  have separate {other : Handed} (listed : other ∈ released memx old.offset heap.live) {entry : Nat}
      (within : entry ∈ (other.extent memx).cells) :
      entry ∉ (old.extent memx).cells ∧ entry ∉ extent.cells :=
    ⟨fun both => Set.disjoint_left.mp (others other listed).2 both within,
      fun both => Set.disjoint_left.mp (others other listed).1 both within⟩
  have present {other : Handed} (listed : other ∈ released memx old.offset heap.live) :
      other ∈ heap.live := perm.mem_iff.mpr (List.mem_cons_of_mem _ listed)
  exact {
    before := perm
    live := rfl
    enough := by
      rw [Bank.sizeAt, newBlock, memblksize_eq, Nat.mul_comm]
      exact room
    contents := by
      intro byte less
      rw [Bank.sizeAt, oldBlock, memblksize_eq] at less
      have copied : byte < size.toNat := less.trans_le (Nat.min_le_right ..)
      have held : byte < (old.extent memx).count * 64 := less.trans_le (Nat.min_le_left ..)
      have start := used.offset_toNat found
      have last := (used.extent_inside found).2
      have source : (old.offset.toNat + byte) / 64 ∈ (old.extent memx).cells := by
        rw [Extent.mem_cells]
        omega
      show (mymemcpy _ _ _ _).bytes (base.byte memx ((offsetOf _).toNat + byte)) = _
      rw [offsetOf_toNat inside]
      exact mymemcpy_inside inside room _ copied (by omega)
        fun both => Set.disjoint_left.mp newOld both source
    released := by
      intro entry within
      exact (grant_cleared ..).trans (if_pos (oldBlock ▸ within))
    taken := by
      rw [newBlock]
      exact top.1
    map := by
      intro entry outside other
      rw [oldBlock] at outside
      rw [newBlock] at other
      exact (grant_cleared ..).trans ((if_neg outside).trans (if_neg other))
    entries := by
      intro other listed entry within
      rw [used.blockAt_eq (present listed)] at within
      obtain ⟨outside, beside⟩ := separate listed within
      exact (grant_cleared ..).trans ((if_neg outside).trans (if_neg beside))
    bytes := by
      intro other listed byte within
      have cell := (used.mem_bytesAt (present listed)).mp within
      have small := (used.extent_inside (present listed)).2
      have high := (Extent.mem_cells.mp cell).2
      exact mymemcpy_outside inside room _ (by omega) (separate listed cell).2 }

end Used

/-- `myrealloc` preserves the contents of the old block and all other blocks. -/
theorem myrealloc_preserves {base : Membase} {memx : Memx} {start heap : Heap}
    (fresh : Fresh memx start.usage)
    (reached : (heapCalls base memx).Reaches (Heap.Proper base memx) start heap) {old : Handed}
    (found : old ∈ heap.live) (size : UInt32) :
    ∃ after, (heapCalls base memx).step heap
        (.myrealloc (base.membase memx + old.offset) size) = some after ∧
      ReallocLaw base memx heap after old size (myrealloc base memx heap.bank ⟨heap.bytes, []⟩
        (base.membase memx + old.offset) size).1 := by
  have used := heap_used fresh reached
  have known : base.membase memx + old.offset - base.membase memx ∈
      heap.live.map Handed.offset := by
    rw [membase_add_sub]
    exact List.mem_map_of_mem found
  simp only [heapCalls, if_pos known]
  rcases used.myrealloc_cases base found ⟨heap.bytes, []⟩ size with
    ⟨result, _⟩ | ⟨extent, length, asked, top, result, granted, left⟩
  · refine ⟨_, rfl, ?_, ?_⟩
    · intro _
      simp only [result, if_true]
    · rw [result]
      exact fun granted => absurd rfl granted
  · have positive : 0 < extent.count := length ▸ nmemb_pos asked
    have inside := extent_inside positive top.1
    have nonzero : base.pointer memx (some extent) ≠ 0 := pointer_ne positive inside
    refine ⟨_, rfl, ?_, ?_⟩
    · rw [result]
      exact fun null => absurd null nonzero
    · intro _
      refine ⟨released memx old.offset heap.live, ?_⟩
      simp only [result, if_neg nonzero]
      rw [Membase.pointer, membase_add_sub, membase_add_sub]
      exact used.reallocated found length asked top granted left

/-- After reset no block of the DTCM is handed out. -/
def dtcmReset : Heap := ⟨⟨fun _ => 7, false⟩, fun _ => 0, []⟩

theorem dtcmReset_fresh : Fresh .sramdtcm dtcmReset.usage := ⟨rfl, by simp [dtcmReset]⟩

/-- Two requests take the three last entries of the DTCM. -/
theorem dtcm_reached : ∃ heap,
    (heapCalls mallcoDev .sramdtcm).Reaches (Heap.Proper mallcoDev .sramdtcm) dtcmReset heap ∧
      heap.live = [⟨61248, 65⟩, ⟨61376, 1⟩] := by
  have passed : (((heapCalls mallcoDev .sramdtcm).guarded (Heap.Proper mallcoDev .sramdtcm)).run
      dtcmReset [.mymalloc 1, .store 0x2000EFC0 5, .mymalloc 65]).any
        (fun heap => decide (heap.live = [⟨61248, 65⟩, ⟨61376, 1⟩])) = true := by
    decide +kernel
  obtain ⟨heap, reached, live⟩ := System.guarded_check _ _ _ _ _ passed
  exact ⟨heap, reached, of_decide_eq_true live⟩

/-- A block of the DTCM grows. -/
theorem myrealloc_preserves_dtcm :
    ∃ heap after, ⟨61248, 65⟩ ∈ heap.live ∧
      (heapCalls mallcoDev .sramdtcm).step heap
        (.myrealloc (mallcoDev.membase .sramdtcm + 61248) 200) = some after ∧
      ReallocLaw mallcoDev .sramdtcm heap after ⟨61248, 65⟩ 200 (myrealloc mallcoDev .sramdtcm
        heap.bank ⟨heap.bytes, []⟩ (mallcoDev.membase .sramdtcm + 61248) 200).1 := by
  obtain ⟨heap, reached, live⟩ := dtcm_reached
  have found : (⟨61248, 65⟩ : Handed) ∈ heap.live := by simp [live]
  obtain ⟨after, stepped, law⟩ := myrealloc_preserves dtcmReset_fresh reached found 200
  exact ⟨heap, after, found, stepped, law⟩

/-- The copy of a reallocation reads only bytes of the old block. -/
def ReadsOld (base : Membase) (memx : Memx) (heap : Heap) (old : Handed) (size : UInt32) : Prop :=
  ∀ address ∈ (myrealloc base memx heap.bank ⟨heap.bytes, []⟩ (base.membase memx + old.offset)
      size).2.2.reads,
    (address - base.membase memx).toNat ∈ heap.bank.bytesAt memx old.offset

/-- A reallocation that finds a place reads as many bytes as it was asked for. -/
theorem Used.reads_iff {base : Membase} {memx : Memx} {before : Memory UInt32} {heap : Heap}
    {old : Handed} (used : Used memx before heap.usage) (found : old ∈ heap.live) (size : UInt32) :
    ReadsOld base memx heap old size ↔
      Starts (heap.bank.free memx) (blocksFor memx size) = ∅ ∨
        size.toNat ≤ heap.bank.sizeAt memx old.offset := by
  have start := used.offset_toNat found
  have last := (used.extent_inside found).2
  have pool := tableSize_mul memx
  have bound := memsize_lt memx
  rw [blocksFor_eq, ReadsOld]
  rcases used.myrealloc_cases base found ⟨heap.bytes, []⟩ size with
    ⟨result, full⟩ | ⟨extent, length, asked, top, result, _, _⟩
  · rw [result]
    refine iff_of_true (by simp) (full.symm.imp_right ?_)
    rintro rfl
    exact Nat.zero_le _
  · have room : Starts (heap.bank.free memx) (nmemb memx size).toNat ≠ ∅ := by
      intro empty
      rw [length, Topmost, empty] at top
      exact Set.notMem_empty _ top.1
    have positive : 0 < extent.count := length ▸ nmemb_pos asked
    have inside : extent.first + extent.count ≤ tableSize memx :=
      Allocator.extent_inside positive top.1
    have bytes := extent_bytes length
    have held : heap.bank.sizeAt memx old.offset = (old.extent memx).count * 64 := by
      rw [Bank.sizeAt, used.blockAt_eq found, memblksize_eq]
      rfl
    have read (index : Nat) (less : index < size.toNat) :
        (UInt32.ofNat (old.offset.toNat + index)).toNat = old.offset.toNat + index := by
      rw [UInt32.toNat_ofNat', Nat.mod_eq_of_lt (by omega)]
    rw [result, or_iff_right room, mymemcpy_eq]
    simp only [List.nil_append, List.forall_mem_map, List.mem_range, membase_add, byte_sub]
    rw [Bank.bytesAt, ← Bank.sizeAt]
    constructor
    · -- The byte behind the old block is read when there are more bytes to copy.
      intro within
      by_contra larger
      have next : heap.bank.sizeAt memx old.offset < size.toNat := Nat.lt_of_not_le larger
      have behind := (Set.mem_Ico.mp (within _ next)).2
      rw [read _ next] at behind
      exact Nat.lt_irrefl _ behind
    · intro fits index less
      rw [read index less, Set.mem_Ico]
      omega

/-- The copy of `myrealloc` reads only the old block exactly when there is no place for the new one,
or the new size is not larger than the old block. -/
theorem myrealloc_reads {base : Membase} {memx : Memx} {start heap : Heap}
    (fresh : Fresh memx start.usage)
    (reached : (heapCalls base memx).Reaches (Heap.Proper base memx) start heap) {old : Handed}
    (found : old ∈ heap.live) (size : UInt32) :
    ReadsOld base memx heap old size ↔
      Starts (heap.bank.free memx) (blocksFor memx size) = ∅ ∨
        size.toNat ≤ heap.bank.sizeAt memx old.offset :=
  (heap_used fresh reached).reads_iff found size

/-- A block of two entries is asked for 100 bytes. -/
theorem myrealloc_reads_dtcm : ∃ heap, ⟨61248, 65⟩ ∈ heap.live ∧
    (ReadsOld mallcoDev .sramdtcm heap ⟨61248, 65⟩ 100 ↔
      Starts (heap.bank.free .sramdtcm) (blocksFor .sramdtcm 100) = ∅ ∨
        UInt32.toNat 100 ≤ heap.bank.sizeAt .sramdtcm 61248) := by
  obtain ⟨heap, reached, live⟩ := dtcm_reached
  have found : (⟨61248, 65⟩ : Handed) ∈ heap.live := by simp [live]
  exact ⟨heap, found, myrealloc_reads dtcmReset_fresh reached found 100⟩

/-- The topmost block of the DTCM has 64 bytes. A reallocation to 128 bytes reads behind the pool. -/
theorem myrealloc_readsBeyond : ∃ heap,
    (heapCalls mallcoDev .sramdtcm).Reaches (Heap.Proper mallcoDev .sramdtcm) dtcmReset heap ∧
      heap.live = [⟨61376, 64⟩] ∧
      ¬ ReadsOld mallcoDev .sramdtcm heap ⟨61376, 64⟩ 128 ∧
      ∃ address ∈ (myrealloc mallcoDev .sramdtcm heap.bank ⟨heap.bytes, []⟩
          (mallcoDev.membase .sramdtcm + 61376) 128).2.2.reads,
        memsize .sramdtcm ≤ address - mallcoDev.membase .sramdtcm := by
  have passed : (((heapCalls mallcoDev .sramdtcm).guarded (Heap.Proper mallcoDev .sramdtcm)).run
      dtcmReset [.mymalloc 64]).any (fun heap => decide (heap.live = [⟨61376, 64⟩] ∧
        ∃ address ∈ (myrealloc mallcoDev .sramdtcm heap.bank ⟨heap.bytes, []⟩
          (mallcoDev.membase .sramdtcm + 61376) 128).2.2.reads,
          memsize .sramdtcm ≤ address - mallcoDev.membase .sramdtcm)) = true := by
    decide +kernel
  obtain ⟨heap, reached, checked⟩ := System.guarded_check _ _ _ _ _ passed
  obtain ⟨live, address, read, behind⟩ := of_decide_eq_true checked
  refine ⟨heap, reached, live, fun within => ?_, address, read, behind⟩
  have used := heap_used dtcmReset_fresh reached
  have found : (⟨61376, 64⟩ : Handed) ∈ heap.live := by simp [live]
  have byte := used.inside found (within address read)
  have outside := UInt32.le_iff_toNat_le.mp behind
  exact Nat.not_lt.mpr outside byte

end NnpCamera.Allocator
