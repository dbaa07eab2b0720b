/-
This file shows that `my_mem_malloc` and `my_mem_free` keep the blocks of a pool separate in each
run.
-/

import NnpCamera.Allocator.Bank
import NnpCamera.Library.Runs

namespace NnpCamera.Allocator
open Library

/-- A block that was handed out, with the size that was asked for. -/
structure Handed where
  offset : UInt32
  size : UInt32
  deriving DecidableEq, Repr

/-- A pool with the blocks that are handed out and not yet freed. -/
structure Usage where
  bank : Bank
  live : List Handed

/-- A caller asks for some bytes or gives a block back. -/
inductive BankCall where
  | malloc (size : UInt32)
  | free (offset : UInt32)
  deriving DecidableEq, Repr

/-- Each freed offset belongs to a block that is handed out. -/
def bankCalls (memx : Memx) : System Usage BankCall where
  step usage call :=
    match call with
    | .malloc size =>
        let (offset, bank) := myMemMalloc memx usage.bank size
        some ⟨bank, if offset = 0xFFFFFFFF then usage.live else ⟨offset, size⟩ :: usage.live⟩
    | .free offset =>
        if offset ∈ usage.live.map Handed.offset then
          some ⟨(myMemFree memx usage.bank offset).2,
            usage.live.eraseP fun handed => handed.offset = offset⟩
        else none

/-- No block is handed out, and the map is all zero or not initialised yet. -/
structure Fresh (memx : Memx) (usage : Usage) : Prop where
  live : usage.live = []
  zero : usage.bank.memrdy = true → ∀ cell < tableSize memx, usage.bank.memmap cell = 0

/-- The entries of the block at an offset, as the map stores them. -/
def Bank.blockAt (memx : Memx) (bank : Bank) (offset : UInt32) : Extent :=
  let index := (offset / memblksize memx).toNat
  ⟨index, (bank.memmap index).toNat⟩

/-- The bytes of the block at an offset. -/
def Bank.bytesAt (memx : Memx) (bank : Bank) (offset : UInt32) : Set Nat :=
  Set.Ico offset.toNat
    (offset.toNat + (bank.blockAt memx offset).count * (memblksize memx).toNat)

/-- The blocks that cover a number of bytes. -/
def blocksFor (memx : Memx) (size : UInt32) : Nat :=
  (size.toNat + ((memblksize memx).toNat - 1)) / (memblksize memx).toNat

/-- What the allocator guarantees about the blocks in use and about its next call. A call of a pool
that is not ready starts from the initialised map. -/
structure AllocatorLaw (memx : Memx) (usage : Usage) : Prop where
  apart : usage.live.Pairwise fun one other =>
    Disjoint (usage.bank.bytesAt memx one.offset) (usage.bank.bytesAt memx other.offset)
  inside : ∀ handed ∈ usage.live,
    usage.bank.bytesAt memx handed.offset ⊆ Set.Iio (memsize memx).toNat
  aligned : ∀ handed ∈ usage.live, handed.offset % memblksize memx = 0
  enough : ∀ handed ∈ usage.live, 0 < handed.size.toNat ∧ handed.size.toNat ≤
    (usage.bank.blockAt memx handed.offset).count * (memblksize memx).toNat
  fails : ∀ size, (myMemMalloc memx usage.bank size).1 = 0xFFFFFFFF ↔
    size = 0 ∨ Starts ((usage.bank.initialised memx).free memx) (blocksFor memx size) = ∅
  unchanged : ∀ size, (myMemMalloc memx usage.bank size).1 = 0xFFFFFFFF →
    (myMemMalloc memx usage.bank size).2 = usage.bank.initialised memx
  clears : ∀ handed ∈ usage.live, myMemFree memx usage.bank handed.offset =
    (0, usage.bank.cleared (usage.bank.blockAt memx handed.offset))
  identity : ∀ size, (myMemMalloc memx usage.bank size).1 ≠ 0xFFFFFFFF →
    myMemFree memx (myMemMalloc memx usage.bank size).2 (myMemMalloc memx usage.bank size).1 =
      (0, usage.bank.initialised memx)
  drained : usage.live = [] →
    ∀ cell < tableSize memx, (usage.bank.initialised memx).memmap cell = 0

/-- The entries that a block takes. -/
def Handed.extent (memx : Memx) (handed : Handed) : Extent :=
  ⟨(handed.offset / memblksize memx).toNat, (nmemb memx handed.size).toNat⟩

/-- The blocks in use tile the map over the entries that were there before. -/
structure Used (memx : Memx) (before : Memory UInt32) (usage : Usage) : Prop where
  tiles : (usage.bank.initialised memx).Tiles memx before (usage.live.map (Handed.extent memx))
  offsets : ∀ handed ∈ usage.live, handed.offset = offsetOf (some (handed.extent memx))
  ready : usage.live ≠ [] → usage.bank.memrdy = true

section Requests
variable (memx : Memx) (bank : Bank) (size : UInt32)

theorem blocksFor_eq : blocksFor memx size = (nmemb memx size).toNat := by
  rw [nmemb_toNat, blocksFor, memblksize_eq]
  rfl

/-- The two ends of a request: no place for it, or the topmost place. -/
theorem myMemMalloc_cases :
    (myMemMalloc memx bank size = (0xFFFFFFFF, bank.initialised memx) ∧
        (size = 0 ∨ Starts ((bank.initialised memx).free memx) (nmemb memx size).toNat = ∅)) ∨
      ∃ extent : Extent, extent.count = (nmemb memx size).toNat ∧ 0 < extent.count ∧ size ≠ 0 ∧
        Topmost ((bank.initialised memx).free memx) extent.count extent.first ∧
        myMemMalloc memx bank size =
          (offsetOf (some extent), (bank.initialised memx).grant (some extent)) := by
  have ready := bank.initialised_ready memx
  by_cases asked : size = 0
  · refine .inl ⟨?_, .inl asked⟩
    rw [← myMemMalloc_initialised, asked, myMemMalloc_zero ready]
    rfl
  · obtain ⟨found, placed, result⟩ := myMemMalloc_placed memx ready asked
    rw [myMemMalloc_initialised] at result
    cases placed with
    | @fits _ _ _ first _ _ top _ =>
        exact .inr ⟨⟨first, (nmemb memx size).toNat⟩, rfl, nmemb_pos asked, asked, top, result⟩
    | full empty _ => exact .inl ⟨result, .inr empty⟩

/-- A request that succeeds can be taken back. -/
theorem myMemFree_myMemMalloc (granted : (myMemMalloc memx bank size).1 ≠ 0xFFFFFFFF) :
    myMemFree memx (myMemMalloc memx bank size).2 (myMemMalloc memx bank size).1 =
      (0, bank.initialised memx) := by
  rcases myMemMalloc_cases memx bank size with
    ⟨result, _⟩ | ⟨extent, _, positive, _, top, result⟩
  · rw [result] at granted
    contradiction
  · have ready := bank.initialised_ready memx
    have tiles := (Tiling.start mark (tableSize memx) (bank.initialised memx).memmap).allocate
      (by simp) positive top.1
    have freed : myMemFree memx ((bank.initialised memx).grant (some extent))
        (offsetOf (some extent)) = (0, _) := myMemFree_live ready tiles
    rw [result, freed]
    exact Prod.ext rfl (congrArg (Bank.mk · _) tiles.release.eq_base)

end Requests

namespace Used
variable {memx : Memx} {before : Memory UInt32} {usage after : Usage} {handed : Handed}

/-- Nothing is in use at the start. -/
theorem start (fresh : Fresh memx usage) : Used memx (usage.bank.initialised memx).memmap usage where
  tiles := by
    rw [fresh.live]
    exact Tiling.start _ _ _
  offsets := by
    rw [fresh.live]
    simp
  ready used := absurd fresh.live used

/-- A pool with a block in use is ready. -/
theorem initialised_eq (used : Used memx before usage) (found : handed ∈ usage.live) :
    usage.bank.initialised memx = usage.bank :=
  Bank.initialised_of_ready (used.ready (List.ne_nil_of_mem found))

theorem extent_inside (used : Used memx before usage) (found : handed ∈ usage.live) :
    0 < (handed.extent memx).count ∧
      (handed.extent memx).first + (handed.extent memx).count ≤ tableSize memx := by
  obtain ⟨positive, free⟩ := used.tiles.inside _ (List.mem_map_of_mem found)
  exact ⟨positive, Allocator.extent_inside positive free⟩

/-- The map stores the block that was handed out. -/
theorem blockAt_eq (used : Used memx before usage) (found : handed ∈ usage.live) :
    usage.bank.blockAt memx handed.offset = handed.extent memx := by
  obtain ⟨positive, inside⟩ := used.extent_inside found
  have first : (handed.extent memx).first ∈ (handed.extent memx).cells :=
    Extent.mem_cells.mpr ⟨Nat.le_refl _, by omega⟩
  have entry := used.tiles.marked _ (List.mem_map_of_mem found) _ first
  rw [used.initialised_eq found] at entry
  have value := mark_toNat inside
  rw [← entry] at value
  exact congrArg (Extent.mk _) value

/-- A byte of a block lies in one of its entries. -/
theorem mem_bytesAt (used : Used memx before usage) (found : handed ∈ usage.live) {byte : Nat} :
    byte ∈ usage.bank.bytesAt memx handed.offset ↔ byte / 64 ∈ (handed.extent memx).cells := by
  obtain ⟨_, inside⟩ := used.extent_inside found
  have offset := offsetOf_toNat inside
  rw [← used.offsets handed found] at offset
  rw [Bank.bytesAt, used.blockAt_eq found, memblksize_eq, Set.mem_Ico, offset, Extent.mem_cells]
  change 64 * _ ≤ byte ∧ byte < 64 * _ + _ * 64 ↔ _
  omega

/-- The initialised pool is used as before. -/
theorem initialise (used : Used memx before usage) :
    Used memx before ⟨usage.bank.initialised memx, usage.live⟩ where
  tiles := by
    rw [Bank.initialised_of_ready (usage.bank.initialised_ready memx)]
    exact used.tiles
  offsets := used.offsets
  ready _ := usage.bank.initialised_ready memx

/-- A request adds the block that it found. -/
theorem grant (used : Used memx before usage) {size : UInt32} {extent : Extent}
    (length : extent.count = (nmemb memx size).toNat) (positive : 0 < extent.count)
    (top : Topmost ((usage.bank.initialised memx).free memx) extent.count extent.first) :
    Used memx before ⟨(usage.bank.initialised memx).grant (some extent),
      ⟨offsetOf (some extent), size⟩ :: usage.live⟩ := by
  have inside := Allocator.extent_inside positive top.1
  have granted : ((usage.bank.initialised memx).grant (some extent)).memrdy = true :=
    usage.bank.initialised_ready memx
  have place : Handed.extent memx ⟨offsetOf (some extent), size⟩ = extent := by
    rw [Handed.extent, offsetOf_index inside, ← length]
  exact {
    tiles := by
      rw [Bank.initialised_of_ready granted, List.map_cons, place]
      exact used.tiles.allocate (tiles_marks used.tiles) positive top.1
    offsets := by
      intro handed found
      rcases List.mem_cons.mp found with rfl | found
      · rw [place]
      · exact used.offsets handed found
    ready := fun _ => granted }

/-- A request that finds a place adds its block. -/
theorem malloc (used : Used memx before usage) (size : UInt32)
    (stepped : (bankCalls memx).step usage (.malloc size) = some after) :
    Used memx before after := by
  rcases myMemMalloc_cases memx usage.bank size with
    ⟨result, _⟩ | ⟨extent, length, positive, _, top, result⟩
  · simp only [bankCalls, result, if_true] at stepped
    obtain rfl := Option.some.inj stepped
    exact used.initialise
  · have inside := Allocator.extent_inside positive top.1
    simp only [bankCalls, result, if_neg (offsetOf_ne inside)] at stepped
    obtain rfl := Option.some.inj stepped
    exact used.grant length positive top

/-- The free of a block clears exactly its entries. -/
theorem myMemFree_eq (used : Used memx before usage) (found : handed ∈ usage.live) :
    myMemFree memx usage.bank handed.offset =
      (0, usage.bank.cleared (handed.extent memx)) := by
  have tiles := used.tiles
  rw [used.initialised_eq found] at tiles
  have same : (usage.live.map (Handed.extent memx)).Perm
      (handed.extent memx :: (usage.live.erase handed).map (Handed.extent memx)) :=
    (List.perm_cons_erase found).map _
  rw [used.offsets handed found]
  exact myMemFree_live (used.ready (List.ne_nil_of_mem found)) (tiles.perm same)

/-- A block that is cleared leaves the others as they are. -/
theorem clear (used : Used memx before usage) (found : handed ∈ usage.live) {rest : List Handed}
    (split : usage.live.Perm (handed :: rest)) :
    Used memx before ⟨usage.bank.cleared (handed.extent memx), rest⟩ := by
  have ready : (usage.bank.cleared (handed.extent memx)).memrdy = true :=
    used.ready (List.ne_nil_of_mem found)
  have tiles := used.tiles
  rw [used.initialised_eq found] at tiles
  exact {
    tiles := by
      rw [Bank.initialised_of_ready ready]
      exact (tiles.perm (split.map (Handed.extent memx))).release
    offsets := fun other left =>
      used.offsets other (split.mem_iff.mpr (List.mem_cons_of_mem _ left))
    ready := fun _ => ready }

/-- A block that is given back leaves the others as they are. -/
theorem free (used : Used memx before usage) (offset : UInt32)
    (stepped : (bankCalls memx).step usage (.free offset) = some after) :
    Used memx before after := by
  simp only [bankCalls] at stepped
  split at stepped
  next known =>
    obtain rfl := Option.some.inj stepped
    obtain ⟨given, inside, rfl⟩ := List.mem_map.mp known
    obtain ⟨handed, one, two, _, same, parts, rest⟩ :=
      List.exists_of_eraseP (p := fun handed => handed.offset = given.offset) inside (by simp)
    have found : handed ∈ usage.live := by simp [parts]
    obtain same : handed.offset = given.offset := of_decide_eq_true same
    rw [rest, ← same, used.myMemFree_eq found]
    exact used.clear found (parts ▸ List.perm_middle)
  next => contradiction

/-- Each call keeps the tiling. -/
theorem step (used : Used memx before usage) (call : BankCall)
    (stepped : (bankCalls memx).step usage call = some after) : Used memx before after := by
  cases call with
  | malloc size => exact used.malloc size stepped
  | free offset => exact used.free offset stepped

/-- Blocks in different entries share no byte. -/
theorem apart (used : Used memx before usage) : usage.live.Pairwise fun one other =>
    Disjoint (usage.bank.bytesAt memx one.offset) (usage.bank.bytesAt memx other.offset) := by
  refine (List.pairwise_map.mp used.tiles.apart).imp_of_mem ?_
  intro one other first second apart
  refine Set.disjoint_left.mpr fun byte left right => ?_
  exact Set.disjoint_left.mp apart ((used.mem_bytesAt first).mp left)
    ((used.mem_bytesAt second).mp right)

/-- A block lies in the pool. -/
theorem inside (used : Used memx before usage) (found : handed ∈ usage.live) :
    usage.bank.bytesAt memx handed.offset ⊆ Set.Iio (memsize memx).toNat := by
  intro byte within
  obtain ⟨_, last⟩ := Extent.mem_cells.mp ((used.mem_bytesAt found).mp within)
  obtain ⟨_, room⟩ := used.extent_inside found
  have pool := tableSize_mul memx
  rw [Set.mem_Iio]
  omega

theorem aligned (used : Used memx before usage) (found : handed ∈ usage.live) :
    handed.offset % memblksize memx = 0 := by
  have offset := offsetOf_toNat (used.extent_inside found).2
  rw [← used.offsets handed found] at offset
  rw [memblksize_eq, ← UInt32.toNat_inj, UInt32.toNat_mod, offset]
  exact Nat.mul_mod_right _ _

/-- A block has as many bytes as were asked for. -/
theorem enough (used : Used memx before usage) (found : handed ∈ usage.live) :
    0 < handed.size.toNat ∧ handed.size.toNat ≤
      (usage.bank.blockAt memx handed.offset).count * (memblksize memx).toNat := by
  obtain ⟨positive, _⟩ := used.extent_inside found
  rw [used.blockAt_eq found, memblksize_eq]
  change 0 < (nmemb memx handed.size).toNat at positive
  change _ ∧ _ ≤ (nmemb memx handed.size).toNat * 64
  rw [nmemb_toNat] at positive ⊢
  omega

/-- The tiling gives all parts of the law. -/
theorem law (used : Used memx before usage) (zero : ∀ cell < tableSize memx, before cell = 0) :
    AllocatorLaw memx usage where
  apart := used.apart
  inside _ found := used.inside found
  aligned _ found := used.aligned found
  enough _ found := used.enough found
  fails size := by
    rw [blocksFor_eq]
    rcases myMemMalloc_cases memx usage.bank size with
      ⟨result, full⟩ | ⟨extent, length, positive, asked, top, result⟩
    · rw [result]
      exact iff_of_true rfl full
    · rw [result]
      refine iff_of_false (offsetOf_ne (Allocator.extent_inside positive top.1)) ?_
      rintro (none | full)
      · exact asked none
      · rw [← length] at full
        exact Set.notMem_empty _ (full ▸ top.1)
  unchanged size failed := by
    rcases myMemMalloc_cases memx usage.bank size with
      ⟨result, _⟩ | ⟨extent, _, positive, _, top, result⟩
    · rw [result]
    · rw [result] at failed
      exact absurd failed (offsetOf_ne (Allocator.extent_inside positive top.1))
  clears handed found := by
    rw [used.blockAt_eq found]
    exact used.myMemFree_eq found
  identity := myMemFree_myMemMalloc memx usage.bank
  drained none cell inside := by
    have tiles := used.tiles
    rw [none] at tiles
    rw [tiles.eq_base]
    exact zero cell inside

end Used

/-- The initialised map of a fresh pool is all zero. -/
theorem Fresh.initialised_zero {memx : Memx} {usage : Usage} (fresh : Fresh memx usage) :
    ∀ cell < tableSize memx, (usage.bank.initialised memx).memmap cell = 0 := by
  intro cell inside
  unfold Bank.initialised
  split
  next ready => exact fresh.zero ready cell inside
  next =>
    simp only [myMemInit, Memory.fill_apply]
    exact if_pos (Extent.mem_run.mpr ⟨Nat.zero_le _, by omega⟩)

/-- The allocator is correct in every run from a fresh pool. -/
theorem allocator_correct {memx : Memx} {start usage : Usage} (fresh : Fresh memx start)
    (reached : (bankCalls memx).Reachable start usage) : AllocatorLaw memx usage := by
  have used : Used memx (start.bank.initialised memx).memmap usage :=
    reached.invariant (Used.start fresh) fun _ call _ used _ stepped => used.step call stepped
  exact used.law fresh.initialised_zero

/-- After reset the map holds any values, and the first request clears it. -/
theorem allocator_correct_reset :
    ∃ usage, (bankCalls .sramdtcm).Reachable ⟨⟨fun _ => 7, false⟩, []⟩ usage ∧
      usage.live = [⟨61376, 64⟩, ⟨61248, 1⟩] ∧ AllocatorLaw .sramdtcm usage := by
  have fresh : Fresh .sramdtcm ⟨⟨fun _ => 7, false⟩, []⟩ := ⟨rfl, by simp⟩
  have passed : ((bankCalls .sramdtcm).run ⟨⟨fun _ => 7, false⟩, []⟩
      [.malloc 65, .malloc 1, .free 61312, .malloc 64]).any
        (fun usage => decide (usage.live = [⟨61376, 64⟩, ⟨61248, 1⟩])) = true := by
    decide +kernel
  obtain ⟨usage, ran, live⟩ := (Option.any_eq_true _ _).mp passed
  have reached := System.run_reachable _ _ _ ran
  exact ⟨usage, reached, of_decide_eq_true live, allocator_correct fresh reached⟩

end NnpCamera.Allocator
