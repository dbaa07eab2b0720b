/-
This file models `netmem_malloc` and shows when it hands out all of its buffers or none.
-/

import NnpCamera.Allocator.Bank
import NnpCamera.Capture.Handlers
import NnpCamera.Fifo.LineFifo

namespace NnpCamera.Allocator
open Library
open Capture (netcamLineSize)
open Fifo (netsendFifoNum netrecvFifoNum)

def netsendLineSize : UInt32 := 76

def netrecvLineSize : UInt32 := 76

/-- The bytes of one frame buffer. -/
def imgbufSize : UInt32 := 2592 * 240 * 4

/-- The buffers that `netmem_malloc` allocates. -/
structure NetBuffers where
  netcamLineBuf0 : UInt32
  netcamLineBuf1 : UInt32
  imgbuf2592x480x32 : List UInt32
  netsendfifobuf : List UInt32
  netrecvfifobuf : List UInt32
  netsendLineBuf : UInt32
  netrecvLineBuf : UInt32

/-- The internal pool, the SDRAM pool and the buffers. -/
structure NetMem where
  sramin : Bank
  sramex : Bank
  buffers : NetBuffers

section Calls
variable (base : Membase)

def netmemFree (mem : NetMem) : NetMem :=
  let buffers := mem.buffers
  let sramin := myfree base .sramin mem.sramin buffers.netcamLineBuf0
  let sramin := myfree base .sramin sramin buffers.netcamLineBuf1
  let sramex := myfrees base .sramex mem.sramex buffers.netsendfifobuf
  let sramex := myfrees base .sramex sramex buffers.netrecvfifobuf
  let sramex := myfree base .sramex sramex buffers.netsendLineBuf
  let sramex := myfree base .sramex sramex buffers.netrecvLineBuf
  let sramex := myfrees base .sramex sramex buffers.imgbuf2592x480x32
  ⟨sramin, sramex, buffers⟩

/-- One test covers the last slot of each FIFO, the DMA line buffers and the two line buffers. -/
def NetBuffers.missing (buffers : NetBuffers) : Prop :=
  buffers.netsendfifobuf[netsendFifoNum.toNat - 1]? = some 0 ∨ buffers.netcamLineBuf1 = 0 ∨
    buffers.netcamLineBuf0 = 0 ∨ buffers.netsendLineBuf = 0 ∨
    buffers.netrecvfifobuf[netrecvFifoNum.toNat - 1]? = some 0 ∨ buffers.netrecvLineBuf = 0

instance (buffers : NetBuffers) : Decidable buffers.missing :=
  inferInstanceAs (Decidable (_ ∨ _))

def netmemMalloc (sramin sramex : Bank) : UInt8 × NetMem :=
  let (netcamLineBuf0, sramin) := mymalloc base .sramin sramin (.ofNat (netcamLineSize * 4))
  let (netcamLineBuf1, sramin) := mymalloc base .sramin sramin (.ofNat (netcamLineSize * 4))
  let (imgbuf2592x480x32, sramex) := mymallocs base .sramex sramex (List.replicate 3 imgbufSize)
  let (netsendfifobuf, sramex) :=
    mymallocs base .sramex sramex (List.replicate netsendFifoNum.toNat netsendLineSize)
  let (netrecvfifobuf, sramex) :=
    mymallocs base .sramex sramex (List.replicate netrecvFifoNum.toNat netrecvLineSize)
  let (netsendLineBuf, sramex) := mymalloc base .sramex sramex netsendLineSize
  let (netrecvLineBuf, sramex) := mymalloc base .sramex sramex netrecvLineSize
  let mem := ⟨sramin, sramex, netcamLineBuf0, netcamLineBuf1, imgbuf2592x480x32, netsendfifobuf,
    netrecvfifobuf, netsendLineBuf, netrecvLineBuf⟩
  if mem.buffers.missing then (1, netmemFree base mem) else (0, mem)

end Calls

/-- The pointers of the slots and of the two line buffers after them. -/
def NetBuffers.slots (buffers : NetBuffers) : List UInt32 :=
  buffers.netsendfifobuf ++
    (buffers.netrecvfifobuf ++ [buffers.netsendLineBuf, buffers.netrecvLineBuf])

/-- All allocated buffers. -/
def NetBuffers.pointers (buffers : NetBuffers) : List UInt32 :=
  [buffers.netcamLineBuf0, buffers.netcamLineBuf1] ++
    (buffers.imgbuf2592x480x32 ++ buffers.slots)

/-- The call returns 0 exactly when it has all buffers. In all other cases it returns 1 and leaves
both maps as they were. -/
structure AllOrNothing (base : Membase) (sramin sramex : Bank) : Prop where
  zero : (netmemMalloc base sramin sramex).1 = 0 ↔
    0 ∉ (netmemMalloc base sramin sramex).2.buffers.pointers
  one : (netmemMalloc base sramin sramex).1 ≠ 0 → (netmemMalloc base sramin sramex).1 = 1 ∧
    (netmemMalloc base sramin sramex).2.sramin.memmap = sramin.memmap ∧
    (netmemMalloc base sramin sramex).2.sramex.memmap = sramex.memmap

/-- The bytes of the FIFO slots and of the two line buffers after them. -/
def slotSizes : List UInt32 :=
  List.replicate netsendFifoNum.toNat netsendLineSize ++
    (List.replicate netrecvFifoNum.toNat netrecvLineSize ++ [netsendLineSize, netrecvLineSize])

/-- The blocks of the DMA line buffers. -/
def lineBlocks : List Nat := List.replicate 2 256

/-- The blocks of the frame buffers. -/
def frameBlocks : List Nat := List.replicate 3 38880

/-- The blocks of the FIFO slots and of the two line buffers after them. -/
def slotBlocks : List Nat := List.replicate 122 2

section Allocation
variable {base : Membase} {sramin sramex : Bank}

theorem mymallocs_append (base : Membase) (memx : Memx) (bank : Bank) (sizes others : List UInt32) :
    mymallocs base memx bank (sizes ++ others) =
      ((mymallocs base memx bank sizes).1 ++
        (mymallocs base memx (mymallocs base memx bank sizes).2 others).1,
        (mymallocs base memx (mymallocs base memx bank sizes).2 others).2) := by
  induction sizes generalizing bank with
  | nil => rfl
  | cons size sizes ih => simp only [List.cons_append, mymallocs, ih]

/-- The clean-up frees all pointers of each pool. -/
theorem netmemFree_eq (base : Membase) (mem : NetMem) :
    (netmemFree base mem).sramin =
        myfrees base .sramin mem.sramin [mem.buffers.netcamLineBuf0, mem.buffers.netcamLineBuf1] ∧
      (netmemFree base mem).sramex = myfrees base .sramex mem.sramex
        (mem.buffers.slots ++ mem.buffers.imgbuf2592x480x32) := by
  refine ⟨rfl, ?_⟩
  simp only [netmemFree, myfrees, NetBuffers.slots, List.foldl_append, List.foldl_cons,
    List.foldl_nil]

/-- The requests follow each other in each pool. One test decides about the clean-up. -/
theorem netmemMalloc_eq (base : Membase) (sramin sramex : Bank) :
    ∃ buffers lines frames slots,
      mymallocs base .sramin sramin (List.replicate 2 (.ofNat (netcamLineSize * 4))) =
        ([buffers.netcamLineBuf0, buffers.netcamLineBuf1], lines) ∧
      mymallocs base .sramex sramex (List.replicate 3 imgbufSize) =
        (buffers.imgbuf2592x480x32, frames) ∧
      mymallocs base .sramex frames slotSizes = (buffers.slots, slots) ∧
      netmemMalloc base sramin sramex =
        if buffers.missing then (1, netmemFree base ⟨lines, slots, buffers⟩)
        else (0, ⟨lines, slots, buffers⟩) := by
  rcases line0 : mymalloc base .sramin sramin (.ofNat (netcamLineSize * 4)) with ⟨netcamLineBuf0, one⟩
  rcases line1 : mymalloc base .sramin one (.ofNat (netcamLineSize * 4)) with ⟨netcamLineBuf1, lines⟩
  rcases img : mymallocs base .sramex sramex (List.replicate 3 imgbufSize) with ⟨imgbuf, frames⟩
  rcases send : mymallocs base .sramex frames
    (List.replicate netsendFifoNum.toNat netsendLineSize) with ⟨netsendfifobuf, two⟩
  rcases recv : mymallocs base .sramex two
    (List.replicate netrecvFifoNum.toNat netrecvLineSize) with ⟨netrecvfifobuf, three⟩
  rcases sendLine : mymalloc base .sramex three netsendLineSize with ⟨netsendLineBuf, four⟩
  rcases recvLine : mymalloc base .sramex four netrecvLineSize with ⟨netrecvLineBuf, slots⟩
  refine ⟨⟨netcamLineBuf0, netcamLineBuf1, imgbuf, netsendfifobuf, netrecvfifobuf, netsendLineBuf,
    netrecvLineBuf⟩, lines, frames, slots, ?_, rfl, ?_, ?_⟩
  · simp only [List.replicate, mymallocs, line0, line1]
  · simp only [slotSizes, mymallocs_append, mymallocs, send, recv, sendLine, recvLine,
      NetBuffers.slots]
  · simp only [netmemMalloc, line0, line1, img, send, recv, sendLine, recvLine]

/-- The pointers show which requests found no place. -/
theorem zero_mem_pointers {memx : Memx} {bank : Bank} {before : Memory UInt32} {live : List Extent}
    (base : Membase) {extents : List (Option Extent)}
    (tiles : bank.Tiles memx before (extents.reduceOption ++ live)) :
    0 ∈ extents.map (base.pointer memx) ↔ none ∈ extents := by
  rw [List.mem_map]
  constructor
  · rintro ⟨found, listed, null⟩
    exact (pointer_eq_zero_iff base tiles listed).mp null ▸ listed
  · exact fun listed => ⟨none, listed, rfl⟩

/-- The last line buffer has a place only if all slots have one. -/
theorem last_slot {base : Membase} {buffers : NetBuffers} {free after : Set Nat}
    {slots : List (Option Extent)} (placed : Placed free slotBlocks slots after)
    (pointers : buffers.slots = slots.map (base.pointer .sramex))
    (found : buffers.netrecvLineBuf ≠ 0) : none ∉ slots := by
  apply placed.last_replicate
  intro ended
  have last : buffers.slots.getLast? = some buffers.netrecvLineBuf := by
    simp [NetBuffers.slots]
  rw [pointers, List.getLast?_map, ended] at last
  exact found (Option.some.inj last).symm

/-- The test finds each missing line buffer and each missing slot. -/
theorem missing_iff {base : Membase} {buffers : NetBuffers} {free after : Set Nat}
    {slots : List (Option Extent)} (placed : Placed free slotBlocks slots after)
    (pointers : buffers.slots = slots.map (base.pointer .sramex))
    (null : 0 ∈ buffers.slots ↔ none ∈ slots) :
    buffers.missing ↔ 0 ∈ [buffers.netcamLineBuf0, buffers.netcamLineBuf1] ∨ none ∈ slots := by
  have pair : 0 ∈ [buffers.netcamLineBuf0, buffers.netcamLineBuf1] ↔
      buffers.netcamLineBuf0 = 0 ∨ buffers.netcamLineBuf1 = 0 := by
    simp [eq_comm]
  rw [← null, pair]
  constructor
  · rintro (send | line | line | send | recv | recv)
    · exact .inr (List.mem_append_left _ (List.mem_of_getElem? send))
    · exact .inl (.inr line)
    · exact .inl (.inl line)
    · refine .inr (List.mem_append_right _ (List.mem_append_right _ ?_))
      simp [send]
    · exact .inr (List.mem_append_right _ (List.mem_append_left _ (List.mem_of_getElem? recv)))
    · refine .inr (List.mem_append_right _ (List.mem_append_right _ ?_))
      simp [recv]
  · rintro ((line | line) | slot)
    · exact .inr (.inr (.inl line))
    · exact .inr (.inl line)
    · by_contra passed
      have found : buffers.netrecvLineBuf ≠ 0 := fun recv =>
        passed (.inr (.inr (.inr (.inr (.inr recv)))))
      exact last_slot placed pointers found (null.mp slot)

/-- The three lists of requests and the end of the call. -/
theorem netmemMalloc_cases (base : Membase) (inReady : sramin.memrdy = true)
    (exReady : sramex.memrdy = true) :
    ∃ lines frames slots inAfter middle exAfter,
      Placed (sramin.free .sramin) lineBlocks lines inAfter ∧
      Placed (sramex.free .sramex) frameBlocks frames middle ∧
      Placed middle slotBlocks slots exAfter ∧
      (0 ∉ (netmemMalloc base sramin sramex).2.buffers.pointers ↔
        none ∉ lines ∧ none ∉ frames ∧ none ∉ slots) ∧
      (none ∉ lines ∧ none ∉ slots ∧ (netmemMalloc base sramin sramex).1 = 0 ∨
        (none ∈ lines ∨ none ∈ slots) ∧ (netmemMalloc base sramin sramex).1 = 1 ∧
          (netmemMalloc base sramin sramex).2.sramin = sramin ∧
          (netmemMalloc base sramin sramex).2.sramex = sramex) := by
  obtain ⟨buffers, inBank, exMiddle, exBank, lineCall, frameCall, slotCall, result⟩ :=
    netmemMalloc_eq base sramin sramex
  obtain ⟨lines, _, lineResults, linePlaced, inStill, lineTiles⟩ := mymallocs_placed base inReady
    (List.replicate 2 (.ofNat (netcamLineSize * 4))) (by decide) (Tiling.start mark _ sramin.memmap)
  obtain ⟨frames, _, frameResults, framePlaced, middleReady, frameTiles⟩ := mymallocs_placed base
    exReady (List.replicate 3 imgbufSize) (by decide) (Tiling.start mark _ sramex.memmap)
  rw [lineCall] at lineResults
  rw [frameCall] at frameResults
  obtain ⟨linePtrs, rfl⟩ := Prod.mk.inj lineResults
  obtain ⟨framePtrs, rfl⟩ := Prod.mk.inj frameResults
  obtain ⟨slots, _, slotResults, slotPlaced, exStill, slotTiles⟩ := mymallocs_placed base
    middleReady slotSizes (by decide) frameTiles
  rw [slotCall] at slotResults
  obtain ⟨slotPtrs, rfl⟩ := Prod.mk.inj slotResults
  have lineNull := zero_mem_pointers base lineTiles
  have frameNull := zero_mem_pointers base frameTiles
  have slotNull := zero_mem_pointers base slotTiles
  rw [← linePtrs] at lineNull
  rw [← framePtrs] at frameNull
  rw [← slotPtrs] at slotNull
  have test := missing_iff slotPlaced slotPtrs slotNull
  rw [lineNull] at test
  refine ⟨lines, frames, slots, _, _, _, linePlaced, framePlaced, slotPlaced, ?_, ?_⟩
  · have same : (netmemMalloc base sramin sramex).2.buffers = buffers := by
      rw [result]
      split
      · rfl
      · rfl
    rw [same, NetBuffers.pointers, List.mem_append, List.mem_append, not_or, not_or, lineNull,
      frameNull, slotNull]
  · rw [result]
    by_cases missing : buffers.missing
    · rw [if_pos missing]
      obtain ⟨inFreed, exFreed⟩ := netmemFree_eq base ⟨inBank, exBank, buffers⟩
      refine .inr ⟨test.mp missing, rfl, ?_, ?_⟩
      · rw [inFreed, linePtrs]
        exact myfrees_all base inReady inStill lineTiles (.refl _)
      · rw [exFreed, slotPtrs, framePtrs, ← List.map_append]
        rw [← List.append_assoc, ← List.reduceOption_append] at slotTiles
        exact myfrees_all base exReady exStill slotTiles (.refl _)
    · rw [if_neg missing]
      have found := mt test.mpr missing
      rw [not_or] at found
      exact .inl ⟨found.1, found.2, rfl⟩

end Allocation

/-- The call is all or nothing unless both DMA line buffers have a place, some frame buffer has
none, and all slots still have one. -/
theorem netmemMalloc_allOrNothing (base : Membase) {sramin sramex : Bank}
    (inReady : sramin.memrdy = true) (exReady : sramex.memrdy = true) :
    AllOrNothing base sramin sramex ↔
      ¬ (Fits (sramin.free .sramin) lineBlocks ∧ ∃ frames after,
        Placed (sramex.free .sramex) frameBlocks frames after ∧ none ∈ frames ∧
          Fits after slotBlocks) := by
  obtain ⟨lines, frames, slots, inAfter, middle, exAfter, linePlaced, framePlaced, slotPlaced,
    complete, ends⟩ := netmemMalloc_cases base inReady exReady
  have later : (∃ others after, Placed (sramex.free .sramex) frameBlocks others after ∧
      none ∈ others ∧ Fits after slotBlocks) ↔ none ∈ frames ∧ none ∉ slots := by
    constructor
    · rintro ⟨others, after, placed, missing, fits⟩
      obtain ⟨rfl, rfl⟩ := placed.unique framePlaced
      exact ⟨missing, slotPlaced.fits_iff.mp fits⟩
    · exact fun ⟨missing, full⟩ => ⟨frames, middle, framePlaced, missing, slotPlaced.fits_iff.mpr full⟩
  rw [linePlaced.fits_iff, later]
  constructor
  · rintro law ⟨lineFull, missing, slotFull⟩
    rcases ends with ⟨_, _, code⟩ | ⟨none, _⟩
    · exact (complete.mp (law.zero.mp code)).2.1 missing
    · exact none.elim lineFull slotFull
  · intro condition
    constructor
    · rw [complete]
      rcases ends with ⟨lineFull, slotFull, code⟩ | ⟨none, code, _⟩
      · have frameFull : none ∉ frames := fun missing => condition ⟨lineFull, missing, slotFull⟩
        exact iff_of_true code ⟨lineFull, frameFull, slotFull⟩
      · refine iff_of_false (by simp [code]) ?_
        rintro ⟨lineFull, _, slotFull⟩
        exact none.elim lineFull slotFull
    · intro failed
      rcases ends with ⟨_, _, code⟩ | ⟨_, code, inSame, exSame⟩
      · exact absurd code failed
      · exact ⟨code, congrArg Bank.memmap inSame, congrArg Bank.memmap exSame⟩

/-- A pool with this many free entries at the top of its map. -/
def poolWith (memx : Memx) (free : Nat) : Bank where
  memmap cell := if cell < tableSize memx - free then 1 else 0
  memrdy := true

theorem poolWith_ready (memx : Memx) (free : Nat) : (poolWith memx free).memrdy = true := rfl

theorem poolWith_free (memx : Memx) (free : Nat) :
    (poolWith memx free).free memx = Set.Ico (tableSize memx - free) (tableSize memx) := by
  ext cell
  simp only [Bank.free, freeCells, poolWith, Set.mem_ofPred_eq, Set.mem_Ico]
  by_cases low : cell < tableSize memx - free
  · refine iff_of_false ?_ fun inside => Nat.not_le_of_lt low inside.1
    simp [low]
  · simp only [low, if_false, and_true]
    omega

/-- The call succeeds with empty pools. -/
theorem netmemMalloc_allOrNothing_empty :
    AllOrNothing mallcoDev (poolWith .sramin 2560) (poolWith .sramex 462592) := by
  refine (netmemMalloc_allOrNothing mallcoDev rfl rfl).mpr ?_
  rintro ⟨_, frames, after, placed, missing, _⟩
  rw [poolWith_free] at placed
  have fits : Fits (Set.Ico (tableSize .sramex - 462592) (tableSize .sramex)) frameBlocks :=
    fits_Ico (by decide) (by decide)
  exact placed.fits_iff.mp fits missing

/-- A run does not start in an interval that is too short for it. -/
theorem starts_poolWith {memx : Memx} {free count : Nat} (long : free < count) :
    Starts ((poolWith memx free).free memx) count = ∅ := by
  apply Set.eq_empty_of_forall_notMem
  intro place starts
  rw [poolWith_free] at starts
  have first := starts (Extent.mem_run.mpr ⟨Nat.le_refl _, by omega⟩)
  have last : place + count - 1 ∈ Set.Ico (tableSize memx - free) (tableSize memx) :=
    starts (Extent.mem_run.mpr ⟨by omega, by omega⟩)
  rw [Set.mem_Ico] at first last
  omega

/-- With 300 free blocks of SDRAM the call returns 0 although no frame buffer is allocated. -/
theorem netmemMalloc_noFrames :
    (netmemMalloc mallcoDev (poolWith .sramin 2560) (poolWith .sramex 300)).1 = 0 ∧
      0 ∈ (netmemMalloc mallcoDev (poolWith .sramin 2560)
        (poolWith .sramex 300)).2.buffers.pointers ∧
      ¬ AllOrNothing mallcoDev (poolWith .sramin 2560) (poolWith .sramex 300) := by
  obtain ⟨lines, frames, slots, inAfter, middle, exAfter, linePlaced, framePlaced, slotPlaced,
    complete, ends⟩ := netmemMalloc_cases mallcoDev (poolWith_ready .sramin 2560)
      (poolWith_ready .sramex 300)
  have empty : Starts ((poolWith .sramex 300).free .sramex) 38880 = ∅ :=
    starts_poolWith (by decide)
  obtain ⟨rfl, rfl⟩ := framePlaced.unique (.full empty (.full empty (.full empty .nil)))
  have lineFull : none ∉ lines := by
    rw [← linePlaced.fits_iff, poolWith_free]
    exact fits_Ico (by decide) (by decide)
  have slotFull : none ∉ slots := by
    rw [← slotPlaced.fits_iff, poolWith_free]
    refine fits_Ico (by decide) ?_
    rw [slotBlocks, List.sum_replicate]
    decide
  have code : (netmemMalloc mallcoDev (poolWith .sramin 2560) (poolWith .sramex 300)).1 = 0 := by
    rcases ends with ⟨_, _, code⟩ | ⟨none, _⟩
    · exact code
    · exact (none.elim lineFull slotFull).elim
  have null : 0 ∈ (netmemMalloc mallcoDev (poolWith .sramin 2560)
      (poolWith .sramex 300)).2.buffers.pointers := by
    by_contra full
    exact (complete.mp full).2.1 (List.mem_cons_self ..)
  exact ⟨code, null, fun law => law.zero.mp code null⟩

end NnpCamera.Allocator
