/-
This file models the receive descriptors of the Ethernet DMA and the pbufs that `ethernetif.c`
builds on their buffers.
-/

import NnpCamera.Library.Memory
import NnpCamera.Receive.Datagrams

namespace NnpCamera.Receive
open Library

/-- `ETH_RX_DESC_CNT` counts the descriptors, their buffers and the pbufs. -/
def ethRxDescCnt : Nat := 4

/-- `ETH_MAX_PACKET_SIZE` is the size of a buffer. -/
def ethMaxPacketSize : Nat := 1528

/-- A frame fits in one buffer, so it has one descriptor. `frame` is history and numbers the frame
that the DMA stored last. -/
structure RxDescriptor where
  own : Bool
  packetLength : Nat
  frame : Nat

/-- The payload names a buffer of `Rx_Buff` and an offset in it. `frame` is history and numbers the
frame for which the pbuf was built. -/
structure PbufCustom where
  payload : Option (Nat × Nat)
  len : Nat
  ref : UInt16
  frame : Nat

/-- This is what `udp_thread` copied from one pbuf. -/
structure PbufCopy where
  frame : Nat
  offset : Nat
  bytes : List UInt8
  deriving DecidableEq, Repr

/-- This state holds the ring of the DMA, the fields of `RxDescList`, and the pbufs. No code reads
the last three fields: `frames` lists the frames that the DMA stored, `found` the reference counts
that the initialisations of pbufs found, and `copies` the copies of `udp_thread`. -/
structure RxRing where
  desc : Nat → RxDescriptor
  rxBuff : Nat → Memory UInt8
  dmaDesc : Nat
  curRxDesc : Nat
  firstAppDesc : Nat
  appDescNbr : Nat
  rxPbuf : Nat → PbufCustom
  currentPbufIdx : Nat
  frames : List (List UInt8)
  found : List UInt16
  copies : List PbufCopy

/-- `INCR_RX_DESC_INDEX` wraps at the end of the ring. -/
def incrRxDescIndex (inx offset : Nat) : Nat :=
  let inx := inx + offset
  if ethRxDescCnt ≤ inx then inx - ethRxDescCnt else inx

namespace RxRing
variable (ring : RxRing)

/-- The DMA stores a frame in its next descriptor and loses it when it does not own this one. -/
def dmaFrame (bytes : List UInt8) : RxRing :=
  if (ring.desc ring.dmaDesc).own then
    { ring with
      desc := Function.update ring.desc ring.dmaDesc
        { own := false, packetLength := bytes.length, frame := ring.frames.length }
      rxBuff := Function.update ring.rxBuff ring.dmaDesc
        ((ring.rxBuff ring.dmaDesc).copy 0 (fun index => bytes.getD index 0) bytes.length)
      dmaDesc := incrRxDescIndex ring.dmaDesc 1
      frames := ring.frames ++ [bytes] }
  else ring

def halEthIsRxDataAvailable : Bool × RxRing :=
  if ring.appDescNbr ≠ 0 then (false, ring)
  else if !(ring.desc ring.curRxDesc).own then
    (true, { ring with
      curRxDesc := incrRxDescIndex ring.curRxDesc 1
      firstAppDesc := ring.curRxDesc
      appDescNbr := 1 })
  else (false, { ring with appDescNbr := 0 })

/-- This gives the descriptor of the last frame back to the DMA. -/
def halEthBuildRxDescriptors : RxRing :=
  if ring.appDescNbr = 0 then ring
  else
    { ring with
      desc := Function.update ring.desc ring.firstAppDesc
        { ring.desc ring.firstAppDesc with own := true }
      appDescNbr := 0 }

/-- `pbuf_alloced_custom` on the buffer of the first descriptor of the frame. -/
def pbufAllocedCustom (p : Nat) : RxRing :=
  { ring with
    rxPbuf := Function.update ring.rxPbuf p
      { payload := some (ring.firstAppDesc, 0)
        len := (ring.desc ring.firstAppDesc).packetLength
        ref := 1
        frame := (ring.desc ring.firstAppDesc).frame }
    found := ring.found ++ [(ring.rxPbuf p).ref] }

def lowLevelInput : Option Nat × RxRing :=
  let (available, ring) := ring.halEthIsRxDataAvailable
  if available then
    let p := ring.currentPbufIdx
    let ring := ring.pbufAllocedCustom p
    (some p,
      if p < ethRxDescCnt - 1 then { ring with currentPbufIdx := p + 1 }
      else { ring with currentPbufIdx := 0 })
  else (none, ring)

def pbufFreeCustom (p : Nat) : RxRing :=
  { ring with
    rxPbuf := Function.update ring.rxPbuf p
      { ring.rxPbuf p with payload := none, len := 0, ref := 0 } }

/-- The payload moves behind the headers, and the length is cut to the payload. -/
def pbufHeader (p offset len : Nat) : RxRing :=
  { ring with
    rxPbuf := Function.update ring.rxPbuf p
      { ring.rxPbuf p with
        payload := (ring.rxPbuf p).payload.map fun (buffer, start) => (buffer, start + offset)
        len := len } }

/-- A pbuf that is longer than the line buffer is not copied. -/
def copyPbuf (p : Nat) : RxRing :=
  match (ring.rxPbuf p).payload with
  | some (buffer, offset) =>
      if (ring.rxPbuf p).len ≤ netrecvLineSize then
        { ring with
          copies := ring.copies ++ [{
            frame := (ring.rxPbuf p).frame
            offset := offset
            bytes := (ring.rxBuff buffer).read offset (ring.rxPbuf p).len }] }
      else ring
  | none => ring

end RxRing

/-- The chain is freed up to the first pbuf that has another reference. -/
def pbufFree : List Nat → RxRing → RxRing
  | [], ring => ring
  | p :: rest, ring =>
      let ref := (ring.rxPbuf p).ref - 1
      if ref = 0 then pbufFree rest (ring.pbufFreeCustom p)
      else { ring with rxPbuf := Function.update ring.rxPbuf p { ring.rxPbuf p with ref := ref } }

/-- Each pbuf was free when it was initialised, and each copy holds the bytes of the frame for which
its pbuf was built. -/
structure Intact (ring : RxRing) : Prop where
  found : ∀ ref ∈ ring.found, ref = 0
  copies : ∀ copy ∈ ring.copies, ∃ bytes, ring.frames[copy.frame]? = some bytes ∧
    copy.bytes = (bytes.drop copy.offset).take copy.bytes.length

/-- A pbuf in use has one reference and shows its frame, which is one of the last four. -/
structure Built (ring : RxRing) (p : Nat) : Prop where
  ref : (ring.rxPbuf p).ref = 1
  slot : (ring.rxPbuf p).frame % ethRxDescCnt = p
  past : (ring.rxPbuf p).frame < ring.found.length
  recent : ring.frames.length ≤ (ring.rxPbuf p).frame + ethRxDescCnt
  shows : ∃ bytes offset, ring.frames[(ring.rxPbuf p).frame]? = some bytes ∧
    (ring.rxBuff p).read 0 bytes.length = bytes ∧
    (ring.rxPbuf p).payload = some (p, offset) ∧ offset + (ring.rxPbuf p).len ≤ bytes.length

/-- A frame that the driver has not taken yet is in its descriptor and in its buffer. -/
structure Waits (ring : RxRing) (frame : Nat) : Prop where
  own : (ring.desc (frame % ethRxDescCnt)).own = false
  number : (ring.desc (frame % ethRxDescCnt)).frame = frame
  stored : ∃ bytes, ring.frames[frame]? = some bytes ∧
    (ring.desc (frame % ethRxDescCnt)).packetLength = bytes.length ∧
    (ring.rxBuff (frame % ethRxDescCnt)).read 0 bytes.length = bytes

/-- The driver has initialised one pbuf for each frame that it took. The frames after these wait, and
the pbufs of the list are in use. -/
structure Sound (inUse : List Nat) (ring : RxRing) : Prop where
  order : ring.found.length ≤ ring.frames.length
  dma : ring.dmaDesc = ring.frames.length % ethRxDescCnt
  hal : ring.curRxDesc = ring.found.length % ethRxDescCnt
  app : ring.appDescNbr = 0
  idx : ring.currentPbufIdx = ring.found.length % ethRxDescCnt
  owned : ∀ index, (ring.desc index).own = false →
    ∃ frame, ring.found.length ≤ frame ∧ frame < ring.frames.length ∧ frame % ethRxDescCnt = index
  waiting : ∀ frame, ring.found.length ≤ frame → frame < ring.frames.length → Waits ring frame
  nodup : inUse.Nodup
  used : ∀ p ∈ inUse, Built ring p
  unused : ∀ p, p ∉ inUse → (ring.rxPbuf p).ref = 0
  intact : Intact ring

section Preservation
variable {ring after : RxRing} {inUse : List Nat} {p : Nat}

/-- A stored frame keeps its number. -/
theorem frame_kept {frames more : List (List UInt8)} (grows : frames <+: more) {number : Nat}
    {bytes : List UInt8} (stored : frames[number]? = some bytes) : more[number]? = some bytes := by
  obtain ⟨rest, rfl⟩ := grows
  rw [List.getElem?_append_left (List.getElem?_eq_some_iff.mp stored).1]
  exact stored

/-- A pbuf in use is not affected by a step that leaves it and its buffer. -/
theorem Built.transfer (built : Built ring p) (pbuf : after.rxPbuf p = ring.rxPbuf p)
    (buff : after.rxBuff p = ring.rxBuff p) (found : ring.found.length ≤ after.found.length)
    (recent : after.frames.length ≤ (ring.rxPbuf p).frame + ethRxDescCnt)
    (frames : ring.frames <+: after.frames) : Built after p := by
  obtain ⟨bytes, offset, number, stored, payload, inside⟩ := built.shows
  refine ⟨?_, ?_, ?_, ?_, bytes, offset, ?_, ?_, ?_, ?_⟩
  · rw [pbuf]; exact built.ref
  · rw [pbuf]; exact built.slot
  · rw [pbuf]; exact built.past.trans_le found
  · rw [pbuf]; exact recent
  · rw [pbuf]; exact frame_kept frames number
  · rw [buff]; exact stored
  · rw [pbuf]; exact payload
  · rw [pbuf]; exact inside

/-- A waiting frame is not affected by a step that leaves its descriptor and its buffer. -/
theorem Waits.transfer {frame : Nat} (waits : Waits ring frame)
    (desc : after.desc (frame % ethRxDescCnt) = ring.desc (frame % ethRxDescCnt))
    (buff : after.rxBuff (frame % ethRxDescCnt) = ring.rxBuff (frame % ethRxDescCnt))
    (frames : ring.frames <+: after.frames) : Waits after frame := by
  obtain ⟨own, number, bytes, stored, length, holds⟩ := waits
  refine ⟨?_, ?_, bytes, frame_kept frames stored, ?_, ?_⟩
  · rw [desc]; exact own
  · rw [desc]; exact number
  · rw [desc]; exact length
  · rw [buff]; exact holds

/-- More frames leave the law of the copies. -/
theorem Intact.frames (intact : Intact ring) (found : after.found = ring.found)
    (copies : after.copies = ring.copies) (frames : ring.frames <+: after.frames) :
    Intact after := by
  refine ⟨found ▸ intact.found, fun copy member => ?_⟩
  obtain ⟨bytes, number, same⟩ := intact.copies copy (copies ▸ member)
  exact ⟨bytes, frame_kept frames number, same⟩

theorem Sound.perm (sound : Sound inUse ring) {others : List Nat} (same : inUse.Perm others) :
    Sound others ring :=
  { sound with
    nodup := same.nodup_iff.mp sound.nodup
    used := fun p member => sound.used p (same.mem_iff.mpr member)
    unused := fun p missing => sound.unused p fun member => missing (same.mem_iff.mp member) }

/-- An index wraps at the end of the ring. -/
theorem incrRxDescIndex_mod (count : Nat) :
    incrRxDescIndex (count % ethRxDescCnt) 1 = (count + 1) % ethRxDescCnt := by
  by_cases wraps : ethRxDescCnt ≤ count % ethRxDescCnt + 1
  · simp only [incrRxDescIndex, if_pos wraps]
    simp only [ethRxDescCnt] at wraps ⊢
    omega
  · simp only [incrRxDescIndex, if_neg wraps]
    simp only [ethRxDescCnt] at wraps ⊢
    omega

/-- Two waiting frames have different descriptors. -/
theorem Sound.waiting_apart (sound : Sound inUse ring) {first second : Nat}
    (one : ring.found.length ≤ first ∧ first < ring.frames.length)
    (two : ring.found.length ≤ second ∧ second < ring.frames.length)
    (same : first % ethRxDescCnt = second % ethRxDescCnt) : first = second := by
  have number := (sound.waiting first one.1 one.2).number
  rwa [same, (sound.waiting second two.1 two.2).number, eq_comm] at number

/-- A frame that the DMA stores disturbs no pbuf in use, if no pbuf in use is as old as the ring is
long. -/
theorem Sound.dmaFrame (sound : Sound inUse ring) (bytes : List UInt8)
    (recent : ∀ p ∈ inUse, ring.frames.length < (ring.rxPbuf p).frame + ethRxDescCnt) :
    Sound inUse (ring.dmaFrame bytes) := by
  unfold RxRing.dmaFrame
  split
  next own =>
    have grows : ring.frames <+: ring.frames ++ [bytes] := List.prefix_append ..
    have count : (ring.frames ++ [bytes]).length = ring.frames.length + 1 := by simp
    -- The descriptor of the new frame holds no frame that waits and no frame in use.
    have idle (frame : Nat) (taken : ring.found.length ≤ frame)
        (stored : frame < ring.frames.length) : frame % ethRxDescCnt ≠ ring.dmaDesc := by
      intro same
      have waits := (sound.waiting frame taken stored).own
      rw [same, own] at waits
      contradiction
    have apart (p : Nat) (member : p ∈ inUse) : p ≠ ring.dmaDesc := by
      have built := sound.used p member
      have past := built.past
      have order := sound.order
      have young := recent p member
      rw [sound.dma, ← built.slot]
      simp only [ethRxDescCnt] at young ⊢
      omega
    refine {
      order := ?_
      dma := ?_
      hal := sound.hal
      app := sound.app
      idx := sound.idx
      owned := ?_
      waiting := ?_
      nodup := sound.nodup
      used := ?_
      unused := sound.unused
      intact := sound.intact.frames rfl rfl grows }
    · show _ ≤ (ring.frames ++ [bytes]).length
      rw [count]
      exact sound.order.trans (Nat.le_succ _)
    · show incrRxDescIndex ring.dmaDesc 1 = (ring.frames ++ [bytes]).length % ethRxDescCnt
      rw [count, sound.dma, incrRxDescIndex_mod]
    · intro index taken
      rw [count]
      by_cases here : index = ring.dmaDesc
      · exact ⟨ring.frames.length, sound.order, Nat.lt_succ_self _, (here.trans sound.dma).symm⟩
      · have same : (Function.update ring.desc ring.dmaDesc
            ⟨false, bytes.length, ring.frames.length⟩ index).own = false := taken
        rw [Function.update_of_ne here] at same
        obtain ⟨frame, later, stored, slot⟩ := sound.owned index same
        exact ⟨frame, later, Nat.lt_succ_of_lt stored, slot⟩
    · intro frame taken stored
      rw [count] at stored
      rcases Nat.lt_succ_iff_lt_or_eq.mp stored with earlier | rfl
      · have other := idle frame taken earlier
        exact (sound.waiting frame taken earlier).transfer (Function.update_of_ne other ..)
          (Function.update_of_ne other ..) grows
      · -- The new frame waits in its descriptor.
        refine ⟨?_, ?_, bytes, List.getElem?_concat_length .., ?_, ?_⟩
        · show (Function.update ring.desc _ _ _).own = _
          rw [← sound.dma, Function.update_self]
        · show (Function.update ring.desc _ _ _).frame = _
          rw [← sound.dma, Function.update_self]
        · show (Function.update ring.desc _ _ _).packetLength = _
          rw [← sound.dma, Function.update_self]
        · show (Function.update ring.rxBuff _ _ _).read 0 _ = _
          rw [← sound.dma, Function.update_self, Memory.read_copy_list]
    · intro p member
      refine (sound.used p member).transfer rfl ?_ le_rfl ?_ grows
      · exact Function.update_of_ne (apart p member) ..
      · rw [count]
        exact recent p member
  next => exact sound

/-- The index of the pbufs wraps at the end of the ring. -/
theorem pbufIdx_mod (count : Nat) :
    (if count % ethRxDescCnt < ethRxDescCnt - 1 then count % ethRxDescCnt + 1 else 0) =
      (count + 1) % ethRxDescCnt := by
  by_cases inside : count % ethRxDescCnt < ethRxDescCnt - 1
  · rw [if_pos inside]
    simp only [ethRxDescCnt] at inside ⊢
    omega
  · rw [if_neg inside]
    simp only [ethRxDescCnt] at inside ⊢
    omega

/-- The ring after the driver took a frame into a pbuf and gave its descriptor back. -/
def RxRing.takeFrame (ring : RxRing) : RxRing :=
  { ring with
    desc := Function.update ring.desc ring.curRxDesc { ring.desc ring.curRxDesc with own := true }
    curRxDesc := incrRxDescIndex ring.curRxDesc 1
    firstAppDesc := ring.curRxDesc
    rxPbuf := Function.update ring.rxPbuf ring.currentPbufIdx
      { payload := some (ring.curRxDesc, 0)
        len := (ring.desc ring.curRxDesc).packetLength
        ref := 1
        frame := (ring.desc ring.curRxDesc).frame }
    currentPbufIdx :=
      if ring.currentPbufIdx < ethRxDescCnt - 1 then ring.currentPbufIdx + 1 else 0
    found := ring.found ++ [(ring.rxPbuf ring.currentPbufIdx).ref] }

/-- The driver takes no frame from a descriptor of the DMA. -/
theorem RxRing.lowLevelInput_none (idle : ring.appDescNbr = 0)
    (own : (ring.desc ring.curRxDesc).own = true) : ring.lowLevelInput = (none, ring) := by
  simp only [RxRing.lowLevelInput, RxRing.halEthIsRxDataAvailable, own, idle]
  simp [← idle]

/-- The driver takes the frame of a filled descriptor into the next pbuf. -/
theorem RxRing.lowLevelInput_some (idle : ring.appDescNbr = 0)
    (own : (ring.desc ring.curRxDesc).own = false) :
    ring.lowLevelInput = (some ring.currentPbufIdx,
      { ring.takeFrame with desc := ring.desc, appDescNbr := 1 }) := by
  simp only [RxRing.lowLevelInput, RxRing.halEthIsRxDataAvailable, own, idle]
  by_cases inside : ring.currentPbufIdx < ethRxDescCnt - 1
  · simp [inside, RxRing.pbufAllocedCustom, RxRing.takeFrame]
  · simp [inside, RxRing.pbufAllocedCustom, RxRing.takeFrame]

/-- The driver takes a frame only from a descriptor that the DMA has filled. -/
theorem Sound.lowLevelInput_cases (sound : Sound inUse ring) :
    ((ring.desc ring.curRxDesc).own = true ∧ ring.lowLevelInput = (none, ring)) ∨
      ((ring.desc ring.curRxDesc).own = false ∧
        ring.lowLevelInput.1 = some ring.currentPbufIdx ∧
        ring.lowLevelInput.2.halEthBuildRxDescriptors = ring.takeFrame) := by
  cases own : (ring.desc ring.curRxDesc).own with
  | true => exact .inl ⟨rfl, RxRing.lowLevelInput_none sound.app own⟩
  | false =>
      refine .inr ⟨rfl, ?_, ?_⟩
      · rw [RxRing.lowLevelInput_some sound.app own]
      · rw [RxRing.lowLevelInput_some sound.app own]
        simp [RxRing.halEthBuildRxDescriptors, RxRing.takeFrame, sound.app]

/-- The next frame waits when the driver finds its descriptor filled. -/
theorem Sound.next_waits (sound : Sound inUse ring)
    (filled : (ring.desc ring.curRxDesc).own = false) : ring.found.length < ring.frames.length := by
  obtain ⟨frame, taken, stored, _⟩ := sound.owned _ filled
  exact taken.trans_lt stored

/-- The frames that wait fit in the ring. -/
theorem Sound.frames_le (sound : Sound inUse ring) :
    ring.frames.length ≤ ring.found.length + ethRxDescCnt := by
  by_contra more
  have later : ring.found.length + ethRxDescCnt < ring.frames.length := Nat.lt_of_not_le more
  have apart := sound.waiting_apart ⟨le_rfl, (Nat.le_add_right _ _).trans_lt later⟩
    ⟨Nat.le_add_right _ _, later⟩ (Nat.add_mod_right _ _).symm
  simp [ethRxDescCnt] at apart

/-- The pbuf of the next frame is not in use. -/
theorem Sound.next_unused (sound : Sound inUse ring)
    (filled : (ring.desc ring.curRxDesc).own = false) : ring.currentPbufIdx ∉ inUse := by
  intro member
  have built := sound.used _ member
  have waits := sound.next_waits filled
  have slot := built.slot
  have past := built.past
  have recent := built.recent
  rw [sound.idx] at slot past recent
  simp only [ethRxDescCnt] at slot past recent
  omega

/-- The driver takes the next frame into a pbuf that is not in use. -/
theorem Sound.takeFrame (sound : Sound inUse ring)
    (filled : (ring.desc ring.curRxDesc).own = false) :
    Sound (ring.currentPbufIdx :: inUse) ring.takeFrame := by
  have waits := sound.next_waits filled
  have unused := sound.next_unused filled
  have count : ring.takeFrame.found.length = ring.found.length + 1 := by simp [RxRing.takeFrame]
  obtain ⟨_, number, bytes, stored, length, holds⟩ := sound.waiting _ le_rfl waits
  rw [← sound.hal] at number length holds
  have other {frame : Nat} (taken : ring.found.length + 1 ≤ frame)
      (inside : frame < ring.frames.length) : frame % ethRxDescCnt ≠ ring.curRxDesc := by
    intro same
    have equal := sound.waiting_apart ⟨le_rfl, waits⟩ ⟨(Nat.le_succ _).trans taken, inside⟩
      (sound.hal.symm.trans same.symm)
    omega
  have left {index : Nat} (apart : index ≠ ring.curRxDesc) :
      ring.takeFrame.desc index = ring.desc index := Function.update_of_ne apart ..
  have kept {p : Nat} (apart : p ≠ ring.currentPbufIdx) : ring.takeFrame.rxPbuf p = ring.rxPbuf p :=
    Function.update_of_ne apart ..
  refine {
    order := ?_
    dma := sound.dma
    hal := ?_
    app := sound.app
    idx := ?_
    owned := ?_
    waiting := ?_
    nodup := List.nodup_cons.mpr ⟨unused, sound.nodup⟩
    used := ?_
    unused := ?_
    intact := ?_ }
  · rw [count]
    exact waits
  · rw [count, ← incrRxDescIndex_mod, ← sound.hal]
    rfl
  · rw [count, ← pbufIdx_mod, ← sound.idx]
    rfl
  · intro index own
    have elsewhere : index ≠ ring.curRxDesc := by
      rintro rfl
      simp [RxRing.takeFrame] at own
    have same : (ring.desc index).own = false := by rwa [left elsewhere] at own
    obtain ⟨frame, taken, inside, slot⟩ := sound.owned index same
    rw [count]
    refine ⟨frame, ?_, inside, slot⟩
    rcases Nat.eq_or_lt_of_le taken with rfl | later
    · exact absurd (slot.symm.trans sound.hal.symm) elsewhere
    · exact later
  · intro frame taken inside
    rw [count] at taken
    exact (sound.waiting frame ((Nat.le_succ _).trans taken) inside).transfer
      (left (other taken inside)) rfl (List.prefix_refl _)
  · intro p member
    rcases List.mem_cons.mp member with rfl | before
    · have slot : ring.currentPbufIdx = ring.curRxDesc := sound.idx.trans sound.hal.symm
      have built : ring.takeFrame.rxPbuf ring.currentPbufIdx =
          ⟨some (ring.currentPbufIdx, 0), bytes.length, 1, ring.found.length⟩ := by
        refine (Function.update_self ..).trans ?_
        rw [length, number, slot]
      refine ⟨by rw [built], ?_, ?_, ?_, bytes, 0, ?_, ?_, ?_, ?_⟩
      · rw [built]
        exact sound.idx.symm
      · rw [built, count]
        exact Nat.lt_succ_self _
      · rw [built]
        exact sound.frames_le
      · rw [built]
        exact stored
      · rw [slot]
        exact holds
      · rw [built]
      · rw [built, Nat.zero_add]
    · have apart : p ≠ ring.currentPbufIdx := fun same => unused (same ▸ before)
      have built := sound.used p before
      exact built.transfer (kept apart) rfl (by rw [count]; exact Nat.le_succ _) built.recent
        (List.prefix_refl _)
  · intro p missing
    rw [List.mem_cons, not_or] at missing
    rw [kept missing.1]
    exact sound.unused p missing.2
  · refine ⟨fun ref member => ?_, sound.intact.copies⟩
    rcases List.mem_append.mp member with old | new
    · exact sound.intact.found ref old
    · rw [List.mem_singleton.mp new]
      exact sound.unused _ unused

/-- A freed pbuf is no longer in use. -/
theorem Sound.pbufFreeCustom (sound : Sound (p :: inUse) ring) :
    Sound inUse (ring.pbufFreeCustom p) := by
  obtain ⟨unused, nodup⟩ := List.nodup_cons.mp sound.nodup
  have kept {q : Nat} (apart : q ≠ p) : (ring.pbufFreeCustom p).rxPbuf q = ring.rxPbuf q :=
    Function.update_of_ne apart ..
  refine { sound with
    waiting := fun frame taken stored =>
      (sound.waiting frame taken stored).transfer rfl rfl (List.prefix_refl _)
    nodup := nodup
    used := fun q member => ?_
    unused := fun q missing => ?_
    intact := sound.intact.frames rfl rfl (List.prefix_refl _) }
  · have apart : q ≠ p := fun same => unused (same ▸ member)
    have built := sound.used q (List.mem_cons_of_mem _ member)
    exact built.transfer (kept apart) rfl le_rfl built.recent (List.prefix_refl _)
  · by_cases here : q = p
    · have freed : (ring.pbufFreeCustom p).rxPbuf p =
          { ring.rxPbuf p with payload := none, len := 0, ref := 0 } := Function.update_self ..
      rw [here, freed]
    · rw [kept here]
      refine sound.unused q fun member => ?_
      rcases List.mem_cons.mp member with same | before
      · exact here same
      · exact missing before

/-- A chain is freed as a whole, because each of its pbufs has one reference. -/
theorem Sound.pbufFree {chain : List Nat} (sound : Sound (chain ++ inUse) ring) :
    Sound inUse (pbufFree chain ring) := by
  induction chain generalizing ring with
  | nil => exact sound
  | cons p rest ih =>
      have last : (ring.rxPbuf p).ref - 1 = 0 := by
        rw [(sound.used p (List.mem_append_left _ (List.mem_cons_self ..))).ref]
        rfl
      rw [Receive.pbufFree]
      simp only [last, if_true]
      exact ih sound.pbufFreeCustom

/-- A pbuf still shows its frame after its headers are cut off. -/
theorem Sound.pbufHeader (sound : Sound inUse ring) (member : p ∈ inUse) {offset len : Nat}
    (inside : offset + len ≤ (ring.rxPbuf p).len) : Sound inUse (ring.pbufHeader p offset len) := by
  have kept {q : Nat} (apart : q ≠ p) : (ring.pbufHeader p offset len).rxPbuf q = ring.rxPbuf q :=
    Function.update_of_ne apart ..
  refine { sound with
    waiting := fun frame taken stored =>
      (sound.waiting frame taken stored).transfer rfl rfl (List.prefix_refl _)
    used := fun q other => ?_
    unused := fun q missing => ?_
    intact := sound.intact.frames rfl rfl (List.prefix_refl _) }
  · by_cases here : q = p
    · rw [here]
      obtain ⟨ref, slot, past, recent, bytes, start, number, stored, payload, whole⟩ :=
        sound.used p member
      have cut : (ring.pbufHeader p offset len).rxPbuf p =
          { ring.rxPbuf p with payload := some (p, start + offset), len := len } := by
        refine (Function.update_self ..).trans ?_
        rw [payload]
        rfl
      refine ⟨?_, ?_, ?_, ?_, bytes, start + offset, ?_, stored, ?_, ?_⟩
      · rw [cut]; exact ref
      · rw [cut]; exact slot
      · rw [cut]; exact past
      · rw [cut]; exact recent
      · rw [cut]; exact number
      · rw [cut]
      · rw [cut]
        show start + offset + len ≤ bytes.length
        omega
    · have built := sound.used q other
      exact built.transfer (kept here) rfl le_rfl built.recent (List.prefix_refl _)
  · have apart : q ≠ p := fun same => missing (same ▸ member)
    rw [kept apart]
    exact sound.unused q missing

/-- A copy of a pbuf in use takes the bytes of its frame. -/
theorem Sound.copyPbuf (sound : Sound inUse ring) (member : p ∈ inUse) :
    Sound inUse (ring.copyPbuf p) := by
  obtain ⟨bytes, offset, number, stored, payload, inside⟩ := (sound.used p member).shows
  simp only [RxRing.copyPbuf, payload]
  split
  · refine { sound with
      waiting := fun frame taken stored =>
        (sound.waiting frame taken stored).transfer rfl rfl (List.prefix_refl _)
      used := fun q other =>
        (sound.used q other).transfer rfl rfl le_rfl (sound.used q other).recent (List.prefix_refl _)
      intact := ⟨sound.intact.found, fun copy copied => ?_⟩ }
    rcases List.mem_append.mp copied with old | new
    · exact sound.intact.copies copy old
    · rw [List.mem_singleton.mp new]
      refine ⟨bytes, number, ?_⟩
      rw [Memory.read_length, ← stored, Memory.read_slice _ _ (by simpa using inside), Nat.zero_add]
  · exact sound

end Preservation

end NnpCamera.Receive
