/-
This file models the 76-byte command block and the event codes.
-/

import Mathlib.Tactic.Common
import Mathlib.Data.Fintype.Basic
import Mathlib.Tactic.FinCases

namespace NnpCamera.Parameters

/-- The 76 bytes of one FIFO line. -/
abbrev Block := Fin 76 → UInt8

/-- A numeral can stand for a place in a block. -/
instance blockPlaces : @NeZero Nat .ofOfNat0 76 := ⟨by decide⟩

/-- A numeral can stand for an entry of a table. -/
instance tableEntries : @NeZero Nat .ofOfNat0 10 := ⟨by decide⟩

/-- The command and reply packet has the fields of the C structure in its order. -/
structure SendPacket where
  head1 : UInt8
  head2 : UInt8
  id : UInt8
  event : UInt8
  status : UInt8
  senstive1h : UInt8
  senstive1l : UInt8
  senstive2h : UInt8
  senstive2l : UInt8
  openclothnum : UInt8
  openclothid : UInt8
  gainh : UInt8
  gainl : UInt8
  changeid : UInt8
  exposureh : UInt8
  exposurel : UInt8
  mode : UInt8
  alg1 : UInt8
  alg2 : UInt8
  autoexposure : UInt8
  autoexposurevalue : UInt8
  aoiauto : UInt8
  aoishowheight : UInt8
  aoistartyh : UInt8
  aoistartyl : UInt8
  aoishowstartyh : UInt8
  aoishowstartyl : UInt8
  data2 : UInt8
  data3 : UInt8
  aoishowstartxh : UInt8
  aoishowstartxl : UInt8
  aoishowendxh : UInt8
  openclothstart : Fin 10 → UInt16
  openclothend : Fin 10 → UInt16
  aoishowendxl : UInt8
  data1 : UInt8
  tail1 : UInt8
  tail2 : UInt8

/-- The processor stores a 16-bit value with its low byte first. -/
def littleEndian (low high : UInt8) : UInt16 := low.toUInt16 + (high.toUInt16 <<< 8)

/-- `mymemcpy` lays the block over the packet. The structure has no padding. -/
def SendPacket.ofBlock (block : Block) : SendPacket where
  head1 := block 0
  head2 := block 1
  id := block 2
  event := block 3
  status := block 4
  senstive1h := block 5
  senstive1l := block 6
  senstive2h := block 7
  senstive2l := block 8
  openclothnum := block 9
  openclothid := block 10
  gainh := block 11
  gainl := block 12
  changeid := block 13
  exposureh := block 14
  exposurel := block 15
  mode := block 16
  alg1 := block 17
  alg2 := block 18
  autoexposure := block 19
  autoexposurevalue := block 20
  aoiauto := block 21
  aoishowheight := block 22
  aoistartyh := block 23
  aoistartyl := block 24
  aoishowstartyh := block 25
  aoishowstartyl := block 26
  data2 := block 27
  data3 := block 28
  aoishowstartxh := block 29
  aoishowstartxl := block 30
  aoishowendxh := block 31
  openclothstart index :=
    littleEndian (block ⟨32 + 2 * index, by omega⟩) (block ⟨33 + 2 * index, by omega⟩)
  openclothend index :=
    littleEndian (block ⟨52 + 2 * index, by omega⟩) (block ⟨53 + 2 * index, by omega⟩)
  aoishowendxl := block 72
  data1 := block 73
  tail1 := block 74
  tail2 := block 75

/-- `mymemcpy` takes the bytes of the packet in their order. -/
def SendPacket.toBlock (packet : SendPacket) : Block := fun index =>
  let table (entries : Fin 10 → UInt16) (offset : Nat) : UInt8 :=
    let entry := entries (Fin.ofNat 10 (offset / 2))
    if offset % 2 = 0 then entry.toUInt8 else (entry >>> 8).toUInt8
  if index < 32 then
    [packet.head1, packet.head2, packet.id, packet.event, packet.status,
      packet.senstive1h, packet.senstive1l, packet.senstive2h, packet.senstive2l,
      packet.openclothnum, packet.openclothid, packet.gainh, packet.gainl, packet.changeid,
      packet.exposureh, packet.exposurel, packet.mode, packet.alg1, packet.alg2,
      packet.autoexposure, packet.autoexposurevalue, packet.aoiauto, packet.aoishowheight,
      packet.aoistartyh, packet.aoistartyl, packet.aoishowstartyh, packet.aoishowstartyl,
      packet.data2, packet.data3, packet.aoishowstartxh, packet.aoishowstartxl,
      packet.aoishowendxh].getD index 0
  else if index < 52 then table packet.openclothstart (index - 32)
  else if index < 72 then table packet.openclothend (index - 52)
  else [packet.aoishowendxl, packet.data1, packet.tail1, packet.tail2].getD (index - 72) 0

/-- Both halves of a 16-bit value make it up again. -/
theorem littleEndian_halves (value : UInt16) :
    littleEndian value.toUInt8 (value >>> 8).toUInt8 = value := by
  have bound := value.toNat_lt
  apply UInt16.toNat_inj.mp
  simp only [littleEndian, UInt16.toNat_add, UInt16.toNat_shiftLeft, UInt8.toNat_toUInt16,
    UInt16.toNat_toUInt8, UInt16.toNat_shiftRight, Nat.shiftLeft_eq, Nat.shiftRight_eq_div_pow]
  change (value.toNat % 2 ^ 8 + value.toNat / 2 ^ 8 % 2 ^ 8 * 2 ^ 8 % 2 ^ 16) % 2 ^ 16 = value.toNat
  omega

/-- The bytes of a packet make it up again. -/
theorem SendPacket.ofBlock_toBlock (packet : SendPacket) : ofBlock packet.toBlock = packet := by
  have starts (entry : Fin 10) : (ofBlock packet.toBlock).openclothstart entry =
      littleEndian (packet.openclothstart entry).toUInt8
        (packet.openclothstart entry >>> 8).toUInt8 := by
    fin_cases entry <;> rfl
  have ends (entry : Fin 10) : (ofBlock packet.toBlock).openclothend entry =
      littleEndian (packet.openclothend entry).toUInt8
        (packet.openclothend entry >>> 8).toUInt8 := by
    fin_cases entry <;> rfl
  have whole : ofBlock packet.toBlock = { packet with
      openclothstart := (ofBlock packet.toBlock).openclothstart
      openclothend := (ofBlock packet.toBlock).openclothend } := rfl
  rw [whole]
  congr 1
  · funext entry
    exact (starts entry).trans (littleEndian_halves _)
  · funext entry
    exact (ends entry).trans (littleEndian_halves _)

/-- Different packets have different bytes. -/
theorem SendPacket.toBlock_injective : Function.Injective toBlock :=
  Function.LeftInverse.injective ofBlock_toBlock

/-- The events that `udp_dataprocess_task` handles. The default arm takes all others. -/
inductive Event where
  | watchImage
  | setDetectpara
  | setCamid
  | getCamver
  | getCaminfo
  | setStarty240
  | setAoi
  | setParaReset
  | other
  deriving DecidableEq, Repr

/-- The event byte selects one arm of the switch. -/
def Event.ofCode (code : UInt8) : Event :=
  if code = 2 then .watchImage
  else if code = 5 then .setDetectpara
  else if code = 6 then .setCamid
  else if code = 14 then .setParaReset
  else if code = 16 then .setStarty240
  else if code = 22 then .getCamver
  else if code = 23 then .getCaminfo
  else if code = 24 then .setAoi
  else .other

/-- The event of one command block. -/
def Block.event (block : Block) : Event := Event.ofCode (SendPacket.ofBlock block).event

/-- Both handlers and `imgcamera_task` form the AOI start from these two bytes. -/
def SendPacket.aoiShowStartY (packet : SendPacket) : UInt16 :=
  (packet.aoishowstartyh.toUInt16 <<< 8) + packet.aoishowstartyl.toUInt16

/-- The exposure time that both arms of `SET_DETECTPARA` check. -/
def SendPacket.exposure (packet : SendPacket) : UInt16 :=
  (packet.exposureh.toUInt16 <<< 8) + packet.exposurel.toUInt16

/-- Mode 3 sends two packets for each row of the AOI. -/
def SendPacket.udpPacketCount (packet : SendPacket) : UInt16 :=
  packet.aoishowheight.toUInt16 <<< 1

/-- Mode 3 starts with the first packet of the first AOI row. -/
def SendPacket.udpDetectYStartPacketIndex (packet : SendPacket) : UInt16 :=
  packet.aoiShowStartY <<< 1

end NnpCamera.Parameters
