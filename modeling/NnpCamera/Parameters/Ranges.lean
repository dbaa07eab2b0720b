/-
This file bounds the parameters over all runs of commands and reboots.
-/

import NnpCamera.Parameters.Settings
import Mathlib.Data.Fin.VecNotation

namespace NnpCamera.Parameters
open Library Board

/-- Both bytes of the exposure. -/
def SendPacket.exposureBytes (para : SendPacket) : UInt8 × UInt8 := (para.exposureh, para.exposurel)

/-- Both bytes of the AOI start. -/
def SendPacket.aoiStartBytes (para : SendPacket) : UInt8 × UInt8 :=
  (para.aoishowstartyh, para.aoishowstartyl)

/-- The value of two bytes, high byte first. -/
def bigEndian (bytes : UInt8 × UInt8) : UInt16 := (bytes.1.toUInt16 <<< 8) + bytes.2.toUInt16

theorem bigEndian_toNat (bytes : UInt8 × UInt8) :
    (bigEndian bytes).toNat = 256 * bytes.1.toNat + bytes.2.toNat := by
  have high := bytes.1.toNat_lt
  have low := bytes.2.toNat_lt
  simp only [bigEndian, UInt16.toNat_add, UInt16.toNat_shiftLeft, UInt8.toNat_toUInt16,
    Nat.shiftLeft_eq]
  change (bytes.1.toNat * 2 ^ 8 % 2 ^ 16 + bytes.2.toNat) % 2 ^ 16 = _
  omega

/-- Two bytes are determined by their value. -/
theorem bigEndian_inj {first second : UInt8 × UInt8} :
    bigEndian first = bigEndian second ↔ first = second := by
  constructor
  · intro same
    have values := congrArg UInt16.toNat same
    rw [bigEndian_toNat, bigEndian_toNat] at values
    have firstLow := first.2.toNat_lt
    have secondLow := second.2.toNat_lt
    apply Prod.ext
    · apply UInt8.toNat_inj.mp
      omega
    · apply UInt8.toNat_inj.mp
      omega
  · intro same
    rw [same]

/-- The exposure that the EEPROM holds. -/
def storedExposure (eeprom : Eeprom) : UInt8 × UInt8 :=
  (at24cxxReadOneByte eeprom packetExposureh, at24cxxReadOneByte eeprom packetExposurel)

/-- The AOI start that the EEPROM holds. -/
def storedAoiStart (eeprom : Eeprom) : UInt8 × UInt8 :=
  (at24cxxReadOneByte eeprom packetAoishowstartyh, at24cxxReadOneByte eeprom packetAoishowstartyl)

/-- The exposure that a command asks for, or else the current one. -/
def requestedExposure (packet : SendPacket) (event : Event) (current : SendPacket) :
    UInt8 × UInt8 :=
  match event with
  | .setDetectpara =>
      if 2 ≤ packet.exposure ∧ packet.exposure ≤ 29999 then packet.exposureBytes
      else current.exposureBytes
  | .setParaReset => (.ofNat (300 >>> 8), .ofNat 300)
  | _ => current.exposureBytes

/-- The AOI start that a command asks for, or else the current one. -/
def requestedAoiStart (packet : SendPacket) (event : Event) (current : SendPacket) :
    UInt8 × UInt8 :=
  match event with
  | .setAoi | .getCaminfo =>
      if packet.aoiShowStartY ≤ 440 then packet.aoiStartBytes else current.aoiStartBytes
  | .setParaReset => (.ofNat (10 >>> 8), .ofNat 10)
  | _ => current.aoiStartBytes

/-- Equal exposures of two boards have equal bytes in RAM. -/
theorem exposureBytes_congr {first second : Board} (same : first.exposure = second.exposure) :
    first.currentCamPara.exposureBytes = second.currentCamPara.exposureBytes :=
  congrArg (fun view => (view.1, view.2.1)) same

/-- Equal AOI parameters of two boards have equal start bytes in RAM. -/
theorem aoiStartBytes_congr {first second : Board} (same : first.aoiShow = second.aoiShow) :
    first.currentCamPara.aoiStartBytes = second.currentCamPara.aoiStartBytes :=
  congrArg (fun view => (view.1.1, view.1.2.1)) same

section Arms
variable (packet : SendPacket) (board : Board)

/-- `SET_DETECTPARA` stores the exposure that it asks for. -/
theorem setDetectpara_exposureBytes :
    ((setDetectpara packet).exec board).currentCamPara.exposureBytes =
      requestedExposure packet .setDetectpara board.currentCamPara := by
  simp only [setDetectpara, Program.exec, ite_self]
  rw [storeExposure, Program.exec_only, requestedExposure]
  by_cases inRange : 2 ≤ packet.exposure ∧ packet.exposure ≤ 29999
  · rw [if_pos (by simpa using inRange), if_pos inRange]
    rfl
  · rw [if_neg (by simpa using inRange), if_neg inRange]

/-- Each command leaves the exposure that it asks for. -/
theorem switch_exposureBytes (event : Event) :
    ((switch packet event).exec board).currentCamPara.exposureBytes =
      requestedExposure packet event board.currentCamPara := by
  cases event with
  | watchImage => exact exposureBytes_congr ((watchImage_keeps packet).2.1.exec board)
  | setDetectpara => exact setDetectpara_exposureBytes packet board
  | setCamid => exact exposureBytes_congr ((setCamid_keeps packet).2.1.exec board)
  | getCamver => exact exposureBytes_congr (getCamver_keeps.2.2.exposure.exec board)
  | getCaminfo => exact exposureBytes_congr ((getCaminfo_keeps packet).exposure.exec board)
  | setStarty240 => exact exposureBytes_congr ((setStarty240_keeps packet).2.exposure.exec board)
  | setAoi => exact exposureBytes_congr ((setAoi_keeps packet).2.exposure.exec board)
  | setParaReset => rfl
  | other => rfl

/-- `SET_AOI` stores the start that it asks for. -/
theorem setAoi_aoiStartBytes :
    ((setAoi packet).exec board).currentCamPara.aoiStartBytes =
      requestedAoiStart packet .setAoi board.currentCamPara := by
  have window := setAoi_window packet board
  generalize ((setAoi packet).exec board).currentCamPara = after at window ⊢
  have start : bigEndian after.aoiStartBytes = requestedStart packet board.currentCamPara :=
    congrArg Prod.fst window
  apply bigEndian_inj.mp
  rw [start, requestedStart, requestedAoiStart]
  split <;> rfl

/-- Each command leaves the AOI start that it asks for. -/
theorem switch_aoiStartBytes (event : Event) :
    ((switch packet event).exec board).currentCamPara.aoiStartBytes =
      requestedAoiStart packet event board.currentCamPara := by
  cases event with
  | watchImage => exact aoiStartBytes_congr ((watchImage_keeps packet).2.2.2.1.exec board)
  | setDetectpara => exact aoiStartBytes_congr ((setDetectpara_keeps packet).2.2.1.exec board)
  | setCamid => exact aoiStartBytes_congr ((setCamid_keeps packet).2.2.1.exec board)
  | getCamver => exact aoiStartBytes_congr (getCamver_keeps.2.1.exec board)
  | getCaminfo =>
      obtain ⟨asked, _, equal, shown⟩ := getCaminfo_aoiShow packet board
      have start := aoiStartBytes_congr equal
      change ((getCaminfo packet).exec board).currentCamPara.aoiStartBytes = _
      rw [aoiStartBytes_congr shown, setAoi_aoiStartBytes, requestedAoiStart, start]
      rfl
  | setStarty240 => exact aoiStartBytes_congr ((setStarty240_keeps packet).1.exec board)
  | setAoi => exact setAoi_aoiStartBytes packet board
  | setParaReset => rfl
  | other => rfl

end Arms

/-- The default-address code holds the addresses of the camera and of its peer. -/
structure LwipDev where
  mac : Fin 6 → UInt8
  remoteip : Fin 4 → UInt8
  ip : Fin 4 → UInt8
  netmask : Fin 4 → UInt8
  gateway : Fin 4 → UInt8
  dhcpstatus : UInt8

/-- The boot takes the addresses from the serial number of the chip and from the identity. -/
def lwipCommDefaultIpSet (sn0 : UInt32) (para : SendPacket) : LwipDev where
  remoteip := ![192, 168, 1, 30]
  mac := ![2, 0, 0, (sn0 >>> 16 &&& 0xFF).toUInt8, (sn0 >>> 8 &&& 0xFFF).toUInt8,
    (sn0 &&& 0xFF).toUInt8]
  ip := ![192, 168, 1, 100 + para.id]
  netmask := ![255, 255, 255, 0]
  gateway := ![192, 168, 1, 1]
  dhcpstatus := 0

/-- The command handler admits these exposures. -/
def ExposureInside (bytes : UInt8 × UInt8) : Prop := 2 ≤ bigEndian bytes ∧ bigEndian bytes ≤ 29999

/-- The command handler admits these AOI starts. -/
def AoiStartInside (bytes : UInt8 × UInt8) : Prop := bigEndian bytes ≤ 440

/-- The command handler admits these identities. -/
def IdInside (id : UInt8) : Prop := 1 ≤ id ∧ id ≤ 20

instance (bytes : UInt8 × UInt8) : Decidable (ExposureInside bytes) :=
  inferInstanceAs (Decidable (_ ∧ _))

instance (bytes : UInt8 × UInt8) : Decidable (AoiStartInside bytes) :=
  inferInstanceAs (Decidable (_ ≤ _))

instance (id : UInt8) : Decidable (IdInside id) := inferInstanceAs (Decidable (_ ∧ _))

/-- A command asks for an exposure in range or keeps the current one. -/
theorem requestedExposure_inside (packet : SendPacket) (event : Event) {current : SendPacket}
    (inside : ExposureInside current.exposureBytes) :
    ExposureInside (requestedExposure packet event current) := by
  cases event with
  | setDetectpara =>
      rw [requestedExposure]
      split
      next asked => exact asked
      next => exact inside
  | setParaReset => exact show ExposureInside (.ofNat (300 >>> 8), .ofNat 300) by decide
  | _ => exact inside

/-- A command asks for an AOI start in range or keeps the current one. -/
theorem requestedAoiStart_inside (packet : SendPacket) (event : Event) {current : SendPacket}
    (inside : AoiStartInside current.aoiStartBytes) :
    AoiStartInside (requestedAoiStart packet event current) := by
  cases event with
  | setAoi | getCaminfo =>
      rw [requestedAoiStart]
      split
      next asked => exact asked
      next => exact inside
  | setParaReset => exact show AoiStartInside (.ofNat (10 >>> 8), .ofNat 10) by decide
  | _ => exact inside

/-- `SET_CAMID` writes an identity in range. -/
theorem writtenCamid_inside {block : Block} {id : UInt8} (written : writtenCamid block = some id) :
    IdInside id := by
  simp only [writtenCamid, Option.ite_none_right_eq_some, Option.some.injEq] at written
  obtain ⟨⟨_, low, high, _⟩, rfl⟩ := written
  rw [UInt8.lt_iff_toNat_lt] at low high
  change 0 < _ at low
  change _ < 21 at high
  rw [IdInside, UInt8.le_iff_toNat_le, UInt8.le_iff_toNat_le]
  change 1 ≤ _ ∧ _ ≤ 20
  omega

@[simp] theorem settings_exposureBytes (para : SendPacket) :
    para.settings.exposureBytes = para.exposureBytes := rfl

@[simp] theorem settings_aoiStartBytes (para : SendPacket) :
    para.settings.aoiStartBytes = para.aoiStartBytes := rfl

/-- Mirrored settings have equal exposures in RAM and EEPROM. -/
theorem Mirrored.exposure {board : Board} (mirrored : Mirrored board) :
    storedExposure board.eeprom = board.currentCamPara.exposureBytes :=
  congrArg SendPacket.exposureBytes mirrored.settings

/-- Mirrored settings have equal AOI starts in RAM and EEPROM. -/
theorem Mirrored.aoiStart {board : Board} (mirrored : Mirrored board) :
    storedAoiStart board.eeprom = board.currentCamPara.aoiStartBytes :=
  congrArg SendPacket.aoiStartBytes mirrored.settings

/-- The parameters of a running camera are in range. The EEPROM mirrors all but the identity. -/
structure RangeInvariant (board : Board) : Prop where
  mirrored : Mirrored board
  marked : board.eeprom addressMarker = 0x25
  exposure : ExposureInside board.currentCamPara.exposureBytes
  aoiStart : AoiStartInside board.currentCamPara.aoiStartBytes
  id : IdInside board.currentCamPara.id
  storedId : IdInside (board.eeprom packetId)

/-- The defaults are in range. -/
theorem RangeInvariant.firstBoot (memory : SendPacket) {eeprom : Eeprom}
    (fresh : eeprom addressMarker ≠ 0x25) : RangeInvariant (boot memory eeprom) := by
  have parts : (boot memory eeprom).currentCamPara.exposureBytes = (1, 44) ∧
      (boot memory eeprom).currentCamPara.aoiStartBytes = (0, 10) ∧
      (boot memory eeprom).currentCamPara.id = 1 ∧ (boot memory eeprom).eeprom packetId = 1 := by
    rw [boot_fresh memory fresh]
    exact ⟨rfl, rfl, rfl, rfl⟩
  obtain ⟨exposure, aoiStart, id, storedId⟩ := parts
  constructor
  · exact boot_mirrored memory eeprom
  · exact boot_marked memory eeprom
  · rw [exposure]
    decide
  · rw [aoiStart]
    decide
  · rw [id]
    decide
  · rw [storedId]
    decide

/-- Each command keeps the parameters in range. -/
theorem RangeInvariant.command {board : Board} (ranged : RangeInvariant board) (block : Block) :
    RangeInvariant ((udpDataprocess block).exec board) where
  mirrored := switch_mirrored _ _ board ranged.mirrored
  marked := ((switch_marker _ _).exec board).trans ranged.marked
  exposure := by
    rw [udpDataprocess, switch_exposureBytes]
    exact requestedExposure_inside _ _ ranged.exposure
  aoiStart := by
    rw [udpDataprocess, switch_aoiStartBytes]
    exact requestedAoiStart_inside _ _ ranged.aoiStart
  id := by
    have kept := (switch_id (.ofBlock block) (Block.event block)).exec board
    rw [udpDataprocess, kept]
    exact ranged.id
  storedId := by
    rw [udpDataprocess_storedId]
    cases written : writtenCamid block with
    | none => exact ranged.storedId
    | some id => exact writtenCamid_inside written

/-- A reboot loads parameters in range. -/
theorem RangeInvariant.reboot {board : Board} (ranged : RangeInvariant board)
    (memory : SendPacket) : RangeInvariant (boot memory board.eeprom) := by
  have loads := boot_marked_loads memory ranged.marked
  obtain ⟨_, settings, id, stored⟩ := ranged.mirrored.load memory
  rw [← loads] at settings id stored
  have exposure := congrArg SendPacket.exposureBytes settings
  have aoiStart := congrArg SendPacket.aoiStartBytes settings
  rw [settings_exposureBytes, settings_exposureBytes] at exposure
  rw [settings_aoiStartBytes, settings_aoiStartBytes] at aoiStart
  constructor
  · exact boot_mirrored memory board.eeprom
  · exact boot_marked memory board.eeprom
  · rw [exposure]
    exact ranged.exposure
  · rw [aoiStart]
    exact ranged.aoiStart
  · rw [id]
    exact ranged.storedId
  · rw [stored]
    exact ranged.storedId

/-- Each step of a run keeps the parameters in range. -/
theorem RangeInvariant.step {board after : Board} {action : Action}
    (ranged : RangeInvariant board) (stepped : parameterSystem.step board action = some after) :
    RangeInvariant after := by
  cases action with
  | command block =>
      obtain rfl : (udpDataprocess block).exec board = after := Option.some.inj stepped
      exact ranged.command block
  | reboot memory =>
      obtain rfl : boot memory board.eeprom = after := Option.some.inj stepped
      exact ranged.reboot memory

/-- An identity in range gives the last byte of the address its range. -/
theorem lwipCommDefaultIpSet_ip (sn0 : UInt32) {para : SendPacket} (inside : IdInside para.id) :
    101 ≤ (lwipCommDefaultIpSet sn0 para).ip 3 ∧ (lwipCommDefaultIpSet sn0 para).ip 3 ≤ 120 := by
  change 101 ≤ 100 + para.id ∧ 100 + para.id ≤ 120
  obtain ⟨low, high⟩ := inside
  rw [UInt8.le_iff_toNat_le] at low high
  rw [UInt8.le_iff_toNat_le, UInt8.le_iff_toNat_le, UInt8.toNat_add]
  change 1 ≤ _ at low
  change _ ≤ 20 at high
  change 101 ≤ (100 + _) % 256 ∧ (100 + _) % 256 ≤ 120
  omega

/-- Over all commands and reboots after a first boot, the exposure, the start row, the AOI start
and the identity stay in range in RAM and in the EEPROM, and so does the address of the camera. -/
theorem parameters_inside {eeprom : Eeprom} {memory : SendPacket} {board : Board}
    (fresh : eeprom addressMarker ≠ 0x25)
    (reached : parameterSystem.Reachable (boot memory eeprom) board) :
    (ExposureInside board.currentCamPara.exposureBytes ∧
      ExposureInside (storedExposure board.eeprom)) ∧
    (board.startY240 ≤ 240 ∧ at24cxxReadOneByte board.eeprom addressStarty240 ≤ 240) ∧
    (AoiStartInside board.currentCamPara.aoiStartBytes ∧
      AoiStartInside (storedAoiStart board.eeprom)) ∧
    (IdInside board.currentCamPara.id ∧ IdInside (at24cxxReadOneByte board.eeprom packetId)) ∧
    ∀ sn0, 101 ≤ (lwipCommDefaultIpSet sn0 board.currentCamPara).ip 3 ∧
      (lwipCommDefaultIpSet sn0 board.currentCamPara).ip 3 ≤ 120 := by
  have ranged : RangeInvariant board :=
    reached.invariant (.firstBoot memory fresh) fun _ _ _ ranged _ stepped => ranged.step stepped
  have mirrored := ranged.mirrored
  rw [mirrored.exposure, mirrored.aoiStart, mirrored.startRow]
  exact ⟨⟨ranged.exposure, ranged.exposure⟩, ⟨mirrored.rowInside, mirrored.rowInside⟩,
    ⟨ranged.aoiStart, ranged.aoiStart⟩, ⟨ranged.id, ranged.storedId⟩,
    fun sn0 => lwipCommDefaultIpSet_ip sn0 ranged.id⟩

/-- A first boot from an EEPROM of zeros starts such a run. -/
theorem parameters_inside_zeroBoot :
    zeroBoot.startY240 ≤ 240 ∧ ExposureInside (storedExposure zeroBoot.eeprom) := by
  have fresh : (fun _ => 0 : Eeprom) addressMarker ≠ 0x25 := by decide
  have reached : parameterSystem.Reachable zeroBoot zeroBoot := .start
  have inside := parameters_inside fresh reached
  exact ⟨inside.2.1.1, inside.1.2⟩

end NnpCamera.Parameters
