/-
This file compares a factory reset with the first boot.
-/

import NnpCamera.Parameters.Settings

namespace NnpCamera.Parameters
open Library Board

/-- The fields that the load branch assigns besides the identity and the tables. -/
def SendPacket.factory (para : SendPacket) : SendPacket :=
  { para.settings with
    status := para.status
    openclothstart := fun _ => 0
    openclothend := fun _ => 0 }

/-- Packets with equal settings differ in their status only. -/
theorem factory_congr {first second : SendPacket} (same : first.settings = second.settings)
    (status : UInt8) :
    { first.factory with status := status } = { second.factory with status := status } :=
  congrArg (fun settings : SendPacket => { settings with
    status := status
    openclothstart := fun _ => 0
    openclothend := fun _ => 0 }) same

/-- The reset and the first boot give the same values to these fields in RAM. -/
theorem setParaReset_factory (board first : Board) :
    (setParaReset.exec board).currentCamPara.factory =
      (firstBootBranch.exec first).currentCamPara.factory := rfl

/-- No command writes the status byte of the EEPROM. -/
theorem switch_storedStatus (packet : SendPacket) (event : Event) :
    (switch packet event).Keeps fun board => board.eeprom packetStatus := by
  cases event <;>
    simp [switch, watchImage, setDetectpara, storeExposure, setCamid, getCamver, getCaminfo,
      setStarty240, setAoi, aoiStart, storeAoiStart, aoiHeight, storeAoiHeight, setParaReset,
      headDefaults, imageDefaults, detectDefaults, store, save, write, cmosSetShutter,
      netsendFifoWrite, at24cxxWriteOneByte]

/-- No boot writes the status byte of the EEPROM, not even the first one. -/
theorem boot_storedStatus (memory : SendPacket) (eeprom : Eeprom) :
    (boot memory eeprom).eeprom packetStatus = eeprom packetStatus := by
  rw [boot, initCamParaPacket, Program.exec]
  split
  · rw [loadBranch_exec, limitStartY240, Program.exec_only]
    split <;> rfl
  · rfl

theorem commands_storedStatus (board : Board) (blocks : List Block) :
    (commands board blocks).eeprom packetStatus = board.eeprom packetStatus := by
  induction blocks generalizing board with
  | nil => rfl
  | cons block rest ih =>
      have kept := (switch_storedStatus (SendPacket.ofBlock block) (Block.event block)).exec board
      exact (ih _).trans kept

/-- The status of a load comes from the EEPROM. -/
theorem loadBranch_status (board : Board) :
    (loadBranch.exec board).currentCamPara.status = board.eeprom packetStatus := by
  rw [loadBranch_exec, limitStartY240, Program.exec_only]
  split <;> rfl

/-- After a reset and a reboot, all these fields but the status have the values of the first boot.
The start row and the status have them exactly when they had them before the reset. -/
theorem factoryReset (memory other packet : SendPacket) (eeprom : Eeprom) (blocks : List Block)
    (first : Board) :
    let board := commands (boot memory eeprom) blocks
    let reset := (switch packet .setParaReset).exec board
    let loaded := loadBranch.exec (powerOn other reset.eeprom)
    let factory := firstBootBranch.exec first
    boot other reset.eeprom = loaded ∧
      { loaded.currentCamPara.factory with status := 0 } = factory.currentCamPara.factory ∧
      ((loaded.startY240 = factory.startY240 ∧
          loaded.currentCamPara.factory = factory.currentCamPara.factory) ↔
        board.startY240 = 120 ∧ eeprom packetStatus = 0) := by
  intro board reset loaded factory
  have running := Running.commands memory eeprom blocks
  have marked : reset.eeprom addressMarker = 0x25 :=
    ((switch_marker packet .setParaReset).exec board).trans running.marked
  obtain ⟨row, settings, _, _⟩ := (setParaReset_mirrored board running.mirrored).load other
  have status : loaded.currentCamPara.status = eeprom packetStatus := by
    have kept := (switch_storedStatus packet .setParaReset).exec board
    have before := commands_storedStatus (boot memory eeprom) blocks
    exact (loadBranch_status _).trans (kept.trans (before.trans (boot_storedStatus _ _)))
  have restored : loaded.currentCamPara.factory =
      { factory.currentCamPara.factory with status := eeprom packetStatus } := by
    have same := factory_congr settings (eeprom packetStatus)
    rw [setParaReset_factory board first] at same
    rw [← same, ← status]
    rfl
  have sameRow : loaded.startY240 = board.startY240 := row
  refine ⟨boot_marked_loads other marked, ?_, ?_⟩
  · rw [restored]
    rfl
  · rw [sameRow, restored]
    constructor
    · intro ⟨default, same⟩
      exact ⟨default, congrArg SendPacket.status same⟩
    · intro ⟨default, clear⟩
      rw [clear]
      exact ⟨default, rfl⟩

/-- This `SET_STARTY240` block asks for one start row. -/
def startRowBlock (startY240 : UInt8) : Block := fun index =>
  if index = 3 then 16 else if index = 73 then startY240 else 0

/-- This EEPROM is marked and holds one status. -/
def markedEeprom (status : UInt8) : Eeprom := fun address =>
  if address = addressMarker then 0x25 else if address = packetStatus then status else 0

/-- The start row 50 of an earlier command survives the reset, and so does a stored status. -/
theorem factoryReset_survivors :
    let memory := SendPacket.ofBlock fun _ => 0
    let reset (status : UInt8) (blocks : List Block) : Board :=
      setParaReset.exec (commands (boot memory (markedEeprom status)) blocks)
    let factory := firstBootBranch.exec (powerOn memory fun _ => 0)
    (boot memory (reset 0 [startRowBlock 50]).eeprom).startY240 = 50 ∧
      factory.startY240 = 120 ∧
      (boot memory (reset 255 [startRowBlock 120]).eeprom).currentCamPara.status = 255 ∧
      factory.currentCamPara.status = 0 := by
  decide +kernel

end NnpCamera.Parameters
