/-
This file bounds the AOI window over all runs of commands and reboots.
-/

import NnpCamera.Parameters.Boot
import NnpCamera.Parameters.FrameLaw

namespace NnpCamera.Parameters
open Library Board

/-- The start row and the height of the AOI. -/
def SendPacket.aoiWindow (packet : SendPacket) : UInt16 × UInt8 :=
  (packet.aoiShowStartY, packet.aoishowheight)

/-- A block keeps the current start unless its own start is in range. -/
def requestedStart (packet current : SendPacket) : UInt16 :=
  if packet.aoiShowStartY ≤ 440 then packet.aoiShowStartY else current.aoiShowStartY

/-- A block keeps the current height unless its own height is in range. -/
def requestedHeight (packet current : SendPacket) : UInt8 :=
  if 48 ≤ packet.aoishowheight then packet.aoishowheight else current.aoishowheight

/-- The window lies inside the 480 image rows. -/
def Inside (window : UInt16 × UInt8) : Prop := window.1.toNat + window.2.toNat ≤ 480

instance (window : UInt16 × UInt8) : Decidable (Inside window) :=
  inferInstanceAs (Decidable (_ ≤ _))

section Arms
variable (packet : SendPacket) (board : Board)

/-- The first part of `SET_AOI` stores the requested start and keeps the height. -/
theorem aoiStart_window :
    ((aoiStart packet).exec board).currentCamPara.aoiWindow =
      (requestedStart packet board.currentCamPara, board.currentCamPara.aoishowheight) := by
  rw [aoiStart, Program.exec_only]
  split
  next test =>
    have inRange : packet.aoiShowStartY ≤ 440 := by simp at test; exact test.1
    rw [requestedStart, if_pos inRange]
    rfl
  next test =>
    by_cases inRange : packet.aoiShowStartY ≤ 440
    · have same : packet.aoiShowStartY = board.currentCamPara.aoiShowStartY := by
        simpa [inRange] using test
      rw [requestedStart, if_pos inRange, same]
      rfl
    · rw [requestedStart, if_neg inRange]
      rfl

/-- The second part of `SET_AOI` stores the requested height and keeps the start. -/
theorem aoiHeight_window :
    ((aoiHeight packet).exec board).currentCamPara.aoiWindow =
      (board.currentCamPara.aoiShowStartY, requestedHeight packet board.currentCamPara) := by
  rw [aoiHeight, Program.exec_only]
  split
  next test =>
    have inRange : 48 ≤ packet.aoishowheight := by simp at test; exact test.1.1
    rw [requestedHeight, if_pos inRange]
    rfl
  next test =>
    by_cases inRange : 48 ≤ packet.aoishowheight
    · have same : packet.aoishowheight = board.currentCamPara.aoishowheight := by
        have top : packet.aoishowheight ≤ 255 := by
          have := packet.aoishowheight.toNat_lt
          rw [UInt8.le_iff_toNat_le]
          change _ ≤ 255
          omega
        simpa [inRange, top] using test
      rw [requestedHeight, if_pos inRange, same]
      rfl
    · rw [requestedHeight, if_neg inRange]
      rfl

/-- `SET_AOI` stores the requested window. -/
theorem setAoi_window :
    ((setAoi packet).exec board).currentCamPara.aoiWindow =
      (requestedStart packet board.currentCamPara, requestedHeight packet board.currentCamPara) := by
  have start := aoiStart_window packet board
  rw [SendPacket.aoiWindow, Prod.mk.injEq] at start
  rw [setAoi, Program.exec_append, aoiHeight_window, start.1, requestedHeight, start.2,
    requestedHeight]

/-- RAM and EEPROM agree on the AOI show parameters. -/
def Coherent (board : Board) : Prop := board.aoiShow.1 = board.aoiShow.2

section Coherence
variable (coherent : Coherent board)
include coherent

theorem aoiStart_coherent : Coherent ((aoiStart packet).exec board) := by
  simp only [Coherent, Board.aoiShow, Prod.mk.injEq] at coherent
  obtain ⟨high, low, height⟩ := coherent
  rw [aoiStart, Program.exec_only]
  split
  · simp [Coherent, Board.aoiShow, storeAoiStart, Program.acts, store, save,
      at24cxxWriteOneByte, height]
  · simp [Coherent, Board.aoiShow, high, low, height]

theorem aoiHeight_coherent : Coherent ((aoiHeight packet).exec board) := by
  simp only [Coherent, Board.aoiShow, Prod.mk.injEq] at coherent
  obtain ⟨high, low, height⟩ := coherent
  rw [aoiHeight, Program.exec_only]
  split
  · simp [Coherent, Board.aoiShow, storeAoiHeight, Program.acts, store, save,
      at24cxxWriteOneByte, high, low]
  · simp [Coherent, Board.aoiShow, high, low, height]

/-- `SET_AOI` writes each byte that it changes to RAM and to the EEPROM. -/
theorem setAoi_coherent : Coherent ((setAoi packet).exec board) := by
  rw [setAoi, Program.exec_append]
  exact aoiHeight_coherent packet _ (aoiStart_coherent packet board coherent)

end Coherence

/-- `GET_CAMINFO` changes the AOI show parameters as `SET_AOI` does from an equal window. -/
theorem getCaminfo_aoiShow :
    ∃ asked : Board, asked.eeprom = board.eeprom ∧ asked.aoiShow = board.aoiShow ∧
      ((getCaminfo packet).exec board).aoiShow = ((setAoi packet).exec asked).aoiShow := by
  refine ⟨(Program.acts [
    store ({ · with event := 23 }),
    store ({ · with data1 := camVer }),
    fun board => store ({ · with data2 := board.startY240 }) board,
    store ({ · with data3 := 0 })]).exec board, rfl, rfl, ?_⟩
  simp only [getCaminfo, setAoi, Program.exec_append]
  rw [(setStarty240_keeps packet).1.exec]
  rfl

end Arms

theorem setParaReset_aoiShow (board : Board) :
    (setParaReset.exec board).aoiShow = ((0, 10, 32), (0, 10, 32)) := by
  rfl

theorem firstBootBranch_aoiShow (board : Board) :
    (firstBootBranch.exec board).aoiShow = ((0, 10, 32), (0, 10, 32)) := by
  rfl

/-- The load branch copies the AOI show parameters from the EEPROM. -/
theorem loadBranch_aoiShow (board : Board) :
    (loadBranch.exec board).aoiShow = (board.aoiShow.2, board.aoiShow.2) := by
  rw [loadBranch, Program.exec_append, Program.exec_only]
  split <;> rfl

/-- Each command keeps the marker of an initialised EEPROM. -/
theorem switch_marker (packet : SendPacket) (event : Event) :
    (switch packet event).Keeps fun board => board.eeprom addressMarker := by
  cases event <;>
    simp [switch, watchImage, setDetectpara, storeExposure, setCamid, getCamver, getCaminfo,
      setStarty240, setAoi, aoiStart, storeAoiStart, aoiHeight, storeAoiHeight, setParaReset, headDefaults,
      imageDefaults, detectDefaults, store, save, write, cmosSetShutter, netsendFifoWrite,
      at24cxxWriteOneByte]

/-- The AOI window of a board lies inside the image, in RAM and in a marked EEPROM. -/
structure WindowInvariant (board : Board) : Prop where
  marked : board.eeprom addressMarker = 0x25
  coherent : Coherent board
  inside : Inside board.currentCamPara.aoiWindow

/-- The window is a part of the AOI show parameters. -/
theorem aoiWindow_congr {first second : Board} (same : first.aoiShow = second.aoiShow) :
    first.currentCamPara.aoiWindow = second.currentCamPara.aoiWindow := by
  simp only [Board.aoiShow, Prod.mk.injEq] at same
  obtain ⟨⟨high, low, height⟩, _⟩ := same
  rw [SendPacket.aoiWindow, SendPacket.aoiShowStartY, high, low, height]
  rfl

/-- The invariant reads the marker and the AOI show parameters only. -/
theorem WindowInvariant.transfer {board after : Board} (sound : WindowInvariant board)
    (marked : after.eeprom addressMarker = board.eeprom addressMarker)
    (same : after.aoiShow = board.aoiShow) : WindowInvariant after where
  marked := marked.trans sound.marked
  coherent := by
    have coherent := sound.coherent
    rwa [Coherent, ← same] at coherent
  inside := by
    rw [aoiWindow_congr same]
    exact sound.inside

/-- The defaults of the reset and of the first boot give the rows 10 to 41. -/
theorem WindowInvariant.defaults {board : Board} (marked : board.eeprom addressMarker = 0x25)
    (shown : board.aoiShow = ((0, 10, 32), (0, 10, 32))) : WindowInvariant board where
  marked := marked
  coherent := by rw [Coherent, shown]
  inside := by
    simp only [Board.aoiShow, Prod.mk.injEq] at shown
    obtain ⟨⟨high, low, height⟩, _⟩ := shown
    rw [SendPacket.aoiWindow, SendPacket.aoiShowStartY, high, low, height]
    decide

/-- This block asks for a window that lies inside the image. -/
def AsksInside (packet : SendPacket) (board : Board) : Prop :=
  Inside (requestedStart packet board.currentCamPara, requestedHeight packet board.currentCamPara)

/-- `SET_AOI` keeps the invariant when the requested window lies inside the image. -/
theorem WindowInvariant.setAoi {packet : SendPacket} {board : Board}
    (sound : WindowInvariant board) (asks : AsksInside packet board) :
    WindowInvariant ((setAoi packet).exec board) where
  marked := ((switch_marker packet .setAoi).exec board).trans sound.marked
  coherent := setAoi_coherent packet board sound.coherent
  inside := by
    rw [setAoi_window]
    exact asks

/-- Each command keeps the invariant when a window that it requests lies inside the image. -/
theorem WindowInvariant.switch {packet : SendPacket} {event : Event} {board : Board}
    (sound : WindowInvariant board)
    (asks : event = .setAoi ∨ event = .getCaminfo → AsksInside packet board) :
    WindowInvariant ((switch packet event).exec board) := by
  have marked := (switch_marker packet event).exec board
  cases event with
  | watchImage => exact sound.transfer marked ((watchImage_keeps packet).2.2.2.1.exec board)
  | setDetectpara => exact sound.transfer marked ((setDetectpara_keeps packet).2.2.1.exec board)
  | setCamid => exact sound.transfer marked ((setCamid_keeps packet).2.2.1.exec board)
  | getCamver => exact sound.transfer marked (getCamver_keeps.2.1.exec board)
  | setStarty240 => exact sound.transfer marked ((setStarty240_keeps packet).1.exec board)
  | setAoi => exact sound.setAoi (asks (.inl rfl))
  | getCaminfo =>
      obtain ⟨asked, stored, equal, shown⟩ := getCaminfo_aoiShow packet board
      have window := aoiWindow_congr equal
      rw [SendPacket.aoiWindow, SendPacket.aoiWindow, Prod.mk.injEq] at window
      have asksNow : AsksInside packet asked := by
        have inside := asks (.inr rfl)
        rwa [AsksInside, requestedStart, requestedHeight, ← window.1, ← window.2] at inside
      have soundAsked := sound.transfer (congrFun stored addressMarker) equal
      exact (soundAsked.setAoi asksNow).transfer
        (marked.trans (sound.marked.trans (soundAsked.setAoi asksNow).marked.symm)) shown
  | setParaReset =>
      exact .defaults (marked.trans sound.marked) (setParaReset_aoiShow board)
  | other => exact sound

/-- The load branch keeps the marker. -/
theorem loadBranch_marker : loadBranch.Keeps fun board => board.eeprom addressMarker := by
  simp [loadBranch, headDefaults, clothEntries, store, load, write, at24cxxWriteOneByte]

/-- A boot from an EEPROM that satisfies the invariant loads the same window. -/
theorem WindowInvariant.boot {board : Board} (sound : WindowInvariant board)
    (memory : SendPacket) : WindowInvariant (boot memory board.eeprom) := by
  have marked : (at24cxxReadOneByte (powerOn memory board.eeprom).eeprom addressMarker == 0x25) =
      true := beq_iff_eq.mpr sound.marked
  have loads : Parameters.boot memory board.eeprom =
      loadBranch.exec (powerOn memory board.eeprom) := by
    rw [Parameters.boot, initCamParaPacket, Program.exec, if_pos marked]
  have coherent : board.aoiShow = (board.aoiShow.2, board.aoiShow.2) :=
    Prod.ext sound.coherent rfl
  apply sound.transfer
  · rw [loads]
    exact loadBranch_marker.exec _
  · rw [loads, loadBranch_aoiShow, coherent]
    rfl

/-- A first boot establishes the invariant. -/
theorem WindowInvariant.firstBoot {eeprom : Eeprom} (fresh : eeprom addressMarker ≠ 0x25)
    (memory : SendPacket) : WindowInvariant (Parameters.boot memory eeprom) := by
  have unmarked : ¬ (at24cxxReadOneByte (powerOn memory eeprom).eeprom addressMarker == 0x25) =
      true := by
    rw [beq_iff_eq]
    exact fresh
  have initialises : Parameters.boot memory eeprom =
      firstBootBranch.exec (powerOn memory eeprom) := by
    rw [Parameters.boot, initCamParaPacket, Program.exec, if_neg unmarked]
  rw [initialises]
  exact .defaults rfl (firstBootBranch_aoiShow _)

/-- Each block that sets the AOI asks for a window inside the image. -/
def AsksOnlyInside (board : Board) : Action → Prop
  | .command block =>
      Block.event block = .setAoi ∨ Block.event block = .getCaminfo →
        AsksInside (SendPacket.ofBlock block) board
  | .reboot _ => True

/-- Each complete command and each boot keeps the invariant. -/
theorem WindowInvariant.step {board after : Board} {action : Action}
    (sound : WindowInvariant board) (asks : AsksOnlyInside board action)
    (stepped : parameterSystem.step board action = some after) : WindowInvariant after := by
  cases action with
  | command block =>
      obtain rfl : (udpDataprocess block).exec board = after := Option.some.inj stepped
      exact sound.switch asks
  | reboot memory =>
      obtain rfl : Parameters.boot memory board.eeprom = after := Option.some.inj stepped
      exact sound.boot memory

/-- A window inside the image has two packets for each of its rows. -/
theorem Inside.packets {packet : SendPacket} (inside : Inside packet.aoiWindow) :
    packet.udpDetectYStartPacketIndex.toNat = 2 * packet.aoiShowStartY.toNat ∧
      packet.udpPacketCount.toNat = 2 * packet.aoishowheight.toNat := by
  have rows : packet.aoiShowStartY.toNat + packet.aoishowheight.toNat ≤ 480 := inside
  have small := packet.aoishowheight.toNat_lt
  constructor
  · simp [SendPacket.udpDetectYStartPacketIndex, UInt16.toNat_shiftLeft, Nat.shiftLeft_eq]
    omega
  · simp [SendPacket.udpPacketCount, UInt16.toNat_shiftLeft, Nat.shiftLeft_eq]
    omega

/-- A window inside the image gives mode 3 only packet indices below 960. -/
theorem Inside.packetIndex {packet : SendPacket} (inside : Inside packet.aoiWindow)
    (index : Nat) (counted : index < packet.udpPacketCount.toNat) :
    packet.udpDetectYStartPacketIndex.toNat + index < 960 := by
  have rows : packet.aoiShowStartY.toNat + packet.aoishowheight.toNat ≤ 480 := inside
  obtain ⟨first, count⟩ := inside.packets
  omega

/-- When each block asks for a window inside the image, the AOI window stays inside the image
over all commands and reboots after a first boot. -/
theorem aoiWindow_inside {eeprom : Eeprom} {memory : SendPacket} {board : Board}
    (fresh : eeprom addressMarker ≠ 0x25)
    (reached : parameterSystem.Reaches AsksOnlyInside (boot memory eeprom) board) :
    Inside board.currentCamPara.aoiWindow ∧
      ∀ index < board.currentCamPara.udpPacketCount.toNat,
        board.currentCamPara.udpDetectYStartPacketIndex.toNat + index < 960 := by
  have sound : WindowInvariant board :=
    reached.invariant (.firstBoot fresh memory) fun _ _ _ sound asks stepped =>
      sound.step asks stepped
  exact ⟨sound.inside, sound.inside.packetIndex⟩

/-- This `SET_AOI` block asks for one window. -/
def aoiBlock (startHigh startLow height : UInt8) : Block := fun index =>
  if index = 3 then 24
  else if index = 22 then height
  else if index = 25 then startHigh
  else if index = 26 then startLow
  else 0

/-- A first boot from an EEPROM of zeros. -/
def zeroBoot : Board := boot (SendPacket.ofBlock fun _ => 0) fun _ => 0

/-- A window of 48 rows that starts at row 10 stays inside the image. -/
theorem aoiWindow_inside_setAoi :
    Inside ((udpDataprocess (aoiBlock 0 10 48)).exec zeroBoot).currentCamPara.aoiWindow := by
  have asks : AsksOnlyInside zeroBoot (.command (aoiBlock 0 10 48)) := by
    intro _
    change _ ≤ _
    decide +kernel
  have fresh : (fun _ => 0 : Eeprom) addressMarker ≠ 0x25 := by decide
  exact (aoiWindow_inside fresh (.next .start asks rfl)).1

/-- The two range checks admit the start 440 with the height 255, which ends at row 695. -/
theorem aoiWindow_outside :
    ∃ board, parameterSystem.Reachable zeroBoot board ∧
      board.currentCamPara.aoiWindow = (440, 255) ∧ ¬ Inside board.currentCamPara.aoiWindow := by
  have stepped : parameterSystem.step zeroBoot (.command (aoiBlock 1 184 255)) =
      some ((udpDataprocess (aoiBlock 1 184 255)).exec zeroBoot) := rfl
  refine ⟨_, .next .start trivial stepped, ?_, ?_⟩
  · decide +kernel
  · decide +kernel

end NnpCamera.Parameters
