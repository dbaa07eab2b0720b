/-
This file shows that a first boot survives each loss of power.
-/

import NnpCamera.Parameters.Ranges
import NnpCamera.Parameters.Writes

namespace NnpCamera.Parameters
open Library Board

/-- The writes of one boot. -/
def bootWrites (eeprom : Eeprom) : Writes :=
  if at24cxxReadOneByte eeprom addressMarker == 0x25 then loadWrites eeprom else firstBootWrites

theorem initCamParaPacket_logs (board : Board) :
    Logs eeprom initCamParaPacket board (bootWrites board.eeprom) := by
  apply Logs.branch
  rw [bootWrites]
  split
  · exact loadBranch_logs board
  · exact firstBootBranch_logs board

/-- A boot leaves the EEPROM that its writes give. -/
theorem boot_eeprom (memory : SendPacket) (eeprom : Eeprom) :
    (boot memory eeprom).eeprom = (bootWrites eeprom).replay eeprom :=
  (initCamParaPacket_logs (powerOn memory eeprom)).exec

/-- A boot that loses power leaves this EEPROM. The cut gives the memory contents and the number
of accesses before the loss. -/
def interruptedBoot (eeprom : Eeprom) (cut : SendPacket × Nat) : Eeprom :=
  (initCamParaPacket.execFor cut.2 (powerOn cut.1 eeprom)).eeprom

/-- An interrupted boot makes the first of its writes. -/
theorem interruptedBoot_eeprom (eeprom : Eeprom) (cut : SendPacket × Nat) :
    ∃ count, interruptedBoot eeprom cut =
      WriteLog.replay ((bootWrites eeprom).take count) eeprom :=
  (initCamParaPacket_logs (powerOn cut.1 eeprom)).execFor cut.2

/-- A boot can lose power after each number of its writes. -/
theorem interruptedBoot_cut (memory : SendPacket) (eeprom : Eeprom) (count : Nat) :
    ∃ steps, interruptedBoot eeprom (memory, steps) =
      WriteLog.replay ((bootWrites eeprom).take count) eeprom :=
  (initCamParaPacket_logs (powerOn memory eeprom)).cut count

/-- No default goes to the marker. -/
theorem defaultWrites_marker : addressMarker ∉ defaultWrites.addresses := by
  decide +kernel

/-- The writes of the first-boot branch leave a start row in range. -/
theorem firstBootWrites_startRow (eeprom : Eeprom) :
    at24cxxReadOneByte (firstBootWrites.replay eeprom) addressStarty240 = 120 := by
  rfl

/-- The first-boot branch can still lead to the target, and a marked EEPROM is the target. -/
structure Recoverable (target eeprom : Eeprom) : Prop where
  completes : firstBootWrites.replay eeprom = target
  committed : eeprom addressMarker = 0x25 → eeprom = target

/-- An unmarked EEPROM can lead to its own first boot. -/
theorem Recoverable.fresh {eeprom : Eeprom} (fresh : eeprom addressMarker ≠ 0x25) :
    Recoverable (firstBootWrites.replay eeprom) eeprom where
  completes := rfl
  committed marked := absurd marked fresh

/-- The load branch writes nothing to the target. -/
theorem Recoverable.loadWrites {target eeprom : Eeprom} (recoverable : Recoverable target eeprom)
    (marked : eeprom addressMarker = 0x25) : loadWrites eeprom = [] := by
  have row := firstBootWrites_startRow eeprom
  rw [recoverable.completes, ← recoverable.committed marked] at row
  rw [Parameters.loadWrites, row]
  exact if_neg (by decide)

/-- Each prefix of the writes of a boot leads to the same target. -/
theorem Recoverable.take {target eeprom : Eeprom} (recoverable : Recoverable target eeprom)
    (count : Nat) :
    Recoverable target (WriteLog.replay ((bootWrites eeprom).take count) eeprom) := by
  by_cases marked : eeprom addressMarker = 0x25
  · have load : bootWrites eeprom = [] :=
      (if_pos (beq_iff_eq.mpr marked)).trans (recoverable.loadWrites marked)
    rw [load, List.take_nil]
    exact recoverable
  · have first : bootWrites eeprom = firstBootWrites :=
      if_neg fun same => marked (beq_iff_eq.mp same)
    rw [first]
    constructor
    · rw [WriteLog.replay_take]
      exact recoverable.completes
    · intro committed
      rw [← recoverable.completes]
      exact WriteLog.replay_take_commit defaultWrites_marker count marked committed

/-- Each interrupted boot leads to the same target. -/
theorem Recoverable.interrupted {target eeprom : Eeprom}
    (recoverable : Recoverable target eeprom) (cuts : List (SendPacket × Nat)) :
    Recoverable target (cuts.foldl interruptedBoot eeprom) := by
  induction cuts generalizing eeprom with
  | nil => exact recoverable
  | cons cut rest ih =>
      obtain ⟨count, cutShort⟩ := interruptedBoot_eeprom eeprom cut
      rw [List.foldl_cons, cutShort]
      exact ih (recoverable.take count)

/-- A complete boot leaves the target. -/
theorem Recoverable.boot {target eeprom : Eeprom} (recoverable : Recoverable target eeprom)
    (memory : SendPacket) : (boot memory eeprom).eeprom = target := by
  rw [boot_eeprom, bootWrites]
  split
  next marked =>
    have stored : eeprom addressMarker = 0x25 := beq_iff_eq.mp marked
    rw [recoverable.loadWrites stored, WriteLog.replay_nil]
    exact recoverable.committed stored
  next => exact recoverable.completes

/-- Two mirrored boards with one EEPROM have the same settings in force. -/
theorem Mirrored.agree {first second : Board} (one : Mirrored first) (two : Mirrored second)
    (same : first.eeprom = second.eeprom) :
    first.startY240 = second.startY240 ∧
      first.currentCamPara.settings = second.currentCamPara.settings := by
  constructor
  · rw [← one.startRow, ← two.startRow, same]
  · rw [← one.settings, ← two.settings, same]
    exact reload_settings _ _ _

/-- After any boots that lose power, the next complete boot leaves each EEPROM byte and each
setting as an undisturbed first boot does. -/
theorem firstBoot_restartable {eeprom : Eeprom} (fresh : eeprom addressMarker ≠ 0x25)
    (memory other : SendPacket) (cuts : List (SendPacket × Nat)) :
    let undisturbed := boot memory eeprom
    let final := boot other (cuts.foldl interruptedBoot eeprom)
    final.eeprom = undisturbed.eeprom ∧ final.startY240 = undisturbed.startY240 ∧
      final.currentCamPara.settings = undisturbed.currentCamPara.settings ∧
      final.currentCamPara.id = undisturbed.currentCamPara.id := by
  have undisturbed := Recoverable.fresh fresh
  have same := ((undisturbed.interrupted cuts).boot other).trans (undisturbed.boot memory).symm
  obtain ⟨row, settings⟩ := (boot_mirrored other _).agree (boot_mirrored memory eeprom) same
  have finalId := (Running.boot other (cuts.foldl interruptedBoot eeprom)).storedId
  have undisturbedId := (Running.boot memory eeprom).storedId
  rw [same] at finalId
  exact ⟨same, row, settings, finalId.symm.trans undisturbedId⟩

/-- A first boot of an EEPROM of zeros that loses power twice still ends as an undisturbed one. -/
theorem firstBoot_restartable_zeros :
    let memory := SendPacket.ofBlock fun _ => 0
    (boot memory ([(memory, 9), (memory, 30)].foldl interruptedBoot fun _ => 0)).eeprom =
      (boot memory fun _ => 0).eeprom :=
  (firstBoot_restartable (by decide) _ _ _).1

end NnpCamera.Parameters
