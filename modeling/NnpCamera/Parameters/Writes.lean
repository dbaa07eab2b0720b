/-
This file lists the single EEPROM writes of each command and of each boot branch.
-/

import NnpCamera.Library.WriteLog
import NnpCamera.Parameters.Settings

namespace NnpCamera.Parameters
open Library Board

/-- A list of single EEPROM writes. -/
abbrev Writes := WriteLog UInt8 UInt8

/-- Both arms of `SET_DETECTPARA` write the exposure with its high byte first. -/
def exposureWrites (packet : SendPacket) : Writes :=
  if 2 ≤ packet.exposure && packet.exposure ≤ 29999 then
    [(packetExposureh, packet.exposureh), (packetExposureh + 1, packet.exposurel)]
  else []

/-- `SET_CAMID` writes one byte. -/
def camidWrites (packet : SendPacket) : Writes :=
  if 0 < packet.changeid && packet.changeid < 21 && packet.changeid != packet.id then
    [(packetId, packet.changeid)]
  else []

/-- A changed AOI start is written with its high byte first. -/
def aoiStartWrites (packet current : SendPacket) : Writes :=
  if packet.aoiShowStartY ≤ 440 && packet.aoiShowStartY != current.aoiShowStartY then
    [(packetAoishowstartyh, packet.aoishowstartyh), (packetAoishowstartyl, packet.aoishowstartyl)]
  else []

/-- A changed AOI height is one byte. -/
def aoiHeightWrites (packet current : SendPacket) : Writes :=
  if 48 ≤ packet.aoishowheight && packet.aoishowheight ≤ 255 &&
      packet.aoishowheight != current.aoishowheight then
    [(packetAoishowheight, packet.aoishowheight)]
  else []

/-- A start row is one byte. -/
def startY240Writes (packet : SendPacket) : Writes :=
  if packet.data1 ≤ 240 then [(addressStarty240, packet.data1)] else []

/-- The defaults from `aoiauto` to `exposureh` have these writes. The exposure comes last, and
its low byte comes first. -/
def imageWrites : Writes := [
  (packetAoishowheight, 32), (packetAoistartyh, 3), (packetAoistartyl, 84),
  (packetAoishowstartxh, 0), (packetAoishowstartxl, 32), (packetAoishowendxh, 9),
  (packetAoishowendxl, 255), (packetAoishowstartyh, 0), (packetAoishowstartyl, 10),
  (packetAlg1, 0), (packetAlg2, 70), (packetExposurel, 44), (packetExposureh, 1)]

/-- The defaults from `gainh` to `status` have these writes. -/
def detectWrites : Writes := [
  (packetMode, 25), (packetSenstive1h, 0), (packetSenstive1l, 4), (packetSenstive2h, 0),
  (packetSenstive2l, 100)]

/-- The loop of the first-boot branch clears four bytes for each entry. -/
def clothWrites (entries : List (Fin 10)) : Writes :=
  entries.flatMap fun entry => (clothBytes entry).map fun address => (address, 0)

/-- The first-boot branch writes these bytes before the marker. -/
def defaultWrites : Writes :=
  (packetId, 1) :: imageWrites ++ detectWrites ++ clothWrites clothEntries ++
    [(addressStarty240, 120)]

/-- The first-boot branch writes the marker last. -/
def firstBootWrites : Writes := defaultWrites ++ [(addressMarker, 0x25)]

/-- The load branch writes a limited start row only. -/
def loadWrites (eeprom : Eeprom) : Writes :=
  if at24cxxReadOneByte eeprom addressStarty240 > 240 then [(addressStarty240, 240)] else []

/-- The writes of one command. -/
def switchWrites (packet current : SendPacket) : Event → Writes
  | .setDetectpara => exposureWrites packet
  | .setCamid => camidWrites packet
  | .getCaminfo =>
      aoiStartWrites packet current ++ aoiHeightWrites packet current ++ startY240Writes packet
  | .setStarty240 => startY240Writes packet
  | .setAoi => aoiStartWrites packet current ++ aoiHeightWrites packet current
  | .setParaReset => imageWrites ++ detectWrites
  | .watchImage | .getCamver | .other => []

section Logs
variable (packet : SendPacket) (board : Board)

theorem storeExposure_logs :
    Logs eeprom (storeExposure packet) board (exposureWrites packet) := by
  apply Logs.only
  intro _
  exact .quiet rfl (.quiet rfl (.write rfl (.write rfl (.quiet rfl .done))))

theorem setDetectpara_logs :
    Logs eeprom (setDetectpara packet) board (exposureWrites packet) := by
  apply Logs.branch
  rw [ite_self]
  exact storeExposure_logs packet board

theorem setCamid_logs : Logs eeprom (setCamid packet) board (camidWrites packet) := by
  apply Logs.only
  intro _
  exact .write rfl .done

theorem aoiStart_logs :
    Logs eeprom (aoiStart packet) board (aoiStartWrites packet board.currentCamPara) := by
  apply Logs.only
  intro _
  exact .quiet rfl (.write rfl (.quiet rfl (.write rfl .done)))

theorem aoiHeight_logs :
    Logs eeprom (aoiHeight packet) board (aoiHeightWrites packet board.currentCamPara) := by
  apply Logs.only
  intro _
  exact .quiet rfl (.write rfl .done)

theorem setStarty240_logs :
    Logs eeprom (setStarty240 packet) board (startY240Writes packet) := by
  have guarded : Logs eeprom (setStarty240 packet) board
      (if decide (packet.data1 ≤ 240) = true then [(addressStarty240, packet.data1)] else []) := by
    apply Logs.only
    intro _
    exact .quiet rfl (.write rfl .done)
  simpa only [startY240Writes, decide_eq_true_eq] using guarded

/-- The start of the AOI comes before its height and does not change it. -/
theorem aoiStart_aoiHeightWrites :
    aoiHeightWrites packet ((aoiStart packet).exec board).currentCamPara =
      aoiHeightWrites packet board.currentCamPara := by
  have height : ((aoiStart packet).exec board).currentCamPara.aoishowheight =
      board.currentCamPara.aoishowheight := congrArg Prod.snd (aoiStart_window packet board)
  rw [aoiHeightWrites, height]
  rfl

theorem setAoi_logs : Logs eeprom (setAoi packet) board
    (aoiStartWrites packet board.currentCamPara ++
      aoiHeightWrites packet board.currentCamPara) := by
  have height := aoiHeight_logs packet ((aoiStart packet).exec board)
  rw [aoiStart_aoiHeightWrites] at height
  exact (aoiStart_logs packet board).append height

theorem getCaminfo_logs : Logs eeprom (getCaminfo packet) board
    (aoiStartWrites packet board.currentCamPara ++ aoiHeightWrites packet board.currentCamPara ++
      startY240Writes packet) := by
  let reply : Program Board := .acts [
    store ({ · with event := 23 }),
    store ({ · with data1 := camVer }),
    fun board => store ({ · with data2 := board.startY240 }) board,
    store ({ · with data3 := 0 })]
  have quiet : Logs eeprom reply board [] :=
    .quiet rfl (.quiet rfl (.quiet rfl (.quiet rfl .done)))
  have start : Logs eeprom (reply ++ aoiStart packet) board
      (aoiStartWrites packet board.currentCamPara) :=
    quiet.append (aoiStart_logs packet (reply.exec board))
  have height : Logs eeprom (aoiHeight packet) ((reply ++ aoiStart packet).exec board)
      (aoiHeightWrites packet board.currentCamPara) := by
    have logs := aoiHeight_logs packet ((aoiStart packet).exec (reply.exec board))
    rw [aoiStart_aoiHeightWrites] at logs
    rw [Program.exec_append]
    exact logs
  have queue (asked : Board) : Logs eeprom (.acts [netsendFifoWrite]) asked [] :=
    .quiet rfl .done
  have whole := ((start.append height).append (queue _)).append (setStarty240_logs packet _)
  rw [List.append_nil] at whole
  exact whole

theorem headDefaults_logs : Logs eeprom (.acts headDefaults) board [] :=
  .quiet rfl (.quiet rfl (.quiet rfl (.quiet rfl .done)))

theorem imageDefaults_logs : Logs eeprom (.acts imageDefaults) board imageWrites := by
  repeat first | exact .done | refine .write rfl ?_ | refine .quiet rfl ?_

theorem detectDefaults_logs : Logs eeprom (.acts detectDefaults) board detectWrites := by
  repeat first | exact .done | refine .write rfl ?_ | refine .quiet rfl ?_

theorem setParaReset_logs : Logs eeprom setParaReset board (imageWrites ++ detectWrites) := by
  have shutter (asked : Board) : Logs eeprom (.acts [cmosSetShutter fun _ => 300]) asked [] :=
    .quiet rfl .done
  have whole := (((headDefaults_logs board).append (imageDefaults_logs _)).append
    (shutter _)).append (detectDefaults_logs _)
  rw [← Program.acts_append, ← Program.acts_append, ← Program.acts_append, List.append_nil,
    List.nil_append] at whole
  exact whole

/-- Each command makes the writes of its event. -/
theorem switch_logs (event : Event) :
    Logs eeprom (switch packet event) board (switchWrites packet board.currentCamPara event) := by
  cases event with
  | watchImage =>
      apply Logs.ofKeeps
      simp [switch, watchImage]
  | setDetectpara => exact setDetectpara_logs packet board
  | setCamid => exact setCamid_logs packet board
  | getCamver => exact .quiet rfl (.quiet rfl (.quiet rfl .done))
  | getCaminfo => exact getCaminfo_logs packet board
  | setStarty240 => exact setStarty240_logs packet board
  | setAoi => exact setAoi_logs packet board
  | setParaReset => exact setParaReset_logs board
  | other => exact .done

/-- Clearing one entry of both tables writes four zeros. -/
theorem clearEntry_logs (entry : Fin 10) :
    Logs eeprom (.acts (clearEntry entry)) board
      ((clothBytes entry).map fun address => (address, 0)) := by
  apply Logs.quiet rfl
  apply Logs.write
  · simp only [store, save, at24cxxWriteOneByte, Function.update_self]
    rfl
  apply Logs.write
  · simp only [store, save, at24cxxWriteOneByte, Function.update_self]
    rfl
  apply Logs.quiet rfl
  apply Logs.write
  · simp only [store, save, at24cxxWriteOneByte, Function.update_self]
    rfl
  apply Logs.write
  · simp only [store, save, at24cxxWriteOneByte, Function.update_self]
    rfl
  exact .done

theorem clearEntries_logs (entries : List (Fin 10)) :
    Logs eeprom (.acts (entries.flatMap clearEntry)) board (clothWrites entries) := by
  induction entries generalizing board with
  | nil => exact .done
  | cons entry rest ih =>
      rw [List.flatMap_cons, Program.acts_append]
      exact (clearEntry_logs board entry).append (ih _)

theorem firstBootBranch_logs : Logs eeprom firstBootBranch board firstBootWrites := by
  have id (asked : Board) : Logs eeprom (.acts [store ({ · with id := 1 }), save packetId (·.id)])
      asked [(packetId, 1)] := .quiet rfl (.write rfl .done)
  have last (asked : Board) : Logs eeprom (.acts [
      fun board => { board with startY240 := 120 },
      fun board => write addressStarty240 board.startY240 board,
      write addressMarker 0x25]) asked [(addressStarty240, 120), (addressMarker, 0x25)] :=
    .quiet rfl (.write rfl (.write rfl .done))
  have whole := (((((headDefaults_logs board).append (id _)).append (imageDefaults_logs _)).append
    (detectDefaults_logs _)).append (clearEntries_logs _ clothEntries)).append (last _)
  simp only [← Program.acts_append, List.nil_append] at whole
  rw [firstBootWrites, defaultWrites, List.append_assoc]
  exact whole

theorem limitStartY240_logs : Logs eeprom limitStartY240 board
    (if board.startY240 > 240 then [(addressStarty240, 240)] else []) := by
  have guarded : Logs eeprom limitStartY240 board
      (if decide (board.startY240 > 240) = true then [(addressStarty240, 240)] else []) := by
    apply Logs.only
    intro _
    exact .quiet rfl (.write rfl .done)
  simpa only [decide_eq_true_eq] using guarded

theorem loadBranch_logs : Logs eeprom loadBranch board (loadWrites board.eeprom) := by
  rw [loadBranch, ← List.nil_append (loadWrites _)]
  apply Logs.append
  · apply Logs.ofKeeps
    simp [headDefaults, clothEntries, store, load]
  · exact limitStartY240_logs _

end Logs

end NnpCamera.Parameters
