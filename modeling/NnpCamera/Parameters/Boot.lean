/-
This file models `InitCamParaPacket` and the runs of commands and reboots.
-/

import NnpCamera.Library.Runs
import NnpCamera.Parameters.Commands

namespace NnpCamera.Parameters
open Library Board

/-- This action loads one field of `CurrentCamPara` from the EEPROM. -/
def Board.load (address : UInt8) (assign : SendPacket → UInt8 → SendPacket) (board : Board) :
    Board :=
  { board with
    currentCamPara := assign board.currentCamPara (at24cxxReadOneByte board.eeprom address) }

/-- Both loops of `InitCamParaPacket` visit these table entries. -/
def clothEntries : List (Fin 10) := [0, 1, 2, 3, 4, 5]

instance (entry : Fin 10) : Decidable (entry ∈ clothEntries) :=
  inferInstanceAs (Decidable (_ ∈ _))

/-- The table starts have two bytes for each entry. -/
def clothStartAddress (entry : Fin 10) : UInt8 := packetOpenclothstart + 2 * .ofNat entry

/-- The table ends have two bytes for each entry. -/
def clothEndAddress (entry : Fin 10) : UInt8 := packetOpenclothend + 2 * .ofNat entry

/-- The first branch of `InitCamParaPacket` loads the parameters of a marked EEPROM. -/
def loadBranch : Program Board :=
  .acts (headDefaults ++ [
    load packetId ({ · with id := · }),
    store ({ · with aoiauto := 0 }),
    load packetAoistartyh ({ · with aoistartyh := · }),
    load packetAoistartyl ({ · with aoistartyl := · }),
    load packetAoishowstartxh ({ · with aoishowstartxh := · }),
    load packetAoishowstartxl ({ · with aoishowstartxl := · }),
    load packetAoishowendxh ({ · with aoishowendxh := · }),
    load packetAoishowendxl ({ · with aoishowendxl := · }),
    load packetAoishowstartyh ({ · with aoishowstartyh := · }),
    load packetAoishowstartyl ({ · with aoishowstartyl := · }),
    load packetAoishowheight ({ · with aoishowheight := · }),
    store ({ · with autoexposure := 1 }),
    store ({ · with autoexposurevalue := 128 }),
    load packetAlg1 ({ · with alg1 := · }),
    load packetAlg2 ({ · with alg2 := · }),
    load packetExposurel ({ · with exposurel := · }),
    load packetExposureh ({ · with exposureh := · }),
    store ({ · with gainh := 0 }),
    store ({ · with gainl := 9 }),
    load packetMode ({ · with mode := · }),
    load packetSenstive1h ({ · with senstive1h := · }),
    load packetSenstive1l ({ · with senstive1l := · }),
    load packetSenstive2h ({ · with senstive2h := · }),
    load packetSenstive2l ({ · with senstive2l := · }),
    load packetStatus ({ · with status := · })] ++
  clothEntries.flatMap (fun entry => [
    fun board => store (fun para => { para with
      openclothstart := Function.update para.openclothstart entry
        (at24cxxReadTwoBytes board.eeprom (clothStartAddress entry)) }) board,
    fun board => store (fun para => { para with
      openclothend := Function.update para.openclothend entry
        (at24cxxReadTwoBytes board.eeprom (clothEndAddress entry)) }) board]) ++ [
    fun board => { board with startY240 := at24cxxReadOneByte board.eeprom addressStarty240 }]) ++
  .only (fun board => board.startY240 > 240) (.acts [
    fun board => { board with startY240 := 240 },
    fun board => write addressStarty240 board.startY240 board])

/-- The second branch of `InitCamParaPacket` stores the defaults and then the marker. -/
def firstBootBranch : Program Board :=
  .acts (headDefaults ++ [
    store ({ · with id := 1 }),
    save packetId (·.id)] ++
  imageDefaults ++ detectDefaults ++
  clothEntries.flatMap (fun entry => [
    store fun para => { para with openclothstart := Function.update para.openclothstart entry 0 },
    save (clothStartAddress entry) fun para => (para.openclothstart entry).toUInt8,
    save (clothStartAddress entry + 1) fun para => (para.openclothstart entry >>> 8).toUInt8,
    store fun para => { para with openclothend := Function.update para.openclothend entry 0 },
    save (clothEndAddress entry) fun para => (para.openclothend entry).toUInt8,
    save (clothEndAddress entry + 1) fun para => (para.openclothend entry >>> 8).toUInt8]) ++ [
    fun board => { board with startY240 := 120 },
    fun board => write addressStarty240 board.startY240 board,
    write addressMarker 0x25])

/-- The boot loads a marked EEPROM and initialises any other one. -/
def initCamParaPacket : Program Board :=
  .branch (fun board => at24cxxReadOneByte board.eeprom addressMarker == 0x25)
    loadBranch firstBootBranch

/-- A reset keeps the EEPROM only. `mymalloc` does not clear the memory of `CurrentCamPara`. -/
def powerOn (memory : SendPacket) (eeprom : Eeprom) : Board where
  currentCamPara := memory
  startY240 := 120
  eeprom := eeprom
  jpegDataSend := 0
  jpegDataPcsendFlag := 0
  shutter := 0
  queued := []

/-- The camera boots with the given memory contents. -/
def boot (memory : SendPacket) (eeprom : Eeprom) : Board :=
  initCamParaPacket.exec (powerOn memory eeprom)

/-- The camera handles a command block or boots again. -/
inductive Action where
  | command (block : Block)
  | reboot (memory : SendPacket)

/-- This system takes complete commands and complete boots. -/
def parameterSystem : System Board Action where
  step board action :=
    match action with
    | .command block => some ((udpDataprocess block).exec board)
    | .reboot memory => some (boot memory board.eeprom)

end NnpCamera.Parameters
