/-
This file models the switch of `udp_dataprocess_task`. Each action is one access.
-/

import NnpCamera.Parameters.Board

namespace NnpCamera.Parameters
open Library Board

/-- The firmware reports this version. -/
def camVer : UInt8 := 10

/-- `WATCH_IMAGE` requests one image unless a request is pending. -/
def watchImage (packet : SendPacket) : Program Board :=
  .branch (fun board => board.jpegDataSend == 1) .done <| .acts [
    fun board => { board with jpegDataPcsendFlag := packet.data2 },
    fun board => { board with jpegDataSend := 1 }]

/-- Both arms of `SET_DETECTPARA` store an exposure that is in range. -/
def storeExposure (packet : SendPacket) : Program Board :=
  .only (fun _ => 2 ≤ packet.exposure && packet.exposure ≤ 29999) <| .acts [
    store ({ · with exposureh := packet.exposureh }),
    store ({ · with exposurel := packet.exposurel }),
    -- `AT24CXX_WriteLenByte` writes the low byte first, and that is `exposureh` here.
    save packetExposureh (·.exposureh),
    save (packetExposureh + 1) (·.exposurel),
    cmosSetShutter (·.exposure)]

/-- `SET_DETECTPARA` has equal arms for the two senders. -/
def setDetectpara (packet : SendPacket) : Program Board :=
  .branch (fun _ => packet.data1 == 0) (storeExposure packet) (storeExposure packet)

/-- `SET_CAMID` writes a valid new identity to the EEPROM only. -/
def setCamid (packet : SendPacket) : Program Board :=
  .only (fun _ => 0 < packet.changeid && packet.changeid < 21 && packet.changeid != packet.id) <|
    .acts [write packetId packet.changeid]

/-- `GET_CAMVER` queues a reply with the version. -/
def getCamver : Program Board :=
  .acts [
    store ({ · with event := 22 }),
    store ({ · with data1 := camVer }),
    netsendFifoWrite]

/-- A new AOI start goes to RAM and to the EEPROM one byte at a time. -/
def storeAoiStart (packet : SendPacket) : Program Board :=
  .acts [
    store ({ · with aoishowstartyh := packet.aoishowstartyh }),
    save packetAoishowstartyh (·.aoishowstartyh),
    store ({ · with aoishowstartyl := packet.aoishowstartyl }),
    save packetAoishowstartyl (·.aoishowstartyl)]

/-- `GET_CAMINFO` and `SET_AOI` store a changed AOI start that is in range. -/
def aoiStart (packet : SendPacket) : Program Board :=
  .only (fun board => packet.aoiShowStartY ≤ 440 &&
      packet.aoiShowStartY != board.currentCamPara.aoiShowStartY) (storeAoiStart packet)

/-- A new AOI height goes to RAM and to the EEPROM. -/
def storeAoiHeight (packet : SendPacket) : Program Board :=
  .acts [
    store ({ · with aoishowheight := packet.aoishowheight }),
    save packetAoishowheight (·.aoishowheight)]

/-- `GET_CAMINFO` and `SET_AOI` store a changed AOI height that is in range. -/
def aoiHeight (packet : SendPacket) : Program Board :=
  .only (fun board => 48 ≤ packet.aoishowheight && packet.aoishowheight ≤ 255 &&
      packet.aoishowheight != board.currentCamPara.aoishowheight) (storeAoiHeight packet)

/-- `SET_STARTY240` stores a start row that is in range. -/
def setStarty240 (packet : SendPacket) : Program Board :=
  .only (fun _ => packet.data1 ≤ 240) <| .acts [
    fun board => { board with startY240 := packet.data1 },
    fun board => write addressStarty240 board.startY240 board]

/-- `GET_CAMINFO` queues a reply with the start row. It has no `break`, so it continues
with the arm of `SET_STARTY240`. -/
def getCaminfo (packet : SendPacket) : Program Board :=
  .acts [
    store ({ · with event := 23 }),
    store ({ · with data1 := camVer }),
    fun board => store ({ · with data2 := board.startY240 }) board,
    -- An 8-bit start row has no high byte.
    store ({ · with data3 := 0 })] ++
  aoiStart packet ++ aoiHeight packet ++ .acts [netsendFifoWrite] ++ setStarty240 packet

/-- `SET_AOI` stores the two AOI parameters. -/
def setAoi (packet : SendPacket) : Program Board := aoiStart packet ++ aoiHeight packet

section Defaults

/-- The frame bytes that both users of the defaults assign first. -/
def headDefaults : List (Board → Board) := [
  store ({ · with head1 := 0xAA }),
  store ({ · with head2 := 0xAC }),
  store ({ · with tail1 := 0xFC }),
  store ({ · with tail2 := 0xFF })]

/-- The defaults from `aoiauto` to `exposureh`. -/
def imageDefaults : List (Board → Board) := [
  store ({ · with aoiauto := 0 }),
  store ({ · with aoishowheight := 32 }),
  save packetAoishowheight (·.aoishowheight),
  store ({ · with aoistartyh := .ofNat (852 >>> 8) }),
  save packetAoistartyh (·.aoistartyh),
  store ({ · with aoistartyl := .ofNat 852 }),
  save packetAoistartyl (·.aoistartyl),
  store ({ · with aoishowstartxh := .ofNat (32 >>> 8) }),
  save packetAoishowstartxh (·.aoishowstartxh),
  store ({ · with aoishowstartxl := .ofNat 32 }),
  save packetAoishowstartxl (·.aoishowstartxl),
  store ({ · with aoishowendxh := .ofNat (2559 >>> 8) }),
  save packetAoishowendxh (·.aoishowendxh),
  store ({ · with aoishowendxl := .ofNat 2559 }),
  save packetAoishowendxl (·.aoishowendxl),
  store ({ · with data2 := 0 }),
  store ({ · with data3 := 0 }),
  store ({ · with aoishowstartyh := .ofNat (10 >>> 8) }),
  save packetAoishowstartyh (·.aoishowstartyh),
  store ({ · with aoishowstartyl := .ofNat 10 }),
  save packetAoishowstartyl (·.aoishowstartyl),
  store ({ · with autoexposure := 1 }),
  store ({ · with autoexposurevalue := 128 }),
  store ({ · with changeid := 0 }),
  store ({ · with alg1 := 0 }),
  save packetAlg1 (·.alg1),
  store ({ · with alg2 := 70 }),
  save packetAlg2 (·.alg2),
  store ({ · with data1 := 0 }),
  store ({ · with exposurel := .ofNat 300 }),
  save packetExposurel (·.exposurel),
  store ({ · with exposureh := .ofNat (300 >>> 8) }),
  save packetExposureh (·.exposureh)]

/-- The defaults from `gainh` to `status`. -/
def detectDefaults : List (Board → Board) := [
  store ({ · with gainh := .ofNat (9 >>> 8) }),
  store ({ · with gainl := .ofNat 9 }),
  store ({ · with event := 1 }),
  store ({ · with mode := 25 }),
  save packetMode (·.mode),
  store ({ · with senstive1h := .ofNat (4 >>> 8) }),
  save packetSenstive1h (·.senstive1h),
  store ({ · with senstive1l := .ofNat 4 }),
  save packetSenstive1l (·.senstive1l),
  store ({ · with senstive2h := .ofNat (100 >>> 8) }),
  save packetSenstive2h (·.senstive2h),
  store ({ · with senstive2l := .ofNat 100 }),
  save packetSenstive2l (·.senstive2l),
  store ({ · with openclothnum := 0 }),
  store ({ · with openclothid := 0 }),
  store ({ · with status := 0 })]

end Defaults

/-- `SET_PARA_RESET` restores the defaults and gives the default exposure to the sensor. -/
def setParaReset : Program Board :=
  .acts (headDefaults ++ imageDefaults ++ [cmosSetShutter fun _ => 300] ++ detectDefaults)

/-- The switch of `udp_dataprocess_task` selects the program of the event. -/
def switch (packet : SendPacket) : Event → Program Board
  | .watchImage => watchImage packet
  | .setDetectpara => setDetectpara packet
  | .setCamid => setCamid packet
  | .getCamver => getCamver
  | .getCaminfo => getCaminfo packet
  | .setStarty240 => setStarty240 packet
  | .setAoi => setAoi packet
  | .setParaReset => setParaReset
  | .other => .done

/-- The command task runs the program of one received block. -/
def udpDataprocess (block : Block) : Program Board :=
  switch (SendPacket.ofBlock block) (Block.event block)

end NnpCamera.Parameters
