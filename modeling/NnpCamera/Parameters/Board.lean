/-
This file models the parameter memory of the camera and its EEPROM.
-/

import NnpCamera.Library.Program
import NnpCamera.Parameters.Packet
import Mathlib.Logic.Function.Basic

namespace NnpCamera.Parameters
open Library

/-- The AT24C02 holds 256 bytes. -/
abbrev Eeprom := UInt8 → UInt8

/-- The driver selects one byte. All addresses of the firmware fit in one address byte. -/
def at24cxxReadOneByte (eeprom : Eeprom) (readAddr : UInt8) : UInt8 := eeprom readAddr

/-- The driver stores one byte. -/
def at24cxxWriteOneByte (eeprom : Eeprom) (writeAddr dataToWrite : UInt8) : Eeprom :=
  Function.update eeprom writeAddr dataToWrite

/-- The driver reads a 16-bit value with its low byte at the lower address. -/
def at24cxxReadTwoBytes (eeprom : Eeprom) (readAddr : UInt8) : UInt16 :=
  littleEndian (at24cxxReadOneByte eeprom readAddr) (at24cxxReadOneByte eeprom (readAddr + 1))

section Addresses

@[simp] def packetId : UInt8 := 2
@[simp] def packetStatus : UInt8 := 4
@[simp] def packetSenstive1h : UInt8 := 5
@[simp] def packetSenstive1l : UInt8 := 6
@[simp] def packetSenstive2h : UInt8 := 7
@[simp] def packetSenstive2l : UInt8 := 8
@[simp] def packetExposureh : UInt8 := 14
@[simp] def packetExposurel : UInt8 := 15
@[simp] def packetMode : UInt8 := 16
@[simp] def packetAlg1 : UInt8 := 17
@[simp] def packetAlg2 : UInt8 := 18
@[simp] def packetAoishowheight : UInt8 := 22
@[simp] def packetAoistartyh : UInt8 := 23
@[simp] def packetAoistartyl : UInt8 := 24
@[simp] def packetAoishowstartyh : UInt8 := 25
@[simp] def packetAoishowstartyl : UInt8 := 26
@[simp] def packetAoishowstartxh : UInt8 := 29
@[simp] def packetAoishowstartxl : UInt8 := 30
@[simp] def packetAoishowendxh : UInt8 := 31
@[simp] def packetOpenclothstart : UInt8 := 32
@[simp] def packetOpenclothend : UInt8 := 52
@[simp] def packetAoishowendxl : UInt8 := 72
@[simp] def addressStarty240 : UInt8 := 86
@[simp] def addressMarker : UInt8 := 255

end Addresses

/-- This state holds the variables that the command task owns or shares. `shutter` is the
last exposure given to the sensor, and `queued` lists the reply packets in their order. -/
structure Board where
  currentCamPara : SendPacket
  startY240 : UInt8
  eeprom : Eeprom
  jpegDataSend : UInt8
  jpegDataPcsendFlag : UInt8
  shutter : UInt16
  queued : List SendPacket

namespace Board

/-- This action assigns to fields of `CurrentCamPara`. -/
def store (assign : SendPacket → SendPacket) (board : Board) : Board :=
  { board with currentCamPara := assign board.currentCamPara }

/-- This action writes one EEPROM byte that it takes from `CurrentCamPara`. -/
def save (address : UInt8) (value : SendPacket → UInt8) (board : Board) : Board :=
  { board with eeprom := at24cxxWriteOneByte board.eeprom address (value board.currentCamPara) }

/-- This action writes one given EEPROM byte. -/
def write (address value : UInt8) (board : Board) : Board :=
  { board with eeprom := at24cxxWriteOneByte board.eeprom address value }

/-- This action gives an exposure time to the sensor. -/
def cmosSetShutter (time : SendPacket → UInt16) (board : Board) : Board :=
  { board with shutter := time board.currentCamPara }

/-- This action offers a copy of `CurrentCamPara` to the send FIFO. -/
def netsendFifoWrite (board : Board) : Board :=
  { board with queued := board.queued ++ [board.currentCamPara] }

end Board

end NnpCamera.Parameters
