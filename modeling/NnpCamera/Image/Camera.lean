/-
This file models one iteration of `imgcamera_task`.
-/

import NnpCamera.Library.Loop
import NnpCamera.Image.Netbuf
import NnpCamera.Parameters.Board

namespace NnpCamera.Image
open Library Parameters

/-- The image bytes of one packet. -/
def udpImageSize : Nat := 1296

/-- Mode 0 sends this number of packets. -/
def udpImageDc : Nat := 480

/-- Mode 1 sends this number of packets. -/
def udpImageVc : Nat := 960

/-- This state holds the variables of `imgcamera_task`. Offsets in a frame count bytes. The last
field is history: it lists the datagrams that the task has handed to `netconn_send`. -/
structure Camera (Network : Type) where
  board : Board
  jpegDataOk : UInt8
  currentcatch : UInt8
  getCatchPos : UInt8
  imgbuf2592x480x32 : UInt8 → Memory UInt8
  udpFlag : UInt8
  ovFrame : UInt32
  udpShort : Memory UInt8
  network : Network
  handed : List (List UInt8)

section Sends
variable {Network : Type} (net : Net Network)

/-- The frame that the task has selected. -/
def Camera.frame (camera : Camera Network) : Memory UInt8 :=
  camera.imgbuf2592x480x32 camera.getCatchPos

/-- Each send marks the link as down when the connection is closed or reset. -/
def netconnSend (sentbuf : Pbuf) (camera : Camera Network) : Pbuf × Camera Network :=
  let result := net.netconnSend camera.network sentbuf
  (result.2.1, { camera with
    network := result.2.2
    udpFlag := if result.1 = .clsd ∨ result.1 = .rst then 0 else camera.udpFlag
    handed := camera.handed ++ [sentbuf.bytes] })

/-- The trailer has the frame number and the exposure at fixed places. -/
def shortPacket (camera : Camera Network) : Memory UInt8 := fun index =>
  if index = 10 then (camera.ovFrame >>> 24).toUInt8
  else if index = 11 then (camera.ovFrame >>> 16).toUInt8
  else if index = 12 then (camera.ovFrame >>> 8).toUInt8
  else if index = 13 then camera.ovFrame.toUInt8
  else if index = 15 then camera.board.currentCamPara.exposureh
  else if index = 16 then camera.board.currentCamPara.exposurel
  else camera.udpShort index

/-- The task ends each image with the 23 bytes of `UdpShort`. -/
def sendTrailer (camera : Camera Network) : Camera Network :=
  let sentbuf := netbufAlloc (net.heap camera.network) 23
  (netconnSend net (sentbuf.copyIn 0 (shortPacket camera) 23)
    { camera with udpShort := shortPacket camera }).2

/-- Mode 0 copies each part of the image into the same buffer and sends it. -/
def sendPart (imageBuf index : Nat) (sending : Pbuf × Camera Network) : Pbuf × Camera Network :=
  let source := fun offset => sending.2.frame (imageBuf + index * udpImageSize + offset)
  netconnSend net (sending.1.copyIn 0 source udpImageSize) sending.2

/-- Mode 0 sends the 240 rows that start at `StartY240`. -/
def sendStream (camera : Camera Network) : Camera Network :=
  let imageBuf := 32 + camera.board.startY240.toNat * 2592
  let sentbuf := netbufAlloc (net.heap camera.network) udpImageSize
  sendTrailer net (loop (sendPart net imageBuf) udpImageDc (sentbuf, camera)).2

/-- Modes 1 and 3 build each packet in a new buffer with its index and the camera identity. -/
def sendPacket (index : Nat) (camera : Camera Network) : Camera Network :=
  let id := camera.board.currentCamPara.id
  let source := fun offset => camera.frame (32 + index * udpImageSize + offset)
  let sentbuf := netbufAlloc (net.heap camera.network) (udpImageSize + 4)
  let sentbuf := sentbuf.copyIn 4 source udpImageSize
  let sentbuf := sentbuf.write 0 (.ofNat (index >>> 8))
  let sentbuf := sentbuf.write 1 (.ofNat index)
  let sentbuf := sentbuf.write 2 (id.toUInt16 >>> 8).toUInt8
  let sentbuf := sentbuf.write 3 id
  (netconnSend net sentbuf camera).2

/-- Modes 1 and 3 send consecutive packets and then the trailer. -/
def sendIndexed (first count : Nat) (camera : Camera Network) : Camera Network :=
  sendTrailer net (loop (fun index => sendPacket net (first + index)) count camera)

/-- Mode 1 sends the whole image. -/
def sendImage (camera : Camera Network) : Camera Network := sendIndexed net 0 udpImageVc camera

/-- Mode 3 sends the AOI rows. -/
def sendAoi (camera : Camera Network) : Camera Network :=
  sendIndexed net camera.board.currentCamPara.udpDetectYStartPacketIndex.toNat
    camera.board.currentCamPara.udpPacketCount.toNat camera

/-- The three tests of `currentcatch` select the frame before the current one. -/
def selectFrame (camera : Camera Network) : Camera Network :=
  { camera with
    getCatchPos :=
      if camera.currentcatch = 0 then 2
      else if camera.currentcatch = 1 then 0
      else if camera.currentcatch = 2 then 1
      else camera.getCatchPos }

/-- The last statement of a served mode clears the request. -/
def clearRequest (camera : Camera Network) : Camera Network :=
  { camera with board := { camera.board with jpegDataSend := 0 } }

/-- Each branch of the task sends only while the link is up and clears the request. -/
def serveBranch (send : Camera Network → Camera Network) (camera : Camera Network) :
    Camera Network :=
  clearRequest (if camera.udpFlag = 1 then send camera else camera)

/-- The image mode selects one of three branches. -/
def serveRequest (camera : Camera Network) : Camera Network :=
  if camera.board.jpegDataPcsendFlag = 0 then serveBranch (sendStream net) camera
  else if camera.board.jpegDataPcsendFlag = 1 then serveBranch (sendImage net) camera
  else if camera.board.jpegDataPcsendFlag = 3 then serveBranch (sendAoi net) camera
  else camera

/-- The task acknowledges a captured frame. -/
def acknowledgeFrame (camera : Camera Network) : Camera Network :=
  if camera.jpegDataOk = 1 then { camera with jpegDataOk := 2 } else camera

/-- One iteration acknowledges a captured frame and serves a pending request. -/
def imgcameraTask (camera : Camera Network) : Camera Network :=
  let camera := acknowledgeFrame camera
  if camera.board.jpegDataSend = 1 then serveRequest net (selectFrame camera) else camera

section Branches
variable {net} {camera : Camera Network} (up : camera.udpFlag = 1)
include up

theorem serveRequest_stream (mode : camera.board.jpegDataPcsendFlag = 0) :
    serveRequest net camera = clearRequest (sendStream net camera) := by
  rw [serveRequest, if_pos mode, serveBranch, if_pos up]

theorem serveRequest_image (mode : camera.board.jpegDataPcsendFlag = 1) :
    serveRequest net camera = clearRequest (sendImage net camera) := by
  rw [serveRequest, mode, if_neg (by decide), if_pos rfl, serveBranch, if_pos up]

theorem serveRequest_aoi (mode : camera.board.jpegDataPcsendFlag = 3) :
    serveRequest net camera = clearRequest (sendAoi net camera) := by
  rw [serveRequest, mode, if_neg (by decide), if_neg (by decide), if_pos rfl, serveBranch,
    if_pos up]

end Branches

/-- The acknowledgement changes no other variable. -/
theorem acknowledgeFrame_eq (camera : Camera Network) :
    ∃ flag, acknowledgeFrame camera = { camera with jpegDataOk := flag } := by
  by_cases captured : camera.jpegDataOk = 1
  · exact ⟨2, if_pos captured⟩
  · exact ⟨camera.jpegDataOk, if_neg captured⟩

end Sends

end NnpCamera.Image
