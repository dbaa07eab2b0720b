/-
This file shows that the step models of the tasks agree with their complete iterations.
-/

import NnpCamera.Connection.Tasks
import NnpCamera.Image.Requests
import NnpCamera.Parameters.AoiSnapshot

namespace NnpCamera.Image
open Library Parameters
open Connection (ImageMode)

/-- The interleaved model and the command model drop the same `WATCH_IMAGE` blocks. -/
theorem watchImageBlock_request (state : Capture.State) (board : Board) (packet : SendPacket)
    (request : board.request = (state.jpegDataSend, state.jpegDataPcsendFlag)) :
    ((watchImage packet).exec board).request =
      ((Capture.watchImageBlock state packet.data2).jpegDataSend,
        (Capture.watchImageBlock state packet.data2).jpegDataPcsendFlag) := by
  obtain ⟨send, mode⟩ := Prod.mk.inj request
  unfold Capture.watchImageBlock
  by_cases pending : state.jpegDataSend = 1
  · simp [watchImage, Program.exec, Board.request, send, mode, pending]
  · simp [watchImage, Program.exec, Program.acts, Board.request, send, pending]

/-- Three selecting reads without a preemption choose the frame of the complete iteration. -/
theorem selectingReads_selectFrame {Network : Type} (layout : Capture.FrameLayout)
    (state : Capture.State) (camera : Camera Network) (here : state.task = .readFirst)
    (current : state.currentcatch = camera.currentcatch)
    (kept : state.getCatchPos = camera.getCatchPos) :
    ∃ count after, (Capture.system layout).run state (List.replicate count .task) = some after ∧
      after.task = .chosen ∧ after.getCatchPos = (selectFrame camera).getCatchPos := by
  by_cases first : camera.currentcatch = 0
  · refine ⟨1, _, rfl, ?_, ?_⟩
    · simp [Capture.taskStep, Capture.selectingRead, here, current, first]
    · simp [Capture.taskStep, Capture.selectingRead, selectFrame, here, current, first]
  by_cases second : camera.currentcatch = 1
  · refine ⟨2, _, rfl, ?_, ?_⟩
    · simp [Capture.taskStep, Capture.selectingRead, here, current, second]
    · simp [Capture.taskStep, Capture.selectingRead, selectFrame, here, current, second]
  by_cases third : camera.currentcatch = 2
  · refine ⟨3, _, rfl, ?_, ?_⟩
    · simp [Capture.taskStep, Capture.selectingRead, here, current, third]
    · simp [Capture.taskStep, Capture.selectingRead, selectFrame, here, current, third]
  · refine ⟨3, _, rfl, ?_, ?_⟩
    · simp [Capture.taskStep, Capture.selectingRead, here, current, first, second, third]
    · simp [Capture.taskStep, Capture.selectingRead, selectFrame, here, current, kept, first,
        second, third]

/-- Five accesses without a preemption send the packets of the complete iteration. -/
theorem sendSteps_sendAoi (state : SnapshotState) (idle : state.task = .idle) :
    (sendStep (sendStep (sendStep (sendStep (sendStep state))))).sends =
      ⟨state.board.currentCamPara.udpPacketCount,
        state.board.currentCamPara.udpDetectYStartPacketIndex, [state.inForce]⟩ ::
          state.sends := by
  simp [sendStep, idle, SendPacket.udpDetectYStartPacketIndex, SendPacket.aoiShowStartY]

section Sends
variable {Network : Type} (net : Net Network)

@[simp] theorem netconnSend_handed_length (sentbuf : Pbuf) (camera : Camera Network) :
    (netconnSend net sentbuf camera).2.handed.length = camera.handed.length + 1 := by
  simp [netconnSend]

theorem sendTrailer_handed_length (camera : Camera Network) :
    (sendTrailer net camera).handed.length = camera.handed.length + 1 :=
  netconnSend_handed_length net _ _

/-- Mode 0 makes one call of `netconn_send` for each part and one for the trailer. -/
theorem sendStream_handed_length (camera : Camera Network) :
    (sendStream net camera).handed.length =
      camera.handed.length + ImageMode.stream.packets + 1 := by
  rw [sendStream, sendTrailer_handed_length]
  congr 1
  apply loop_counts fun sending : Pbuf × Camera Network => sending.2.handed.length
  intro index sending
  exact netconnSend_handed_length net _ sending.2

/-- Modes 1 and 3 make one call for each packet and one for the trailer. -/
theorem sendIndexed_handed_length (first count : Nat) (camera : Camera Network) :
    (sendIndexed net first count camera).handed.length = camera.handed.length + count + 1 := by
  rw [sendIndexed, sendTrailer_handed_length]
  congr 1
  apply loop_counts fun camera : Camera Network => camera.handed.length
  intro index camera
  exact netconnSend_handed_length net _ camera

/-- The mode of a request in the step model of `imgcamera_task`. -/
def requestMode (board : Board) : Option ImageMode :=
  if board.jpegDataPcsendFlag = 0 then some .stream
  else if board.jpegDataPcsendFlag = 1 then some .image
  else if board.jpegDataPcsendFlag = 3 then some (.aoi board.currentCamPara)
  else none

/-- A complete iteration makes the calls of `netconn_send` that the step model makes. -/
theorem serveRequest_handed_length {camera : Camera Network} {mode : ImageMode}
    (up : camera.udpFlag = 1) (requested : requestMode camera.board = some mode) :
    (serveRequest net camera).handed.length = camera.handed.length + mode.packets + 1 := by
  unfold requestMode at requested
  split at requested
  next stream =>
    obtain rfl := Option.some.inj requested
    rw [serveRequest_stream up stream]
    exact sendStream_handed_length net camera
  split at requested
  next image =>
    obtain rfl := Option.some.inj requested
    rw [serveRequest_image up image]
    exact sendIndexed_handed_length net 0 udpImageVc camera
  split at requested
  next aoi =>
    obtain rfl := Option.some.inj requested
    rw [serveRequest_aoi up aoi]
    exact sendIndexed_handed_length net _ _ camera
  next => contradiction

end Sends

end NnpCamera.Image
