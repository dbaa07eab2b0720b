/-
This file shows which image requests `imgcamera_task` clears.
-/

import NnpCamera.Capture.Interleaving
import NnpCamera.Image.Camera
import NnpCamera.Parameters.AoiWindow

namespace NnpCamera.Image
open Library Parameters
open Capture (servedMode)

section Sends
variable {Network : Type} (net : Net Network)

@[simp] theorem netconnSend_board (sentbuf : Pbuf) (camera : Camera Network) :
    (netconnSend net sentbuf camera).2.board = camera.board := rfl

@[simp] theorem sendTrailer_board (camera : Camera Network) :
    (sendTrailer net camera).board = camera.board := rfl

@[simp] theorem sendPacket_board (index : Nat) (camera : Camera Network) :
    (sendPacket net index camera).board = camera.board := rfl

/-- A stream of parts does not change the parameters. -/
@[simp] theorem sendStream_board (camera : Camera Network) :
    (sendStream net camera).board = camera.board := by
  rw [sendStream, sendTrailer_board]
  apply loop_keeps fun sending : Pbuf × Camera Network => sending.2.board
  intro index sending
  rfl

/-- A stream of packets does not change the parameters. -/
@[simp] theorem sendIndexed_board (first count : Nat) (camera : Camera Network) :
    (sendIndexed net first count camera).board = camera.board := by
  rw [sendIndexed, sendTrailer_board]
  apply loop_keeps fun camera : Camera Network => camera.board
  intro index camera
  rfl

/-- A branch clears the request and keeps all other parameters. -/
theorem serveBranch_board (send : Camera Network → Camera Network) (camera : Camera Network)
    (keeps : (send camera).board = camera.board) :
    (serveBranch send camera).board = { camera.board with jpegDataSend := 0 } := by
  unfold serveBranch
  split
  · simp only [clearRequest, keeps]
  · rfl

/-- Each mode with a branch clears the request, whatever the sends return. -/
theorem serveRequest_board (camera : Camera Network) :
    (serveRequest net camera).board =
      if servedMode camera.board.jpegDataPcsendFlag then { camera.board with jpegDataSend := 0 }
      else camera.board := by
  unfold serveRequest
  by_cases detect : camera.board.jpegDataPcsendFlag = 0
  · rw [if_pos detect, if_pos (.inl detect)]
    exact serveBranch_board _ _ (sendStream_board net camera)
  rw [if_neg detect]
  by_cases whole : camera.board.jpegDataPcsendFlag = 1
  · rw [if_pos whole, if_pos (.inr (.inl whole))]
    exact serveBranch_board _ _ (sendIndexed_board net _ _ camera)
  rw [if_neg whole]
  by_cases window : camera.board.jpegDataPcsendFlag = 3
  · rw [if_pos window, if_pos (.inr (.inr window))]
    exact serveBranch_board _ _ (sendIndexed_board net _ _ camera)
  rw [if_neg window, if_neg]
  rintro (mode | mode | mode)
  · exact detect mode
  · exact whole mode
  · exact window mode

/-- One iteration changes the parameters only when it serves a request, and then it clears the
request. -/
theorem imgcameraTask_board (camera : Camera Network) :
    (imgcameraTask net camera).board =
      if camera.board.jpegDataSend = 1 ∧ servedMode camera.board.jpegDataPcsendFlag then
        { camera.board with jpegDataSend := 0 }
      else camera.board := by
  obtain ⟨flag, ready⟩ := acknowledgeFrame_eq camera
  simp only [imgcameraTask, ready]
  by_cases pending : camera.board.jpegDataSend = 1
  · rw [if_pos pending, serveRequest_board]
    simp only [selectFrame, pending, true_and]
  · rw [if_neg pending, if_neg fun both => pending both.1]

end Sends

/-- The camera handles one command block, or `imgcamera_task` makes one iteration. -/
inductive RequestEvent where
  | command (block : Block)
  | iterate

/-- This system takes complete commands and complete iterations. -/
def requestSystem {Network : Type} (net : Net Network) :
    System (Camera Network) RequestEvent where
  step camera event :=
    match event with
    | .command block => some { camera with board := (udpDataprocess block).exec camera.board }
    | .iterate => some (imgcameraTask net camera)

/-- No command changes a pending request. -/
theorem switch_pending (packet : SendPacket) (event : Event) (board : Board)
    (pending : board.jpegDataSend = 1) :
    ((switch packet event).exec board).request = board.request := by
  by_cases watch : event = .watchImage
  · subst watch
    simp [switch, watchImage, Program.exec, pending]
  · by_cases info : event = .getCaminfo
    · subst info
      exact (getCaminfo_keeps packet).request.exec board
    · by_contra changed
      exact watch ((switch_frameLaw packet board info).request changed)

/-- A request for a mode without a branch stays pending over every later run. -/
theorem unserved_stays {Network : Type} {net : Net Network} {camera later : Camera Network}
    (pending : camera.board.jpegDataSend = 1)
    (unserved : ¬ servedMode camera.board.jpegDataPcsendFlag)
    (reached : (requestSystem net).Reachable camera later) :
    later.board.request = camera.board.request := by
  have keeps : ∀ before event after, before.board.request = camera.board.request → True →
      (requestSystem net).step before event = some after →
      after.board.request = camera.board.request := by
    intro before event after same _ stepped
    have flags : before.board.jpegDataSend = 1 ∧
        before.board.jpegDataPcsendFlag = camera.board.jpegDataPcsendFlag := by
      simpa [Board.request, pending] using same
    cases event with
    | command block =>
        obtain rfl := Option.some.inj stepped
        exact (switch_pending _ _ _ flags.1).trans same
    | iterate =>
        obtain rfl : imgcameraTask net before = after := Option.some.inj stepped
        have kept : (imgcameraTask net before).board = before.board := by
          rw [imgcameraTask_board, if_neg]
          rintro ⟨_, served⟩
          exact unserved (flags.2 ▸ served)
        rw [kept, same]
  refine reached.invariant ?_ keeps
  rfl

/-- One iteration clears a pending request exactly when the mode has a branch. A request for any
other mode stays pending for ever, so each later `WATCH_IMAGE` block is ignored. -/
theorem imageRequest_served {Network : Type} (net : Net Network) (camera : Camera Network)
    (pending : camera.board.jpegDataSend = 1) :
    ((imgcameraTask net camera).board.jpegDataSend = 0 ↔
        servedMode camera.board.jpegDataPcsendFlag) ∧
      (¬ servedMode camera.board.jpegDataPcsendFlag →
        ∀ later, (requestSystem net).Reachable camera later →
          later.board.request = camera.board.request) := by
  refine ⟨?_, fun unserved later reached => unserved_stays pending unserved reached⟩
  rw [imgcameraTask_board]
  by_cases served : servedMode camera.board.jpegDataPcsendFlag
  · simp [pending, served]
  · simp [pending, served]

/-- Every send of this network fails, because the link is not connected. -/
def refusingNet : Net Unit where
  heap _ := fun _ => 0
  netconnSend _ sentbuf := (.conn, sentbuf, ())

/-- A camera after its first boot, with the link up. -/
def bootedCamera : Camera Unit where
  board := zeroBoot
  jpegDataOk := 0
  currentcatch := 0
  getCatchPos := 0
  imgbuf2592x480x32 := fun _ _ => 0
  udpFlag := 1
  ovFrame := 0
  udpShort := fun _ => 0
  network := ()
  handed := []

/-- This `WATCH_IMAGE` block asks for one image mode. -/
def watchBlock (mode : UInt8) : Block := fun index =>
  if index = 3 then 2 else if index = 27 then mode else 0

/-- The camera that has received one request. -/
def requestedCamera (mode : UInt8) : Camera Unit :=
  { bootedCamera with board := (udpDataprocess (watchBlock mode)).exec zeroBoot }

/-- A request for mode 1 is cleared although each of its sends fails. -/
theorem imageRequest_served_refused :
    (imgcameraTask refusingNet (requestedCamera 1)).board.jpegDataSend = 0 := by
  have pending : (requestedCamera 1).board.jpegDataSend = 1 := by decide +kernel
  have served : servedMode (requestedCamera 1).board.jpegDataPcsendFlag := by decide +kernel
  exact (imageRequest_served refusingNet (requestedCamera 1) pending).1.mpr served

/-- A request for mode 2 survives its iteration, and the camera then ignores a request for
mode 1. -/
theorem imageRequest_wedged :
    ∃ camera, (requestSystem refusingNet).Reachable bootedCamera camera ∧
      camera.board.jpegDataSend = 1 ∧
      (imgcameraTask refusingNet camera).board.jpegDataSend = 1 ∧
      ((udpDataprocess (watchBlock 1)).exec (imgcameraTask refusingNet camera).board).request =
        (1, 2) := by
  have stepped : (requestSystem refusingNet).step bootedCamera (.command (watchBlock 2)) =
      some (requestedCamera 2) := rfl
  have kept : (imgcameraTask refusingNet (requestedCamera 2)).board =
      (requestedCamera 2).board := by
    rw [imgcameraTask_board, if_neg]
    decide +kernel
  refine ⟨requestedCamera 2, .next .start trivial stepped, ?_, ?_, ?_⟩
  · decide +kernel
  · rw [kept]
    decide +kernel
  · rw [kept]
    decide +kernel

end NnpCamera.Image
