/-
This file models the two interrupt handlers that fill the frame buffers.
-/

import NnpCamera.Library.Memory
import Mathlib.Data.Set.Basic
import Mathlib.Tactic.Common

namespace NnpCamera.Capture
open Library

/-- The DMA line buffers hold this many 32-bit words. -/
def netcamLineSize : Nat := 4096

/-- Each frame buffer is allocated with this many 32-bit words. -/
def frameWords : Nat := 2592 * 240

/-- `imgcamera_task` can lose the processor before each of these accesses. -/
inductive TaskPoint where
  | testOk
  | markOk
  | testSend
  | readFirst
  | readSecond
  | readThird
  | chosen
  | sending
  deriving DecidableEq, Repr

/-- The three frame buffers do not overlap in SDRAM. Addresses count 32-bit words. -/
structure FrameLayout where
  imgbuf2592x480x32 : UInt8 → Nat
  apart : ∀ first second : UInt8, first < 3 → second < 3 → first ≠ second →
    imgbuf2592x480x32 first + frameWords ≤ imgbuf2592x480x32 second ∨
      imgbuf2592x480x32 second + frameWords ≤ imgbuf2592x480x32 first

/-- The words that one frame buffer owns. -/
def FrameLayout.frame (layout : FrameLayout) (buffer : UInt8) : Set Nat :=
  {address | layout.imgbuf2592x480x32 buffer ≤ address ∧
    address < layout.imgbuf2592x480x32 buffer + frameWords}

/-- This state holds the variables that the handlers and `imgcamera_task` share.
The last two fields are history and no code reads them: `latest` is the buffer of the
last completed frame, and `window` lists its values since the first selecting read. -/
structure State where
  jpegDataOk : UInt8
  jpegDataLen : UInt32
  currentcatch : UInt8
  jpegDataSend : UInt8
  jpegDataPcsendFlag : UInt8
  dmaEnabled : Bool
  dmaTarget : Bool
  dmaCounter : UInt16
  netcamLineBuf0 : Nat → UInt32
  netcamLineBuf1 : Nat → UInt32
  sdram : Memory UInt32
  task : TaskPoint
  getCatchPos : UInt8
  latest : Option UInt8
  window : List (Option UInt8)

/-- Both handlers read the line buffer that the DMA does not fill. -/
def State.fullLine (state : State) : Nat → UInt32 :=
  if state.dmaTarget then state.netcamLineBuf0 else state.netcamLineBuf1

/-- The pointer `pbuf` of both handlers follows the last valid word. -/
def pbuf (layout : FrameLayout) (state : State) : Nat :=
  layout.imgbuf2592x480x32 state.currentcatch + state.jpegDataLen.toNat

/-- The frame handler takes these words from the unfinished line. -/
def rlen (state : State) : UInt16 := 4096 - state.dmaCounter

/-- A completed frame enters the history, and the window while the task selects. -/
def State.completed (state : State) (buffer : UInt8) : State :=
  { state with
    latest := some buffer
    window := match state.task with
      | .readSecond | .readThird => some buffer :: state.window
      | _ => state.window }

/-- The first branch of `jpeg_data_process` ends the capture of one frame. -/
def finishCapture (layout : FrameLayout) (state : State) : State :=
  { state.completed state.currentcatch with
    dmaEnabled := false
    sdram := state.sdram.copy (pbuf layout state) state.fullLine (rlen state).toNat
    jpegDataLen := state.jpegDataLen + (rlen state).toUInt32
    currentcatch := (state.currentcatch + 1) % 3
    jpegDataOk := 1 }

/-- The second branch of `jpeg_data_process` starts the next capture. -/
def restartCapture (state : State) : State :=
  { state with
    dmaCounter := 4096
    dmaEnabled := true
    jpegDataOk := 0
    jpegDataLen := 0 }

/-- The frame interrupt runs both tests of `jpeg_data_process` in order. -/
def jpegDataProcess (layout : FrameLayout) (state : State) : State :=
  let first := if state.jpegDataOk = 0 then finishCapture layout state else state
  if first.jpegDataOk = 2 then restartCapture first else first

/-- The line interrupt appends one full line buffer to the frame. -/
def jpegDcmiRxCallback (layout : FrameLayout) (state : State) : State :=
  { state with
    sdram := state.sdram.copy (pbuf layout state) state.fullLine netcamLineSize
    jpegDataLen := state.jpegDataLen + 4096 }

/-- A frame interrupt acts in one of three ways, which `jpeg_data_ok` decides. -/
theorem jpegDataProcess_cases (layout : FrameLayout) (state : State) :
    (state.jpegDataOk = 0 ∧ jpegDataProcess layout state = finishCapture layout state) ∨
      (state.jpegDataOk = 2 ∧ jpegDataProcess layout state = restartCapture state) ∨
      (state.jpegDataOk ≠ 0 ∧ state.jpegDataOk ≠ 2 ∧ jpegDataProcess layout state = state) := by
  by_cases idle : state.jpegDataOk = 0
  · exact .inl ⟨idle, by simp [jpegDataProcess, idle, finishCapture]⟩
  · by_cases handled : state.jpegDataOk = 2
    · exact .inr (.inl ⟨handled, by simp [jpegDataProcess, handled]⟩)
    · exact .inr (.inr ⟨idle, handled, by simp [jpegDataProcess, idle, handled]⟩)

end NnpCamera.Capture
