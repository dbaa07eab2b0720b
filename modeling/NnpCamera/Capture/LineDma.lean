/-
This file models the DMA stream that fills the two line buffers.
-/

import NnpCamera.Capture.Handlers

namespace NnpCamera.Capture
open Library

namespace State
variable (state : State)

/-- The line buffer that the DMA fills. -/
def openLine : Nat → UInt32 :=
  if state.dmaTarget then state.netcamLineBuf1 else state.netcamLineBuf0

/-- The counter holds the words that the line still needs. -/
def place : Nat := netcamLineSize - state.dmaCounter.toNat

/-- The next word completes the line. -/
def Completes : Prop := state.dmaCounter = 1

instance : Decidable state.Completes := inferInstanceAs (Decidable (_ = _))

/-- The DMA stores a word in the line buffer that CT names. -/
def storeWord (word : UInt32) : State :=
  if state.dmaTarget then
    { state with netcamLineBuf1 := Function.update state.netcamLineBuf1 state.place word }
  else { state with netcamLineBuf0 := Function.update state.netcamLineBuf0 state.place word }

/-- After the last word of a line the DMA loads the counter again and changes CT. -/
def dmaWord (word : UInt32) : State :=
  let stored := state.storeWord word
  if state.Completes then { stored with dmaCounter := 4096, dmaTarget := !stored.dmaTarget }
  else { stored with dmaCounter := stored.dmaCounter - 1 }

end State

section Word
variable {state : State} (word : UInt32)

/-- The DMA changes its own registers and the line buffers only. -/
theorem dmaWord_keeps {View : Type} (view : State → View)
    (own : ∀ (state : State) target counter line0 line1, view { state with
      dmaTarget := target
      dmaCounter := counter
      netcamLineBuf0 := line0
      netcamLineBuf1 := line1 } = view state) : view (state.dmaWord word) = view state := by
  unfold State.dmaWord State.storeWord
  split
  · split
    · exact own state _ _ _ _
    · exact own state _ _ _ _
  · split
    · exact own state _ _ _ _
    · exact own state _ _ _ _

/-- The line interrupt changes the frame and its length only. -/
theorem jpegDcmiRxCallback_keeps {View : Type} (layout : FrameLayout) (view : State → View)
    (own : ∀ (state : State) sdram jpegDataLen, view { state with
      sdram := sdram
      jpegDataLen := jpegDataLen } = view state) (state : State) :
    view (jpegDcmiRxCallback layout state) = view state := own state _ _

theorem jpegDcmiRxCallback_sdram (layout : FrameLayout) (state : State) :
    (jpegDcmiRxCallback layout state).sdram =
      state.sdram.copy (pbuf layout state) state.fullLine netcamLineSize := rfl

theorem jpegDcmiRxCallback_jpegDataLen (layout : FrameLayout) (state : State) :
    (jpegDcmiRxCallback layout state).jpegDataLen = state.jpegDataLen + 4096 := rfl

/-- A word before the end of a line stays in the open line. -/
theorem dmaWord_open (short : ¬ state.Completes) :
    (state.dmaWord word).openLine = Function.update state.openLine state.place word ∧
      (state.dmaWord word).fullLine = state.fullLine ∧
      (state.dmaWord word).dmaCounter = state.dmaCounter - 1 := by
  unfold State.dmaWord State.storeWord State.openLine State.fullLine
  rw [if_neg short]
  by_cases target : state.dmaTarget = true
  · simp [target]
  · simp [target]

/-- The last word of a line exchanges the two lines. -/
theorem dmaWord_completes (last : state.Completes) :
    (state.dmaWord word).openLine = state.fullLine ∧
      (state.dmaWord word).fullLine = Function.update state.openLine state.place word ∧
      (state.dmaWord word).dmaCounter = 4096 := by
  unfold State.dmaWord State.storeWord State.openLine State.fullLine
  rw [if_pos last]
  by_cases target : state.dmaTarget = true
  · simp [target]
  · simp [target]

end Word

end NnpCamera.Capture
