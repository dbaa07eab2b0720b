/-
This file interleaves the capture interrupts with the accesses of `imgcamera_task`.
-/

import NnpCamera.Library.Runs
import NnpCamera.Capture.Handlers

namespace NnpCamera.Capture
open Library

/-- One event is an interrupt, a DMA transfer, a command, or one access of the task. -/
inductive Event where
  | frame
  | line
  | dma (target : Bool) (counter : UInt16) (line0 line1 : Nat → UInt32)
  | watchImage (data2 : UInt8)
  | readFrame (word : Nat)
  | task

/-- The image modes that have a branch in `imgcamera_task`. -/
def servedMode (mode : UInt8) : Prop := mode = 0 ∨ mode = 1 ∨ mode = 3

instance (mode : UInt8) : Decidable (servedMode mode) :=
  inferInstanceAs (Decidable (_ ∨ _))

/-- The task tests `currentcatch` once and keeps `GetCatchPos` when the test fails. -/
def selectingRead (state : State) (expected buffer : UInt8) (otherwise : TaskPoint) : State :=
  if state.currentcatch = expected then { state with getCatchPos := buffer, task := .chosen }
  else { state with task := otherwise }

/-- The task executes the access at its program point. -/
def taskStep (state : State) : State :=
  match state.task with
  | .testOk => { state with task := if state.jpegDataOk = 1 then .markOk else .testSend }
  | .markOk => { state with jpegDataOk := 2, task := .testSend }
  | .testSend => { state with task := if state.jpegDataSend = 1 then .readFirst else .testOk }
  | .readFirst => selectingRead { state with window := [state.latest] } 0 2 .readSecond
  | .readSecond => selectingRead state 1 0 .readThird
  | .readThird => selectingRead state 2 1 .chosen
  | .chosen => { state with task := .sending }
  | .sending =>
      -- An unserved mode falls through all branches and leaves the request set.
      if servedMode state.jpegDataPcsendFlag then { state with jpegDataSend := 0, task := .testOk }
      else { state with task := .testOk }

/-- The command task drops a request that arrives before the last one is handled. -/
def watchImageBlock (state : State) (data2 : UInt8) : State :=
  if state.jpegDataSend = 1 then state
  else { state with jpegDataPcsendFlag := data2, jpegDataSend := 1 }

/-- This system takes one event at a time. The DMA works only while its stream is enabled. -/
def system (layout : FrameLayout) : System State Event where
  step state event :=
    match event with
    | .frame => some (jpegDataProcess layout state)
    | .line => if state.dmaEnabled then some (jpegDcmiRxCallback layout state) else none
    | .dma target counter line0 line1 =>
        if state.dmaEnabled then
          some { state with
            dmaTarget := target
            dmaCounter := counter
            netcamLineBuf0 := line0
            netcamLineBuf1 := line1 }
        else none
    | .watchImage data2 => some (watchImageBlock state data2)
    | .readFrame _ => if state.task = .sending then some state else none
    | .task => some (taskStep state)

/-- The state after `camera_init` has started the first capture. -/
structure Booted (state : State) : Prop where
  jpegDataOk : state.jpegDataOk = 0
  jpegDataLen : state.jpegDataLen = 0
  currentcatch : state.currentcatch = 0
  jpegDataSend : state.jpegDataSend = 0
  jpegDataPcsendFlag : state.jpegDataPcsendFlag = 0
  dmaEnabled : state.dmaEnabled = true
  task : state.task = .testOk
  getCatchPos : state.getCatchPos = 0
  latest : state.latest = none
  window : state.window = []

/-- Each step is one of six kinds, and the DMA events need an enabled stream. -/
theorem step_cases {layout : FrameLayout} {state after : State} {event : Event}
    (stepped : (system layout).step state event = some after) :
    (event = .frame ∧ after = jpegDataProcess layout state) ∨
      (event = .line ∧ state.dmaEnabled = true ∧ after = jpegDcmiRxCallback layout state) ∨
      (∃ target counter line0 line1, event = .dma target counter line0 line1 ∧
        after = { state with
          dmaTarget := target
          dmaCounter := counter
          netcamLineBuf0 := line0
          netcamLineBuf1 := line1 }) ∨
      (∃ data2, event = .watchImage data2 ∧ after = watchImageBlock state data2) ∨
      (∃ word, event = .readFrame word ∧ after = state) ∨
      (event = .task ∧ after = taskStep state) := by
  cases event with
  | frame => exact .inl ⟨rfl, (Option.some.inj stepped).symm⟩
  | line =>
      simp only [system, Option.ite_none_right_eq_some, Option.some.injEq] at stepped
      exact .inr (.inl ⟨rfl, stepped.1, stepped.2.symm⟩)
  | dma target counter line0 line1 =>
      simp only [system, Option.ite_none_right_eq_some, Option.some.injEq] at stepped
      exact .inr (.inr (.inl ⟨target, counter, line0, line1, rfl, stepped.2.symm⟩))
  | watchImage data2 =>
      exact .inr (.inr (.inr (.inl ⟨data2, rfl, (Option.some.inj stepped).symm⟩)))
  | readFrame word =>
      simp only [system, Option.ite_none_right_eq_some, Option.some.injEq] at stepped
      exact .inr (.inr (.inr (.inr (.inl ⟨word, rfl, stepped.2.symm⟩))))
  | task => exact .inr (.inr (.inr (.inr (.inr ⟨rfl, (Option.some.inj stepped).symm⟩))))

end NnpCamera.Capture
