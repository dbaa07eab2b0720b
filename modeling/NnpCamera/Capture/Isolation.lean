/-
This file separates the frame that is captured from the frame that is sent.
-/

import NnpCamera.Capture.Interleaving

namespace NnpCamera.Capture
open Library

/-- The number of words that the code of one event stores into a frame. -/
def storedWords (state : State) : Event → Nat
  | .frame => if state.jpegDataOk = 0 then (rlen state).toNat else 0
  | .line => netcamLineSize
  | _ => 0

/-- The SDRAM words that the code of one event stores. -/
def stored (layout : FrameLayout) (state : State) (event : Event) : Set Nat :=
  {address | pbuf layout state ≤ address ∧
    address < pbuf layout state + storedWords state event}

/-- The capture in progress stays within one frame buffer up to this event. -/
def Fits (state : State) (event : Event) : Prop :=
  state.jpegDataLen.toNat + storedWords state event ≤ frameWords

/-- The task has chosen its frame and has not left the branch that sends it. -/
def Transmitting (state : State) : Prop := state.task = .chosen ∨ state.task = .sending

/-- The capture flag keeps its value or moves to the next of its three values. -/
def FlagMove (before after : UInt8) : Prop :=
  after = before ∨ (before = 0 ∧ after = 1) ∨ (before = 1 ∧ after = 2) ∨
    (before = 2 ∧ after = 0)

/-- An event changes only the words in its stored range. -/
theorem step_sdram_outside {layout : FrameLayout} {state after : State} {event : Event}
    (stepped : (system layout).step state event = some after) (address : Nat)
    (outside : address ∉ stored layout state event) :
    after.sdram address = state.sdram address := by
  have away : address < pbuf layout state ∨
      pbuf layout state + storedWords state event ≤ address := by
    by_contra inside
    exact outside ⟨by omega, by omega⟩
  rcases step_cases stepped with ⟨rfl, rfl⟩ | ⟨rfl, _, rfl⟩ | ⟨_, _, _, _, rfl, rfl⟩ |
    ⟨_, rfl, rfl⟩ | ⟨_, rfl, rfl⟩ | ⟨rfl, rfl⟩
  · rcases jpegDataProcess_cases layout state with ⟨idle, same⟩ | ⟨_, same⟩ | ⟨_, _, same⟩
    · simp only [storedWords, if_pos idle] at away
      rw [same]
      exact Memory.copy_outside _ _ _ _ _ away
    · rw [same]; rfl
    · rw [same]
  · exact Memory.copy_outside _ _ _ _ _ away
  · rfl
  · unfold watchImageBlock; split <;> rfl
  · rfl
  · unfold taskStep
    split <;> first | rfl | (unfold selectingRead; split <;> rfl) | (split <;> rfl)

/-- The buffer that was current one capture ago. -/
def previousBuffer (current : UInt8) : UInt8 := (current + 2) % 3

/-- While a capture can still run, the selecting reads have seen the current buffer. -/
structure CaptureInvariant (state : State) : Prop where
  position : state.currentcatch = 0 ∨ state.currentcatch = 1 ∨ state.currentcatch = 2
  flag : state.jpegDataOk = 0 ∨ state.jpegDataOk = 1 ∨ state.jpegDataOk = 2
  stream : state.dmaEnabled = true ↔ state.jpegDataOk = 0
  mark : state.task = .markOk → state.jpegDataOk = 1
  second : state.task = .readSecond → state.jpegDataOk = 1 ∨ state.currentcatch ≠ 0
  third : state.task = .readThird → state.jpegDataOk = 1 ∨ state.currentcatch = 2
  selected : Transmitting state →
    state.jpegDataOk = 1 ∨ state.getCatchPos = previousBuffer state.currentcatch

theorem Booted.invariant {state : State} (booted : Booted state) : CaptureInvariant state where
  position := .inl booted.currentcatch
  flag := .inl booted.jpegDataOk
  stream := by simp [booted.dmaEnabled, booted.jpegDataOk]
  mark atMark := by simp [booted.task] at atMark
  second atSecond := by simp [booted.task] at atSecond
  third atThird := by simp [booted.task] at atThird
  selected sending := by simp [Transmitting, booted.task] at sending

/-- The invariant reads five fields only. -/
theorem CaptureInvariant.transfer {state after : State} (sound : CaptureInvariant state)
    (position : after.currentcatch = state.currentcatch)
    (flag : after.jpegDataOk = state.jpegDataOk) (stream : after.dmaEnabled = state.dmaEnabled)
    (task : after.task = state.task) (chosen : after.getCatchPos = state.getCatchPos) :
    CaptureInvariant after where
  position := by simpa only [position] using sound.position
  flag := by simpa only [flag] using sound.flag
  stream := by simpa only [stream, flag] using sound.stream
  mark := by simpa only [task, flag] using sound.mark
  second := by simpa only [task, flag, position] using sound.second
  third := by simpa only [task, flag, position] using sound.third
  selected := by
    simpa only [Transmitting, task, flag, position, chosen] using sound.selected

/-- The end of a capture stops all further stores, so every selection is safe. -/
theorem CaptureInvariant.finishCapture {layout : FrameLayout} {state : State}
    (sound : CaptureInvariant state) : CaptureInvariant (finishCapture layout state) where
  position := by
    rcases sound.position with here | here | here <;>
      simp [Capture.finishCapture, State.completed, here]
  flag := .inr (.inl rfl)
  stream := by simp [Capture.finishCapture]
  mark _ := rfl
  second _ := .inl rfl
  third _ := .inl rfl
  selected _ := .inl rfl

/-- The next capture starts in the buffer that the selecting reads have seen. -/
theorem CaptureInvariant.restartCapture {state : State} (sound : CaptureInvariant state)
    (handled : state.jpegDataOk = 2) : CaptureInvariant (restartCapture state) where
  position := sound.position
  flag := .inl rfl
  stream := by simp [Capture.restartCapture]
  mark atMark := by simpa [handled] using sound.mark atMark
  second atSecond := .inr ((sound.second atSecond).resolve_left (by simp [handled]))
  third atThird := .inr ((sound.third atThird).resolve_left (by simp [handled]))
  selected sending := .inr ((sound.selected sending).resolve_left (by simp [handled]))

/-- Outside the selection and the transmission, the task point does not matter. -/
theorem CaptureInvariant.rest {state : State} (sound : CaptureInvariant state) {point : TaskPoint}
    (outside : point = .testOk ∨ point = .testSend ∨ point = .readFirst) :
    CaptureInvariant { state with task := point } := by
  rcases outside with rfl | rfl | rfl <;>
    exact { sound with
      mark := by simp
      second := by simp
      third := by simp
      selected := by simp [Transmitting] }

/-- The task can choose the buffer before the current one, and any buffer after a capture. -/
theorem CaptureInvariant.choose {state : State} (sound : CaptureInvariant state) {buffer : UInt8}
    {point : TaskPoint} (chosen : point = .chosen ∨ point = .sending)
    (safe : state.jpegDataOk = 1 ∨ buffer = previousBuffer state.currentcatch) :
    CaptureInvariant { state with getCatchPos := buffer, task := point } := by
  rcases chosen with rfl | rfl <;>
    exact { sound with
      mark := by simp
      second := by simp
      third := by simp
      selected := fun _ => safe }

/-- A selecting read that matches chooses the buffer before the current one. -/
theorem CaptureInvariant.selectingRead {state : State} (sound : CaptureInvariant state)
    {expected buffer : UInt8} {otherwise : TaskPoint} (previous : buffer = previousBuffer expected)
    (missed : state.currentcatch ≠ expected →
      CaptureInvariant { state with task := otherwise }) :
    CaptureInvariant (selectingRead state expected buffer otherwise) := by
  unfold Capture.selectingRead
  split
  next found => exact sound.choose (.inl rfl) (.inr (by rw [previous, found]))
  next other => exact missed other

/-- Each access of the task keeps the invariant at its next point. -/
theorem CaptureInvariant.taskStep {state : State} (sound : CaptureInvariant state) :
    CaptureInvariant (taskStep state) := by
  cases here : state.task with
  | testOk =>
      simp only [Capture.taskStep, here]
      split
      next captured =>
        exact { sound with
          mark := fun _ => captured
          second := by simp
          third := by simp
          selected := by simp [Transmitting] }
      next => exact sound.rest (.inr (.inl rfl))
  | markOk =>
      simp only [Capture.taskStep, here]
      exact { sound with
        flag := .inr (.inr rfl)
        stream := by simpa [sound.mark here] using sound.stream
        mark := by simp
        second := by simp
        third := by simp
        selected := by simp [Transmitting] }
  | testSend =>
      simp only [Capture.taskStep, here]
      split
      · exact sound.rest (.inr (.inr rfl))
      · exact sound.rest (.inl rfl)
  | readFirst =>
      have opened : CaptureInvariant { state with window := [state.latest] } :=
        sound.transfer rfl rfl rfl rfl rfl
      simp only [Capture.taskStep, here]
      apply opened.selectingRead (by decide)
      intro other
      exact { opened with
        mark := by simp
        second := fun _ => .inr other
        third := by simp
        selected := by simp [Transmitting] }
  | readSecond =>
      simp only [Capture.taskStep, here]
      apply sound.selectingRead (by decide)
      intro other
      have last : state.jpegDataOk = 1 ∨ state.currentcatch = 2 := by
        rcases sound.second here with stopped | moved
        · exact .inl stopped
        · exact .inr (by simpa [moved, other] using sound.position)
      exact { sound with
        mark := by simp
        second := by simp
        third := fun _ => last
        selected := by simp [Transmitting] }
  | readThird =>
      simp only [Capture.taskStep, here]
      apply sound.selectingRead (by decide)
      intro other
      -- The reads found no buffer only if the capture ended, which stops the stores.
      have stopped : state.jpegDataOk = 1 := (sound.third here).resolve_right other
      exact sound.choose (.inl rfl) (.inl stopped)
  | chosen =>
      simp only [Capture.taskStep, here]
      exact sound.choose (.inr rfl) (sound.selected (.inl here))
  | sending =>
      simp only [Capture.taskStep, here]
      split
      · exact (sound.rest (.inl rfl)).transfer rfl rfl rfl rfl rfl
      · exact sound.rest (.inl rfl)

/-- Each event keeps the capture invariant. -/
theorem CaptureInvariant.step {layout : FrameLayout} {state after : State} {event : Event}
    (sound : CaptureInvariant state) (stepped : (system layout).step state event = some after) :
    CaptureInvariant after := by
  rcases step_cases stepped with ⟨rfl, rfl⟩ | ⟨rfl, _, rfl⟩ | ⟨_, _, _, _, rfl, rfl⟩ |
    ⟨_, rfl, rfl⟩ | ⟨_, rfl, rfl⟩ | ⟨rfl, rfl⟩
  · rcases jpegDataProcess_cases layout state with ⟨_, same⟩ | ⟨handled, same⟩ | ⟨_, _, same⟩
    · rw [same]; exact sound.finishCapture
    · rw [same]; exact sound.restartCapture handled
    · rw [same]; exact sound
  · apply sound.transfer <;> simp only [jpegDcmiRxCallback]
  · exact sound.transfer rfl rfl rfl rfl rfl
  · unfold watchImageBlock
    split
    · exact sound
    · exact sound.transfer rfl rfl rfl rfl rfl
  · exact sound
  · exact sound.taskStep

theorem reachable_captureInvariant {layout : FrameLayout} {start state : State}
    (booted : Booted start) (reached : (system layout).Reachable start state) :
    CaptureInvariant state :=
  reached.invariant booted.invariant fun _ _ _ sound _ stepped => sound.step stepped

/-- Each event moves the capture flag along its cycle. -/
theorem step_flagMove {layout : FrameLayout} {state after : State} {event : Event}
    (sound : CaptureInvariant state) (stepped : (system layout).step state event = some after) :
    FlagMove state.jpegDataOk after.jpegDataOk := by
  rcases step_cases stepped with ⟨rfl, rfl⟩ | ⟨rfl, _, rfl⟩ | ⟨_, _, _, _, rfl, rfl⟩ |
    ⟨_, rfl, rfl⟩ | ⟨_, rfl, rfl⟩ | ⟨rfl, rfl⟩
  · rcases jpegDataProcess_cases layout state with ⟨idle, same⟩ | ⟨handled, same⟩ | ⟨_, _, same⟩
    · rw [same]; exact .inr (.inl ⟨idle, rfl⟩)
    · rw [same]; exact .inr (.inr (.inr ⟨handled, rfl⟩))
    · rw [same]; exact .inl rfl
  · simp only [jpegDcmiRxCallback]
    exact .inl rfl
  · exact .inl rfl
  · unfold watchImageBlock
    split <;> exact .inl rfl
  · exact .inl rfl
  · cases here : state.task with
    | markOk =>
        simp only [taskStep, here]
        exact .inr (.inr (.inl ⟨sound.mark here, rfl⟩))
    | readFirst | readSecond | readThird =>
        simp only [taskStep, here, selectingRead]
        split <;> exact .inl rfl
    | sending =>
        simp only [taskStep, here]
        split <;> exact .inl rfl
    | testOk | testSend | chosen =>
        simp only [taskStep, here]
        exact .inl rfl

/-- An event stores words only while the capture flag is clear. -/
theorem storedWords_capturing {layout : FrameLayout} {state after : State} {event : Event}
    (sound : CaptureInvariant state) (stepped : (system layout).step state event = some after)
    (address : Nat) (inside : address ∈ stored layout state event) : state.jpegDataOk = 0 := by
  obtain ⟨lower, upper⟩ := inside
  rcases step_cases stepped with ⟨rfl, _⟩ | ⟨rfl, enabled, _⟩ | ⟨_, _, _, _, rfl, _⟩ |
    ⟨_, rfl, _⟩ | ⟨_, rfl, _⟩ | ⟨rfl, _⟩
  · by_contra busy
    simp only [storedWords, if_neg busy] at upper
    omega
  · exact sound.stream.mp enabled
  all_goals
    simp only [storedWords] at upper
    omega

/-- The buffer that is sent is never the buffer that is captured. -/
theorem transmitted_ne_current {state : State} (sound : CaptureInvariant state)
    (sending : Transmitting state) (capturing : state.jpegDataOk = 0) :
    state.currentcatch ≠ state.getCatchPos := by
  have chosen : state.getCatchPos = previousBuffer state.currentcatch := by
    simpa [capturing] using sound.selected sending
  rw [chosen]
  rcases sound.position with here | here | here <;> rw [here] <;> decide

/-- Each store goes to the current buffer, which is not the buffer that is sent. A capture
that fits its buffer thus stores no word of the frame that is sent. -/
theorem captureIsolation (layout : FrameLayout) {start state after : State} {event : Event}
    (booted : Booted start) (reached : (system layout).Reachable start state)
    (stepped : (system layout).step state event = some after) :
    state.currentcatch.toNat < 3 ∧
      (state.dmaEnabled = true ↔ state.jpegDataOk = 0) ∧
      FlagMove state.jpegDataOk after.jpegDataOk ∧
      (Transmitting state → ∀ address ∈ stored layout state event,
        state.currentcatch ≠ state.getCatchPos ∧
          (∃ index, address = layout.imgbuf2592x480x32 state.currentcatch + index) ∧
          (Fits state event → address ∉ layout.frame state.getCatchPos)) := by
  have sound := reachable_captureInvariant booted reached
  have small : state.currentcatch < 3 ∧ previousBuffer state.currentcatch < 3 := by
    rcases sound.position with here | here | here <;> rw [here] <;> decide
  refine ⟨UInt8.lt_iff_toNat_lt.mp small.1, sound.stream, step_flagMove sound stepped, ?_⟩
  intro sending address inside
  have capturing := storedWords_capturing sound stepped address inside
  have different := transmitted_ne_current sound sending capturing
  obtain ⟨lower, upper⟩ := inside
  simp only [pbuf] at lower upper
  refine ⟨different, ⟨address - layout.imgbuf2592x480x32 state.currentcatch, by omega⟩, ?_⟩
  intro fits member
  have chosen : state.getCatchPos = previousBuffer state.currentcatch := by
    simpa [capturing] using sound.selected sending
  have apart := layout.apart _ _ small.1 (chosen ▸ small.2) different
  obtain ⟨first, last⟩ := member
  simp only [Fits] at fits
  omega

/-- The pool gives out blocks from its end, so the three frame buffers adjoin. -/
def mymallocLayout : FrameLayout where
  imgbuf2592x480x32 buffer := 811353568 + (2 - buffer.toNat) * frameWords
  apart first second firstSmall secondSmall different := by
    have firstNat := UInt8.lt_iff_toNat_lt.mp firstSmall
    have secondNat := UInt8.lt_iff_toNat_lt.mp secondSmall
    have apart : first.toNat ≠ second.toNat := fun same => different (UInt8.toNat.inj same)
    change first.toNat < 3 at firstNat
    change second.toNat < 3 at secondNat
    simp only [frameWords]
    omega

/-- The boot state with an empty first line and clear memory. -/
def bootState : State where
  jpegDataOk := 0
  jpegDataLen := 0
  currentcatch := 0
  jpegDataSend := 0
  jpegDataPcsendFlag := 0
  dmaEnabled := true
  dmaTarget := false
  dmaCounter := 4096
  netcamLineBuf0 := fun _ => 0
  netcamLineBuf1 := fun _ => 0
  sdram := fun _ => 0
  task := .testOk
  getCatchPos := 0
  latest := none
  window := []

theorem bootState_booted : Booted bootState := by
  constructor <;> rfl

/-- A request that is sent from frame 0 while the camera captures into frame 1. -/
def sendingEvents : List Event :=
  [.frame, .task, .task, .frame, .watchImage 0, .task, .task, .task, .task]

/-- The state in which the request has chosen frame 0. -/
def sendingState : State :=
  (((system mymallocLayout).guarded fun _ _ => True).run bootState sendingEvents).get
    (by decide +kernel)

theorem sendingState_reached : (system mymallocLayout).Reachable bootState sendingState :=
  System.guarded_run _ _ _ sendingEvents (Option.some_get _).symm

/-- The first line of the capture leaves the frame that is sent alone. -/
theorem captureIsolation_sending :
    Transmitting sendingState ∧
      ∀ address ∈ stored mymallocLayout sendingState .line,
        sendingState.currentcatch ≠ sendingState.getCatchPos ∧
          (Fits sendingState .line → address ∉ mymallocLayout.frame sendingState.getCatchPos) := by
  have sending : Transmitting sendingState := .inr (by decide +kernel)
  have enabled : sendingState.dmaEnabled = true := by decide +kernel
  have stepped : (system mymallocLayout).step sendingState .line =
      some (jpegDcmiRxCallback mymallocLayout sendingState) := by
    simp only [system, if_pos enabled]
  have isolated := captureIsolation mymallocLayout bootState_booted sendingState_reached stepped
  refine ⟨sending, fun address inside => ?_⟩
  obtain ⟨different, _, free⟩ := isolated.2.2.2 sending address inside
  exact ⟨different, free⟩

/-- The same request during a capture that has received 151 lines. -/
def overrunEvents : List Event := sendingEvents ++ List.replicate 151 .line

/-- A request for a mode with no branch, with the frame wrap inside the selecting reads. -/
def unservedEvents : List Event :=
  [.frame, .task, .task, .frame, .task, .frame, .task, .task, .frame, .watchImage 2, .task,
    .task, .frame, .task, .task]

/-- The state in which the request for the unserved mode has chosen frame 0. -/
def unservedChosen : State :=
  (((system mymallocLayout).guarded fun _ _ => True).run bootState unservedEvents).get
    (by decide +kernel)

/-- The first word of frame 0. -/
def firstWord : Nat := mymallocLayout.imgbuf2592x480x32 0

/-- A line that starts at most one line before frame 0 stores its first word. -/
theorem firstWord_stored {state : State} (low : pbuf mymallocLayout state ≤ firstWord)
    (high : firstWord < pbuf mymallocLayout state + netcamLineSize)
    (chosen : state.getCatchPos = 0) :
    ∃ address, address ∈ stored mymallocLayout state .line ∧
      address ∈ mymallocLayout.frame state.getCatchPos := by
  refine ⟨firstWord, ⟨low, high⟩, ?_⟩
  rw [chosen]
  exact ⟨Nat.le_refl _, Nat.lt_add_of_pos_right (by decide)⟩

/-- Without a bound on the capture, the 152nd line runs into the frame that is sent. A mode with
no branch never clears its request, and the next capture then fills the chosen frame. -/
theorem captureIsolation_overrun :
    (∃ state after, (system mymallocLayout).Reachable bootState state ∧ Transmitting state ∧
      (system mymallocLayout).step state .line = some after ∧
      ∃ address, address ∈ stored mymallocLayout state .line ∧
        address ∈ mymallocLayout.frame state.getCatchPos) ∧
    (∃ chosen state after, (system mymallocLayout).Reachable bootState chosen ∧
      chosen.task = .chosen ∧
      (system mymallocLayout).Reaches (fun before _ => before.jpegDataSend = 1) chosen state ∧
      state.jpegDataSend = 1 ∧ state.getCatchPos = chosen.getCatchPos ∧
      (system mymallocLayout).step state .line = some after ∧ Fits state .line ∧
      ∃ address, address ∈ stored mymallocLayout state .line ∧
        address ∈ mymallocLayout.frame chosen.getCatchPos) := by
  constructor
  · obtain ⟨state, reached, checked⟩ := System.guarded_check (system mymallocLayout)
      (fun _ _ => True) bootState overrunEvents
      (fun state => decide (state.task = .sending ∧ state.getCatchPos = 0 ∧
        state.currentcatch = 1 ∧ state.jpegDataLen = 618496 ∧ state.dmaEnabled = true))
      (by decide +kernel)
    simp only [decide_eq_true_eq] at checked
    obtain ⟨task, chosen, current, length, enabled⟩ := checked
    have start : pbuf mymallocLayout state = 812594144 := by
      simp only [pbuf, current, length]
      rfl
    refine ⟨state, jpegDcmiRxCallback mymallocLayout state, reached, .inr task,
      by simp only [system, if_pos enabled], firstWord_stored ?_ ?_ chosen⟩
    · rw [start]
      decide
    · rw [start]
      decide
  · have reached : (system mymallocLayout).Reachable bootState unservedChosen :=
      System.guarded_run _ _ _ unservedEvents (Option.some_get _).symm
    have chosen : unservedChosen.task = .chosen ∧ unservedChosen.getCatchPos = 0 := by
      decide +kernel
    obtain ⟨state, continued, checked⟩ := System.guarded_check (system mymallocLayout)
      (fun before _ => before.jpegDataSend = 1) unservedChosen
      [.task, .task, .task, .task, .frame]
      (fun state => decide (state.jpegDataSend = 1 ∧ state.getCatchPos = 0 ∧
        state.currentcatch = 0 ∧ state.jpegDataLen = 0 ∧ state.dmaEnabled = true))
      (by decide +kernel)
    simp only [decide_eq_true_eq] at checked
    obtain ⟨requested, kept, current, length, enabled⟩ := checked
    have start : pbuf mymallocLayout state = firstWord := by
      simp only [pbuf, current, length]
      rfl
    have same : state.getCatchPos = unservedChosen.getCatchPos := kept.trans chosen.2.symm
    refine ⟨unservedChosen, state, jpegDcmiRxCallback mymallocLayout state, reached, chosen.1,
      continued, requested, same, by simp only [system, if_pos enabled], ?_, ?_⟩
    · simp only [Fits, length, storedWords]
      decide
    · rw [← same]
      apply firstWord_stored _ _ kept
      · rw [start]
      · rw [start]
        decide

end NnpCamera.Capture
