/-
This file relates the chosen frame to the last completed frame.
-/

import NnpCamera.Capture.Isolation

namespace NnpCamera.Capture
open Library

/-- A frame that completes now wraps `currentcatch` inside the selecting reads. -/
def WrapsSelection (state : State) : Prop :=
  state.jpegDataOk = 0 ∧ state.currentcatch = 2 ∧
    (state.task = .readSecond ∨ state.task = .readThird)

/-- A frame that completes now is the first one, and the task has selected before it. -/
def CompletesTooLate (state : State) : Prop :=
  state.jpegDataOk = 0 ∧ state.latest = none ∧ state.task = .chosen

instance (state : State) : Decidable (WrapsSelection state) :=
  inferInstanceAs (Decidable (_ ∧ _ ∧ (_ ∨ _)))

instance (state : State) : Decidable (CompletesTooLate state) :=
  inferInstanceAs (Decidable (_ ∧ _ ∧ _))

/-- A frame event does not disturb a selection. -/
def Undisturbed (state : State) : Event → Prop
  | .frame => ¬ WrapsSelection state ∧ ¬ CompletesTooLate state
  | _ => True

instance (state : State) : (event : Event) → Decidable (Undisturbed state event)
  | .frame => inferInstanceAs (Decidable (_ ∧ _))
  | .line | .dma .. | .watchImage _ | .readFrame _ | .task => .isTrue trivial

/-- The history follows the code: the last completed frame precedes the current buffer, and
each pending read still sees a buffer that it can choose. -/
structure SelectionInvariant (state : State) : Prop where
  position : state.currentcatch = 0 ∨ state.currentcatch = 1 ∨ state.currentcatch = 2
  completed : ∀ buffer, state.latest = some buffer → buffer = previousBuffer state.currentcatch
  unfilled : state.latest = none → state.currentcatch = 0
  second : state.task = .readSecond → state.currentcatch ≠ 0 ∧ state.latest ∈ state.window
  third : state.task = .readThird → state.currentcatch = 2 ∧ state.latest ∈ state.window
  fresh : state.task = .chosen → state.latest ≠ none → some state.getCatchPos ∈ state.window

theorem Booted.selection {state : State} (booted : Booted state) : SelectionInvariant state where
  position := .inl booted.currentcatch
  completed buffer last := by simp [booted.latest] at last
  unfilled _ := booted.currentcatch
  second atSecond := by simp [booted.task] at atSecond
  third atThird := by simp [booted.task] at atThird
  fresh atChosen := by simp [booted.task] at atChosen

/-- The selection reads these six fields only. -/
theorem SelectionInvariant.transfer {state after : State} (sound : SelectionInvariant state)
    (position : after.currentcatch = state.currentcatch) (task : after.task = state.task)
    (chosen : after.getCatchPos = state.getCatchPos) (latest : after.latest = state.latest)
    (window : after.window = state.window) : SelectionInvariant after where
  position := by simpa only [position] using sound.position
  completed := by simpa only [position, latest] using sound.completed
  unfilled := by simpa only [position, latest] using sound.unfilled
  second := by simpa only [task, position, latest, window] using sound.second
  third := by simpa only [task, position, latest, window] using sound.third
  fresh := by simpa only [task, chosen, latest, window] using sound.fresh

/-- A completed frame that does not disturb a selection enters its window. -/
theorem SelectionInvariant.finishCapture {layout : FrameLayout} {state : State}
    (sound : SelectionInvariant state) (capturing : state.jpegDataOk = 0)
    (calm : Undisturbed state .frame) : SelectionInvariant (finishCapture layout state) := by
  obtain ⟨noWrap, notLate⟩ := calm
  have advance : previousBuffer ((state.currentcatch + 1) % 3) = state.currentcatch := by
    rcases sound.position with here | here | here <;> rw [here] <;> decide
  have position : (state.currentcatch + 1) % 3 = 0 ∨ (state.currentcatch + 1) % 3 = 1 ∨
      (state.currentcatch + 1) % 3 = 2 := by
    rcases sound.position with here | here | here <;> rw [here] <;> decide
  refine ⟨position, ?_, ?_, ?_, ?_, ?_⟩
  · intro buffer last
    have same : state.currentcatch = buffer := by
      simpa [Capture.finishCapture, State.completed] using last
    exact same.symm.trans advance.symm
  · intro last
    simp [Capture.finishCapture, State.completed] at last
  · intro atSecond
    change state.task = .readSecond at atSecond
    have before := (sound.second atSecond).1
    have low : state.currentcatch = 1 := by
      rcases sound.position with here | here | here
      · exact absurd here before
      · exact here
      · exact absurd ⟨capturing, here, .inl atSecond⟩ noWrap
    simp [Capture.finishCapture, State.completed, atSecond, low]
  · intro atThird
    change state.task = .readThird at atThird
    exact absurd ⟨capturing, (sound.third atThird).1, .inr atThird⟩ noWrap
  · intro atChosen _
    change state.task = .chosen at atChosen
    have known : state.latest ≠ none := fun none => notLate ⟨capturing, none, atChosen⟩
    have kept := sound.fresh atChosen known
    simpa [Capture.finishCapture, State.completed, atChosen] using kept

/-- Outside the selection, the task point does not matter. -/
theorem SelectionInvariant.rest {state : State} (sound : SelectionInvariant state)
    {point : TaskPoint} (second : point ≠ .readSecond) (third : point ≠ .readThird)
    (chosen : point ≠ .chosen) : SelectionInvariant { state with task := point } :=
  { sound with
    second := fun here => absurd here second
    third := fun here => absurd here third
    fresh := fun here => absurd here chosen }

/-- A selecting read that matches chooses the last completed buffer of the window. -/
theorem SelectionInvariant.selectingRead {state : State} (sound : SelectionInvariant state)
    {expected buffer : UInt8} {otherwise : TaskPoint} (previous : buffer = previousBuffer expected)
    (seen : state.latest ∈ state.window)
    (missed : state.currentcatch ≠ expected →
      SelectionInvariant { state with task := otherwise }) :
    SelectionInvariant (selectingRead state expected buffer otherwise) := by
  unfold Capture.selectingRead
  split
  next found =>
    refine { sound with second := by simp, third := by simp, fresh := fun _ known => ?_ }
    obtain ⟨last, same⟩ := Option.ne_none_iff_exists'.mp known
    have chosen : last = buffer := by
      rw [sound.completed last same, previous, found]
    rw [same, chosen] at seen
    exact seen
  next other => exact missed other

/-- Each access of the task keeps the selection invariant. -/
theorem SelectionInvariant.taskStep {state : State} (sound : SelectionInvariant state) :
    SelectionInvariant (taskStep state) := by
  cases here : state.task with
  | testOk | testSend =>
      simp only [Capture.taskStep, here]
      split <;> exact sound.rest (by decide) (by decide) (by decide)
  | markOk =>
      have marked : SelectionInvariant { state with jpegDataOk := 2 } :=
        sound.transfer rfl rfl rfl rfl rfl
      simp only [Capture.taskStep, here]
      exact marked.rest (by decide) (by decide) (by decide)
  | chosen =>
      simp only [Capture.taskStep, here]
      exact sound.rest (by decide) (by decide) (by decide)
  | sending =>
      have cleared : SelectionInvariant { state with jpegDataSend := 0 } :=
        sound.transfer rfl rfl rfl rfl rfl
      simp only [Capture.taskStep, here]
      split
      · exact cleared.rest (by decide) (by decide) (by decide)
      · exact sound.rest (by decide) (by decide) (by decide)
  | readFirst =>
      -- The window of the selection opens with the last completed buffer.
      have opened : SelectionInvariant { state with window := [state.latest] } :=
        { sound with
          second := by simp [here]
          third := by simp [here]
          fresh := by simp [here] }
      simp only [Capture.taskStep, here]
      apply opened.selectingRead (by decide) (List.mem_singleton_self _)
      intro other
      exact { opened with
        second := fun _ => ⟨other, List.mem_singleton_self _⟩
        third := by simp
        fresh := by simp }
  | readSecond =>
      obtain ⟨notFirst, seen⟩ := sound.second here
      simp only [Capture.taskStep, here]
      apply sound.selectingRead (by decide) seen
      intro other
      have high : state.currentcatch = 2 := by simpa [notFirst, other] using sound.position
      exact { sound with
        second := by simp
        third := fun _ => ⟨high, seen⟩
        fresh := by simp }
  | readThird =>
      obtain ⟨last, seen⟩ := sound.third here
      simp only [Capture.taskStep, here]
      apply sound.selectingRead (by decide) seen
      intro other
      exact absurd last other

/-- Each undisturbed event keeps the selection invariant. -/
theorem SelectionInvariant.step {layout : FrameLayout} {state after : State} {event : Event}
    (sound : SelectionInvariant state) (calm : Undisturbed state event)
    (stepped : (system layout).step state event = some after) : SelectionInvariant after := by
  rcases step_cases stepped with ⟨rfl, rfl⟩ | ⟨rfl, _, rfl⟩ | ⟨_, _, _, _, rfl, rfl⟩ |
    ⟨_, rfl, rfl⟩ | ⟨_, rfl, rfl⟩ | ⟨rfl, rfl⟩
  · rcases jpegDataProcess_cases layout state with ⟨idle, same⟩ | ⟨_, same⟩ | ⟨_, _, same⟩
    · rw [same]; exact sound.finishCapture idle calm
    · rw [same]; exact sound.transfer rfl rfl rfl rfl rfl
    · rw [same]; exact sound
  · apply sound.transfer <;> simp only [jpegDcmiRxCallback]
  · exact sound.transfer rfl rfl rfl rfl rfl
  · unfold watchImageBlock
    split
    · exact sound
    · exact sound.transfer rfl rfl rfl rfl rfl
  · exact sound
  · exact sound.taskStep

/-- When no completed frame disturbs a selection, the task sends a frame that was the last
completed frame at some instant of the selection. -/
theorem transmittedFrame_fresh (layout : FrameLayout) {start state : State}
    (booted : Booted start) (reached : (system layout).Reaches Undisturbed start state)
    (starts : state.task = .chosen) (filled : state.latest ≠ none) :
    some state.getCatchPos ∈ state.window := by
  have sound : SelectionInvariant state :=
    reached.invariant booted.selection fun _ _ _ sound calm stepped => sound.step calm stepped
  exact sound.fresh starts filled

/-- A run without a disturbed selection sends frame 0 after its first capture. -/
theorem transmittedFrame_fresh_first :
    ∃ state : State, state.latest = some 0 ∧ some state.getCatchPos ∈ state.window := by
  obtain ⟨state, reached, checked⟩ := System.guarded_check (system mymallocLayout)
    Undisturbed bootState
    [.frame, .task, .task, .watchImage 0, .task, .task, .task]
    (fun state => decide (state.task = .chosen ∧ state.latest = some 0))
    (by decide +kernel)
  simp only [decide_eq_true_eq] at checked
  have filled : state.latest ≠ none := by simp [checked.2]
  exact ⟨state, checked.2,
    transmittedFrame_fresh mymallocLayout bootState_booted reached checked.1 filled⟩

/-- When the frame wraps inside the selecting reads, no read matches. The task then starts to
send the buffer of an older frame. -/
theorem transmittedFrame_stale :
    ∃ state : State, (system mymallocLayout).Reachable bootState state ∧ state.task = .chosen ∧
      state.latest = some 2 ∧ state.window = [some 2, some 1] ∧
      state.getCatchPos = 0 := by
  obtain ⟨state, reached, checked⟩ := System.guarded_check (system mymallocLayout)
    (fun _ _ => True) bootState unservedEvents
    (fun state => decide (state.task = .chosen ∧ state.latest = some 2 ∧
      state.window = [some 2, some 1] ∧ state.getCatchPos = 0))
    (by decide +kernel)
  simp only [decide_eq_true_eq] at checked
  exact ⟨state, reached, checked⟩

end NnpCamera.Capture
