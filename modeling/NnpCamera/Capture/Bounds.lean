/-
This file shows that no capture leaves its frame buffer.
-/

import NnpCamera.Capture.LineDma
import NnpCamera.Capture.Isolation
import Mathlib.Order.Interval.Set.Basic

namespace NnpCamera.Capture
open Library

/-- The capture with its line interrupt and the words of the camera. No code reads the last two
fields: `delivered` counts the words since the last frame interrupt, and `captured` counts the words
that the DMA took in the current capture. -/
structure Delivery where
  capture : State
  pending : Bool
  delivered : Nat
  captured : Nat

/-- The camera delivers a word, an interrupt runs, or a task makes one access. -/
inductive DeliveryEvent where
  | word (word : UInt32)
  | line
  | frame
  | watchImage (data2 : UInt8)
  | task
  deriving DecidableEq, Repr

/-- The DMA takes words only while its stream is enabled. A line interrupt that is pending can wait
for the frame interrupt, but both run before the tasks go on. -/
def delivery (layout : FrameLayout) : System Delivery DeliveryEvent where
  step state event :=
    match event with
    | .word word =>
        if state.capture.dmaEnabled then
          some {
            capture := state.capture.dmaWord word
            pending := state.pending || decide state.capture.Completes
            delivered := state.delivered + 1
            captured := state.captured + 1 }
        else some { state with delivered := state.delivered + 1 }
    | .line =>
        if state.pending then
          some { state with capture := jpegDcmiRxCallback layout state.capture, pending := false }
        else none
    | .frame =>
        some { state with
          capture := jpegDataProcess layout state.capture
          delivered := 0
          -- The second branch of `jpeg_data_process` starts the next capture.
          captured := if state.capture.jpegDataOk = 2 then 0 else state.captured }
    | .watchImage data2 =>
        if state.pending then none
        else some { state with capture := watchImageBlock state.capture data2 }
    | .task =>
        if state.pending then none else some { state with capture := taskStep state.capture }

/-- Between two frame interrupts the camera delivers no more words than a frame buffer has. -/
def OneFrame (state : Delivery) : DeliveryEvent → Prop
  | .word _ => state.delivered < frameWords
  | _ => True

instance (state : Delivery) (event : DeliveryEvent) : Decidable (OneFrame state event) := by
  cases event <;> unfold OneFrame <;> infer_instance

/-- The first capture starts, and nothing is delivered yet. -/
structure Started (state : Delivery) : Prop where
  jpegDataOk : state.capture.jpegDataOk = 0
  jpegDataLen : state.capture.jpegDataLen = 0
  dmaEnabled : state.capture.dmaEnabled = true
  dmaCounter : state.capture.dmaCounter = 4096
  task : state.capture.task = .testOk
  pending : state.pending = false
  delivered : state.delivered = 0
  captured : state.captured = 0

/-- The indices of `imgbuf2592x480x32[currentcatch]` at which the code of one event stores. -/
def storedIndices (state : Delivery) : DeliveryEvent → Set Nat
  | .line => Set.Ico state.capture.jpegDataLen.toNat
      (state.capture.jpegDataLen.toNat + netcamLineSize)
  | .frame =>
      if state.capture.jpegDataOk = 0 then
        Set.Ico state.capture.jpegDataLen.toNat
          (state.capture.jpegDataLen.toNat + (rlen state.capture).toNat)
      else ∅
  | _ => ∅

/-- The words that the DMA took but that are not in the frame yet. -/
def Delivery.unread (state : Delivery) : Nat :=
  (if state.pending then netcamLineSize else 0) +
    if state.capture.jpegDataOk = 0 then netcamLineSize - state.capture.dmaCounter.toNat else 0

/-- The frame and the words on their way account for at most the words of the current capture. -/
structure Within (state : Delivery) : Prop where
  flag : state.capture.jpegDataOk = 0 ∨ state.capture.jpegDataOk = 1 ∨ state.capture.jpegDataOk = 2
  stream : state.capture.dmaEnabled = true ↔ state.capture.jpegDataOk = 0
  counter : 1 ≤ state.capture.dmaCounter.toNat ∧ state.capture.dmaCounter.toNat ≤ netcamLineSize
  mark : state.capture.task = .markOk → state.capture.jpegDataOk = 1
  quiet : state.capture.jpegDataOk = 2 → state.pending = false
  account : state.capture.jpegDataLen.toNat + state.unread ≤ state.captured
  recent : state.capture.jpegDataOk = 0 → state.captured ≤ state.delivered
  delivered : state.delivered ≤ frameWords
  captured : state.captured ≤ frameWords

theorem unread_capturing {state : Delivery} (capturing : state.capture.jpegDataOk = 0) :
    state.unread = (if state.pending then netcamLineSize else 0) +
      (netcamLineSize - state.capture.dmaCounter.toNat) := by
  rw [Delivery.unread, if_pos capturing]

theorem unread_stopped {state : Delivery} (stopped : state.capture.jpegDataOk ≠ 0) :
    state.unread = if state.pending then netcamLineSize else 0 := by
  rw [Delivery.unread, if_neg stopped, Nat.add_zero]

/-- A full counter leaves no open words. -/
theorem full_counter {counter : UInt16} (full : counter = 4096) :
    counter.toNat = netcamLineSize := by
  rw [full]
  rfl

theorem Started.within {state : Delivery} (started : Started state) : Within state where
  flag := .inl started.jpegDataOk
  stream := iff_of_true started.dmaEnabled started.jpegDataOk
  counter := by
    rw [full_counter started.dmaCounter]
    decide
  mark atMark := by simp [started.task] at atMark
  quiet handled := by simp [started.jpegDataOk] at handled
  account := by
    rw [unread_capturing started.jpegDataOk, started.pending, started.jpegDataLen,
      full_counter started.dmaCounter]
    simp
  recent _ := by simp [started.captured]
  delivered := by simp [started.delivered]
  captured := by simp [started.captured]

section Task
variable {state : State}

/-- The task changes the capture flag and its own variables only. -/
theorem taskStep_keeps {View : Type} (view : State → View)
    (own : ∀ (state : State) jpegDataOk jpegDataSend task getCatchPos window, view { state with
      jpegDataOk := jpegDataOk
      jpegDataSend := jpegDataSend
      task := task
      getCatchPos := getCatchPos
      window := window } = view state) : view (taskStep state) = view state := by
  unfold taskStep selectingRead
  split
  all_goals first
    | exact own state _ _ _ _ _
    | (split <;> exact own state _ _ _ _ _)

theorem taskStep_jpegDataOk (state : State) :
    (taskStep state).jpegDataOk = if state.task = .markOk then 2 else state.jpegDataOk := by
  unfold taskStep selectingRead
  cases state.task <;> simp only [reduceCtorEq, if_true, if_false]
  all_goals
    split
    · rfl
    · rfl

theorem selectingRead_task (state : State) (expected buffer : UInt8) (otherwise : TaskPoint) :
    (selectingRead state expected buffer otherwise).task =
      if state.currentcatch = expected then .chosen else otherwise := by
  unfold selectingRead
  split
  · rfl
  · rfl

/-- The task marks a frame only after it has seen the flag of a completed frame. -/
theorem taskStep_markOk (atMark : (taskStep state).task = .markOk) :
    state.task = .testOk ∧ state.jpegDataOk = 1 := by
  unfold taskStep at atMark
  cases point : state.task <;> simp only [point, selectingRead_task] at atMark
  case testOk =>
    split at atMark
    next one => exact ⟨rfl, one⟩
    next => contradiction
  case markOk => contradiction
  case chosen => contradiction
  all_goals
    split at atMark
    next => contradiction
    next => contradiction

end Task

namespace Within
variable {layout : FrameLayout} {state after : Delivery}

/-- The line interrupt has room for its whole line. -/
theorem line_fits (within : Within state) (pending : state.pending = true) :
    state.capture.jpegDataLen.toNat + netcamLineSize ≤ state.captured := by
  have account := within.account
  rw [Delivery.unread, if_pos pending] at account
  omega

theorem rlen_toNat (within : Within state) :
    (rlen state.capture).toNat = netcamLineSize - state.capture.dmaCounter.toNat := by
  rw [rlen, UInt16.toNat_sub_of_le _ _ (UInt16.le_iff_toNat_le.mpr within.counter.2)]
  rfl

/-- The frame interrupt has room for the open words. -/
theorem frame_fits (within : Within state) (capturing : state.capture.jpegDataOk = 0) :
    state.capture.jpegDataLen.toNat + (rlen state.capture).toNat ≤ state.captured := by
  have account := within.account
  rw [unread_capturing capturing] at account
  rw [within.rlen_toNat]
  omega

/-- A task access keeps the account when it leaves the capture alone. -/
theorem keep (within : Within state) {capture : State}
    (flag : capture.jpegDataOk = state.capture.jpegDataOk ∨
      state.capture.jpegDataOk = 1 ∧ capture.jpegDataOk = 2 ∧ state.pending = false)
    (stream : capture.dmaEnabled = state.capture.dmaEnabled)
    (counter : capture.dmaCounter = state.capture.dmaCounter)
    (len : capture.jpegDataLen = state.capture.jpegDataLen)
    (mark : capture.task = .markOk → capture.jpegDataOk = 1) :
    Within { state with capture } := by
  have unread : Delivery.unread { state with capture } = state.unread := by
    rcases flag with same | ⟨one, two, _⟩
    · simp only [Delivery.unread, same, counter]
    · simp [Delivery.unread, one, two]
  exact {
    flag := by
      rcases flag with same | ⟨_, two, _⟩
      · rw [same]
        exact within.flag
      · exact .inr (.inr two)
    stream := by
      rw [stream, within.stream]
      rcases flag with same | ⟨one, two, _⟩
      · rw [same]
      · simp [one, two]
    counter := by
      rw [counter]
      exact within.counter
    mark := mark
    quiet := by
      intro handled
      rcases flag with same | ⟨_, _, quiet⟩
      · exact within.quiet (same.symm.trans handled)
      · exact quiet
    account := by
      rw [unread, len]
      exact within.account
    recent := by
      intro capturing
      rcases flag with same | ⟨_, two, _⟩
      · exact within.recent (same.symm.trans capturing)
      · simp [two] at capturing
    delivered := within.delivered
    captured := within.captured }

/-- A word adds one to the words on their way, also when it completes its line. -/
theorem word_counter (within : Within state) (word : UInt32) :
    1 ≤ (state.capture.dmaWord word).dmaCounter.toNat ∧
      (state.capture.dmaWord word).dmaCounter.toNat ≤ netcamLineSize ∧
      (if state.pending || decide state.capture.Completes then netcamLineSize else 0) +
          (netcamLineSize - (state.capture.dmaWord word).dmaCounter.toNat) ≤
        (if state.pending then netcamLineSize else 0) +
          (netcamLineSize - state.capture.dmaCounter.toNat) + 1 := by
  obtain ⟨low, high⟩ := within.counter
  by_cases last : state.capture.Completes
  · have counter := full_counter (dmaWord_completes word last).2.2
    have one : state.capture.dmaCounter.toNat = 1 := by
      rw [show state.capture.dmaCounter = 1 from last]
      rfl
    rw [counter, one]
    refine ⟨by decide, Nat.le_refl _, ?_⟩
    simp only [last, decide_true, Bool.or_true, if_true, Nat.sub_self, Nat.add_zero]
    have whole : netcamLineSize - 1 + 1 = netcamLineSize := rfl
    omega
  · have positive : (1 : UInt16).toNat ≤ state.capture.dmaCounter.toNat := low
    have counter : (state.capture.dmaWord word).dmaCounter.toNat =
        state.capture.dmaCounter.toNat - 1 := by
      rw [(dmaWord_open word last).2.2,
        UInt16.toNat_sub_of_le _ _ (UInt16.le_iff_toNat_le.mpr positive)]
      rfl
    have more : state.capture.dmaCounter.toNat ≠ 1 := fun one =>
      last (UInt16.toNat_inj.mp one)
    rw [counter]
    refine ⟨by omega, by omega, ?_⟩
    simp only [last, decide_false, Bool.or_false]
    omega

/-- A word that the DMA takes is accounted for. -/
theorem word (within : Within state) (enabled : state.capture.dmaEnabled = true)
    (more : state.delivered < frameWords) (word : UInt32) :
    Within {
      capture := state.capture.dmaWord word
      pending := state.pending || decide state.capture.Completes
      delivered := state.delivered + 1
      captured := state.captured + 1 } := by
  have capturing := within.stream.mp enabled
  have flag : (state.capture.dmaWord word).jpegDataOk = 0 :=
    (dmaWord_keeps word State.jpegDataOk fun _ _ _ _ _ => rfl).trans capturing
  have len : (state.capture.dmaWord word).jpegDataLen = state.capture.jpegDataLen :=
    dmaWord_keeps word State.jpegDataLen fun _ _ _ _ _ => rfl
  have recent := within.recent capturing
  have account := within.account
  rw [unread_capturing capturing] at account
  obtain ⟨low, high, unread⟩ := within.word_counter word
  exact {
    flag := .inl flag
    stream := by
      rw [dmaWord_keeps word State.dmaEnabled fun _ _ _ _ _ => rfl, flag]
      exact iff_of_true enabled rfl
    counter := ⟨low, high⟩
    mark := by
      rw [dmaWord_keeps word State.task fun _ _ _ _ _ => rfl, flag]
      intro atMark
      rw [← capturing]
      exact within.mark atMark
    quiet := by
      rw [flag]
      intro handled
      contradiction
    account := by
      rw [unread_capturing flag, len]
      dsimp only at unread ⊢
      omega
    recent := fun _ => Nat.succ_le_succ recent
    delivered := more
    captured := Nat.lt_of_le_of_lt recent more }

/-- The line interrupt moves its line into the frame. -/
theorem line (within : Within state) (pending : state.pending = true) :
    Within { state with
      capture := jpegDcmiRxCallback layout state.capture
      pending := false } := by
  have fits := within.line_fits pending
  have limit := within.captured
  have len : (jpegDcmiRxCallback layout state.capture).jpegDataLen.toNat =
      state.capture.jpegDataLen.toNat + netcamLineSize := by
    have line : UInt32.toNat 4096 = netcamLineSize := rfl
    simp only [frameWords] at limit
    rw [jpegDcmiRxCallback_jpegDataLen, UInt32.toNat_add, line]
    exact Nat.mod_eq_of_lt (by omega)
  have unread : state.unread = netcamLineSize + Delivery.unread { state with
      capture := jpegDcmiRxCallback layout state.capture
      pending := false } := by
    rw [Delivery.unread, Delivery.unread, if_pos pending,
      jpegDcmiRxCallback_keeps layout State.jpegDataOk fun _ _ _ => rfl,
      jpegDcmiRxCallback_keeps layout State.dmaCounter fun _ _ _ => rfl]
    simp
  have account := within.account
  exact {
    flag := by
      rw [jpegDcmiRxCallback_keeps layout State.jpegDataOk fun _ _ _ => rfl]
      exact within.flag
    stream := by
      rw [jpegDcmiRxCallback_keeps layout State.dmaEnabled fun _ _ _ => rfl,
        jpegDcmiRxCallback_keeps layout State.jpegDataOk fun _ _ _ => rfl]
      exact within.stream
    counter := by
      rw [jpegDcmiRxCallback_keeps layout State.dmaCounter fun _ _ _ => rfl]
      exact within.counter
    mark := by
      rw [jpegDcmiRxCallback_keeps layout State.jpegDataOk fun _ _ _ => rfl,
        jpegDcmiRxCallback_keeps layout State.task fun _ _ _ => rfl]
      exact within.mark
    quiet := fun _ => rfl
    account := by
      rw [len]
      change _ ≤ state.captured
      omega
    recent := by
      rw [jpegDcmiRxCallback_keeps layout State.jpegDataOk fun _ _ _ => rfl]
      exact within.recent
    delivered := within.delivered
    captured := within.captured }

/-- The end of a capture moves the open words into the frame. -/
theorem finish (within : Within state) (capturing : state.capture.jpegDataOk = 0) :
    Within { state with capture := finishCapture layout state.capture, delivered := 0 } := by
  have fits := within.frame_fits capturing
  have limit := within.captured
  have len : (finishCapture layout state.capture).jpegDataLen.toNat =
      state.capture.jpegDataLen.toNat + (rlen state.capture).toNat := by
    change (state.capture.jpegDataLen + (rlen state.capture).toUInt32).toNat = _
    simp only [frameWords] at limit
    rw [UInt32.toNat_add, UInt16.toNat_toUInt32]
    exact Nat.mod_eq_of_lt (by omega)
  have stopped : (finishCapture layout state.capture).jpegDataOk ≠ 0 := by
    change (1 : UInt8) ≠ 0
    decide
  have account := within.account
  rw [unread_capturing capturing, ← within.rlen_toNat] at account
  exact {
    flag := .inr (.inl rfl)
    stream := iff_of_false Bool.false_ne_true stopped
    counter := within.counter
    mark := fun _ => rfl
    quiet := by
      intro handled
      change (1 : UInt8) = 2 at handled
      exact absurd handled (by decide)
    account := by
      rw [unread_stopped stopped, len]
      dsimp only
      omega
    recent := fun more => absurd more stopped
    delivered := Nat.zero_le _
    captured := limit }

/-- The next capture starts with an empty account. -/
theorem restart (within : Within state) (handled : state.capture.jpegDataOk = 2) :
    Within { state with
      capture := restartCapture state.capture
      delivered := 0
      captured := 0 } where
  flag := .inl rfl
  stream := iff_of_true rfl rfl
  counter := by
    have full : (restartCapture state.capture).dmaCounter.toNat = netcamLineSize :=
      full_counter rfl
    rw [full]
    decide
  mark atMark := by
    have one := within.mark atMark
    rw [handled] at one
    contradiction
  quiet two := by
    change (0 : UInt8) = 2 at two
    exact absurd two (by decide)
  account := by
    have quiet := within.quiet handled
    have unread : Delivery.unread { state with
        capture := restartCapture state.capture
        delivered := 0
        captured := 0 } = 0 := by
      rw [unread_capturing rfl, quiet]
      rfl
    rw [unread]
    rfl
  recent _ := Nat.le_refl _
  delivered := Nat.zero_le _
  captured := Nat.zero_le _

/-- The frame interrupt ends a capture or starts the next one. -/
theorem frame (within : Within state) :
    Within { state with
      capture := jpegDataProcess layout state.capture
      delivered := 0
      captured := if state.capture.jpegDataOk = 2 then 0 else state.captured } := by
  rcases jpegDataProcess_cases layout state.capture with
    ⟨capturing, same⟩ | ⟨handled, same⟩ | ⟨idle, unhandled, same⟩
  · have other : state.capture.jpegDataOk ≠ 2 := by
      rw [capturing]
      decide
    rw [same, if_neg other]
    exact within.finish capturing
  · rw [same, if_pos handled]
    exact within.restart handled
  · rw [same, if_neg unhandled]
    exact {
      flag := within.flag
      stream := within.stream
      counter := within.counter
      mark := within.mark
      quiet := within.quiet
      account := within.account
      recent := fun capturing => absurd capturing idle
      delivered := Nat.zero_le _
      captured := within.captured }

/-- Each access of the task leaves the capture alone, and only its mark changes the flag. -/
theorem task (within : Within state) (quiet : state.pending = false) :
    Within { state with capture := taskStep state.capture } := by
  apply within.keep
  · rw [taskStep_jpegDataOk]
    by_cases atMark : state.capture.task = .markOk
    · rw [if_pos atMark]
      exact .inr ⟨within.mark atMark, rfl, quiet⟩
    · rw [if_neg atMark]
      exact .inl rfl
  · exact taskStep_keeps State.dmaEnabled fun _ _ _ _ _ _ => rfl
  · exact taskStep_keeps State.dmaCounter fun _ _ _ _ _ _ => rfl
  · exact taskStep_keeps State.jpegDataLen fun _ _ _ _ _ _ => rfl
  · intro atMark
    obtain ⟨first, one⟩ := taskStep_markOk atMark
    rw [taskStep_jpegDataOk, first]
    exact one

/-- A request leaves the capture alone. -/
theorem watchImage (within : Within state) (data2 : UInt8) :
    Within { state with capture := watchImageBlock state.capture data2 } := by
  unfold watchImageBlock
  split
  · exact within
  · exact within.keep (.inl rfl) rfl rfl rfl within.mark

/-- Each event of the run keeps the account. -/
theorem step (within : Within state) (event : DeliveryEvent) (bounded : OneFrame state event)
    (stepped : (delivery layout).step state event = some after) : Within after := by
  cases event with
  | word word =>
      simp only [delivery] at stepped
      split at stepped
      next enabled =>
        obtain rfl := Option.some.inj stepped
        exact within.word enabled bounded word
      next disabled =>
        obtain rfl := Option.some.inj stepped
        have stopped : state.capture.jpegDataOk ≠ 0 := mt within.stream.mpr disabled
        exact {
          flag := within.flag
          stream := within.stream
          counter := within.counter
          mark := within.mark
          quiet := within.quiet
          account := within.account
          recent := fun capturing => absurd capturing stopped
          delivered := bounded
          captured := within.captured }
  | line =>
      simp only [delivery, Option.ite_none_right_eq_some, Option.some.injEq] at stepped
      obtain ⟨pending, rfl⟩ := stepped
      exact within.line pending
  | frame =>
      obtain rfl := Option.some.inj stepped
      exact within.frame
  | watchImage data2 =>
      simp only [delivery, Option.ite_none_left_eq_some, Option.some.injEq] at stepped
      obtain ⟨quiet, rfl⟩ := stepped
      exact within.watchImage data2
  | task =>
      simp only [delivery, Option.ite_none_left_eq_some, Option.some.injEq] at stepped
      obtain ⟨quiet, rfl⟩ := stepped
      exact within.task (Bool.eq_false_of_not_eq_true quiet)

/-- Each store of an event lies in the frame buffer. -/
theorem stores (within : Within state) (event : DeliveryEvent)
    (stepped : (delivery layout).step state event = some after) :
    storedIndices state event ⊆ Set.Iio frameWords := by
  have limit := within.captured
  cases event with
  | word word => exact Set.empty_subset _
  | line =>
      simp only [delivery, Option.ite_none_right_eq_some] at stepped
      have fits := within.line_fits stepped.1
      intro index inside
      exact Nat.lt_of_lt_of_le inside.2 (Nat.le_trans fits limit)
  | frame =>
      rw [storedIndices]
      split
      next capturing =>
        have fits := within.frame_fits capturing
        intro index inside
        exact Nat.lt_of_lt_of_le inside.2 (Nat.le_trans fits limit)
      next => exact Set.empty_subset _
  | watchImage data2 => exact Set.empty_subset _
  | task => exact Set.empty_subset _

end Within

/-- An address that no index reaches lies on one side of the stored range. -/
theorem outside_range {base first count address : Nat}
    (outside : ∀ index ∈ Set.Ico first (first + count), address ≠ base + index) :
    address < base + first ∨ base + first + count ≤ address := by
  by_contra inside
  rw [not_or] at inside
  exact outside (address - base) ⟨by omega, by omega⟩ (by omega)

/-- An event changes no word of the SDRAM but at the indices that it stores. -/
theorem delivery_sdram {layout : FrameLayout} {state after : Delivery} {event : DeliveryEvent}
    (stepped : (delivery layout).step state event = some after) (address : Nat)
    (outside : ∀ index ∈ storedIndices state event,
      address ≠ layout.imgbuf2592x480x32 state.capture.currentcatch + index) :
    after.capture.sdram address = state.capture.sdram address := by
  cases event with
  | word word =>
      simp only [delivery] at stepped
      split at stepped
      next =>
        obtain rfl := Option.some.inj stepped
        exact congrFun (dmaWord_keeps word State.sdram fun _ _ _ _ _ => rfl) address
      next =>
        obtain rfl := Option.some.inj stepped
        rfl
  | line =>
      simp only [delivery, Option.ite_none_right_eq_some, Option.some.injEq] at stepped
      obtain ⟨_, rfl⟩ := stepped
      exact Memory.copy_outside _ _ _ _ _ (outside_range outside)
  | frame =>
      obtain rfl := Option.some.inj stepped
      rcases jpegDataProcess_cases layout state.capture with ⟨capturing, same⟩ | ⟨_, same⟩ | ⟨_, _, same⟩
      · rw [storedIndices, if_pos capturing] at outside
        rw [same]
        exact Memory.copy_outside _ _ _ _ _ (outside_range outside)
      · rw [same]
        rfl
      · rw [same]
  | watchImage data2 =>
      simp only [delivery, Option.ite_none_left_eq_some, Option.some.injEq] at stepped
      obtain ⟨_, rfl⟩ := stepped
      unfold watchImageBlock
      split
      · rfl
      · rfl
  | task =>
      simp only [delivery, Option.ite_none_left_eq_some, Option.some.injEq] at stepped
      obtain ⟨_, rfl⟩ := stepped
      exact congrFun (taskStep_keeps State.sdram fun _ _ _ _ _ _ => rfl) address

/-- In each run with at most one frame of words between two frame interrupts, no store leaves the
frame buffer, and the length is at most the number of words of the current capture. -/
theorem capture_inside {layout : FrameLayout} {start state : Delivery} (started : Started start)
    (reached : (delivery layout).Reaches OneFrame start state) :
    (∀ event after, (delivery layout).step state event = some after →
      storedIndices state event ⊆ Set.Iio frameWords) ∧
      state.capture.jpegDataLen.toNat ≤ state.captured := by
  have within : Within state := reached.invariant started.within
    fun _ event _ within bounded stepped => within.step event bounded stepped
  refine ⟨fun event after stepped => within.stores event stepped, ?_⟩
  exact Nat.le_trans (Nat.le_add_right _ _) within.account

/-- The state after start-up. -/
def bootDelivery : Delivery := ⟨bootState, false, 0, 0⟩

theorem bootDelivery_started : Started bootDelivery := by
  constructor <;> rfl

/-- A frame of two words is captured, and the next capture has taken one word. -/
theorem capture_inside_second :
    ∃ state, (delivery mymallocLayout).Reaches OneFrame bootDelivery state ∧
      state.captured = 1 ∧ state.capture.jpegDataLen.toNat ≤ state.captured := by
  have passed : (((delivery mymallocLayout).guarded OneFrame).run bootDelivery
      [.word 7, .word 8, .frame, .task, .task, .word 9, .frame, .word 10]).any
        (fun state => state.captured == 1) = true := by
    decide +kernel
  obtain ⟨state, reached, taken⟩ := System.guarded_check _ _ _ _ _ passed
  exact ⟨state, reached, beq_iff_eq.mp taken, (capture_inside bootDelivery_started reached).2⟩

end NnpCamera.Capture
