/-
This file shows which frames reach their buffer word by word.
-/

import NnpCamera.Capture.LineDma
import NnpCamera.Capture.Isolation
import Mathlib.Data.List.Induction

namespace NnpCamera.Capture
open Library

/-- The stream takes one word. The line interrupt follows the last word of a line. -/
def captureWord (layout : FrameLayout) (state : State) (word : UInt32) : State :=
  if state.dmaEnabled then
    if state.Completes then jpegDcmiRxCallback layout (state.dmaWord word)
    else state.dmaWord word
  else state

/-- The stream takes the words of one frame. -/
def captureWords (layout : FrameLayout) (state : State) (words : List UInt32) : State :=
  words.foldl (captureWord layout) state

/-- A capture starts at the beginning of the line that CT names. -/
structure Armed (state : State) : Prop where
  jpegDataOk : state.jpegDataOk = 0
  jpegDataLen : state.jpegDataLen = 0
  dmaEnabled : state.dmaEnabled = true
  dmaCounter : state.dmaCounter = 4096

/-- After the frame interrupt the frame buffer holds the words of the frame, and the length is
their number. -/
structure Assembled (layout : FrameLayout) (start : State) (words : List UInt32) : Prop where
  sdram : (jpegDataProcess layout (captureWords layout start words)).sdram.read
    (layout.imgbuf2592x480x32 start.currentcatch) words.length = words
  jpegDataLen : (jpegDataProcess layout (captureWords layout start words)).jpegDataLen.toNat =
    words.length

/-- The words of the lines that the frame completes. -/
def wholeLines (words : List UInt32) : List UInt32 :=
  words.take (words.length / netcamLineSize * netcamLineSize)

/-- The words of the line that the frame does not complete. -/
def openWords (words : List UInt32) : List UInt32 :=
  words.drop (words.length / netcamLineSize * netcamLineSize)

/-- The words in the line buffer that the DMA does not fill: the last completed line, or the words
from before the capture. -/
def lastLine (start : State) (lines : List UInt32) : List UInt32 :=
  if lines = [] then Memory.read start.fullLine 0 netcamLineSize
  else lines.drop (lines.length - netcamLineSize)

/-- During a capture, the frame buffer holds the completed lines and the open line the rest. -/
structure Filling (layout : FrameLayout) (start : State) (lines rest : List UInt32)
    (state : State) : Prop where
  jpegDataOk : state.jpegDataOk = 0
  dmaEnabled : state.dmaEnabled = true
  currentcatch : state.currentcatch = start.currentcatch
  whole : netcamLineSize ∣ lines.length
  jpegDataLen : state.jpegDataLen.toNat = lines.length
  dmaCounter : state.dmaCounter.toNat + rest.length = netcamLineSize
  short : rest.length < netcamLineSize
  opened : Memory.read state.openLine 0 rest.length = rest
  full : Memory.read state.fullLine 0 netcamLineSize = lastLine start lines
  frame : state.sdram.read (layout.imgbuf2592x480x32 start.currentcatch) lines.length = lines

/-- A store behind a range extends it. -/
theorem read_push (memory : Memory UInt32) (words : List UInt32) (word : UInt32)
    (holds : memory.read 0 words.length = words) :
    Memory.read (Function.update memory words.length word) 0 (words ++ [word]).length =
      words ++ [word] := by
  rw [List.length_append, List.length_singleton, Memory.read_add,
    Memory.read_update _ _ _ _ _ (.inr (Nat.le_of_eq (Nat.zero_add _))), holds]
  simp [Memory.read]

/-- A copy behind a range extends it. -/
theorem read_copy_behind (memory : Memory UInt32) (source : Nat → UInt32) (first : Nat)
    (words : List UInt32) (count : Nat) (holds : memory.read first words.length = words) :
    (memory.copy (first + words.length) source count).read first (words.length + count) =
      words ++ Memory.read source 0 count := by
  have same : Memory.read (memory.copy (first + words.length) source count) first words.length =
      words := by
    conv_rhs => rw [← holds]
    apply Memory.read_congr
    intro index inside
    exact Memory.copy_outside _ _ _ _ _ (.inl (by omega))
  rw [Memory.read_add, same]
  apply congrArg
  apply Memory.read_congr
  intro index inside
  rw [Nat.zero_add]
  exact Memory.copy_inside _ _ _ _ _ inside

namespace Filling
variable {layout : FrameLayout} {start state : State} {lines rest : List UInt32}

theorem initial (layout : FrameLayout) (armed : Armed start) : Filling layout start [] [] start where
  jpegDataOk := armed.jpegDataOk
  dmaEnabled := armed.dmaEnabled
  currentcatch := rfl
  whole := Nat.dvd_zero _
  jpegDataLen := by
    rw [armed.jpegDataLen]
    rfl
  dmaCounter := by
    rw [armed.dmaCounter]
    rfl
  short := by decide
  opened := rfl
  full := rfl
  frame := rfl

theorem place_eq (filling : Filling layout start lines rest state) :
    state.place = rest.length := by
  have counter := filling.dmaCounter
  rw [State.place]
  omega

/-- The next word completes the line exactly when one word is left. -/
theorem completes_iff (filling : Filling layout start lines rest state) :
    state.Completes ↔ rest.length + 1 = netcamLineSize := by
  have counter := filling.dmaCounter
  rw [State.Completes, ← UInt16.toNat_inj]
  change state.dmaCounter.toNat = 1 ↔ _
  omega

/-- A word that does not complete its line stays in the open line. -/
theorem word (filling : Filling layout start lines rest state) (word : UInt32)
    (short : rest.length + 1 < netcamLineSize) :
    Filling layout start lines (rest ++ [word]) (captureWord layout state word) := by
  have more : ¬ state.Completes := fun last => by
    have full := filling.completes_iff.mp last
    omega
  obtain ⟨opened, full, counter⟩ := dmaWord_open word more
  have step : captureWord layout state word = state.dmaWord word := by
    rw [captureWord, if_pos filling.dmaEnabled, if_neg more]
  rw [step]
  exact {
    jpegDataOk := (dmaWord_keeps word State.jpegDataOk fun _ _ _ _ _ => rfl).trans
      filling.jpegDataOk
    dmaEnabled := (dmaWord_keeps word State.dmaEnabled fun _ _ _ _ _ => rfl).trans
      filling.dmaEnabled
    currentcatch := (dmaWord_keeps word State.currentcatch fun _ _ _ _ _ => rfl).trans
      filling.currentcatch
    whole := filling.whole
    jpegDataLen := by
      rw [dmaWord_keeps word State.jpegDataLen fun _ _ _ _ _ => rfl]
      exact filling.jpegDataLen
    dmaCounter := by
      have before := filling.dmaCounter
      rw [counter, UInt16.toNat_sub_of_le _ _ (by
        rw [UInt16.le_iff_toNat_le]
        change 1 ≤ _
        omega), List.length_append, List.length_singleton]
      change state.dmaCounter.toNat - 1 + _ = _
      omega
    short := by simpa using short
    opened := by
      rw [opened, filling.place_eq]
      exact read_push _ _ _ filling.opened
    full := by
      rw [full]
      exact filling.full
    frame := by
      rw [dmaWord_keeps word State.sdram fun _ _ _ _ _ => rfl]
      exact filling.frame }

/-- The last word of a line moves the line to the frame buffer. -/
theorem line (filling : Filling layout start lines rest state) (word : UInt32)
    (last : rest.length + 1 = netcamLineSize)
    (fits : lines.length + netcamLineSize ≤ frameWords) :
    Filling layout start (lines ++ (rest ++ [word])) [] (captureWord layout state word) := by
  have completes := filling.completes_iff.mpr last
  obtain ⟨opened, full, counter⟩ := dmaWord_completes word completes
  have moved : Memory.read (state.dmaWord word).fullLine 0 netcamLineSize = rest ++ [word] := by
    have pushed := read_push _ _ word filling.opened
    rw [full, filling.place_eq]
    rw [List.length_append, List.length_singleton, last] at pushed
    exact pushed
  have length : (rest ++ [word]).length = netcamLineSize := by simpa using last
  have step : captureWord layout state word = jpegDcmiRxCallback layout (state.dmaWord word) := by
    rw [captureWord, if_pos filling.dmaEnabled, if_pos completes]
  have pointer : pbuf layout (state.dmaWord word) =
      layout.imgbuf2592x480x32 start.currentcatch + lines.length := by
    rw [dmaWord_keeps word (pbuf layout) fun _ _ _ _ _ => rfl, pbuf, filling.currentcatch,
      filling.jpegDataLen]
  rw [step]
  exact {
    jpegDataOk := by
      rw [jpegDcmiRxCallback_keeps layout State.jpegDataOk fun _ _ _ => rfl,
        dmaWord_keeps word State.jpegDataOk fun _ _ _ _ _ => rfl]
      exact filling.jpegDataOk
    dmaEnabled := by
      rw [jpegDcmiRxCallback_keeps layout State.dmaEnabled fun _ _ _ => rfl,
        dmaWord_keeps word State.dmaEnabled fun _ _ _ _ _ => rfl]
      exact filling.dmaEnabled
    currentcatch := by
      rw [jpegDcmiRxCallback_keeps layout State.currentcatch fun _ _ _ => rfl,
        dmaWord_keeps word State.currentcatch fun _ _ _ _ _ => rfl]
      exact filling.currentcatch
    whole := by
      rw [List.length_append, length]
      exact Nat.dvd_add filling.whole (Nat.dvd_refl _)
    jpegDataLen := by
      have before := filling.jpegDataLen
      rw [jpegDcmiRxCallback_jpegDataLen, dmaWord_keeps word State.jpegDataLen fun _ _ _ _ _ => rfl,
        UInt32.toNat_add, before, List.length_append, length]
      have line : UInt32.toNat 4096 = netcamLineSize := rfl
      simp only [frameWords] at fits
      rw [line]
      exact Nat.mod_eq_of_lt (by omega)
    dmaCounter := by
      rw [jpegDcmiRxCallback_keeps layout State.dmaCounter fun _ _ _ => rfl, counter]
      rfl
    short := by decide
    opened := rfl
    full := by
      have some : lines ++ (rest ++ [word]) ≠ [] := by simp
      rw [lastLine, if_neg some, List.length_append, length, Nat.add_sub_cancel,
        List.drop_left, jpegDcmiRxCallback_keeps layout State.fullLine fun _ _ _ => rfl]
      exact moved
    frame := by
      rw [jpegDcmiRxCallback_sdram, dmaWord_keeps word State.sdram fun _ _ _ _ _ => rfl, pointer,
        List.length_append, length, read_copy_behind _ _ _ _ _ filling.frame, moved] }

/-- Each word that fits in the frame buffer keeps the capture in order. -/
theorem next (filling : Filling layout start lines rest state) (word : UInt32)
    (fits : lines.length + rest.length + 1 ≤ frameWords) :
    ∃ more after, lines ++ rest ++ [word] = more ++ after ∧
      Filling layout start more after (captureWord layout state word) := by
  by_cases last : rest.length + 1 = netcamLineSize
  · refine ⟨lines ++ (rest ++ [word]), [], by simp, filling.line word last ?_⟩
    rw [← last]
    exact fits
  · have short := filling.short
    exact ⟨lines, rest ++ [word], by simp, filling.word word (by omega)⟩

/-- The words of a frame that fits are captured in order. -/
theorem captured (layout : FrameLayout) (armed : Armed start) (words : List UInt32)
    (fits : words.length ≤ frameWords) : ∃ lines rest, words = lines ++ rest ∧
      Filling layout start lines rest (captureWords layout start words) := by
  induction words using List.reverseRecOn with
  | nil => exact ⟨[], [], rfl, .initial layout armed⟩
  | append_singleton words word ih =>
      rw [List.length_append, List.length_singleton] at fits
      obtain ⟨lines, rest, rfl, filling⟩ := ih (by omega)
      rw [List.length_append] at fits
      obtain ⟨more, after, same, next⟩ := filling.next word fits
      refine ⟨more, after, same, ?_⟩
      rw [captureWords, List.foldl_append]
      exact next

/-- The two parts of the frame are its completed lines and its open words. -/
theorem parts (filling : Filling layout start lines rest state) :
    wholeLines (lines ++ rest) = lines ∧ openWords (lines ++ rest) = rest := by
  have short := filling.short
  have split : (lines ++ rest).length / netcamLineSize * netcamLineSize = lines.length := by
    obtain ⟨count, whole⟩ := filling.whole
    rw [List.length_append, whole, Nat.mul_add_div (by decide), Nat.div_eq_of_lt short,
      Nat.add_zero, Nat.mul_comm]
  rw [wholeLines, openWords, split]
  exact ⟨List.take_left, List.drop_left⟩

/-- The frame interrupt copies as many words as the open line holds, but from the other line. -/
theorem finished (filling : Filling layout start lines rest state)
    (fits : lines.length + rest.length ≤ frameWords) :
    (jpegDataProcess layout state).sdram.read (layout.imgbuf2592x480x32 start.currentcatch)
        (lines.length + rest.length) = lines ++ (lastLine start lines).take rest.length ∧
      (jpegDataProcess layout state).jpegDataLen.toNat = lines.length + rest.length := by
  have finish : jpegDataProcess layout state = finishCapture layout state := by
    rcases jpegDataProcess_cases layout state with ⟨_, same⟩ | ⟨handled, _⟩ | ⟨idle, _⟩
    · exact same
    · rw [filling.jpegDataOk] at handled
      contradiction
    · exact absurd filling.jpegDataOk idle
  have size : (rlen state).toNat = rest.length := by
    have counter := filling.dmaCounter
    simp only [netcamLineSize] at counter
    rw [rlen, UInt16.toNat_sub_of_le _ _ (by
      rw [UInt16.le_iff_toNat_le]
      change _ ≤ 4096
      omega)]
    change 4096 - _ = _
    omega
  have pointer : pbuf layout state =
      layout.imgbuf2592x480x32 start.currentcatch + lines.length := by
    rw [pbuf, filling.currentcatch, filling.jpegDataLen]
  rw [finish]
  constructor
  · change Memory.read (state.sdram.copy (pbuf layout state) state.fullLine (rlen state).toNat) _ _
      = _
    rw [size, pointer, read_copy_behind _ _ _ _ _ filling.frame, ← filling.full,
      Memory.take_read _ _ (Nat.le_of_lt filling.short)]
  · change (state.jpegDataLen + (rlen state).toUInt32).toNat = _
    rw [UInt32.toNat_add, UInt16.toNat_toUInt32, size, filling.jpegDataLen]
    simp only [frameWords] at fits
    exact Nat.mod_eq_of_lt (by omega)

end Filling

/-- A frame reaches its buffer exactly when its unfinished line starts the other line buffer. -/
theorem frame_assembled (layout : FrameLayout) {start : State} (armed : Armed start)
    {words : List UInt32} (fits : words.length ≤ frameWords) :
    Assembled layout start words ↔ openWords words <+: lastLine start (wholeLines words) := by
  obtain ⟨lines, rest, rfl, filling⟩ := Filling.captured layout armed words fits
  obtain ⟨whole, unfinished⟩ := filling.parts
  rw [List.length_append] at fits
  obtain ⟨frame, length⟩ := filling.finished fits
  rw [whole, unfinished, List.prefix_iff_eq_take]
  constructor
  · intro assembled
    have held := assembled.sdram
    rw [List.length_append, frame] at held
    exact (List.append_cancel_left held).symm
  · intro same
    constructor
    · rw [List.length_append, frame, ← same]
    · rw [List.length_append, length]

/-- The capture after start-up is armed. -/
theorem bootState_armed : Armed bootState := by
  constructor <;> rfl

/-- A frame of one whole line reaches its buffer. -/
theorem frame_assembled_line :
    Assembled mymallocLayout bootState (List.replicate netcamLineSize 7) := by
  have fits : (List.replicate netcamLineSize (7 : UInt32)).length ≤ frameWords := by
    rw [List.length_replicate]
    decide
  have empty : openWords (List.replicate netcamLineSize (7 : UInt32)) = [] := by
    rw [openWords, List.length_replicate]
    apply List.drop_eq_nil_of_le
    rw [List.length_replicate]
    decide
  apply (frame_assembled mymallocLayout bootState_armed fits).mpr
  rw [empty]
  exact List.nil_prefix

/-- A frame of one word leaves the old word of the other line buffer in the frame. -/
theorem frame_stale : ¬ Assembled mymallocLayout bootState [7] := by
  intro assembled
  have held := assembled.sdram
  revert held
  decide +kernel

end NnpCamera.Capture
