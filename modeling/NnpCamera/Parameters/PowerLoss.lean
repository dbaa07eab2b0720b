/-
This file says when a loss of power inside a command tears a parameter of two bytes.
-/

import NnpCamera.Parameters.Ranges
import NnpCamera.Parameters.Writes

namespace NnpCamera.Parameters
open Library Board

/-- The cut that falls between the two bytes of the exposure comes after this many writes. -/
def exposureGap : Event → Option Nat
  | .setDetectpara => some 1
  | .setParaReset => some 12
  | _ => none

/-- The cut that falls between the two bytes of the AOI start comes after this many writes. -/
def aoiStartGap : Event → Option Nat
  | .setAoi | .getCaminfo => some 1
  | .setParaReset => some 8
  | _ => none

/-- A command can write to these addresses. -/
def writtenAddresses : Event → List UInt8
  | .setDetectpara => [packetExposureh, packetExposurel]
  | .setCamid => [packetId]
  | .getCaminfo =>
      [packetAoishowstartyh, packetAoishowstartyl, packetAoishowheight, addressStarty240]
  | .setStarty240 => [addressStarty240]
  | .setAoi => [packetAoishowstartyh, packetAoishowstartyl, packetAoishowheight]
  | .setParaReset => (imageWrites ++ detectWrites).addresses
  | .watchImage | .getCamver | .other => []

/-- Both bytes of a pair differ. -/
def BothDiffer (first second : UInt8 × UInt8) : Prop := first.1 ≠ second.1 ∧ first.2 ≠ second.2

/-- The cut leaves neither parameter with one old byte and one new byte. -/
structure Untorn (packet current : SendPacket) (event : Event) (count : Nat) : Prop where
  exposure : ¬ (exposureGap event = some count ∧
    BothDiffer (requestedExposure packet event current) current.exposureBytes)
  aoiStart : ¬ (aoiStartGap event = some count ∧
    BothDiffer (requestedAoiStart packet event current) current.aoiStartBytes)

section Cuts
variable {eeprom : Eeprom} (count : Nat)

/-- Writes to other addresses leave a pair as it is. -/
theorem pair_untouched {log : Writes} {high low : UInt8} (highApart : high ∉ log.addresses)
    (lowApart : low ∉ log.addresses) :
    (WriteLog.replay (log.take count) eeprom high, WriteLog.replay (log.take count) eeprom low) =
      (eeprom high, eeprom low) := by
  rw [WriteLog.replay_untouched (WriteLog.addresses_take highApart count),
    WriteLog.replay_untouched (WriteLog.addresses_take lowApart count)]

/-- A cut log has made each of two writes in a row when the cut comes after it. -/
theorem cells_cut {log before after : Writes} {first second one two : UInt8}
    (apart : first ≠ second) (firstBefore : first ∉ before.addresses)
    (secondBefore : second ∉ before.addresses) (firstAfter : first ∉ after.addresses)
    (secondAfter : second ∉ after.addresses)
    (same : log = before ++ (first, one) :: (second, two) :: after) :
    WriteLog.replay (log.take count) eeprom first =
        (if before.length < count then one else eeprom first) ∧
      WriteLog.replay (log.take count) eeprom second =
        if before.length + 1 < count then two else eeprom second := by
  subst same
  constructor
  · apply WriteLog.replay_take_single firstBefore
    simpa [WriteLog.addresses, apart] using firstAfter
  · have later : second ∉ WriteLog.addresses (before ++ [(first, one)]) := by
      simpa [WriteLog.addresses, apart.symm] using secondBefore
    rw [show before ++ (first, one) :: (second, two) :: after =
      (before ++ [(first, one)]) ++ (second, two) :: after by simp]
    exact (WriteLog.replay_take_single later secondAfter count eeprom).trans (by simp)

/-- A pair of old and new bytes is the old or the new pair, unless one byte is new, the other one is
old, and both differ. -/
theorem pair_mixed_iff {first second : Prop} [Decidable first] [Decidable second]
    (new old : UInt8 × UInt8) :
    let mixed := (if first then new.1 else old.1, if second then new.2 else old.2)
    mixed = old ∨ mixed = new ↔ ¬ ((first ↔ ¬ second) ∧ BothDiffer new old) := by
  obtain ⟨newHigh, newLow⟩ := new
  obtain ⟨oldHigh, oldLow⟩ := old
  by_cases one : first
  · by_cases two : second
    · simp [one, two]
    · simp only [one, two, if_true, if_false, BothDiffer, Prod.mk.injEq]
      tauto
  · by_cases two : second
    · simp only [one, two, if_true, if_false, BothDiffer, Prod.mk.injEq]
      tauto
    · simp [one, two]

/-- Two writes in a row tear a pair only when the cut is between them and both bytes change. -/
theorem pair_cut {log : Writes} (before after : Writes) {high low : UInt8} (new : UInt8 × UInt8)
    (order : log = before ++ (high, new.1) :: (low, new.2) :: after ∨
      log = before ++ (low, new.2) :: (high, new.1) :: after)
    (different : high ≠ low) (highBefore : high ∉ before.addresses)
    (lowBefore : low ∉ before.addresses) (highAfter : high ∉ after.addresses)
    (lowAfter : low ∉ after.addresses) :
    let torn := (WriteLog.replay (log.take count) eeprom high,
      WriteLog.replay (log.take count) eeprom low)
    torn = (eeprom high, eeprom low) ∨ torn = new ↔
      ¬ (before.length + 1 = count ∧ BothDiffer new (eeprom high, eeprom low)) := by
  rcases order with highFirst | lowFirst
  · have between : (before.length < count ↔ ¬ before.length + 1 < count) ↔
        before.length + 1 = count := by omega
    obtain ⟨one, two⟩ := cells_cut count different highBefore lowBefore highAfter lowAfter highFirst
    rw [one, two, ← between]
    exact pair_mixed_iff new (eeprom high, eeprom low)
  · have between : (before.length + 1 < count ↔ ¬ before.length < count) ↔
        before.length + 1 = count := by omega
    obtain ⟨two, one⟩ :=
      cells_cut count different.symm lowBefore highBefore lowAfter highAfter lowFirst
    rw [one, two, ← between]
    exact pair_mixed_iff new (eeprom high, eeprom low)

variable (packet current : SendPacket)

/-- Each command writes only to its addresses. -/
theorem switchWrites_outside {event : Event} {address : UInt8}
    (outside : address ∉ writtenAddresses event) :
    address ∉ (switchWrites packet current event).addresses := by
  intro written
  apply outside
  revert written
  cases event with
  | watchImage | getCamver | other => exact id
  | setParaReset => exact id
  | _ =>
      simp only [switchWrites, exposureWrites, camidWrites, aoiStartWrites, aoiHeightWrites,
        startY240Writes]
      split_ifs <;> simp +contextual [WriteLog.addresses, writtenAddresses, or_imp]

/-- All other commands leave both bytes of the exposure. -/
theorem exposure_apart {event : Event} (gap : exposureGap event = none) :
    packetExposureh ∉ (switchWrites packet current event).addresses ∧
      packetExposurel ∉ (switchWrites packet current event).addresses := by
  cases event with
  | setDetectpara | setParaReset => simp [exposureGap] at gap
  | _ =>
      exact ⟨switchWrites_outside packet current (by decide),
        switchWrites_outside packet current (by decide)⟩

/-- All other commands leave both bytes of the AOI start. -/
theorem aoiStart_apart {event : Event} (gap : aoiStartGap event = none) :
    packetAoishowstartyh ∉ (switchWrites packet current event).addresses ∧
      packetAoishowstartyl ∉ (switchWrites packet current event).addresses := by
  cases event with
  | setAoi | getCaminfo | setParaReset => simp [aoiStartGap] at gap
  | _ =>
      exact ⟨switchWrites_outside packet current (by decide),
        switchWrites_outside packet current (by decide)⟩

/-- No command writes the marker. -/
theorem marker_apart (event : Event) :
    addressMarker ∉ (switchWrites packet current event).addresses := by
  cases event with
  | _ => exact switchWrites_outside packet current (by decide)

/-- The cut leaves the old or the new exposure unless it falls between two changed bytes. -/
theorem exposure_cut (event : Event) (mirrored : storedExposure eeprom = current.exposureBytes) :
    let torn := storedExposure
      (WriteLog.replay ((switchWrites packet current event).take count) eeprom)
    torn = current.exposureBytes ∨ torn = requestedExposure packet event current ↔
      ¬ (exposureGap event = some count ∧
        BothDiffer (requestedExposure packet event current) current.exposureBytes) := by
  have kept (gap : exposureGap event = none) : storedExposure
      (WriteLog.replay ((switchWrites packet current event).take count) eeprom) =
        current.exposureBytes := by
    obtain ⟨high, low⟩ := exposure_apart packet current gap
    exact (pair_untouched count high low).trans mirrored
  cases event with
  | setDetectpara =>
      simp only [switchWrites, exposureWrites, requestedExposure, exposureGap, Option.some.injEq]
      by_cases inRange : 2 ≤ packet.exposure ∧ packet.exposure ≤ 29999
      · rw [if_pos (by simpa using inRange), if_pos inRange, ← mirrored]
        exact pair_cut count [] [] packet.exposureBytes (.inl rfl) (by decide) (by decide)
          (by decide) (by decide) (by decide)
      · rw [if_neg (by simpa using inRange), if_neg inRange, ← mirrored]
        simp [BothDiffer]
  | setParaReset =>
      simp only [switchWrites, requestedExposure, exposureGap, Option.some.injEq]
      rw [← mirrored]
      exact pair_cut count (imageWrites.take 11) detectWrites _ (.inr rfl) (by decide) (by decide)
        (by decide) (by decide) (by decide)
  | _ =>
      intro torn
      simp only [torn, kept rfl]
      simp [exposureGap]

/-- A cut of a changed AOI start, which comes before other writes, leaves the old or the new one. -/
theorem aoiStartWrites_cut (mirrored : storedAoiStart eeprom = current.aoiStartBytes)
    {rest : Writes} (high : packetAoishowstartyh ∉ rest.addresses)
    (low : packetAoishowstartyl ∉ rest.addresses) :
    let torn := storedAoiStart
      (WriteLog.replay ((aoiStartWrites packet current ++ rest).take count) eeprom)
    let new := if packet.aoiShowStartY ≤ 440 then packet.aoiStartBytes else current.aoiStartBytes
    torn = current.aoiStartBytes ∨ torn = new ↔
      ¬ (1 = count ∧ BothDiffer new current.aoiStartBytes) := by
  by_cases written : packet.aoiShowStartY ≤ 440 ∧ packet.aoiShowStartY ≠ current.aoiShowStartY
  · rw [aoiStartWrites, if_pos (by simpa using written), if_pos written.1, ← mirrored]
    exact pair_cut count [] rest packet.aoiStartBytes (.inl rfl) (by decide) (by decide)
      (by decide) high low
  · have equal : (if packet.aoiShowStartY ≤ 440 then packet.aoiStartBytes
        else current.aoiStartBytes) = current.aoiStartBytes := by
      split
      next inRange =>
        have same : packet.aoiShowStartY = current.aoiShowStartY := by
          by_contra different
          exact written ⟨inRange, different⟩
        exact bigEndian_inj.mp same
      next => rfl
    have unchanged : storedAoiStart (WriteLog.replay (rest.take count) eeprom) =
        current.aoiStartBytes := (pair_untouched count high low).trans mirrored
    rw [aoiStartWrites, if_neg (by simpa using written), List.nil_append, equal]
    simp [unchanged, BothDiffer]

/-- The cut leaves the old or the new AOI start unless it falls between two changed bytes. -/
theorem aoiStart_cut (event : Event) (mirrored : storedAoiStart eeprom = current.aoiStartBytes) :
    let torn := storedAoiStart
      (WriteLog.replay ((switchWrites packet current event).take count) eeprom)
    torn = current.aoiStartBytes ∨ torn = requestedAoiStart packet event current ↔
      ¬ (aoiStartGap event = some count ∧
        BothDiffer (requestedAoiStart packet event current) current.aoiStartBytes) := by
  have kept (gap : aoiStartGap event = none) : storedAoiStart
      (WriteLog.replay ((switchWrites packet current event).take count) eeprom) =
        current.aoiStartBytes := by
    obtain ⟨high, low⟩ := aoiStart_apart packet current gap
    exact (pair_untouched count high low).trans mirrored
  cases event with
  | setAoi =>
      simp only [switchWrites, requestedAoiStart, aoiStartGap, Option.some.injEq]
      apply aoiStartWrites_cut count packet current mirrored
      · simp only [aoiHeightWrites]
        split <;> simp [WriteLog.addresses]
      · simp only [aoiHeightWrites]
        split <;> simp [WriteLog.addresses]
  | getCaminfo =>
      simp only [switchWrites, requestedAoiStart, aoiStartGap, Option.some.injEq,
        List.append_assoc]
      apply aoiStartWrites_cut count packet current mirrored
      · simp only [aoiHeightWrites, startY240Writes]
        split_ifs <;> simp [WriteLog.addresses]
      · simp only [aoiHeightWrites, startY240Writes]
        split_ifs <;> simp [WriteLog.addresses]
  | setParaReset =>
      simp only [switchWrites, requestedAoiStart, aoiStartGap, Option.some.injEq]
      rw [← mirrored]
      exact pair_cut count (imageWrites.take 7) (imageWrites.drop 9 ++ detectWrites) _ (.inl rfl)
        (by decide) (by decide) (by decide) (by decide) (by decide)
  | _ =>
      intro torn
      simp only [torn, kept rfl]
      simp [aoiStartGap]

end Cuts

/-- The load branch loads the stored exposure and the stored AOI start without a test. -/
theorem loadBranch_pairs (board : Board) :
    (loadBranch.exec board).currentCamPara.exposureBytes = storedExposure board.eeprom ∧
      (loadBranch.exec board).currentCamPara.aoiStartBytes = storedAoiStart board.eeprom := by
  rw [loadBranch_exec, limitStartY240, Program.exec_only]
  split <;> exact ⟨rfl, rfl⟩

/-- The exposure and the AOI start stay in range over all commands. -/
theorem commands_inside {board : Board} (exposure : ExposureInside board.currentCamPara.exposureBytes)
    (aoiStart : AoiStartInside board.currentCamPara.aoiStartBytes) (blocks : List Block) :
    ExposureInside (commands board blocks).currentCamPara.exposureBytes ∧
      AoiStartInside (commands board blocks).currentCamPara.aoiStartBytes := by
  induction blocks generalizing board with
  | nil => exact ⟨exposure, aoiStart⟩
  | cons block rest ih =>
      apply ih
      · change ExposureInside ((switch _ _).exec board).currentCamPara.exposureBytes
        rw [switch_exposureBytes]
        exact requestedExposure_inside _ _ exposure
      · change AoiStartInside ((switch _ _).exec board).currentCamPara.aoiStartBytes
        rw [switch_aoiStartBytes]
        exact requestedAoiStart_inside _ _ aoiStart

/-- Power is lost after this many EEPROM writes of the command. -/
def LosesPower (block : Block) (board : Board) (count : Nat) (torn : Eeprom) : Prop :=
  (∃ steps, ((udpDataprocess block).execFor steps board).eeprom = torn) ∧
    torn = WriteLog.replay ((switchWrites (SendPacket.ofBlock block) board.currentCamPara
      (Block.event block)).take count) board.eeprom

/-- Each point of a command comes after some number of its EEPROM writes. -/
theorem losesPower_point (block : Block) (board : Board) (steps : Nat) :
    ∃ count, LosesPower block board count ((udpDataprocess block).execFor steps board).eeprom := by
  obtain ⟨count, cut⟩ := (switch_logs (SendPacket.ofBlock block) board (Block.event block)).execFor
    steps
  exact ⟨count, ⟨steps, rfl⟩, cut⟩

/-- The loaded parameters of two bytes are in range, and each is the one before or after the
command. -/
structure AtomicLoad (before after loaded : SendPacket) : Prop where
  exposure : loaded.exposureBytes = before.exposureBytes ∨
    loaded.exposureBytes = after.exposureBytes
  aoiStart : loaded.aoiStartBytes = before.aoiStartBytes ∨
    loaded.aoiStartBytes = after.aoiStartBytes
  exposureInside : ExposureInside loaded.exposureBytes
  aoiStartInside : AoiStartInside loaded.aoiStartBytes

/-- The next boot loads the old or the new parameters exactly when the cut tears neither. -/
theorem LosesPower.atomic_iff {block : Block} {board : Board} {count : Nat} {torn : Eeprom}
    (lost : LosesPower block board count torn) (mirrored : Mirrored board)
    (marked : board.eeprom addressMarker = 0x25)
    (exposure : ExposureInside board.currentCamPara.exposureBytes)
    (aoiStart : AoiStartInside board.currentCamPara.aoiStartBytes) (other : SendPacket) :
    AtomicLoad board.currentCamPara ((udpDataprocess block).exec board).currentCamPara
        (boot other torn).currentCamPara ↔
      Untorn (SendPacket.ofBlock block) board.currentCamPara (Block.event block) count := by
  have marker : torn addressMarker = 0x25 := by
    rw [lost.2, WriteLog.replay_untouched (WriteLog.addresses_take (marker_apart _ _ _) count)]
    exact marked
  have loaded := loadBranch_pairs (powerOn other torn)
  rw [← boot_marked_loads other marker] at loaded
  have exposureCut := exposure_cut count (SendPacket.ofBlock block) board.currentCamPara
    (Block.event block) mirrored.exposure
  have aoiStartCut := aoiStart_cut count (SendPacket.ofBlock block) board.currentCamPara
    (Block.event block) mirrored.aoiStart
  rw [← lost.2] at exposureCut aoiStartCut
  have exposureAfter := switch_exposureBytes (SendPacket.ofBlock block) board (Block.event block)
  have aoiStartAfter := switch_aoiStartBytes (SendPacket.ofBlock block) board (Block.event block)
  constructor
  · intro atomic
    have one := atomic.exposure
    have two := atomic.aoiStart
    rw [loaded.1, udpDataprocess, exposureAfter] at one
    rw [loaded.2, udpDataprocess, aoiStartAfter] at two
    exact ⟨exposureCut.mp one, aoiStartCut.mp two⟩
  · intro untorn
    have one := exposureCut.mpr untorn.exposure
    have two := aoiStartCut.mpr untorn.aoiStart
    constructor
    · rw [loaded.1, udpDataprocess, exposureAfter]
      exact one
    · rw [loaded.2, udpDataprocess, aoiStartAfter]
      exact two
    · rw [loaded.1]
      rcases one with before | after
      · rw [powerOn, before]
        exact exposure
      · rw [powerOn, after]
        exact requestedExposure_inside _ _ exposure
    · rw [loaded.2]
      rcases two with before | after
      · rw [powerOn, before]
        exact aoiStart
      · rw [powerOn, after]
        exact requestedAoiStart_inside _ _ aoiStart

/-- From each EEPROM in range, a loss of power inside a command leaves the exposure and the AOI
start as before or after that command exactly when it does not fall between two changed bytes. -/
theorem power_loss_atomic {eeprom : Eeprom} (marked : eeprom addressMarker = 0x25)
    (exposure : ExposureInside (storedExposure eeprom))
    (aoiStart : AoiStartInside (storedAoiStart eeprom)) (memory other : SendPacket)
    (blocks : List Block) (block : Block) :
    let board := commands (boot memory eeprom) blocks
    (∀ steps, ∃ count,
      LosesPower block board count ((udpDataprocess block).execFor steps board).eeprom) ∧
    ∀ count torn, LosesPower block board count torn →
      (AtomicLoad board.currentCamPara ((udpDataprocess block).exec board).currentCamPara
          (boot other torn).currentCamPara ↔
        Untorn (SendPacket.ofBlock block) board.currentCamPara (Block.event block) count) := by
  have running := Running.commands memory eeprom blocks
  have loaded := loadBranch_pairs (powerOn memory eeprom)
  rw [← boot_marked_loads memory marked] at loaded
  have inside : ExposureInside (commands (boot memory eeprom) blocks).currentCamPara.exposureBytes ∧
      AoiStartInside (commands (boot memory eeprom) blocks).currentCamPara.aoiStartBytes := by
    apply commands_inside
    · rw [loaded.1]
      exact exposure
    · rw [loaded.2]
      exact aoiStart
  constructor
  · exact losesPower_point block _
  · intro count torn lost
    exact lost.atomic_iff running.mirrored running.marked inside.1 inside.2 other

/-- This `SET_DETECTPARA` block asks for one exposure. -/
def detectBlock (exposureh exposurel : UInt8) : Block := fun index =>
  if index = 3 then 5
  else if index = 14 then exposureh
  else if index = 15 then exposurel
  else 0

/-- The defaults survive a loss of power before the first write of a `SET_DETECTPARA`. -/
theorem power_loss_atomic_start :
    let memory := SendPacket.ofBlock fun _ => 0
    AtomicLoad (boot memory zeroBoot.eeprom).currentCamPara
      ((udpDataprocess (detectBlock 117 0)).exec (boot memory zeroBoot.eeprom)).currentCamPara
      (boot memory (boot memory zeroBoot.eeprom).eeprom).currentCamPara := by
  intro memory
  have marked : zeroBoot.eeprom addressMarker = 0x25 := boot_marked _ _
  have exposure : ExposureInside (storedExposure zeroBoot.eeprom) := by decide +kernel
  have aoiStart : AoiStartInside (storedAoiStart zeroBoot.eeprom) := by decide +kernel
  have whole := power_loss_atomic marked exposure aoiStart memory memory [] (detectBlock 117 0)
  have lost : LosesPower (detectBlock 117 0) (boot memory zeroBoot.eeprom) 0
      (boot memory zeroBoot.eeprom).eeprom := ⟨⟨0, rfl⟩, rfl⟩
  have event : Block.event (detectBlock 117 0) = .setDetectpara := by decide +kernel
  apply (whole.2 0 _ lost).mpr
  constructor
  · rw [event]
    exact fun torn => absurd torn.1 (by decide)
  · rw [event]
    exact fun torn => absurd torn.1 (by decide)

/-- After the exposure 255, a loss of power between the two writes of the exposure 29952 makes
the next boot load 30207. -/
theorem power_loss_tears :
    let memory := SendPacket.ofBlock fun _ => 0
    let board := commands (boot memory zeroBoot.eeprom) [detectBlock 0 255]
    let torn := ((udpDataprocess (detectBlock 117 0)).execFor 5 board).eeprom
    zeroBoot.eeprom addressMarker = 0x25 ∧ ExposureInside (storedExposure zeroBoot.eeprom) ∧
      AoiStartInside (storedAoiStart zeroBoot.eeprom) ∧
      bigEndian (boot memory torn).currentCamPara.exposureBytes = 30207 ∧
      ¬ AtomicLoad board.currentCamPara
        ((udpDataprocess (detectBlock 117 0)).exec board).currentCamPara
        (boot memory torn).currentCamPara := by
  intro memory board torn
  have loaded : bigEndian (boot memory torn).currentCamPara.exposureBytes = 30207 := by
    decide +kernel
  refine ⟨boot_marked _ _, by decide +kernel, by decide +kernel, loaded, ?_⟩
  intro atomic
  have inside := atomic.exposureInside
  rw [ExposureInside, loaded] at inside
  exact absurd inside (by decide)

end NnpCamera.Parameters
