/-
This file models the times of the waits in `sys_arch.c` and shows when the reported times are right.
-/

import NnpCamera.Mailbox.SysArch

namespace NnpCamera.Mailbox

def osErrTimeout : UInt8 := 10
def osTicksPerSec : UInt32 := 1000
def sysArchTimeout : UInt32 := 0xffffffff

/-- A wait in the kernel ends with an error code and a value, at a tick of the clock. -/
structure Pended (Value : Type) where
  ucErr : UInt8
  value : Value
  tick : UInt32

/-- The wait succeeds at this tick. -/
def Pended.Succeeds {Value : Type} (pended : Pended Value) (tick : UInt32) : Prop :=
  pended.ucErr = osErrNone ∧ pended.tick = tick

/-- A wait of lwIP passes a number of ticks to the kernel and returns a time. -/
structure Waited (Value : Type) where
  ticks : UInt16
  time : UInt32
  value : Value

/-- The milliseconds become ticks, at least one. A timeout of zero stays. -/
def ucosTimeout (timeout : UInt32) : UInt32 :=
  if timeout ≠ 0 then
    let ticks := timeout * osTicksPerSec / 1000
    if ticks < 1 then 1 else ticks
  else 0

section Waits
variable {Message : Type}

/-- The fetch waits for a message of the queue. `OSTimeGet` gives `start` before the wait. -/
def sysArchMboxFetchTime (timeout start : UInt32)
    (osQPend : UInt16 → Pended (Option (Posted Message))) : Waited (Option Message) :=
  let ticks := (ucosTimeout timeout).toUInt16
  let pended := osQPend ticks
  let time :=
    if pended.ucErr = osErrTimeout then sysArchTimeout
    else
      let timeoutNew :=
        if pended.tick > start then pended.tick - start else 0xffffffff - start + pended.tick
      timeoutNew * 1000 / osTicksPerSec + 1
  { ticks := ticks, time := time, value := pended.value.bind Posted.pointer }

/-- The wait for a semaphore takes equal ticks to the other branch. -/
def sysArchSemWait (timeout start : UInt32) (osSemPend : UInt16 → Pended Unit) : Waited Unit :=
  let ticks := (ucosTimeout timeout).toUInt16
  let pended := osSemPend ticks
  let time :=
    if pended.ucErr = osErrTimeout then sysArchTimeout
    else
      let timeoutNew :=
        if pended.tick ≥ start then pended.tick - start else 0xffffffff - start + pended.tick
      timeoutNew * 1000 / osTicksPerSec + 1
  { ticks := ticks, time := time, value := pended.value }

/-- The next timer of lwIP loses the time of a fetch, in `sys_timeouts_mbox_fetch`. -/
def sysTimeoutsReduce (time timeNeeded : UInt32) : UInt32 :=
  if timeNeeded < time then time - timeNeeded else 0

/-- The time of a wait in milliseconds. The clock wraps, and the product does not overflow. -/
def elapsed (start tick : UInt32) : Nat :=
  (tick - start).toNat * 1000 / osTicksPerSec.toNat + 1

end Waits

/-- The conversion to 16 bits keeps a part of the ticks. -/
theorem ucosTimeout_passed {timeout : UInt32} (nonzero : timeout ≠ 0) :
    (ucosTimeout timeout).toUInt16 ≠ 0 ↔
      timeout.toNat * 1000 % 4294967296 < 1000 ∨
        1000 ≤ timeout.toNat * 1000 % 4294967296 % 65536000 := by
  have ticks : (timeout * osTicksPerSec / 1000).toNat =
      timeout.toNat * 1000 % 4294967296 / 1000 := by
    rw [UInt32.toNat_div, UInt32.toNat_mul]
    rfl
  rw [ucosTimeout, if_pos nonzero, Ne, ← UInt16.toNat_inj, UInt32.toNat_toUInt16]
  simp only [UInt32.lt_iff_toNat_lt, ticks]
  split
  · rename_i short
    have less : timeout.toNat * 1000 % 4294967296 / 1000 < 1 := short
    exact iff_of_true (by decide) (Or.inl (by omega))
  · rename_i long
    have more : ¬ timeout.toNat * 1000 % 4294967296 / 1000 < 1 := long
    have parts : timeout.toNat * 1000 % 4294967296 / 1000 / 65536 =
        timeout.toNat * 1000 % 4294967296 / 65536000 := Nat.div_div_eq_div_mul ..
    rw [ticks]
    simp only [UInt16.toNat_zero, Nat.reducePow]
    omega

theorem elapsed_eq (start tick : UInt32) : elapsed start tick = (tick - start).toNat + 1 := by
  rw [elapsed, show osTicksPerSec.toNat = 1000 from rfl, Nat.mul_div_cancel _ (by decide)]

/-- The product of the code can overflow. -/
theorem reported_toNat (ticks : UInt32) :
    (ticks * 1000 / osTicksPerSec + 1).toNat = ticks.toNat * 1000 % 4294967296 / 1000 + 1 := by
  rw [UInt32.toNat_add, UInt32.toNat_div, UInt32.toNat_mul]
  simp only [osTicksPerSec, UInt32.reduceToNat, UInt32.toNat_one, Nat.reducePow]
  omega

/-- The code reports no more than the ticks and one, and less after an overflow. -/
theorem reported_le (ticks : UInt32) :
    (ticks * 1000 / osTicksPerSec + 1).toNat ≤ ticks.toNat + 1 := by
  rw [reported_toNat]
  omega

theorem reported_eq_iff (ticks : UInt32) :
    (ticks * 1000 / osTicksPerSec + 1).toNat = ticks.toNat + 1 ↔ ticks.toNat ≤ 4294967 := by
  have below := ticks.toNat_lt
  rw [reported_toNat]
  omega

/-- After a wrap the code misses one tick. -/
theorem wrapped_toNat {start tick : UInt32} (wrapped : tick < start) :
    (0xffffffff - start + tick).toNat + 1 = (tick - start).toNat := by
  have less := UInt32.lt_iff_toNat_lt.mp wrapped
  have below := start.toNat_lt
  simp only [UInt32.toNat_add, UInt32.toNat_sub, UInt32.reduceToNat, Nat.reducePow]
  omega

/-- The time after a wrap is too short. -/
theorem wrapped_reported {start tick : UInt32} (wrapped : tick < start) :
    ((0xffffffff - start + tick) * 1000 / osTicksPerSec + 1).toNat < elapsed start tick := by
  have reported := reported_le (0xffffffff - start + tick)
  have interval := wrapped_toNat wrapped
  rw [elapsed_eq]
  omega

/-- Equal ticks look like a whole turn of the clock. -/
theorem equal_reported (tick : UInt32) :
    ((0xffffffff - tick + tick) * 1000 / osTicksPerSec + 1).toNat = 4294967 := by
  rw [UInt32.sub_add_cancel, reported_toNat]
  decide

section Times
variable {Message : Type} {timeout start tick : UInt32}

/-- The fetch reports the time of each wait in which the clock advances without a wrap, for so many
ticks. -/
theorem sysArchMboxFetchTime_elapsed {osQPend : UInt16 → Pended (Option (Posted Message))}
    (succeeds : (osQPend (ucosTimeout timeout).toUInt16).Succeeds tick) :
    (sysArchMboxFetchTime timeout start osQPend).time.toNat = elapsed start tick ↔
      start < tick ∧ (tick - start).toNat ≤ 4294967 := by
  obtain ⟨done, ended⟩ := succeeds
  simp only [sysArchMboxFetchTime, done, ended]
  rw [if_neg (by decide)]
  by_cases later : start < tick
  · rw [if_pos later, elapsed_eq, reported_eq_iff, and_iff_right later]
  · rw [if_neg later]
    refine iff_of_false ?_ fun fits => later fits.1
    rcases UInt32.lt_or_eq_of_le (UInt32.not_lt.mp later) with wrapped | rfl
    · exact Nat.ne_of_lt (wrapped_reported wrapped)
    · rw [equal_reported, elapsed_eq, UInt32.sub_self]
      decide

/-- The wait for a semaphore also reports the time of a wait without a tick. -/
theorem sysArchSemWait_elapsed {osSemPend : UInt16 → Pended Unit}
    (succeeds : (osSemPend (ucosTimeout timeout).toUInt16).Succeeds tick) :
    (sysArchSemWait timeout start osSemPend).time.toNat = elapsed start tick ↔
      start ≤ tick ∧ (tick - start).toNat ≤ 4294967 := by
  obtain ⟨done, ended⟩ := succeeds
  simp only [sysArchSemWait, done, ended]
  rw [if_neg (by decide)]
  by_cases later : start ≤ tick
  · rw [if_pos later, elapsed_eq, reported_eq_iff, and_iff_right later]
  · rw [if_neg later]
    have wrapped := wrapped_reported (UInt32.not_le.mp later)
    exact iff_of_false (Nat.ne_of_lt wrapped) fun fits => later fits.1

theorem sysTimeoutsReduce_toNat (time timeNeeded : UInt32) :
    (sysTimeoutsReduce time timeNeeded).toNat = time.toNat - timeNeeded.toNat := by
  rw [sysTimeoutsReduce]
  split
  · rename_i less
    exact UInt32.toNat_sub_of_le _ _ (UInt32.le_of_lt less)
  · rename_i more
    have most := UInt32.le_iff_toNat_le.mp (UInt32.not_lt.mp more)
    rw [UInt32.toNat_zero]
    omega

/-- The next timer keeps the rest of its time, unless the message was there at once. -/
theorem sysArchMboxFetchTime_timer {osQPend : UInt16 → Pended (Option (Posted Message))}
    (succeeds : (osQPend (ucosTimeout timeout).toUInt16).Succeeds tick) (time : UInt32) :
    time.toNat - elapsed start tick ≤
        (sysTimeoutsReduce time (sysArchMboxFetchTime timeout start osQPend).time).toNat ↔
      start ≠ tick ∨ time.toNat ≤ 1 := by
  obtain ⟨done, ended⟩ := succeeds
  rw [sysTimeoutsReduce_toNat]
  simp only [sysArchMboxFetchTime, done, ended]
  rw [if_neg (by decide)]
  by_cases later : start < tick
  · have reported := reported_le (tick - start)
    rw [if_pos later, elapsed_eq]
    exact iff_of_true (by omega) (Or.inl (UInt32.ne_of_lt later))
  · rw [if_neg later]
    rcases UInt32.lt_or_eq_of_le (UInt32.not_lt.mp later) with wrapped | rfl
    · have reported := wrapped_reported wrapped
      exact iff_of_true (by omega) (Or.inl (UInt32.ne_of_lt wrapped).symm)
    · rw [equal_reported, elapsed_eq, UInt32.sub_self, UInt32.toNat_zero]
      simp only [ne_eq, not_true_eq_false, false_or]
      omega

end Times

/-- Both waits pass a number of ticks that ends the wait, and after a success both report the time
of the wait. -/
theorem sysArchWaits_elapsed {Message : Type} (timeout start tick : UInt32)
    (nonzero : timeout ≠ 0) (osQPend : UInt16 → Pended (Option (Posted Message)))
    (osSemPend : UInt16 → Pended Unit) :
    let fetch := sysArchMboxFetchTime timeout start osQPend
    let wait := sysArchSemWait timeout start osSemPend
    (fetch.ticks ≠ 0 ∧ wait.ticks ≠ 0 ↔
      timeout.toNat * 1000 % 4294967296 < 1000 ∨
        1000 ≤ timeout.toNat * 1000 % 4294967296 % 65536000) ∧
    ((osQPend fetch.ticks).Succeeds tick → (osSemPend wait.ticks).Succeeds tick →
      (fetch.time.toNat = elapsed start tick ∧ wait.time.toNat = elapsed start tick ↔
        start < tick ∧ (tick - start).toNat ≤ 4294967)) := by
  constructor
  · rw [← ucosTimeout_passed nonzero]
    exact and_self_iff
  · intro fetched waited
    rw [sysArchMboxFetchTime_elapsed fetched, sysArchSemWait_elapsed waited]
    exact ⟨And.left, fun fits => ⟨fits, UInt32.le_of_lt fits.1, fits.2⟩⟩

/-- Both waits are right when the clock goes from 7 to 12. -/
theorem sysArchWaits_elapsed_five :
    let osQPend : UInt16 → Pended (Option (Posted Nat)) := fun _ =>
      ⟨osErrNone, some (.message 3), 12⟩
    let osSemPend : UInt16 → Pended Unit := fun _ => ⟨osErrNone, (), 12⟩
    ((sysArchMboxFetchTime 250 7 osQPend).ticks ≠ 0 ∧
        (sysArchSemWait 250 7 osSemPend).ticks ≠ 0) ∧
      (sysArchMboxFetchTime 250 7 osQPend).time.toNat = elapsed 7 12 ∧
        (sysArchSemWait 250 7 osSemPend).time.toNat = elapsed 7 12 := by
  intro osQPend osSemPend
  obtain ⟨passed, reported⟩ :=
    sysArchWaits_elapsed 250 7 12 (by decide) osQPend osSemPend
  exact ⟨passed.mpr (by decide),
    (reported ⟨rfl, rfl⟩ ⟨rfl, rfl⟩).mpr (by decide)⟩

/-- A message that is there at once gives a time of over an hour, and a timeout of 65536 milliseconds
gives a wait without an end. -/
theorem sysArchMboxFetchTime_waiting :
    let osQPend : UInt16 → Pended (Option (Posted Nat)) := fun _ =>
      ⟨osErrNone, some (.message 3), 7⟩
    let osSemPend : UInt16 → Pended Unit := fun _ => ⟨osErrNone, (), 7⟩
    (sysArchMboxFetchTime 250 7 osQPend).time = 4294967 ∧
      (sysArchSemWait 250 7 osSemPend).time = 1 ∧ elapsed 7 7 = 1 ∧
      (sysArchMboxFetchTime 65536 7 osQPend).ticks = 0 := by
  decide

end NnpCamera.Mailbox
