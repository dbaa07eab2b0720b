/-
This file models the timers of lwIP in `timers.c` and shows that they keep their deadlines.
-/

import NnpCamera.Library.DeltaList
import NnpCamera.Library.Machine
import NnpCamera.Mailbox.Elapsed

namespace NnpCamera.Network
open Library Mailbox

def mempNumSysTimeout : Nat := 8

/-- A timer waits for its time after the timer before it. A null handler is `none`. -/
structure SysTimeo (Handler Arg : Type) where
  time : UInt32
  h : Option Handler
  arg : Arg
  deriving DecidableEq

section Functions
variable {Handler Arg Message : Type}

/-- The loop takes the time of a timer from the new timer. It links the new timer there, or goes
on. -/
def linkTimeout (timeout t : SysTimeo Handler Arg) :
    List (SysTimeo Handler Arg) → List (SysTimeo Handler Arg)
  | [] => [t, { timeout with time := timeout.time - t.time }]
  | next :: rest =>
      let shorter := { timeout with time := timeout.time - t.time }
      if next.time > shorter.time then
        t :: shorter :: { next with time := next.time - shorter.time } :: rest
      else t :: linkTimeout shorter next rest

/-- A new timer goes into the list. An empty pool drops it. -/
def sysTimeout (msecs : UInt32) (handler : Option Handler) (arg : Arg)
    (nextTimeout : List (SysTimeo Handler Arg)) : List (SysTimeo Handler Arg) :=
  if nextTimeout.length < mempNumSysTimeout then
    let timeout : SysTimeo Handler Arg := ⟨msecs, handler, arg⟩
    match nextTimeout with
    | [] => [timeout]
    | first :: rest =>
        if first.time > msecs then timeout :: { first with time := first.time - msecs } :: rest
        else linkTimeout timeout first rest
  else nextTimeout

/-- The first timer with the handler and the argument goes. The next one takes over its time. -/
def sysUntimeout [DecidableEq Handler] [DecidableEq Arg] (handler : Option Handler) (arg : Arg) :
    List (SysTimeo Handler Arg) → List (SysTimeo Handler Arg)
  | [] => []
  | t :: rest =>
      if t.h = handler ∧ t.arg = arg then
        match rest with
        | [] => []
        | next :: others => { next with time := next.time + t.time } :: others
      else t :: sysUntimeout handler arg rest

/-- A turn of the loop calls a handler and starts again, or it ends with a message. -/
inductive Turn (Handler Arg Message : Type) where
  | again (handler : Option Handler) (arg : Arg)
  | done (msg : Option Message)
  deriving DecidableEq

/-- One turn of `sys_timeouts_mbox_fetch` from `again`. The handler runs on the new list. -/
def sysTimeoutsMboxFetch (nextTimeout : List (SysTimeo Handler Arg)) (start : UInt32)
    (osQPend : UInt16 → Pended (Option (Posted Message))) :
    List (SysTimeo Handler Arg) × Turn Handler Arg Message :=
  match nextTimeout with
  | [] => ([], .done (sysArchMboxFetchTime 0 start osQPend).value)
  | t :: rest =>
      let fetch := sysArchMboxFetchTime t.time start osQPend
      let timeNeeded := if t.time > 0 then fetch.time else sysArchTimeout
      if timeNeeded = sysArchTimeout then (rest, .again t.h t.arg)
      else ({ t with time := sysTimeoutsReduce t.time timeNeeded } :: rest, .done fetch.value)

/-- The timers as a delta list. -/
def deltas (nextTimeout : List (SysTimeo Handler Arg)) : DeltaList (Option Handler × Arg) :=
  nextTimeout.map fun t => (t.time.toNat, t.h, t.arg)

/-- The time of the last timer fits into a word. -/
def TimesFit (nextTimeout : List (SysTimeo Handler Arg)) : Prop :=
  (deltas nextTimeout).total < 4294967296

theorem deltas_cons (t : SysTimeo Handler Arg) (rest : List (SysTimeo Handler Arg)) :
    deltas (t :: rest) = (t.time.toNat, t.h, t.arg) :: deltas rest := rfl

theorem length_deltas (nextTimeout : List (SysTimeo Handler Arg)) :
    (deltas nextTimeout).length = nextTimeout.length :=
  List.length_map ..

/-- The loop inserts a timer that is not before the first one. No difference wraps. -/
theorem deltas_linkTimeout (timeout t : SysTimeo Handler Arg) (rest : List (SysTimeo Handler Arg))
    (later : t.time ≤ timeout.time) :
    deltas (linkTimeout timeout t rest) =
      (deltas (t :: rest)).insert timeout.time.toNat (timeout.h, timeout.arg) := by
  have most := UInt32.le_iff_toNat_le.mp later
  have shorter : (timeout.time - t.time).toNat = timeout.time.toNat - t.time.toNat :=
    UInt32.toNat_sub_of_le _ _ later
  rw [deltas_cons, DeltaList.insert, if_neg (by omega)]
  induction rest generalizing timeout t with
  | nil => simp only [linkTimeout, deltas, List.map, DeltaList.insert, shorter]
  | cons next rest ih =>
      rw [linkTimeout, deltas_cons next, DeltaList.insert, ← shorter]
      by_cases before : next.time > timeout.time - t.time
      · have less := UInt32.lt_iff_toNat_lt.mp before
        rw [if_pos before, if_pos less]
        simp only [deltas, List.map, UInt32.toNat_sub_of_le _ _ (UInt32.le_of_lt before)]
      · have linked := UInt32.not_lt.mp before
        rw [if_neg before, if_neg (mt UInt32.lt_iff_toNat_lt.mpr before), deltas_cons]
        exact congrArg _ (ih _ next linked (UInt32.le_iff_toNat_le.mp linked)
          (UInt32.toNat_sub_of_le _ _ linked))

/-- A new timer is inserted into the delta list. -/
theorem deltas_sysTimeout {nextTimeout : List (SysTimeo Handler Arg)}
    (room : nextTimeout.length < mempNumSysTimeout) (msecs : UInt32) (handler : Option Handler)
    (arg : Arg) :
    deltas (sysTimeout msecs handler arg nextTimeout) =
      (deltas nextTimeout).insert msecs.toNat (handler, arg) := by
  rw [sysTimeout, if_pos room]
  cases nextTimeout with
  | nil => rfl
  | cons first rest =>
      by_cases before : first.time > msecs
      · have less := UInt32.lt_iff_toNat_lt.mp before
        simp only [if_pos before, deltas_cons, DeltaList.insert, if_pos less,
          UInt32.toNat_sub_of_le _ _ (UInt32.le_of_lt before)]
      · simp only [if_neg before]
        exact deltas_linkTimeout _ first rest (UInt32.not_lt.mp before)

theorem deltas_sysUntimeout [DecidableEq Handler] [DecidableEq Arg] (handler : Option Handler)
    (arg : Arg) {nextTimeout : List (SysTimeo Handler Arg)} (fit : TimesFit nextTimeout) :
    deltas (sysUntimeout handler arg nextTimeout) =
      (deltas nextTimeout).remove fun value => decide (value = (handler, arg)) := by
  induction nextTimeout with
  | nil => rfl
  | cons t rest ih =>
      rw [TimesFit, deltas_cons, DeltaList.total] at fit
      rw [deltas_cons, DeltaList.remove]
      simp only [decide_eq_true_eq, Prod.mk.injEq]
      unfold sysUntimeout
      split
      · cases rest with
        | nil => rfl
        | cons next others =>
            rw [deltas_cons, DeltaList.total] at fit
            have sum : (next.time + t.time).toNat = next.time.toNat + t.time.toNat := by
              rw [UInt32.toNat_add]
              exact Nat.mod_eq_of_lt (by omega)
            simp only [deltas_cons, DeltaList.postpone, sum]
      · exact congrArg _ (ih (by rw [TimesFit]; omega))

end Functions

/-- A task sets a timer, cancels a timer, or waits for one turn. -/
inductive TimerCall (Handler Arg Message : Type) where
  | timeout (msecs : UInt32) (handler : Option Handler) (arg : Arg)
  | untimeout (handler : Option Handler) (arg : Arg)
  | turn (start : UInt32) (osQPend : UInt16 → Pended (Option (Posted Message)))

/-- The timers of the code, with a clock that the code does not have. -/
structure Timers (Handler Arg : Type) where
  nextTimeout : List (SysTimeo Handler Arg)
  clock : Nat

/-- The pending timers with their deadlines. -/
structure Pending (Value : Type) where
  timers : List (Nat × Value)
  clock : Nat

section Machines
variable {Handler Arg Message : Type}

/-- The time that a turn takes from all timers. -/
def taken (before after : List (SysTimeo Handler Arg)) : Nat :=
  (deltas before).total - (deltas after).total

/-- The list has the deadlines of the pending timers, and its times fit. -/
structure SameDeadlines (timers : Timers Handler Arg) (pending : Pending (Option Handler × Arg)) :
    Prop where
  fit : TimesFit timers.nextTimeout
  clock : timers.clock = pending.clock
  deadlines : (deltas timers.nextTimeout).deadlines timers.clock = pending.timers

variable {timers : Timers Handler Arg} {pending : Pending (Option Handler × Arg)}

theorem SameDeadlines.length_eq (same : SameDeadlines timers pending) :
    timers.nextTimeout.length = pending.timers.length := by
  rw [← same.deadlines, DeltaList.length_deadlines, length_deltas]

/-- A new timer gets a deadline, or the pool is empty on both sides. -/
theorem SameDeadlines.timeout (same : SameDeadlines timers pending) (msecs : UInt32)
    (handler : Option Handler) (arg : Arg) :
    SameDeadlines
      { timers with nextTimeout := sysTimeout msecs handler arg timers.nextTimeout }
      (if pending.timers.length < mempNumSysTimeout then
        { pending with
          timers := pending.timers.orderedInsert DeltaList.earlier
            (pending.clock + msecs.toNat, handler, arg) }
      else pending) := by
  by_cases room : pending.timers.length < mempNumSysTimeout
  · have free := same.length_eq ▸ room
    have inserted := deltas_sysTimeout free msecs handler arg
    rw [if_pos room]
    refine ⟨?_, same.clock, ?_⟩
    · have fit := same.fit
      have below := msecs.toNat_lt
      rw [TimesFit] at fit ⊢
      rw [inserted, DeltaList.total_insert]
      omega
    · rw [inserted, DeltaList.deadlines_insert, same.deadlines, same.clock]
  · have full := same.length_eq ▸ room
    rw [if_neg room, sysTimeout, if_neg full]
    exact same

/-- A turn calls a timer without time, and a timer whose wait ends. -/
theorem noTime_iff {time needed : UInt32} :
    (if time > 0 then needed else sysArchTimeout) = sysArchTimeout ↔
      time.toNat = 0 ∨ needed = sysArchTimeout := by
  by_cases waits : time > 0
  · have more := UInt32.lt_iff_toNat_lt.mp waits
    rw [UInt32.toNat_zero] at more
    rw [if_pos waits, or_iff_right (by omega)]
  · have none := mt UInt32.lt_iff_toNat_lt.mpr waits
    rw [UInt32.toNat_zero] at none
    rw [if_neg waits]
    exact iff_of_true rfl (Or.inl (by omega))

variable [DecidableEq Handler] [DecidableEq Arg]

/-- The code runs on the delta list. The clock advances by the time that a turn takes. Each turn
tells the clock. -/
def sysTimeouts : Machine (Timers Handler Arg) (TimerCall Handler Arg Message)
    (Option (Turn Handler Arg Message × Nat)) where
  step timers call :=
    match call with
    | .timeout msecs handler arg =>
        ({ timers with nextTimeout := sysTimeout msecs handler arg timers.nextTimeout }, none)
    | .untimeout handler arg =>
        ({ timers with nextTimeout := sysUntimeout handler arg timers.nextTimeout }, none)
    | .turn start osQPend =>
        let next := sysTimeoutsMboxFetch timers.nextTimeout start osQPend
        let clock := timers.clock + taken timers.nextTimeout next.1
        (⟨next.1, clock⟩, some (next.2, clock))

/-- The purpose of the timers. A timer has a deadline, and only the first timer can be called, at
its deadline. -/
def pendingTimers : Machine (Pending (Option Handler × Arg)) (TimerCall Handler Arg Message)
    (Option (Turn Handler Arg Message × Nat)) where
  step pending call :=
    match call with
    | .timeout msecs handler arg =>
        (if pending.timers.length < mempNumSysTimeout then
          { pending with
            timers := pending.timers.orderedInsert DeltaList.earlier
              (pending.clock + msecs.toNat, handler, arg) }
        else pending, none)
    | .untimeout handler arg =>
        ({ pending with
          timers := pending.timers.eraseP fun timer => decide (timer.2 = (handler, arg)) }, none)
    | .turn start osQPend =>
        match pending.timers with
        | [] => (pending, some (.done (sysArchMboxFetchTime 0 start osQPend).value, pending.clock))
        | (deadline, handler, arg) :: rest =>
            let remaining := deadline - pending.clock
            let fetch := sysArchMboxFetchTime (UInt32.ofNat remaining) start osQPend
            if remaining = 0 ∨ fetch.time = sysArchTimeout then
              (⟨rest, deadline⟩, some (.again handler arg, deadline))
            else
              let clock := min deadline (pending.clock + fetch.time.toNat)
              ({ pending with clock := clock }, some (.done fetch.value, clock))

/-- A turn calls the first timer at its deadline, or it ends with a message. The clock does not go
back. -/
theorem pendingTimers_turn (pending : Pending (Option Handler × Arg)) (start : UInt32)
    (osQPend : UInt16 → Pended (Option (Posted Message)))
    (due : ∀ timer ∈ pending.timers, pending.clock ≤ timer.1) :
    let result := pendingTimers.step pending (.turn start osQPend)
    pending.clock ≤ result.1.clock ∧
    ((∃ handler arg, pending.timers = (result.1.clock, handler, arg) :: result.1.timers ∧
      result.2 = some (.again handler arg, result.1.clock)) ∨
    (∃ msg, pending.timers = result.1.timers ∧ result.2 = some (.done msg, result.1.clock))) := by
  obtain ⟨list, clock⟩ := pending
  simp only [pendingTimers]
  cases list with
  | nil => exact ⟨Nat.le_refl _, Or.inr ⟨_, rfl, rfl⟩⟩
  | cons timer rest =>
      obtain ⟨deadline, handler, arg⟩ := timer
      have first := due (deadline, handler, arg) (List.mem_cons_self ..)
      simp only at first ⊢
      split
      · exact ⟨first, Or.inl ⟨handler, arg, rfl, rfl⟩⟩
      · exact ⟨Nat.le_min.mpr ⟨first, Nat.le_add_right ..⟩, Or.inr ⟨_, rfl, rfl⟩⟩

/-- A removal keeps all other deadlines. -/
theorem SameDeadlines.untimeout (same : SameDeadlines timers pending) (handler : Option Handler)
    (arg : Arg) :
    SameDeadlines
      { timers with nextTimeout := sysUntimeout handler arg timers.nextTimeout }
      { pending with
        timers := pending.timers.eraseP fun timer => decide (timer.2 = (handler, arg)) } := by
  have removed := deltas_sysUntimeout handler arg same.fit
  refine ⟨?_, same.clock, ?_⟩
  · rw [TimesFit, removed]
    exact Nat.lt_of_le_of_lt (DeltaList.total_remove ..) same.fit
  · rw [removed, DeltaList.deadlines_remove, same.deadlines]

/-- A turn keeps the deadlines. -/
theorem SameDeadlines.turn (same : SameDeadlines timers pending) (start : UInt32)
    (osQPend : UInt16 → Pended (Option (Posted Message))) :
    (sysTimeouts.step timers (.turn start osQPend)).2 =
        (pendingTimers.step pending (.turn start osQPend)).2 ∧
      SameDeadlines (sysTimeouts.step timers (.turn start osQPend)).1
        (pendingTimers.step pending (.turn start osQPend)).1 := by
  obtain ⟨nextTimeout, clock⟩ := timers
  obtain ⟨list, pendingClock⟩ := pending
  obtain ⟨fit, rfl, rfl⟩ := same
  simp only at fit
  cases nextTimeout with
  | nil => exact ⟨rfl, fit, rfl, rfl⟩
  | cons t rest =>
      have remaining : clock + t.time.toNat - clock = t.time.toNat := Nat.add_sub_cancel_left ..
      by_cases calls : t.time.toNat = 0 ∨
          (sysArchMboxFetchTime t.time start osQPend).time = sysArchTimeout
      · have whole : taken (t :: rest) rest = t.time.toNat := Nat.add_sub_cancel ..
        simp only [sysTimeouts, pendingTimers, sysTimeoutsMboxFetch, deltas_cons,
          DeltaList.deadlines_cons, remaining, UInt32.ofNat_toNat, if_pos calls,
          if_pos (noTime_iff.mpr calls), whole]
        refine ⟨trivial, ?_, rfl, rfl⟩
        rw [TimesFit, deltas_cons, DeltaList.total] at fit
        exact Nat.lt_of_le_of_lt (Nat.le_add_left ..) fit
      · have fewer := fit
        obtain ⟨time, early⟩ := not_or.mp calls
        have waits : t.time > 0 := UInt32.lt_iff_toNat_lt.mpr (Nat.pos_of_ne_zero time)
        have reduced := sysTimeoutsReduce_toNat t.time
          (sysArchMboxFetchTime t.time start osQPend).time
        generalize hfetch : sysArchMboxFetchTime t.time start osQPend = fetch at *
        have part : taken (t :: rest)
            ({ t with time := sysTimeoutsReduce t.time fetch.time } :: rest) =
              min t.time.toNat fetch.time.toNat := by
          simp only [taken, deltas_cons, DeltaList.total, reduced]
          omega
        have advanced : clock + min t.time.toNat fetch.time.toNat =
            min (clock + t.time.toNat) (clock + fetch.time.toNat) :=
          (Nat.add_min_add_left ..).symm
        simp only [sysTimeouts, pendingTimers, sysTimeoutsMboxFetch, deltas_cons,
          DeltaList.deadlines_cons, remaining, UInt32.ofNat_toNat, hfetch, if_neg calls,
          if_pos waits, if_neg early, part, advanced]
        refine ⟨trivial, ?_, rfl, ?_⟩
        · rw [TimesFit, deltas_cons, DeltaList.total] at fewer ⊢
          simp only [reduced]
          omega
        · have deadline : min (clock + t.time.toNat) (clock + fetch.time.toNat) +
              (t.time.toNat - fetch.time.toNat) = clock + t.time.toNat := by omega
          simp only [deltas_cons, DeltaList.deadlines_cons, reduced, deadline]

/-- The code simulates the timers with deadlines. -/
theorem sysTimeouts_simulates :
    Machine.Simulates (@sysTimeouts Handler Arg Message _ _) pendingTimers
      SameDeadlines := by
  intro timers pending call same
  cases call with
  | timeout msecs handler arg => exact ⟨rfl, same.timeout msecs handler arg⟩
  | untimeout handler arg => exact ⟨rfl, same.untimeout handler arg⟩
  | turn start osQPend => exact same.turn start osQPend

/-- In each run the delta list calls the timers and gives the messages like timers with deadlines.
The timers of the list wait for these deadlines, which are in order and not over. -/
theorem keeps_deadlines (calls : List (TimerCall Handler Arg Message)) :
    sysTimeouts.results ⟨[], 0⟩ calls = pendingTimers.results ⟨[], 0⟩ calls ∧
      SameDeadlines (sysTimeouts.after ⟨[], 0⟩ calls) (pendingTimers.after ⟨[], 0⟩ calls) ∧
      (pendingTimers.after ⟨[], 0⟩ calls).timers.Pairwise (fun one two => one.1 ≤ two.1) ∧
      ∀ timer ∈ (pendingTimers.after ⟨[], 0⟩ calls).timers,
        (pendingTimers.after ⟨[], 0⟩ calls).clock ≤ timer.1 := by
  have start : SameDeadlines (⟨[], 0⟩ : Timers Handler Arg) ⟨[], 0⟩ :=
    ⟨(by decide : 0 < 4294967296), rfl, rfl⟩
  have same := sysTimeouts_simulates.after start calls
  refine ⟨sysTimeouts_simulates.results_eq start calls, same, ?_, ?_⟩
  · rw [← same.deadlines]
    exact DeltaList.deadlines_sorted ..
  · intro timer inside
    rw [← same.deadlines] at inside
    rw [← same.clock]
    exact (DeltaList.deadlines_bounds inside).1

end Machines

end NnpCamera.Network
