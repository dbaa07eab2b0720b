/-
This file models the timers that the lwIP thread starts and shows that they are called in their
periods.
-/

import NnpCamera.Network.Timers

namespace NnpCamera.Network
open Library Mailbox

/-- The handlers of the timers in this configuration. -/
inductive TimerHandler where
  | tcpipTcpTimer
  | ipReassTimer
  | arpTimer
  deriving DecidableEq

def ipTmrInterval : UInt32 := 1000
def arpTmrInterval : UInt32 := 5000
def tcpTmrInterval : UInt32 := 250

/-- The timers, the flag of the TCP timer, and the calls with their times, the last call first. -/
structure TcpipTimers where
  timers : Timers TimerHandler Unit
  tcpipTcpTimerActive : Bool
  called : List (TimerHandler × Nat)

namespace TcpipTimers

/-- A timer with a null argument. -/
def sysTimeout (msecs : UInt32) (handler : TimerHandler) (state : TcpipTimers) : TcpipTimers :=
  { state with
    timers.nextTimeout := Network.sysTimeout msecs (some handler) () state.timers.nextTimeout }

/-- The start of the module. `LWIP_DHCP`, `LWIP_AUTOIP`, `LWIP_IGMP` and `LWIP_DNS` are off. -/
def sysTimeoutsInit : TcpipTimers :=
  sysTimeout arpTmrInterval .arpTimer
    (sysTimeout ipTmrInterval .ipReassTimer ⟨⟨[], 0⟩, false, []⟩)

/-- A registered PCB starts the TCP timer. `pcbs` tells whether there are active or waiting PCBs. -/
def tcpTimerNeeded (pcbs : Bool) (state : TcpipTimers) : TcpipTimers :=
  if !state.tcpipTcpTimerActive && pcbs then
    sysTimeout tcpTmrInterval .tcpipTcpTimer { state with tcpipTcpTimerActive := true }
  else state

/-- The handlers do their work and start their timers again. -/
def handle (handler : TimerHandler) (pcbs : Bool) (state : TcpipTimers) : TcpipTimers :=
  match handler with
  | .tcpipTcpTimer =>
      if pcbs then sysTimeout tcpTmrInterval .tcpipTcpTimer state
      else { state with tcpipTcpTimerActive := false }
  | .ipReassTimer => sysTimeout ipTmrInterval .ipReassTimer state
  | .arpTimer => sysTimeout arpTmrInterval .arpTimer state

/-- The thread waits for one turn, or a message registers a PCB. -/
inductive Event (Message : Type) where
  | turn (start : UInt32) (osQPend : UInt16 → Pended (Option (Posted Message))) (pcbs : Bool)
  | tcpTimerNeeded (pcbs : Bool)

/-- A turn calls the handler of the first timer, or it ends with a message. -/
def step {Message : Type} (state : TcpipTimers) (event : Event Message) : TcpipTimers :=
  match event with
  | .turn start osQPend pcbs =>
      let next := sysTimeouts.step state.timers (.turn start osQPend)
      match next.2 with
      | some (.again (some handler) (), clock) =>
          handle handler pcbs
            { state with timers := next.1, called := (handler, clock) :: state.called }
      | _ => { state with timers := next.1 }
  | .tcpTimerNeeded pcbs => tcpTimerNeeded pcbs state

/-- The thread runs from the start of the module. -/
def run {Message : Type} (events : List (Event Message)) : TcpipTimers :=
  events.foldl step sysTimeoutsInit

/-- The times at which a handler was called, the last time first. -/
def timesOf (handler : TimerHandler) (called : List (TimerHandler × Nat)) : List Nat :=
  (called.filter fun call => call.1 = handler).map Prod.snd

/-- The handlers of the pending timers. -/
def handlers (state : TcpipTimers) : List (Option TimerHandler) :=
  state.timers.nextTimeout.map SysTimeo.h

/-- The multiples of an interval, the last one first. -/
def multiples (interval : Nat) : Nat → List Nat
  | 0 => []
  | count + 1 => interval * (count + 1) :: multiples interval count

/-- The handlers with a next time, as pending timers. -/
def pendingOf (next : TimerHandler → Option Nat) : List (Nat × Option TimerHandler × Unit) :=
  [.tcpipTcpTimer, .ipReassTimer, .arpTimer].flatMap fun handler =>
    (next handler).toList.map fun time => (time, some handler, ())

/-- The interval of each handler. -/
def interval : TimerHandler → UInt32
  | .tcpipTcpTimer => tcpTmrInterval
  | .ipReassTimer => ipTmrInterval
  | .arpTimer => arpTmrInterval

/-- The list holds one timer for each handler with a next time, which is at most an interval away. -/
structure Waiting (timers : Timers TimerHandler Unit) (next : TimerHandler → Option Nat) : Prop where
  fit : TimesFit timers.nextTimeout
  pending : ((deltas timers.nextTimeout).deadlines timers.clock).Perm (pendingOf next)
  within : ∀ handler time, next handler = some time →
    time ≤ timers.clock + (interval handler).toNat

/-- A handler was called at the multiples of its interval, and the next multiple is its next time. -/
def Every (handler : TimerHandler) (called : List (TimerHandler × Nat)) (next : Option Nat) : Prop :=
  ∃ count, timesOf handler called = multiples (interval handler).toNat count ∧
    next = some ((interval handler).toNat * (count + 1))

/-- A timer that starts is one more pending timer. -/
theorem pendingOf_update (next : TimerHandler → Option Nat) (handler : TimerHandler) (time : Nat) :
    (pendingOf (Function.update next handler (some time))).Perm
      ((time, some handler, ()) :: pendingOf (Function.update next handler none)) := by
  cases handler with
  | tcpipTcpTimer => simp [pendingOf]
  | ipReassTimer =>
      simp only [pendingOf, List.flatMap_cons, Function.update_self]
      exact List.perm_middle
  | arpTimer =>
      simp only [pendingOf, List.flatMap_cons, List.flatMap_nil, Function.update_self,
        Option.toList_none, List.map_nil, List.append_nil, ← List.append_assoc]
      exact List.perm_append_singleton ..

theorem mem_pendingOf {next : TimerHandler → Option Nat} {time : Nat} {h : Option TimerHandler} :
    (time, h, ()) ∈ pendingOf next ↔ ∃ handler, h = some handler ∧ next handler = some time := by
  simp only [pendingOf, List.mem_flatMap, List.mem_map, Option.mem_toList, Prod.mk.injEq]
  constructor
  · rintro ⟨handler, _, _, found, rfl, rfl, _⟩
    exact ⟨handler, rfl, found⟩
  · rintro ⟨handler, rfl, found⟩
    exact ⟨handler, by cases handler <;> decide, time, found, rfl, rfl, trivial⟩

theorem length_pendingOf (next : TimerHandler → Option Nat) : (pendingOf next).length ≤ 3 := by
  have one (handler : TimerHandler) : (next handler).toList.length ≤ 1 := by
    cases next handler with
    | none => exact Nat.zero_le _
    | some time => exact Nat.le_refl _
  have tcp := one .tcpipTcpTimer
  have reass := one .ipReassTimer
  have arp := one .arpTimer
  simp only [pendingOf, List.flatMap_cons, List.flatMap_nil, List.length_append, List.length_map,
    List.length_nil]
  omega

section Waits
variable {timers : Timers TimerHandler Unit} {next : TimerHandler → Option Nat}

theorem Waiting.room (waiting : Waiting timers next) :
    timers.nextTimeout.length < mempNumSysTimeout := by
  have few := length_pendingOf next
  rw [← waiting.pending.length_eq, DeltaList.length_deadlines, length_deltas] at few
  exact Nat.lt_of_le_of_lt few (by decide)

/-- A timer that is not pending starts with its interval. -/
theorem Waiting.sysTimeout (waiting : Waiting timers next) (handler : TimerHandler)
    (idle : next handler = none) :
    Waiting
      { timers with
        nextTimeout := Network.sysTimeout (interval handler) (some handler) () timers.nextTimeout }
      (Function.update next handler (some (timers.clock + (interval handler).toNat))) := by
  have inserted := deltas_sysTimeout waiting.room (interval handler) (some handler) ()
  refine ⟨?_, ?_, ?_⟩
  · have fit := waiting.fit
    have below := (interval handler).toNat_lt
    rw [TimesFit] at fit ⊢
    rw [inserted, DeltaList.total_insert]
    omega
  · have same : Function.update next handler none = next := by
      rw [← idle, Function.update_eq_self]
    rw [inserted, DeltaList.deadlines_insert]
    refine (List.perm_orderedInsert ..).trans (List.Perm.trans ?_ (pendingOf_update ..).symm)
    rw [same]
    exact waiting.pending.cons _
  · intro other time found
    by_cases this : other = handler
    · subst this
      rw [Function.update_self, Option.some_inj] at found
      exact Nat.le_of_eq found.symm
    · rw [Function.update_of_ne this] at found
      exact waiting.within other time found

/-- A turn calls the handler of the earliest timer at its time, or it calls no handler. -/
theorem Waiting.turn {Message : Type} (waiting : Waiting timers next) (start : UInt32)
    (osQPend : UInt16 → Pended (Option (Posted Message))) :
    let result := sysTimeouts.step timers (.turn start osQPend)
    (∃ handler, result.2 = some (.again (some handler) (), result.1.clock) ∧
      next handler = some result.1.clock ∧
      Waiting result.1 (Function.update next handler none)) ∨
    (∃ msg, result.2 = some (.done msg, result.1.clock) ∧ Waiting result.1 next) := by
  intro result
  let pending : Pending (Option TimerHandler × Unit) :=
    ⟨(deltas timers.nextTimeout).deadlines timers.clock, timers.clock⟩
  have before : SameDeadlines timers pending := ⟨waiting.fit, rfl, rfl⟩
  obtain ⟨equal, same⟩ := before.turn start osQPend
  obtain ⟨forward, turned⟩ := pendingTimers_turn pending start osQPend fun timer inside =>
    (DeltaList.deadlines_bounds inside).1
  have clock : result.1.clock = (pendingTimers.step pending (.turn start osQPend)).1.clock :=
    same.clock
  have later : timers.clock ≤ result.1.clock := clock ▸ forward
  have within (handler : TimerHandler) (time : Nat) (found : next handler = some time) :
      time ≤ result.1.clock + (interval handler).toNat :=
    Nat.le_trans (waiting.within handler time found) (Nat.add_le_add_right later _)
  have perm := waiting.pending
  rw [show (deltas timers.nextTimeout).deadlines timers.clock = pending.timers from rfl] at perm
  rcases turned with ⟨h, arg, first, called⟩ | ⟨msg, all, done⟩
  · rw [first, ← clock, ← same.deadlines] at perm
    obtain ⟨handler, rfl, found⟩ := mem_pendingOf.mp (perm.mem_iff.mp (List.mem_cons_self ..))
    refine Or.inl ⟨handler, by rw [equal, called, clock], found, same.fit, ?_, ?_⟩
    · have again := pendingOf_update next handler result.1.clock
      rw [← found, Function.update_eq_self] at again
      exact (perm.trans again).cons_inv
    · intro other time pending
      by_cases this : other = handler
      · rw [this, Function.update_self] at pending
        cases pending
      · rw [Function.update_of_ne this] at pending
        exact within other time pending
  · rw [all, ← same.deadlines] at perm
    exact Or.inr ⟨msg, by rw [equal, done, clock], same.fit, perm, within⟩

end Waits

section Calls
variable {handler : TimerHandler} {called : List (TimerHandler × Nat)} {time : Nat}

/-- A call at the next time goes on to the next multiple. -/
theorem Every.call (every : Every handler called (some time)) :
    Every handler ((handler, time) :: called) (some (time + (interval handler).toNat)) := by
  obtain ⟨count, times, next⟩ := every
  rw [Option.some_inj] at next
  refine ⟨count + 1, ?_, congrArg some (by rw [next, Nat.mul_succ _ (count + 1)])⟩
  simp only [timesOf, decide_true, List.filter_cons_of_pos, List.map_cons] at times ⊢
  rw [times, next, multiples]

/-- A call of another handler changes nothing. -/
theorem Every.frame {next : Option Nat} (every : Every handler called next) (other : TimerHandler)
    (time : Nat) (different : other ≠ handler) : Every handler ((other, time) :: called) next := by
  obtain ⟨count, times, found⟩ := every
  refine ⟨count, ?_, found⟩
  rw [← times, timesOf, List.filter_cons_of_neg (by simpa using different), timesOf]

end Calls

/-- What holds between the events. The flag tells whether the TCP timer is pending. -/
structure Regular (state : TcpipTimers) (next : TimerHandler → Option Nat) : Prop where
  waiting : Waiting state.timers next
  ipReass : Every .ipReassTimer state.called (next .ipReassTimer)
  arp : Every .arpTimer state.called (next .arpTimer)
  active : state.tcpipTcpTimerActive = (next .tcpipTcpTimer).isSome

section Steps
variable {state : TcpipTimers} {next : TimerHandler → Option Nat} {Message : Type}

theorem regular_init : ∃ next, Regular sysTimeoutsInit next := by
  have empty : Waiting ⟨[], 0⟩ fun _ => none :=
    ⟨(by decide : 0 < 4294967296), .refl _, fun _ _ found => nomatch found⟩
  have reass := empty.sysTimeout .ipReassTimer rfl
  have both := reass.sysTimeout .arpTimer rfl
  exact ⟨_, both, ⟨0, rfl, rfl⟩, ⟨0, rfl, rfl⟩, rfl⟩

/-- A registered PCB starts the TCP timer only when it is not pending. -/
theorem Regular.tcpTimerNeeded (regular : Regular state next) (pcbs : Bool) :
    ∃ next, Regular (tcpTimerNeeded pcbs state) next := by
  rw [TcpipTimers.tcpTimerNeeded]
  split
  · rename_i needed
    have inactive := (Bool.and_eq_true_iff.mp needed).1
    rw [regular.active, Bool.not_eq_true', Option.isSome_eq_false_iff, Option.isNone_iff_eq_none]
      at inactive
    exact ⟨_, regular.waiting.sysTimeout .tcpipTcpTimer inactive, regular.ipReass, regular.arp, rfl⟩
  · exact ⟨next, regular⟩

/-- The handler of a called timer keeps the periods. -/
theorem Regular.handle (regular : Regular state next) {handler : TimerHandler}
    {timers : Timers TimerHandler Unit} (due : next handler = some timers.clock)
    (waiting : Waiting timers (Function.update next handler none)) (pcbs : Bool) :
    ∃ next, Regular
      (handle handler pcbs
        { state with timers := timers, called := (handler, timers.clock) :: state.called }) next := by
  have again := waiting.sysTimeout handler (Function.update_self ..)
  rw [Function.update_idem] at again
  cases handler with
  | tcpipTcpTimer =>
      have reass := regular.ipReass.frame .tcpipTcpTimer timers.clock (by decide)
      have arp := regular.arp.frame .tcpipTcpTimer timers.clock (by decide)
      rw [TcpipTimers.handle]
      cases pcbs with
      | true =>
          have active := regular.active
          rw [due] at active
          exact ⟨_, again, reass, arp, active⟩
      | false => exact ⟨_, waiting, reass, arp, rfl⟩
  | ipReassTimer =>
      have called := regular.ipReass
      rw [due] at called
      exact ⟨_, again, called.call, regular.arp.frame _ _ (by decide), regular.active⟩
  | arpTimer =>
      have called := regular.arp
      rw [due] at called
      exact ⟨_, again, regular.ipReass.frame _ _ (by decide), called.call, regular.active⟩

theorem Regular.step (regular : Regular state next) (event : Event Message) :
    ∃ next, Regular (step state event) next := by
  cases event with
  | tcpTimerNeeded pcbs => exact regular.tcpTimerNeeded pcbs
  | turn start osQPend pcbs =>
      rw [TcpipTimers.step]
      rcases regular.waiting.turn start osQPend with ⟨handler, called, due, waiting⟩ |
        ⟨msg, done, waiting⟩
      · simp only [called]
        exact regular.handle due waiting pcbs
      · simp only [done]
        exact ⟨next, waiting, regular.ipReass, regular.arp, regular.active⟩

/-- All events keep the periods. -/
theorem regular_run (events : List (Event Message)) : ∃ next, Regular (run events) next :=
  List.foldlRecOn (motive := fun state => ∃ next, Regular state next) events TcpipTimers.step
    regular_init fun _ ⟨_, regular⟩ event _ => regular.step event

/-- A handler was called at all multiples of its interval up to the clock. -/
theorem Waiting.calls {timers : Timers TimerHandler Unit} {handler : TimerHandler}
    {called : List (TimerHandler × Nat)} (waiting : Waiting timers next)
    (every : Every handler called (next handler)) :
    ∃ count, timesOf handler called = multiples (interval handler).toNat count ∧
      (interval handler).toNat * count ≤ timers.clock ∧
      timers.clock ≤ (interval handler).toNat * (count + 1) := by
  obtain ⟨count, times, found⟩ := every
  have near := waiting.within handler _ found
  have pending := waiting.pending.mem_iff.mpr (mem_pendingOf.mpr ⟨handler, rfl, found⟩)
  rw [Nat.mul_succ] at near
  exact ⟨count, times, Nat.le_of_add_le_add_right near, (DeltaList.deadlines_bounds pending).1⟩

/-- Exactly the handlers with a next time are pending. -/
theorem Waiting.handlers (waiting : Waiting state.timers next) :
    state.handlers.Perm ((pendingOf next).map fun timer => timer.2.1) := by
  have names (clock : Nat) (list : List (SysTimeo TimerHandler Unit)) :
      ((deltas list).deadlines clock).map (fun timer => timer.2.1) = list.map SysTimeo.h := by
    induction list generalizing clock with
    | nil => rfl
    | cons t rest ih => exact congrArg _ (ih _)
  have perm := waiting.pending.map fun timer => timer.2.1
  rw [names] at perm
  exact perm

end Steps

/-- In each run the reassembly timer and the ARP timer are called at each multiple of their intervals
up to the clock. Both are always pending once, and the TCP timer is pending once while its flag is
set. No timer waits for longer than its interval. -/
theorem called_in_periods {Message : Type} (events : List (Event Message)) :
    let state := run events
    (∃ count, timesOf .ipReassTimer state.called = multiples 1000 count ∧
      1000 * count ≤ state.timers.clock ∧ state.timers.clock ≤ 1000 * (count + 1)) ∧
    (∃ count, timesOf .arpTimer state.called = multiples 5000 count ∧
      5000 * count ≤ state.timers.clock ∧ state.timers.clock ≤ 5000 * (count + 1)) ∧
    state.handlers.Perm ((if state.tcpipTcpTimerActive then [some .tcpipTcpTimer] else []) ++
      [some .ipReassTimer, some .arpTimer]) ∧
    ∀ time handler, (time, some handler, ()) ∈
        (deltas state.timers.nextTimeout).deadlines state.timers.clock →
      time ≤ state.timers.clock + (interval handler).toNat := by
  intro state
  obtain ⟨next, regular⟩ := regular_run events
  refine ⟨regular.waiting.calls regular.ipReass, regular.waiting.calls regular.arp, ?_, ?_⟩
  · have perm := regular.waiting.handlers
    have active := regular.active
    obtain ⟨_, _, reass⟩ := regular.ipReass
    obtain ⟨_, _, arp⟩ := regular.arp
    simp only [pendingOf, List.flatMap_cons, List.flatMap_nil, reass, arp] at perm
    rw [active]
    cases found : next .tcpipTcpTimer with
    | none =>
        rw [found] at perm
        exact perm
    | some time =>
        rw [found] at perm
        exact perm
  · intro time handler inside
    obtain ⟨other, same, found⟩ := mem_pendingOf.mp (regular.waiting.pending.mem_iff.mp inside)
    cases same
    exact regular.waiting.within handler time found

end TcpipTimers

end NnpCamera.Network
