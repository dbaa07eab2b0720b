/-
This file shows that a delay and the timeout of a pend end with the tick for which they were set.
-/

import Mathlib.Data.Option.Defs
import NnpCamera.Library.History
import NnpCamera.Scheduler.Priority

namespace NnpCamera.Scheduler
open Library
open Mailbox (osErrNone)

namespace OsTcb
variable {Message : Type}

/-- The tick counter goes from `osTime` to the due time of a delayed task. A running `OSTimeTick` that
has not reached the task yet is one tick ahead of it. A timeout and the end of a delay come at the due
time or after it. -/
structure Timely (tcb : OsTcb Message) (osTime : Nat) (due : Option Nat) (ahead : Nat) : Prop where
  delayed : tcb.osTCBDly ≠ 0 → ∃ time, due = some time ∧ osTime + tcb.osTCBDly = time + ahead
  late : tcb.osTCBStatPend = .pendTo → ∃ time, due = some time ∧ time ≤ osTime
  slept : tcb.place = .timeDly → tcb.osTCBDly = 0 → ∃ time, due = some time ∧ time ≤ osTime

/-- A task keeps its delay, or its wait ends without a timeout. -/
structure Steady (before after : OsTcb Message) : Prop where
  dly : after.osTCBDly = 0 ∨ after.osTCBDly = before.osTCBDly
  late : after.osTCBStatPend = .pendTo → before.osTCBStatPend = .pendTo
  slept : after.place = .timeDly → before.place = .timeDly ∧ after.osTCBDly = before.osTCBDly

variable {tcb next last : OsTcb Message} {osTime ahead : Nat} {due : Option Nat}

theorem Steady.refl (tcb : OsTcb Message) : tcb.Steady tcb := ⟨.inr rfl, id, fun slept => ⟨slept, rfl⟩⟩

theorem Steady.trans (first : tcb.Steady next) (second : next.Steady last) : tcb.Steady last where
  dly := by
    obtain zero | same := second.dly
    · exact .inl zero
    · exact same ▸ first.dly
  late := fun late => first.late (second.late late)
  slept := by
    intro placed
    obtain ⟨middle, same⟩ := second.slept placed
    obtain ⟨before, first⟩ := first.slept middle
    exact ⟨before, same.trans first⟩

theorem Timely.steady (timely : tcb.Timely osTime due ahead) (steady : tcb.Steady next) :
    next.Timely osTime due ahead where
  delayed := by
    intro delayed
    have same := steady.dly.resolve_left delayed
    rw [same] at delayed ⊢
    exact timely.delayed delayed
  late := fun late => timely.late (steady.late late)
  slept := by
    intro placed ended
    obtain ⟨before, same⟩ := steady.slept placed
    exact timely.slept before (same.symm.trans ended)

/-- A delay that ends at its due time leaves a task on time. -/
theorem timely_endDly [Inhabited Message] (tcb : OsTcb Message) {time : Nat} (passed : time ≤ osTime) :
    (Kernel.endDlyTcb tcb).Timely osTime (some time) ahead := by
  have zero : (Kernel.endDlyTcb tcb).osTCBDly = 0 := by
    unfold Kernel.endDlyTcb
    split <;> rfl
  exact ⟨fun delayed => absurd zero delayed, fun _ => ⟨time, rfl, passed⟩,
    fun _ _ => ⟨time, rfl, passed⟩⟩

end OsTcb

/-- The history of the due times. -/
abbrev DueTimes : Type := Prio → Option Nat

namespace Service
variable {Message : Type}

/-- The ticks after which a blocked task shall run again. A pend with timeout zero has no limit. -/
def limit : Service Message → Option Nat
  | .timeDly ticks => some ticks
  | .semPend _ timeout | .qPend _ timeout => if timeout = 0 then none else some timeout
  | _ => none

/-- The task whose delay ends early. -/
def resumed : Service Message → Option Prio
  | .timeDlyResume prio => some prio
  | _ => none

end Service

namespace DueTimes
variable {Message : Type} (due : DueTimes)

/-- A blocked task gets a due time. A resumed delay is due at once. -/
def serve (kernel : Kernel Message) (service : Service Message) : Answer Message → DueTimes
  | .blocks => Function.update due kernel.osPrioCur (service.limit.map (kernel.osTime + ·))
  | .err perr =>
      match service.resumed with
      | none => due
      | some prio => if perr = osErrNone then Function.update due prio (some kernel.osTime) else due
  | _ => due

end DueTimes

namespace Kernel
variable {Message : Type} [Inhabited Message] {kernel after middle : Kernel Message} {due : DueTimes}

/-- The history follows the answers of the services. -/
def setDue (kernel : Kernel Message) (action : Action Message) (due : DueTimes) : DueTimes :=
  match action, kernel.act action with
  | .call service, some (answer, _) => due.serve kernel service answer
  | _, _ => due

/-- The tasks that `OSTimeTick` goes through. -/
def ticked (kernel : Kernel Message) : List Prio :=
  kernel.osTCBList.takeWhile (· ≠ osTaskIdlePrio)

/-- One tick separates a task from a running `OSTimeTick` that has not reached it. -/
def ahead (kernel : Kernel Message) (prio : Prio) : Nat := if prio ∈ kernel.tickRest then 1 else 0

/-- The list has each task once, and the idle task is its last one. -/
structure Listed (kernel : Kernel Message) : Prop where
  mem : ∀ prio, prio ∈ kernel.ticked ↔ prio ≠ osTaskIdlePrio ∧ kernel.osTCBPrioTbl prio ≠ none
  nodup : kernel.ticked.Nodup

/-- All tasks are on time. `OSTimeTick` runs in a handler and reaches each task once. -/
structure Timed (kernel : Kernel Message) (due : DueTimes) : Prop where
  listed : kernel.Listed
  inside : kernel.tickRest ≠ [] → 0 < kernel.osIntNesting
  rest : kernel.tickRest.Nodup
  timely : ∀ prio tcb, kernel.osTCBPrioTbl prio = some tcb →
    tcb.Timely kernel.osTime (due prio) (kernel.ahead prio)

/-- A step counts no tick and blocks no task. -/
structure Steady (before after : Kernel Message) : Prop where
  time : after.osTime = before.osTime
  list : after.osTCBList = before.osTCBList
  rest : after.tickRest = before.tickRest
  nesting : after.osIntNesting = before.osIntNesting
  absent : ∀ prio, after.osTCBPrioTbl prio = none ↔ before.osTCBPrioTbl prio = none
  tasks : ∀ prio next, after.osTCBPrioTbl prio = some next →
    ∃ tcb, before.osTCBPrioTbl prio = some tcb ∧ tcb.Steady next

omit [Inhabited Message] in
/-- A step that leaves the tasks alone. -/
theorem Steady.same (time : after.osTime = kernel.osTime) (list : after.osTCBList = kernel.osTCBList)
    (rest : after.tickRest = kernel.tickRest) (nesting : after.osIntNesting = kernel.osIntNesting)
    (tasks : after.osTCBPrioTbl = kernel.osTCBPrioTbl) : kernel.Steady after := by
  refine ⟨time, list, rest, nesting, fun prio => by rw [tasks], ?_⟩
  intro prio next held
  exact ⟨next, tasks ▸ held, .refl next⟩

omit [Inhabited Message] in
theorem Steady.refl (kernel : Kernel Message) : kernel.Steady kernel := .same rfl rfl rfl rfl rfl

omit [Inhabited Message] in
theorem Steady.trans (first : kernel.Steady middle) (second : middle.Steady after) :
    kernel.Steady after where
  time := second.time.trans first.time
  list := second.list.trans first.list
  rest := second.rest.trans first.rest
  nesting := second.nesting.trans first.nesting
  absent := fun prio => (second.absent prio).trans (first.absent prio)
  tasks := by
    intro prio last held
    obtain ⟨next, between, later⟩ := second.tasks prio last held
    obtain ⟨tcb, before, earlier⟩ := first.tasks prio next between
    exact ⟨tcb, before, earlier.trans later⟩

omit [Inhabited Message] in
theorem Steady.callSched (steady : kernel.Steady after) : kernel.Steady after.callSched := by
  unfold Kernel.callSched
  split
  next => exact steady.trans (.same rfl rfl rfl rfl rfl)
  next => exact steady

omit [Inhabited Message] in
/-- A change of one control block. -/
theorem steady_setTcb {prio : Prio} {tcb next : OsTcb Message} (rdy : PrioMap)
    (pool : Pool (OsEvent Message)) (held : kernel.osTCBPrioTbl prio = some tcb)
    (steady : tcb.Steady next) :
    kernel.Steady { kernel.setTcb prio next with osRdy := rdy, osEventTbl := pool } := by
  refine ⟨rfl, rfl, rfl, rfl, fun other => ?_, fun other last found => ?_⟩
  · by_cases here : other = prio
    · subst here
      simp [setTcb, held]
    · simp [setTcb, here]
  · by_cases here : other = prio
    · subst here
      simp only [setTcb, Function.update_self, Option.some.injEq] at found
      exact ⟨tcb, held, found ▸ steady⟩
    · simp only [setTcb, Function.update_of_ne here] at found
      exact ⟨last, found, .refl last⟩

/-- The readied task was inside a pend, and it has no timeout. -/
theorem Agrees.steady_osEventTaskRdy (agrees : kernel.Agrees) {pevent : Nat}
    {event : OsEvent Message} (found : kernel.osEventTbl.contents pevent = some event)
    (filled : event.osEventTbl.grp ≠ 0) (pmsg : Message) {pendStat : PendStatus}
    (status : pendStat ≠ .pendTo) :
    kernel.Steady (kernel.osEventTaskRdy pevent event pmsg event.body.type pendStat) := by
  obtain ⟨ptcb, held, waits⟩ := agrees.waiter found filled
  rw [osEventTaskRdy_eq held]
  apply steady_setTcb _ _ held
  refine ⟨.inl rfl, fun late => absurd late status, fun placed => ?_⟩
  rw [osEventTaskRdyTcb, waits.1] at placed
  contradiction

theorem Agrees.steady_rdyAll (agrees : kernel.Agrees) {pevent : Nat} {event : OsEvent Message}
    (found : kernel.osEventTbl.contents pevent = some event) (pmsg : Message) :
    kernel.Steady (osEventTaskRdyAll pevent pmsg event.body.type .pendAbort 64 kernel) := by
  apply agrees.rdyAll_invariant found pmsg 64 kernel.Steady (.refl kernel)
  intro _ _ agrees found filled before
  exact before.trans (agrees.steady_osEventTaskRdy found filled pmsg (by simp))

omit [Inhabited Message] in
/-- A step that counts no tick and blocks no task keeps the tasks on time. -/
theorem Timed.steady (timed : kernel.Timed due) (steady : kernel.Steady after) : after.Timed due where
  listed := by
    have same : after.ticked = kernel.ticked := by rw [ticked, steady.list, ticked]
    refine ⟨fun prio => ?_, same ▸ timed.listed.nodup⟩
    rw [same, timed.listed.mem, ne_eq (after.osTCBPrioTbl prio), steady.absent]
  inside := by
    rw [steady.rest, steady.nesting]
    exact timed.inside
  rest := steady.rest ▸ timed.rest
  timely := by
    intro prio next held
    obtain ⟨tcb, before, kept⟩ := steady.tasks prio next held
    have same : after.ahead prio = kernel.ahead prio := by rw [ahead, steady.rest, ahead]
    rw [steady.time, same]
    exact (timed.timely prio tcb before).steady kept

omit [Inhabited Message] in
/-- One task gets a new control block and a new due time. -/
theorem Timed.setTcb (timed : kernel.Timed due) {prio : Prio} {tcb : OsTcb Message}
    {limit : Option Nat} (rdy : PrioMap) (pool : Pool (OsEvent Message))
    (held : kernel.osTCBPrioTbl prio ≠ none)
    (timely : tcb.Timely kernel.osTime limit (kernel.ahead prio)) :
    Timed { kernel.setTcb prio tcb with osRdy := rdy, osEventTbl := pool }
      (Function.update due prio limit) where
  listed := by
    refine ⟨fun other => ?_, timed.listed.nodup⟩
    apply (timed.listed.mem other).trans
    by_cases here : other = prio
    · subst here
      simp [Kernel.setTcb, held]
    · simp [Kernel.setTcb, here]
  inside := timed.inside
  rest := timed.rest
  timely := by
    intro other record found
    by_cases here : other = prio
    · subst here
      simp only [Kernel.setTcb, Function.update_self, Option.some.injEq] at found ⊢
      exact found ▸ timely
    · simp only [Kernel.setTcb, Function.update_of_ne here] at found ⊢
      exact timed.timely other record found

omit [Inhabited Message] in
/-- No handler runs, so no task is behind the tick. -/
theorem Timed.ahead_eq_zero (timed : kernel.Timed due) (atTask : kernel.AtTask) (prio : Prio) :
    kernel.ahead prio = 0 := by
  have idle : kernel.tickRest = [] := by
    by_contra running
    exact Nat.ne_of_gt (timed.inside running) atTask.1
  simp [ahead, idle]

theorem Timed.timeDly (timed : kernel.Timed due) (inv : kernel.Inv) (enters : kernel.Enters)
    (ticks : Nat) :
    Timed (kernel.osTimeDly ticks).2
      (due.serve kernel (.timeDly ticks) (kernel.osTimeDly ticks).1) := by
  unfold osTimeDly
  split
  next => exact timed
  next outside =>
    have atApp := enters.resolve_left outside
    split
    next => exact timed
    next =>
      split
      next positive =>
        cases held : kernel.osTCBPrioTbl kernel.osPrioCur with
        | none => exact timed
        | some tcb =>
            have before := (inv.agrees.agrees _ tcb held).wellFormed
            refine Timed.steady ?_ (Steady.callSched (.refl _))
            apply timed.setTcb _ kernel.osEventTbl (by simp [held])
            refine ⟨fun _ => ⟨_, rfl, ?_⟩, fun late => ?_, fun _ ended => ?_⟩
            · rw [timed.ahead_eq_zero atApp.1, Nat.add_zero]
            · obtain ⟨_, _, _, placed⟩ := before.timeout late
              rw [atApp.place held] at placed
              contradiction
            · exact absurd ended (Nat.ne_of_gt positive)
      next => exact timed

theorem Timed.timeDlyResume (timed : kernel.Timed due) (prio : Prio) :
    Timed (kernel.osTimeDlyResume prio).2
      (due.serve kernel (.timeDlyResume prio) (kernel.osTimeDlyResume prio).1) := by
  unfold osTimeDlyResume
  split
  next => exact timed
  next =>
    cases held : kernel.osTCBPrioTbl prio with
    | none => exact timed
    | some ptcb =>
        by_cases delayed : ptcb.osTCBDly = 0
        · simp only [delayed, if_true]
          exact timed
        · simp only [delayed, if_false]
          have ended : Timed (kernel.endDly prio ptcb)
              (Function.update due prio (some kernel.osTime)) :=
            timed.setTcb _ kernel.osEventTbl (by simp [held])
              (OsTcb.timely_endDly ptcb (Nat.le_refl kernel.osTime))
          split
          next => exact ended
          next => exact ended.steady (Steady.callSched (.refl _))

omit [Inhabited Message] in
/-- A service that blocks no task and ends no delay leaves the due times alone. -/
theorem serve_due {service : Service Message} (resumes : service.resumed = none)
    {answer : Answer Message} (runs : answer ≠ .blocks) : due.serve kernel service answer = due := by
  cases answer with
  | err perr => simp [DueTimes.serve, resumes]
  | created pevent => rfl
  | item pmsg => rfl
  | blocks => exact absurd rfl runs

omit [Inhabited Message] in
theorem Timed.served (timed : kernel.Timed due) {service : Service Message}
    (resumes : service.resumed = none) {result : Answer Message × Kernel Message}
    (runs : result.1 ≠ .blocks) (steady : kernel.Steady result.2) :
    Timed result.2 (due.serve kernel service result.1) := by
  rw [serve_due resumes runs]
  exact timed.steady steady

theorem Agrees.steady_eventCreate (agrees : kernel.Agrees) {body : OsEventBody Message}
    {pevent : Nat} (created : kernel.eventCreate body = some (pevent, after)) :
    kernel.Steady after := by
  obtain ⟨_, _, same, _⟩ := agrees.eventCreate created
  rw [same]
  exact .same rfl rfl rfl rfl rfl

theorem Timed.semCreate (timed : kernel.Timed due) (agrees : kernel.Agrees) (cnt : Nat) :
    Timed (kernel.osSemCreate cnt).2
      (due.serve kernel (.semCreate cnt) (kernel.osSemCreate cnt).1) := by
  unfold osSemCreate
  split
  next => exact timed
  next =>
    cases created : kernel.eventCreate (.sem cnt) with
    | none => exact timed
    | some result => exact timed.steady (agrees.steady_eventCreate created)

theorem Timed.qCreate (timed : kernel.Timed due) (agrees : kernel.Agrees)
    (start : Nat → Message) (size : Nat) :
    Timed (kernel.osQCreate start size).2
      (due.serve kernel (.qCreate start size) (kernel.osQCreate start size).1) := by
  unfold osQCreate
  split
  next => exact timed
  next =>
    cases created : kernel.eventCreate (.q (.create size start)) with
    | none => exact timed
    | some result =>
        dsimp only
        split
        next => exact timed
        next =>
          have steady := agrees.steady_eventCreate created
          exact timed.steady (steady.trans (.same rfl rfl rfl rfl rfl))

/-- A pend blocks its task until the timeout. -/
theorem Timed.pend (timed : kernel.Timed due) (enters : kernel.Enters) {type : OsEventType}
    {pevent timeout : Nat} {service : Service Message} (resumes : service.resumed = none)
    (limit : service.limit = if timeout = 0 then none else some timeout) :
    Timed (kernel.eventPend type pevent timeout).2
      (due.serve kernel service (kernel.eventPend type pevent timeout).1) := by
  have failed (perr : UInt8) : due.serve kernel service (.err perr) = due :=
    serve_due resumes (by simp)
  unfold eventPend
  cases kernel.eventOf pevent type with
  | none => exact (failed _).symm ▸ timed
  | some event =>
      dsimp only
      split
      next => exact (failed _).symm ▸ timed
      next outside =>
        have atApp := enters.resolve_left outside
        split
        next => exact (failed _).symm ▸ timed
        next =>
          cases event.body.take with
          | some result => exact timed.steady (.same rfl rfl rfl rfl rfl)
          | none =>
              cases held : kernel.osTCBPrioTbl kernel.osPrioCur with
              | none => exact (failed _).symm ▸ timed
              | some tcb =>
                  refine Timed.steady ?_ (Steady.callSched (.refl _))
                  apply timed.setTcb _ _ (by simp [held])
                  refine ⟨fun delayed => ?_, fun late => by contradiction, fun placed => by contradiction⟩
                  rw [timed.ahead_eq_zero atApp.1, limit, if_neg delayed]
                  exact ⟨_, rfl, rfl⟩

theorem steady_accept (kernel : Kernel Message) (type : OsEventType) (empty : UInt8)
    (pevent : Nat) : (kernel.eventAccept type empty pevent).1 ≠ .blocks ∧
      kernel.Steady (kernel.eventAccept type empty pevent).2 := by
  unfold eventAccept
  cases kernel.eventOf pevent type with
  | none => exact ⟨by simp, .refl kernel⟩
  | some event =>
      dsimp only
      cases event.body.take with
      | some result => exact ⟨by simp, .same rfl rfl rfl rfl rfl⟩
      | none => exact ⟨by simp, .refl kernel⟩

theorem Agrees.steady_post (agrees : kernel.Agrees) (type : OsEventType) (full : UInt8)
    (pevent : Nat) (pmsg : Message) : (kernel.eventPost type full pevent pmsg).1 ≠ .blocks ∧
      kernel.Steady (kernel.eventPost type full pevent pmsg).2 := by
  unfold eventPost
  cases found : kernel.eventOf pevent type with
  | none => exact ⟨by simp, .refl kernel⟩
  | some event =>
      obtain ⟨held, rfl⟩ := eventOf_eq_some found
      dsimp only
      split
      next filled =>
        have steady := agrees.steady_osEventTaskRdy held filled pmsg
          (by simp : PendStatus.pendOk ≠ .pendTo)
        exact ⟨by simp, steady.callSched⟩
      next =>
        cases event.body.put pmsg with
        | none => exact ⟨by simp, .refl kernel⟩
        | some body => exact ⟨by simp, .same rfl rfl rfl rfl rfl⟩

theorem Agrees.steady_pendAbort (agrees : kernel.Agrees) (type : OsEventType) (pevent : Nat)
    (broadcast : Bool) : (kernel.eventPendAbort type pevent broadcast).1 ≠ .blocks ∧
      kernel.Steady (kernel.eventPendAbort type pevent broadcast).2 := by
  unfold eventPendAbort
  cases found : kernel.eventOf pevent type with
  | none => exact ⟨by simp, .refl kernel⟩
  | some event =>
      obtain ⟨held, rfl⟩ := eventOf_eq_some found
      dsimp only
      split
      next filled =>
        cases broadcast with
        | true => exact ⟨by simp, (agrees.steady_rdyAll held default).callSched⟩
        | false =>
            have steady := agrees.steady_osEventTaskRdy held filled default
              (by simp : PendStatus.pendAbort ≠ .pendTo)
            exact ⟨by simp, steady.callSched⟩
      next => exact ⟨by simp, .refl kernel⟩

omit [Inhabited Message] in
theorem steady_eventFree (kernel : Kernel Message) (type : OsEventType) (pevent : Nat) :
    kernel.Steady (kernel.eventFree type pevent) := .same rfl rfl rfl rfl rfl

theorem Agrees.steady_del (agrees : kernel.Agrees) (type : OsEventType) (pevent : Nat)
    (opt : DelOpt) : (kernel.eventDel type pevent opt).1 ≠ .blocks ∧
      kernel.Steady (kernel.eventDel type pevent opt).2 := by
  unfold eventDel
  cases found : kernel.eventOf pevent type with
  | none => exact ⟨by simp, .refl kernel⟩
  | some event =>
      obtain ⟨held, rfl⟩ := eventOf_eq_some found
      dsimp only
      split
      next => exact ⟨by simp, .refl kernel⟩
      next =>
        cases opt with
        | noPend =>
            dsimp only
            split
            next => exact ⟨by simp, .same rfl rfl rfl rfl rfl⟩
            next => exact ⟨by simp, .refl kernel⟩
        | always =>
            dsimp only
            have steady := (agrees.steady_rdyAll held default).trans
              (steady_eventFree _ event.body.type pevent)
            split
            next => exact ⟨by simp, steady.callSched⟩
            next => exact ⟨by simp, steady⟩
        | other => exact ⟨by simp, .refl kernel⟩

/-- A new task comes to the front of the list. -/
theorem Listed.osTCBInit (listed : kernel.Listed) {prio : Prio} (busy : prio ≠ osTaskIdlePrio)
    (absent : kernel.osTCBPrioTbl prio = none) : (kernel.osTCBInit prio).Listed := by
  have front : (kernel.osTCBInit prio).ticked = prio :: kernel.ticked := by
    simp [ticked, Kernel.osTCBInit, busy]
  refine ⟨fun other => ?_, ?_⟩
  · rw [front, List.mem_cons, listed.mem]
    by_cases here : other = prio
    · subst here
      simp [Kernel.osTCBInit, setTcb, busy]
    · simp [Kernel.osTCBInit, setTcb, here]
  · rw [front, List.nodup_cons, listed.mem]
    exact ⟨fun both => both.2 absent, listed.nodup⟩

theorem Timed.taskCreate (timed : kernel.Timed due) (agrees : kernel.Agrees) (prio : Prio) :
    Timed (kernel.osTaskCreate prio).2
      (due.serve kernel (.taskCreate prio) (kernel.osTaskCreate prio).1) := by
  unfold osTaskCreate
  split
  next => exact timed
  next =>
    cases absent : kernel.osTCBPrioTbl prio with
    | some _ => exact timed
    | none =>
        have busy : prio ≠ osTaskIdlePrio := by
          rintro rfl
          obtain ⟨idle, held, _⟩ := agrees.idle
          simp [absent] at held
        have made : Timed (kernel.osTCBInit prio) due := by
          refine ⟨timed.listed.osTCBInit busy absent, timed.inside, timed.rest, ?_⟩
          intro other tcb held
          by_cases here : other = prio
          · subst here
            simp only [osTCBInit, Kernel.setTcb, Function.update_self, Option.some.injEq] at held
            subst held
            exact ⟨fun delayed => by contradiction, fun late => by contradiction,
              fun placed => by contradiction⟩
          · simp only [osTCBInit, Kernel.setTcb, Function.update_of_ne here] at held
            exact timed.timely other tcb held
        dsimp only
        split
        next => exact timed
        next =>
          split
          next => exact made.steady (Steady.callSched (.refl _))
          next => exact made

omit [Inhabited Message] in
theorem steady_suspend (kernel : Kernel Message) (prio : Prio) :
    (kernel.osTaskSuspend prio).1 ≠ .blocks ∧ kernel.Steady (kernel.osTaskSuspend prio).2 := by
  unfold osTaskSuspend
  cases held : kernel.osTCBPrioTbl prio with
  | none => exact ⟨by simp, .refl kernel⟩
  | some ptcb =>
      have steady : kernel.Steady { kernel.setTcb prio
          { ptcb with osTCBStat := { ptcb.osTCBStat with suspend := true } } with
            osRdy := kernel.osRdy.clear prio } :=
        steady_setTcb _ kernel.osEventTbl held ⟨.inr rfl, id, fun placed => ⟨placed, rfl⟩⟩
      dsimp only
      split
      next => exact ⟨by simp, steady.callSched⟩
      next => exact ⟨by simp, steady⟩

omit [Inhabited Message] in
theorem steady_resume (kernel : Kernel Message) (prio : Prio) :
    (kernel.osTaskResume prio).1 ≠ .blocks ∧ kernel.Steady (kernel.osTaskResume prio).2 := by
  unfold osTaskResume
  cases held : kernel.osTCBPrioTbl prio with
  | none => exact ⟨by simp, .refl kernel⟩
  | some ptcb =>
      have steady (rdy : PrioMap) : kernel.Steady { kernel.setTcb prio
          { ptcb with osTCBStat := { ptcb.osTCBStat with suspend := false } } with
            osRdy := rdy } :=
        steady_setTcb _ kernel.osEventTbl held ⟨.inr rfl, id, fun placed => ⟨placed, rfl⟩⟩
      dsimp only
      split
      next =>
        split
        next => exact ⟨by simp, (steady _).callSched⟩
        next => exact ⟨by simp, steady kernel.osRdy⟩
      next => exact ⟨by simp, .refl kernel⟩

omit [Inhabited Message] in
theorem steady_lock (kernel : Kernel Message) :
    kernel.osSchedLock.1 ≠ .blocks ∧ kernel.Steady kernel.osSchedLock.2 := by
  unfold osSchedLock
  split
  next => exact ⟨by simp, .same rfl rfl rfl rfl rfl⟩
  next => exact ⟨by simp, .refl kernel⟩

omit [Inhabited Message] in
theorem steady_unlock (kernel : Kernel Message) :
    kernel.osSchedUnlock.1 ≠ .blocks ∧ kernel.Steady kernel.osSchedUnlock.2 := by
  have steady : kernel.Steady { kernel with osLockNesting := kernel.osLockNesting - 1 } :=
    .same rfl rfl rfl rfl rfl
  unfold osSchedUnlock
  split
  next =>
    dsimp only
    split
    next => exact ⟨by simp, steady.callSched⟩
    next => exact ⟨by simp, steady⟩
  next => exact ⟨by simp, .refl kernel⟩

/-- Each service keeps the tasks on time. -/
theorem Timed.serve (timed : kernel.Timed due) (inv : kernel.Inv) (enters : kernel.Enters)
    (service : Service Message) :
    Timed (kernel.serve service).2 (due.serve kernel service (kernel.serve service).1) := by
  have other (resumes : service.resumed = none)
      (steady : (kernel.serve service).1 ≠ .blocks ∧ kernel.Steady (kernel.serve service).2) :=
    timed.served resumes steady.1 steady.2
  cases service with
  | timeDly ticks => exact timed.timeDly inv enters ticks
  | timeDlyResume prio => exact timed.timeDlyResume prio
  | semCreate cnt => exact timed.semCreate inv.agrees cnt
  | semPend pevent timeout => exact timed.pend enters rfl rfl
  | semAccept pevent => exact other rfl (kernel.steady_accept .sem 0 pevent)
  | semPost pevent => exact other rfl (inv.agrees.steady_post .sem osErrSemOvf pevent default)
  | semPendAbort pevent broadcast =>
      exact other rfl (inv.agrees.steady_pendAbort .sem pevent broadcast)
  | semDel pevent opt => exact other rfl (inv.agrees.steady_del .sem pevent opt)
  | qCreate start size => exact timed.qCreate inv.agrees start size
  | qPend pevent timeout => exact timed.pend enters rfl rfl
  | qAccept pevent => exact other rfl (kernel.steady_accept .q osErrQEmpty pevent)
  | qPost pevent pmsg =>
      exact other rfl (inv.agrees.steady_post .q Mailbox.osErrQFull pevent pmsg)
  | qPendAbort pevent broadcast =>
      exact other rfl (inv.agrees.steady_pendAbort .q pevent broadcast)
  | qDel pevent opt => exact other rfl (inv.agrees.steady_del .q pevent opt)
  | taskCreate prio => exact timed.taskCreate inv.agrees prio
  | taskSuspend prio => exact other rfl (kernel.steady_suspend prio)
  | taskResume prio => exact other rfl (kernel.steady_resume prio)
  | schedLock => exact other rfl kernel.steady_lock
  | schedUnlock => exact other rfl kernel.steady_unlock

omit [Inhabited Message] in
/-- The scheduler counts no tick. -/
theorem Steady.switch (steady : kernel.Steady middle) : kernel.Steady middle.osSchedNew.switch := by
  apply steady.trans
  unfold Kernel.switch
  split <;> exact .same rfl rfl rfl rfl rfl

omit [Inhabited Message] in
theorem steady_osEventTaskRemove (kernel : Kernel Message) (prio : Prio) (pevent : Nat) :
    kernel.Steady (kernel.osEventTaskRemove prio pevent) := by
  unfold osEventTaskRemove
  split
  next => exact .refl kernel
  next => exact .same rfl rfl rfl rfl rfl

/-- A task that leaves a delay or a pend keeps its count. -/
theorem steady_leave {tcb : OsTcb Message}
    (held : kernel.osTCBPrioTbl kernel.osPrioCur = some tcb) {answer : Answer Message}
    (left : kernel.leave tcb = some (answer, after)) : kernel.Steady after := by
  have kept (stat : OsStat) (msg : Message) (status : PendStatus)
      (onTime : status = .pendTo → tcb.osTCBStatPend = .pendTo) :
      kernel.Steady (kernel.setTcb kernel.osPrioCur { tcb with
        osTCBStat := stat, osTCBStatPend := status, osTCBMsg := msg, place := .app }) :=
    steady_setTcb kernel.osRdy kernel.osEventTbl held
      ⟨.inr rfl, onTime, fun placed => by contradiction⟩
  cases placed : tcb.place with
  | app => simp [Kernel.leave, placed] at left
  | timeDly =>
      simp only [Kernel.leave, placed, Option.some.injEq, Prod.mk.injEq] at left
      obtain ⟨_, rfl⟩ := left
      exact kept _ _ _ id
  | pend type pevent =>
      simp only [Kernel.leave, placed, endPend, Option.some.injEq] at left
      cases status : tcb.osTCBStatPend with
      | pendOk =>
          simp only [status, Prod.mk.injEq] at left
          obtain ⟨_, rfl⟩ := left
          exact kept _ _ _ (by simp)
      | pendAbort =>
          simp only [status, Prod.mk.injEq] at left
          obtain ⟨_, rfl⟩ := left
          exact kept _ _ _ (by simp)
      | pendTo =>
          simp only [status, Prod.mk.injEq] at left
          obtain ⟨_, rfl⟩ := left
          exact (kept _ _ _ (by simp)).trans (steady_osEventTaskRemove _ _ _)

omit [Inhabited Message] in
/-- A tick comes one ahead of each delayed task. -/
theorem Timed.timeTick (timed : kernel.Timed due) (idle : kernel.tickRest = [])
    (inside : 0 < kernel.osIntNesting)
    (sleepless : ∀ tcb, kernel.osTCBPrioTbl osTaskIdlePrio = some tcb → tcb.osTCBDly = 0) :
    Timed { kernel with osTime := kernel.osTime + 1, tickRest := kernel.ticked } due := by
  refine ⟨⟨timed.listed.mem, timed.listed.nodup⟩, fun _ => inside, timed.listed.nodup, ?_⟩
  intro prio tcb held
  dsimp only at held
  obtain ⟨delayed, late, slept⟩ := timed.timely prio tcb held
  refine ⟨fun busy => ?_, fun expired => ?_, fun placed ended => ?_⟩
  · obtain ⟨time, same, left⟩ := delayed busy
    have awake : prio ≠ osTaskIdlePrio := by
      rintro rfl
      exact busy (sleepless tcb held)
    have reached : prio ∈ kernel.ticked := (timed.listed.mem prio).mpr ⟨awake, by simp [held]⟩
    refine ⟨time, same, ?_⟩
    simp only [ahead, idle, List.not_mem_nil, if_false] at left
    simp only [ahead, reached, if_true]
    omega
  · obtain ⟨time, same, passed⟩ := late expired
    exact ⟨time, same, passed.trans (Nat.le_succ _)⟩
  · obtain ⟨time, same, passed⟩ := slept placed ended
    exact ⟨time, same, passed.trans (Nat.le_succ _)⟩

omit [Inhabited Message] in
/-- The loop of `OSTimeTick` leaves its first task in step with the tick. -/
theorem Timed.passes (timed : kernel.Timed due) {prio : Prio} {rest : List Prio}
    (next : kernel.tickRest = prio :: rest) {tasks : Prio → Option (OsTcb Message)} (rdy : PrioMap)
    (others : ∀ other, other ≠ prio → tasks other = kernel.osTCBPrioTbl other)
    (absent : tasks prio = none ↔ kernel.osTCBPrioTbl prio = none)
    (timely : ∀ tcb, tasks prio = some tcb → tcb.Timely kernel.osTime (due prio) 0) :
    Timed { kernel with osTCBPrioTbl := tasks, osRdy := rdy, tickRest := rest } due := by
  have once : prio ∉ rest ∧ rest.Nodup := List.nodup_cons.mp (next ▸ timed.rest)
  refine ⟨⟨fun other => ?_, timed.listed.nodup⟩, fun _ => timed.inside (by simp [next]), once.2, ?_⟩
  · apply (timed.listed.mem other).trans
    by_cases here : other = prio
    · subst here
      simp [absent]
    · simp [others other here]
  · intro other tcb held
    by_cases here : other = prio
    · subst here
      simpa [ahead, once.1] using timely tcb held
    · dsimp only at held
      rw [others other here] at held
      simpa [ahead, next, here] using timed.timely other tcb held

/-- One pass of `OSTimeTick` counts the delay of its task down, and ends it at the due time. -/
theorem Timed.tickTask (timed : kernel.Timed due) {prio : Prio} {rest : List Prio}
    (next : kernel.tickRest = prio :: rest) :
    Timed { kernel.osTimeTickTask prio with tickRest := rest } due := by
  have first : kernel.ahead prio = 1 := by simp [ahead, next]
  unfold osTimeTickTask
  cases held : kernel.osTCBPrioTbl prio with
  | none => exact timed.passes next kernel.osRdy (fun _ _ => rfl) Iff.rfl (by simp [held])
  | some ptcb =>
      obtain ⟨delayed, late, slept⟩ := timed.timely prio ptcb held
      rw [first] at delayed
      have updated (record : OsTcb Message) (rdy : PrioMap)
          (timely : record.Timely kernel.osTime (due prio) 0) :
          Timed { kernel.setTcb prio record with osRdy := rdy, tickRest := rest } due := by
        apply timed.passes next rdy
        · exact fun other different => Function.update_of_ne different ..
        · simp [Kernel.setTcb, held]
        · intro tcb same
          simp only [Kernel.setTcb, Function.update_self, Option.some.injEq] at same
          exact same ▸ timely
      dsimp only
      split
      next busy =>
        obtain ⟨time, limit, left⟩ := delayed busy
        split
        next =>
          apply updated
          rw [limit]
          exact OsTcb.timely_endDly ptcb (by omega)
        next =>
          apply updated _ kernel.osRdy
          refine ⟨fun _ => ⟨time, limit, ?_⟩, late, fun _ ended => by contradiction⟩
          show kernel.osTime + (ptcb.osTCBDly - 1) = time + 0
          omega
      next ended =>
        apply timed.passes next kernel.osRdy (fun _ _ => rfl) Iff.rfl
        intro tcb same
        obtain rfl := Option.some.inj (held.symm.trans same)
        exact ⟨fun busy => absurd busy ended, late, slept⟩

/-- Each step keeps the tasks on time. -/
theorem Timed.act (timed : kernel.Timed due) (inv : kernel.Inv) {action : Action Message}
    {answer : Answer Message} (acted : kernel.act action = some (answer, after)) :
    after.Timed (kernel.setDue action due) := by
  cases action with
  | call service =>
      simp only [setDue, acted]
      simp only [Kernel.act] at acted
      split at acted
      next enters =>
        have served := timed.serve inv enters.2 service
        rw [Option.some.inj acted] at served
        exact served
      next => contradiction
  | sched =>
      simp only [Kernel.act] at acted
      split at acted
      next =>
        obtain ⟨_, rfl⟩ := Prod.mk.inj (Option.some.inj acted)
        unfold osSched
        split
        next =>
          split
          next => exact timed.steady (Steady.switch (.same rfl rfl rfl rfl rfl))
          next => exact timed.steady (.same rfl rfl rfl rfl rfl)
        next => exact timed.steady (.same rfl rfl rfl rfl rfl)
      next => contradiction
  | leave =>
      simp only [Kernel.act] at acted
      split at acted
      next =>
        obtain ⟨tcb, held, left⟩ := Option.bind_eq_some_iff.mp acted
        exact timed.steady (steady_leave held left)
      next => contradiction
  | pendSv =>
      simp only [Kernel.act] at acted
      split at acted
      next =>
        obtain ⟨_, rfl⟩ := Prod.mk.inj (Option.some.inj acted)
        exact timed.steady (.same rfl rfl rfl rfl rfl)
      next => contradiction
  | intEnter =>
      obtain ⟨_, rfl⟩ := Prod.mk.inj (Option.some.inj acted)
      split
      next =>
        exact ⟨⟨timed.listed.mem, timed.listed.nodup⟩, fun _ => Nat.succ_pos _, timed.rest,
          timed.timely⟩
      next => exact timed
  | timeTick =>
      simp only [Kernel.act] at acted
      split at acted
      next enters =>
        obtain ⟨_, rfl⟩ := Prod.mk.inj (Option.some.inj acted)
        apply timed.timeTick enters.2 enters.1
        intro tcb held
        obtain ⟨idle, found, _, runnable⟩ := inv.agrees.idle
        obtain rfl := Option.some.inj (held.symm.trans found)
        exact runnable.2.2
      next => contradiction
  | tickTask =>
      simp only [Kernel.act] at acted
      split at acted
      next => contradiction
      next prio rest next =>
        split at acted
        next =>
          obtain ⟨_, rfl⟩ := Prod.mk.inj (Option.some.inj acted)
          exact timed.tickTask next
        next => contradiction
  | intExit =>
      simp only [Kernel.act] at acted
      split at acted
      next exits =>
        obtain ⟨_, rfl⟩ := Prod.mk.inj (Option.some.inj acted)
        have left : Timed { kernel with osIntNesting := kernel.osIntNesting - 1 } due := by
          refine ⟨⟨timed.listed.mem, timed.listed.nodup⟩, fun running => ?_, timed.rest,
            timed.timely⟩
          have nested := exits.2.resolve_left running
          show 0 < kernel.osIntNesting - 1
          omega
        unfold osIntExit
        dsimp only
        split
        next =>
          split
          next => exact left.steady (Steady.switch (.refl _))
          next => exact left
        next => exact left
      next => contradiction

/-- A creation blocks no task. -/
theorem creation_runs (kernel : Kernel Message) (creation : Creation Message) :
    (kernel.serve creation.service).1 ≠ .blocks := by
  cases creation with
  | sem cnt =>
      show (kernel.osSemCreate cnt).1 ≠ .blocks
      unfold osSemCreate
      split
      next => simp
      next => split <;> simp
  | q start size =>
      show (kernel.osQCreate start size).1 ≠ .blocks
      unfold osQCreate
      split
      next => simp
      next =>
        split
        next => simp
        next => split <;> simp
  | task prio =>
      show (kernel.osTaskCreate prio).1 ≠ .blocks
      unfold osTaskCreate
      split
      next => simp
      next =>
        split
        next => simp
        next => split <;> simp

/-- The creations before the start keep the tasks on time. -/
theorem Timed.create (timed : kernel.Timed due) (agrees : kernel.Agrees)
    (creation : Creation Message) : Timed (kernel.serve creation.service).2 due := by
  have resumes : creation.service.resumed = none := by cases creation <;> rfl
  have same : due.serve kernel creation.service _ = due :=
    serve_due resumes (kernel.creation_runs creation)
  cases creation with
  | sem cnt => exact same ▸ timed.semCreate agrees cnt
  | q start size => exact same ▸ timed.qCreate agrees start size
  | task prio => exact same ▸ timed.taskCreate agrees prio

theorem osInitTables_timed :
    Timed ((osInitTables : Kernel Message).osTCBInit osTaskIdlePrio) fun _ => none := by
  have first : ((osInitTables : Kernel Message).osTCBInit osTaskIdlePrio).ticked = [] := rfl
  refine ⟨⟨fun prio => ?_, List.nodup_nil⟩, fun running => absurd rfl running, List.nodup_nil, ?_⟩
  · rw [first]
    by_cases idle : prio = osTaskIdlePrio <;> simp [osTCBInit, setTcb, osInitTables, idle]
  · intro prio tcb held
    simp only [osTCBInit, setTcb, osInitTables, Function.update_apply] at held
    split at held
    next =>
      obtain rfl := Option.some.inj held
      exact ⟨fun busy => by contradiction, fun late => by contradiction,
        fun placed => by contradiction⟩
    next => contradiction

/-- No task is delayed when the kernel starts. -/
theorem boot_timed (creations : List (Creation Message)) :
    (boot creations).Timed fun _ => none := by
  have created (kernel : Kernel Message) (prepared : kernel.Prepared)
      (timed : kernel.Timed fun _ => none) :
      (creations.foldl (fun kernel creation => (kernel.serve creation.service).2)
        kernel).Timed fun _ => none := by
    induction creations generalizing kernel with
    | nil => exact timed
    | cons creation rest ih =>
        exact ih _ (prepared.create creation) (timed.create prepared.agrees creation)
  have init : (osInit : Kernel Message).Timed fun _ => none :=
    osInitTables_timed.create osInitTables_idle.agrees (.task osTaskStatPrio)
  have ready := created osInit (osInitTables_idle.taskCreate osTaskStatPrio) init
  exact ready.steady (.same rfl rfl rfl rfl rfl)

end Kernel

end NnpCamera.Scheduler
