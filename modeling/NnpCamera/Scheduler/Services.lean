/-
This file models the services of the kernel, and the steps of the tasks and of the interrupt handlers.
-/

import NnpCamera.Library.Runs
import NnpCamera.Mailbox.Elapsed
import NnpCamera.Scheduler.Kernel

namespace NnpCamera.Scheduler
open Library
open Mailbox (osErrNone osErrEventType osErrQFull osMaxEvents osMaxQs)

def osErrPendIsr : UInt8 := 2
def osErrInvalidOpt : UInt8 := 7
def osErrPendLocked : UInt8 := 13
def osErrPendAbort : UInt8 := 14
def osErrDelIsr : UInt8 := 15
def osErrQEmpty : UInt8 := 31
def osErrPrioExist : UInt8 := 40
def osErrPrioInvalid : UInt8 := 42
def osErrSemOvf : UInt8 := 51
def osErrTaskCreateIsr : UInt8 := 60
def osErrTaskNoMoreTcb : UInt8 := 66
def osErrTaskNotSuspended : UInt8 := 68
def osErrTaskResumePrio : UInt8 := 70
def osErrTaskSuspendPrio : UInt8 := 72
def osErrTaskNotExist : UInt8 := 67
def osErrTaskWaiting : UInt8 := 73
def osErrTimeNotDly : UInt8 := 80

/-- A service returns a code, or the number of a new event control block, or a token or message, or
it blocks the task. -/
inductive Answer (Message : Type) where
  | err (perr : UInt8)
  | created (pevent : Option Nat)
  | item (pmsg : Message)
  | blocks
  deriving DecidableEq

/-- The options of a delete service. -/
inductive DelOpt where
  | noPend
  | always
  | other
  deriving DecidableEq

/-- A call of a service with its arguments. -/
inductive Service (Message : Type) where
  | timeDly (ticks : Nat)
  | timeDlyResume (prio : Prio)
  | semCreate (cnt : Nat)
  | semPend (pevent timeout : Nat)
  | semAccept (pevent : Nat)
  | semPost (pevent : Nat)
  | semPendAbort (pevent : Nat) (broadcast : Bool)
  | semDel (pevent : Nat) (opt : DelOpt)
  | qCreate (start : Nat → Message) (size : Nat)
  | qPend (pevent timeout : Nat)
  | qAccept (pevent : Nat)
  | qPost (pevent : Nat) (pmsg : Message)
  | qPendAbort (pevent : Nat) (broadcast : Bool)
  | qDel (pevent : Nat) (opt : DelOpt)
  | taskCreate (prio : Prio)
  | taskSuspend (prio : Prio)
  | taskResume (prio : Prio)
  | schedLock
  | schedUnlock

/-- The program creates semaphores, queues and tasks before it starts the kernel. -/
inductive Creation (Message : Type) where
  | sem (cnt : Nat)
  | q (start : Nat → Message) (size : Nat)
  | task (prio : Prio)

def Creation.service {Message : Type} : Creation Message → Service Message
  | .sem cnt => .semCreate cnt
  | .q start size => .qCreate start size
  | .task prio => .taskCreate prio

namespace Kernel
variable {Message : Type} [Inhabited Message] (kernel : Kernel Message)

/-- A delay blocks the current task for a number of ticks that is not zero. -/
def osTimeDly (ticks : Nat) : Answer Message × Kernel Message :=
  if 0 < kernel.osIntNesting then (.err osErrNone, kernel)
  else if 0 < kernel.osLockNesting then (.err osErrNone, kernel)
  else if 0 < ticks then
    match kernel.osTCBPrioTbl kernel.osPrioCur with
    | none => (.err osErrNone, kernel)
    | some tcb =>
        (.blocks, callSched { kernel.setTcb kernel.osPrioCur
            { tcb with osTCBDly := ticks, place := .timeDly } with
          osRdy := kernel.osRdy.clear kernel.osPrioCur })
  else (.err osErrNone, kernel)

def osTimeDlyResume (prio : Prio) : Answer Message × Kernel Message :=
  if prio = osTaskIdlePrio then (.err osErrPrioInvalid, kernel)
  else
    match kernel.osTCBPrioTbl prio with
    | none => (.err osErrTaskNotExist, kernel)
    | some ptcb =>
        if ptcb.osTCBDly = 0 then (.err osErrTimeNotDly, kernel)
        else
          let after := kernel.endDly prio ptcb
          (.err osErrNone, if ptcb.osTCBStat.suspend then after else after.callSched)

/-- The event has the kind that the service expects. -/
def eventOf (pevent : Nat) (type : OsEventType) : Option (OsEvent Message) :=
  (kernel.osEventTbl.contents pevent).filter fun event => event.body.type = type

/-- A new event has no waiting task. -/
def eventCreate (body : OsEventBody Message) : Option (Nat × Kernel Message) :=
  (kernel.osEventTbl.allocate { body := body, osEventTbl := .init }).map
    fun (pevent, osEventTbl) => (pevent, { kernel with osEventTbl := osEventTbl })

def osSemCreate (cnt : Nat) : Answer Message × Kernel Message :=
  if 0 < kernel.osIntNesting then (.created none, kernel)
  else
    match kernel.eventCreate (.sem cnt) with
    | none => (.created none, kernel)
    | some (pevent, after) => (.created (some pevent), after)

/-- A queue needs a queue control block too. -/
def osQCreate (start : Nat → Message) (size : Nat) : Answer Message × Kernel Message :=
  if 0 < kernel.osIntNesting then (.created none, kernel)
  else
    match kernel.eventCreate (.q (.create size start)) with
    | none => (.created none, kernel)
    | some (pevent, after) =>
        if kernel.osQFree = 0 then (.created none, kernel)
        else (.created (some pevent), { after with osQFree := kernel.osQFree - 1 })

/-- A pend takes an item or blocks the current task. -/
def eventPend (type : OsEventType) (pevent timeout : Nat) : Answer Message × Kernel Message :=
  match kernel.eventOf pevent type with
  | none => (.err osErrEventType, kernel)
  | some event =>
      if 0 < kernel.osIntNesting then (.err osErrPendIsr, kernel)
      else if 0 < kernel.osLockNesting then (.err osErrPendLocked, kernel)
      else
        match event.body.take with
        | some (pmsg, body) =>
            (.item pmsg, { kernel with
              osEventTbl := kernel.osEventTbl.store pevent { event with body := body } })
        | none =>
            match kernel.osTCBPrioTbl kernel.osPrioCur with
            | none => (.err osErrNone, kernel)
            | some tcb =>
                (.blocks, (kernel.osEventTaskWait pevent event type timeout tcb).callSched)

def osSemPend (pevent timeout : Nat) := kernel.eventPend .sem pevent timeout
def osQPend (pevent timeout : Nat) := kernel.eventPend .q pevent timeout

/-- An accept takes an item and never blocks. -/
def eventAccept (type : OsEventType) (empty : UInt8) (pevent : Nat) :
    Answer Message × Kernel Message :=
  match kernel.eventOf pevent type with
  | none => (.err osErrEventType, kernel)
  | some event =>
      match event.body.take with
      | some (pmsg, body) =>
          (.item pmsg, { kernel with
            osEventTbl := kernel.osEventTbl.store pevent { event with body := body } })
      | none => (.err empty, kernel)

/-- `OSSemAccept` returns the old count, which is zero when it takes nothing. -/
def osSemAccept (pevent : Nat) := kernel.eventAccept .sem 0 pevent
def osQAccept (pevent : Nat) := kernel.eventAccept .q osErrQEmpty pevent

/-- A post goes to the waiting task of the highest priority, or to the event itself. -/
def eventPost (type : OsEventType) (full : UInt8) (pevent : Nat) (pmsg : Message) :
    Answer Message × Kernel Message :=
  match kernel.eventOf pevent type with
  | none => (.err osErrEventType, kernel)
  | some event =>
      if event.osEventTbl.grp ≠ 0 then
        (.err osErrNone, (kernel.osEventTaskRdy pevent event pmsg type .pendOk).callSched)
      else
        match event.body.put pmsg with
        | none => (.err full, kernel)
        | some body =>
            (.err osErrNone, { kernel with
              osEventTbl := kernel.osEventTbl.store pevent { event with body := body } })

def osSemPost (pevent : Nat) := kernel.eventPost .sem osErrSemOvf pevent default
def osQPost (pevent : Nat) (pmsg : Message) := kernel.eventPost .q osErrQFull pevent pmsg

/-- An abort readies the first waiting task or all of them. -/
def eventPendAbort (type : OsEventType) (pevent : Nat) (broadcast : Bool) :
    Answer Message × Kernel Message :=
  match kernel.eventOf pevent type with
  | none => (.err osErrEventType, kernel)
  | some event =>
      if event.osEventTbl.grp ≠ 0 then
        let after :=
          if broadcast then osEventTaskRdyAll pevent default type .pendAbort 64 kernel
          else kernel.osEventTaskRdy pevent event default type .pendAbort
        (.err osErrPendAbort, after.callSched)
      else (.err osErrNone, kernel)

def osSemPendAbort (pevent : Nat) (broadcast : Bool) :=
  kernel.eventPendAbort .sem pevent broadcast
def osQPendAbort (pevent : Nat) (broadcast : Bool) := kernel.eventPendAbort .q pevent broadcast

/-- The block returns to the free list, and a queue control block too. -/
def eventFree (type : OsEventType) (pevent : Nat) : Kernel Message :=
  { kernel with
    osEventTbl := kernel.osEventTbl.release pevent
    osQFree := if type = .q then kernel.osQFree + 1 else kernel.osQFree }

/-- A delete without a check readies all waiting tasks first. -/
def eventDel (type : OsEventType) (pevent : Nat) (opt : DelOpt) :
    Answer Message × Kernel Message :=
  match kernel.eventOf pevent type with
  | none => (.err osErrEventType, kernel)
  | some event =>
      if 0 < kernel.osIntNesting then (.err osErrDelIsr, kernel)
      else
        match opt with
        | .noPend =>
            if event.osEventTbl.grp = 0 then (.err osErrNone, kernel.eventFree type pevent)
            else (.err osErrTaskWaiting, kernel)
        | .always =>
            let after :=
              eventFree (osEventTaskRdyAll pevent default type .pendAbort 64 kernel) type pevent
            (.err osErrNone, if event.osEventTbl.grp ≠ 0 then after.callSched else after)
        | .other => (.err osErrInvalidOpt, kernel)

def osSemDel (pevent : Nat) (opt : DelOpt) := kernel.eventDel .sem pevent opt
def osQDel (pevent : Nat) (opt : DelOpt) := kernel.eventDel .q pevent opt

def osTaskCreate (prio : Prio) : Answer Message × Kernel Message :=
  if 0 < kernel.osIntNesting then (.err osErrTaskCreateIsr, kernel)
  else
    match kernel.osTCBPrioTbl prio with
    | some _ => (.err osErrPrioExist, kernel)
    | none =>
        if kernel.osTCBFree = 0 then (.err osErrTaskNoMoreTcb, kernel)
        else
          let after := kernel.osTCBInit prio
          (.err osErrNone, if kernel.osRunning then after.callSched else after)

/-- A suspended task leaves the ready table. -/
def osTaskSuspend (prio : Prio) : Answer Message × Kernel Message :=
  match kernel.osTCBPrioTbl prio with
  | none => (.err osErrTaskSuspendPrio, kernel)
  | some ptcb =>
      let after := { kernel.setTcb prio
          { ptcb with osTCBStat := { ptcb.osTCBStat with suspend := true } } with
        osRdy := kernel.osRdy.clear prio }
      (.err osErrNone, if prio = kernel.osPrioCur then after.callSched else after)

/-- A resumed task becomes ready when it neither waits nor is delayed. -/
def osTaskResume (prio : Prio) : Answer Message × Kernel Message :=
  match kernel.osTCBPrioTbl prio with
  | none => (.err osErrTaskResumePrio, kernel)
  | some ptcb =>
      if ptcb.osTCBStat.suspend then
        let after := kernel.setTcb prio
          { ptcb with osTCBStat := { ptcb.osTCBStat with suspend := false } }
        if ptcb.osTCBStat.pendAny = false ∧ ptcb.osTCBDly = 0 then
          (.err osErrNone, callSched { after with osRdy := kernel.osRdy.set prio })
        else (.err osErrNone, after)
      else (.err osErrTaskNotSuspended, kernel)

def osSchedLock : Answer Message × Kernel Message :=
  if kernel.osIntNesting = 0 ∧ kernel.osLockNesting < 255 then
    (.err osErrNone, { kernel with osLockNesting := kernel.osLockNesting + 1 })
  else (.err osErrNone, kernel)

def osSchedUnlock : Answer Message × Kernel Message :=
  if kernel.osIntNesting = 0 ∧ 0 < kernel.osLockNesting then
    let after := { kernel with osLockNesting := kernel.osLockNesting - 1 }
    (.err osErrNone, if after.osLockNesting = 0 then after.callSched else after)
  else (.err osErrNone, kernel)

def serve : Service Message → Answer Message × Kernel Message
  | .timeDly ticks => kernel.osTimeDly ticks
  | .timeDlyResume prio => kernel.osTimeDlyResume prio
  | .semCreate cnt => kernel.osSemCreate cnt
  | .semPend pevent timeout => kernel.osSemPend pevent timeout
  | .semAccept pevent => kernel.osSemAccept pevent
  | .semPost pevent => kernel.osSemPost pevent
  | .semPendAbort pevent broadcast => kernel.osSemPendAbort pevent broadcast
  | .semDel pevent opt => kernel.osSemDel pevent opt
  | .qCreate start size => kernel.osQCreate start size
  | .qPend pevent timeout => kernel.osQPend pevent timeout
  | .qAccept pevent => kernel.osQAccept pevent
  | .qPost pevent pmsg => kernel.osQPost pevent pmsg
  | .qPendAbort pevent broadcast => kernel.osQPendAbort pevent broadcast
  | .qDel pevent opt => kernel.osQDel pevent opt
  | .taskCreate prio => kernel.osTaskCreate prio
  | .taskSuspend prio => kernel.osTaskSuspend prio
  | .taskResume prio => kernel.osTaskResume prio
  | .schedLock => kernel.osSchedLock
  | .schedUnlock => kernel.osSchedUnlock

/-- The last part of a pend after `OS_Sched`. -/
def endPend (type : OsEventType) (pevent : Nat) (tcb : OsTcb Message) :
    Answer Message × Kernel Message :=
  let after := kernel.setTcb kernel.osPrioCur { tcb with
    osTCBStat := .rdy
    osTCBStatPend := .pendOk
    osTCBMsg := if type = .q then default else tcb.osTCBMsg
    place := .app }
  match tcb.osTCBStatPend with
  | .pendOk => (.item tcb.osTCBMsg, after)
  | .pendAbort => (.err osErrPendAbort, after)
  | .pendTo => (.err Mailbox.osErrTimeout, after.osEventTaskRemove kernel.osPrioCur pevent)

/-- `OSIntExit` requests a context switch when the last handler returns. -/
def osIntExit : Kernel Message :=
  let after := { kernel with osIntNesting := kernel.osIntNesting - 1 }
  if after.osIntNesting = 0 then
    if after.osLockNesting = 0 then after.osSchedNew.switch else after
  else after

/-- The handler of PendSV makes the task of the highest priority the current task. -/
def pendSvHandler : Kernel Message :=
  { kernel with osPrioCur := kernel.osPrioHighRdy, pendSv := false }

/-- `OSInit` creates the idle task and the statistics task. -/
def osInit : Kernel Message :=
  ((osInitTables.osTaskCreate osTaskIdlePrio).2.osTaskCreate osTaskStatPrio).2

/-- `OSStart` requests the first context switch. -/
def osStart : Kernel Message :=
  { kernel.osSchedNew with
    osRunning := true
    osPrioCur := kernel.osSchedNew.osPrioHighRdy
    pendSv := true }

/-- The program creates what it needs and starts the kernel. -/
def boot (creations : List (Creation Message)) : Kernel Message :=
  (creations.foldl (fun kernel creation => (kernel.serve creation.service).2) osInit).osStart

end Kernel

/-- A handler or the current task calls a service. The current task calls `OS_Sched` inside a
service, and leaves a delay or a pend after it. The other actions belong to the interrupts. -/
inductive Action (Message : Type) where
  | call (service : Service Message)
  | sched
  | leave
  | pendSv
  | intEnter
  | timeTick
  | tickTask
  | intExit

namespace Kernel
variable {Message : Type} [Inhabited Message] (kernel : Kernel Message)

/-- No handler runs and no context switch is pending. -/
def AtTask : Prop := kernel.osIntNesting = 0 ∧ kernel.pendSv = false

instance : Decidable kernel.AtTask := inferInstanceAs (Decidable (_ ∧ _))

/-- The place of the current task. -/
def curPlace : Option Place := (kernel.osTCBPrioTbl kernel.osPrioCur).map OsTcb.place

/-- The current task runs its own code. The idle task calls no service. -/
def AtApp : Prop :=
  kernel.AtTask ∧ kernel.inSched kernel.osPrioCur = false ∧ kernel.curPlace = some .app ∧
    kernel.osPrioCur ≠ osTaskIdlePrio

instance : Decidable kernel.AtApp := inferInstanceAs (Decidable (_ ∧ _))

/-- No caller suspends the idle task, since the kernel is built without this check. -/
def Permits : Service Message → Prop
  | .taskSuspend prio => prio ≠ osTaskIdlePrio
  | _ => True

instance (service : Service Message) : Decidable (Permits service) := by
  cases service <;> unfold Permits <;> infer_instance

/-- The code after `OS_Sched` in a delay or in a pend. -/
def leave (tcb : OsTcb Message) : Option (Answer Message × Kernel Message) :=
  match tcb.place with
  | .app => none
  | .timeDly =>
      some (.err osErrNone, kernel.setTcb kernel.osPrioCur { tcb with place := .app })
  | .pend type pevent => some (kernel.endPend type pevent tcb)

/-- One step of the program. A critical section is one step. -/
def act : Action Message → Option (Answer Message × Kernel Message)
  | .call service =>
      if Permits service ∧ (0 < kernel.osIntNesting ∨ kernel.AtApp) then
        some (kernel.serve service)
      else none
  | .sched =>
      if kernel.AtTask ∧ kernel.inSched kernel.osPrioCur = true then
        some (.err osErrNone, osSched { kernel with
          inSched := Function.update kernel.inSched kernel.osPrioCur false })
      else none
  | .leave =>
      if kernel.AtTask ∧ kernel.inSched kernel.osPrioCur = false then
        (kernel.osTCBPrioTbl kernel.osPrioCur).bind kernel.leave
      else none
  | .pendSv =>
      if kernel.osIntNesting = 0 ∧ kernel.pendSv = true then
        some (.err osErrNone, kernel.pendSvHandler)
      else none
  | .intEnter =>
      some (.err osErrNone,
        if kernel.osIntNesting < 255 then { kernel with osIntNesting := kernel.osIntNesting + 1 }
        else kernel)
  | .timeTick =>
      if 0 < kernel.osIntNesting ∧ kernel.tickRest = [] then
        some (.err osErrNone, { kernel with
          osTime := kernel.osTime + 1
          tickRest := kernel.osTCBList.takeWhile (· ≠ osTaskIdlePrio) })
      else none
  | .tickTask =>
      match kernel.tickRest with
      | [] => none
      | prio :: rest =>
          if 0 < kernel.osIntNesting then
            some (.err osErrNone, { kernel.osTimeTickTask prio with tickRest := rest })
          else none
  | .intExit =>
      if 0 < kernel.osIntNesting ∧ (kernel.tickRest = [] ∨ 1 < kernel.osIntNesting) then
        some (.err osErrNone, kernel.osIntExit)
      else none

/-- The tasks and the handlers take their steps in any order. -/
def system (Message : Type) [Inhabited Message] : System (Kernel Message) (Action Message) where
  step kernel action := (kernel.act action).map Prod.snd

end Kernel

end NnpCamera.Scheduler
