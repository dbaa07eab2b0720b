/-
This file models the task control blocks, the event control blocks and the scheduler of the kernel.
-/

import NnpCamera.Library.CountedRing
import NnpCamera.Library.Pool
import NnpCamera.Mailbox.EventBlocks
import NnpCamera.Scheduler.Tables

namespace NnpCamera.Scheduler
open Library
open Mailbox (osMaxEvents osMaxQs)

def osTaskIdlePrio : Prio := 63
def osTaskStatPrio : Prio := 62

/-- The kernel has blocks for the tasks of the application and for its own two tasks. -/
def osMaxTcbs : Nat := 22

/-- A task waits for a semaphore or for a message of a queue. -/
inductive OsEventType where
  | sem
  | q
  deriving DecidableEq

/-- These are the used bits of `OSTCBStat`. -/
structure OsStat where
  sem : Bool
  q : Bool
  suspend : Bool
  deriving DecidableEq

namespace OsStat

def rdy : OsStat := { sem := false, q := false, suspend := false }

/-- The bit for the kind of event. -/
def pends (stat : OsStat) : OsEventType → Bool
  | .sem => stat.sem
  | .q => stat.q

/-- The test with `OS_STAT_PEND_ANY`. -/
def pendAny (stat : OsStat) : Bool := stat.sem || stat.q

def set (stat : OsStat) : OsEventType → OsStat
  | .sem => { stat with sem := true }
  | .q => { stat with q := true }

def clear (stat : OsStat) : OsEventType → OsStat
  | .sem => { stat with sem := false }
  | .q => { stat with q := false }

def clearAny (stat : OsStat) : OsStat := { stat with sem := false, q := false }

end OsStat

inductive PendStatus where
  | pendOk
  | pendTo
  | pendAbort
  deriving DecidableEq

/-- A task runs its own code, or is inside a delay or inside a pend. Its stack holds this place. -/
inductive Place where
  | app
  | timeDly
  | pend (type : OsEventType) (pevent : Nat)
  deriving DecidableEq

/-- A task control block. -/
structure OsTcb (Message : Type) where
  osTCBStat : OsStat
  osTCBStatPend : PendStatus
  osTCBDly : Nat
  osTCBMsg : Message
  place : Place

/-- A semaphore has a count, and a queue has its messages. -/
inductive OsEventBody (Message : Type) where
  | sem (osEventCnt : Nat)
  | q (osQ : CountedRing Message)

/-- An event control block in use. -/
structure OsEvent (Message : Type) where
  body : OsEventBody Message
  osEventTbl : PrioMap

/-- The variables of the kernel. `pendSv` holds while the interrupt for the context switch is
pending. `inSched` has the tasks that are about to call `OS_Sched`. `tickRest` has the tasks that a
running `OSTimeTick` has not reached yet. -/
structure Kernel (Message : Type) where
  osRunning : Bool
  osTime : Nat
  osIntNesting : Nat
  osLockNesting : Nat
  osPrioCur : Prio
  osPrioHighRdy : Prio
  osRdy : PrioMap
  osTCBPrioTbl : Prio → Option (OsTcb Message)
  osTCBList : List Prio
  osTCBFree : Nat
  osEventTbl : Pool (OsEvent Message)
  osQFree : Nat
  pendSv : Bool
  inSched : Prio → Bool
  tickRest : List Prio

namespace OsEventBody
variable {Message : Type} [Inhabited Message]

def type : OsEventBody Message → OsEventType
  | .sem _ => .sem
  | .q _ => .q

/-- A semaphore gives a token, which is the null pointer. A queue gives its oldest message. -/
def take : OsEventBody Message → Option (Message × OsEventBody Message)
  | .sem osEventCnt => if 0 < osEventCnt then some (default, .sem (osEventCnt - 1)) else none
  | .q osQ => osQ.pop.map fun (message, osQ) => (message, .q osQ)

/-- A semaphore counts to 65535. A queue stores messages up to its size. -/
def put (message : Message) : OsEventBody Message → Option (OsEventBody Message)
  | .sem osEventCnt => if osEventCnt < 65535 then some (.sem (osEventCnt + 1)) else none
  | .q osQ => (osQ.pushBack message).map .q

/-- The tokens or messages that can be taken. -/
def items : OsEventBody Message → List Message
  | .sem osEventCnt => List.replicate osEventCnt default
  | .q osQ => osQ.contents

end OsEventBody

/-- The control block of a new task. -/
def OsTcb.init {Message : Type} [Inhabited Message] : OsTcb Message where
  osTCBStat := .rdy
  osTCBStatPend := .pendOk
  osTCBDly := 0
  osTCBMsg := default
  place := .app

namespace Kernel
variable {Message : Type} [Inhabited Message] (kernel : Kernel Message)

def setTcb (prio : Prio) (tcb : OsTcb Message) : Kernel Message :=
  { kernel with osTCBPrioTbl := Function.update kernel.osTCBPrioTbl prio (some tcb) }

/-- `OS_SchedNew` finds the ready task of the highest priority. -/
def osSchedNew : Kernel Message := { kernel with osPrioHighRdy := kernel.osRdy.highest }

/-- The context switch is requested when another task has the highest priority. -/
def switch : Kernel Message :=
  if kernel.osPrioHighRdy ≠ kernel.osPrioCur then { kernel with pendSv := true } else kernel

def osSched : Kernel Message :=
  if kernel.osIntNesting = 0 then
    if kernel.osLockNesting = 0 then kernel.osSchedNew.switch else kernel
  else kernel

/-- A service of a task ends with a call of `OS_Sched` outside its critical section. In an interrupt
handler this call has no effect. -/
def callSched : Kernel Message :=
  if kernel.osIntNesting = 0 then
    { kernel with inSched := Function.update kernel.inSched kernel.osPrioCur true }
  else kernel

/-- `OS_EventTaskRemove` takes a task from the wait list of an event. -/
def osEventTaskRemove (prio : Prio) (pevent : Nat) : Kernel Message :=
  match kernel.osEventTbl.contents pevent with
  | none => kernel
  | some event =>
      { kernel with
        osEventTbl := kernel.osEventTbl.store pevent
          { event with osEventTbl := event.osEventTbl.clear prio } }

/-- The ready task leaves its wait. A suspended task does not become ready. -/
def osEventTaskRdyTcb (tcb : OsTcb Message) (pmsg : Message) (msk : OsEventType)
    (pendStat : PendStatus) : OsTcb Message :=
  { tcb with
    osTCBDly := 0
    osTCBMsg := pmsg
    osTCBStat := tcb.osTCBStat.clear msk
    osTCBStatPend := pendStat }

/-- `OS_EventTaskRdy` readies the waiting task of the highest priority. -/
def osEventTaskRdy (pevent : Nat) (event : OsEvent Message) (pmsg : Message) (msk : OsEventType)
    (pendStat : PendStatus) : Kernel Message :=
  let prio := event.osEventTbl.highest
  match kernel.osTCBPrioTbl prio with
  | none => kernel
  | some ptcb =>
      let tcb := osEventTaskRdyTcb ptcb pmsg msk pendStat
      { kernel.setTcb prio tcb with
        osRdy := if tcb.osTCBStat.suspend then kernel.osRdy else kernel.osRdy.set prio
        osEventTbl := kernel.osEventTbl.store pevent
          { event with osEventTbl := event.osEventTbl.clear prio } }

/-- The loop readies each waiting task. A wait list has at most 64 tasks. -/
def osEventTaskRdyAll (pevent : Nat) (pmsg : Message) (msk : OsEventType)
    (pendStat : PendStatus) : Nat → Kernel Message → Kernel Message
  | 0, kernel => kernel
  | tasks + 1, kernel =>
      match kernel.osEventTbl.contents pevent with
      | none => kernel
      | some event =>
          if event.osEventTbl.grp = 0 then kernel
          else
            osEventTaskRdyAll pevent pmsg msk pendStat tasks
              (kernel.osEventTaskRdy pevent event pmsg msk pendStat)

/-- `OS_EventTaskWait` moves the current task from the ready table to the wait list. -/
def osEventTaskWait (pevent : Nat) (event : OsEvent Message) (type : OsEventType)
    (timeout : Nat) (tcb : OsTcb Message) : Kernel Message :=
  { kernel.setTcb kernel.osPrioCur { tcb with
      osTCBStat := tcb.osTCBStat.set type
      osTCBStatPend := .pendOk
      osTCBDly := timeout
      place := .pend type pevent } with
    osRdy := kernel.osRdy.clear kernel.osPrioCur
    osEventTbl := kernel.osEventTbl.store pevent
      { event with osEventTbl := event.osEventTbl.set kernel.osPrioCur } }

/-- `OS_TCBInit` makes a ready task. -/
def osTCBInit (prio : Prio) : Kernel Message :=
  { kernel.setTcb prio .init with
    osTCBList := prio :: kernel.osTCBList
    osTCBFree := kernel.osTCBFree - 1
    inSched := Function.update kernel.inSched prio false
    osRdy := kernel.osRdy.set prio }

/-- A task that waits for an event has a timeout when its delay ends. -/
def endDlyTcb (tcb : OsTcb Message) : OsTcb Message :=
  if tcb.osTCBStat.pendAny then
    { tcb with osTCBDly := 0, osTCBStat := tcb.osTCBStat.clearAny, osTCBStatPend := .pendTo }
  else { tcb with osTCBDly := 0, osTCBStatPend := .pendOk }

/-- A delay ends in `OSTimeTick` or in `OSTimeDlyResume`. -/
def endDly (prio : Prio) (ptcb : OsTcb Message) : Kernel Message :=
  { kernel.setTcb prio (endDlyTcb ptcb) with
    osRdy := if ptcb.osTCBStat.suspend then kernel.osRdy else kernel.osRdy.set prio }

/-- One pass of the loop in `OSTimeTick`. -/
def osTimeTickTask (prio : Prio) : Kernel Message :=
  match kernel.osTCBPrioTbl prio with
  | none => kernel
  | some ptcb =>
      if ptcb.osTCBDly ≠ 0 then
        if ptcb.osTCBDly - 1 = 0 then kernel.endDly prio ptcb
        else kernel.setTcb prio { ptcb with osTCBDly := ptcb.osTCBDly - 1 }
      else kernel

/-- The tables of the kernel before the first task. -/
def osInitTables : Kernel Message where
  osRunning := false
  osTime := 0
  osIntNesting := 0
  osLockNesting := 0
  osPrioCur := 0
  osPrioHighRdy := 0
  osRdy := .init
  osTCBPrioTbl := fun _ => none
  osTCBList := []
  osTCBFree := osMaxTcbs
  osEventTbl := .initial osMaxEvents
  osQFree := osMaxQs
  pendSv := false
  inSched := fun _ => false
  tickRest := []

end Kernel

end NnpCamera.Scheduler
