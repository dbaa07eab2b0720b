/-
This file models the event control blocks of the kernel and the services on its message queues.
-/

import NnpCamera.Library.Pool

namespace NnpCamera.Mailbox
open Library

def osErrNone : UInt8 := 0
def osErrEventType : UInt8 := 1
def osErrQFull : UInt8 := 30

/-- The kernel has this number of event control blocks. -/
def osMaxEvents : Nat := 30

/-- The kernel has this number of queue control blocks. -/
def osMaxQs : Nat := 10

/-- A message queue with its messages from the oldest on, and the priorities of the tasks that wait
for a message. -/
structure OsQ (Message : Type) where
  osQSize : Nat
  messages : List Message
  fits : messages.length ≤ osQSize
  waiting : List Nat

namespace OsQ
variable {Message : Type}

/-- A new queue is empty and no task waits. -/
def create (osQSize : Nat) : OsQ Message where
  osQSize := osQSize
  messages := []
  fits := Nat.zero_le _
  waiting := []

/-- The queue holds as many messages as its size. -/
def Full (queue : OsQ Message) : Prop := queue.messages.length = queue.osQSize

instance (queue : OsQ Message) : Decidable queue.Full :=
  inferInstanceAs (Decidable (_ = _))

theorem not_full_iff (queue : OsQ Message) :
    ¬ queue.Full ↔ queue.messages.length < queue.osQSize :=
  ⟨fun room => Nat.lt_of_le_of_ne queue.fits room, Nat.ne_of_lt⟩

/-- A post gives the message to the waiting task of the highest priority, which has the smallest
number. Without a waiting task the queue stores the message if it has room. -/
def post (queue : OsQ Message) (message : Message) : UInt8 × OsQ Message :=
  match queue.waiting.min? with
  | some prio => (osErrNone, { queue with waiting := queue.waiting.erase prio })
  | none =>
      if room : queue.messages.length < queue.osQSize then
        (osErrNone, { queue with
          messages := queue.messages ++ [message]
          fits := by simpa [Nat.succ_le_iff] using room })
      else (osErrQFull, queue)

/-- A pend takes the oldest message or lets the task wait. -/
def pend (queue : OsQ Message) (prio : Nat) : Option Message × OsQ Message :=
  match held : queue.messages with
  | message :: rest =>
      (some message, { queue with
        messages := rest
        fits := Nat.le_of_succ_le (by simpa [held] using queue.fits) })
  | [] => (none, { queue with waiting := queue.waiting.insert prio })

/-- A task that has waited for too long leaves the wait list. -/
def eventTaskRemove (queue : OsQ Message) (prio : Nat) : OsQ Message :=
  { queue with waiting := queue.waiting.erase prio }

end OsQ

/-- An event control block in use is a semaphore or a message queue. -/
inductive OsEvent (Message : Type) where
  | sem
  | q (queue : OsQ Message)

/-- The kernel has its event control blocks and a number of free queue control blocks. -/
structure Kernel (Message : Type) where
  osEventTbl : Pool (OsEvent Message)
  osQFree : Nat

/-- The part of `OS_Q_DATA` that is used. -/
structure OsQData where
  osNMsgs : Nat
  osQSize : Nat

namespace Kernel
variable {Message : Type}

/-- All blocks are free after `OSInit`. -/
def osInit : Kernel Message where
  osEventTbl := .initial osMaxEvents
  osQFree := osMaxQs

/-- `OSQCreate` needs a free event control block and a free queue control block. -/
def osQCreate (kernel : Kernel Message) (size : Nat) : Option Nat × Kernel Message :=
  match kernel.osEventTbl.allocate (.q (.create size)) with
  | none => (none, kernel)
  | some (pevent, osEventTbl) =>
      if kernel.osQFree = 0 then (none, kernel)
      else (some pevent, { osEventTbl := osEventTbl, osQFree := kernel.osQFree - 1 })

/-- `OSQDel` returns both blocks, also when tasks wait. -/
def osQDel (kernel : Kernel Message) (pevent : Nat) : UInt8 × Kernel Message :=
  match kernel.osEventTbl.contents pevent with
  | some (.q _) =>
      (osErrNone, { osEventTbl := kernel.osEventTbl.release pevent, osQFree := kernel.osQFree + 1 })
  | _ => (osErrEventType, kernel)

def osQPost (kernel : Kernel Message) (pevent : Nat) (message : Message) :
    UInt8 × Kernel Message :=
  match kernel.osEventTbl.contents pevent with
  | some (.q queue) =>
      ((queue.post message).1,
        { kernel with osEventTbl := kernel.osEventTbl.store pevent (.q (queue.post message).2) })
  | _ => (osErrEventType, kernel)

/-- The first part of `OSQPend`, up to the wait. -/
def osQPend (kernel : Kernel Message) (pevent prio : Nat) :
    UInt8 × Option Message × Kernel Message :=
  match kernel.osEventTbl.contents pevent with
  | some (.q queue) =>
      (osErrNone, (queue.pend prio).1,
        { kernel with osEventTbl := kernel.osEventTbl.store pevent (.q (queue.pend prio).2) })
  | _ => (osErrEventType, none, kernel)

/-- The last part of `OSQPend` after a timeout. -/
def osQPendTimeout (kernel : Kernel Message) (pevent prio : Nat) : Kernel Message :=
  match kernel.osEventTbl.contents pevent with
  | some (.q queue) =>
      { kernel with osEventTbl := kernel.osEventTbl.store pevent (.q (queue.eventTaskRemove prio)) }
  | _ => kernel

/-- `OSQQuery` writes to the data only when the block is a queue. -/
def osQQuery (kernel : Kernel Message) (pevent : Nat) (data : OsQData) : UInt8 × OsQData :=
  match kernel.osEventTbl.contents pevent with
  | some (.q queue) =>
      (osErrNone, { osNMsgs := queue.messages.length, osQSize := queue.osQSize })
  | _ => (osErrEventType, data)

def osSemCreate (kernel : Kernel Message) : Option Nat × Kernel Message :=
  match kernel.osEventTbl.allocate .sem with
  | none => (none, kernel)
  | some (pevent, osEventTbl) => (some pevent, { kernel with osEventTbl := osEventTbl })

def osSemDel (kernel : Kernel Message) (pevent : Nat) : UInt8 × Kernel Message :=
  match kernel.osEventTbl.contents pevent with
  | some .sem => (osErrNone, { kernel with osEventTbl := kernel.osEventTbl.release pevent })
  | _ => (osErrEventType, kernel)

end Kernel

end NnpCamera.Mailbox
