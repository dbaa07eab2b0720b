/-
This file models the mailboxes of lwIP over the message queues of the kernel.
-/

import NnpCamera.Library.Runs
import NnpCamera.Mailbox.EventBlocks
import NnpCamera.Image.Netbuf

namespace NnpCamera.Mailbox
open Library
open Image (ErrT)

/-- The kernel queues no null pointer, so the address of `pvNullPointer` stands for it. -/
inductive Posted (Message : Type) where
  | pvNullPointer
  | message (msg : Message)

/-- A post replaces the null pointer. -/
def Posted.ofPointer {Message : Type} : Option Message → Posted Message
  | none => .pvNullPointer
  | some msg => .message msg

/-- A fetch restores the null pointer. -/
def Posted.pointer {Message : Type} : Posted Message → Option Message
  | .pvNullPointer => none
  | .message msg => some msg

@[simp] theorem Posted.pointer_ofPointer {Message : Type} (pointer : Option Message) :
    (Posted.ofPointer pointer).pointer = pointer := by
  cases pointer with
  | none => rfl
  | some msg => rfl

/-- A mailbox has room for this number of messages. -/
def maxQueueEntries : Int := 20

/-- The size is bounded from above and then converted to an unsigned 16-bit integer. -/
def mboxSize (size : Int) : Nat :=
  ((if size > maxQueueEntries then maxQueueEntries else size) % 65536).toNat

section Calls
variable {Message : Type}

/-- `sys_mbox_new` gives its result and the value of `pQ`. -/
def sysMboxNew (kernel : Kernel (Posted Message)) (size : Int) :
    ErrT × Option Nat × Kernel (Posted Message) :=
  match kernel.osQCreate (mboxSize size) with
  | (some pQ, kernel) => (.ok, some pQ, kernel)
  | (none, kernel) => (.mem, none, kernel)

/-- The assignment to the parameter has no effect outside the function. -/
def sysMboxFree (kernel : Kernel (Posted Message)) (pQ : Nat) : Kernel (Posted Message) :=
  (kernel.osQDel pQ).2

/-- One pass of the loop of `sys_mbox_post`. The result says that the loop ends. -/
def sysMboxPost (kernel : Kernel (Posted Message)) (pQ : Nat) (msg : Option Message) :
    Bool × Kernel (Posted Message) :=
  let posted := kernel.osQPost pQ (.ofPointer msg)
  (posted.1 == osErrNone, posted.2)

def sysMboxTrypost (kernel : Kernel (Posted Message)) (pQ : Nat) (msg : Option Message) :
    ErrT × Kernel (Posted Message) :=
  let posted := kernel.osQPost pQ (.ofPointer msg)
  (if posted.1 = osErrNone then .ok else .mem, posted.2)

/-- `sys_arch_mbox_fetch` up to the wait. Without a message the task waits. -/
def sysArchMboxFetch (kernel : Kernel (Posted Message)) (pQ prio : Nat) :
    Option (Option Message) × Kernel (Posted Message) :=
  let (_, message, kernel) := kernel.osQPend pQ prio
  (message.map Posted.pointer, kernel)

/-- `sys_mbox_valid` compares the number of messages with the size. -/
def sysMboxValid (kernel : Kernel (Posted Message)) (pQ : Nat) : Nat :=
  let (ucErr, qData) := kernel.osQQuery pQ { osNMsgs := 0, osQSize := 0 }
  if ucErr < 2 ∧ qData.osNMsgs < qData.osQSize then 1 else 0

/-- The assignment to the parameter has no effect outside the function. -/
def sysMboxSetInvalid (kernel : Kernel (Posted Message)) (_pQ : Nat) : Kernel (Posted Message) :=
  kernel

end Calls

/-- The kernel, and as history a handle for each mailbox and semaphore that was created. The value
of a handle is the queue of its own mailbox, and it ends with the free. -/
structure Mailboxes (Message : Type) where
  kernel : Kernel (Posted Message)
  handles : List (Handle (OsEvent (Posted Message)))

/-- A task calls a function of `sys_arch.c`. The index selects a mailbox or a semaphore. -/
inductive MailboxEvent (Message : Type) where
  | mboxNew (size : Int)
  | mboxPost (index : Nat) (msg : Option Message)
  | mboxTrypost (index : Nat) (msg : Option Message)
  | mboxFetch (index prio : Nat)
  | mboxFetchTimeout (index prio : Nat)
  | mboxFree (index : Nat)
  | mboxSetInvalid (index : Nat)
  | semNew
  | semFree (index : Nat)

namespace Mailboxes
variable {Message : Type}

/-- No mailbox exists after `OSInit`. -/
def start : Mailboxes Message where
  kernel := .osInit
  handles := []

/-- A mailbox that has not been freed has its block and its queue. -/
def queueAt (state : Mailboxes Message) (index : Nat) : Option (Nat × OsQ (Posted Message)) :=
  match state.handles[index]? with
  | some { block := pQ, value := some (.q queue) } => some (pQ, queue)
  | _ => none

/-- A semaphore that has not been freed has its block. -/
def semAt (state : Mailboxes Message) (index : Nat) : Option Nat :=
  match state.handles[index]? with
  | some { block := pevent, value := some .sem } => some pevent
  | _ => none

/-- A mailbox or a semaphore that has been freed keeps the number of its block. -/
def freedAt (state : Mailboxes Message) (index : Nat) : Option Nat :=
  match state.handles[index]? with
  | some { block := pevent, value := none } => some pevent
  | _ => none

/-- A creation that succeeds adds a handle. -/
def created (state : Mailboxes Message) (event : OsEvent (Posted Message)) :
    Option Nat × Kernel (Posted Message) → Mailboxes Message
  | (none, kernel) => { state with kernel := kernel }
  | (some pevent, kernel) =>
      { kernel := kernel, handles := state.handles ++ [{ block := pevent, value := some event }] }

/-- A call changes the kernel and the queue of its mailbox. -/
def changed (state : Mailboxes Message) (index pQ : Nat) (value : Option (OsEvent (Posted Message)))
    (kernel : Kernel (Posted Message)) : Mailboxes Message where
  kernel := kernel
  handles := state.handles.set index { block := pQ, value := value }

end Mailboxes

/-- This system takes the calls in any order. A mailbox takes posts, fetches and a free until its
free. -/
def mailboxSystem (Message : Type) : System (Mailboxes Message) (MailboxEvent Message) where
  step state event :=
    match event with
    | .mboxNew size =>
        some (state.created (.q (.create (mboxSize size))) (sysMboxNew state.kernel size).2)
    | .mboxPost index msg =>
        (state.queueAt index).map fun (pQ, queue) =>
          state.changed index pQ (some (.q (queue.post (.ofPointer msg)).2))
            (sysMboxPost state.kernel pQ msg).2
    | .mboxTrypost index msg =>
        (state.queueAt index).map fun (pQ, queue) =>
          state.changed index pQ (some (.q (queue.post (.ofPointer msg)).2))
            (sysMboxTrypost state.kernel pQ msg).2
    | .mboxFetch index prio =>
        (state.queueAt index).map fun (pQ, queue) =>
          state.changed index pQ (some (.q (queue.pend prio).2))
            (sysArchMboxFetch state.kernel pQ prio).2
    | .mboxFetchTimeout index prio =>
        (state.queueAt index).map fun (pQ, queue) =>
          state.changed index pQ (some (.q (queue.eventTaskRemove prio)))
            (state.kernel.osQPendTimeout pQ prio)
    | .mboxFree index =>
        (state.queueAt index).map fun (pQ, _) =>
          state.changed index pQ none (sysMboxFree state.kernel pQ)
    | .mboxSetInvalid index =>
        state.handles[index]?.map fun handle =>
          { state with kernel := sysMboxSetInvalid state.kernel handle.block }
    | .semNew => some (state.created .sem state.kernel.osSemCreate)
    | .semFree index =>
        (state.semAt index).map fun pevent =>
          state.changed index pevent none (state.kernel.osSemDel pevent).2

end NnpCamera.Mailbox
