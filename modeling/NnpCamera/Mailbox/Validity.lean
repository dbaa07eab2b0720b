/-
This file shows what `sys_mbox_valid` answers in each reachable state, and what this means for
`netconn_recv`.
-/

import NnpCamera.Connection.Tasks
import NnpCamera.Mailbox.SysArch

namespace NnpCamera.Mailbox
open Library
open Library.Pool (LiveAt Tracks)
open Image (ErrT)
open Connection (Closing Link Pointer)

section Answer
variable {Message : Type}

/-- A mailbox is valid exactly when its block is a queue with room. -/
theorem sysMboxValid_eq_one_iff (kernel : Kernel (Posted Message)) (pQ : Nat) :
    sysMboxValid kernel pQ = 1 ↔
      ∃ queue, kernel.osEventTbl.contents pQ = some (.q queue) ∧ ¬ queue.Full := by
  unfold sysMboxValid Kernel.osQQuery
  cases content : kernel.osEventTbl.contents pQ with
  | none => simp
  | some event =>
      cases event with
      | sem => simp
      | q queue => simp [OsQ.not_full_iff, osErrNone]

/-- `sys_mbox_valid` answers 0 or 1. -/
theorem sysMboxValid_eq_zero_iff (kernel : Kernel (Posted Message)) (pQ : Nat) :
    sysMboxValid kernel pQ = 0 ↔ ¬ sysMboxValid kernel pQ = 1 := by
  unfold sysMboxValid
  dsimp only
  split
  next => simp
  next => simp

end Answer

namespace Mailboxes
variable {Message : Type} {state after : Mailboxes Message}

/-- The handles account for the event control blocks of the kernel. -/
def Accounted (state : Mailboxes Message) : Prop := state.kernel.osEventTbl.Tracks state.handles

theorem queueAt_live {index pQ : Nat} {queue : OsQ (Posted Message)}
    (found : state.queueAt index = some (pQ, queue)) :
    LiveAt state.handles index pQ (.q queue) := by
  unfold queueAt at found
  split at found
  next handle =>
    obtain ⟨rfl, rfl⟩ := Prod.mk.inj (Option.some.inj found)
    exact handle
  next => contradiction

theorem live_queueAt {index pQ : Nat} {queue : OsQ (Posted Message)}
    (live : LiveAt state.handles index pQ (.q queue)) :
    state.queueAt index = some (pQ, queue) := by
  unfold queueAt
  rw [live]

theorem semAt_live {index pevent : Nat} (found : state.semAt index = some pevent) :
    LiveAt state.handles index pevent .sem := by
  unfold semAt at found
  split at found
  next handle =>
    obtain rfl := Option.some.inj found
    exact handle
  next => contradiction

namespace Accounted

theorem start : (Mailboxes.start : Mailboxes Message).Accounted := Tracks.initial osMaxEvents

/-- A creation keeps the account. -/
theorem mboxNew (accounted : state.Accounted) (size : Int) :
    (state.created (.q (.create (mboxSize size))) (sysMboxNew state.kernel size).2).Accounted := by
  unfold sysMboxNew Kernel.osQCreate
  cases taken : state.kernel.osEventTbl.allocate (.q (.create (mboxSize size))) with
  | none => exact accounted
  | some block =>
      obtain ⟨pQ, osEventTbl⟩ := block
      by_cases empty : state.kernel.osQFree = 0
      · simp only [if_pos empty]
        exact accounted
      · simp only [if_neg empty]
        exact accounted.allocate taken

theorem semNew (accounted : state.Accounted) :
    (state.created .sem state.kernel.osSemCreate).Accounted := by
  unfold Kernel.osSemCreate
  cases taken : state.kernel.osEventTbl.allocate .sem with
  | none => exact accounted
  | some block => exact accounted.allocate taken

/-- A call that stores the new queue of a mailbox in its block keeps the account. -/
theorem queueChanged (accounted : state.Accounted) {index pQ : Nat}
    {queue : OsQ (Posted Message)} (live : LiveAt state.handles index pQ (.q queue))
    {value : OsQ (Posted Message)} {kernel : Kernel (Posted Message)}
    (stored : kernel.osEventTbl = state.kernel.osEventTbl.store pQ (.q value)) :
    (state.changed index pQ (some (.q value)) kernel).Accounted := by
  show kernel.osEventTbl.Tracks _
  rw [stored]
  exact accounted.store live (.q value)

/-- A call that releases the block of a handle keeps the account. -/
theorem released (accounted : state.Accounted) {index pevent : Nat}
    {event : OsEvent (Posted Message)} (live : LiveAt state.handles index pevent event)
    {kernel : Kernel (Posted Message)}
    (released : kernel.osEventTbl = state.kernel.osEventTbl.release pevent) :
    (state.changed index pevent none kernel).Accounted := by
  show kernel.osEventTbl.Tracks _
  rw [released]
  exact accounted.release live

/-- Each step keeps the account. -/
theorem step {event : MailboxEvent Message} (accounted : state.Accounted)
    (stepped : (mailboxSystem Message).step state event = some after) : after.Accounted := by
  cases event with
  | mboxNew size =>
      obtain rfl := Option.some.inj stepped
      exact accounted.mboxNew size
  | mboxPost index msg =>
      obtain ⟨⟨pQ, queue⟩, found, rfl⟩ := Option.map_eq_some_iff.mp stepped
      have live := queueAt_live found
      have content := accounted.holds _ _ _ live
      exact accounted.queueChanged live (by simp [sysMboxPost, Kernel.osQPost, content])
  | mboxTrypost index msg =>
      obtain ⟨⟨pQ, queue⟩, found, rfl⟩ := Option.map_eq_some_iff.mp stepped
      have live := queueAt_live found
      have content := accounted.holds _ _ _ live
      exact accounted.queueChanged live (by simp [sysMboxTrypost, Kernel.osQPost, content])
  | mboxFetch index prio =>
      obtain ⟨⟨pQ, queue⟩, found, rfl⟩ := Option.map_eq_some_iff.mp stepped
      have live := queueAt_live found
      have content := accounted.holds _ _ _ live
      exact accounted.queueChanged live (by simp [sysArchMboxFetch, Kernel.osQPend, content])
  | mboxFetchTimeout index prio =>
      obtain ⟨⟨pQ, queue⟩, found, rfl⟩ := Option.map_eq_some_iff.mp stepped
      have live := queueAt_live found
      have content := accounted.holds _ _ _ live
      exact accounted.queueChanged live (by simp [Kernel.osQPendTimeout, content])
  | mboxFree index =>
      obtain ⟨⟨pQ, queue⟩, found, rfl⟩ := Option.map_eq_some_iff.mp stepped
      have live := queueAt_live found
      have content := accounted.holds _ _ _ live
      exact accounted.released live (by simp [sysMboxFree, Kernel.osQDel, content])
  | mboxSetInvalid index =>
      obtain ⟨handle, _, rfl⟩ := Option.map_eq_some_iff.mp stepped
      exact accounted
  | semNew =>
      obtain rfl := Option.some.inj stepped
      exact accounted.semNew
  | semFree index =>
      obtain ⟨pevent, found, rfl⟩ := Option.map_eq_some_iff.mp stepped
      have live := semAt_live found
      have content := accounted.holds _ _ _ live
      exact accounted.released live (by simp [Kernel.osSemDel, content])

/-- Each run keeps the account. -/
theorem reaches (reached : (mailboxSystem Message).Reachable .start state) : state.Accounted :=
  reached.invariant start fun _ _ _ accounted _ stepped => accounted.step stepped

/-- A mailbox that has not been freed is valid as long as it has room. -/
theorem valid_queueAt (accounted : state.Accounted) {index pQ : Nat}
    {queue : OsQ (Posted Message)} (found : state.queueAt index = some (pQ, queue)) :
    sysMboxValid state.kernel pQ = 1 ↔ ¬ queue.Full := by
  have content := accounted.holds _ _ _ (queueAt_live found)
  rw [sysMboxValid_eq_one_iff, content]
  simp

/-- A block answers for the mailbox that holds it now. -/
theorem valid_block (accounted : state.Accounted) (pQ : Nat) :
    sysMboxValid state.kernel pQ = 1 ↔
      ∃ index queue, state.queueAt index = some (pQ, queue) ∧ ¬ queue.Full := by
  rw [sysMboxValid_eq_one_iff]
  constructor
  · rintro ⟨queue, content, room⟩
    obtain ⟨index, live⟩ := (accounted.contents_iff pQ (.q queue)).mp content
    exact ⟨index, queue, live_queueAt live, room⟩
  · rintro ⟨index, queue, found, room⟩
    exact ⟨queue, (accounted.contents_iff pQ (.q queue)).mpr ⟨index, queueAt_live found⟩, room⟩

end Accounted
end Mailboxes

/-- `ERR_IS_FATAL` holds of the results below `ERR_ISCONN`. -/
def errIsFatal : ErrT → Bool
  | .abrt => true
  | .rst => true
  | .clsd => true
  | .conn => true
  | .arg => true
  | .netif => true
  | _ => false

/-- `netconn_recv_data` of a UDP connection, with the answer of its `sys_mbox_valid`. -/
def netconnRecvData (valid : Nat) (lastErr : ErrT) (timeout : Bool) : ErrT :=
  if valid = 0 then .conn
  else if errIsFatal lastErr then lastErr
  else if timeout then .timeout
  else .ok

/-- `netconn_recv` asks `sys_mbox_valid` before `netconn_recv_data` asks again. -/
def netconnRecv (valid validData : Nat) (lastErr : ErrT) (timeout : Bool) : ErrT :=
  if valid = 0 then .conn else netconnRecvData validData lastErr timeout

/-- Without an earlier error that closes the connection, `netconn_recv` closes it exactly when one
of the answers is 0. -/
theorem closing_netconnRecv {valid validData : Nat} {lastErr : ErrT} (sound : ¬ Closing lastErr)
    (timeout : Bool) :
    Closing (netconnRecv valid validData lastErr timeout) ↔ valid = 0 ∨ validData = 0 := by
  unfold netconnRecv netconnRecvData
  by_cases first : valid = 0
  · simp [first, Closing]
  · by_cases second : validData = 0
    · simp [first, second, Closing]
    · simp only [first, second, or_self, if_false, iff_false]
      split
      next => exact sound
      next => cases timeout <;> simp [Closing]

/-- `udp_thread` leaves its receive loop exactly on a result that closes the connection. -/
theorem recv_testClosing {link : Link} {argument : Pointer}
    (point : link.thread = .pass .recv argument) (result : ErrT) :
    (link.udpThread result).thread = .testClosing ↔ Closing result := by
  simp only [Link.udpThread, Link.threadReturn, point]
  split
  next closing => simp [closing]
  next other => simp [other]

/-- A mailbox is valid until its free exactly while it has room, and invalid after its free exactly
while no other mailbox with room has its block. So `udp_thread` closes its connection exactly when
one of the two answers in `netconn_recv` finds the mailbox full. -/
theorem mailbox_validity {Message : Type} {state : Mailboxes Message}
    (reached : (mailboxSystem Message).Reachable .start state) (index pQ : Nat) :
    (∀ queue, state.queueAt index = some (pQ, queue) →
      (sysMboxValid state.kernel pQ = 1 ↔ ¬ queue.Full)) ∧
    (state.freedAt index = some pQ →
      (sysMboxValid state.kernel pQ = 0 ↔
        ∀ other queue, state.queueAt other = some (pQ, queue) → queue.Full)) ∧
    ∀ later, (mailboxSystem Message).Reachable state later →
      ∀ queue laterQueue, state.queueAt index = some (pQ, queue) →
        later.queueAt index = some (pQ, laterQueue) →
        ∀ lastErr timeout, ¬ Closing lastErr →
          ∀ (link : Link) (argument : Pointer), link.thread = .pass .recv argument →
            ((link.udpThread (netconnRecv (sysMboxValid state.kernel pQ)
              (sysMboxValid later.kernel pQ) lastErr timeout)).thread = .testClosing ↔
                queue.Full ∨ laterQueue.Full) := by
  have accounted := Mailboxes.Accounted.reaches reached
  refine ⟨fun queue found => accounted.valid_queueAt found, fun _ => ?_, ?_⟩
  · rw [sysMboxValid_eq_zero_iff, accounted.valid_block]
    push Not
    rfl
  · intro later continued queue laterQueue found laterFound lastErr timeout sound link argument point
    have laterAccounted := Mailboxes.Accounted.reaches (reached.trans continued)
    have first := accounted.valid_queueAt found
    have second := laterAccounted.valid_queueAt laterFound
    rw [recv_testClosing point, closing_netconnRecv sound, sysMboxValid_eq_zero_iff,
      sysMboxValid_eq_zero_iff, first, second, not_not, not_not]

/-- A mailbox of the size that lwIP asks for, with one datagram. -/
def oneDatagram : List (MailboxEvent Nat) := [.mboxNew 2000, .mboxTrypost 0 (some 7)]

/-- A mailbox with one datagram is valid. -/
theorem mailbox_validity_oneDatagram :
    ∃ state pQ queue, (mailboxSystem Nat).Reachable .start state ∧
      state.queueAt 0 = some (pQ, queue) ∧ queue.messages.length = 1 ∧
      sysMboxValid state.kernel pQ = 1 := by
  have ran : ((mailboxSystem Nat).run .start oneDatagram).any (fun state =>
      (state.queueAt 0).any fun found =>
        decide (found.2.messages.length = 1 ∧ ¬ found.2.Full)) = true := by
    decide +kernel
  obtain ⟨state, final, checked⟩ := (Option.any_eq_true _ _).mp ran
  obtain ⟨⟨pQ, queue⟩, found, held⟩ := (Option.any_eq_true _ _).mp checked
  obtain ⟨one, room⟩ := of_decide_eq_true held
  have reached := System.run_reachable _ _ _ final
  exact ⟨state, pQ, queue, reached, found, one,
    ((mailbox_validity reached 0 pQ).1 queue found).mpr room⟩

/-- Twenty datagrams arrive before `udp_thread` fetches one. -/
def burst : List (MailboxEvent Nat) :=
  .mboxNew 2000 :: List.replicate 20 (.mboxTrypost 0 (some 7))

/-- A mailbox is freed and another one is created. -/
def reuse : List (MailboxEvent Nat) := [.mboxNew 2000, .mboxFree 0, .mboxSetInvalid 0, .mboxNew 20]

/-- After a burst the mailbox is invalid and `netconn_recv` returns `ERR_CONN`. After a reuse of its
block the freed mailbox is valid. -/
theorem mailbox_invalid_when_full :
    (∃ state pQ queue, (mailboxSystem Nat).Reachable .start state ∧
      state.queueAt 0 = some (pQ, queue) ∧ queue.messages.length = 20 ∧
      sysMboxValid state.kernel pQ = 0 ∧
      ∀ validData lastErr timeout,
        netconnRecv (sysMboxValid state.kernel pQ) validData lastErr timeout = .conn) ∧
    ∃ state pQ, (mailboxSystem Nat).Reachable .start state ∧ state.freedAt 0 = some pQ ∧
      sysMboxValid state.kernel pQ = 1 := by
  constructor
  · have ran : ((mailboxSystem Nat).run .start burst).any (fun state =>
        (state.queueAt 0).any fun found =>
          decide (found.2.messages.length = 20 ∧ sysMboxValid state.kernel found.1 = 0)) = true := by
      decide +kernel
    obtain ⟨state, final, checked⟩ := (Option.any_eq_true _ _).mp ran
    obtain ⟨⟨pQ, queue⟩, found, held⟩ := (Option.any_eq_true _ _).mp checked
    obtain ⟨twenty, zero⟩ := of_decide_eq_true held
    refine ⟨state, pQ, queue, System.run_reachable _ _ _ final, found, twenty, zero, ?_⟩
    intro validData lastErr timeout
    rw [netconnRecv, if_pos zero]
  · have ran : ((mailboxSystem Nat).run .start reuse).any (fun state =>
        (state.freedAt 0).any fun pQ => sysMboxValid state.kernel pQ == 1) = true := by
      decide +kernel
    obtain ⟨state, final, checked⟩ := (Option.any_eq_true _ _).mp ran
    obtain ⟨pQ, freed, valid⟩ := (Option.any_eq_true _ _).mp checked
    exact ⟨state, pQ, System.run_reachable _ _ _ final, freed, eq_of_beq valid⟩

end NnpCamera.Mailbox
