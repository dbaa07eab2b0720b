/-
This file models the two FIFOs of 76-byte lines and shows that each is a bounded queue.
-/

import NnpCamera.Library.Ring
import NnpCamera.Library.Semaphore
import NnpCamera.Parameters.Packet

namespace NnpCamera.Fifo
open Library Parameters

/-- A FIFO has a read position, a write position and the lines that its pointers name. -/
structure LineFifo where
  fifordpos : UInt16
  fifowrpos : UInt16
  fifobuf : Nat → Block

section Operations
variable (num : UInt16)

/-- The read position advances first and names the slot whose address the caller gets. -/
def fifoRead (fifo : LineFifo) : LineFifo × Option UInt16 :=
  if fifo.fifordpos = fifo.fifowrpos then (fifo, none)
  else
    let fifo := { fifo with fifordpos := fifo.fifordpos + 1 }
    let fifo := if num ≤ fifo.fifordpos then { fifo with fifordpos := 0 } else fifo
    (fifo, some fifo.fifordpos)

/-- The write position advances first. It is put back when it meets the read position, and the
result is 1. -/
def fifoReserve (fifo : LineFifo) : LineFifo × UInt8 :=
  let temp := fifo.fifowrpos
  let fifo := { fifo with fifowrpos := fifo.fifowrpos + 1 }
  let fifo := if num ≤ fifo.fifowrpos then { fifo with fifowrpos := 0 } else fifo
  if fifo.fifordpos = fifo.fifowrpos then ({ fifo with fifowrpos := temp }, 1) else (fifo, 0)

/-- The copy loop fills the slot at the write position. -/
def fifoCopy (fifo : LineFifo) (buf : Block) : LineFifo :=
  { fifo with fifobuf := Function.update fifo.fifobuf fifo.fifowrpos.toNat buf }

/-- A write reserves a slot and then fills it. -/
def fifoWrite (fifo : LineFifo) (buf : Block) : LineFifo × UInt8 :=
  let reserved := fifoReserve num fifo
  if reserved.2 = 0 then (fifoCopy reserved.1 buf, 0) else (reserved.1, 1)

end Operations

/-- Each FIFO has a semaphore, whose count has 16 bits. -/
def osSemPost : Nat → Nat := semaphorePost 65535

/-- `NETSEND_FIFO_NUM` counts the slots of the send FIFO. -/
def netsendFifoNum : UInt16 := 60

/-- `NETRECV_FIFO_NUM` counts the slots of the receive FIFO. -/
def netrecvFifoNum : UInt16 := 60

def netsendFifoRead : LineFifo → LineFifo × Option UInt16 := fifoRead netsendFifoNum

def netsendFifoWrite : LineFifo → Block → LineFifo × UInt8 := fifoWrite netsendFifoNum

def netrecvFifoRead : LineFifo → LineFifo × Option UInt16 := fifoRead netrecvFifoNum

def netrecvFifoWrite : LineFifo → Block → LineFifo × UInt8 := fifoWrite netrecvFifoNum

/-- The callers see the line behind a returned address and whether a write succeeded. -/
def fifoMachine (read : LineFifo → LineFifo × Option UInt16)
    (write : LineFifo → Block → LineFifo × UInt8) :
    Machine LineFifo (QueueCall Block) (QueueResult Block) where
  step fifo call :=
    match call with
    | .read =>
        let got := read fifo
        (got.1, .value (got.2.map fun slot => got.1.fifobuf slot.toNat))
    | .write buf =>
        let wrote := write fifo buf
        (wrote.1, .stored (wrote.2 == 0))

/-- A FIFO is a bounded queue. A refused write and an empty read change nothing, and later writes
leave the slot that was read last. -/
structure QueueLaw (num : UInt16) (read : LineFifo → LineFifo × Option UInt16)
    (write : LineFifo → Block → LineFifo × UInt8) : Prop where
  results (lines : Nat → Block) (calls : List (QueueCall Block)) :
    (fifoMachine read write).results ⟨0, 0, lines⟩ calls =
      (boundedQueue Block (num.toNat - 1)).results [] calls
  refused (fifo : LineFifo) (buf : Block) : (write fifo buf).2 ≠ 0 → (write fifo buf).1 = fifo
  empty (fifo : LineFifo) : (read fifo).2 = none → (read fifo).1 = fifo
  kept (fifo : LineFifo) (slot : UInt16) (later : List Block) : (read fifo).2 = some slot →
    ((later.foldl (fun fifo buf => (write fifo buf).1) (read fifo).1).fifobuf slot.toNat) =
      (read fifo).1.fifobuf slot.toNat

/-- The positions and lines of a FIFO are those of a ring. -/
structure Represents {size : Nat} (fifo : LineFifo) (ring : Ring size Block) : Prop where
  rdpos : fifo.fifordpos.toNat = ring.rdpos
  wrpos : fifo.fifowrpos.toNat = ring.wrpos
  lines : fifo.fifobuf = ring.slots

section Refinement
variable {num : UInt16} {fifo : LineFifo}

/-- A position of the FIFO advances as a position of the ring does. -/
theorem advance_toNat {position : UInt16} (inside : position.toNat < num.toNat) :
    (if num ≤ position + 1 then 0 else position + 1 : UInt16).toNat =
      Ring.advance num.toNat position.toNat := by
  have bound := num.toNat_lt
  have next : (position + 1).toNat = position.toNat + 1 := by
    rw [UInt16.toNat_add]
    exact Nat.mod_eq_of_lt (by change position.toNat + 1 < 2 ^ 16; omega)
  have wraps : num ≤ position + 1 ↔ num.toNat ≤ position.toNat + 1 := by
    rw [UInt16.le_iff_toNat_le, next]
  rw [Ring.advance]
  by_cases last : num.toNat ≤ position.toNat + 1
  · rw [if_pos last, if_pos (wraps.mpr last)]
    rfl
  · rw [if_neg last, if_neg fun full => last (wraps.mp full)]
    exact next

/-- A read of the FIFO is a read of the ring. -/
theorem Represents.read {ring : Ring num.toNat Block} (same : Represents fifo ring) :
    match ring.read with
    | none => fifoRead num fifo = (fifo, none)
    | some after => ∃ fifo', fifoRead num fifo = (fifo', some fifo'.fifordpos) ∧
        Represents fifo' after := by
  have positions : fifo.fifordpos = fifo.fifowrpos ↔ ring.rdpos = ring.wrpos := by
    rw [← same.rdpos, ← same.wrpos, UInt16.toNat_inj]
  by_cases empty : ring.rdpos = ring.wrpos
  · rw [Ring.read, if_pos empty]
    exact if_pos (positions.mpr empty)
  · obtain ⟨after, got, next, wrpos, slots⟩ := ring.read_eq empty
    have inside : fifo.fifordpos.toNat < num.toNat := by
      rw [same.rdpos]
      exact ring.rdInside
    rw [got]
    refine ⟨{ fifo with fifordpos := if num ≤ fifo.fifordpos + 1 then 0 else fifo.fifordpos + 1 },
      ?_, ?_, ?_, ?_⟩
    · rw [fifoRead, if_neg fun full => empty (positions.mp full)]
      dsimp only
      split <;> rfl
    · rw [advance_toNat inside, next, same.rdpos]
    · rw [wrpos]
      exact same.wrpos
    · rw [slots]
      exact same.lines

/-- A reservation advances the write position unless it meets the read position. -/
theorem fifoReserve_eq (num : UInt16) (fifo : LineFifo) :
    fifoReserve num fifo =
      let next := if num ≤ fifo.fifowrpos + 1 then 0 else fifo.fifowrpos + 1
      if fifo.fifordpos = next then (fifo, 1) else ({ fifo with fifowrpos := next }, 0) := by
  simp only [fifoReserve]
  split <;> rfl

/-- A reservation in the FIFO is a reservation in the ring. -/
theorem Represents.reserve {ring : Ring num.toNat Block} (same : Represents fifo ring) :
    match ring.reserve with
    | none => fifoReserve num fifo = (fifo, 1)
    | some after => ∃ fifo', fifoReserve num fifo = (fifo', 0) ∧ Represents fifo' after := by
  have inside : fifo.fifowrpos.toNat < num.toNat := by
    rw [same.wrpos]
    exact ring.wrInside
  have advanced := advance_toNat inside
  have reserved := fifoReserve_eq num fifo
  generalize (if num ≤ fifo.fifowrpos + 1 then 0 else fifo.fifowrpos + 1 : UInt16) = next
    at advanced reserved
  rw [same.wrpos] at advanced
  have meets : fifo.fifordpos = next ↔ ring.rdpos = Ring.advance num.toNat ring.wrpos := by
    rw [← same.rdpos, ← advanced, UInt16.toNat_inj]
  by_cases full : ring.rdpos = Ring.advance num.toNat ring.wrpos
  · rw [if_pos (meets.mpr full)] at reserved
    rw [Ring.reserve, if_pos full]
    exact reserved
  · rw [if_neg fun equal => full (meets.mp equal)] at reserved
    rw [Ring.reserve, if_neg full]
    exact ⟨{ fifo with fifowrpos := next }, reserved, same.rdpos, advanced, same.lines⟩

/-- The copy loop fills the slot that the ring fills. -/
theorem Represents.copy {ring : Ring num.toNat Block} (same : Represents fifo ring)
    (buf : Block) : Represents (fifoCopy fifo buf) (ring.fill buf) where
  rdpos := same.rdpos
  wrpos := same.wrpos
  lines := by
    change Function.update fifo.fifobuf fifo.fifowrpos.toNat buf = Function.update ring.slots _ buf
    rw [same.wrpos, same.lines]

/-- A write to the FIFO is a write to the ring. -/
theorem Represents.write {ring : Ring num.toNat Block} (same : Represents fifo ring)
    (buf : Block) :
    match ring.write buf with
    | none => fifoWrite num fifo buf = (fifo, 1)
    | some after => ∃ fifo', fifoWrite num fifo buf = (fifo', 0) ∧ Represents fifo' after := by
  have step := same.reserve
  rw [Ring.write_eq_reserve]
  cases reserved : ring.reserve with
  | none =>
      rw [reserved] at step
      simp only [Option.map_none, fifoWrite, step]
      rfl
  | some after =>
      rw [reserved] at step
      obtain ⟨fifo', advanced, next⟩ := step
      exact ⟨fifoCopy fifo' buf, by simp only [fifoWrite, advanced]; rfl, next.copy buf⟩

/-- After a read, also of an empty FIFO, the FIFO is the ring. -/
theorem Represents.afterRead {ring : Ring num.toNat Block} (same : Represents fifo ring) :
    Represents (fifoRead num fifo).1 (ring.read.getD ring) := by
  have step := same.read
  cases got : ring.read with
  | none =>
      rw [got] at step
      rw [step]
      exact same
  | some after =>
      rw [got] at step
      obtain ⟨fifo', read, next⟩ := step
      rw [read]
      exact next

/-- After a write, also to a full FIFO, the FIFO is the ring. -/
theorem Represents.afterWrite {ring : Ring num.toNat Block} (same : Represents fifo ring)
    (buf : Block) : Represents (fifoWrite num fifo buf).1 ((ring.write buf).getD ring) := by
  have step := same.write buf
  cases wrote : ring.write buf with
  | none =>
      rw [wrote] at step
      rw [step]
      exact same
  | some after =>
      rw [wrote] at step
      obtain ⟨fifo', write, next⟩ := step
      rw [write]
      exact next

/-- The FIFO simulates the ring. -/
theorem fifoMachine_simulates (num : UInt16) :
    (fifoMachine (fifoRead num) (fifoWrite num)).Simulates (Ring.machine num.toNat Block)
      Represents := by
  intro fifo ring call same
  cases call with
  | read =>
      have step := same.read
      cases got : ring.read with
      | none =>
          rw [got] at step
          simp only [fifoMachine, Ring.machine, got, step]
          exact ⟨rfl, same⟩
      | some after =>
          rw [got] at step
          obtain ⟨fifo', read, next⟩ := step
          have slot : fifo'.fifobuf fifo'.fifordpos.toNat = after.slots after.rdpos := by
            rw [next.rdpos, next.lines]
          simp only [fifoMachine, Ring.machine, got, read, Option.map_some, slot]
          exact ⟨trivial, next⟩
  | write buf =>
      have step := same.write buf
      cases wrote : ring.write buf with
      | none =>
          rw [wrote] at step
          simp only [fifoMachine, Ring.machine, wrote, step]
          exact ⟨rfl, same⟩
      | some after =>
          rw [wrote] at step
          obtain ⟨fifo', write, next⟩ := step
          simp only [fifoMachine, Ring.machine, wrote, write]
          exact ⟨rfl, next⟩

/-- A write never fills the slot at the read position. -/
theorem fifoWrite_slot (num : UInt16) (fifo : LineFifo) (buf : Block) :
    (fifoWrite num fifo buf).1.fifordpos = fifo.fifordpos ∧
      (fifoWrite num fifo buf).1.fifobuf fifo.fifordpos.toNat =
        fifo.fifobuf fifo.fifordpos.toNat := by
  have reserved := fifoReserve_eq num fifo
  generalize (if num ≤ fifo.fifowrpos + 1 then 0 else fifo.fifowrpos + 1 : UInt16) = next
    at reserved
  by_cases full : fifo.fifordpos = next
  · rw [if_pos full] at reserved
    simp only [fifoWrite, reserved]
    exact ⟨rfl, rfl⟩
  · rw [if_neg full] at reserved
    simp only [fifoWrite, reserved]
    have apart : fifo.fifordpos.toNat ≠ next.toNat := fun same => full (UInt16.toNat_inj.mp same)
    exact ⟨rfl, Function.update_of_ne apart _ _⟩

/-- All later writes leave the slot at the read position. -/
theorem fifoWrite_slots (num : UInt16) (fifo : LineFifo) (later : List Block) :
    (later.foldl (fun fifo buf => (fifoWrite num fifo buf).1) fifo).fifobuf fifo.fifordpos.toNat =
      fifo.fifobuf fifo.fifordpos.toNat := by
  induction later generalizing fifo with
  | nil => rfl
  | cons buf rest ih =>
      obtain ⟨position, slot⟩ := fifoWrite_slot num fifo buf
      have tail := ih (fifoWrite num fifo buf).1
      rw [position, slot] at tail
      exact tail

/-- Each FIFO with a slot is a bounded queue. -/
theorem fifo_queueLaw (num : UInt16) (positive : 0 < num.toNat) :
    QueueLaw num (fifoRead num) (fifoWrite num) where
  results lines calls := by
    let empty : Ring num.toNat Block := ⟨0, 0, lines, positive, positive⟩
    have represents : Represents ⟨0, 0, lines⟩ empty := ⟨rfl, rfl, rfl⟩
    have both := (fifoMachine_simulates num).trans (Ring.machine_simulates num.toNat Block)
    exact both.results_eq ⟨empty, represents, rfl⟩ calls
  refused fifo buf failed := by
    have reserved := fifoReserve_eq num fifo
    by_cases full : fifo.fifordpos = if num ≤ fifo.fifowrpos + 1 then 0 else fifo.fifowrpos + 1
    · simp only [fifoWrite, reserved, if_pos full]
      rfl
    · simp [fifoWrite, reserved, if_neg full] at failed
  empty fifo none := by
    by_cases same : fifo.fifordpos = fifo.fifowrpos
    · rw [fifoRead, if_pos same]
    · simp [fifoRead, same] at none
  kept fifo slot later got := by
    by_cases same : fifo.fifordpos = fifo.fifowrpos
    · simp [fifoRead, same] at got
    · have position : (fifoRead num fifo).1.fifordpos = slot := by
        simpa [fifoRead, same] using got
      rw [← position]
      exact fifoWrite_slots num _ later

end Refinement

/-- Both FIFOs are bounded queues with room for 59 lines. -/
theorem fifos_are_queues : QueueLaw netsendFifoNum netsendFifoRead netsendFifoWrite ∧
    QueueLaw netrecvFifoNum netrecvFifoRead netrecvFifoWrite :=
  ⟨fifo_queueLaw netsendFifoNum (by decide), fifo_queueLaw netrecvFifoNum (by decide)⟩

end NnpCamera.Fifo
