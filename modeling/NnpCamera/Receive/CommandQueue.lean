/-
This file models how `udp_thread` hands commands over to `udp_dataprocess_task`, and shows that
no command is lost, repeated or left waiting.
-/

import NnpCamera.Fifo.LineFifo
import NnpCamera.Library.Consumer
import NnpCamera.Library.Runs
import NnpCamera.Receive.Datagrams

namespace NnpCamera.Receive
open Library Parameters
open Fifo (LineFifo Represents osSemPost)

/-- The command task consumes the receive FIFO under the semaphore `msg_netrecvok`. The list of
enqueued blocks is history. -/
structure CommandQueue where
  processor : Consumer netrecvFifoNum Block
  netrecvLineBuf : Block
  enqueued : List Block

/-- A datagram arrives, or the command task takes its next step. -/
inductive CommandEvent where
  | datagram (chain : List (List UInt8))
  | udpDataprocess (step : ConsumerStep)

/-- The receiver as it starts on a datagram. -/
def CommandQueue.receiver (state : CommandQueue) : Receiver :=
  ⟨state.netrecvLineBuf, state.processor.ring, 0⟩

/-- The critical section of `udp_thread` enqueues the lines of one datagram and posts. -/
def CommandQueue.datagram (state : CommandQueue) (chain : List (List UInt8)) : CommandQueue where
  processor := { state.processor with
    ring := (receiveDatagram state.receiver chain).fifo
    semaphore := osSemPost^[(receiveDatagram state.receiver chain).posts]
      state.processor.semaphore }
  netrecvLineBuf := (receiveDatagram state.receiver chain).netrecvLineBuf
  enqueued := state.enqueued ++ state.receiver.enqueued chain

/-- The link stays up. A datagram takes one step, and each read of the command task is apart from
its pend and from its copy. -/
def commandQueue : System CommandQueue CommandEvent where
  step state event :=
    match event with
    | .datagram chain => some (state.datagram chain)
    | .udpDataprocess step =>
        (state.processor.step step).map fun processor => { state with processor := processor }

/-- Both tasks start with an empty FIFO and no token. -/
def startQueue (line : Block) (slots : Nat → Block) : CommandQueue where
  processor := ⟨⟨0, 0, slots, netrecvFifoNum_pos, netrecvFifoNum_pos⟩, 0, .pend, []⟩
  netrecvLineBuf := line
  enqueued := []

/-- The FIFO functions of the code enqueue the line of one pbuf. -/
def linePbuf (receiver : Receiver) (fifo : LineFifo) (payload : List UInt8) : LineFifo :=
  let line := storePbuf receiver.netrecvLineBuf payload
  if Accepted line then (Fifo.netrecvFifoWrite fifo line).1 else fifo

/-- The FIFO functions of the code enqueue the lines of one datagram. -/
def lineDatagram : Receiver → LineFifo → List (List UInt8) → LineFifo
  | _, fifo, [] => fifo
  | receiver, fifo, payload :: rest =>
      lineDatagram (receivePbuf receiver payload) (linePbuf receiver fifo payload) rest

/-- The FIFO functions of the code move the FIFO in a step of the queue. -/
def CommandQueue.lineStep (state : CommandQueue) (fifo : LineFifo) : CommandEvent → LineFifo
  | .datagram chain => lineDatagram state.receiver fifo chain
  | .udpDataprocess .read => (Fifo.netrecvFifoRead fifo).1
  | .udpDataprocess _ => fifo

/-- This system moves the queue together with the FIFO of the code. -/
def lineCommandQueue : System (CommandQueue × LineFifo) CommandEvent where
  step both event :=
    (commandQueue.step both.1 event).map fun after => (after, both.1.lineStep both.2 event)

/-- After a datagram the FIFO of the code is the ring of the receiver. -/
theorem lineDatagram_represents (receiver : Receiver) {fifo : LineFifo}
    (same : Represents fifo receiver.fifo) (chain : List (List UInt8)) :
    Represents (lineDatagram receiver fifo chain) (receiveDatagram receiver chain).fifo := by
  induction chain generalizing receiver fifo with
  | nil => exact same
  | cons payload rest ih =>
      apply ih
      unfold linePbuf receivePbuf
      dsimp only
      split
      next => exact @Represents.afterWrite Fifo.netrecvFifoNum _ _ same _
      next => exact same

/-- In each run the FIFO of the code stays the ring of the queue. -/
theorem lineCommandQueue_represents {line : Block} {slots : Nat → Block}
    {both : CommandQueue × LineFifo}
    (reached : lineCommandQueue.Reachable (startQueue line slots, ⟨0, 0, slots⟩) both) :
    Represents both.2 both.1.processor.ring := by
  apply reached.invariant ⟨rfl, rfl, rfl⟩
  intro before event after same _ stepped
  obtain ⟨state, moved, rfl⟩ := Option.map_eq_some_iff.mp stepped
  cases event with
  | datagram chain =>
      obtain rfl := Option.some.inj moved
      exact lineDatagram_represents before.1.receiver same chain
  | udpDataprocess step =>
      obtain ⟨processor, taken, rfl⟩ := Option.map_eq_some_iff.mp moved
      have ring := Consumer.step_ring taken
      cases step with
      | pend => exact ring ▸ same
      | read => exact ring ▸ @Represents.afterRead Fifo.netrecvFifoNum _ _ same
      | copy => exact ring ▸ same

/-- The receiver appends to the FIFO, posts at least once for each line, and leaves the slot that
was read last. -/
structure Appends (before after : Receiver) : Prop where
  contents : before.fifo.contents <+: after.fifo.contents
  posted : after.fifo.contents.length + before.posts ≤ before.fifo.contents.length + after.posts
  position : after.fifo.rdpos = before.fifo.rdpos
  slot : after.fifo.slots before.fifo.rdpos = before.fifo.slots before.fifo.rdpos

theorem Appends.trans {first second third : Receiver} (one : Appends first second)
    (two : Appends second third) : Appends first third where
  contents := one.contents.trans two.contents
  posted := by
    have oneBound := one.posted
    have twoBound := two.posted
    omega
  position := two.position.trans one.position
  slot := by
    have kept := two.slot
    rw [one.position] at kept
    exact kept.trans one.slot

/-- A pbuf that is accepted appends one line or finds the FIFO full. -/
theorem receivePbuf_appends (receiver : Receiver) (payload : List UInt8) :
    Appends receiver (receivePbuf receiver payload) := by
  unfold receivePbuf
  dsimp only
  split
  · generalize storePbuf receiver.netrecvLineBuf payload = line
    cases wrote : receiver.fifo.write line with
    | none =>
        have kept : netrecvFifoWrite receiver.fifo line = receiver.fifo := by
          rw [netrecvFifoWrite, wrote]
          rfl
        rw [kept]
        exact ⟨List.prefix_rfl, by dsimp only; omega, rfl, rfl⟩
    | some after =>
        have stored : netrecvFifoWrite receiver.fifo line = after := by
          rw [netrecvFifoWrite, wrote]
          rfl
        have room : receiver.fifo.count + 1 < netrecvFifoNum := by
          by_contra full
          rw [receiver.fifo.write_full line full] at wrote
          simp at wrote
        obtain ⟨other, same, appended, _⟩ := receiver.fifo.write_contents line room
        obtain rfl : other = after := Option.some.inj (same.symm.trans wrote)
        obtain ⟨position, slot⟩ := Ring.write_slot wrote
        rw [stored]
        refine ⟨⟨[line], appended.symm⟩, ?_, position, slot⟩
        dsimp only
        rw [appended, List.length_append, List.length_singleton]
        omega
  · exact ⟨List.prefix_rfl, le_rfl, rfl, rfl⟩

/-- A datagram does as its pbufs do. -/
theorem receiveDatagram_appends (receiver : Receiver) (chain : List (List UInt8)) :
    Appends receiver (receiveDatagram receiver chain) := by
  induction chain generalizing receiver with
  | nil => exact ⟨List.prefix_rfl, le_rfl, rfl, rfl⟩
  | cons payload rest ih => exact (receivePbuf_appends receiver payload).trans (ih _)

/-- The executed blocks, the line in flight and the stored lines are the enqueued blocks. Tokens
and granted pends cover the stored lines. -/
structure HandedOver (state : CommandQueue) : Prop where
  order : state.processor.passed = state.enqueued
  follows : state.processor.Follows
  covered : state.processor.ring.contents.length ≤ state.processor.tokens

theorem HandedOver.start (line : Block) (slots : Nat → Block) :
    HandedOver (startQueue line slots) where
  order := rfl
  follows slot copying := by simp [startQueue] at copying
  covered := Nat.le_refl 0

/-- A datagram keeps the lines in order and adds a token for each new line. -/
theorem HandedOver.datagram {state : CommandQueue} (handed : HandedOver state)
    (chain : List (List UInt8)) : HandedOver (state.datagram chain) := by
  have appends := receiveDatagram_appends state.receiver chain
  obtain ⟨more, appended⟩ := appends.contents
  obtain ⟨passed, follows⟩ := handed.follows.produce (receiveDatagram state.receiver chain).fifo
    (osSemPost^[(receiveDatagram state.receiver chain).posts] state.processor.semaphore)
    appends.position appends.slot
  constructor
  · have lines : state.receiver.enqueued chain = more := by
      rw [Receiver.enqueued, ← appended, List.drop_left]
    calc (state.datagram chain).processor.passed
      _ = state.processor.taken ++ state.processor.inFlight ++
          (receiveDatagram state.receiver chain).fifo.contents := passed
      _ = state.processor.passed ++ more := by
        rw [← appended, ← List.append_assoc]
        rfl
      _ = state.enqueued ++ state.receiver.enqueued chain := by rw [handed.order, lines]
  · exact follows
  · have posts : min 65535
        (state.processor.semaphore + (receiveDatagram state.receiver chain).posts) ≤
          osSemPost^[(receiveDatagram state.receiver chain).posts] state.processor.semaphore :=
      semaphorePost_iterate 65535 _ _
    have bound : (receiveDatagram state.receiver chain).fifo.count < 60 := Ring.count_lt _
    have posted : (receiveDatagram state.receiver chain).fifo.count + 0 ≤
        state.processor.ring.count + (receiveDatagram state.receiver chain).posts := by
      rw [← Ring.contents_length, ← Ring.contents_length]
      exact appends.posted
    have covered := handed.covered
    rw [Ring.contents_length] at covered ⊢
    change (receiveDatagram state.receiver chain).fifo.count ≤ _
    unfold Consumer.tokens at covered ⊢
    simp only [CommandQueue.datagram]
    cases point : state.processor.point <;> simp only [point] at covered ⊢ <;> omega

/-- Each step of the command task keeps the hand-over in order. -/
theorem HandedOver.processor {state : CommandQueue} {step : ConsumerStep}
    {processor : Consumer netrecvFifoNum Block} (handed : HandedOver state)
    (stepped : state.processor.step step = some processor) :
    HandedOver { state with processor := processor } := by
  obtain ⟨passed, follows, takes⟩ := Consumer.step_passed stepped
  exact ⟨passed.trans handed.order, follows, takes.covered handed.covered⟩

/-- Each step keeps the hand-over in order. -/
theorem HandedOver.step {state after : CommandQueue} {event : CommandEvent}
    (handed : HandedOver state) (stepped : commandQueue.step state event = some after) :
    HandedOver after := by
  cases event with
  | datagram chain =>
      obtain rfl : state.datagram chain = after := Option.some.inj stepped
      exact handed.datagram chain
  | udpDataprocess step =>
      obtain ⟨processor, moved, rfl⟩ := Option.map_eq_some_iff.mp stepped
      exact handed.processor moved

end NnpCamera.Receive
