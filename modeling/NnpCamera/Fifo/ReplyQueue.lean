/-
This file models how `udp_dataprocess_task` hands replies over to `udp_send_task`, and says when
only complete replies are sent.
-/

import NnpCamera.Fifo.LineFifo
import NnpCamera.Library.Consumer

namespace NnpCamera.Fifo
open Library Parameters

/-- The replying task writes its next reply, copies it into the slot that it reserved, or posts. -/
inductive ReplierPoint where
  | write
  | copy (line : Block)
  | post

/-- `udp_send_task` consumes the send FIFO under the semaphore `msg_netsendready`. The list of
written blocks is history: it grows when a copy is complete. -/
structure ReplyQueue where
  sender : Consumer netsendFifoNum.toNat Block
  replier : ReplierPoint
  written : List Block

/-- The replying task or `udp_send_task` takes its next step. -/
inductive ReplyEvent where
  | reserve (line : Block)
  | copy
  | post
  | udpSend (step : ConsumerStep)

/-- The position update of a write, the copy of its line and the post are apart. The post follows
a failed write too. -/
def replyQueue : System ReplyQueue ReplyEvent where
  step state event :=
    match event, state.replier with
    | .reserve line, .write =>
        match state.sender.ring.reserve with
        | none => some { state with replier := .post }
        | some ring => some { state with
            sender := { state.sender with ring := ring }, replier := .copy line }
    | .copy, .copy line => some { state with
        sender := { state.sender with ring := state.sender.ring.fill line }
        replier := .post
        written := state.written ++ [line] }
    | .post, .post => some { state with
        sender := { state.sender with semaphore := osSemPost state.sender.semaphore }
        replier := .write }
    | .udpSend step, _ =>
        (state.sender.step step).map fun sender => { state with sender := sender }
    | _, _ => none

/-- Both tasks start with an empty FIFO and no token. -/
def startReplies (slots : Nat → Block) : ReplyQueue where
  sender := ⟨⟨0, 0, slots, by decide, by decide⟩, 0, .pend, []⟩
  replier := .write
  written := []

/-- The FIFO functions of the code move the FIFO in a step of the queue. -/
def ReplyQueue.lineStep (state : ReplyQueue) (fifo : LineFifo) : ReplyEvent → LineFifo
  | .reserve _ => (fifoReserve netsendFifoNum fifo).1
  | .copy =>
      match state.replier with
      | .copy line => fifoCopy fifo line
      | _ => fifo
  | .post => fifo
  | .udpSend .read => (netsendFifoRead fifo).1
  | .udpSend _ => fifo

/-- This system moves the queue together with the FIFO of the code. -/
def lineReplyQueue : System (ReplyQueue × LineFifo) ReplyEvent where
  step both event :=
    (replyQueue.step both.1 event).map fun after => (after, both.1.lineStep both.2 event)

/-- In each step the FIFO of the code stays the ring of the queue. -/
theorem represents_step {state after : ReplyQueue} {fifo : LineFifo} {event : ReplyEvent}
    (same : Represents fifo state.sender.ring)
    (stepped : replyQueue.step state event = some after) :
    Represents (state.lineStep fifo event) after.sender.ring := by
  cases event with
  | reserve line =>
      have step := same.reserve
      cases writing : state.replier with
      | write =>
          simp only [replyQueue, writing] at stepped
          cases reserved : state.sender.ring.reserve with
          | none =>
              rw [reserved] at step stepped
              obtain rfl := Option.some.inj stepped
              rw [ReplyQueue.lineStep, step]
              exact same
          | some ring =>
              rw [reserved] at step stepped
              obtain rfl := Option.some.inj stepped
              obtain ⟨fifo', advanced, next⟩ := step
              rw [ReplyQueue.lineStep, advanced]
              exact next
      | copy other => simp [replyQueue, writing] at stepped
      | post => simp [replyQueue, writing] at stepped
  | copy =>
      cases copying : state.replier with
      | write => simp [replyQueue, copying] at stepped
      | copy line =>
          simp only [replyQueue, copying] at stepped
          obtain rfl := Option.some.inj stepped
          simp only [ReplyQueue.lineStep, copying]
          exact same.copy line
      | post => simp [replyQueue, copying] at stepped
  | post =>
      cases posting : state.replier with
      | write => simp [replyQueue, posting] at stepped
      | copy line => simp [replyQueue, posting] at stepped
      | post =>
          simp only [replyQueue, posting] at stepped
          obtain rfl := Option.some.inj stepped
          exact same
  | udpSend step =>
      obtain ⟨sender, moved, rfl⟩ := Option.map_eq_some_iff.mp stepped
      have ring := Consumer.step_ring moved
      cases step with
      | pend => exact ring ▸ same
      | read => exact ring ▸ same.afterRead
      | copy => exact ring ▸ same

/-- In each run the FIFO of the code stays the ring of the queue. -/
theorem lineReplyQueue_represents {slots : Nat → Block} {both : ReplyQueue × LineFifo}
    (reached : lineReplyQueue.Reachable (startReplies slots, ⟨0, 0, slots⟩) both) :
    Represents both.2 both.1.sender.ring := by
  apply reached.invariant ⟨rfl, rfl, rfl⟩
  intro before event after same _ stepped
  obtain ⟨state, moved, rfl⟩ := Option.map_eq_some_iff.mp stepped
  exact represents_step same moved

/-- A write that finds room starts with at most one token for each stored block. -/
def NoSurplus (state : ReplyQueue) : ReplyEvent → Prop
  | .reserve _ => state.sender.ring.reserve.isSome →
      state.sender.tokens ≤ state.sender.ring.contents.length
  | _ => True

instance (state : ReplyQueue) : (event : ReplyEvent) → Decidable (NoSurplus state event)
  | .reserve _ => inferInstanceAs (Decidable (_ → _))
  | .copy | .post | .udpSend _ => inferInstanceAs (Decidable True)

/-- All written blocks were sent, are in flight or are stored. A block that is being copied comes
behind them, and no token covers it. -/
structure OnlyComplete (state : ReplyQueue) : Prop where
  follows : state.sender.Follows
  order : match state.replier with
    | .copy _ => ∃ hole, state.sender.passed = state.written ++ [hole] ∧
        state.sender.tokens + 1 ≤ state.sender.ring.contents.length
    | _ => state.sender.passed = state.written

theorem OnlyComplete.start (slots : Nat → Block) : OnlyComplete (startReplies slots) where
  follows slot copying := by simp [startReplies] at copying
  order := rfl

/-- The sent blocks are a prefix of the written ones. -/
theorem OnlyComplete.sent {state : ReplyQueue} (complete : OnlyComplete state) :
    state.sender.taken <+: state.written := by
  have order := complete.order
  have passed : state.sender.taken <+: state.sender.passed := by
    rw [Consumer.passed, List.append_assoc]
    exact List.prefix_append _ _
  cases replier : state.replier with
  | write =>
      simp only [replier] at order
      exact order ▸ passed
  | post =>
      simp only [replier] at order
      exact order ▸ passed
  | copy line =>
      simp only [replier] at order
      obtain ⟨hole, order, uncovered⟩ := order
      have counted := congrArg List.length order
      simp only [Consumer.passed, List.length_append, List.length_singleton] at counted
      rw [order] at passed
      exact List.prefix_of_prefix_length_le passed (List.prefix_append _ _) (by omega)

/-- A reservation without surplus tokens leaves its slot uncovered. -/
theorem OnlyComplete.reserve {state : ReplyQueue} (complete : OnlyComplete state)
    (writing : state.replier = .write) {ring : Ring netsendFifoNum.toNat Block}
    (reserved : state.sender.ring.reserve = some ring)
    (covered : state.sender.tokens ≤ state.sender.ring.contents.length) (line : Block) :
    OnlyComplete { state with
      sender := { state.sender with ring := ring }, replier := .copy line } := by
  obtain ⟨appended, position, slots⟩ := Ring.reserve_contents reserved
  obtain ⟨passed, follows⟩ := complete.follows.produce ring state.sender.semaphore position
    (congrFun slots _)
  have order := complete.order
  simp only [writing] at order
  refine ⟨follows, ring.slots ring.wrpos, ?_, ?_⟩
  · rw [appended, ← List.append_assoc, ← Consumer.passed, order] at passed
    exact passed
  · rw [appended, List.length_append, List.length_singleton]
    exact Nat.add_le_add_right covered 1

/-- The copy completes the reserved slot. -/
theorem OnlyComplete.copy {state : ReplyQueue} {line : Block} (complete : OnlyComplete state)
    (copying : state.replier = .copy line) :
    OnlyComplete { state with
      sender := { state.sender with ring := state.sender.ring.fill line }
      replier := .post
      written := state.written ++ [line] } := by
  have order := complete.order
  simp only [copying] at order
  obtain ⟨hole, order, uncovered⟩ := order
  have some : state.sender.ring.contents ≠ [] := by
    intro none
    rw [none] at uncovered
    simp at uncovered
  have shape := (List.dropLast_append_getLast some).symm
  obtain ⟨passed, follows⟩ := complete.follows.produce (state.sender.ring.fill line)
    state.sender.semaphore rfl (Ring.fill_slot line some)
  -- The reserved slot is the last one, so all other values are the blocks written before.
  have earlier : state.sender.taken ++ state.sender.inFlight ++
      state.sender.ring.contents.dropLast = state.written := by
    rw [Consumer.passed, shape, ← List.append_assoc] at order
    exact (List.append_inj' order rfl).1
  refine ⟨follows, ?_⟩
  rw [Ring.fill_contents line shape, ← List.append_assoc, earlier] at passed
  exact passed

/-- A post changes neither the blocks nor their order. -/
theorem OnlyComplete.post {state : ReplyQueue} (complete : OnlyComplete state)
    (posting : state.replier = .post) :
    OnlyComplete { state with
      sender := { state.sender with semaphore := osSemPost state.sender.semaphore }
      replier := .write } := by
  have order := complete.order
  simp only [posting] at order
  exact ⟨complete.follows, order⟩

/-- A write that finds the ring full changes nothing. -/
theorem OnlyComplete.full {state : ReplyQueue} (complete : OnlyComplete state)
    (writing : state.replier = .write) : OnlyComplete { state with replier := .post } := by
  have order := complete.order
  simp only [writing] at order
  exact ⟨complete.follows, order⟩

/-- `udp_send_task` never takes a block that no token covers. -/
theorem OnlyComplete.sender {state : ReplyQueue} (complete : OnlyComplete state)
    {step : ConsumerStep} {sender : Consumer netsendFifoNum.toNat Block}
    (stepped : state.sender.step step = some sender) :
    OnlyComplete { state with sender := sender } := by
  obtain ⟨passed, follows, takes⟩ := Consumer.step_passed stepped
  have order := complete.order
  refine ⟨follows, ?_⟩
  cases replier : state.replier with
  | write =>
      simp only [replier] at order
      exact passed.trans order
  | post =>
      simp only [replier] at order
      exact passed.trans order
  | copy line =>
      simp only [replier] at order
      obtain ⟨hole, order, uncovered⟩ := order
      refine ⟨hole, passed.trans order, ?_⟩
      change sender.tokens + 1 ≤ sender.ring.contents.length
      cases takes with
      | neither tokens same =>
          rw [tokens, same]
          exact uncovered
      | value tokens stored => omega
      | nothing tokens none same =>
          rw [none] at uncovered
          simp at uncovered

/-- Each step without a surplus keeps the order. -/
theorem OnlyComplete.step {state after : ReplyQueue} {event : ReplyEvent}
    (complete : OnlyComplete state) (covered : NoSurplus state event)
    (stepped : replyQueue.step state event = some after) : OnlyComplete after := by
  cases event with
  | reserve line =>
      cases replier : state.replier with
      | write =>
          simp only [replyQueue, replier] at stepped
          cases reserved : state.sender.ring.reserve with
          | none =>
              rw [reserved] at stepped
              obtain rfl := Option.some.inj stepped
              exact complete.full replier
          | some ring =>
              rw [reserved] at stepped
              obtain rfl := Option.some.inj stepped
              exact complete.reserve replier reserved (covered (by rw [reserved]; rfl)) line
      | copy line => simp [replyQueue, replier] at stepped
      | post => simp [replyQueue, replier] at stepped
  | copy =>
      cases replier : state.replier with
      | write => simp [replyQueue, replier] at stepped
      | copy line =>
          simp only [replyQueue, replier] at stepped
          obtain rfl := Option.some.inj stepped
          exact complete.copy replier
      | post => simp [replyQueue, replier] at stepped
  | post =>
      cases replier : state.replier with
      | write => simp [replyQueue, replier] at stepped
      | copy line => simp [replyQueue, replier] at stepped
      | post =>
          simp only [replyQueue, replier] at stepped
          obtain rfl := Option.some.inj stepped
          exact complete.post replier
  | udpSend step =>
      obtain ⟨sender, moved, rfl⟩ := Option.map_eq_some_iff.mp stepped
      exact complete.sender moved

/-- The replying task stays behind a step of `udp_send_task`. -/
theorem sender_reachable (state : ReplyQueue) {sender : Consumer netsendFifoNum.toNat Block}
    (reached : (Consumer.system netsendFifoNum.toNat Block).Reachable state.sender sender) :
    replyQueue.Reachable state { state with sender := sender } := by
  induction reached with
  | start => exact .start
  | @next before after event _ _ stepped ih =>
      have moved : replyQueue.step { state with sender := before } (.udpSend event) =
          some { state with sender := after } := Option.map_eq_some_iff.mpr ⟨after, stepped, rfl⟩
      exact .next ih trivial moved

/-- A write that finds room with a surplus token lets `udp_send_task` send an incomplete block. -/
theorem surplus_sends {state after : ReplyQueue} {event : ReplyEvent}
    (complete : OnlyComplete state) (surplus : ¬ NoSurplus state event)
    (stepped : replyQueue.step state event = some after) :
    ∃ later, replyQueue.Reachable after later ∧ ¬ later.sender.taken <+: later.written := by
  cases event with
  | copy => exact absurd trivial surplus
  | post => exact absurd trivial surplus
  | udpSend step => exact absurd trivial surplus
  | reserve line =>
      obtain ⟨room, tokens⟩ : state.sender.ring.reserve.isSome ∧
          ¬ state.sender.tokens ≤ state.sender.ring.contents.length := by
        simpa only [NoSurplus, Classical.not_imp] using surplus
      obtain ⟨ring, reserved⟩ := Option.isSome_iff_exists.mp room
      obtain ⟨appended, position, slots⟩ := Ring.reserve_contents reserved
      cases writing : state.replier with
      | copy other => simp [replyQueue, writing] at stepped
      | post => simp [replyQueue, writing] at stepped
      | write =>
          simp only [replyQueue, writing, reserved] at stepped
          obtain rfl := Option.some.inj stepped
          have order := complete.order
          simp only [writing] at order
          obtain ⟨passed, _⟩ := complete.follows.produce ring state.sender.semaphore position
            (congrFun slots _)
          -- The tokens cover the reserved slot too, so `udp_send_task` can take its old contents.
          let reading : Consumer netsendFifoNum.toNat Block := { state.sender with ring := ring }
          have covered : reading.ring.contents.length ≤ reading.tokens := by
            change ring.contents.length ≤ state.sender.tokens
            rw [appended, List.length_append, List.length_singleton]
            exact Nat.lt_of_not_le tokens
          obtain ⟨sender, drained, taken⟩ := Consumer.drain covered
          refine ⟨_, sender_reachable _ drained, ?_⟩
          intro prefixed
          have bound := prefixed.length_le
          rw [appended, ← List.append_assoc, ← Consumer.passed, order] at passed
          rw [taken, passed, List.length_append, List.length_singleton] at bound
          exact Nat.not_succ_le_self _ bound

/-- Only complete replies are sent, in their order and each once, while no write that finds room
starts with a surplus token. The first such write can lead to an incomplete reply. -/
theorem replies_complete {slots : Nat → Block} {state : ReplyQueue}
    (reached : replyQueue.Reaches NoSurplus (startReplies slots) state) :
    state.sender.taken <+: state.written ∧
      ∀ event after, replyQueue.step state event = some after → ¬ NoSurplus state event →
        ∃ later, replyQueue.Reachable after later ∧ ¬ later.sender.taken <+: later.written := by
  have complete : OnlyComplete state :=
    reached.invariant (.start slots) fun _ _ _ complete covered stepped =>
      complete.step covered stepped
  exact ⟨complete.sent, fun _ _ stepped surplus => surplus_sends complete surplus stepped⟩

/-- The replying task writes one line and posts. -/
def replyEvents : List ReplyEvent := [.reserve fun _ => 1, .copy, .post]

/-- `udp_send_task` sends one block. -/
def sendEvents : List ReplyEvent := [.udpSend .pend, .udpSend .read, .udpSend .copy]

/-- A single reply is sent once. -/
theorem replies_complete_first :
    ∃ state, replyQueue.Reaches NoSurplus (startReplies fun _ _ => 0) state ∧
      state.sender.taken.length = 1 ∧ state.sender.taken <+: state.written := by
  have passed : ((replyQueue.guarded NoSurplus).run (startReplies fun _ _ => 0)
      (replyEvents ++ sendEvents)).any (fun state => state.sender.taken.length == 1) = true := by
    decide +kernel
  obtain ⟨state, reached, sent⟩ := System.guarded_check _ _ _ _ _ passed
  exact ⟨state, reached, beq_iff_eq.mp sent, (replies_complete reached).1⟩

/-- The replying task fills the ring and posts for one more line. `udp_send_task` empties the ring
and then reads the slot of a line that is not copied yet. -/
def surplusRun : List ReplyEvent :=
  (List.replicate 59 replyEvents).flatten ++ [.reserve fun _ => 1, .post] ++
    (List.replicate 59 sendEvents).flatten ++ [.reserve fun _ => 1] ++ sendEvents

/-- After a full ring, `udp_send_task` sends a block whose copy has not started. -/
theorem replies_incomplete :
    ∃ state, replyQueue.Reachable (startReplies fun _ _ => 0) state ∧
      state.sender.taken.length = 60 ∧ ¬ state.sender.taken <+: state.written := by
  have ran : (replyQueue.run (startReplies fun _ _ => 0) surplusRun).any (fun state => decide
      (state.sender.taken.length = 60 ∧ state.written.length = 59)) = true := by
    decide +kernel
  obtain ⟨state, run, lengths⟩ := (Option.any_eq_true _ _).mp ran
  obtain ⟨sent, written⟩ := of_decide_eq_true lengths
  refine ⟨state, replyQueue.run_reachable _ _ run, sent, ?_⟩
  intro prefixed
  have bound := prefixed.length_le
  omega

end NnpCamera.Fifo
