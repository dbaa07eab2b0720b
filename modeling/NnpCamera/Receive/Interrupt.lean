/-
This file interleaves the Ethernet interrupt with the DMA and shows when it leaves frames in the
descriptors without an interrupt.
-/

import Mathlib.Data.UInt
import NnpCamera.Receive.Bursts

namespace NnpCamera.Receive
open Library
open Mailbox (mboxSize maxQueueEntries)

def ethDmaNormalIt : UInt32 := 0x8000
def ethDmaRxIt : UInt32 := 0x40
def ethDmaTxIt : UInt32 := 0x1

/-- The handler is between two accesses to the descriptors or to the flags. -/
inductive HandlerPoint where
  | idle
  | look
  | input (p : Nat)
  | build
  | clearNormal
  | clearRx
  | clearTx
  deriving DecidableEq

/-- The interrupt has the ring, the status register `DMACSR` and a point of its handler. No code
reads the last four fields: `waiting` counts the frames in the descriptors at the start of the
handler, and the others count the frames that complete before its look at the ring, from there to the
clearing of the receive flag, and after it. -/
structure EthInterrupt where
  ring : RxRing
  dmacsr : UInt32
  point : HandlerPoint
  waiting : Nat
  beforeLook : Nat
  beforeClear : Nat
  afterClear : Nat

/-- The DMA receives or sends a frame, an interrupt starts, its handler takes a step, or a task frees
pbufs. A flag says whether `tcpip_input` accepts the frame. -/
inductive InterruptEvent where
  | frame (bytes : List UInt8)
  | sent
  | enter
  | handler (accepted : Bool)
  | free (chain : List Nat)

/-- The received frames that are in the descriptors. -/
def RxRing.received (ring : RxRing) : Nat :=
  (List.range ethRxDescCnt).countP fun index => !(ring.desc index).own

/-- A one that is written to the register clears its flag. -/
def halEthDmaClearIt (dmacsr interrupt : UInt32) : UInt32 := dmacsr &&& ~~~interrupt

namespace EthInterrupt
variable (state : EthInterrupt)

/-- The receive flag asks for the next interrupt. -/
def RxPending : Prop := state.dmacsr &&& ethDmaRxIt ≠ 0

instance : Decidable state.RxPending := inferInstanceAs (Decidable (_ ≠ _))

/-- The history counts a frame that completes. -/
def count : EthInterrupt :=
  match state.point with
  | .look => { state with beforeLook := state.beforeLook + 1 }
  | .input _ | .build | .clearNormal | .clearRx =>
      { state with beforeClear := state.beforeClear + 1 }
  | .clearTx | .idle => { state with afterClear := state.afterClear + 1 }

/-- A frame that the DMA stores sets the receive flag, because each descriptor asks for an interrupt
on completion. -/
def frame (bytes : List UInt8) : EthInterrupt :=
  if (state.ring.desc state.ring.dmaDesc).own then
    { state.count with
      ring := state.ring.dmaFrame bytes
      dmacsr := state.dmacsr ||| (ethDmaRxIt ||| ethDmaNormalIt) }
  else state

/-- `ETH_IRQHandler` calls `lwip_pkt_handle`, which calls `ethernetif_input`, and then clears three
flags. -/
def ethIRQHandler (accepted : Bool) : Option EthInterrupt :=
  match state.point with
  | .idle => none
  | .look =>
      match state.ring.lowLevelInput with
      | (none, ring) => some { state with ring := ring, point := .clearNormal }
      | (some p, ring) => some { state with ring := ring, point := .input p }
  | .input p =>
      if accepted then some { state with point := .build }
      else some { state with ring := pbufFree [p] state.ring, point := .build }
  | .build =>
      some { state with ring := state.ring.halEthBuildRxDescriptors, point := .clearNormal }
  | .clearNormal =>
      some { state with
        dmacsr := halEthDmaClearIt state.dmacsr ethDmaNormalIt
        point := .clearRx }
  | .clearRx =>
      some { state with dmacsr := halEthDmaClearIt state.dmacsr ethDmaRxIt, point := .clearTx }
  | .clearTx =>
      some { state with dmacsr := halEthDmaClearIt state.dmacsr ethDmaTxIt, point := .idle }

end EthInterrupt

/-- This system interleaves the DMA and the handler at each access. The tasks run only between two
interrupts. -/
def ethInterrupt : System EthInterrupt InterruptEvent where
  step state event :=
    match event with
    | .frame bytes => if bytes.length ≤ ethMaxPacketSize then some (state.frame bytes) else none
    | .sent => some { state with dmacsr := state.dmacsr ||| (ethDmaTxIt ||| ethDmaNormalIt) }
    | .enter =>
        if state.point = .idle ∧ state.dmacsr ≠ 0 then
          some { state with
            point := .look
            waiting := state.ring.received
            beforeLook := 0
            beforeClear := 0
            afterClear := 0 }
        else none
    | .handler accepted => state.ethIRQHandler accepted
    | .free chain =>
        if state.point = .idle then some { state with ring := pbufFree chain state.ring } else none

/-- Without a frame in between, the steps of the handler are the one step of `netReceive`. -/
theorem ethernetifInput_steps (receive : NetReceive) (msg : Bool) {state : EthInterrupt}
    (look : state.point = .look) (ring : state.ring = receive.ring) :
    ∃ count after, ethInterrupt.run state (List.replicate count (.handler
        (msg && decide (receive.mbox.length < mboxSize maxQueueEntries)))) = some after ∧
      after.point = .clearNormal ∧ after.ring = (receive.ethernetifInput msg).ring := by
  obtain ⟨_, dmacsr, point, waiting, beforeLook, beforeClear, afterClear⟩ := state
  obtain rfl : point = .look := look
  obtain rfl : _ = receive.ring := ring
  rw [NetReceive.ethernetifInput]
  rcases taken : receive.ring.lowLevelInput with ⟨_ | p, next⟩
  · refine ⟨1, ⟨next, dmacsr, .clearNormal, waiting, beforeLook, beforeClear, afterClear⟩, ?_, rfl,
      rfl⟩
    simp [System.run, ethInterrupt, EthInterrupt.ethIRQHandler, taken]
  · by_cases room : msg = true ∧ receive.mbox.length < mboxSize maxQueueEntries
    · refine ⟨3, ⟨next.halEthBuildRxDescriptors, dmacsr, .clearNormal, waiting, beforeLook,
        beforeClear, afterClear⟩, ?_, rfl, ?_⟩
      · simp [System.run, ethInterrupt, EthInterrupt.ethIRQHandler, taken, room]
      · simp [room]
    · refine ⟨3, ⟨(pbufFree [p] next).halEthBuildRxDescriptors, dmacsr, .clearNormal, waiting,
        beforeLook, beforeClear, afterClear⟩, ?_, rfl, ?_⟩
      · have refused : (msg && decide (receive.mbox.length < mboxSize maxQueueEntries)) = false := by
          simpa using room
        simp [System.run, ethInterrupt, EthInterrupt.ethIRQHandler, taken, refused]
      · simp [room]

/-- The interrupt after `low_level_init`. -/
def ethStart (rxBuff : Nat → Memory UInt8) : EthInterrupt where
  ring := (lowLevelInit rxBuff).ring
  dmacsr := 0
  point := .idle
  waiting := 0
  beforeLook := 0
  beforeClear := 0
  afterClear := 0

/-- The driver has taken some frames and gives the descriptor of the last one back later. The frames
after that fill the next descriptors. -/
structure Filled (ring : RxRing) (taken : Nat) : Prop where
  one : taken ≤ 1
  past : taken ≤ ring.found.length
  stored : ring.found.length ≤ ring.frames.length
  room : ring.frames.length + taken ≤ ring.found.length + ethRxDescCnt
  dma : ring.dmaDesc = ring.frames.length % ethRxDescCnt
  hal : ring.curRxDesc = ring.found.length % ethRxDescCnt
  app : ring.appDescNbr = taken
  firstApp : taken = 1 → ring.firstAppDesc = (ring.found.length - 1) % ethRxDescCnt
  own : ∀ index < ethRxDescCnt, (ring.desc index).own = false ↔
    (index + ethRxDescCnt - (ring.found.length - taken) % ethRxDescCnt) % ethRxDescCnt <
      ring.frames.length + taken - ring.found.length

section Descriptors
variable {ring : RxRing} {taken : Nat}

/-- So many descriptors follow each other in the ring. -/
theorem descriptors_count (back : Nat) {left : Nat} (room : left ≤ ethRxDescCnt) :
    ((List.range ethRxDescCnt).countP fun index =>
      decide ((index + ethRxDescCnt - back % ethRxDescCnt) % ethRxDescCnt < left)) = left := by
  have turns : ∀ first < ethRxDescCnt, ∀ left < ethRxDescCnt + 1,
      ((List.range ethRxDescCnt).countP fun index =>
        decide ((index + ethRxDescCnt - first) % ethRxDescCnt < left)) = left := by decide
  exact turns _ (Nat.mod_lt _ (by decide)) left (Nat.lt_succ_of_le room)

/-- The frames that are not given back are in the descriptors. -/
theorem Filled.received (filled : Filled ring taken) :
    ring.received = ring.frames.length + taken - ring.found.length := by
  have room := filled.room
  rw [← descriptors_count (ring.found.length - taken)
    (show ring.frames.length + taken - ring.found.length ≤ ethRxDescCnt by omega)]
  refine List.countP_congr fun index inside => ?_
  rw [Bool.not_eq_true', filled.own index (List.mem_range.mp inside), decide_eq_true_eq]

theorem Filled.dmaFrame (filled : Filled ring taken) (bytes : List UInt8)
    (owned : (ring.desc ring.dmaDesc).own = true) : Filled (ring.dmaFrame bytes) taken ∧
      (ring.dmaFrame bytes).frames.length = ring.frames.length + 1 ∧
      (ring.dmaFrame bytes).found = ring.found := by
  have stored := filled.stored
  have dma := filled.dma
  have own := filled.own
  have past := filled.past
  have room := filled.room
  have next : ring.frames.length + taken < ring.found.length + ethRxDescCnt := by
    -- A full ring leaves the DMA no descriptor.
    by_contra full
    have last := (own ring.dmaDesc (by simp only [dma, ethRxDescCnt]; omega)).mpr
      (by simp only [ethRxDescCnt] at *; omega)
    rw [owned] at last
    contradiction
  have count : (ring.frames ++ [bytes]).length = ring.frames.length + 1 := by simp
  rw [RxRing.dmaFrame, if_pos owned]
  refine ⟨?_, count, rfl⟩
  refine {
    one := filled.one
    past := filled.past
    stored := ?_
    room := ?_
    dma := ?_
    hal := filled.hal
    app := filled.app
    firstApp := filled.firstApp
    own := ?_ }
  · show ring.found.length ≤ (ring.frames ++ [bytes]).length
    omega
  · show (ring.frames ++ [bytes]).length + taken ≤ ring.found.length + ethRxDescCnt
    omega
  · show incrRxDescIndex ring.dmaDesc 1 = (ring.frames ++ [bytes]).length % ethRxDescCnt
    rw [count, dma, incrRxDescIndex_mod]
  · intro index inside
    show (Function.update ring.desc ring.dmaDesc _ index).own = false ↔
      _ < (ring.frames ++ [bytes]).length + taken - ring.found.length
    have before := own index inside
    rw [count]
    by_cases here : index = ring.dmaDesc
    · rw [here, Function.update_self]
      refine iff_of_true rfl ?_
      simp only [ethRxDescCnt] at *
      omega
    · rw [Function.update_of_ne here, before]
      simp only [ethRxDescCnt] at *
      omega

/-- The handler finds a frame exactly when one waits. -/
theorem Filled.lowLevelInput (filled : Filled ring 0) :
    (ring.frames.length = ring.found.length ∧ ring.lowLevelInput = (none, ring)) ∨
      (ring.found.length < ring.frames.length ∧ ∃ p next, ring.lowLevelInput = (some p, next) ∧
        Filled next 1 ∧ next.frames = ring.frames ∧
        next.found.length = ring.found.length + 1) := by
  have stored := filled.stored
  have next := filled.own ring.curRxDesc (by simp only [filled.hal, ethRxDescCnt]; omega)
  cases own : (ring.desc ring.curRxDesc).own with
  | true =>
      refine .inl ⟨?_, RxRing.lowLevelInput_none filled.app own⟩
      rw [own, filled.hal] at next
      simp only [ethRxDescCnt, Bool.true_eq_false, false_iff] at next
      omega
  | false =>
      rw [own, filled.hal] at next
      simp only [ethRxDescCnt, true_iff] at next
      have waits : ring.found.length < ring.frames.length := by omega
      have count : ring.takeFrame.found.length = ring.found.length + 1 := by
        simp [RxRing.takeFrame]
      have room := filled.room
      refine .inr ⟨waits, _, _, RxRing.lowLevelInput_some filled.app own, ?_, rfl, count⟩
      exact {
        one := le_rfl
        past := by rw [count]; omega
        stored := by rw [count]; exact waits
        room := by
          rw [count]
          show ring.frames.length + 1 ≤ _
          omega
        dma := filled.dma
        hal := by
          rw [count, ← incrRxDescIndex_mod, ← filled.hal]
          rfl
        app := rfl
        firstApp := fun _ => by
          rw [count]
          exact filled.hal
        own := fun index inside => by
          rw [count]
          have before := filled.own index inside
          show (ring.desc index).own = false ↔ _ < ring.frames.length + 1 - (ring.found.length + 1)
          rw [before]
          simp only [ethRxDescCnt] at *
          omega }

/-- The descriptor of the taken frame goes back to the DMA. -/
theorem Filled.build (filled : Filled ring 1) : Filled ring.halEthBuildRxDescriptors 0 ∧
    ring.halEthBuildRxDescriptors.frames = ring.frames ∧
    ring.halEthBuildRxDescriptors.found = ring.found := by
  have stored := filled.stored
  have past := filled.past
  have room := filled.room
  have first := filled.firstApp rfl
  have busy : ring.appDescNbr ≠ 0 := by simp [filled.app]
  rw [RxRing.halEthBuildRxDescriptors, if_neg busy]
  refine ⟨?_, rfl, rfl⟩
  refine {
    one := Nat.zero_le _
    past := Nat.zero_le _
    stored := filled.stored
    room := ?_
    dma := filled.dma
    hal := filled.hal
    app := rfl
    firstApp := fun none => absurd none (by decide)
    own := ?_ }
  · show ring.frames.length + 0 ≤ ring.found.length + ethRxDescCnt
    omega
  · intro index inside
    show (Function.update ring.desc ring.firstAppDesc _ index).own = false ↔
      _ < ring.frames.length + 0 - ring.found.length
    have before := filled.own index inside
    by_cases here : index = ring.firstAppDesc
    · rw [here, Function.update_self, first]
      simp only [ethRxDescCnt, Bool.true_eq_false, false_iff] at *
      omega
    · rw [Function.update_of_ne here, before]
      simp only [ethRxDescCnt] at *
      omega

/-- A free changes only the pbufs. -/
theorem pbufFree_pbufs (chain : List Nat) (ring : RxRing) :
    ∃ rxPbuf, pbufFree chain ring = { ring with rxPbuf := rxPbuf } := by
  induction chain generalizing ring with
  | nil => exact ⟨ring.rxPbuf, rfl⟩
  | cons p rest ih =>
      rw [pbufFree]
      split
      · obtain ⟨rxPbuf, freed⟩ := ih (ring.pbufFreeCustom p)
        exact ⟨rxPbuf, freed⟩
      · exact ⟨_, rfl⟩

theorem Filled.pbufFree (filled : Filled ring taken) (chain : List Nat) :
    Filled (pbufFree chain ring) taken ∧ (Receive.pbufFree chain ring).frames = ring.frames ∧
      (Receive.pbufFree chain ring).found = ring.found := by
  obtain ⟨rxPbuf, freed⟩ := pbufFree_pbufs chain ring
  rw [freed]
  exact ⟨⟨filled.one, filled.past, filled.stored, filled.room, filled.dma, filled.hal, filled.app,
    filled.firstApp, filled.own⟩, rfl, rfl⟩

end Descriptors

section Flags
variable (dmacsr : UInt32)

theorem flags_or_and (first second mask : UInt32) :
    (first ||| second) &&& mask = first &&& mask ||| second &&& mask := by
  apply UInt32.toBitVec_inj.mp
  exact BitVec.and_or_distrib_right

/-- A received frame sets the receive flag. -/
theorem received_pending :
    (dmacsr ||| (ethDmaRxIt ||| ethDmaNormalIt)) &&& ethDmaRxIt ≠ 0 := by
  rw [flags_or_and]
  intro none
  exact absurd (UInt32.or_eq_zero_iff.mp none).2 (by decide)

/-- A sent frame leaves the receive flag. -/
theorem sent_pending :
    (dmacsr ||| (ethDmaTxIt ||| ethDmaNormalIt)) &&& ethDmaRxIt = dmacsr &&& ethDmaRxIt := by
  rw [flags_or_and]
  have apart : (ethDmaTxIt ||| ethDmaNormalIt) &&& ethDmaRxIt = 0 := by decide
  rw [apart, UInt32.or_zero]

theorem clearRx_pending : halEthDmaClearIt dmacsr ethDmaRxIt &&& ethDmaRxIt = 0 := by
  rw [halEthDmaClearIt, UInt32.and_assoc]
  have cleared : ~~~ethDmaRxIt &&& ethDmaRxIt = 0 := by decide
  rw [cleared, UInt32.and_zero]

theorem clearTx_pending :
    halEthDmaClearIt dmacsr ethDmaTxIt &&& ethDmaRxIt = dmacsr &&& ethDmaRxIt := by
  rw [halEthDmaClearIt, UInt32.and_assoc]
  have apart : ~~~ethDmaTxIt &&& ethDmaRxIt = ethDmaRxIt := by decide
  rw [apart]

end Flags

namespace EthInterrupt
variable (state : EthInterrupt)

/-- The driver has a frame whose descriptor it has not given back. -/
def taken : Nat :=
  match state.point with
  | .input _ | .build => 1
  | _ => 0

/-- The handler takes at most one of the frames that complete before its look. -/
def Counted : Prop :=
  let stored := state.ring.frames.length
  let found := state.ring.found.length
  match state.point with
  | .look => stored = found + (state.waiting + state.beforeLook) ∧ state.beforeClear = 0 ∧
      state.afterClear = 0
  | .input _ | .build =>
      stored + 1 = found + (state.waiting + state.beforeLook + state.beforeClear) ∧
        1 ≤ state.waiting + state.beforeLook ∧ state.afterClear = 0
  | .clearNormal | .clearRx =>
      stored = found + (state.waiting + state.beforeLook - 1 + state.beforeClear) ∧
        state.afterClear = 0
  | .clearTx | .idle =>
      stored = found + (state.waiting + state.beforeLook - 1 + state.beforeClear +
        state.afterClear) ∧ (state.RxPending ↔ 0 < state.afterClear)

/-- The descriptors and the counts agree at each point of the handler. -/
structure Consistent : Prop where
  filled : Filled state.ring state.taken
  counted : state.Counted

variable {state}

/-- A frame that completes is counted, and after the clearing it leaves the receive flag. -/
theorem Consistent.frame (consistent : state.Consistent) (bytes : List UInt8) :
    (state.frame bytes).Consistent := by
  rw [EthInterrupt.frame]
  split
  next owned =>
    obtain ⟨filled, stored, found⟩ := consistent.filled.dmaFrame bytes owned
    have counted := consistent.counted
    have pending := received_pending state.dmacsr
    obtain ⟨ring, dmacsr, point, waiting, beforeLook, beforeClear, afterClear⟩ := state
    cases point with
    | look => exact ⟨filled, by simp only [Counted, count, stored, found] at *; omega⟩
    | input p => exact ⟨filled, by simp only [Counted, count, stored, found] at *; omega⟩
    | build => exact ⟨filled, by simp only [Counted, count, stored, found] at *; omega⟩
    | clearNormal => exact ⟨filled, by simp only [Counted, count, stored, found] at *; omega⟩
    | clearRx => exact ⟨filled, by simp only [Counted, count, stored, found] at *; omega⟩
    | clearTx =>
        refine ⟨filled, ?_⟩
        simp only [Counted, count, stored, found] at *
        exact ⟨by omega, iff_of_true pending (Nat.succ_pos _)⟩
    | idle =>
        refine ⟨filled, ?_⟩
        simp only [Counted, count, stored, found] at *
        exact ⟨by omega, iff_of_true pending (Nat.succ_pos _)⟩
  next => exact consistent

/-- A change of the flags that leaves the receive flag changes no count. -/
theorem Consistent.flags (consistent : state.Consistent) {dmacsr : UInt32}
    (kept : dmacsr &&& ethDmaRxIt = state.dmacsr &&& ethDmaRxIt) :
    ({ state with dmacsr := dmacsr } : EthInterrupt).Consistent := by
  refine ⟨consistent.filled, ?_⟩
  have counted := consistent.counted
  obtain ⟨ring, dmacsr, point, waiting, beforeLook, beforeClear, afterClear⟩ := state
  cases point <;> simp only [Counted, RxPending, kept] at * <;> exact counted

theorem Consistent.enter (consistent : state.Consistent) (idle : state.point = .idle) :
    ({ state with
      point := .look
      waiting := state.ring.received
      beforeLook := 0
      beforeClear := 0
      afterClear := 0 } : EthInterrupt).Consistent := by
  have filled := consistent.filled
  rw [taken, idle] at filled
  refine ⟨filled, ?_⟩
  have stored := filled.stored
  simp only [Counted, filled.received]
  exact ⟨by omega, trivial, trivial⟩

/-- Each step of the handler agrees with the counts. -/
theorem Consistent.ethIRQHandler (consistent : state.Consistent) {accepted : Bool}
    {after : EthInterrupt} (stepped : state.ethIRQHandler accepted = some after) :
    after.Consistent := by
  have filled := consistent.filled
  have counted := consistent.counted
  obtain ⟨ring, dmacsr, point, waiting, beforeLook, beforeClear, afterClear⟩ := state
  cases point with
  | idle => simp [EthInterrupt.ethIRQHandler] at stepped
  | look =>
      rcases filled.lowLevelInput with ⟨none, nothing⟩ | ⟨waits, p, next, found, taken, same, more⟩
      · simp only [EthInterrupt.ethIRQHandler, nothing, Option.some.injEq] at stepped
        subst stepped
        refine ⟨filled, ?_⟩
        simp only [Counted] at *
        omega
      · simp only [EthInterrupt.ethIRQHandler, found, Option.some.injEq] at stepped
        subst stepped
        refine ⟨taken, ?_⟩
        simp only [Counted, same, more] at *
        omega
  | input p =>
      cases accepted with
      | true =>
          obtain rfl := Option.some.inj stepped
          exact ⟨filled, counted⟩
      | false =>
          obtain rfl := Option.some.inj stepped
          obtain ⟨freed, frames, found⟩ := filled.pbufFree [p]
          refine ⟨freed, ?_⟩
          simp only [Counted, frames, found] at *
          exact counted
  | build =>
      obtain rfl := Option.some.inj stepped
      obtain ⟨built, frames, found⟩ := Filled.build filled
      refine ⟨built, ?_⟩
      simp only [Counted, frames, found] at *
      omega
  | clearNormal =>
      obtain rfl := Option.some.inj stepped
      exact ⟨filled, counted⟩
  | clearRx =>
      obtain rfl := Option.some.inj stepped
      refine ⟨filled, ?_⟩
      simp only [Counted, RxPending, clearRx_pending] at *
      exact ⟨by omega, iff_of_false (fun pending => pending rfl) (by omega)⟩
  | clearTx =>
      obtain rfl := Option.some.inj stepped
      refine ⟨filled, ?_⟩
      simp only [Counted, RxPending, clearTx_pending] at *
      exact counted

theorem Consistent.step {event : InterruptEvent} {after : EthInterrupt}
    (consistent : state.Consistent) (stepped : ethInterrupt.step state event = some after) :
    after.Consistent := by
  cases event with
  | frame bytes =>
      obtain ⟨_, same⟩ := Option.ite_none_right_eq_some.mp stepped
      exact Option.some.inj same ▸ consistent.frame bytes
  | sent =>
      obtain rfl := Option.some.inj stepped
      exact consistent.flags (sent_pending _)
  | enter =>
      obtain ⟨⟨idle, _⟩, same⟩ := Option.ite_none_right_eq_some.mp stepped
      exact Option.some.inj same ▸ consistent.enter idle
  | handler accepted => exact consistent.ethIRQHandler stepped
  | free chain =>
      obtain ⟨idle, same⟩ := Option.ite_none_right_eq_some.mp stepped
      obtain rfl := Option.some.inj same
      obtain ⟨freed, frames, found⟩ := consistent.filled.pbufFree chain
      refine ⟨freed, ?_⟩
      have counted := consistent.counted
      simp only [Counted, RxPending, idle, frames, found] at *
      exact counted

theorem Consistent.start (rxBuff : Nat → Memory UInt8) : (ethStart rxBuff).Consistent where
  filled := {
    one := Nat.zero_le _
    past := Nat.zero_le _
    stored := le_rfl
    room := Nat.zero_le _
    dma := rfl
    hal := rfl
    app := rfl
    firstApp := fun busy => absurd busy Nat.zero_ne_one
    own := fun _ _ => iff_of_false Bool.noConfusion (Nat.not_lt_zero _) }
  counted := ⟨rfl, iff_of_false (fun pending => pending UInt32.zero_and) (Nat.not_lt_zero _)⟩

end EthInterrupt

/-- After the handler returns, the descriptors are empty or the receive flag is set, if a frame
completed after the clearing of the flag, or if at most one frame was there at the look and none
completed from there to the clearing, and only then. -/
theorem ethIRQHandler_drains {rxBuff : Nat → Memory UInt8} {state : EthInterrupt}
    (reached : ethInterrupt.Reachable (ethStart rxBuff) state) (returned : state.point = .idle) :
    state.ring.received = 0 ∨ state.RxPending ↔
      0 < state.afterClear ∨ state.waiting + state.beforeLook ≤ 1 ∧ state.beforeClear = 0 := by
  have consistent : state.Consistent :=
    reached.invariant (EthInterrupt.Consistent.start rxBuff) fun _ _ _ consistent _ stepped =>
      consistent.step stepped
  have filled := consistent.filled
  have counted := consistent.counted
  simp only [EthInterrupt.Counted, EthInterrupt.taken, returned] at filled counted
  rw [filled.received, counted.2]
  omega

/-- One run of the handler. -/
def handled : List InterruptEvent := .enter :: List.replicate 6 (.handler true)

/-- The handler takes a single frame and leaves none. -/
theorem ethIRQHandler_drains_single : ∃ state : EthInterrupt,
    ethInterrupt.Reachable (ethStart fun _ _ => 0) state ∧ state.ring.frames.length = 1 ∧
      (state.ring.received = 0 ∨ state.RxPending) := by
  obtain ⟨state, reached, checked⟩ := System.guarded_check ethInterrupt (fun _ _ => True)
    (ethStart fun _ _ => 0) (.frame (udpFrame 1) :: handled)
    (fun state => decide (state.point = .idle ∧ state.ring.frames.length = 1 ∧
      state.waiting + state.beforeLook ≤ 1 ∧ state.beforeClear = 0)) (by decide +kernel)
  obtain ⟨returned, stored, few, none⟩ := of_decide_eq_true checked
  exact ⟨state, reached, stored, (ethIRQHandler_drains reached returned).mpr (.inr ⟨few, none⟩)⟩

/-- Two frames wait for the handler. It returns with one of them and no interrupt. -/
theorem ethIRQHandler_leaves : ∃ state : EthInterrupt,
    ethInterrupt.Reachable (ethStart fun _ _ => 0) state ∧ state.point = .idle ∧
      state.waiting = 2 ∧ state.ring.received = 1 ∧ state.dmacsr = 0 ∧
      ¬ (state.ring.received = 0 ∨ state.RxPending) := by
  obtain ⟨state, reached, checked⟩ := System.guarded_check ethInterrupt (fun _ _ => True)
    (ethStart fun _ _ => 0) (.frame (udpFrame 1) :: .frame (udpFrame 2) :: handled)
    (fun state => decide (state.point = .idle ∧ state.waiting = 2 ∧ state.ring.received = 1 ∧
      state.dmacsr = 0 ∧ ¬ (state.ring.received = 0 ∨ state.RxPending))) (by decide +kernel)
  exact ⟨state, reached, of_decide_eq_true checked⟩

/-- The DMA neither receives nor sends a frame. -/
def Silent : InterruptEvent → Prop
  | .frame _ | .sent => False
  | _ => True

/-- Frames that the handler leaves without an interrupt stay until the DMA receives or sends another
one. -/
theorem received_stays {state after : EthInterrupt} (returned : state.point = .idle)
    (quiet : state.dmacsr = 0)
    (silent : ethInterrupt.Reaches (fun _ event => Silent event) state after) :
    after.ring.received = state.ring.received := by
  let fact : EthInterrupt → Prop := fun after =>
    after.point = .idle ∧ after.dmacsr = 0 ∧ after.ring.received = state.ring.received
  have kept : fact after := by
    refine silent.invariant ⟨returned, quiet, rfl⟩ ?_
    rintro before event next ⟨idle, cleared, same⟩ met stepped
    cases event with
    | frame bytes => exact met.elim
    | sent => exact met.elim
    | enter => simp [ethInterrupt, cleared] at stepped
    | handler accepted => simp [ethInterrupt, EthInterrupt.ethIRQHandler, idle] at stepped
    | free chain =>
        obtain ⟨_, freed⟩ := Option.ite_none_right_eq_some.mp stepped
        obtain rfl := Option.some.inj freed
        obtain ⟨rxPbuf, pbufs⟩ := pbufFree_pbufs chain before.ring
        refine ⟨idle, cleared, Eq.trans ?_ same⟩
        rw [pbufs]
        rfl
  exact kept.2.2

end NnpCamera.Receive
