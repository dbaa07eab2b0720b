/-
This file follows the received frames from the DMA to `udp_thread`, and shows that their bytes survive
while no burst of frames is longer than the ring.
-/

import NnpCamera.Library.Runs
import NnpCamera.Mailbox.SysArch
import NnpCamera.Receive.RxRing

namespace NnpCamera.Receive
open Library
open Mailbox (mboxSize maxQueueEntries)

/-- The lists say where the pbufs in use are. `held` lists the fragments that wait for their datagram,
`recvbuf` is the datagram of `udp_thread`, and `q` is the rest of it that the copy loop has to visit. -/
structure NetReceive where
  ring : RxRing
  mbox : List Nat
  held : List Nat
  recvmbox : List (List Nat)
  recvbuf : Option (List Nat)
  q : List Nat

/-- The DMA stores a frame, an interrupt runs, or a task takes its next step. A flag says whether the
memory for a message is there, and the numbers say where the payload of a frame is. -/
inductive ReceiveEvent where
  | frame (bytes : List UInt8)
  | ethIRQHandler (msg : Bool)
  | ethernetFree
  | ipReass (offset len : Nat)
  | recvUdp (offset len : Nat) (chain held : List Nat) (buf : Bool)
  | ipReassFree (chain held : List Nat)
  | netconnRecv
  | copyPbuf
  | netbufDelete

namespace NetReceive

/-- The pbufs that the stack or `udp_thread` still refers to. -/
def inUse (state : NetReceive) : List Nat :=
  state.mbox ++ state.held ++ state.recvmbox.flatten ++ state.recvbuf.getD []

/-- `ethernetif_input` posts the frame to `tcpip_thread`, or frees it when there is no message or the
mailbox is full. The descriptor goes back to the DMA in both cases. -/
def ethernetifInput (state : NetReceive) (msg : Bool) : NetReceive :=
  match state.ring.lowLevelInput with
  | (none, ring) => { state with ring := ring }
  | (some p, ring) =>
      if msg ∧ state.mbox.length < mboxSize maxQueueEntries then
        { state with ring := ring.halEthBuildRxDescriptors, mbox := state.mbox ++ [p] }
      else { state with ring := (pbufFree [p] ring).halEthBuildRxDescriptors }

/-- `recv_udp` posts the datagram to the connection, or frees it when there is no netbuf or the
mailbox is full. -/
def recvUdp (state : NetReceive) (chain : List Nat) (buf : Bool) : NetReceive :=
  if buf ∧ state.recvmbox.length < mboxSize 2000 then
    { state with recvmbox := state.recvmbox ++ [chain] }
  else { state with ring := pbufFree chain state.ring }

end NetReceive

/-- This system interleaves the DMA, the interrupt and the two tasks. The stack frees a frame, holds
it as a fragment, or makes a datagram of it and of fragments that it held. -/
def netReceive : System NetReceive ReceiveEvent where
  step state event :=
    match event with
    | .frame bytes =>
        if bytes.length ≤ ethMaxPacketSize then some { state with ring := state.ring.dmaFrame bytes }
        else none
    | .ethIRQHandler msg => some (state.ethernetifInput msg)
    | .ethernetFree =>
        match state.mbox with
        | [] => none
        | p :: mbox => some { state with ring := pbufFree [p] state.ring, mbox := mbox }
    | .ipReass offset len =>
        match state.mbox with
        | [] => none
        | p :: mbox =>
            if offset + len ≤ (state.ring.rxPbuf p).len then
              some { state with
                ring := state.ring.pbufHeader p offset len
                mbox := mbox
                held := state.held ++ [p] }
            else none
    | .recvUdp offset len chain held buf =>
        match state.mbox with
        | [] => none
        | p :: mbox =>
            if offset + len ≤ (state.ring.rxPbuf p).len ∧ p ∈ chain ∧
                (p :: state.held).Perm (chain ++ held) then
              some (({ state with
                ring := state.ring.pbufHeader p offset len
                mbox := mbox
                held := held } : NetReceive).recvUdp chain buf)
            else none
    | .ipReassFree chain held =>
        if state.held.Perm (chain ++ held) then
          some { state with ring := pbufFree chain state.ring, held := held }
        else none
    | .netconnRecv =>
        match state.recvmbox, state.recvbuf with
        | chain :: recvmbox, none =>
            some { state with recvmbox := recvmbox, recvbuf := some chain, q := chain }
        | _, _ => none
    | .copyPbuf =>
        match state.q with
        | [] => none
        | p :: q => some { state with ring := state.ring.copyPbuf p, q := q }
    | .netbufDelete =>
        match state.recvbuf, state.q with
        | some chain, [] =>
            some { state with ring := pbufFree chain state.ring, recvbuf := none }
        | _, _ => none

/-- After `low_level_init` the DMA owns all descriptors. -/
def lowLevelInit (rxBuff : Nat → Memory UInt8) : NetReceive where
  ring := {
    desc := fun _ => ⟨true, 0, 0⟩
    rxBuff := rxBuff
    dmaDesc := 0
    curRxDesc := 0
    firstAppDesc := 0
    appDescNbr := 0
    rxPbuf := fun _ => ⟨none, 0, 0, 0⟩
    currentPbufIdx := 0
    frames := []
    found := []
    copies := [] }
  mbox := []
  held := []
  recvmbox := []
  recvbuf := none
  q := []

/-- When the DMA stores a frame, each pbuf in use belongs to one of the three frames before it. -/
def Drains (state : NetReceive) : ReceiveEvent → Prop
  | .frame _ => ∀ p ∈ state.inUse,
      state.ring.frames.length < (state.ring.rxPbuf p).frame + ethRxDescCnt
  | _ => True

instance (state : NetReceive) (event : ReceiveEvent) : Decidable (Drains state event) := by
  cases event <;> unfold Drains <;> infer_instance

/-- The pbufs in use are sound, and the copy loop stays in its datagram. -/
structure Flow (state : NetReceive) : Prop where
  ring : Sound state.inUse state.ring
  loop : ∀ p ∈ state.q, p ∈ state.recvbuf.getD []

section Steps
variable {state : NetReceive}

/-- A pbuf can be freed before or after its descriptor is given back. -/
theorem pbufFree_halEthBuildRxDescriptors (p : Nat) (ring : RxRing) :
    (pbufFree [p] ring).halEthBuildRxDescriptors =
      pbufFree [p] ring.halEthBuildRxDescriptors := by
  by_cases last : (ring.rxPbuf p).ref - 1 = 0
  · by_cases idle : ring.appDescNbr = 0
    · simp [pbufFree, RxRing.halEthBuildRxDescriptors, RxRing.pbufFreeCustom, last, idle]
    · simp [pbufFree, RxRing.halEthBuildRxDescriptors, RxRing.pbufFreeCustom, last, idle]
  · by_cases idle : ring.appDescNbr = 0
    · simp [pbufFree, RxRing.halEthBuildRxDescriptors, last, idle]
    · simp [pbufFree, RxRing.halEthBuildRxDescriptors, last, idle]

/-- An interrupt posts a pbuf that was not in use, or frees it again. -/
theorem Flow.ethernetifInput (flow : Flow state) (msg : Bool) : Flow (state.ethernetifInput msg) := by
  rcases flow.ring.lowLevelInput_cases with ⟨_, nothing⟩ | ⟨filled, some, taken⟩
  · simp only [NetReceive.ethernetifInput, nothing]
    exact flow
  · have sound := flow.ring.takeFrame filled
    have pair : state.ring.lowLevelInput =
        (Option.some state.ring.currentPbufIdx, state.ring.lowLevelInput.2) := Prod.ext some rfl
    rw [NetReceive.ethernetifInput, pair]
    simp only [pbufFree_halEthBuildRxDescriptors, taken]
    split
    · refine ⟨sound.perm (List.perm_iff_count.mpr fun p => ?_), flow.loop⟩
      simp only [NetReceive.inUse, List.count_append, List.count_cons, List.count_nil]
      omega
    · exact ⟨sound.pbufFree, flow.loop⟩

/-- The stack gets a frame, and its pbuf leaves the mailbox. -/
theorem Flow.mbox (flow : Flow state) {p : Nat} {mbox : List Nat} (first : state.mbox = p :: mbox) :
    Sound (p :: ({ state with mbox := mbox } : NetReceive).inUse) state.ring := by
  refine flow.ring.perm (.of_eq ?_)
  rw [NetReceive.inUse, first]
  rfl

/-- A fragment is held. -/
theorem Flow.ipReass (flow : Flow state) {p offset len : Nat} {mbox : List Nat}
    (first : state.mbox = p :: mbox) (inside : offset + len ≤ (state.ring.rxPbuf p).len) :
    Flow { state with
      ring := state.ring.pbufHeader p offset len
      mbox := mbox
      held := state.held ++ [p] } := by
  have sound := (flow.mbox first).pbufHeader (List.mem_cons_self ..) inside
  refine ⟨sound.perm (List.perm_iff_count.mpr fun p => ?_), flow.loop⟩
  simp only [NetReceive.inUse, List.count_append, List.count_cons, List.count_nil]
  omega

/-- The stack posts a datagram that it holds, or frees it. -/
theorem Flow.post {chain : List Nat} (sound : Sound (chain ++ state.inUse) state.ring)
    (loop : ∀ p ∈ state.q, p ∈ state.recvbuf.getD []) (buf : Bool) :
    Flow (state.recvUdp chain buf) := by
  unfold NetReceive.recvUdp
  split
  · refine ⟨sound.perm (List.perm_iff_count.mpr fun p => ?_), loop⟩
    simp only [NetReceive.inUse, List.flatten_append, List.flatten_singleton, List.count_append]
    omega
  · exact ⟨sound.pbufFree, loop⟩

/-- A datagram takes the last frame and held fragments. -/
theorem Flow.recvUdp (flow : Flow state) {p offset len : Nat} {mbox chain held : List Nat}
    (first : state.mbox = p :: mbox) (inside : offset + len ≤ (state.ring.rxPbuf p).len)
    (split : (p :: state.held).Perm (chain ++ held)) (buf : Bool) :
    Flow (NetReceive.recvUdp { state with
      ring := state.ring.pbufHeader p offset len
      mbox := mbox
      held := held } chain buf) := by
  have sound := (flow.mbox first).pbufHeader (List.mem_cons_self ..) inside
  refine Flow.post ?_ ?_ buf
  · refine sound.perm (List.perm_iff_count.mpr fun p => ?_)
    have parts := List.perm_iff_count.mp split p
    simp only [NetReceive.inUse, List.count_append, List.count_cons] at parts ⊢
    omega
  · exact flow.loop

/-- The fragments of an incomplete datagram are freed. -/
theorem Flow.ipReassFree (flow : Flow state) {chain held : List Nat}
    (split : state.held.Perm (chain ++ held)) :
    Flow { state with ring := pbufFree chain state.ring, held := held } := by
  have sound : Sound (chain ++ ({ state with held := held } : NetReceive).inUse) state.ring := by
    refine flow.ring.perm (List.perm_iff_count.mpr fun p => ?_)
    have parts := List.perm_iff_count.mp split p
    simp only [NetReceive.inUse, List.count_append] at parts ⊢
    omega
  exact ⟨sound.pbufFree, flow.loop⟩

/-- A datagram goes from the mailbox to `udp_thread`. -/
theorem Flow.netconnRecv (flow : Flow state) {chain : List Nat} {recvmbox : List (List Nat)}
    (first : state.recvmbox = chain :: recvmbox) (free : state.recvbuf = none) :
    Flow { state with recvmbox := recvmbox, recvbuf := some chain, q := chain } := by
  refine ⟨flow.ring.perm (List.perm_iff_count.mpr fun p => ?_), fun _ member => member⟩
  simp only [NetReceive.inUse, first, free, List.flatten_cons, List.count_append, Option.getD_none,
    Option.getD_some, List.count_nil]
  omega

/-- The loop copies the next pbuf of its datagram. -/
theorem Flow.copyPbuf (flow : Flow state) {p : Nat} {q : List Nat} (next : state.q = p :: q) :
    Flow { state with ring := state.ring.copyPbuf p, q := q } := by
  have here : p ∈ state.recvbuf.getD [] := flow.loop p (next ▸ List.mem_cons_self ..)
  refine ⟨flow.ring.copyPbuf (List.mem_append_right _ here), fun other later => ?_⟩
  exact flow.loop other (next ▸ List.mem_cons_of_mem _ later)

/-- `udp_thread` frees its datagram. -/
theorem Flow.netbufDelete (flow : Flow state) {chain : List Nat} (found : state.recvbuf = some chain)
    (done : state.q = []) :
    Flow { state with ring := pbufFree chain state.ring, recvbuf := none } := by
  have sound : Sound (chain ++ ({ state with recvbuf := none } : NetReceive).inUse) state.ring := by
    refine flow.ring.perm (List.perm_iff_count.mpr fun p => ?_)
    simp only [NetReceive.inUse, found, List.count_append, Option.getD_none, Option.getD_some,
      List.count_nil]
    omega
  refine ⟨sound.pbufFree, fun p member => ?_⟩
  rw [done] at member
  exact member

/-- Each step keeps the flow. -/
theorem Flow.step {after : NetReceive} {event : ReceiveEvent} (flow : Flow state)
    (drains : Drains state event) (stepped : netReceive.step state event = some after) :
    Flow after := by
  cases event with
  | frame bytes =>
      obtain ⟨_, same⟩ := Option.ite_none_right_eq_some.mp stepped
      obtain rfl := Option.some.inj same
      exact ⟨flow.ring.dmaFrame bytes drains, flow.loop⟩
  | ethIRQHandler msg =>
      obtain rfl := Option.some.inj stepped
      exact flow.ethernetifInput msg
  | ethernetFree =>
      cases first : state.mbox with
      | nil => simp [netReceive, first] at stepped
      | cons p mbox =>
          simp only [netReceive, first, Option.some.injEq] at stepped
          exact stepped ▸ ⟨(flow.mbox first).pbufFree, flow.loop⟩
  | ipReass offset len =>
      cases first : state.mbox with
      | nil => simp [netReceive, first] at stepped
      | cons p mbox =>
          simp only [netReceive, first, Option.ite_none_right_eq_some, Option.some.injEq] at stepped
          exact stepped.2 ▸ flow.ipReass first stepped.1
  | recvUdp offset len chain held buf =>
      cases first : state.mbox with
      | nil => simp [netReceive, first] at stepped
      | cons p mbox =>
          simp only [netReceive, first, Option.ite_none_right_eq_some, Option.some.injEq] at stepped
          obtain ⟨⟨inside, _, split⟩, same⟩ := stepped
          exact same ▸ flow.recvUdp first inside split buf
  | ipReassFree chain held =>
      obtain ⟨split, same⟩ := Option.ite_none_right_eq_some.mp stepped
      exact Option.some.inj same ▸ flow.ipReassFree split
  | netconnRecv =>
      cases first : state.recvmbox with
      | nil => simp [netReceive, first] at stepped
      | cons chain recvmbox =>
          cases free : state.recvbuf with
          | some _ => simp [netReceive, first, free] at stepped
          | none =>
              simp only [netReceive, first, free, Option.some.injEq] at stepped
              exact stepped ▸ flow.netconnRecv first free
  | copyPbuf =>
      cases next : state.q with
      | nil => simp [netReceive, next] at stepped
      | cons p q =>
          simp only [netReceive, next, Option.some.injEq] at stepped
          exact stepped ▸ flow.copyPbuf next
  | netbufDelete =>
      cases found : state.recvbuf with
      | none => simp [netReceive, found] at stepped
      | some chain =>
          cases done : state.q with
          | cons p q => simp [netReceive, found, done] at stepped
          | nil =>
              simp only [netReceive, found, done, Option.some.injEq] at stepped
              subst stepped
              have deleted := flow.netbufDelete found done
              rwa [done] at deleted

end Steps

/-- At the start no frame waits and no pbuf is in use. -/
theorem Flow.lowLevelInit (rxBuff : Nat → Memory UInt8) : Flow (lowLevelInit rxBuff) where
  ring := {
    order := le_rfl
    dma := rfl
    hal := rfl
    app := rfl
    idx := rfl
    owned := fun _ own => absurd own Bool.noConfusion
    waiting := fun _ _ inside => absurd inside (Nat.not_lt_zero _)
    nodup := List.nodup_nil
    used := fun _ member => absurd member List.not_mem_nil
    unused := fun _ _ => rfl
    intact := ⟨fun _ member => absurd member List.not_mem_nil,
      fun _ member => absurd member List.not_mem_nil⟩ }
  loop := fun _ member => absurd member List.not_mem_nil

/-- While the pbufs drain before the ring comes round, each pbuf is free when it is initialised again,
and `udp_thread` copies the bytes of the frames. -/
theorem received_intact {rxBuff : Nat → Memory UInt8} {state : NetReceive}
    (reached : netReceive.Reaches Drains (lowLevelInit rxBuff) state) : Intact state.ring := by
  have flow : Flow state :=
    reached.invariant (Flow.lowLevelInit rxBuff) fun _ _ _ flow drains stepped =>
      flow.step drains stepped
  exact flow.ring.intact

/-- A frame of 60 bytes with 18 payload bytes. -/
def udpFrame (value : UInt8) : List UInt8 := List.replicate 42 0 ++ List.replicate 18 value

/-- A datagram takes its way to `udp_thread` and is freed. -/
def served (value : UInt8) (p : Nat) : List ReceiveEvent :=
  [.frame (udpFrame value), .ethIRQHandler true, .recvUdp 42 18 [p] [] true, .netconnRecv, .copyPbuf,
    .netbufDelete]

/-- Five datagrams that are served one by one are all intact. -/
theorem received_intact_five : ∃ state : NetReceive,
    state.ring.copies.length = 5 ∧ Intact state.ring := by
  obtain ⟨state, reached, checked⟩ := System.guarded_check netReceive Drains
    (lowLevelInit fun _ _ => 0) (served 1 0 ++ served 2 1 ++ served 3 2 ++ served 4 3 ++ served 5 0)
    (fun state => decide (state.ring.copies.length = 5)) (by decide +kernel)
  exact ⟨state, of_decide_eq_true checked, received_intact reached⟩

/-- The fifth frame of a burst reaches the first buffer while `udp_thread` still has its datagram, so
the copy has the bytes of the fifth frame. The next interrupt initialises the pbuf of the first frame,
which still has a reference. -/
theorem received_overwritten : ∃ state : NetReceive,
    netReceive.Reachable (lowLevelInit fun _ _ => 0) state ∧
      state.ring.copies = [⟨0, 42, List.replicate 18 5⟩] ∧
      state.ring.frames[0]? = some (udpFrame 1) ∧ state.ring.found = [0, 0, 0, 0, 1] ∧
      ¬ Intact state.ring := by
  obtain ⟨state, reached, checked⟩ := System.guarded_check netReceive (fun _ _ => True)
    (lowLevelInit fun _ _ => 0)
    [.frame (udpFrame 1), .ethIRQHandler true, .recvUdp 42 18 [0] [] true, .netconnRecv,
      .frame (udpFrame 2), .ethIRQHandler true, .frame (udpFrame 3), .ethIRQHandler true,
      .frame (udpFrame 4), .ethIRQHandler true, .frame (udpFrame 5), .copyPbuf, .ethIRQHandler true]
    (fun state => decide (state.ring.copies = [⟨0, 42, List.replicate 18 5⟩] ∧
      state.ring.frames[0]? = some (udpFrame 1) ∧ state.ring.found = [0, 0, 0, 0, 1]))
    (by decide +kernel)
  obtain ⟨copies, first, found⟩ := of_decide_eq_true checked
  refine ⟨state, reached, copies, first, found, fun intact => ?_⟩
  have reference : (1 : UInt16) = 0 := intact.found 1 (by simp [found])
  contradiction

end NnpCamera.Receive
