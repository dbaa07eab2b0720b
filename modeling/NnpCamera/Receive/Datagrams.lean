/-
This file models how `udp_thread` enqueues one datagram and shows which datagrams it enqueues
independently of the bytes that an earlier datagram left in its line buffer.
-/

import NnpCamera.Library.Blocks
import NnpCamera.Library.Ring
import NnpCamera.Parameters.Packet
import Mathlib.Data.Fintype.Basic

namespace NnpCamera.Receive
open Library Parameters

/-- `NETRECV_LINE_SIZE` limits the length of a stored pbuf. -/
def netrecvLineSize : Nat := 76

/-- `NETRECV_FIFO_NUM` counts the slots of the receive FIFO. -/
def netrecvFifoNum : Nat := 60

theorem netrecvFifoNum_pos : 0 < netrecvFifoNum := by decide

/-- The receiver has its line buffer, its FIFO and the count of its semaphore posts. -/
structure Receiver where
  netrecvLineBuf : Block
  fifo : Ring netrecvFifoNum Block
  posts : Nat

/-- `mymemcpy` overwrites the first bytes of the line. A longer pbuf is not copied. -/
def storePbuf (line : Block) (payload : List UInt8) : Block := fun index =>
  if payload.length ≤ netrecvLineSize then payload[index.val]?.getD (line index) else line index

/-- The header test reads the line buffer. -/
def Accepted (line : Block) : Prop := line 0 = 0xAA ∧ line 1 = 0xAC

instance (line : Block) : Decidable (Accepted line) := inferInstanceAs (Decidable (_ ∧ _))

/-- A full FIFO drops the block. -/
def netrecvFifoWrite (fifo : Ring netrecvFifoNum Block) (line : Block) :
    Ring netrecvFifoNum Block :=
  (fifo.write line).getD fifo

/-- Each pbuf is stored, and an accepted line is enqueued and posted. -/
def receivePbuf (receiver : Receiver) (payload : List UInt8) : Receiver :=
  let line := storePbuf receiver.netrecvLineBuf payload
  if Accepted line then
    { netrecvLineBuf := line
      fifo := netrecvFifoWrite receiver.fifo line
      posts := receiver.posts + 1 }
  else { receiver with netrecvLineBuf := line }

/-- The critical section visits the pbufs of one datagram in order. -/
def receiveDatagram (receiver : Receiver) (chain : List (List UInt8)) : Receiver :=
  chain.foldl receivePbuf receiver

/-- The blocks that one datagram appends to the FIFO. -/
def Receiver.enqueued (receiver : Receiver) (chain : List (List UInt8)) : List Block :=
  (receiveDatagram receiver chain).fifo.contents.drop receiver.fifo.contents.length

/-- The FIFO has room for one block of each pbuf. -/
def Receiver.Room (receiver : Receiver) (chain : List (List UInt8)) : Prop :=
  receiver.fifo.count + chain.length < netrecvFifoNum

instance (receiver : Receiver) (chain : List (List UInt8)) : Decidable (receiver.Room chain) :=
  inferInstanceAs (Decidable (_ < _))

/-- The accepted lines of one datagram. -/
def acceptedLines (line : Block) : List (List UInt8) → List Block
  | [] => []
  | payload :: rest =>
      let stored := storePbuf line payload
      if Accepted stored then stored :: acceptedLines stored rest else acceptedLines stored rest

/-- A FIFO with room receives exactly the accepted lines. -/
theorem receiveDatagram_contents (receiver : Receiver) (chain : List (List UInt8))
    (room : receiver.Room chain) :
    (receiveDatagram receiver chain).fifo.contents =
      receiver.fifo.contents ++ acceptedLines receiver.netrecvLineBuf chain := by
  induction chain generalizing receiver with
  | nil => simp [receiveDatagram, acceptedLines]
  | cons payload rest ih =>
      rw [Receiver.Room, List.length_cons] at room
      rw [receiveDatagram, List.foldl_cons, ← receiveDatagram]
      by_cases accepted : Accepted (storePbuf receiver.netrecvLineBuf payload)
      · have one : receiver.fifo.count + 1 < netrecvFifoNum := by omega
        obtain ⟨after, wrote, appended, counted⟩ := receiver.fifo.write_contents
          (storePbuf receiver.netrecvLineBuf payload) one
        have received : receivePbuf receiver payload =
            ⟨storePbuf receiver.netrecvLineBuf payload, after, receiver.posts + 1⟩ := by
          simp only [receivePbuf, if_pos accepted, netrecvFifoWrite, wrote, Option.getD_some]
        have later : (receivePbuf receiver payload).Room rest := by
          rw [Receiver.Room, received]
          change after.count + rest.length < netrecvFifoNum
          omega
        rw [ih _ later, received, acceptedLines, if_pos accepted]
        change after.contents ++ _ = _
        rw [appended, List.append_assoc, List.singleton_append]
      · have received : receivePbuf receiver payload =
            { receiver with netrecvLineBuf := storePbuf receiver.netrecvLineBuf payload } := by
          simp only [receivePbuf, if_neg accepted]
        have later : (receivePbuf receiver payload).Room rest := by
          rw [Receiver.Room, received]
          change receiver.fifo.count + rest.length < netrecvFifoNum
          omega
        rw [ih _ later, received, acceptedLines, if_neg accepted]

/-- With room, the enqueued blocks are the accepted lines. -/
theorem enqueued_eq {receiver : Receiver} {chain : List (List UInt8)}
    (room : receiver.Room chain) :
    receiver.enqueued chain = acceptedLines receiver.netrecvLineBuf chain := by
  rw [Receiver.enqueued, receiveDatagram_contents receiver chain room, List.drop_left]

/-- The bytes that the pbufs of one datagram have stored so far. -/
def addPbuf (own : PartialImage UInt8) (payload : List UInt8) : PartialImage UInt8 :=
  if payload.length ≤ netrecvLineSize then own.place 0 payload else own

/-- The leftover bytes fill the gaps between the own bytes. -/
def overlay (own : PartialImage UInt8) (leftover : Block) : Block := fun index =>
  (own index.val).getD (leftover index)

/-- The own bytes fill the line. -/
def Fills (own : PartialImage UInt8) : Prop := ∀ index : Fin 76, own index.val ≠ none

/-- The own bytes contain a wrong header byte. -/
def Rejects (own : PartialImage UInt8) : Prop :=
  (own 0).any (· ≠ 0xAA) ∨ (own 1).any (· ≠ 0xAC)

/-- After each pbuf, the own bytes fill the line or rule out its header. -/
def Determined (own : PartialImage UInt8) : List (List UInt8) → Prop
  | [] => True
  | payload :: rest =>
      (Fills (addPbuf own payload) ∨ Rejects (addPbuf own payload)) ∧
        Determined (addPbuf own payload) rest

@[simp] theorem overlay_empty (leftover : Block) :
    overlay PartialImage.empty leftover = leftover := rfl

/-- A stored pbuf adds its bytes to the own bytes. -/
theorem storePbuf_overlay (own : PartialImage UInt8) (leftover : Block) (payload : List UInt8) :
    storePbuf (overlay own leftover) payload = overlay (addPbuf own payload) leftover := by
  funext index
  unfold storePbuf overlay addPbuf
  split
  · by_cases inside : index.val < payload.length
    · simp [PartialImage.place, inside]
    · simp [PartialImage.place, inside]
  · rfl

/-- Full own bytes determine the line. -/
theorem overlay_fills {own : PartialImage UInt8} (fills : Fills own) (first second : Block) :
    overlay own first = overlay own second := by
  funext index
  obtain ⟨value, known⟩ := Option.ne_none_iff_exists'.mp (fills index)
  simp [overlay, known]

/-- A wrong own byte rejects the line whatever the leftover bytes are. -/
theorem overlay_rejects {own : PartialImage UInt8} (rejects : Rejects own) (leftover : Block) :
    ¬ Accepted (overlay own leftover) := by
  rintro ⟨first, second⟩
  rcases rejects with wrong | wrong
  · obtain ⟨value, known, different⟩ := (Option.any_eq_true _ _).mp wrong
    simp_all [overlay]
  · obtain ⟨value, known, different⟩ := (Option.any_eq_true _ _).mp wrong
    simp_all [overlay]

/-- A leftover header accepts every line that the own bytes do not rule out. -/
theorem overlay_header {own : PartialImage UInt8} {header : Block} (good : Accepted header)
    (possible : ¬ Rejects own) : Accepted (overlay own header) := by
  simp only [Rejects, not_or] at possible
  constructor
  · cases known : own 0 with
    | none => simpa [overlay, known] using good.1
    | some value => simpa [overlay, known] using possible.1
  · cases known : own 1 with
    | none => simpa [overlay, known] using good.2
    | some value => simpa [overlay, known] using possible.2

/-- No leftover bytes accept more lines than a leftover header does. -/
theorem acceptedLines_header (own : PartialImage UInt8) {header : Block} (good : Accepted header)
    (leftover : Block) (chain : List (List UInt8)) :
    (acceptedLines (overlay own leftover) chain).length ≤
      (acceptedLines (overlay own header) chain).length := by
  induction chain generalizing own with
  | nil => exact Nat.le_refl 0
  | cons payload rest ih =>
      have tail := ih (addPbuf own payload)
      simp only [acceptedLines, storePbuf_overlay]
      by_cases rejects : Rejects (addPbuf own payload)
      · rw [if_neg (overlay_rejects rejects leftover), if_neg (overlay_rejects rejects header)]
        exact tail
      · rw [if_pos (overlay_header good rejects)]
        split
        · simpa using tail
        · exact tail.trans (Nat.le_succ _)

/-- This leftover line has the header and is zero elsewhere. -/
def headerLine : Block := fun index =>
  if index = 0 then 0xAA else if index = 1 then 0xAC else 0

theorem headerLine_accepted : Accepted headerLine := ⟨rfl, rfl⟩

/-- A gap in a possible line makes two leftover lines distinguishable. -/
theorem acceptedLines_gap {own : PartialImage UInt8} {payload : List UInt8}
    (gap : ¬ Fills (addPbuf own payload)) (possible : ¬ Rejects (addPbuf own payload))
    (rest : List (List UInt8)) :
    ∃ first second, acceptedLines (overlay own first) (payload :: rest) ≠
      acceptedLines (overlay own second) (payload :: rest) := by
  obtain ⟨index, unknown⟩ : ∃ index : Fin 76, addPbuf own payload index.val = none := by
    simpa [Fills] using gap
  let changed := Function.update headerLine index (headerLine index + 1)
  have header := overlay_header headerLine_accepted possible
  refine ⟨headerLine, changed, ?_⟩
  intro same
  simp only [acceptedLines, storePbuf_overlay, if_pos header] at same
  by_cases accepted : Accepted (overlay (addPbuf own payload) changed)
  · rw [if_pos accepted, List.cons.injEq] at same
    have equal := congrFun same.1 index
    simp [overlay, unknown, changed] at equal
  · -- The changed line is not enqueued, and the rest cannot make up for it.
    rw [if_neg accepted] at same
    have shorter := acceptedLines_header (addPbuf own payload) headerLine_accepted changed rest
    rw [← same, List.length_cons] at shorter
    omega

/-- The accepted lines do not depend on the leftover bytes exactly when the datagram determines
them. -/
theorem acceptedLines_independent (own : PartialImage UInt8) (chain : List (List UInt8)) :
    (∀ first second, acceptedLines (overlay own first) chain =
      acceptedLines (overlay own second) chain) ↔ Determined own chain := by
  induction chain generalizing own with
  | nil => simp [acceptedLines, Determined]
  | cons payload rest ih =>
      rw [Determined, ← ih]
      constructor
      · intro same
        have fixed : Fills (addPbuf own payload) ∨ Rejects (addPbuf own payload) := by
          by_contra neither
          rw [not_or] at neither
          obtain ⟨first, second, different⟩ := acceptedLines_gap neither.1 neither.2 rest
          exact different (same first second)
        refine ⟨fixed, fun first second => ?_⟩
        have equal := same first second
        simp only [acceptedLines, storePbuf_overlay] at equal
        rcases fixed with fills | rejects
        · rw [overlay_fills fills first second]
        · rwa [if_neg (overlay_rejects rejects first), if_neg (overlay_rejects rejects second)]
            at equal
      · rintro ⟨fills | rejects, same⟩ first second
        · simp only [acceptedLines, storePbuf_overlay]
          rw [overlay_fills fills first second]
        · simp only [acceptedLines, storePbuf_overlay]
          rw [if_neg (overlay_rejects rejects first), if_neg (overlay_rejects rejects second)]
          exact same first second

/-- The initial FIFO is empty. -/
def initialReceiver (line : Block) : Receiver where
  netrecvLineBuf := line
  fifo := ⟨0, 0, fun _ => fun _ => 0, netrecvFifoNum_pos, netrecvFifoNum_pos⟩
  posts := 0

theorem initialReceiver_room (line : Block) {chain : List (List UInt8)}
    (short : chain.length < netrecvFifoNum) : (initialReceiver line).Room chain := by
  have empty : (initialReceiver line).fifo.count = 0 := rfl
  rw [Receiver.Room, empty]
  omega

/-- A receiver that has received nothing. -/
def freshReceiver : Receiver := initialReceiver fun _ => 0

/-- This command has the header and the event code 5. -/
def commandBytes : List UInt8 := [0xAA, 0xAC, 1, 5] ++ List.replicate 72 0

/-- A receiver that has received one command. -/
def commandedReceiver : Receiver := receiveDatagram freshReceiver [commandBytes]

/-- This pbuf is one byte too long for the line. -/
def oversizePbuf : List UInt8 := List.replicate 77 0

end NnpCamera.Receive
