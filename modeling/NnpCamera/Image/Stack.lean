/-
This file models the path of one UDP datagram through lwIP, with the link up, memory available
and the hardware address of the peer resolved.
-/

import NnpCamera.Image.Camera

namespace NnpCamera.Image
open Library

/-- The network takes whole Ethernet frames. -/
abbrev Frame := List UInt8

/-- The size of the UDP header. -/
def udpHlen : Nat := 8

/-- The size of the IP header. -/
def ipHlen : Nat := 20

/-- The size of the Ethernet header. -/
def ethHlen : Nat := 14

/-- The interface sends packets up to this size without fragments. -/
def mtu : Nat := 1500

/-- The driver has this number of transmit descriptors. -/
def ethTxDescCnt : Nat := 4

/-- The environment of the stack: the bytes of the three headers, the contents of the heap blocks
for the buffers of the caller and for the header buffers, and the fragmentation of large packets. -/
structure Wire where
  udpHdr : Nat → Memory UInt8
  ipHdr : Nat → Nat → Memory UInt8
  ethHdr : Memory UInt8
  heap : Nat → Memory UInt8
  headerHeap : Nat → Memory UInt8
  ipFrag : Pbuf → List Pbuf → ErrT × Pbuf × List Frame

/-- `pbuf_header` moves the payload pointer down when the structure leaves room for it. -/
def pbufHeader (buffer : Pbuf) (increment : Nat) : Option Pbuf :=
  if buffer.payload < sizeofStructPbuf + increment then none
  else some { buffer with
    payload := buffer.payload - increment
    len := buffer.len + increment
    totLen := buffer.totLen + increment }

/-- The driver gives one descriptor to each buffer of the chain. -/
def lowLevelOutput (head : Pbuf) (tail : List Pbuf) : ErrT × List Frame :=
  if ethTxDescCnt < tail.length + 1 then (.netif, [])
  else (.ok, [head.bytes ++ tail.flatMap Pbuf.bytes])

variable (wire : Wire)

/-- `etharp_output` adds the Ethernet header. -/
def etharpOutput (head : Pbuf) (tail : List Pbuf) : ErrT × Pbuf × List Frame :=
  match pbufHeader head ethHlen with
  | none => (.buf, head, [])
  | some moved =>
      let framed := moved.copyIn 0 wire.ethHdr ethHlen
      let output := lowLevelOutput framed tail
      (output.1, framed, output.2)

/-- `ip_output_if` adds the IP header. -/
def ipOutputIf (clock : Nat) (head : Pbuf) (tail : List Pbuf) : ErrT × Pbuf × List Frame :=
  match pbufHeader head ipHlen with
  | none => (.buf, head, [])
  | some moved =>
      let packet := moved.copyIn 0 (wire.ipHdr clock moved.totLen) ipHlen
      if mtu < packet.totLen then wire.ipFrag packet tail else etharpOutput wire packet tail

/-- `udp_sendto_if` puts the UDP header into the caller's buffer, or into a buffer of its own when
the caller's buffer has no room for it. It does not restore the caller's buffer. -/
def udpSend (clock : Nat) (buffer : Pbuf) : ErrT × Pbuf × List Frame :=
  match pbufHeader buffer udpHlen with
  | some moved => ipOutputIf wire clock (moved.copyIn 0 (wire.udpHdr moved.totLen) udpHlen) []
  | none =>
      let header := pbufAlloc (wire.headerHeap clock) pbufIp udpHlen
      let output :=
        if buffer.totLen ≠ 0 then
          let chained := { header with totLen := header.totLen + buffer.totLen }
          ipOutputIf wire clock (chained.copyIn 0 (wire.udpHdr chained.totLen) udpHlen) [buffer]
        else ipOutputIf wire clock (header.copyIn 0 (wire.udpHdr header.totLen) udpHlen) []
      (output.1, buffer, output.2.2)

/-- The stack has sent these frames. The clock counts the sends. -/
structure Stack where
  frames : List Frame
  clock : Nat

/-- The network of the camera is lwIP on one Ethernet link. -/
def lwipNet : Net Stack where
  heap stack := wire.heap stack.clock
  netconnSend stack sentbuf :=
    let output := udpSend wire stack.clock sentbuf
    (output.1, output.2.1, ⟨stack.frames ++ output.2.2, stack.clock + 1⟩)

/-- The peer finds the UDP payload after the three headers. -/
def udpPayload (frame : Frame) : List UInt8 := frame.drop (ethHlen + ipHlen + udpHlen)

/-- The pointer and the two lengths of a buffer. -/
structure Pbuf.Shape (buffer : Pbuf) (start count total : Nat) : Prop where
  payload : buffer.payload = start
  len : buffer.len = count
  totLen : buffer.totLen = total

theorem Pbuf.Shape.copyIn {buffer : Pbuf} {start count total : Nat}
    (shape : buffer.Shape start count total) (offset : Nat) (source : Memory UInt8)
    (size : Nat) : (buffer.copyIn offset source size).Shape start count total :=
  ⟨shape.payload, shape.len, shape.totLen⟩

@[simp] theorem Pbuf.bytes_length (buffer : Pbuf) : buffer.bytes.length = buffer.len := by
  simp [Pbuf.bytes]

section Shapes
variable {buffer : Pbuf} {start count total : Nat} (shape : buffer.Shape start count total)
include shape

/-- A header fits exactly when the payload starts far enough behind the structure. -/
theorem pbufHeader_some (increment : Nat) (room : sizeofStructPbuf + increment ≤ start) :
    ∃ moved, pbufHeader buffer increment = some moved ∧
      moved.Shape (start - increment) (count + increment) (total + increment) := by
  refine ⟨_, if_neg ?_, ?_⟩
  · rw [shape.payload]
    omega
  · exact ⟨by simp only [shape.payload], by simp only [shape.len], by simp only [shape.totLen]⟩

theorem pbufHeader_none (increment : Nat) (tight : start < sizeofStructPbuf + increment) :
    pbufHeader buffer increment = none := by
  apply if_pos
  rw [shape.payload]
  exact tight

/-- IP sends a packet that has room for its two headers in one frame. -/
theorem ipOutputIf_room (clock : Nat) (tail : List Pbuf) (room : 50 ≤ start)
    (small : total + 20 ≤ mtu) (short : tail.length ≤ 3) :
    ∃ moved frame, ipOutputIf wire clock buffer tail = (.ok, moved, [frame]) ∧
      moved.Shape (start - 34) (count + 34) (total + 34) ∧
      frame.length = count + 34 + (tail.flatMap Pbuf.bytes).length := by
  obtain ⟨ip, ipHeader, ipShape⟩ := pbufHeader_some shape ipHlen (by
    simp only [sizeofStructPbuf, ipHlen]; omega)
  have packet := ipShape.copyIn 0 (wire.ipHdr clock ip.totLen) ipHlen
  obtain ⟨eth, ethHeader, ethShape⟩ := pbufHeader_some packet ethHlen (by
    simp only [sizeofStructPbuf, ipHlen, ethHlen]; omega)
  have framed := ethShape.copyIn 0 wire.ethHdr ethHlen
  have whole : ¬ mtu < (ip.copyIn 0 (wire.ipHdr clock ip.totLen) ipHlen).totLen := by
    rw [packet.totLen]
    simp only [ipHlen]
    omega
  have fits : ¬ ethTxDescCnt < tail.length + 1 := by
    simp only [ethTxDescCnt]
    omega
  refine ⟨eth.copyIn 0 wire.ethHdr ethHlen,
    (eth.copyIn 0 wire.ethHdr ethHlen).bytes ++ tail.flatMap Pbuf.bytes, ?_, ?_, ?_⟩
  · simp only [ipOutputIf, ipHeader, if_neg whole, etharpOutput, ethHeader, lowLevelOutput,
      if_neg fits]
  · exact framed
  · rw [List.length_append, Pbuf.bytes_length, framed.len]
    rfl

end Shapes

/-- A buffer with room for all headers is sent whole, and its payload pointer stays moved. -/
theorem udpSend_room (clock : Nat) {buffer : Pbuf} {start count : Nat}
    (shape : buffer.Shape start count count) (room : 58 ≤ start) (small : count + 28 ≤ mtu) :
    ∃ moved frame, udpSend wire clock buffer = (.ok, moved, [frame]) ∧
      moved.Shape (start - 42) (count + 42) (count + 42) ∧ frame.length = count + 42 := by
  obtain ⟨udp, header, udpShape⟩ := pbufHeader_some shape udpHlen (by
    simp only [sizeofStructPbuf, udpHlen]; omega)
  obtain ⟨moved, frame, sent, movedShape, length⟩ := ipOutputIf_room wire
    (udpShape.copyIn 0 (wire.udpHdr udp.totLen) udpHlen) clock []
    (by simp only [udpHlen]; omega) (by simp only [udpHlen]; omega) (by simp)
  refine ⟨moved, frame, ?_, movedShape, length⟩
  simp only [udpSend, header, sent]

/-- A buffer with room for the UDP header only is not sent, and it keeps the UDP header. -/
theorem udpSend_tight (clock : Nat) {buffer : Pbuf} {start count : Nat}
    (shape : buffer.Shape start count count) (room : 24 ≤ start) (tight : start < 44) :
    ∃ moved, udpSend wire clock buffer = (.buf, moved, []) ∧
      moved.Shape (start - 8) (count + 8) (count + 8) := by
  obtain ⟨udp, header, udpShape⟩ := pbufHeader_some shape udpHlen (by
    simp only [sizeofStructPbuf, udpHlen]; omega)
  have copied := udpShape.copyIn 0 (wire.udpHdr udp.totLen) udpHlen
  have noRoom := pbufHeader_none copied ipHlen (by
    simp only [sizeofStructPbuf, udpHlen, ipHlen]; omega)
  refine ⟨_, ?_, copied⟩
  simp only [udpSend, header, ipOutputIf, noRoom]

/-- A buffer without room for the UDP header is sent behind a header buffer and stays as it is. -/
theorem udpSend_chained (clock : Nat) {buffer : Pbuf} {start count : Nat}
    (shape : buffer.Shape start count count) (full : start < 24) (filled : count ≠ 0)
    (small : count + 28 ≤ mtu) :
    ∃ frame, udpSend wire clock buffer = (.ok, buffer, [frame]) ∧ frame.length = count + 42 := by
  have noRoom := pbufHeader_none shape udpHlen (by
    simp only [sizeofStructPbuf, udpHlen]; omega)
  have data : buffer.totLen ≠ 0 := by
    rw [shape.totLen]
    exact filled
  let chained : Pbuf := { pbufAlloc (wire.headerHeap clock) pbufIp udpHlen with
    totLen := (pbufAlloc (wire.headerHeap clock) pbufIp udpHlen).totLen + buffer.totLen }
  have header : chained.Shape 52 8 (8 + count) :=
    ⟨rfl, rfl, by simp only [chained, shape.totLen, pbufAlloc, udpHlen]⟩
  obtain ⟨moved, frame, sent, _, length⟩ := ipOutputIf_room wire
    (header.copyIn 0 (wire.udpHdr chained.totLen) udpHlen) clock [buffer]
    (by decide) (by omega) (by simp)
  refine ⟨frame, ?_, ?_⟩
  · simp only [udpSend, noRoom, if_pos data]
    rw [sent]
  · rw [length]
    simp only [List.flatMap_cons, List.flatMap_nil, List.append_nil, Pbuf.bytes_length, shape.len]
    omega

end NnpCamera.Image
