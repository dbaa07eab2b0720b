/-
This file models the packet buffers of lwIP in `pbuf.c`.
-/

import Mathlib.Data.Fintype.Card
import Mathlib.Logic.Function.Basic
import NnpCamera.Network.Mem

namespace NnpCamera.Network

/-- A buffer lies in the heap or in a pool, or it refers to other memory. -/
inductive PbufType where
  | ram
  | rom
  | ref
  | pool
  deriving DecidableEq

/-- The layer tells which headers need room before the payload. -/
inductive PbufLayer where
  | transport
  | ip
  | link
  | raw
  deriving DecidableEq

/-- A buffer is one part of a packet. Its memory starts behind the structure, or it is the memory that
it refers to. The payload is an offset in this memory. -/
structure Pbuf (Address : Type) where
  next : Option Address
  memory : List UInt8
  payload : Nat
  totLen : UInt16
  len : UInt16
  type : PbufType
  flags : UInt8
  ref : UInt16
  deriving DecidableEq

/-- A free address holds no buffer. -/
abbrev PbufHeap (Address : Type) := Address → Option (Pbuf Address)

/-- A free block that the allocator hands out, with its old bytes. -/
structure FreeBlock (Address : Type) where
  address : Address
  old : Nat → UInt8

def FreeBlock.bytes {Address : Type} (block : FreeBlock Address) (size : Nat) : List UInt8 :=
  (List.range size).map block.old

def sizeofStructPbuf : Nat := 16
def pbufPoolBufsizeAligned : Nat := 512
def pbufLinkHlen : Nat := 14
def pbufIpHlen : Nat := 20
def pbufTransportHlen : Nat := 20

/-- The room for the headers of a layer. -/
def PbufLayer.offset : PbufLayer → Nat
  | .transport => pbufLinkHlen + pbufIpHlen + pbufTransportHlen
  | .ip => pbufLinkHlen + pbufIpHlen
  | .link => pbufLinkHlen
  | .raw => 0

/-- The bytes of the payload. -/
def Pbuf.data {Address : Type} (p : Pbuf Address) : List UInt8 :=
  (p.memory.drop p.payload).take p.len.toNat

namespace PbufHeap
variable {Address : Type} [DecidableEq Address] [Fintype Address]

/-- The assignment changes the buffer at an address. -/
def set (heap : PbufHeap Address) (p : Address) (pbuf : Pbuf Address) : PbufHeap Address :=
  Function.update heap p (some pbuf)

/-- The loop frees each buffer whose last reference goes, and it stops at the first other buffer. -/
def pbufFreeLoop : Nat → PbufHeap Address → Option Address → UInt8 → Option (PbufHeap Address × UInt8)
  | _, heap, none, count => some (heap, count)
  | 0, _, some _, _ => none
  | turns + 1, heap, some p, count => do
      let pbuf ← heap p
      let ref := pbuf.ref - 1
      if ref = 0 then pbufFreeLoop turns (Function.update heap p none) pbuf.next (count + 1)
      else some (heap.set p { pbuf with ref := ref }, count)

/-- A reference to a chain goes. The result counts the freed buffers. An access to a free address has
no result. -/
def pbufFree (heap : PbufHeap Address) (p : Option Address) : Option (PbufHeap Address × UInt8) :=
  pbufFreeLoop (Fintype.card Address) heap p 0

/-- One more reference. -/
def pbufRef (heap : PbufHeap Address) (p : Address) : Option (PbufHeap Address) := do
  let pbuf ← heap p
  some (heap.set p { pbuf with ref := pbuf.ref + 1 })

/-- The rest of a chain from the pool. `r` is the last buffer so far and `p` is the first one. -/
def pbufAllocTail (p r : Address) (remLen : Nat) :
    List (FreeBlock Address) → PbufHeap Address → Option (PbufHeap Address × Option Address)
  | blocks, heap =>
      if remLen = 0 then some (heap, some p)
      else
        match blocks with
        | [] => (pbufFree heap (some p)).map fun freed => (freed.1, none)
        | q :: rest => do
            let len := min remLen pbufPoolBufsizeAligned
            let last ← heap r
            let linked := heap.set r { last with next := some q.address }
            pbufAllocTail p q.address (remLen - len) rest
              (linked.set q.address
                { next := none, memory := q.bytes pbufPoolBufsizeAligned, payload := 0,
                  totLen := UInt16.ofNat remLen, len := UInt16.ofNat len, type := .pool, flags := 0,
                  ref := 1 })

/-- The size that `mem_malloc` gets for a buffer in RAM. The conversion to `mem_size_t` cuts it. -/
def ramSize (offset length : Nat) : Nat :=
  (lwipMemAlignSize (sizeofStructPbuf + offset) + lwipMemAlignSize length) % 65536

/-- A new packet. The allocators hand out the free blocks in their order, and without one the result
is a null pointer. A buffer of type `ROM` or `REF` has no memory yet. -/
def pbufAlloc (layer : PbufLayer) (length : UInt16) (type : PbufType)
    (blocks : List (FreeBlock Address)) (heap : PbufHeap Address) :
    Option (PbufHeap Address × Option Address) :=
  match blocks with
  | [] => some (heap, none)
  | p :: rest =>
      let offset := lwipMemAlignSize (sizeofStructPbuf + layer.offset) - sizeofStructPbuf
      match type with
      | .pool =>
          let len := min length.toNat (pbufPoolBufsizeAligned - lwipMemAlignSize layer.offset)
          pbufAllocTail p.address p.address (length.toNat - len) rest
            (heap.set p.address
              { next := none, memory := p.bytes pbufPoolBufsizeAligned, payload := offset,
                totLen := length, len := UInt16.ofNat len, type := .pool, flags := 0, ref := 1 })
      | .ram =>
          some (heap.set p.address
            { next := none, memory := p.bytes (ramSize layer.offset length.toNat - sizeofStructPbuf),
              payload := offset, totLen := length, len := length, type := .ram, flags := 0, ref := 1 },
            some p.address)
      | type =>
          some (heap.set p.address
            { next := none, memory := [], payload := 0, totLen := length, len := length, type := type,
              flags := 0, ref := 1 }, some p.address)

/-- The caller lets a buffer without memory refer to its bytes. -/
def refer (heap : PbufHeap Address) (p : Address) (bytes : List UInt8) : Option (PbufHeap Address) := do
  let pbuf ← heap p
  some (heap.set p { pbuf with memory := bytes })

/-- The loop adds the total length of `t` up to the last buffer and links `t` there. -/
def pbufCatLoop (t : Address) : Nat → PbufHeap Address → Address → Option (PbufHeap Address)
  | 0, _, _ => none
  | turns + 1, heap, p => do
      let pbuf ← heap p
      let tail ← heap t
      let longer := { pbuf with totLen := pbuf.totLen + tail.totLen }
      match pbuf.next with
      | some next => pbufCatLoop t turns (heap.set p longer) next
      | none => some (heap.set p { longer with next := some t })

/-- Two packets become one, which takes over the reference to the second packet. -/
def pbufCat (heap : PbufHeap Address) (h t : Address) : Option (PbufHeap Address) :=
  pbufCatLoop t (Fintype.card Address) heap h

/-- The caller keeps its reference to the second packet. -/
def pbufChain (heap : PbufHeap Address) (h t : Address) : Option (PbufHeap Address) := do
  let joined ← pbufCat heap h t
  pbufRef joined t

/-- The loop steps over the buffers that stay as they are. The next one is cut, and the others go. -/
def pbufReallocLoop (grow : UInt16) :
    Nat → PbufHeap Address → Address → UInt16 → Option (PbufHeap Address)
  | 0, _, _, _ => none
  | turns + 1, heap, q, remLen => do
      let pbuf ← heap q
      if remLen > pbuf.len then
        let next ← pbuf.next
        pbufReallocLoop grow turns (heap.set q { pbuf with totLen := pbuf.totLen + grow }) next
          (remLen - pbuf.len)
      else
        let memory :=
          if pbuf.type = .ram ∧ remLen ≠ pbuf.len then pbuf.memory.take (pbuf.payload + remLen.toNat)
          else pbuf.memory
        let cut := { pbuf with memory := memory, len := remLen, totLen := remLen }
        let freed ← pbufFree (heap.set q cut) cut.next
        let last ← freed.1 q
        some (freed.1.set q { last with next := none })

/-- A packet loses its end. A packet does not grow. -/
def pbufRealloc (heap : PbufHeap Address) (p : Address) (newLen : UInt16) :
    Option (PbufHeap Address) := do
  let pbuf ← heap p
  if newLen ≥ pbuf.totLen then some heap
  else pbufReallocLoop (newLen - pbuf.totLen) (Fintype.card Address) heap p newLen

/-- The payload starts earlier or later. The result tells whether the call failed. -/
def pbufHeader (heap : PbufHeap Address) (p : Address) (headerSizeIncrement : Int16) :
    Option (PbufHeap Address × UInt8) := do
  let pbuf ← heap p
  let increment := headerSizeIncrement.toInt
  let payload := (pbuf.payload : Int) - increment
  let moved :=
    { pbuf with
      payload := payload.toNat, len := pbuf.len + headerSizeIncrement.toUInt16,
      totLen := pbuf.totLen + headerSizeIncrement.toUInt16 }
  if increment = 0 then some (heap, 0)
  else if increment < 0 ∧ pbuf.len.toNat < increment.natAbs then some (heap, 1)
  else
    match pbuf.type with
    | .ram | .pool => if payload < 0 then some (heap, 1) else some (heap.set p moved, 0)
    | .rom | .ref => if increment < 0 then some (heap.set p moved, 0) else some (heap, 1)

/-- The loop copies the bytes of the buffers from an offset. -/
def pbufCopyPartialLoop (heap : PbufHeap Address) :
    Nat → Option Address → UInt16 → UInt16 → Option (List UInt8)
  | _, none, _, _ => some []
  | 0, some _, _, _ => none
  | turns + 1, some p, len, offset =>
      if len = 0 then some []
      else do
        let pbuf ← heap p
        if offset ≠ 0 ∧ offset ≥ pbuf.len then
          pbufCopyPartialLoop heap turns pbuf.next len (offset - pbuf.len)
        else
          let rest := pbuf.len - offset
          let bufCopyLen := if rest > len then len else rest
          let copied ← pbufCopyPartialLoop heap turns pbuf.next (len - bufCopyLen) 0
          some (((pbuf.memory.drop (pbuf.payload + offset.toNat)).take bufCopyLen.toNat) ++ copied)

/-- The bytes that the call stores in the buffer of the caller. -/
def pbufCopyPartial (heap : PbufHeap Address) (p : Address) (len offset : UInt16) :
    Option (List UInt8) :=
  pbufCopyPartialLoop heap (Fintype.card Address) (some p) len offset

/-- The number of buffers in a chain, in a byte. -/
def pbufClenLoop (heap : PbufHeap Address) : Nat → Option Address → UInt8 → Option UInt8
  | _, none, len => some len
  | 0, some _, _ => none
  | turns + 1, some p, len => do
      let pbuf ← heap p
      pbufClenLoop heap turns pbuf.next (len + 1)

def pbufClen (heap : PbufHeap Address) (p : Option Address) : Option UInt8 :=
  pbufClenLoop heap (Fintype.card Address) p 0

/-- The caller writes bytes into the payload of a buffer. -/
def store (heap : PbufHeap Address) (p : Address) (offset : Nat) (bytes : List UInt8) :
    Option (PbufHeap Address) := do
  let pbuf ← heap p
  let start := pbuf.payload + offset
  some (heap.set p
    { pbuf with
      memory := pbuf.memory.take start ++ bytes ++ pbuf.memory.drop (start + bytes.length) })

end PbufHeap

end NnpCamera.Network
