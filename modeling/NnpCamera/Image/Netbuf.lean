/-
This file models the network buffers and the calls that `imgcamera_task` makes on them.
-/

import NnpCamera.Library.Memory

namespace NnpCamera.Image
open Library

/-- The results of the lwIP calls. -/
inductive ErrT where
  | ok
  | mem
  | buf
  | timeout
  | rte
  | inprogress
  | val
  | wouldblock
  | use
  | isconn
  | abrt
  | rst
  | clsd
  | conn
  | arg
  | netif
  deriving DecidableEq, Repr

/-- `SIZEOF_STRUCT_PBUF` is the aligned size of the structure in front of the data. -/
def sizeofStructPbuf : Nat := 16

/-- `LWIP_MEM_ALIGN` rounds up to a multiple of four bytes. -/
def lwipMemAlign (size : Nat) : Nat := (size + 3) / 4 * 4

/-- A buffer in RAM. Offsets count from the start of its structure. -/
structure Pbuf where
  memory : Memory UInt8
  payload : Nat
  len : Nat
  totLen : Nat

/-- The room that `pbuf_alloc` leaves for the headers below the IP payload. -/
def pbufIp : Nat := 14 + 20

/-- The room that `pbuf_alloc` leaves for the headers below the transport payload. -/
def pbufTransport : Nat := 14 + 20 + 20

/-- `pbuf_alloc` takes a block of the heap for a `PBUF_RAM` buffer and does not clear it. -/
def pbufAlloc (heap : Memory UInt8) (layer length : Nat) : Pbuf where
  memory := heap
  payload := lwipMemAlign (sizeofStructPbuf + layer)
  len := length
  totLen := length

/-- `netbuf_alloc` takes one buffer with room for all headers. -/
def netbufAlloc (heap : Memory UInt8) (size : Nat) : Pbuf := pbufAlloc heap pbufTransport size

namespace Pbuf

/-- `mymemcpy` copies bytes to an offset of the payload. -/
def copyIn (buffer : Pbuf) (offset : Nat) (source : Memory UInt8) (count : Nat) : Pbuf :=
  { buffer with memory := buffer.memory.copy (buffer.payload + offset) source count }

/-- This assignment stores one byte at an offset of the payload. -/
def write (buffer : Pbuf) (offset : Nat) (value : UInt8) : Pbuf :=
  { buffer with memory := Function.update buffer.memory (buffer.payload + offset) value }

/-- The bytes that the buffer holds. -/
def bytes (buffer : Pbuf) : List UInt8 := buffer.memory.read buffer.payload buffer.len

end Pbuf

/-- The network gives heap blocks to `netbuf_alloc` and answers `netconn_send`, which may change
the caller's buffer. -/
structure Net (Network : Type) where
  heap : Network → Memory UInt8
  netconnSend : Network → Pbuf → ErrT × Pbuf × Network

end NnpCamera.Image
