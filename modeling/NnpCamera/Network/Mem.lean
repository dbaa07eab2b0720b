/-
This file models the heap of the network stack, whose chunks are linked by headers in the same memory.
-/

import NnpCamera.Library.Memory
import NnpCamera.Parameters.Packet
import Mathlib.Algebra.Group.Nat.Defs

namespace NnpCamera.Network
open Library
open Parameters (littleEndian littleEndian_halves)

def memSizeAligned : Nat := 16000
def sizeofStructMem : Nat := 8
def minSizeAligned : Nat := 12

/-- `LWIP_MEM_ALIGN_SIZE` rounds up to four bytes. -/
def lwipMemAlignSize (size : Nat) : Nat := (size + 3) / 4 * 4

/-- The header of a chunk. `next` and `prev` are offsets in the heap. -/
structure Mem where
  next : UInt16
  prev : UInt16
  used : UInt8

namespace Mem

/-- The bytes of a header, with the low byte of each number first. -/
def byte (mem : Mem) : Nat → UInt8
  | 0 => mem.next.toUInt8
  | 1 => (mem.next >>> 8).toUInt8
  | 2 => mem.prev.toUInt8
  | 3 => (mem.prev >>> 8).toUInt8
  | _ => mem.used

end Mem

/-- The bytes of the heap from `ram` on. -/
abbrev Ram := Memory UInt8

namespace Ram
variable (ram : Ram)

/-- The header at an offset. -/
def mem (place : Nat) : Mem where
  next := littleEndian (ram place) (ram (place + 1))
  prev := littleEndian (ram (place + 2)) (ram (place + 3))
  used := ram (place + 4)

def put (place : Nat) (mem : Mem) : Ram := fun address =>
  if place ≤ address ∧ address < place + 5 then mem.byte (address - place) else ram address

/-- An assignment to one field of a header. -/
def setNext (place next : Nat) : Ram :=
  ram.put place { ram.mem place with next := UInt16.ofNat next }

def setPrev (place prev : Nat) : Ram :=
  ram.put place { ram.mem place with prev := UInt16.ofNat prev }

def setUsed (place : Nat) (used : UInt8) : Ram :=
  ram.put place { ram.mem place with used := used }

/-- The bytes of a chunk after its header, computed with 32 bits. -/
def room (place : Nat) : Nat :=
  ((ram.mem place).next.toNat + 2 ^ 32 - (place + sizeofStructMem)) % 2 ^ 32

/-- The loop of `mem_malloc` goes along the chain to a free chunk that is big enough. -/
def scan (size : Nat) : Nat → Nat → Option (Option Nat)
  | 0, _ => none
  | passes + 1, ptr =>
      if ptr < memSizeAligned - size then
        if (ram.mem ptr).used = 0 ∧ size ≤ ram.room ptr then some (some ptr)
        else scan size passes (ram.mem ptr).next.toNat
      else some none

/-- The loop that finds the next free chunk. -/
def skipUsed : Nat → Nat → Option Nat
  | 0, _ => none
  | passes + 1, cur =>
      if (ram.mem cur).used ≠ 0 ∧ cur ≠ memSizeAligned then
        skipUsed passes (ram.mem cur).next.toNat
      else some cur

end Ram

/-- The variables of the heap. The end of the heap is at a constant offset. -/
structure MemHeap where
  ram : Ram
  lfree : Nat

namespace MemHeap
variable (heap : MemHeap)

/-- `mem_init` makes one free chunk and the header of the end. -/
def memInit : MemHeap where
  ram := (heap.ram.put 0 { next := UInt16.ofNat memSizeAligned, prev := 0, used := 0 }).put
    memSizeAligned
    { next := UInt16.ofNat memSizeAligned, prev := UInt16.ofNat memSizeAligned, used := 1 }
  lfree := 0

/-- `plug_holes` joins a free chunk with the chunk after it and with the chunk before it. -/
def plugNext (mem : Nat) : MemHeap :=
  let nmem := (heap.ram.mem mem).next.toNat
  if mem ≠ nmem ∧ (heap.ram.mem nmem).used = 0 ∧ nmem ≠ memSizeAligned then
    let next := (heap.ram.mem nmem).next.toNat
    { ram := (heap.ram.setNext mem next).setPrev next mem
      lfree := if heap.lfree = nmem then mem else heap.lfree }
  else heap

def plugPrev (mem : Nat) : MemHeap :=
  let pmem := (heap.ram.mem mem).prev.toNat
  if pmem ≠ mem ∧ (heap.ram.mem pmem).used = 0 then
    let next := (heap.ram.mem mem).next.toNat
    { ram := (heap.ram.setNext pmem next).setPrev next pmem
      lfree := if heap.lfree = mem then pmem else heap.lfree }
  else heap

def plugHoles (mem : Nat) : MemHeap := (heap.plugNext mem).plugPrev mem

/-- `mem_free` takes a pointer as its distance from `ram`, so a pointer below `ram` is far above the
end. -/
def memFree : Option Nat → MemHeap
  | none => heap
  | some rmem =>
      if memSizeAligned ≤ rmem then heap
      else
        let mem := rmem - sizeofStructMem
        plugHoles { ram := heap.ram.setUsed mem 0
                    lfree := if mem < heap.lfree then mem else heap.lfree } mem

/-- The size of a chunk for a request. The alignment may pass the end of 16 bits. -/
def blockSize (size : UInt16) : Nat :=
  let size := lwipMemAlignSize size.toNat % 2 ^ 16
  if size < minSizeAligned then minSizeAligned else size

/-- A new free chunk from `ptr2` to the end of the chunk `ptr`. -/
def cut (ram : Ram) (ptr ptr2 next : Nat) : Ram :=
  let ram := (ram.put ptr2 { next := UInt16.ofNat next, prev := UInt16.ofNat ptr, used := 0 }).setNext
    ptr ptr2
  if next ≠ memSizeAligned then ram.setPrev next ptr2 else ram

/-- `mem_trim` moves the end of a chunk down. -/
def memTrim (rmem : Nat) (newsize : UInt16) : Option Nat × MemHeap :=
  let newsize := blockSize newsize
  if memSizeAligned < newsize then (none, heap)
  else if memSizeAligned ≤ rmem then (some rmem, heap)
  else
    let ptr := rmem - sizeofStructMem
    let next := (heap.ram.mem ptr).next.toNat
    let size := (next + 2 ^ 32 - ptr - sizeofStructMem) % 2 ^ 16
    if size < newsize then (none, heap)
    else if newsize = size then (some rmem, heap)
    else
      let ptr2 := (ptr + sizeofStructMem + newsize) % 2 ^ 16
      if (heap.ram.mem next).used = 0 then
        (some rmem,
          { ram := cut heap.ram ptr ptr2 (heap.ram.mem next).next.toNat
            lfree := if heap.lfree = next then ptr2 else heap.lfree })
      else if newsize + sizeofStructMem + minSizeAligned ≤ size then
        (some rmem,
          { ram := cut heap.ram ptr ptr2 next
            lfree := if ptr2 < heap.lfree then ptr2 else heap.lfree })
      else (some rmem, heap)

/-- `mem_malloc` marks the chunk as used, and splits it when the rest is big enough. -/
def take (ram : Ram) (ptr size : Nat) : Ram :=
  if size + sizeofStructMem + minSizeAligned ≤ ram.room ptr then
    (cut ram ptr ((ptr + sizeofStructMem + size) % 2 ^ 16) (ram.mem ptr).next.toNat).setUsed ptr 1
  else ram.setUsed ptr 1

/-- The heap has fewer chunks than bytes, so its loops end within so many passes. -/
def passes : Nat := memSizeAligned + 1

def memMalloc (size : UInt16) : Option (Option Nat × MemHeap) :=
  if size = 0 then some (none, heap)
  else
    let size := blockSize size
    if memSizeAligned < size then some (none, heap)
    else
      (heap.ram.scan size passes heap.lfree).bind fun
        | none => some (none, heap)
        | some ptr =>
            let ram := take heap.ram ptr size
            let found := some (ptr + sizeofStructMem)
            if ptr = heap.lfree then
              (ram.skipUsed passes ptr).map fun lfree => (found, { ram := ram, lfree := lfree })
            else some (found, { heap with ram := ram })

end MemHeap

end NnpCamera.Network
