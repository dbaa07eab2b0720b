/-
This file relates the headers in the heap to a row of chunks, and shows what the stores to the headers
do to the row.
-/

import NnpCamera.Library.FirstFit
import NnpCamera.Network.Mem

namespace NnpCamera.Network
open Library
open Chunk (width held Shaped)
open Parameters (littleEndian_halves)

namespace Ram
variable {ram after : Ram} {place other : Nat}

@[simp] theorem mem_put_self (ram : Ram) (place : Nat) (mem : Mem) :
    (ram.put place mem).mem place = mem := by
  obtain ⟨next, prev, used⟩ := mem
  simp [Ram.mem, put, Mem.byte, littleEndian_halves]

/-- A store leaves the other addresses. -/
theorem put_outside (ram : Ram) (mem : Mem) {address : Nat}
    (outside : address < place ∨ place + 5 ≤ address) : ram.put place mem address = ram address := by
  rw [put, if_neg]
  omega

/-- A header depends on its own bytes only. -/
theorem mem_congr (same : ∀ address, place ≤ address → address < place + 5 →
    after address = ram address) : after.mem place = ram.mem place := by
  have bytes (index : Nat) (inside : index < 5) : after (place + index) = ram (place + index) :=
    same _ (Nat.le_add_right ..) (by omega)
  simp only [Ram.mem]
  rw [bytes 1 (by decide), bytes 2 (by decide), bytes 3 (by decide), bytes 4 (by decide)]
  rw [show after place = ram place from bytes 0 (by decide)]

theorem mem_put_apart (ram : Ram) (mem : Mem) (apart : place + 5 ≤ other ∨ other + 5 ≤ place) :
    (ram.put place mem).mem other = ram.mem other :=
  mem_congr fun _ _ _ => put_outside ram mem (by omega)

/-- The header of a chunk has the offsets of its neighbours. -/
structure Heads (ram : Ram) (prev start : Nat) (chunk : Chunk) : Prop where
  next : (ram.mem start).next.toNat = start + chunk.size
  prev : (ram.mem start).prev.toNat = prev
  used : (ram.mem start).used = 0 ↔ chunk.used = false

/-- The headers of a row of chunks. -/
def Chain (ram : Ram) : Nat → Nat → List Chunk → Prop
  | _, _, [] => True
  | prev, start, chunk :: rest =>
      ram.Heads prev start chunk ∧ ram.Chain start (start + chunk.size) rest

/-- The start of the last chunk of a row, or of the chunk before the row. -/
def lastStart : Nat → Nat → List Chunk → Nat
  | prev, _, [] => prev
  | _, start, chunk :: rest => lastStart start (start + chunk.size) rest

@[simp] theorem lastStart_concat (prev start : Nat) (front : List Chunk) (last : Chunk) :
    lastStart prev start (front ++ [last]) = start + width front := by
  induction front generalizing prev start with
  | nil => rfl
  | cons chunk front ih => simp [lastStart, ih, Nat.add_assoc]

theorem chain_append (ram : Ram) (prev start : Nat) (before rest : List Chunk) :
    ram.Chain prev start (before ++ rest) ↔
      ram.Chain prev start before ∧
        ram.Chain (lastStart prev start before) (start + width before) rest := by
  induction before generalizing prev start with
  | nil => simp [Chain, lastStart]
  | cons chunk before ih => simp [Chain, lastStart, ih, and_assoc, Nat.add_assoc]

/-- A row depends on its own bytes only. -/
theorem Chain.congr {prev start : Nat} {chunks : List Chunk} (chain : ram.Chain prev start chunks)
    (sized : ∀ chunk ∈ chunks, sizeofStructMem ≤ chunk.size)
    (same : ∀ address, start ≤ address → address < start + width chunks →
      after address = ram address) : after.Chain prev start chunks := by
  induction chunks generalizing prev start with
  | nil => trivial
  | cons chunk rest ih =>
      obtain ⟨heads, tail⟩ := chain
      have enough : 8 ≤ chunk.size := sized chunk List.mem_cons_self
      rw [Chunk.width_cons] at same
      have header : after.mem start = ram.mem start :=
        mem_congr fun address low high => same address low (by omega)
      refine ⟨⟨header ▸ heads.next, header ▸ heads.prev, header ▸ heads.used⟩, ?_⟩
      apply ih tail fun next member => sized next (List.mem_cons_of_mem _ member)
      exact fun address low high => same address (by omega) (by omega)

/-- A store to the first header sets its link back. -/
theorem chain_setPrev {prev start value : Nat} {chunks : List Chunk}
    (chain : ram.Chain prev start chunks) (sized : ∀ chunk ∈ chunks, sizeofStructMem ≤ chunk.size)
    (small : value < 2 ^ 16) : (ram.setPrev start value).Chain value start chunks := by
  cases chunks with
  | nil => trivial
  | cons chunk rest =>
      obtain ⟨heads, tail⟩ := chain
      have enough : 8 ≤ chunk.size := sized chunk List.mem_cons_self
      refine ⟨⟨?_, ?_, ?_⟩, tail.congr (fun next member => sized next (List.mem_cons_of_mem _ member)) ?_⟩
      · simpa [setPrev] using heads.next
      · simpa [setPrev] using Nat.mod_eq_of_lt small
      · simpa [setPrev] using heads.used
      · exact fun address low _ => put_outside ram _ (by omega)

/-- A store to a header keeps the mark of the end. -/
theorem last_setPrev (value : Nat) (last : (ram.mem memSizeAligned).used ≠ 0)
    (apart : place = memSizeAligned ∨ place + 5 ≤ memSizeAligned) :
    ((ram.setPrev place value).mem memSizeAligned).used ≠ 0 := by
  obtain rfl | apart := apart
  · simpa [setPrev] using last
  · rwa [setPrev, mem_put_apart _ _ (.inl apart)]

/-- The headers from the start of the heap to its end. -/
structure Represents (ram : Ram) (chunks : List Chunk) : Prop where
  chain : ram.Chain 0 0 chunks
  total : width chunks = memSizeAligned
  sized : ∀ chunk ∈ chunks, sizeofStructMem ≤ chunk.size
  last : (ram.mem memSizeAligned).used ≠ 0

/-- The row has a gap of some size, of which only the first header is known. -/
structure Around (ram : Ram) (before : List Chunk) (size : Nat) (used : Bool) (rest : List Chunk) :
    Prop where
  front : ram.Chain 0 0 before
  prev : (ram.mem (width before)).prev.toNat = lastStart 0 0 before
  used : (ram.mem (width before)).used = 0 ↔ used = false
  tail : ∃ prev, ram.Chain prev (width before + size) rest
  total : width before + size + width rest = memSizeAligned
  sizedBefore : ∀ chunk ∈ before, sizeofStructMem ≤ chunk.size
  sizedRest : ∀ chunk ∈ rest, sizeofStructMem ≤ chunk.size
  last : (ram.mem memSizeAligned).used ≠ 0

variable {before more rest : List Chunk} {chunk : Chunk} {size first second : Nat} {used : Bool}

/-- Some chunks of a row become a gap. -/
theorem Represents.around (represents : ram.Represents (before ++ chunk :: more ++ rest)) :
    ram.Around before (width (chunk :: more)) chunk.used rest := by
  obtain ⟨chain, total, sized, last⟩ := represents
  rw [List.append_assoc, chain_append, chain_append, Nat.zero_add] at chain
  obtain ⟨front, ⟨heads, _⟩, tail⟩ := chain
  refine ⟨front, heads.prev, heads.used, ⟨_, tail⟩, ?_, ?_, ?_, last⟩
  · simpa [Nat.add_assoc] using total
  · exact fun next member => sized next (by simp [member])
  · exact fun next member => sized next (by simp [member])

/-- A gap ends at the end of the heap or at a header before it. -/
theorem Around.stop (around : ram.Around before size used rest) :
    width before + size = memSizeAligned ∨ width before + size + 5 ≤ memSizeAligned := by
  have total := around.total
  cases rest with
  | nil => exact .inl (by simpa using total)
  | cons next rest =>
      have enough : 8 ≤ next.size := around.sizedRest next List.mem_cons_self
      rw [Chunk.width_cons] at total
      omega

/-- New headers in a gap make a row again. -/
theorem Around.close {middle : List Chunk} {back : Nat} (around : ram.Around before size used rest)
    (small : back < 2 ^ 16) (outside : ∀ address,
      address < width before ∨ width before + size ≤ address → after address = ram address)
    (inner : after.Chain (lastStart 0 0 before) (width before) middle)
    (ends : lastStart (lastStart 0 0 before) (width before) middle = back)
    (same : width middle = size) (sized : ∀ chunk ∈ middle, sizeofStructMem ≤ chunk.size) :
    Represents (after.setPrev (width before + size) back) (before ++ middle ++ rest) := by
  have last : (after.mem memSizeAligned).used ≠ 0 := by
    rw [mem_congr fun address low _ => outside address ?_]
    · exact around.last
    · have total := around.total
      omega
  obtain ⟨prev, tail⟩ := around.tail
  refine ⟨?_, ?_, ?_, last_setPrev back last around.stop⟩
  · rw [List.append_assoc, chain_append, chain_append, Nat.zero_add, same, ends]
    refine ⟨?_, ?_, ?_⟩
    · apply around.front.congr around.sizedBefore
      intro address _ high
      rw [setPrev, put_outside _ _ (by omega)]
      exact outside address (.inl (by omega))
    · apply inner.congr sized
      intro address _ high
      exact put_outside _ _ (by omega)
    · have kept : after.Chain prev (width before + size) rest :=
        tail.congr around.sizedRest fun address low _ => outside address (.inr low)
      exact chain_setPrev kept around.sizedRest small
  · simpa [same, Nat.add_assoc] using around.total
  · intro chunk member
    simp only [List.mem_append] at member
    obtain (member | member) | member := member
    · exact around.sizedBefore chunk member
    · exact sized chunk member
    · exact around.sizedRest chunk member

/-- The chunks of a gap become one chunk. -/
theorem Around.merge (around : ram.Around before size used rest) (enough : sizeofStructMem ≤ size) :
    Represents ((ram.setNext (width before) (width before + size)).setPrev (width before + size)
      (width before)) (before ++ [⟨size, used⟩] ++ rest) := by
  have eight : 8 ≤ size := enough
  have small : width before + size < 2 ^ 16 := by
    have stop := around.stop
    have limit : memSizeAligned = 16000 := rfl
    omega
  refine around.close (by omega) (fun address outside => put_outside _ _ (by omega)) ?_ rfl
    (by simp) (by simpa using enough)
  refine ⟨⟨?_, ?_, ?_⟩, trivial⟩
  · simpa [setNext] using Nat.mod_eq_of_lt small
  · simpa [setNext] using around.prev
  · simpa [setNext] using around.used

/-- The link back from the end belongs to no chunk. -/
theorem Represents.of_setPrev {chunks : List Chunk} {back : Nat}
    (represents : (ram.setPrev memSizeAligned back).Represents chunks) : ram.Represents chunks where
  chain := by
    apply represents.chain.congr represents.sized
    intro address _ high
    rw [represents.total] at high
    exact (put_outside _ _ (by omega)).symm
  total := represents.total
  sized := represents.sized
  last := by simpa [setPrev] using represents.last

/-- A gap becomes two chunks. The second one is free. -/
theorem Around.cut (around : ram.Around before (first + second) used rest)
    (enough : sizeofStructMem ≤ first) (more : sizeofStructMem ≤ second) :
    Represents (MemHeap.cut ram (width before) (width before + first)
      (width before + (first + second))) (before ++ [⟨first, used⟩, ⟨second, false⟩] ++ rest) := by
  have eight : 8 ≤ first := enough
  have room : 8 ≤ second := more
  have small : width before + (first + second) < 2 ^ 16 := by
    have stop := around.stop
    have limit : memSizeAligned = 16000 := rfl
    omega
  have heads : Chain ((ram.put (width before + first)
      { next := UInt16.ofNat (width before + (first + second)), prev := UInt16.ofNat (width before),
        used := 0 }).setNext (width before) (width before + first)) (lastStart 0 0 before)
      (width before) [⟨first, used⟩, ⟨second, false⟩] := by
    have apart (mem : Mem) : (ram.put (width before + first) mem).mem (width before) =
        ram.mem (width before) := mem_put_apart _ _ (.inr (by omega))
    have new (mem other : Mem) : ((ram.put (width before + first) mem).put (width before)
        other).mem (width before + first) = mem := by
      rw [mem_put_apart _ _ (.inl (by omega)), mem_put_self]
    rw [setNext]
    refine ⟨⟨?_, ?_, ?_⟩, ⟨?_, ?_, ?_⟩, trivial⟩
    · simpa using Nat.mod_eq_of_lt (by omega : width before + first < 2 ^ 16)
    · simpa [apart] using around.prev
    · simpa [apart] using around.used
    · dsimp only
      rw [new]
      simpa [Nat.add_assoc] using Nat.mod_eq_of_lt small
    · dsimp only
      rw [new]
      simpa using Nat.mod_eq_of_lt (by omega : width before < 2 ^ 16)
    · dsimp only
      rw [new]
      simp
  have back : width before + first < 2 ^ 16 := by omega
  have closed := around.close back
    (fun address outside => by
      rw [setNext, put_outside _ _ (by omega), put_outside _ _ (by omega)]) heads rfl (by simp)
    (by simpa using ⟨enough, more⟩)
  unfold MemHeap.cut
  dsimp only
  split
  next => exact closed
  next ended =>
    rw [not_not.mp ended] at closed ⊢
    exact closed.of_setPrev

/-- The mark of one chunk is set. -/
theorem Represents.setUsed (represents : ram.Represents (before ++ [chunk] ++ rest)) (mark : UInt8) :
    Represents (ram.setUsed (width before) mark) (before ++ [⟨chunk.size, mark ≠ 0⟩] ++ rest) := by
  obtain ⟨chain, total, sized, last⟩ := represents
  have enough : 8 ≤ chunk.size := sized chunk (by simp)
  rw [List.append_assoc, chain_append, chain_append, Nat.zero_add] at chain
  obtain ⟨front, ⟨heads, _⟩, tail⟩ := chain
  have limit : width before + chunk.size + width rest = memSizeAligned := by
    simpa [Nat.add_assoc] using total
  refine ⟨?_, ?_, ?_, ?_⟩
  · rw [List.append_assoc, chain_append, chain_append, Nat.zero_add]
    refine ⟨?_, ⟨⟨?_, ?_, ?_⟩, trivial⟩, ?_⟩
    · apply front.congr fun next member => sized next (by simp [member])
      exact fun address _ high => put_outside _ _ (by omega)
    · simpa [Ram.setUsed] using heads.next
    · simpa [Ram.setUsed] using heads.prev
    · simp [Ram.setUsed]
    · apply tail.congr fun next member => sized next (by simp [member])
      simp only [Chunk.width_cons, Chunk.width_nil]
      exact fun address low _ => put_outside _ _ (by omega)
  · simpa using total
  · intro next member
    simp only [List.mem_append, List.mem_singleton] at member
    obtain (member | rfl) | member := member
    · exact sized next (by simp [member])
    · exact sized chunk (by simp)
    · exact sized next (by simp [member])
  · rwa [Ram.setUsed, mem_put_apart _ _ (.inl (by omega))]

end Ram

end NnpCamera.Network
