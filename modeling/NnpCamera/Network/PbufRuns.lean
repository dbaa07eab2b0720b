/-
This file shows what any order of calls on packet buffers keeps, when the callers own what they give.
-/

import NnpCamera.Library.Runs
import NnpCamera.Network.PbufAlloc

namespace NnpCamera.Network
open Library PbufHeap

/-- The buffers and the packets of all holders. A holder with two references occurs twice. -/
@[ext] structure Packets (Address : Type) where
  heap : PbufHeap Address
  held : List Address

/-- A caller calls `pbuf.c` or writes into a payload. -/
inductive PbufCall (Address : Type) where
  | alloc (layer : PbufLayer) (length : UInt16) (type : PbufType) (blocks : List (FreeBlock Address))
  | refer (layer : PbufLayer) (type : PbufType) (bytes : List UInt8) (blocks : List (FreeBlock Address))
  | ref (p : Address)
  | free (p : Address)
  | cat (h t : Address)
  | chain (h t : Address)
  | realloc (p : Address) (newLen : UInt16)
  | header (p : Address) (headerSizeIncrement : Int16)
  | store (p : Address) (offset : Nat) (bytes : List UInt8)

namespace Packets
variable {Address : Type} [DecidableEq Address] [Fintype Address]

def empty : Packets Address := ⟨fun _ => none, []⟩

/-- A call without a result reads or writes a buffer that is not allocated. -/
def step (state : Packets Address) : PbufCall Address → Option (Packets Address)
  | .alloc layer length type blocks => do
      let (heap, p) ← pbufAlloc layer length type blocks state.heap
      some ⟨heap, p.toList ++ state.held⟩
  | .refer layer type bytes blocks => do
      let (heap, p) ← pbufAlloc layer (UInt16.ofNat bytes.length) type blocks state.heap
      match p with
      | none => some ⟨heap, state.held⟩
      | some p => do
          let heap ← PbufHeap.refer heap p bytes
          some ⟨heap, p :: state.held⟩
  | .ref p => do
      let heap ← state.heap.pbufRef p
      some ⟨heap, p :: state.held⟩
  | .free p => do
      let (heap, _) ← state.heap.pbufFree (some p)
      some ⟨heap, state.held.erase p⟩
  | .cat h t => do
      let heap ← state.heap.pbufCat h t
      some ⟨heap, state.held.erase t⟩
  | .chain h t => do
      let heap ← state.heap.pbufChain h t
      some ⟨heap, state.held⟩
  | .realloc p newLen => do
      let heap ← state.heap.pbufRealloc p newLen
      some ⟨heap, state.held⟩
  | .header p headerSizeIncrement => do
      let (heap, _) ← state.heap.pbufHeader p headerSizeIncrement
      some ⟨heap, state.held⟩
  | .store p offset bytes => do
      let heap ← state.heap.store p offset bytes
      some ⟨heap, state.held⟩

/-- The allocators hand out distinct free blocks. -/
structure Unused (state : Packets Address) (blocks : List (FreeBlock Address)) : Prop where
  free : ∀ block ∈ blocks, state.heap block.address = none
  distinct : (blocks.map FreeBlock.address).Nodup

/-- The buffer has one reference. -/
def Single (state : Packets Address) (p : Address) : Prop :=
  (state.heap p).map Pbuf.ref = some 1

/-- The second packet of a join belongs to its holder, and the buffers of the first packet have no
other reference. -/
structure Joins (state : Packets Address) (h t : Address) : Prop where
  first : h ∈ state.held
  second : t ∈ state.held.erase h
  owner : ∃ nodes, state.heap.Private h nodes

/-- What a caller promises. It gives packets that it holds, changes buffers that nobody shares, and
counts no reference past the largest count. -/
def Allowed (state : Packets Address) : PbufCall Address → Prop
  | .alloc layer length type blocks =>
      state.Unused blocks ∧ (type = .ram ∨ type = .pool) ∧ (type = .ram →
        lwipMemAlignSize (sizeofStructPbuf + layer.offset) + lwipMemAlignSize length.toNat < 65536)
  | .refer _ type bytes blocks =>
      state.Unused blocks ∧ (type = .rom ∨ type = .ref) ∧ bytes.length < 65536
  | .ref p => ∃ pbuf, state.heap p = some pbuf ∧ pbuf.ref ≠ 65535
  | .free p => p ∈ state.held
  | .cat h t => state.Joins h t
  | .chain h t => state.Joins h t ∧ (state.heap t).map Pbuf.ref ≠ some 65535
  | .realloc p newLen => p ∈ state.held ∧
      ∃ nodes, state.heap.cells.Chain (some p) nodes ∧ state.heap.OwnedUpTo nodes newLen.toNat
  | .header p _ => p ∈ state.held ∧ state.Single p
  | .store p offset bytes => p ∈ state.held ∧ state.Single p ∧
      offset + bytes.length ≤ (state.heap.dataOf p).length

/-- The packet that a call may change. -/
def changed : PbufCall Address → Option Address
  | .alloc .. | .refer .. | .ref _ | .free _ => none
  | .cat h _ | .chain h _ => some h
  | .realloc p _ | .header p _ | .store p _ _ => some p

/-- What a call does to the packets and to their holders. An allocation fails only without enough free
blocks. -/
def Effect (before after : Packets Address) : PbufCall Address → Prop
  | .alloc layer length type blocks =>
      after = before ∧ (blocks = [] ∨ type = .pool ∧ poolRoom layer blocks.length < length.toNat) ∨
        ∃ p parts, after.held = p :: before.held ∧ after.heap.Packet p parts ∧
          parts.flatten.length = length.toNat
  | .refer _ _ bytes blocks =>
      after = before ∧ blocks = [] ∨
        ∃ p, after.held = p :: before.held ∧ after.heap.Packet p [bytes]
  | .ref p => after.held = p :: before.held ∧
      ∀ parts, before.heap.Packet p parts → after.heap.Packet p parts
  | .free p => after.held = before.held.erase p
  | .cat h t => after.held = before.held.erase t ∧ ∀ front back, before.heap.Packet h front →
      before.heap.Packet t back → after.heap.Packet h (front ++ back)
  | .chain h t => after.held = before.held ∧ ∀ front back, before.heap.Packet h front →
      before.heap.Packet t back → after.heap.Packet h (front ++ back)
  | .realloc p newLen => after.held = before.held ∧ ∀ parts, before.heap.Packet p parts →
      after.heap.Packet p
        (if parts.flatten.length % 65536 ≤ newLen.toNat then parts else cutParts newLen.toNat parts)
  | .header p headerSizeIncrement => after.held = before.held ∧ ∀ first rest,
      before.heap.Packet p (first :: rest) →
        (after = before ∧ ∃ pbuf, before.heap p = some pbuf ∧
          HeaderBlocked pbuf headerSizeIncrement.toInt) ∨
        ∃ moved, after.heap.Packet p (moved :: rest) ∧
          HeaderMoved headerSizeIncrement.toInt first moved
  | .store p offset bytes => after.held = before.held ∧ ∀ first rest,
      before.heap.Packet p (first :: rest) → after.heap.Packet p
        ((first.take offset ++ bytes ++ first.drop (offset + bytes.length)) :: rest)

/-- A call runs, has its effect and keeps the other packets. -/
structure Does (before : Packets Address) (call : PbufCall Address) (after : Packets Address) :
    Prop where
  runs : before.step call = some after
  sound : after.heap.Sound after.held
  effect : before.Effect after call
  same : ∀ other ∈ before.held, other ∈ after.held → changed call ≠ some other →
    ∀ parts, before.heap.Packet other parts → after.heap.Packet other parts

variable {state : Packets Address} {p h t : Address}

theorem sound_perm {heap : PbufHeap Address} {held others : List Address} (sound : heap.Sound held)
    (perm : held.Perm others) : heap.Sound others :=
  ⟨sound.counted.perm perm, sound.total, sound.inside, sound.size⟩

theorem alive_held {heap : PbufHeap Address} {held : List Address} (sound : heap.Sound held)
    (inside : p ∈ held) : ∃ pbuf, heap p = some pbuf :=
  cells_alive (sound.counted.held p inside)

/-- The holder of a packet gives it, and the other holders keep theirs. -/
theorem sound_held (sound : state.heap.Sound state.held) (inside : p ∈ state.held) :
    state.heap.Sound (p :: state.held.erase p) :=
  sound_perm sound (List.perm_cons_erase inside)

theorem sound_back {heap : PbufHeap Address} (inside : p ∈ state.held)
    (sound : heap.Sound (p :: state.held.erase p)) : heap.Sound state.held :=
  sound_perm sound (List.perm_cons_erase inside).symm

omit [Fintype Address] in
theorem held_other {other : Address} (inside : other ∈ state.held) (apart : some p ≠ some other) :
    other ∈ state.held.erase p :=
  (List.mem_erase_of_ne fun same => apart (congrArg some same.symm)).mpr inside

/-- A call that changes no allocated buffer keeps all packets. -/
theorem packet_stays {heap after : PbufHeap Address} {held : List Address} {parts : List (List UInt8)}
    (sound : heap.Sound held) (inside : p ∈ held)
    (stays : ∀ node, heap node ≠ none → after node = heap node) (packet : heap.Packet p parts) :
    after.Packet p parts := packet.frame fun other reaches => by
  have alive : (heap.cells other).isSome := by
    induction reaches with
    | refl => exact sound.counted.held p inside
    | tail _ points _ => exact sound.counted.next _ _ points
  obtain ⟨pbuf, found⟩ := cells_alive alive
  exact stays other (by simp [found])

/-- A packet stays when the call only changes counts and frees buffers of others. -/
theorem packet_kept {heap after : PbufHeap Address} {held : List Address} {parts : List (List UInt8)}
    (kept : heap.Kept after) (sound : after.Sound held) (inside : p ∈ held)
    (packet : heap.Packet p parts) : after.Packet p parts := by
  obtain ⟨pbuf, found⟩ := alive_held sound inside
  exact kept.packet sound.counted (by rw [found]; rfl) packet

omit [DecidableEq Address] [Fintype Address] in
theorem Single.found (single : state.Single p) :
    ∃ pbuf, state.heap p = some pbuf ∧ pbuf.ref = 1 :=
  Option.map_eq_some_iff.mp single

theorem does_alloc {layer : PbufLayer} {length : UInt16} {type : PbufType}
    {blocks : List (FreeBlock Address)} (sound : state.heap.Sound state.held)
    (allowed : state.Allowed (.alloc layer length type blocks)) :
    ∃ after, state.Does (.alloc layer length type blocks) after := by
  obtain ⟨unused, kind, fits⟩ := allowed
  cases blocks with
  | nil => exact ⟨state, rfl, sound, Or.inl ⟨rfl, Or.inl rfl⟩, fun _ _ _ _ _ packet => packet⟩
  | cons block rest =>
      obtain ⟨heap, given, result, ⟨rfl, rfl⟩ | ⟨rfl, fine, ⟨parts, packet, size⟩, stays⟩⟩ :=
        sound.pbufAlloc layer length kind fits unused.free unused.distinct
      · refine ⟨state, ?_, sound, Or.inl ⟨rfl, pbufAlloc_none result⟩, fun _ _ _ _ _ packet => packet⟩
        rw [step, result]
        rfl
      · refine ⟨⟨heap, block.address :: state.held⟩, ?_, fine, Or.inr ⟨_, parts, rfl, packet, size⟩,
          fun other inside _ _ parts packet => packet_stays sound inside stays packet⟩
        rw [step, result]
        rfl

theorem does_refer {layer : PbufLayer} {type : PbufType} {bytes : List UInt8}
    {blocks : List (FreeBlock Address)} (sound : state.heap.Sound state.held)
    (allowed : state.Allowed (.refer layer type bytes blocks)) :
    ∃ after, state.Does (.refer layer type bytes blocks) after := by
  obtain ⟨unused, kind, short⟩ := allowed
  cases blocks with
  | nil => exact ⟨state, rfl, sound, Or.inl ⟨rfl, rfl⟩, fun _ _ _ _ _ packet => packet⟩
  | cons block rest =>
      obtain ⟨made, heap, result, referred, fine, packet, stays⟩ :=
        sound.refer layer rest kind short (unused.free block (List.mem_cons_self ..))
      refine ⟨⟨heap, block.address :: state.held⟩, ?_, fine, Or.inr ⟨_, rfl, packet⟩,
        fun other inside _ _ parts packet => packet_stays sound inside stays packet⟩
      rw [step, result, Option.bind_eq_bind, Option.bind_some]
      simp only [referred, Option.bind_eq_bind, Option.bind_some]

theorem does_ref (sound : state.heap.Sound state.held) (allowed : state.Allowed (.ref p)) :
    ∃ after, state.Does (.ref p) after := by
  obtain ⟨pbuf, found, room⟩ := allowed
  obtain ⟨heap, result, fine, kept⟩ := sound.pbufRef found room
  refine ⟨⟨heap, p :: state.held⟩, ?_, fine, ⟨rfl, fun parts packet =>
    packet_kept kept fine (List.mem_cons_self ..) packet⟩, fun other _ inside _ parts packet =>
    packet_kept kept fine inside packet⟩
  rw [step, result]
  rfl

theorem does_free (sound : state.heap.Sound state.held) (allowed : state.Allowed (.free p)) :
    ∃ after, state.Does (.free p) after := by
  obtain ⟨heap, total, result, fine, kept⟩ := (sound_held sound allowed).pbufFree
  refine ⟨⟨heap, state.held.erase p⟩, ?_, fine, rfl, fun other _ inside _ parts packet =>
    packet_kept kept fine inside packet⟩
  rw [step, result]
  rfl

omit [Fintype Address] in
theorem Joins.perm (joins : state.Joins h t) :
    state.held.Perm (h :: t :: (state.held.erase h).erase t) :=
  (List.perm_cons_erase joins.first).trans ((List.perm_cons_erase joins.second).cons h)

omit [Fintype Address] in
/-- The holder of the first packet takes over the second one. -/
theorem Joins.rest (joins : state.Joins h t) :
    (state.held.erase t).Perm (h :: (state.held.erase h).erase t) := by
  have swapped := (joins.perm.trans (List.Perm.swap t h _)).erase t
  rwa [List.erase_cons_head] at swapped

omit [Fintype Address] in
theorem Joins.other (joins : state.Joins h t) {other : Address} (inside : other ∈ state.held)
    (apart : some h ≠ some other) : other ∈ t :: (state.held.erase h).erase t := by
  rcases List.mem_cons.mp (joins.perm.mem_iff.mp inside) with same | member
  · exact absurd (congrArg some same.symm) apart
  · exact member

theorem does_cat (sound : state.heap.Sound state.held) (allowed : state.Allowed (.cat h t)) :
    ∃ after, state.Does (.cat h t) after := by
  have joins : state.Joins h t := allowed
  obtain ⟨nodes, owner⟩ := joins.owner
  have sound := sound_perm sound joins.perm
  obtain ⟨tail, found⟩ := alive_held sound (List.mem_cons_of_mem _ (List.mem_cons_self ..))
  obtain ⟨whole, others⟩ := sound.joined_packets owner tail.totLen
  refine ⟨⟨state.heap.joined t tail.totLen nodes, state.held.erase t⟩, ?_,
    sound_perm (sound.joined owner found) joins.rest.symm, ⟨rfl, whole⟩, fun other inside _ apart =>
    others other (joins.other inside apart)⟩
  rw [step, sound.pbufCat owner found]
  rfl

theorem does_chain (sound : state.heap.Sound state.held) (allowed : state.Allowed (.chain h t)) :
    ∃ after, state.Does (.chain h t) after := by
  obtain ⟨joins, room⟩ := allowed
  obtain ⟨nodes, owner⟩ := joins.owner
  have sound := sound_perm sound joins.perm
  obtain ⟨tail, found⟩ := alive_held sound (List.mem_cons_of_mem _ (List.mem_cons_self ..))
  obtain ⟨whole, others⟩ := sound.joined_packets owner tail.totLen
  have away : t ∉ nodes := by
    obtain ⟨rest, rfl⟩ := owner.cons
    exact owner.owned.unreached sound.counted (List.mem_cons_self ..) .refl
  have still : state.heap.joined t tail.totLen nodes t = some tail := by
    rw [joined_outside away, found]
  have count : tail.ref ≠ 65535 := fun most => room (by rw [found, Option.map_some, most])
  obtain ⟨shared, referred, fine, kept⟩ := (sound.joined owner found).pbufRef still count
  have fine := sound_perm fine ((List.Perm.swap h t _).trans joins.perm.symm)
  refine ⟨⟨shared, state.held⟩, ?_, fine, ⟨rfl, fun front back first second =>
    packet_kept kept fine joins.first (whole front back first second)⟩,
    fun other inside _ apart parts packet =>
      packet_kept kept fine inside (others other (joins.other inside apart) parts packet)⟩
  simp only [step, PbufHeap.pbufChain, sound.pbufCat owner found, referred, Option.bind_eq_bind,
    Option.bind_some]

theorem does_realloc {newLen : UInt16} (sound : state.heap.Sound state.held)
    (allowed : state.Allowed (.realloc p newLen)) : ∃ after, state.Does (.realloc p newLen) after := by
  obtain ⟨inside, nodes, chain, owned⟩ := allowed
  obtain ⟨heap, result, fine, packets, others⟩ := (sound_held sound inside).pbufRealloc chain owned
  refine ⟨⟨heap, state.held⟩, ?_, sound_back inside fine, ⟨rfl, packets⟩,
    fun other inside _ apart => others other (held_other inside apart)⟩
  rw [step, result]
  rfl

theorem does_header {headerSizeIncrement : Int16} (sound : state.heap.Sound state.held)
    (allowed : state.Allowed (.header p headerSizeIncrement)) :
    ∃ after, state.Does (.header p headerSizeIncrement) after := by
  obtain ⟨inside, single⟩ := allowed
  obtain ⟨pbuf, found, one⟩ := single.found
  obtain ⟨heap, code, result, fine, others, packets⟩ :=
    (sound_held sound inside).pbufHeader found one headerSizeIncrement
  refine ⟨⟨heap, state.held⟩, ?_, sound_back inside fine, ⟨rfl, fun first rest packet => ?_⟩,
    fun other inside _ apart => others other (held_other inside apart)⟩
  · rw [step, result]
    rfl
  · rcases packets first rest packet with ⟨-, moved⟩ | ⟨rfl, same⟩
    · exact Or.inr moved
    · exact Or.inl ⟨Packets.ext same rfl, pbuf, found, pbufHeader_blocked found result⟩

theorem does_store {offset : Nat} {bytes : List UInt8} (sound : state.heap.Sound state.held)
    (allowed : state.Allowed (.store p offset bytes)) :
    ∃ after, state.Does (.store p offset bytes) after := by
  obtain ⟨inside, single, fits⟩ := allowed
  obtain ⟨pbuf, found, one⟩ := single.found
  rw [sound.data_length found] at fits
  obtain ⟨heap, result, fine, others, packets⟩ := (sound_held sound inside).store found one fits
  refine ⟨⟨heap, state.held⟩, ?_, sound_back inside fine, ⟨rfl, packets⟩,
    fun other inside _ apart => others other (held_other inside apart)⟩
  rw [step, result]
  rfl

/-- Each allowed call runs. -/
theorem does {call : PbufCall Address} (sound : state.heap.Sound state.held)
    (allowed : state.Allowed call) : ∃ after, state.Does call after := by
  cases call with
  | alloc layer length type blocks => exact does_alloc sound allowed
  | refer layer type bytes blocks => exact does_refer sound allowed
  | ref p => exact does_ref sound allowed
  | free p => exact does_free sound allowed
  | cat h t => exact does_cat sound allowed
  | chain h t => exact does_chain sound allowed
  | realloc p newLen => exact does_realloc sound allowed
  | header p headerSizeIncrement => exact does_header sound allowed
  | store p offset bytes => exact does_store sound allowed

end Packets

section Runs
variable {Address : Type} [DecidableEq Address] [Fintype Address] {state : Packets Address}
open Packets

/-- The callers in any order, with the buffers that they share. -/
def packetSystem (Address : Type) [DecidableEq Address] [Fintype Address] :
    System (Packets Address) (PbufCall Address) := ⟨Packets.step⟩

theorem empty_sound : (Packets.empty : Packets Address).heap.Sound Packets.empty.held where
  counted := Cells.counted_empty
  total _ _ found := nomatch found
  inside _ _ found := nomatch found
  size _ _ found := nomatch found

/-- The counts and the lengths are right in each state. -/
theorem sound_of_reaches (reached : (packetSystem Address).Reaches Packets.Allowed .empty state) :
    state.heap.Sound state.held :=
  reached.invariant empty_sound fun before call after sound allowed stepped => by
    obtain ⟨other, does⟩ := Packets.does sound allowed
    have same : after = other := Option.some_inj.mp (stepped.symm.trans does.runs)
    exact same ▸ does.sound

/-- One byte in RAM. -/
def smallPbuf : Pbuf (Fin 2) :=
  { next := none, memory := [0, 0, 0, 0], payload := 0, totLen := 1, len := 1, type := .ram, flags := 0,
    ref := 1 }

def allocSmall (p : Fin 2) : PbufCall (Fin 2) := .alloc .raw 1 .ram [⟨p, fun _ => 0⟩]

def onePacket : Packets (Fin 2) := ⟨PbufHeap.set (fun _ => none) 0 smallPbuf, [0]⟩
def twoPackets : Packets (Fin 2) := ⟨onePacket.heap.set 1 smallPbuf, [1, 0]⟩

theorem allocSmall_allowed {state : Packets (Fin 2)} {p : Fin 2} (free : state.heap p = none) :
    state.Allowed (allocSmall p) :=
  ⟨⟨fun _ inside => List.mem_singleton.mp inside ▸ free, List.nodup_singleton _⟩, Or.inl rfl,
    fun _ => by decide⟩

theorem onePacket_reached : (packetSystem (Fin 2)).Reaches Packets.Allowed .empty onePacket :=
  .next .start (allocSmall_allowed (p := 0) rfl) rfl

theorem twoPackets_reached : (packetSystem (Fin 2)).Reaches Packets.Allowed .empty twoPackets :=
  .next onePacket_reached (allocSmall_allowed (p := 1) rfl) rfl

def freedPacket : Packets (Fin 2) := ⟨Function.update onePacket.heap 0 none, []⟩

theorem freedPacket_reached : (packetSystem (Fin 2)).Reaches Packets.Allowed .empty freedPacket := by
  have allowed : onePacket.Allowed (.free 0) := List.mem_singleton_self _
  exact .next onePacket_reached allowed rfl

end Runs

end NnpCamera.Network
