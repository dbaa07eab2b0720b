/-
This file shows that `pbuf_alloc` gives a new packet or leaves the heap as it was.
-/

import NnpCamera.Network.PbufCalls

namespace NnpCamera.Network.PbufHeap
open Library

section Allocation
variable {Address : Type} [DecidableEq Address] {heap before : PbufHeap Address} {p r : Address}
  {held front : List Address} {remLen length : Nat}

/-- The loop frees all buffers of a packet that belongs to one holder. -/
theorem pbufFreeLoop_private {nodes : List Address} {start : Option Address} {turns : Nat}
    (chain : heap.cells.Chain start nodes) (distinct : nodes.Nodup)
    (single : ∀ node ∈ nodes, (heap node).map Pbuf.ref = some 1) (enough : nodes.length ≤ turns)
    (count : UInt8) :
    ∃ total, pbufFreeLoop turns heap start count =
      some (fun p => if p ∈ nodes then none else heap p, total) := by
  induction nodes generalizing heap start turns count with
  | nil =>
      cases chain
      refine ⟨count, ?_⟩
      unfold pbufFreeLoop
      simp only [List.not_mem_nil, if_false]
  | cons node rest ih =>
      obtain ⟨rfl, cell, found, next⟩ := chain
      obtain ⟨pbuf, present, rfl⟩ := cells_cell found
      obtain ⟨outside, distinct⟩ := List.nodup_cons.mp distinct
      obtain ⟨turns, rfl⟩ := turns_left enough
      have one := single node (List.mem_cons_self ..)
      rw [present, Option.map_some, Option.some_inj] at one
      have apart (other : Address) (inside : other ∈ rest) : other ≠ node :=
        fun same => outside (same ▸ inside)
      have chain : (cells (Function.update heap node none)).Chain pbuf.next rest :=
        next.congr fun other inside => by
          rw [cells_free, Function.update_of_ne (apart other inside)]
      have singles (other : Address) (inside : other ∈ rest) :
          (Function.update heap node none other).map Pbuf.ref = some 1 := by
        rw [Function.update_of_ne (apart other inside)]
        exact single other (List.mem_cons_of_mem _ inside)
      obtain ⟨total, freed⟩ :=
        ih chain distinct singles (Nat.le_of_succ_le_succ enough) (count + 1)
      refine ⟨total, ?_⟩
      rw [pbufFreeLoop, present, Option.bind_eq_bind, Option.bind_some]
      simp only [one, UInt16.sub_self, if_true]
      refine freed.trans (congrArg (fun heap => some (heap, total)) (funext fun other => ?_))
      by_cases same : other = node
      · rw [same, if_neg outside, if_pos (List.mem_cons_self ..), Function.update_self]
      · rw [Function.update_of_ne same]
        simp only [List.mem_cons, same, false_or]

variable [Fintype Address]

/-- A chain from the pool between two turns. Its last buffer does not point to the rest yet. -/
structure Allocating (before heap : PbufHeap Address) (p r : Address) (front held : List Address)
    (remLen length : Nat) : Prop where
  counted : heap.cells.Counted (p :: held)
  chain : heap.cells.Chain (some p) (front ++ [r])
  single : ∀ node ∈ front ++ [r], (heap node).map Pbuf.ref = some 1
  last : (heap r).bind Pbuf.next = none
  same : ∀ node, node ∉ front ++ [r] → heap node = before node
  fresh : ∀ node ∈ front ++ [r], before node = none
  total : ∀ node pbuf, heap node = some pbuf →
    pbuf.totLen = pbuf.len + heap.totLenOf pbuf.next + if node = r then UInt16.ofNat remLen else 0
  inside : ∀ node pbuf, heap node = some pbuf →
    pbuf.payload + pbuf.len.toNat ≤ pbuf.memory.length
  size : ∀ node pbuf, heap node = some pbuf → pbuf.type = .ram ∨ pbuf.type = .pool →
    pbuf.memory.length < 65536
  length : ((front ++ [r]).map heap.dataOf).flatten.length + remLen = length

/-- A finished chain is a packet of its holder. -/
theorem Allocating.done (allocating : Allocating before heap p r front held 0 length) :
    heap.Sound (p :: held) ∧ ∃ parts, heap.Packet p parts ∧ parts.flatten.length = length := by
  refine ⟨⟨allocating.counted, fun node pbuf found => ?_, allocating.inside, allocating.size⟩,
    _, ⟨_, allocating.chain, rfl⟩, allocating.length⟩
  have total := allocating.total node pbuf found
  rw [total]
  split
  · exact UInt16.add_zero _
  · exact UInt16.add_zero _

/-- A failed call frees its chain. -/
theorem Allocating.failed (allocating : Allocating before heap p r front held remLen length) :
    ∃ total, heap.pbufFree (some p) = some (before, total) := by
  have distinct := allocating.counted.chain_nodup allocating.chain
  obtain ⟨total, freed⟩ := pbufFreeLoop_private allocating.chain distinct allocating.single
    distinct.length_le_card 0
  refine ⟨total, freed.trans (congrArg (fun heap => some (heap, total)) (funext fun node => ?_))⟩
  split
  · exact (allocating.fresh node ‹_›).symm
  · exact allocating.same node ‹_›

/-- A buffer that is ready for a chain. -/
structure Fresh (new : Pbuf Address) (remLen left : Nat) : Prop where
  next : new.next = none
  ref : new.ref = 1
  inside : new.payload + new.len.toNat ≤ new.memory.length
  size : new.type = .ram ∨ new.type = .pool → new.memory.length < 65536
  len : new.len.toNat + left = remLen
  total : new.totLen = UInt16.ofNat remLen

omit [DecidableEq Address] [Fintype Address] in
theorem Fresh.sum {new : Pbuf Address} {left : Nat} (fresh : Fresh new remLen left) :
    new.totLen = new.len + 0 + UInt16.ofNat left := by
  rw [fresh.total, ← fresh.len, UInt16.add_zero, UInt16.ofNat_add, UInt16.ofNat_toNat]

omit [DecidableEq Address] [Fintype Address] in
theorem Fresh.data {new : Pbuf Address} {left : Nat} (fresh : Fresh new remLen left) :
    new.data.length = new.len.toNat := by
  have inside := fresh.inside
  rw [Pbuf.data, List.length_take, List.length_drop]
  omega

/-- The first buffer starts a chain. -/
theorem Sound.allocate {new : Pbuf Address} (sound : heap.Sound held) (free : heap p = none)
    (fresh : Fresh new length remLen) :
    Allocating heap (heap.set p new) p p [] held remLen length := by
  have none : heap.cells p = none := by rw [cells, free, Option.map_none]
  have counted := sound.counted.create none
  have same : (heap.set p new).cells = Function.update heap.cells p (some ⟨Option.none, 1⟩) := by
    rw [cells_set, fresh.next, fresh.ref]
    rfl
  have away (node : Address) (pbuf : Pbuf Address) (found : heap node = some pbuf) :
      (heap.set p new).totLenOf pbuf.next = heap.totLenOf pbuf.next := by
    cases pointed : pbuf.next with
    | none => rfl
    | some target =>
        have alive := sound.counted.next node target
          ((Cells.points_some (cells_some found)).mpr pointed)
        have apart : target ≠ p := fun equal => by
          rw [equal, none] at alive
          cases alive
        rw [totLenOf, totLenOf, Option.bind_some, Option.bind_some, set, Function.update_of_ne apart]
  have found (node : Address) (pbuf : Pbuf Address) (present : heap.set p new node = some pbuf) :
      node = p ∧ pbuf = new ∨ node ≠ p ∧ heap node = some pbuf := by
    rw [set, Function.update_apply] at present
    split at present
    · exact Or.inl ⟨‹_›, (Option.some_inj.mp present).symm⟩
    · exact Or.inr ⟨‹_›, present⟩
  have there : heap.set p new p = some new := Function.update_self ..
  refine ⟨same ▸ counted, ⟨rfl, _, cells_some there, fresh.next⟩, fun node inside => ?_, ?_,
    fun node outside => ?_, fun node inside => ?_, fun node pbuf present => ?_,
    fun node pbuf present => ?_, fun node pbuf present type => ?_, ?_⟩
  · rw [List.mem_singleton.mp inside, there, Option.map_some, fresh.ref]
  · rw [there, Option.bind_some, fresh.next]
  · have apart : node ≠ p := fun equal => outside (equal ▸ List.mem_singleton_self _)
    rw [set, Function.update_of_ne apart]
  · rw [List.mem_singleton.mp inside, free]
  · rcases found node pbuf present with ⟨rfl, rfl⟩ | ⟨apart, before⟩
    · rw [if_pos rfl, fresh.next]
      exact fresh.sum
    · rw [if_neg apart, away node pbuf before, sound.total node pbuf before, UInt16.add_zero]
  · rcases found node pbuf present with ⟨rfl, rfl⟩ | ⟨apart, before⟩
    · exact fresh.inside
    · exact sound.inside node pbuf before
  · rcases found node pbuf present with ⟨rfl, rfl⟩ | ⟨apart, before⟩
    · exact fresh.size type
    · exact sound.size node pbuf before type
  · rw [List.nil_append, List.map_singleton, List.flatten_singleton, dataOf, there]
    exact (congrArg (· + remLen) fresh.data).trans fresh.len

/-- The heap after one turn of the loop. -/
def linkedNext (heap : PbufHeap Address) (r : Address) (last : Pbuf Address) (q : Address)
    (new : Pbuf Address) : PbufHeap Address :=
  (heap.set r { last with next := some q }).set q new

section Turn
variable {q : Address} {last new pbuf : Pbuf Address} {left : Nat}

omit [Fintype Address] in
theorem linkedNext_new : heap.linkedNext r last q new q = some new :=
  Function.update_self ..

omit [Fintype Address] in
theorem linkedNext_last (apart : q ≠ r) :
    heap.linkedNext r last q new r = some { last with next := some q } := by
  rw [linkedNext, set, Function.update_of_ne apart.symm, set, Function.update_self]

omit [Fintype Address] in
theorem linkedNext_other {node : Address} (fresh : node ≠ q) (apart : node ≠ r) :
    heap.linkedNext r last q new node = heap node := by
  rw [linkedNext, set, Function.update_of_ne fresh, set, Function.update_of_ne apart]

omit [Fintype Address] in
theorem linkedNext_some {node : Address} (found : heap.linkedNext r last q new node = some pbuf) :
    node = q ∧ pbuf = new ∨ node ≠ q ∧ node = r ∧ pbuf = { last with next := some q } ∨
      node ≠ q ∧ node ≠ r ∧ heap node = some pbuf := by
  rw [linkedNext, set, Function.update_apply] at found
  split at found
  · exact Or.inl ⟨‹_›, (Option.some_inj.mp found).symm⟩
  · rw [set, Function.update_apply] at found
    split at found
    · exact Or.inr (Or.inl ⟨‹_›, ‹_›, (Option.some_inj.mp found).symm⟩)
    · exact Or.inr (Or.inr ⟨‹_›, ‹_›, found⟩)

/-- One turn links the next buffer to the counted cells. -/
theorem Allocating.linked (allocating : Allocating before heap p r front held remLen length)
    (found : heap r = some last) (free : before q = none) (outside : q ∉ front ++ [r])
    (fresh : Fresh new remLen left) :
    (heap.linkedNext r last q new).cells.Counted (p :: held) := by
  have apart : r ≠ q := fun equal => outside (by simp [equal])
  have none : heap.cells q = none := by
    rw [cells, allocating.same q outside, free, Option.map_none]
  have ended : last.next = Option.none := by
    have last := allocating.last
    rwa [found, Option.bind_some] at last
  have created := allocating.counted.create none
  have cell : Function.update heap.cells q (some ⟨Option.none, 1⟩) r =
      some ⟨last.next, last.ref.toNat⟩ := by
    rw [Function.update_of_ne apart, cells_some found]
  have attached := created.attach cell ended fun reaches => by
    rcases reaches.cases_head with equal | ⟨next, points, -⟩
    · exact apart equal.symm
    · rw [Cells.points_update, if_pos rfl] at points
      cases points
  rw [Function.update_comm apart.symm] at attached
  rw [linkedNext, cells_set, cells_set, fresh.next, fresh.ref]
  exact attached

/-- One turn links the next buffer to the chain. -/
theorem Allocating.next (allocating : Allocating before heap p r front held remLen length)
    (found : heap r = some last) (free : before q = none) (outside : q ∉ front ++ [r])
    (fresh : Fresh new remLen left) :
    Allocating before (heap.linkedNext r last q new) p q (front ++ [r]) held left length := by
  have counted := allocating.linked found free outside fresh
  have apart : q ≠ r := fun equal => outside (by simp [equal])
  have distinct := allocating.counted.chain_nodup allocating.chain
  have others (node : Address) (inside : node ∈ front) : node ≠ q ∧ node ≠ r :=
    ⟨fun equal => outside (equal ▸ List.mem_append_left _ inside), fun equal =>
      (List.nodup_append.mp distinct).2.2 node inside r (List.mem_singleton_self _) equal⟩
  have chain : (heap.linkedNext r last q new).cells.Chain (some p) (front ++ r :: [q]) :=
    allocating.chain.extend
      (fun node inside => by
        rw [cells, cells, linkedNext_other (others node inside).1 (others node inside).2])
      (cells_some (linkedNext_last apart))
      ⟨rfl, _, cells_some linkedNext_new, fresh.next⟩
  have unseen (node : Address) (pbuf : Pbuf Address) (there : heap node = some pbuf) :
      (heap.linkedNext r last q new).totLenOf pbuf.next = heap.totLenOf pbuf.next := by
    cases pointed : pbuf.next with
    | none => rfl
    | some target =>
        have alive := allocating.counted.next node target
          ((Cells.points_some (cells_some there)).mpr pointed)
        have different : target ≠ q := fun equal => by
          rw [equal, cells, allocating.same q outside, free] at alive
          cases alive
        rw [totLenOf, totLenOf, Option.bind_some, Option.bind_some]
        by_cases same : target = r
        · rw [same, linkedNext_last apart, found]
          rfl
        · rw [linkedNext_other different same]
  have data (node : Address) (inside : node ∈ front ++ [r]) :
      (heap.linkedNext r last q new).dataOf node = heap.dataOf node := by
    rw [dataOf, dataOf]
    rcases List.mem_append.mp inside with earlier | same
    · rw [linkedNext_other (others node earlier).1 (others node earlier).2]
    · rw [List.mem_singleton.mp same, linkedNext_last apart, found]
      rfl
  refine ⟨counted, by simpa using chain, fun node inside => ?_, ?_, fun node away => ?_,
    fun node inside => ?_, fun node pbuf present => ?_, fun node pbuf present => ?_,
    fun node pbuf present type => ?_, ?_⟩
  · rcases List.mem_append.mp inside with among | same
    · have one := allocating.single node among
      rcases List.mem_append.mp among with earlier | same
      · rw [linkedNext_other (others node earlier).1 (others node earlier).2, one]
      · rw [List.mem_singleton.mp same, found] at one
        rw [List.mem_singleton.mp same, linkedNext_last apart]
        exact one
    · rw [List.mem_singleton.mp same, linkedNext_new, Option.map_some, fresh.ref]
  · rw [linkedNext_new, Option.bind_some, fresh.next]
  · rw [List.mem_append, not_or] at away
    have notNew : node ≠ q := fun equal => away.2 (equal ▸ List.mem_singleton_self _)
    have notLast : node ≠ r := fun equal => away.1 (by simp [equal])
    rw [linkedNext_other notNew notLast, allocating.same node away.1]
  · rcases List.mem_append.mp inside with among | same
    · exact allocating.fresh node among
    · rw [List.mem_singleton.mp same, free]
  · rcases linkedNext_some present with ⟨rfl, rfl⟩ | ⟨away, rfl, rfl⟩ | ⟨away, distant, there⟩
    · rw [if_pos rfl, fresh.next]
      exact fresh.sum
    · have total := allocating.total node last found
      rw [if_pos rfl] at total
      have ended := allocating.last
      rw [found, Option.bind_some] at ended
      have length : (heap.linkedNext node last q new).totLenOf (some q) = UInt16.ofNat remLen := by
        rw [totLenOf, Option.bind_some, linkedNext_new, Option.map_some, fresh.total]
        rfl
      rw [if_neg away, UInt16.add_zero, total, ended, length]
      exact congrArg (· + UInt16.ofNat remLen) (UInt16.add_zero _)
    · have total := allocating.total node pbuf there
      rw [if_neg distant] at total
      rw [if_neg away, unseen node pbuf there, total]
  · rcases linkedNext_some present with ⟨rfl, rfl⟩ | ⟨away, rfl, rfl⟩ | ⟨away, distant, there⟩
    · exact fresh.inside
    · exact allocating.inside node last found
    · exact allocating.inside node pbuf there
  · rcases linkedNext_some present with ⟨rfl, rfl⟩ | ⟨away, rfl, rfl⟩ | ⟨away, distant, there⟩
    · exact fresh.size type
    · exact allocating.size node last found type
    · exact allocating.size node pbuf there type
  · have before := allocating.length
    have len := fresh.len
    rw [List.map_append, List.map_singleton, List.map_congr_left data, List.flatten_append,
      List.flatten_singleton, List.length_append, dataOf, linkedNext_new]
    have added := fresh.data
    simp only [Option.map_some, Option.getD_some]
    omega

end Turn

/-- A call gives a packet of the asked length and changes no other buffer, or it changes nothing. -/
def Allocates (before : PbufHeap Address) (p : Address) (held : List Address) (length : Nat)
    (result : Option (PbufHeap Address × Option Address)) : Prop :=
  ∃ after given, result = some (after, given) ∧
    (given = none ∧ after = before ∨
      given = some p ∧ after.Sound (p :: held) ∧
        (∃ parts, after.Packet p parts ∧ parts.flatten.length = length) ∧
        ∀ node, before node ≠ none → after node = before node)

theorem Allocating.finish (allocating : Allocating before heap p r front held remLen length)
    (whole : remLen = 0) : before.Allocates p held length (some (heap, some p)) := by
  subst whole
  obtain ⟨sound, packet⟩ := allocating.done
  exact ⟨heap, some p, rfl, Or.inr ⟨rfl, sound, packet, fun node used =>
    allocating.same node fun inside => used (allocating.fresh node inside)⟩⟩

omit [DecidableEq Address] [Fintype Address] in
theorem bytes_length (block : FreeBlock Address) (size : Nat) : (block.bytes size).length = size := by
  rw [FreeBlock.bytes, List.length_map, List.length_range]

omit [DecidableEq Address] [Fintype Address] in
/-- A block from the pool has as many bytes of the packet as fit behind the room for the headers. -/
theorem fresh_pool (block : FreeBlock Address) (payload remLen : Nat)
    (start : payload ≤ pbufPoolBufsizeAligned) :
    Fresh
      { next := none, memory := block.bytes pbufPoolBufsizeAligned, payload := payload,
        totLen := UInt16.ofNat remLen,
        len := UInt16.ofNat (min remLen (pbufPoolBufsizeAligned - payload)), type := .pool, flags := 0,
        ref := 1 : Pbuf Address } remLen (remLen - min remLen (pbufPoolBufsizeAligned - payload)) := by
  have cut : (UInt16.ofNat (min remLen (pbufPoolBufsizeAligned - payload))).toNat =
      min remLen (pbufPoolBufsizeAligned - payload) := by
    rw [UInt16.toNat_ofNat']
    exact Nat.mod_eq_of_lt (by rw [pbufPoolBufsizeAligned]; omega)
  refine ⟨rfl, rfl, ?_, fun _ => ?_, ?_, rfl⟩
  · simp only [bytes_length, cut]
    omega
  · rw [bytes_length]
    decide
  · simp only [cut]
    omega

/-- The loop gives a packet of the asked length, or it leaves the heap as it was. -/
theorem Allocating.tail {blocks : List (FreeBlock Address)}
    (allocating : Allocating before heap p r front held remLen length)
    (free : ∀ block ∈ blocks, before block.address = none ∧ block.address ∉ front ++ [r])
    (distinct : (blocks.map FreeBlock.address).Nodup) :
    before.Allocates p held length (pbufAllocTail p r remLen blocks heap) := by
  induction blocks generalizing heap r front remLen with
  | nil =>
      unfold pbufAllocTail
      split
      · exact allocating.finish ‹_›
      · obtain ⟨total, freed⟩ := allocating.failed
        exact ⟨before, none, by simp only [freed, Option.map_some], Or.inl ⟨rfl, rfl⟩⟩
  | cons block rest ih =>
      unfold pbufAllocTail
      split
      · exact allocating.finish ‹_›
      · rename_i more
        have one := allocating.single r (by simp)
        obtain ⟨last, found, -⟩ := Option.map_eq_some_iff.mp one
        obtain ⟨unused, outside⟩ := free block (List.mem_cons_self ..)
        have fresh := fresh_pool block 0 remLen (Nat.zero_le _)
        have next := allocating.next found unused outside fresh
        simp only [found, Option.bind_eq_bind, Option.bind_some]
        obtain ⟨absent, distinct⟩ := List.nodup_cons.mp distinct
        refine ih next (fun other inside => ?_) distinct
        obtain ⟨empty, away⟩ := free other (List.mem_cons_of_mem _ inside)
        refine ⟨empty, fun member => ?_⟩
        rcases List.mem_append.mp member with among | same
        · exact away among
        · exact absent (List.mem_map.mpr ⟨other, inside, List.mem_singleton.mp same⟩)

/-- A finished first buffer is a packet of its holder. -/
theorem Sound.given {new : Pbuf Address} (sound : heap.Sound held) (free : heap p = none)
    (fresh : Fresh new length 0) :
    heap.Allocates p held length (some (heap.set p new, some p)) :=
  (sound.allocate free fresh).finish rfl

omit [DecidableEq Address] [Fintype Address] in
/-- The header keeps the room of a layer aligned. -/
theorem offset_aligned (layer : PbufLayer) :
    lwipMemAlignSize (sizeofStructPbuf + layer.offset) =
      sizeofStructPbuf + lwipMemAlignSize layer.offset := by
  cases layer with
  | transport => rfl
  | ip => rfl
  | link => rfl
  | raw => rfl

omit [DecidableEq Address] [Fintype Address] in
theorem offset_small (layer : PbufLayer) : lwipMemAlignSize layer.offset ≤ 56 := by
  cases layer with
  | transport => decide
  | ip => decide
  | link => decide
  | raw => decide

/-- `pbuf_alloc` gives a packet in RAM or from the pool, or a null pointer. In RAM the sizes must not
wrap. -/
theorem Sound.pbufAlloc {block : FreeBlock Address} {rest : List (FreeBlock Address)} {type : PbufType}
    (sound : heap.Sound held) (layer : PbufLayer) (length : UInt16) (kind : type = .ram ∨ type = .pool)
    (fits : type = .ram →
      lwipMemAlignSize (sizeofStructPbuf + layer.offset) + lwipMemAlignSize length.toNat < 65536)
    (free : ∀ other ∈ block :: rest, heap other.address = none)
    (distinct : ((block :: rest).map FreeBlock.address).Nodup) :
    heap.Allocates block.address held length.toNat
      (pbufAlloc layer length type (block :: rest) heap) := by
  have unused := free block (List.mem_cons_self ..)
  have aligned := offset_aligned layer
  have small := offset_small layer
  rcases kind with rfl | rfl
  · have whole := fits rfl
    have size : (block.bytes (ramSize layer.offset length.toNat - sizeofStructPbuf)).length =
        lwipMemAlignSize layer.offset + lwipMemAlignSize length.toNat := by
      rw [bytes_length, ramSize, Nat.mod_eq_of_lt whole, aligned]
      omega
    have room : length.toNat ≤ lwipMemAlignSize length.toNat := by
      rw [lwipMemAlignSize]
      omega
    refine sound.given unused ⟨rfl, rfl, ?_, fun _ => ?_, rfl, ?_⟩
    · simp only [size, aligned]
      omega
    · rw [size]
      omega
    · exact UInt16.ofNat_toNat.symm
  · have start : lwipMemAlignSize (sizeofStructPbuf + layer.offset) - sizeofStructPbuf =
        lwipMemAlignSize layer.offset := by rw [aligned, Nat.add_sub_cancel_left]
    have fresh := fresh_pool block (lwipMemAlignSize layer.offset) length.toNat
      (Nat.le_trans small (by decide))
    rw [UInt16.ofNat_toNat] at fresh
    simp only [PbufHeap.pbufAlloc, start]
    refine (sound.allocate unused fresh).tail (fun other inside => ⟨?_, fun same => ?_⟩) ?_
    · exact free other (List.mem_cons_of_mem _ inside)
    · rw [List.nil_append, List.mem_singleton] at same
      exact (List.nodup_cons.mp distinct).1 (List.mem_map.mpr ⟨other, inside, same⟩)
    · exact (List.nodup_cons.mp distinct).2

/-- The bytes of a packet that a number of blocks from the pool has room for. -/
def poolRoom (layer : PbufLayer) (blocks : Nat) : Nat :=
  pbufPoolBufsizeAligned * blocks - lwipMemAlignSize layer.offset

/-- The loop fails only when the rest of the packet needs more blocks. -/
theorem pbufAllocTail_none {blocks : List (FreeBlock Address)} {after : PbufHeap Address}
    (failed : pbufAllocTail p r remLen blocks heap = some (after, none)) :
    pbufPoolBufsizeAligned * blocks.length < remLen := by
  induction blocks generalizing heap r remLen with
  | nil =>
      unfold pbufAllocTail at failed
      split at failed
      · cases failed
      · rw [List.length_nil]
        omega
  | cons block rest ih =>
      unfold pbufAllocTail at failed
      split at failed
      · cases failed
      · obtain ⟨last, -, turned⟩ := Option.bind_eq_some_iff.mp failed
        have more := ih turned
        rw [List.length_cons, Nat.mul_succ]
        omega

/-- A call fails only without enough free blocks. -/
theorem pbufAlloc_none {blocks : List (FreeBlock Address)} {layer : PbufLayer} {length : UInt16}
    {type : PbufType} {after : PbufHeap Address}
    (failed : PbufHeap.pbufAlloc layer length type blocks heap = some (after, none)) :
    blocks = [] ∨ type = .pool ∧ poolRoom layer blocks.length < length.toNat := by
  cases blocks with
  | nil => exact Or.inl rfl
  | cons block rest =>
      cases type with
      | pool =>
          have small := offset_small layer
          have most : lwipMemAlignSize layer.offset ≤ pbufPoolBufsizeAligned :=
            Nat.le_trans small (by decide)
          have more := pbufAllocTail_none failed
          refine Or.inr ⟨rfl, ?_⟩
          rw [poolRoom, List.length_cons, Nat.mul_succ]
          omega
      | ram => cases failed
      | rom => cases failed
      | ref => cases failed

/-- A caller lets a new buffer refer to its bytes. -/
theorem Sound.refer {block : FreeBlock Address} {type : PbufType} {bytes : List UInt8}
    (sound : heap.Sound held) (layer : PbufLayer) (rest : List (FreeBlock Address))
    (kind : type = .rom ∨ type = .ref) (short : bytes.length < 65536)
    (free : heap block.address = none) :
    ∃ made after,
      PbufHeap.pbufAlloc layer (UInt16.ofNat bytes.length) type (block :: rest) heap =
        some (made, some block.address) ∧
      made.refer block.address bytes = some after ∧ after.Sound (block.address :: held) ∧
        after.Packet block.address [bytes] ∧ ∀ node, heap node ≠ none → after node = heap node := by
  have length : (UInt16.ofNat bytes.length).toNat = bytes.length := by
    rw [UInt16.toNat_ofNat']
    exact Nat.mod_eq_of_lt short
  let new : Pbuf Address :=
    { next := none, memory := bytes, payload := 0, totLen := UInt16.ofNat bytes.length,
      len := UInt16.ofNat bytes.length, type := type, flags := 0, ref := 1 }
  have outside : ¬ (new.type = .ram ∨ new.type = .pool) := by
    rcases kind with rfl | rfl
    · simp [new]
    · simp [new]
  have fresh : Fresh new bytes.length 0 :=
    ⟨rfl, rfl, by simp [new, length], fun inside => absurd inside outside, length, rfl⟩
  obtain ⟨after, given, same, result⟩ := sound.given free fresh
  obtain ⟨rfl, rfl⟩ := Prod.mk.inj (Option.some_inj.mp same)
  rcases result with ⟨none, -⟩ | ⟨-, fine, -, stays⟩
  · cases none
  · have found : heap.set block.address new block.address = some new := Function.update_self ..
    refine ⟨heap.set block.address { new with memory := [] }, _, ?_, ?_, fine,
      ⟨[block.address], ⟨rfl, _, cells_some found, rfl⟩, ?_⟩, stays⟩
    · rcases kind with rfl | rfl
      · rfl
      · rfl
    · rw [PbufHeap.refer, set, Function.update_self, Option.bind_eq_bind, Option.bind_some, set, set,
        Function.update_idem]
    · rw [List.map_singleton, dataOf, found, Option.map_some, Option.getD_some, Pbuf.data, List.drop_zero,
        length, List.take_length]

end Allocation

end NnpCamera.Network.PbufHeap
