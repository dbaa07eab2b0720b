/-
This file shows that the calls of `pbuf.c` keep the references and the lengths of all chains.
-/

import NnpCamera.Library.RefCount
import NnpCamera.Network.Pbuf

namespace NnpCamera.Network.PbufHeap
open Library

section Chains
variable {Address : Type} [DecidableEq Address]

/-- The buffers as cells that count their references. -/
def cells (heap : PbufHeap Address) : Cells Address :=
  fun p => (heap p).map fun pbuf => ⟨pbuf.next, pbuf.ref.toNat⟩

/-- The total length from a buffer on. The end has none. -/
def totLenOf (heap : PbufHeap Address) (p : Option Address) : UInt16 :=
  ((p.bind heap).map Pbuf.totLen).getD 0

/-- The bytes of the buffer at an address. -/
def dataOf (heap : PbufHeap Address) (p : Address) : List UInt8 :=
  ((heap p).map Pbuf.data).getD []

/-- The parts of a packet. -/
def Packet (heap : PbufHeap Address) (p : Address) (parts : List (List UInt8)) : Prop :=
  ∃ nodes, heap.cells.Chain (some p) nodes ∧ nodes.map heap.dataOf = parts

/-- Each count is right, each total length is the sum of the lengths, and each payload is inside its
memory. -/
structure Sound [Fintype Address] (heap : PbufHeap Address) (held : List Address) : Prop where
  counted : heap.cells.Counted held
  total : ∀ p pbuf, heap p = some pbuf → pbuf.totLen = pbuf.len + heap.totLenOf pbuf.next
  inside : ∀ p pbuf, heap p = some pbuf → pbuf.payload + pbuf.len.toNat ≤ pbuf.memory.length
  size : ∀ p pbuf, heap p = some pbuf → pbuf.type = .ram ∨ pbuf.type = .pool →
    pbuf.memory.length < 65536

/-- Each buffer of the new heap was in the old heap, with another count at most. -/
def Kept (heap after : PbufHeap Address) : Prop :=
  ∀ p pbuf, after p = some pbuf → ∃ old, heap p = some old ∧ pbuf = { old with ref := pbuf.ref }

variable {heap after : PbufHeap Address} {p : Address} {pbuf : Pbuf Address} {held : List Address}

theorem cells_set (heap : PbufHeap Address) (p : Address) (pbuf : Pbuf Address) :
    (heap.set p pbuf).cells = Function.update heap.cells p (some ⟨pbuf.next, pbuf.ref.toNat⟩) := by
  funext other
  rw [cells, set, Function.update_apply, Function.update_apply]
  split
  · rfl
  · rfl

theorem cells_free (heap : PbufHeap Address) (p : Address) :
    cells (Function.update heap p none) = Function.update heap.cells p none := by
  funext other
  rw [cells, Function.update_apply, Function.update_apply]
  split
  · rfl
  · rfl

omit [DecidableEq Address] in
theorem cells_some (found : heap p = some pbuf) : heap.cells p = some ⟨pbuf.next, pbuf.ref.toNat⟩ := by
  rw [cells, found, Option.map_some]

omit [DecidableEq Address] in
theorem cells_cell {cell : Cell Address} (found : heap.cells p = some cell) :
    ∃ pbuf, heap p = some pbuf ∧ cell = ⟨pbuf.next, pbuf.ref.toNat⟩ := by
  obtain ⟨pbuf, present, same⟩ := Option.map_eq_some_iff.mp found
  exact ⟨pbuf, present, same.symm⟩

omit [DecidableEq Address] in
theorem cells_alive (alive : (heap.cells p).isSome) : ∃ pbuf, heap p = some pbuf := by
  rw [cells, Option.isSome_map] at alive
  exact Option.isSome_iff_exists.mp alive

omit [DecidableEq Address] in
theorem Kept.refl (heap : PbufHeap Address) : heap.Kept heap :=
  fun _ pbuf found => ⟨pbuf, found, rfl⟩

omit [DecidableEq Address] in
theorem Kept.trans {last : PbufHeap Address} (one : heap.Kept after) (two : after.Kept last) :
    heap.Kept last := fun p pbuf found => by
  obtain ⟨middle, present, same⟩ := two p pbuf found
  obtain ⟨first, there, equal⟩ := one p middle present
  exact ⟨first, there, by rw [same, equal]⟩

theorem kept_count (found : heap p = some pbuf) (ref : UInt16) :
    heap.Kept (heap.set p { pbuf with ref := ref }) := fun other changed present => by
  rw [set, Function.update_apply] at present
  split at present
  · rename_i same
    exact ⟨pbuf, same ▸ found, by rw [← Option.some_inj.mp present]⟩
  · exact ⟨changed, present, rfl⟩

theorem kept_free (heap : PbufHeap Address) (p : Address) :
    heap.Kept (Function.update heap p none) := fun other changed present => by
  rw [Function.update_apply] at present
  split at present
  · cases present
  · exact ⟨changed, present, rfl⟩

variable [Fintype Address]

/-- With right counts the kept buffers stay sound. -/
theorem Sound.kept {others : List Address} (sound : heap.Sound held) (kept : heap.Kept after)
    (counted : after.cells.Counted others) : after.Sound others where
  counted := counted
  total p pbuf found := by
    obtain ⟨old, present, same⟩ := kept p pbuf found
    rw [same]
    simp only
    rw [sound.total p old present]
    congr 1
    cases pointed : old.next with
    | none => rfl
    | some target =>
        have points : after.cells.Points p target :=
          (Cells.points_some (cells_some found)).mpr (by rw [same]; exact pointed)
        obtain ⟨next, there⟩ := cells_alive (counted.next p target points)
        obtain ⟨before, earlier, equal⟩ := kept target next there
        rw [totLenOf, totLenOf, Option.bind_some, Option.bind_some, earlier, there, equal]
        rfl
  inside p pbuf found := by
    obtain ⟨old, present, same⟩ := kept p pbuf found
    rw [same]
    exact sound.inside p old present
  size p pbuf found := by
    obtain ⟨old, present, same⟩ := kept p pbuf found
    rw [same]
    exact sound.size p old present

/-- A kept packet has its parts from before. -/
theorem Kept.packet {parts : List (List UInt8)} (kept : heap.Kept after)
    (counted : after.cells.Counted held) (alive : (after p).isSome) (packet : heap.Packet p parts) :
    after.Packet p parts := by
  obtain ⟨nodes, chain, rfl⟩ := packet
  refine ⟨nodes, ?_⟩
  induction nodes generalizing p with
  | nil => cases chain
  | cons node rest ih =>
      obtain ⟨start, cell, found, next⟩ := chain
      cases start
      obtain ⟨pbuf, present⟩ := Option.isSome_iff_exists.mp alive
      obtain ⟨old, there, same⟩ := kept node pbuf present
      rw [cells_some there, Option.some_inj] at found
      subst found
      have data : after.dataOf node = heap.dataOf node := by
        rw [dataOf, dataOf, present, there, same]
        rfl
      cases pointed : old.next with
      | none =>
          simp only [pointed] at next
          cases rest with
          | nil => exact ⟨⟨rfl, _, cells_some present, by rw [same]; exact pointed⟩, by
              rw [List.map_singleton, data, List.map_singleton]⟩
          | cons second others => cases next.1
      | some target =>
          simp only [pointed] at next
          have points : after.cells.Points node target :=
            (Cells.points_some (cells_some present)).mpr (by rw [same]; exact pointed)
          obtain ⟨chain, equal⟩ := ih (by
            obtain ⟨pbuf, found⟩ := cells_alive (counted.next node target points)
            rw [found]
            rfl) next
          refine ⟨⟨rfl, _, cells_some present, ?_⟩, ?_⟩
          · rw [same]
            simp only [pointed]
            exact chain
          · rw [List.map_cons, List.map_cons, data, equal]

/-- A packet has its buffer count as a bound for the loops. -/
theorem Sound.chain (sound : heap.Sound held) (inside : p ∈ held) :
    ∃ nodes, heap.cells.Chain (some p) nodes ∧ nodes.Nodup ∧ nodes.length ≤ Fintype.card Address := by
  obtain ⟨nodes, chain⟩ := sound.counted.chain (sound.counted.held p inside)
  have distinct := sound.counted.chain_nodup chain
  exact ⟨nodes, chain, distinct, distinct.length_le_card⟩

omit [DecidableEq Address] [Fintype Address] in
theorem ref_pred {ref : UInt16} (positive : 0 < ref.toNat) : (ref - 1).toNat = ref.toNat - 1 := by
  have one : (1 : UInt16) ≤ ref := UInt16.le_iff_toNat_le.mpr positive
  exact UInt16.toNat_sub_of_le _ _ one

omit [DecidableEq Address] [Fintype Address] in
/-- A loop that has a turn for each buffer of a chain has one for the first. -/
theorem turns_left {node : Address} {rest : List Address} {turns : Nat}
    (enough : (node :: rest).length ≤ turns) : ∃ fewer, turns = fewer + 1 :=
  ⟨turns - 1, by rw [List.length_cons] at enough; omega⟩

/-- The loop frees a chain up to the first buffer with another reference. -/
theorem pbufFreeLoop_sound {nodes : List Address} {start : Option Address} {turns : Nat}
    (sound : heap.Sound (start.toList ++ held)) (chain : heap.cells.Chain start nodes)
    (enough : nodes.length ≤ turns) (count : UInt8) :
    ∃ freed total, pbufFreeLoop turns heap start count = some (freed, total) ∧ freed.Sound held ∧
      heap.Kept freed := by
  induction nodes generalizing heap start turns count with
  | nil =>
      cases chain
      exact ⟨heap, count, by unfold pbufFreeLoop; rfl, sound, .refl heap⟩
  | cons node rest ih =>
      have distinct := sound.counted.chain_nodup chain
      obtain ⟨rfl, cell, found, next⟩ := chain
      obtain ⟨pbuf, present, rfl⟩ := cells_cell found
      obtain ⟨turns, rfl⟩ := turns_left enough
      rw [pbufFreeLoop, present, Option.bind_eq_bind, Option.bind_some]
      have positive : 0 < pbuf.ref.toNat := (sound.counted.ref node _ found).2
      have pred := ref_pred positive
      by_cases last : pbuf.ref - 1 = 0
      · rw [last, UInt16.toNat_zero] at pred
        have freed := sound.counted.delete found (by simp only; omega)
        rw [← cells_free] at freed
        have kept := kept_free heap node
        obtain ⟨after, total, result, fine, keeps⟩ := ih (sound.kept kept freed)
          (next.congr fun other inside => by
            have different : other ≠ node := fun same =>
              (List.nodup_cons.mp distinct).1 (same ▸ inside)
            rw [cells_free, Function.update_of_ne different])
          (Nat.le_of_succ_le_succ enough) (count + 1)
        exact ⟨after, total, by simp only [if_pos last]; exact result, fine, kept.trans keeps⟩
      · have shared : pbuf.ref.toNat ≠ 1 := fun one => last (UInt16.toNat_inj.mp (by
          rw [pred, one, UInt16.toNat_zero]))
        have dropped := sound.counted.drop found shared
        have kept := kept_count present (pbuf.ref - 1)
        refine ⟨_, count, by simp only [if_neg last], sound.kept kept ?_, kept⟩
        rw [cells_set, pred]
        exact dropped

/-- A holder gives its reference back. The other packets stay. -/
theorem Sound.pbufFree (sound : heap.Sound (p :: held)) :
    ∃ freed total, heap.pbufFree (some p) = some (freed, total) ∧ freed.Sound held ∧
      heap.Kept freed := by
  obtain ⟨nodes, chain, -, enough⟩ := sound.chain (List.mem_cons_self ..)
  exact pbufFreeLoop_sound sound chain enough 0

/-- A holder shares its packet. -/
theorem Sound.pbufRef (sound : heap.Sound held) (found : heap p = some pbuf)
    (room : pbuf.ref ≠ 65535) :
    ∃ shared, heap.pbufRef p = some shared ∧ shared.Sound (p :: held) ∧ heap.Kept shared := by
  have succ : (pbuf.ref + 1).toNat = pbuf.ref.toNat + 1 := by
    have below := pbuf.ref.toNat_lt
    have less : pbuf.ref.toNat ≠ 65535 := fun same => room (UInt16.toNat_inj.mp same)
    rw [UInt16.toNat_add, UInt16.toNat_one]
    exact Nat.mod_eq_of_lt (by omega)
  have kept := kept_count found (pbuf.ref + 1)
  have shared := sound.counted.share (cells_some found)
  refine ⟨_, by rw [PbufHeap.pbufRef, found]; rfl, sound.kept kept ?_, kept⟩
  rw [cells_set, succ]
  exact shared

omit [DecidableEq Address] [Fintype Address] in
/-- A packet depends on the buffers that it reaches only. -/
theorem Packet.frame {parts : List (List UInt8)} (packet : heap.Packet p parts)
    (same : ∀ other, Relation.ReflTransGen heap.cells.Points p other → after other = heap other) :
    after.Packet p parts := by
  obtain ⟨nodes, chain, rfl⟩ := packet
  have reached (node : Address) (inside : node ∈ nodes) := same node (chain.reaches inside)
  refine ⟨nodes, chain.congr fun node inside => ?_, List.map_congr_left fun node inside => ?_⟩
  · rw [cells, cells, reached node inside]
  · rw [dataOf, dataOf, reached node inside]

/-- The buffers of a first packet get the length of a second one, and the last of them points to it. -/
def joined (heap : PbufHeap Address) (t : Address) (length : UInt16) (nodes : List Address) :
    PbufHeap Address := fun p =>
  if p ∈ nodes then
    (heap p).map fun pbuf =>
      { pbuf with totLen := pbuf.totLen + length, next := pbuf.next.or (some t) }
  else heap p

omit [Fintype Address] in
theorem pbufCatLoop_joined {t : Address} {tail : Pbuf Address} {nodes : List Address} {turns : Nat}
    (chain : heap.cells.Chain (some p) nodes) (distinct : nodes.Nodup) (enough : nodes.length ≤ turns)
    (found : heap t = some tail) (away : t ∉ nodes) :
    pbufCatLoop t turns heap p = some (heap.joined t tail.totLen nodes) := by
  induction nodes generalizing heap p turns with
  | nil => cases chain
  | cons node rest ih =>
      obtain ⟨start, cell, present, next⟩ := chain
      cases start
      obtain ⟨pbuf, there, rfl⟩ := cells_cell present
      obtain ⟨outside, distinct⟩ := List.nodup_cons.mp distinct
      obtain ⟨turns, rfl⟩ := turns_left enough
      have apart : t ≠ node := fun same => away (same ▸ List.mem_cons_self ..)
      simp only [pbufCatLoop, there, found, Option.bind_eq_bind, Option.bind_some]
      cases pointed : pbuf.next with
      | none =>
          simp only [pointed] at next
          have alone : rest = [] := by
            cases rest with
            | nil => rfl
            | cons second others => cases next.1
          subst alone
          simp only [Option.some_inj]
          funext other
          rw [joined, set, Function.update_apply]
          simp only [List.mem_singleton]
          split
          · rename_i same
            rw [same, there, Option.map_some, pointed, Option.none_or]
          · rfl
      | some target =>
          simp only [pointed] at next
          let longer : Pbuf Address := { pbuf with totLen := pbuf.totLen + tail.totLen, next := some target }
          have kept : (heap.set node longer).cells.Chain (some target) rest :=
            next.congr fun other inside => by
              have apart : other ≠ node := fun same => outside (same ▸ inside)
              rw [cells_set, Function.update_of_ne apart]
          have still : heap.set node longer t = some tail := by
            rw [set, Function.update_of_ne apart, found]
          have result := ih kept distinct (Nat.le_of_succ_le_succ enough) still fun inside =>
            away (List.mem_cons_of_mem _ inside)
          refine result.trans (congrArg some (funext fun other => ?_))
          rw [joined, joined, set]
          by_cases same : other = node
          · rw [same, if_neg outside, if_pos (List.mem_cons_self ..), Function.update_self, there,
              Option.map_some, pointed, Option.some_or]
          · rw [Function.update_of_ne same]
            simp only [List.mem_cons, same, false_or]

/-- A packet of one holder has one reference to each of its buffers. -/
structure Private (heap : PbufHeap Address) (p : Address) (nodes : List Address) : Prop where
  chain : heap.cells.Chain (some p) nodes
  single : ∀ node ∈ nodes, (heap node).map Pbuf.ref = some 1

omit [DecidableEq Address] [Fintype Address] in
theorem Private.owned {nodes : List Address} (owner : heap.Private p nodes) :
    heap.cells.Owned nodes where
  linked := owner.chain.linked
  single node inside := by
    have one := owner.single node inside
    obtain ⟨pbuf, found, ref⟩ := Option.map_eq_some_iff.mp one
    rw [cells, found, Option.map_some, Option.map_some, ref]
    rfl

omit [DecidableEq Address] [Fintype Address] in
theorem Private.cons {nodes : List Address} (owner : heap.Private p nodes) :
    ∃ rest, nodes = p :: rest := by
  have chain := owner.chain
  cases nodes with
  | nil => cases chain
  | cons node rest =>
      cases chain.1
      exact ⟨rest, rfl⟩

section Join
variable {t : Address} {tail : Pbuf Address} {nodes : List Address}

omit [Fintype Address] in
theorem joined_outside {other : Address} (outside : other ∉ nodes) (length : UInt16) :
    heap.joined t length nodes other = heap other :=
  if_neg outside

omit [Fintype Address] in
theorem joined_inside (found : heap p = some pbuf) (inside : p ∈ nodes) (length : UInt16) :
    heap.joined t length nodes p =
      some { pbuf with totLen := pbuf.totLen + length, next := pbuf.next.or (some t) } := by
  rw [joined, if_pos inside, found, Option.map_some]

omit [Fintype Address] in
theorem joined_some {length : UInt16} (found : heap.joined t length nodes p = some pbuf) :
    ∃ old, heap p = some old ∧ pbuf =
      if p ∈ nodes then { old with totLen := old.totLen + length, next := old.next.or (some t) }
      else old := by
  rw [joined] at found
  split at found
  · obtain ⟨old, present, same⟩ := Option.map_eq_some_iff.mp found
    exact ⟨old, present, by rw [same, if_pos ‹_›]⟩
  · exact ⟨pbuf, found, by rw [if_neg ‹_›]⟩

omit [Fintype Address] in
/-- Only the last pointer of the first packet changes. -/
theorem joined_cells (chain : heap.cells.Chain (some p) nodes) (length : UInt16) :
    ∃ last cell, last ∈ nodes ∧ heap.cells last = some cell ∧ cell.next = none ∧
      (heap.joined t length nodes).cells =
        Function.update heap.cells last (some { cell with next := some t }) := by
  obtain ⟨last, cell, inside, found, ended, all⟩ := chain.last
  refine ⟨last, cell, inside, found, ended, funext fun other => ?_⟩
  by_cases member : other ∈ nodes
  · rcases all other member with rfl | ⟨target, -, points⟩
    · obtain ⟨pbuf, present, rfl⟩ := cells_cell found
      rw [cells_some (joined_inside present member length), Function.update_self]
      simp only at ended ⊢
      rw [ended, Option.none_or]
    · have different : other ≠ last := fun same => by
        rw [same, Cells.points_some found, ended] at points
        cases points
      obtain ⟨cell, there, pointed⟩ := points.cell
      obtain ⟨pbuf, present, rfl⟩ := cells_cell there
      rw [Function.update_of_ne different, there, cells_some (joined_inside present member length)]
      simp only at pointed ⊢
      rw [pointed, Option.some_or]
  · have different : other ≠ last := fun same => member (same ▸ inside)
    rw [Function.update_of_ne different, cells, joined_outside member, cells]

/-- The joined packet is sound, and the first holder has it. -/
theorem Sound.joined (sound : heap.Sound (p :: t :: held)) (owner : heap.Private p nodes)
    (found : heap t = some tail) : (heap.joined t tail.totLen nodes).Sound (p :: held) := by
  obtain ⟨rest, rfl⟩ := owner.cons
  have owned := owner.owned
  have outside : t ∉ p :: rest :=
    owned.unreached sound.counted (List.mem_cons_self ..) .refl
  obtain ⟨last, cell, inside, ending, ended, same⟩ := joined_cells owner.chain tail.totLen
  have swapped := sound.counted.perm (List.Perm.swap t p held)
  have attached := swapped.attach ending ended fun reaches =>
    owned.unreached sound.counted (List.mem_cons_self ..) reaches inside
  rw [← same] at attached
  refine ⟨attached, fun other pbuf present => ?_, fun other pbuf present => ?_,
    fun other pbuf present type => ?_⟩
  · obtain ⟨old, before, rfl⟩ := joined_some present
    have total := sound.total other old before
    have points (target : Address) (pointed : old.next = some target) :
        heap.cells.Points other target := (Cells.points_some (cells_some before)).mpr pointed
    split
    · rename_i member
      simp only [total]
      cases pointed : old.next with
      | none =>
          rw [Option.none_or, totLenOf, totLenOf, Option.bind_some, joined_outside outside, found]
          exact congrArg (· + tail.totLen) (UInt16.add_zero _)
      | some target =>
          have within : target ∈ p :: rest := owner.chain.inside member (points target pointed)
          obtain ⟨next, there⟩ := cells_alive (sound.counted.next other target (points target pointed))
          rw [Option.some_or, totLenOf, totLenOf, Option.bind_some, Option.bind_some,
            joined_inside there within, there]
          exact UInt16.add_assoc ..
    · rename_i member
      rw [total, totLenOf, totLenOf]
      congr 2
      cases pointed : old.next with
      | none => rfl
      | some target =>
          have apart : target ∉ p :: rest := fun within =>
            member ((owned.alone sound.counted within).2 other (points target pointed))
          rw [Option.bind_some, Option.bind_some, joined_outside apart]
  · obtain ⟨old, before, rfl⟩ := joined_some present
    have inside := sound.inside other old before
    split
    · exact inside
    · exact inside
  · obtain ⟨old, before, rfl⟩ := joined_some present
    have size := sound.size other old before
    split at type
    · rw [if_pos ‹_›]
      exact size type
    · rw [if_neg ‹_›]
      exact size type

omit [Fintype Address] in
theorem joined_chain {start : Address} {path others : List Address} {length : UInt16}
    (chain : heap.cells.Chain (some start) path) (within : ∀ node ∈ path, node ∈ nodes)
    (second : (heap.joined t length nodes).cells.Chain (some t) others) :
    (heap.joined t length nodes).cells.Chain (some start) (path ++ others) := by
  induction path generalizing start with
  | nil => cases chain
  | cons node rest ih =>
      obtain ⟨first, cell, found, next⟩ := chain
      cases first
      obtain ⟨pbuf, present, rfl⟩ := cells_cell found
      have inside := within node (List.mem_cons_self ..)
      refine ⟨rfl, _, cells_some (joined_inside present inside length), ?_⟩
      cases pointed : pbuf.next with
      | none =>
          simp only [pointed] at next
          cases rest with
          | nil => exact second
          | cons other others => cases next.1
      | some target =>
          simp only [pointed] at next ⊢
          exact ih next fun other inside => within other (List.mem_cons_of_mem _ inside)

/-- The joined packet has the parts of both packets, and the other packets stay. -/
theorem Sound.joined_packets (sound : heap.Sound (p :: t :: held)) (owner : heap.Private p nodes)
    (length : UInt16) :
    (∀ front back, heap.Packet p front → heap.Packet t back →
      (heap.joined t length nodes).Packet p (front ++ back)) ∧
    ∀ other ∈ t :: held, ∀ parts, heap.Packet other parts →
      (heap.joined t length nodes).Packet other parts := by
  obtain ⟨rest, rfl⟩ := owner.cons
  have others (other : Address) (inside : other ∈ t :: held) (parts : List (List UInt8))
      (packet : heap.Packet other parts) : (heap.joined t length (p :: rest)).Packet other parts :=
    packet.frame fun target reaches =>
      joined_outside (owner.owned.unreached sound.counted inside reaches) length
  refine ⟨fun front back first second => ?_, others⟩
  obtain ⟨path, chain, rfl⟩ := first
  cases chain.unique owner.chain
  obtain ⟨more, following, rfl⟩ := others t (List.mem_cons_self ..) back second
  refine ⟨p :: rest ++ more, joined_chain owner.chain (fun _ => id) following, ?_⟩
  rw [List.map_append]
  congr 1
  refine List.map_congr_left fun node inside => ?_
  obtain ⟨pbuf, found, -⟩ := Option.map_eq_some_iff.mp (owner.single node inside)
  rw [dataOf, dataOf, joined_inside found inside length, found]
  rfl

/-- `pbuf_cat` joins two packets. -/
theorem Sound.pbufCat (sound : heap.Sound (p :: t :: held)) (owner : heap.Private p nodes)
    (found : heap t = some tail) :
    heap.pbufCat p t = some (heap.joined t tail.totLen nodes) := by
  obtain ⟨rest, rfl⟩ := owner.cons
  have distinct := sound.counted.chain_nodup owner.chain
  exact pbufCatLoop_joined owner.chain distinct distinct.length_le_card found
    (owner.owned.unreached sound.counted (List.mem_cons_self ..) .refl)

end Join

end Chains

end NnpCamera.Network.PbufHeap
