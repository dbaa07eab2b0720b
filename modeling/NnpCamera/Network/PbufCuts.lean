/-
This file shows what the cut of a packet and the move of its header keep.
-/

import NnpCamera.Network.PbufChains

namespace NnpCamera.Network.PbufHeap
open Library

/-- The first bytes of some parts. The last part is cut, and the parts after it go. -/
def cutParts : Nat → List (List UInt8) → List (List UInt8)
  | _, [] => []
  | size, part :: rest =>
      if part.length < size then part :: cutParts (size - part.length) rest else [part.take size]

theorem cutParts_flatten (size : Nat) (parts : List (List UInt8)) :
    (cutParts size parts).flatten = parts.flatten.take size := by
  induction parts generalizing size with
  | nil => exact List.take_nil.symm
  | cons part rest ih =>
      rw [cutParts, List.flatten_cons, List.take_append]
      split
      · rename_i shorter
        rw [List.flatten_cons, ih, List.take_of_length_le (Nat.le_of_lt shorter)]
      · rename_i longer
        rw [Nat.sub_eq_zero_of_le (Nat.not_lt.mp longer), List.take_zero, List.append_nil,
          List.flatten_singleton]

section Cuts
variable {Address : Type} [DecidableEq Address] {heap : PbufHeap Address} {p : Address}
  {pbuf : Pbuf Address} {held : List Address}

/-- The buffers have one reference each, up to the one that contains the end of the size. -/
def OwnedUpTo (heap : PbufHeap Address) : List Address → Nat → Prop
  | [], _ => True
  | node :: rest, size =>
      (heap node).map Pbuf.ref = some 1 ∧
        ((heap.dataOf node).length < size → OwnedUpTo heap rest (size - (heap.dataOf node).length))

/-- The loop adds a difference to the total lengths. -/
def grown (heap : PbufHeap Address) (grow : UInt16) (kept : List Address) : PbufHeap Address :=
  fun p =>
    if p ∈ kept then (heap p).map fun pbuf => { pbuf with totLen := pbuf.totLen + grow } else heap p

/-- A call on a chain changes no buffer outside of it. -/
theorem pbufFreeLoop_frame {nodes : List Address} {start : Option Address}
    (chain : heap.cells.Chain start nodes) (distinct : nodes.Nodup) (outside : p ∉ nodes)
    (turns : Nat) (count : UInt8) (pbuf : Pbuf Address) :
    pbufFreeLoop turns (heap.set p pbuf) start count =
      (pbufFreeLoop turns heap start count).map fun freed => (freed.1.set p pbuf, freed.2) := by
  induction nodes generalizing heap start turns count with
  | nil =>
      cases chain
      unfold pbufFreeLoop
      rfl
  | cons node rest ih =>
      obtain ⟨rfl, cell, found, next⟩ := chain
      obtain ⟨first, present, rfl⟩ := cells_cell found
      obtain ⟨absent, distinct⟩ := List.nodup_cons.mp distinct
      have apart : node ≠ p := fun same => outside (same ▸ List.mem_cons_self ..)
      have there : heap.set p pbuf node = some first := by
        rw [set, Function.update_of_ne apart, present]
      cases turns with
      | zero => rfl
      | succ turns =>
          simp only [pbufFreeLoop, there, present, Option.bind_eq_bind, Option.bind_some]
          split
          · have commuted : Function.update (heap.set p pbuf) node none =
                set (Function.update heap node none) p pbuf :=
              Function.update_comm apart.symm ..
            rw [commuted]
            refine ih (next.congr fun other inside => ?_) distinct
              (fun inside => outside (List.mem_cons_of_mem _ inside)) turns (count + 1)
            have different : other ≠ node := fun same => absent (same ▸ inside)
            rw [cells_free, Function.update_of_ne different]
          · rw [Option.map_some, set, set, set, set, Function.update_comm apart.symm]

variable [Fintype Address]

theorem Sound.data_length (sound : heap.Sound held) (found : heap p = some pbuf) :
    (heap.dataOf p).length = pbuf.len.toNat := by
  have inside := sound.inside p pbuf found
  rw [dataOf, found, Option.map_some, Option.getD_some, Pbuf.data, List.length_take, List.length_drop]
  omega

omit [Fintype Address] in
theorem grown_next {grow : UInt16} {before : List Address} (found : heap p = some pbuf)
    (fresh : p ∉ before) :
    (heap.grown grow before).set p { pbuf with totLen := pbuf.totLen + grow } =
      heap.grown grow (before ++ [p]) := by
  funext other
  rw [set, grown, Function.update_apply]
  by_cases same : other = p
  · subst same
    rw [if_pos rfl, if_pos (List.mem_append_right _ (List.mem_singleton_self _)), found, Option.map_some]
  · rw [if_neg same, grown]
    simp only [List.mem_append, List.mem_singleton, same, or_false]

/-- The loop ends at the buffer that contains the new end of the packet. -/
theorem Sound.reallocWalk {nodes before : List Address} {rem grow : UInt16} {turns : Nat}
    (sound : heap.Sound held) (chain : heap.cells.Chain (some p) nodes)
    (enough : nodes.length ≤ turns) (distinct : (before ++ nodes).Nodup)
    (owned : heap.OwnedUpTo nodes rem.toNat)
    (within : rem.toNat ≤ (nodes.map heap.dataOf).flatten.length)
    (total : heap.totLenOf (some p) + grow = rem) :
    ∃ kept q post last size fewer,
      nodes = kept ++ q :: post ∧ heap q = some last ∧ size ≤ last.len ∧
      (∀ node ∈ kept ++ [q], (heap node).map Pbuf.ref = some 1) ∧
      last.totLen + grow = size ∧
      cutParts rem.toNat (nodes.map heap.dataOf) =
        kept.map heap.dataOf ++ [(heap.dataOf q).take size.toNat] ∧
      pbufReallocLoop grow turns (heap.grown grow before) p rem =
        pbufReallocLoop grow (fewer + 1) (heap.grown grow (before ++ kept)) q size := by
  induction nodes generalizing p before rem turns with
  | nil => cases chain
  | cons node rest ih =>
      obtain ⟨start, cell, found, next⟩ := chain
      cases start
      obtain ⟨pbuf, present, rfl⟩ := cells_cell found
      obtain ⟨turns, rfl⟩ := turns_left enough
      have fresh : node ∉ before := fun inside =>
        (List.nodup_append.mp distinct).2.2 node inside node (List.mem_cons_self ..) rfl
      have length := sound.data_length present
      obtain ⟨single, further⟩ := owned
      rw [totLenOf, Option.bind_some, present, Option.map_some, Option.getD_some] at total
      by_cases longer : rem > pbuf.len
      · have less := UInt16.lt_iff_toNat_lt.mp longer
        have shorter : (rem - pbuf.len).toNat = rem.toNat - pbuf.len.toNat :=
          UInt16.toNat_sub_of_le _ _ (UInt16.le_of_lt longer)
        rw [List.map_cons, List.flatten_cons, List.length_append] at within
        cases pointed : pbuf.next with
        | none =>
            simp only [pointed] at next
            cases rest with
            | nil =>
                rw [List.map_nil, List.flatten_nil, List.length_nil] at within
                omega
            | cons other others => cases next.1
        | some target =>
            have sum := sound.total node pbuf present
            rw [pointed] at sum
            simp only [pointed] at next
            have moved : (before ++ [node] ++ rest).Nodup := by
              rw [List.append_assoc]
              exact distinct
            have rests : heap.OwnedUpTo rest (rem - pbuf.len).toNat := by
              rw [shorter, ← length]
              exact further (by omega)
            have whole : heap.totLenOf (some target) + grow = rem - pbuf.len := by
              rw [← total, sum]
              grind
            obtain ⟨kept, q, post, last, size, fewer, rfl, there, small, ones, ended, cut, run⟩ :=
              ih next (Nat.le_of_succ_le_succ enough) moved rests (by omega) whole
            refine ⟨node :: kept, q, post, last, size, fewer, rfl, there, small, ?_, ended, ?_, ?_⟩
            · intro other inside
              rcases List.mem_cons.mp inside with rfl | inside
              · exact single
              · exact ones other inside
            · rw [List.map_cons, cutParts, if_pos (by omega), length, ← shorter, cut]
              rfl
            · have same : heap.grown grow before node = some pbuf := by
                rw [grown, if_neg fresh, present]
              rw [pbufReallocLoop, same, Option.bind_eq_bind, Option.bind_some]
              simp only [if_pos longer]
              rw [grown_next present fresh, pointed]
              refine run.trans ?_
              rw [List.append_assoc]
              rfl
      · have most := UInt16.le_iff_toNat_le.mp (UInt16.not_lt.mp longer)
        refine ⟨[], node, rest, pbuf, rem, turns, rfl, present, UInt16.not_lt.mp longer, ?_, total,
          ?_, ?_⟩
        · intro other inside
          rw [List.mem_singleton.mp inside]
          exact single
        · rw [List.map_cons, cutParts, if_neg (by omega)]
          rfl
        · rw [List.append_nil]

/-- The buffer that contains the new end. A buffer in RAM gives the memory after it back. -/
def cutPbuf (last : Pbuf Address) (size : UInt16) : Pbuf Address :=
  { last with
    memory :=
      if last.type = .ram ∧ size ≠ last.len then last.memory.take (last.payload + size.toNat)
      else last.memory
    len := size, totLen := size }

/-- The heap in which a packet ends at a buffer. -/
def detached (heap : PbufHeap Address) (grow : UInt16) (kept : List Address) (q : Address)
    (last : Pbuf Address) (size : UInt16) : PbufHeap Address :=
  (heap.grown grow kept).set q { cutPbuf last size with next := none }

section Ends
variable {grow size : UInt16} {kept post : List Address} {q : Address} {last : Pbuf Address}

omit [DecidableEq Address] [Fintype Address] in
theorem cutPbuf_data (small : size ≤ last.len) :
    (cutPbuf last size).data = last.data.take size.toNat := by
  have most := UInt16.le_iff_toNat_le.mp small
  rw [cutPbuf, Pbuf.data, Pbuf.data, List.take_take, Nat.min_eq_left most]
  simp only
  split
  · rw [List.drop_take, List.take_take, Nat.add_sub_cancel_left, Nat.min_self]
  · rfl

omit [Fintype Address] in
theorem grown_cells (heap : PbufHeap Address) (grow : UInt16) (kept : List Address) :
    (heap.grown grow kept).cells = heap.cells := by
  funext other
  rw [cells, cells, grown]
  split
  · rw [Option.map_map]
    rfl
  · rfl

omit [Fintype Address] in
theorem detached_cells :
    (heap.detached grow kept q last size).cells =
      Function.update heap.cells q (some ⟨none, last.ref.toNat⟩) := by
  rw [detached, cells_set, grown_cells]
  rfl

omit [Fintype Address] in
theorem detached_other {other : Address} (apart : other ≠ q) :
    heap.detached grow kept q last size other = heap.grown grow kept other := by
  rw [detached, set, Function.update_of_ne apart]

omit [Fintype Address] in
/-- A buffer of the new heap was cut, kept with a new total length, or it is as before. -/
theorem detached_some {other : Address} (present : heap q = some last)
    (found : heap.detached grow kept q last size other = some pbuf) :
    ∃ old, heap other = some old ∧
      (other = q ∧ pbuf = { cutPbuf old size with next := none } ∨
        other ≠ q ∧ pbuf = if other ∈ kept then { old with totLen := old.totLen + grow } else old) := by
  by_cases same : other = q
  · subst same
    rw [PbufHeap.detached, set, Function.update_self, Option.some_inj] at found
    exact ⟨last, present, Or.inl ⟨rfl, found.symm⟩⟩
  · rw [detached_other same, grown] at found
    split at found
    · obtain ⟨old, before, changed⟩ := Option.map_eq_some_iff.mp found
      exact ⟨old, before, Or.inr ⟨same, by rw [if_pos ‹_›, changed]⟩⟩
    · exact ⟨pbuf, found, Or.inr ⟨same, by rw [if_neg ‹_›]⟩⟩

/-- What is known about a packet before its cut. -/
structure Cut (heap : PbufHeap Address) (p : Address) (held : List Address) (kept : List Address)
    (q : Address) (post : List Address) (last : Pbuf Address) (size grow : UInt16) : Prop where
  sound : heap.Sound (p :: held)
  chain : heap.cells.Chain (some p) (kept ++ q :: post)
  found : heap q = some last
  small : size ≤ last.len
  ones : ∀ node ∈ kept ++ [q], (heap node).map Pbuf.ref = some 1
  ended : last.totLen + grow = size

theorem Cut.fresh (cut : heap.Cut p held kept q post last size grow) : q ∉ kept := fun inside =>
  (List.nodup_append.mp (cut.sound.counted.chain_nodup cut.chain)).2.2 q inside q
    (List.mem_cons_self ..) rfl

/-- The kept buffers and the cut one belong to the holder. -/
theorem Cut.owned (cut : heap.Cut p held kept q post last size grow) :
    ∃ rest, kept ++ [q] = p :: rest ∧ heap.cells.Owned (p :: rest) := by
  have linked := cut.chain.linked
  rw [← List.singleton_append, ← List.append_assoc] at linked
  have owned : heap.cells.Owned (kept ++ [q]) := ⟨linked.left_of_append, fun other member => by
    obtain ⟨pbuf, found, ref⟩ := Option.map_eq_some_iff.mp (cut.ones other member)
    rw [cells, found, Option.map_some, Option.map_some, ref]
    rfl⟩
  have chain := cut.chain
  cases kept with
  | nil =>
      cases chain.1
      exact ⟨[], rfl, owned⟩
  | cons node rest =>
      cases chain.1
      exact ⟨rest ++ [q], rfl, owned⟩

/-- Nobody else holds the kept buffers or points to them. -/
theorem Cut.alone (cut : heap.Cut p held kept q post last size grow) {node : Address}
    (inside : node ∈ kept ++ [q]) :
    node ∉ held ∧ ∀ source, heap.cells.Points source node → source ∈ kept ++ [q] := by
  obtain ⟨rest, same, owned⟩ := cut.owned
  rw [same] at inside ⊢
  exact owned.alone cut.sound.counted inside

/-- A kept buffer points to the next kept buffer or to the cut one. -/
theorem Cut.next (cut : heap.Cut p held kept q post last size grow) {node : Address}
    (inside : node ∈ kept) : ∃ target ∈ kept ++ [q], heap.cells.Points node target := by
  have linked := cut.chain.linked
  rw [← List.singleton_append, ← List.append_assoc] at linked
  have steps := linked.left_of_append
  clear linked cut
  induction kept with
  | nil => cases inside
  | cons first rest ih =>
      rw [List.cons_append] at steps
      rcases List.mem_cons.mp inside with rfl | later
      · cases rest with
        | nil => exact ⟨q, by simp, (List.isChain_cons_cons.mp steps).1⟩
        | cons second others => exact ⟨second, by simp, (List.isChain_cons_cons.mp steps).1⟩
      · obtain ⟨target, member, points⟩ := ih later steps.tail
        exact ⟨target, List.mem_cons_of_mem _ member, points⟩

/-- The total lengths up to the cut buffer change by the difference. -/
theorem Cut.longer (cut : heap.Cut p held kept q post last size grow) {node : Address}
    (inside : node ∈ kept ++ [q]) :
    (heap.detached grow kept q last size).totLenOf (some node) =
      heap.totLenOf (some node) + grow := by
  rw [totLenOf, totLenOf, Option.bind_some, Option.bind_some]
  by_cases same : node = q
  · subst same
    rw [PbufHeap.detached, set, Function.update_self, cut.found]
    exact cut.ended.symm
  · have among : node ∈ kept := by
      rw [List.mem_append, List.mem_singleton] at inside
      exact inside.resolve_right same
    obtain ⟨pbuf, found, -⟩ := Option.map_eq_some_iff.mp (cut.ones node inside)
    rw [detached_other same, grown, if_pos among, found]
    rfl

/-- The cut packet is sound, and the cut buffer gives its next buffer to the caller. -/
theorem Cut.detached (cut : heap.Cut p held kept q post last size grow) :
    (heap.detached grow kept q last size).Sound (last.next.toList ++ p :: held) := by
  have sound := cut.sound
  have found := cut.found
  have counted : (heap.detached grow kept q last size).cells.Counted
      (last.next.toList ++ p :: held) := by
    rw [detached_cells]
    cases pointed : last.next with
    | none =>
        have same := cells_some found
        rw [pointed] at same
        rw [← same, Function.update_eq_self]
        exact sound.counted
    | some target => exact sound.counted.detach (cells_some found) pointed
  refine ⟨counted, fun other pbuf present => ?_, fun other pbuf present => ?_,
    fun other pbuf present type => ?_⟩
  · obtain ⟨old, before, ⟨rfl, rfl⟩ | ⟨apart, rfl⟩⟩ := detached_some found present
    · exact (UInt16.add_zero _).symm
    · have total := sound.total other old before
      have points (target : Address) (pointed : old.next = some target) :
          heap.cells.Points other target := (Cells.points_some (cells_some before)).mpr pointed
      split
      · rename_i inside
        obtain ⟨target, member, pointing⟩ := cut.next inside
        have pointed := (Cells.points_some (cells_some before)).mp pointing
        simp only at pointed ⊢
        rw [total, pointed, cut.longer member, UInt16.add_assoc]
      · rename_i outside
        rw [total, totLenOf, totLenOf]
        congr 2
        cases pointed : old.next with
        | none => rfl
        | some target =>
            have away : target ∉ kept ++ [q] := fun within => by
              have source := (cut.alone within).2 other (points target pointed)
              rw [List.mem_append, List.mem_singleton] at source
              exact source.elim outside apart
            rw [List.mem_append, List.mem_singleton, not_or] at away
            rw [Option.bind_some, Option.bind_some, detached_other away.2, grown, if_neg away.1]
  · obtain ⟨old, before, ⟨rfl, rfl⟩ | ⟨apart, rfl⟩⟩ := detached_some found present
    · rw [found, Option.some_inj] at before
      subst before
      have inside := sound.inside other last found
      have most := UInt16.le_iff_toNat_le.mp cut.small
      simp only [cutPbuf]
      split
      · rw [List.length_take]
        omega
      · omega
    · have inside := sound.inside other old before
      split
      · exact inside
      · exact inside
  · obtain ⟨old, before, ⟨rfl, rfl⟩ | ⟨apart, rfl⟩⟩ := detached_some found present
    · have below := sound.size other old before type
      simp only [cutPbuf]
      split
      · rw [List.length_take]
        omega
      · exact below
    · have below := sound.size other old before
      split at type
      · rw [if_pos ‹_›]
        exact below type
      · rw [if_neg ‹_›]
        exact below type

/-- The cut packet has the first parts, and the other packets stay. -/
theorem Cut.packets (cut : heap.Cut p held kept q post last size grow) :
    (heap.detached grow kept q last size).Packet p
        (kept.map heap.dataOf ++ [(heap.dataOf q).take size.toNat]) ∧
      ∀ other ∈ held, ∀ parts, heap.Packet other parts →
        (heap.detached grow kept q last size).Packet other parts := by
  constructor
  · have chain := cut.chain.cut cut.fresh last.ref.toNat
    rw [← detached_cells] at chain
    refine ⟨kept ++ [q], chain, ?_⟩
    rw [List.map_append, List.map_singleton]
    congr 1
    · refine List.map_congr_left fun node inside => ?_
      have apart : node ≠ q := fun same => cut.fresh (same ▸ inside)
      rw [dataOf, dataOf, detached_other apart, grown, if_pos inside, Option.map_map]
      rfl
    · rw [dataOf, dataOf, PbufHeap.detached, set, Function.update_self, cut.found]
      exact congrArg (fun data => [data]) (cutPbuf_data cut.small)
  · intro other inside parts packet
    obtain ⟨rest, same, owned⟩ := cut.owned
    refine packet.frame fun target reaches => ?_
    have away := owned.unreached cut.sound.counted inside reaches
    rw [← same, List.mem_append, List.mem_singleton, not_or] at away
    rw [detached_other away.2, grown, if_neg away.1]

/-- The last turn of the loop frees the rest of the packet. -/
theorem Cut.run (cut : heap.Cut p held kept q post last size grow) (turns : Nat) :
    ∃ after, pbufReallocLoop grow (turns + 1) (heap.grown grow kept) q size = some after ∧
      after.Sound (p :: held) ∧ (heap.detached grow kept q last size).Kept after := by
  let middle := (heap.grown grow kept).set q (cutPbuf last size)
  let ended : Pbuf Address := { cutPbuf last size with next := none }
  have rest : heap.cells.Chain last.next post := cut.chain.after (cells_some cut.found)
  obtain ⟨-, behind, -⟩ := List.nodup_append.mp (cut.sound.counted.chain_nodup cut.chain)
  obtain ⟨outside, distinct⟩ := List.nodup_cons.mp behind
  have turned (pbuf : Pbuf Address) :
      ((heap.grown grow kept).set q pbuf).cells.Chain last.next post :=
    rest.congr fun node inside => by
      have apart : node ≠ q := fun same => outside (same ▸ inside)
      rw [cells_set, Function.update_of_ne apart, grown_cells]
  obtain ⟨after, count, freed, sound, keeps⟩ :=
    pbufFreeLoop_sound cut.detached (turned ended) distinct.length_le_card 0
  -- The loop frees the rest while the cut buffer still points to it.
  have same (pbuf : Pbuf Address) : middle.set q pbuf = (heap.grown grow kept).set q pbuf :=
    Function.update_idem ..
  have moved := pbufFreeLoop_frame (turned (cutPbuf last size)) distinct outside
    (Fintype.card Address) 0
  have first := moved ended
  have second := moved (cutPbuf last size)
  rw [same] at first second
  obtain ⟨result, called, equal⟩ := Option.map_eq_some_iff.mp (first.symm.trans freed)
  rw [called, Option.map_some, Option.some_inj] at second
  have still : result.1 q = some (cutPbuf last size) := by
    rw [congrArg Prod.fst second]
    exact Function.update_self ..
  have there : heap.grown grow kept q = some last := by
    rw [grown, if_neg cut.fresh, cut.found]
  refine ⟨after, ?_, sound, keeps⟩
  rw [pbufReallocLoop, there, Option.bind_eq_bind, Option.bind_some,
    if_neg (UInt16.not_lt.mpr cut.small)]
  change (do
    let freed ← pbufFree middle (cutPbuf last size).next
    let final ← freed.1 q
    some (freed.1.set q { final with next := none })) = some after
  rw [show pbufFree middle (cutPbuf last size).next = some result from called, Option.bind_eq_bind,
    Option.bind_some, still, Option.bind_eq_bind, Option.bind_some]
  exact congrArg (fun pair => some pair.1) equal

end Ends

/-- The total length counts the bytes of a packet modulo the size of a word. -/
theorem Sound.total_parts (sound : heap.Sound held) {parts : List (List UInt8)}
    (packet : heap.Packet p parts) :
    (heap.totLenOf (some p)).toNat = parts.flatten.length % 65536 := by
  obtain ⟨nodes, chain, rfl⟩ := packet
  have all (start : Option Address) (nodes : List Address) (chain : heap.cells.Chain start nodes) :
      (heap.totLenOf start).toNat = (nodes.map heap.dataOf).flatten.length % 65536 := by
    induction nodes generalizing start with
    | nil =>
        cases chain
        rfl
    | cons node rest ih =>
        obtain ⟨rfl, cell, found, next⟩ := chain
        obtain ⟨pbuf, present, rfl⟩ := cells_cell found
        have total : heap.totLenOf (some node) = pbuf.len + heap.totLenOf pbuf.next := by
          rw [← sound.total node pbuf present, totLenOf, Option.bind_some, present]
          rfl
        rw [total, UInt16.toNat_add, ih pbuf.next next, List.map_cons, List.flatten_cons,
          List.length_append, sound.data_length present]
        omega
  exact all (some p) nodes chain

/-- `pbuf_realloc` cuts the packet of a holder, if the size is below the total length. The other
packets stay. -/
theorem Sound.pbufRealloc {nodes : List Address} {size : UInt16} (sound : heap.Sound (p :: held))
    (chain : heap.cells.Chain (some p) nodes) (owned : heap.OwnedUpTo nodes size.toNat) :
    ∃ after, heap.pbufRealloc p size = some after ∧ after.Sound (p :: held) ∧
      (∀ parts, heap.Packet p parts → after.Packet p
        (if parts.flatten.length % 65536 ≤ size.toNat then parts else cutParts size.toNat parts)) ∧
      ∀ other ∈ held, ∀ parts, heap.Packet other parts → after.Packet other parts := by
  obtain ⟨pbuf, found⟩ := cells_alive (sound.counted.held p (List.mem_cons_self ..))
  have total : heap.totLenOf (some p) = pbuf.totLen := by
    rw [totLenOf, Option.bind_some, found]
    rfl
  have packet : heap.Packet p (nodes.map heap.dataOf) := ⟨nodes, chain, rfl⟩
  have length := sound.total_parts packet
  rw [total] at length
  rw [PbufHeap.pbufRealloc, found, Option.bind_eq_bind, Option.bind_some]
  by_cases larger : size ≥ pbuf.totLen
  · rw [if_pos larger]
    refine ⟨heap, rfl, sound, fun parts whole => ?_, fun _ _ _ packet => packet⟩
    have same := sound.total_parts whole
    rw [total] at same
    rw [if_pos (same ▸ UInt16.le_iff_toNat_le.mp larger)]
    exact whole
  · rw [if_neg larger]
    have less := UInt16.lt_iff_toNat_lt.mp (UInt16.not_le.mp larger)
    have distinct : (([] : List Address) ++ nodes).Nodup := sound.counted.chain_nodup chain
    have whole : heap.totLenOf (some p) + (size - pbuf.totLen) = size := by
      rw [total]
      grind
    have fresh : heap.grown (size - pbuf.totLen) [] = heap := rfl
    obtain ⟨kept, q, post, last, rem, fewer, rfl, there, small, ones, ended, parts, walked⟩ :=
      sound.reallocWalk chain (sound.counted.chain_nodup chain).length_le_card distinct owned (by omega) whole
    have cut : heap.Cut p held kept q post last rem (size - pbuf.totLen) :=
      ⟨sound, chain, there, small, ones, ended⟩
    obtain ⟨after, run, sounds, keeps⟩ := cut.run fewer
    obtain ⟨first, others⟩ := cut.packets
    have alive (other : Address) (inside : other ∈ p :: held) : (after other).isSome := by
      obtain ⟨pbuf, found⟩ := cells_alive (sounds.counted.held other inside)
      rw [found]
      rfl
    rw [fresh, List.nil_append] at walked
    refine ⟨after, walked.trans run, sounds, fun shown all => ?_, fun other inside shown all => ?_⟩
    · obtain ⟨path, line, rfl⟩ := all
      cases line.unique chain
      rw [if_neg (by omega), parts]
      exact keeps.packet sounds.counted (alive p (List.mem_cons_self ..)) first
    · exact keeps.packet sounds.counted (alive other (List.mem_cons_of_mem _ inside))
        (others other inside shown all)

end Cuts

end NnpCamera.Network.PbufHeap
