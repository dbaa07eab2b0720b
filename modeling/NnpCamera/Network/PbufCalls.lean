/-
This file shows what the calls on the first buffer of a packet and the copies of a packet do.
-/

import NnpCamera.Network.PbufCuts

namespace NnpCamera.Network.PbufHeap
open Library

section Calls
variable {Address : Type} [DecidableEq Address] [Fintype Address] {heap after : PbufHeap Address}
  {p : Address} {pbuf : Pbuf Address} {held : List Address}

/-- The packets of the other holders stay. -/
def SamePackets (heap after : PbufHeap Address) (held : List Address) : Prop :=
  ∀ other ∈ held, ∀ parts, heap.Packet other parts → after.Packet other parts

omit [DecidableEq Address] [Fintype Address] in
/-- A buffer with one reference is a path of one holder. -/
theorem single_owned (found : heap p = some pbuf) (single : pbuf.ref = 1) :
    heap.cells.Owned [p] where
  linked := .singleton p
  single node inside := by
    rw [List.mem_singleton.mp inside, cells_some found, Option.map_some, single]
    rfl

/-- The holder changes the payload of its first buffer. -/
theorem Sound.change (sound : heap.Sound (p :: held)) (found : heap p = some pbuf)
    (single : pbuf.ref = 1) (new : Pbuf Address) (next : new.next = pbuf.next) (ref : new.ref = pbuf.ref)
    (total : new.totLen = new.len + heap.totLenOf pbuf.next)
    (inside : new.payload + new.len.toNat ≤ new.memory.length)
    (size : new.type = .ram ∨ new.type = .pool → new.memory.length < 65536) :
    (heap.set p new).Sound (p :: held) ∧ heap.SamePackets (heap.set p new) held ∧
      ∀ first rest, heap.Packet p (first :: rest) → (heap.set p new).Packet p (new.data :: rest) := by
  have owned := single_owned found single
  have same : (heap.set p new).cells = heap.cells := by
    rw [cells_set, next, ref, ← cells_some found, Function.update_eq_self]
  have lengths (source target : Address) (points : heap.cells.Points source target) :
      (heap.set p new).totLenOf (some target) = heap.totLenOf (some target) := by
    have apart : target ≠ p := fun pointed => by
      subst pointed
      have loop := (owned.alone sound.counted (List.mem_singleton_self _)).2 source points
      rw [List.mem_singleton.mp loop] at points
      obtain ⟨depth, deeper⟩ := sound.counted.acyclic
      exact Nat.lt_irrefl _ (deeper _ _ points)
    rw [totLenOf, totLenOf, Option.bind_some, Option.bind_some, set, Function.update_of_ne apart]
  have follows (source : Address) (old : Pbuf Address) (present : heap source = some old) :
      (heap.set p new).totLenOf old.next = heap.totLenOf old.next := by
    cases pointed : old.next with
    | none => rfl
    | some target =>
        exact lengths source target ((Cells.points_some (cells_some present)).mpr pointed)
  refine ⟨⟨same ▸ sound.counted, fun other old present => ?_, fun other old present => ?_,
    fun other old present type => ?_⟩, fun other member parts packet => ?_, ?_⟩
  · rw [set, Function.update_apply] at present
    split at present
    · cases present
      rw [total, next, follows p pbuf found]
    · rw [sound.total other old present, follows other old present]
  · rw [set, Function.update_apply] at present
    split at present
    · cases present
      exact inside
    · exact sound.inside other old present
  · rw [set, Function.update_apply] at present
    split at present
    · cases present
      exact size type
    · exact sound.size other old present type
  · refine packet.frame fun target reaches => ?_
    have apart := owned.unreached sound.counted member reaches
    rw [List.mem_singleton] at apart
    rw [set, Function.update_of_ne apart]
  · rintro first rest ⟨nodes, chain, parts⟩
    have distinct := sound.counted.chain_nodup chain
    cases nodes with
    | nil => cases chain
    | cons node others =>
        cases chain.1
        refine ⟨p :: others, same ▸ chain, ?_⟩
        rw [List.map_cons, List.cons.injEq] at parts ⊢
        refine ⟨?_, ?_⟩
        · rw [dataOf, set, Function.update_self]
          rfl
        · rw [← parts.2]
          refine List.map_congr_left fun other member => ?_
          have apart : other ≠ p := fun equal =>
            (List.nodup_cons.mp distinct).1 (equal ▸ member)
          rw [dataOf, dataOf, set, Function.update_of_ne apart]

omit [DecidableEq Address] [Fintype Address] in
/-- The increment as a word, as `pbuf_header` adds it to the lengths. -/
theorem increment_toNat (increment : Int16) :
    (increment.toUInt16.toNat : Int) =
      if increment.toInt < 0 then increment.toInt + 65536 else increment.toInt := by
  have word : increment.toUInt16.toNat = increment.toBitVec.toNat := rfl
  have value : increment.toInt = increment.toBitVec.toInt := rfl
  have below := increment.toBitVec.isLt
  rw [word, value, BitVec.toInt_eq_toNat_cond]
  split
  · split
    · omega
    · omega
  · split
    · omega
    · omega

omit [DecidableEq Address] [Fintype Address] in
theorem len_increment {len : UInt16} {increment : Int16} (lower : 0 ≤ len.toNat + increment.toInt)
    (upper : len.toNat + increment.toInt < 65536) :
    ((len + increment.toUInt16).toNat : Int) = len.toNat + increment.toInt := by
  have added := increment_toNat increment
  have below := len.toNat_lt
  rw [UInt16.toNat_add]
  split at added
  · omega
  · omega

/-- A header goes from the front of the first part, or room for one comes before it. -/
structure HeaderMoved (increment : Int) (first moved : List UInt8) : Prop where
  hidden : increment < 0 → moved = first.drop increment.natAbs ∧ increment.natAbs ≤ first.length
  revealed : 0 ≤ increment → ∃ front, front.length = increment.natAbs ∧ moved = front ++ first

omit [DecidableEq Address] [Fintype Address] in
/-- The bytes of a buffer whose payload moves inside its memory. -/
theorem data_moved {increment : Int} {payload len : Nat}
    (inside : pbuf.payload + pbuf.len.toNat ≤ pbuf.memory.length)
    (start : (payload : Int) = pbuf.payload - increment)
    (size : (len : Int) = pbuf.len.toNat + increment) :
    HeaderMoved increment pbuf.data ((pbuf.memory.drop payload).take len) := by
  refine ⟨fun negative => ?_, fun positive => ?_⟩
  · have moved : payload = pbuf.payload + increment.natAbs := by omega
    have shorter : len = pbuf.len.toNat - increment.natAbs := by omega
    refine ⟨?_, ?_⟩
    · rw [moved, shorter, Pbuf.data, List.drop_take, List.drop_drop]
    · rw [Pbuf.data, List.length_take, List.length_drop]
      omega
  · refine ⟨(pbuf.memory.drop payload).take increment.natAbs, ?_, ?_⟩
    · rw [List.length_take, List.length_drop]
      omega
    · have longer : len = increment.natAbs + pbuf.len.toNat := by omega
      have moved : pbuf.payload = payload + increment.natAbs := by omega
      rw [longer, List.take_add, List.drop_drop, Pbuf.data, moved]

omit [DecidableEq Address] [Fintype Address] in
theorem packet_first {first : List UInt8} {rest : List (List UInt8)} (found : heap p = some pbuf)
    (packet : heap.Packet p (first :: rest)) : first = pbuf.data := by
  obtain ⟨nodes, chain, parts⟩ := packet
  cases nodes with
  | nil => cases chain
  | cons node others =>
      cases chain.1
      rw [List.map_cons, List.cons.injEq, dataOf, found] at parts
      exact parts.1.symm

/-- The holder moves the payload of its first buffer. -/
theorem Sound.moved {increment : Int16} {payload : Nat} (sound : heap.Sound (p :: held))
    (found : heap p = some pbuf) (single : pbuf.ref = 1)
    (start : (payload : Int) = pbuf.payload - increment.toInt)
    (shorter : increment.toInt < 0 → increment.toInt.natAbs ≤ pbuf.len.toNat)
    (longer : 0 ≤ increment.toInt → pbuf.type = .ram ∨ pbuf.type = .pool) :
    let after := heap.set p
      { pbuf with
        payload := payload, len := pbuf.len + increment.toUInt16,
        totLen := pbuf.totLen + increment.toUInt16 }
    after.Sound (p :: held) ∧ heap.SamePackets after held ∧
      ∀ first rest, heap.Packet p (first :: rest) →
        ∃ moved, after.Packet p (moved :: rest) ∧ HeaderMoved increment.toInt first moved := by
  intro after
  have inside := sound.inside p pbuf found
  have below := pbuf.len.toNat_lt
  have len : ((pbuf.len + increment.toUInt16).toNat : Int) = pbuf.len.toNat + increment.toInt := by
    by_cases negative : increment.toInt < 0
    · have fewer := shorter negative
      exact len_increment (by omega) (by omega)
    · have fits := sound.size p pbuf found (longer (by omega))
      exact len_increment (by omega) (by omega)
  have total : pbuf.totLen + increment.toUInt16 =
      pbuf.len + increment.toUInt16 + heap.totLenOf pbuf.next := by
    rw [sound.total p pbuf found]
    grind
  obtain ⟨fine, others, packets⟩ := sound.change found single
    { pbuf with
      payload := payload, len := pbuf.len + increment.toUInt16,
      totLen := pbuf.totLen + increment.toUInt16 } rfl rfl total (by simp only; omega)
    (sound.size p pbuf found)
  refine ⟨fine, others, fun first rest packet => ⟨_, packets first rest packet, ?_⟩⟩
  rw [packet_first found packet]
  exact data_moved inside start len

/-- A call moves the header of a packet, or it fails and changes nothing. -/
def MovesHeader (heap : PbufHeap Address) (p : Address) (held : List Address) (increment : Int)
    (result : Option (PbufHeap Address × UInt8)) : Prop :=
  ∃ after code, result = some (after, code) ∧ after.Sound (p :: held) ∧
    heap.SamePackets after held ∧ ∀ first rest, heap.Packet p (first :: rest) →
      (code = 0 ∧ ∃ moved, after.Packet p (moved :: rest) ∧ HeaderMoved increment first moved) ∨
        (code = 1 ∧ after = heap)

theorem Sound.pbufHeader (sound : heap.Sound (p :: held)) (found : heap p = some pbuf)
    (single : pbuf.ref = 1) (increment : Int16) :
    heap.MovesHeader p held increment.toInt (heap.pbufHeader p increment) := by
  rw [PbufHeap.pbufHeader, found, Option.bind_eq_bind, Option.bind_some]
  have fails : heap.MovesHeader p held increment.toInt (some (heap, 1)) :=
    ⟨heap, 1, rfl, sound, fun _ _ _ packet => packet, fun _ _ _ => Or.inr ⟨rfl, rfl⟩⟩
  have moves (start : 0 ≤ (pbuf.payload : Int) - increment.toInt)
      (shorter : increment.toInt < 0 → increment.toInt.natAbs ≤ pbuf.len.toNat)
      (longer : 0 ≤ increment.toInt → pbuf.type = .ram ∨ pbuf.type = .pool) :
      heap.MovesHeader p held increment.toInt (some (heap.set p
        { pbuf with
          payload := ((pbuf.payload : Int) - increment.toInt).toNat
          len := pbuf.len + increment.toUInt16
          totLen := pbuf.totLen + increment.toUInt16 }, 0)) := by
    obtain ⟨fine, others, packets⟩ :=
      sound.moved found single (Int.toNat_of_nonneg start) shorter longer
    exact ⟨_, 0, rfl, fine, others, fun first rest packet => Or.inl ⟨rfl, packets first rest packet⟩⟩
  simp only
  split
  · rename_i zero
    refine ⟨heap, 0, rfl, sound, fun _ _ _ packet => packet, fun first rest packet =>
      Or.inl ⟨rfl, first, packet, ?_, ?_⟩⟩
    · intro negative
      omega
    · exact fun _ => ⟨[], by rw [zero]; rfl, rfl⟩
  · split
    · exact fails
    · rename_i small
      have shorter : increment.toInt < 0 → increment.toInt.natAbs ≤ pbuf.len.toNat := by omega
      cases type : pbuf.type with
      | ram =>
          rw [type] at moves
          simp only
          split
          · exact fails
          · exact moves (by omega) shorter fun _ => Or.inl rfl
      | pool =>
          rw [type] at moves
          simp only
          split
          · exact fails
          · exact moves (by omega) shorter fun _ => Or.inr rfl
      | rom =>
          rw [type] at moves
          simp only
          split
          · exact moves (by omega) shorter fun positive => by omega
          · exact fails
      | ref =>
          rw [type] at moves
          simp only
          split
          · exact moves (by omega) shorter fun positive => by omega
          · exact fails

/-- A header does not go from a shorter buffer, and no room for one comes before other memory or before
the structure. -/
def HeaderBlocked (pbuf : Pbuf Address) (increment : Int) : Prop :=
  if increment < 0 then pbuf.len.toNat < increment.natAbs
  else pbuf.type = .rom ∨ pbuf.type = .ref ∨ pbuf.payload < increment

omit [Fintype Address] in
theorem pbufHeader_blocked {increment : Int16} (found : heap p = some pbuf)
    (failed : heap.pbufHeader p increment = some (after, 1)) :
    HeaderBlocked pbuf increment.toInt := by
  rw [PbufHeap.pbufHeader, found, Option.bind_eq_bind, Option.bind_some] at failed
  simp only at failed
  rw [HeaderBlocked]
  split at failed
  · cases failed
  · split at failed
    · rename_i short
      rw [if_pos short.1]
      exact short.2
    · cases type : pbuf.type with
      | ram =>
          simp only [type] at failed
          split at failed
          · rw [if_neg (by omega)]
            exact Or.inr (Or.inr (by omega))
          · cases failed
      | pool =>
          simp only [type] at failed
          split at failed
          · rw [if_neg (by omega)]
            exact Or.inr (Or.inr (by omega))
          · cases failed
      | rom =>
          simp only [type] at failed
          split at failed
          · cases failed
          · rw [if_neg ‹_›]
            exact Or.inl rfl
      | ref =>
          simp only [type] at failed
          split at failed
          · cases failed
          · rw [if_neg ‹_›]
            exact Or.inr (Or.inl rfl)

omit [DecidableEq Address] [Fintype Address] in
/-- Bytes that are written into a window of a memory are written into the bytes of the window. -/
theorem overwrite_window {memory bytes : List UInt8} {start offset size : Nat}
    (inside : start + size ≤ memory.length) (fits : offset + bytes.length ≤ size) :
    ((memory.take (start + offset) ++ bytes ++
        memory.drop (start + offset + bytes.length)).drop start).take size =
      ((memory.drop start).take size).take offset ++ bytes ++
        ((memory.drop start).take size).drop (offset + bytes.length) := by
  have front : (memory.take (start + offset)).length = start + offset := by
    rw [List.length_take]
    omega
  have window : ((memory.drop start).take offset).length = offset := by
    rw [List.length_take, List.length_drop]
    omega
  have whole : bytes.take (size - offset) = bytes := List.take_of_length_le (by omega)
  rw [List.append_assoc, List.drop_append_of_le_length (by omega), List.drop_take,
    Nat.add_sub_cancel_left, List.take_append, window, List.take_take, List.take_take,
    Nat.min_eq_right (by omega), Nat.min_eq_left (by omega), List.take_append,
    whole, List.drop_take, List.drop_drop, List.append_assoc, Nat.add_assoc, Nat.sub_sub]

/-- The holder writes into its first buffer. -/
theorem Sound.store {offset : Nat} {bytes : List UInt8} (sound : heap.Sound (p :: held))
    (found : heap p = some pbuf) (single : pbuf.ref = 1)
    (fits : offset + bytes.length ≤ pbuf.len.toNat) :
    ∃ after, heap.store p offset bytes = some after ∧ after.Sound (p :: held) ∧
      heap.SamePackets after held ∧ ∀ first rest, heap.Packet p (first :: rest) →
        after.Packet p
          ((first.take offset ++ bytes ++ first.drop (offset + bytes.length)) :: rest) := by
  have inside := sound.inside p pbuf found
  let new : Pbuf Address :=
    { pbuf with
      memory := pbuf.memory.take (pbuf.payload + offset) ++ bytes ++
        pbuf.memory.drop (pbuf.payload + offset + bytes.length) }
  have length : new.memory.length = pbuf.memory.length := by
    simp only [new, List.length_append, List.length_take, List.length_drop]
    omega
  obtain ⟨fine, others, packets⟩ := sound.change found single new rfl rfl
    (sound.total p pbuf found) (length ▸ inside) (length ▸ sound.size p pbuf found)
  refine ⟨heap.set p new, by rw [PbufHeap.store, found]; rfl, fine, others, fun first rest packet => ?_⟩
  have data : new.data = first.take offset ++ bytes ++ first.drop (offset + bytes.length) := by
    rw [packet_first found packet]
    exact overwrite_window inside fits
  rw [← data]
  exact packets first rest packet

theorem pbufCopyPartialLoop_eq {nodes : List Address} {start : Option Address} {turns : Nat}
    (sound : heap.Sound held) (chain : heap.cells.Chain start nodes) (enough : nodes.length ≤ turns)
    (len offset : UInt16) :
    pbufCopyPartialLoop heap turns start len offset =
      some (((nodes.map heap.dataOf).flatten.drop offset.toNat).take len.toNat) := by
  induction nodes generalizing start turns len offset with
  | nil =>
      cases chain
      unfold pbufCopyPartialLoop
      rw [List.map_nil, List.flatten_nil, List.drop_nil, List.take_nil]
  | cons node rest ih =>
      obtain ⟨rfl, cell, found, next⟩ := chain
      obtain ⟨pbuf, present, rfl⟩ := cells_cell found
      obtain ⟨turns, rfl⟩ := turns_left enough
      have fewer := Nat.le_of_succ_le_succ enough
      have length := sound.data_length present
      have data : heap.dataOf node = (pbuf.memory.drop pbuf.payload).take pbuf.len.toNat := by
        rw [dataOf, present]
        rfl
      rw [pbufCopyPartialLoop, List.map_cons, List.flatten_cons]
      split
      · rename_i zero
        rw [zero, UInt16.toNat_zero, List.take_zero]
      · rw [present, Option.bind_eq_bind, Option.bind_some]
        split
        · rename_i beyond
          have most := UInt16.le_iff_toNat_le.mp beyond.2
          have skipped : (heap.dataOf node).drop offset.toNat = [] :=
            List.drop_of_length_le (by omega)
          rw [ih next fewer, UInt16.toNat_sub_of_le _ _ beyond.2, List.drop_append, length, skipped,
            List.nil_append]
        · rename_i within
          have most : offset.toNat ≤ pbuf.len.toNat := by
            rcases Decidable.not_and_iff_not_or_not.mp within with zero | before
            · rw [Decidable.not_not.mp zero]
              exact Nat.zero_le _
            · exact Nat.le_of_lt (UInt16.lt_iff_toNat_lt.mp (UInt16.not_le.mp before))
          have remaining : (pbuf.len - offset).toNat = pbuf.len.toNat - offset.toNat :=
            UInt16.toNat_sub_of_le _ _ (UInt16.le_iff_toNat_le.mpr most)
          have size : ((heap.dataOf node).drop offset.toNat).length =
              pbuf.len.toNat - offset.toNat := by rw [List.length_drop, length]
          have window (count : Nat) (fits : count ≤ pbuf.len.toNat - offset.toNat) :
              (pbuf.memory.drop (pbuf.payload + offset.toNat)).take count =
                ((heap.dataOf node).drop offset.toNat).take count := by
            rw [data, List.drop_take, List.take_take, Nat.min_eq_left fits, List.drop_drop]
          rw [List.drop_append_of_le_length (by omega), List.take_append, size]
          simp only
          split
          · rename_i longer
            have less := UInt16.lt_iff_toNat_lt.mp longer
            have done : len.toNat - (pbuf.len.toNat - offset.toNat) = 0 := by omega
            rw [UInt16.sub_self, ih next fewer, Option.bind_eq_bind, Option.bind_some,
              UInt16.toNat_zero, List.take_zero, window _ (by omega), done, List.take_zero]
          · rename_i shorter
            have enough := UInt16.le_iff_toNat_le.mp (UInt16.not_lt.mp shorter)
            have all : ((heap.dataOf node).drop offset.toNat).take len.toNat =
                (heap.dataOf node).drop offset.toNat := List.take_of_length_le (by omega)
            rw [ih next fewer, Option.bind_eq_bind, Option.bind_some, UInt16.toNat_zero,
              List.drop_zero, UInt16.toNat_sub_of_le _ _ (UInt16.not_lt.mp shorter), remaining,
              window _ (Nat.le_refl _), List.take_of_length_le (Nat.le_of_eq size), all]

/-- `pbuf_copy_partial` copies the bytes of a packet from an offset, over all its parts. -/
theorem Sound.pbufCopyPartial {parts : List (List UInt8)} (sound : heap.Sound held)
    (packet : heap.Packet p parts) (len offset : UInt16) :
    heap.pbufCopyPartial p len offset =
      some ((parts.flatten.drop offset.toNat).take len.toNat) := by
  obtain ⟨nodes, chain, rfl⟩ := packet
  exact pbufCopyPartialLoop_eq sound chain (sound.counted.chain_nodup chain).length_le_card len offset

omit [DecidableEq Address] [Fintype Address] in
theorem pbufClenLoop_eq {nodes : List Address} {start : Option Address} {turns : Nat}
    (chain : heap.cells.Chain start nodes) (enough : nodes.length ≤ turns) (len : UInt8) :
    pbufClenLoop heap turns start len = some (len + UInt8.ofNat nodes.length) := by
  induction nodes generalizing start turns len with
  | nil =>
      cases chain
      unfold pbufClenLoop
      exact congrArg some (UInt8.add_zero len).symm
  | cons node rest ih =>
      obtain ⟨rfl, cell, found, next⟩ := chain
      obtain ⟨pbuf, present, rfl⟩ := cells_cell found
      obtain ⟨turns, rfl⟩ := turns_left enough
      rw [pbufClenLoop, present, Option.bind_eq_bind, Option.bind_some,
        ih next (Nat.le_of_succ_le_succ enough), List.length_cons, UInt8.ofNat_add, UInt8.add_assoc,
        UInt8.add_comm 1]
      rfl

/-- `pbuf_clen` counts the parts of a packet in a byte. -/
theorem Sound.pbufClen {parts : List (List UInt8)} (sound : heap.Sound held)
    (packet : heap.Packet p parts) :
    heap.pbufClen (some p) = some (UInt8.ofNat parts.length) := by
  obtain ⟨nodes, chain, rfl⟩ := packet
  rw [PbufHeap.pbufClen, pbufClenLoop_eq chain (sound.counted.chain_nodup chain).length_le_card,
    List.length_map, UInt8.zero_add]

end Calls

end NnpCamera.Network.PbufHeap
