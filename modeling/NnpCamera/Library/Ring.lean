/-
This file relates a ring of slots to the queue that it stores. One slot always stays free.
-/

import NnpCamera.Library.Machine
import Mathlib.Logic.Function.Basic
import Mathlib.Tactic.Common

namespace NnpCamera.Library

/-- Both positions of a ring lie inside it. A position names the slot used last. -/
structure Ring (size : Nat) (Slot : Type) where
  rdpos : Nat
  wrpos : Nat
  slots : Nat → Slot
  rdInside : rdpos < size
  wrInside : wrpos < size

namespace Ring
variable {size : Nat} {Slot : Type}

/-- A position advances by one slot and wraps at the end. -/
def advance (size position : Nat) : Nat := if size ≤ position + 1 then 0 else position + 1

theorem advance_lt {position : Nat} (inside : position < size) : advance size position < size := by
  unfold advance
  split <;> omega

/-- A write advances the write position, and fails when it meets the read position. -/
def write (ring : Ring size Slot) (value : Slot) : Option (Ring size Slot) :=
  if ring.rdpos = advance size ring.wrpos then none
  else some { ring with
    wrpos := advance size ring.wrpos
    slots := Function.update ring.slots (advance size ring.wrpos) value
    wrInside := advance_lt ring.wrInside }

/-- The number of stored values. -/
def count (ring : Ring size Slot) : Nat :=
  if ring.rdpos ≤ ring.wrpos then ring.wrpos - ring.rdpos else ring.wrpos + size - ring.rdpos

/-- The slot at a distance behind the read position. -/
def slotAt (ring : Ring size Slot) (distance : Nat) : Nat :=
  if ring.rdpos + distance < size then ring.rdpos + distance else ring.rdpos + distance - size

/-- The stored values in the order in which reads return them. -/
def contents (ring : Ring size Slot) : List Slot :=
  (List.range ring.count).map fun index => ring.slots (ring.slotAt (index + 1))

theorem count_lt (ring : Ring size Slot) : ring.count < size := by
  have read := ring.rdInside
  have written := ring.wrInside
  unfold count
  split <;> omega

/-- The next write uses the slot behind the last stored value. -/
theorem advance_wrpos (ring : Ring size Slot) :
    advance size ring.wrpos = ring.slotAt (ring.count + 1) := by
  have read := ring.rdInside
  have written := ring.wrInside
  unfold advance slotAt count
  split <;> split <;> split <;> omega

/-- A write into a ring with room advances the write position. -/
theorem write_eq (ring : Ring size Slot) (value : Slot) (room : ring.count + 1 < size) :
    ∃ after, ring.write value = some after ∧ after.rdpos = ring.rdpos ∧
      after.wrpos = advance size ring.wrpos ∧
      after.slots = Function.update ring.slots (advance size ring.wrpos) value := by
  have read := ring.rdInside
  have written := ring.wrInside
  have apart : ring.rdpos ≠ advance size ring.wrpos := by
    unfold count at room
    unfold advance
    split at room <;> split <;> omega
  exact ⟨_, if_neg apart, rfl, rfl, rfl⟩

/-- A write appends its value while a slot besides the free one is left. -/
theorem write_contents (ring : Ring size Slot) (value : Slot) (room : ring.count + 1 < size) :
    ∃ after, ring.write value = some after ∧ after.contents = ring.contents ++ [value] ∧
      after.count = ring.count + 1 := by
  have read := ring.rdInside
  have written := ring.wrInside
  obtain ⟨after, wrote, sameRead, next, slots⟩ := ring.write_eq value room
  have counted : after.count = ring.count + 1 := by
    unfold count at room ⊢
    rw [sameRead, next]
    unfold advance
    split at room <;> split <;> split <;> omega
  have sameSlot (distance : Nat) : after.slotAt distance = ring.slotAt distance := by
    simp only [slotAt, sameRead]
  refine ⟨after, wrote, ?_, counted⟩
  simp only [contents, counted, sameSlot, slots, List.range_succ, List.map_append,
    List.map_singleton, advance_wrpos, Function.update_self]
  congr 1
  apply List.map_congr_left
  intro index inside
  have stored := List.mem_range.mp inside
  -- The written slot lies behind all stored values.
  have different : ring.slotAt (index + 1) ≠ ring.slotAt (ring.count + 1) := by
    unfold slotAt
    split <;> split <;> omega
  exact Function.update_of_ne different _ _

/-- A full ring refuses a write. -/
theorem write_full (ring : Ring size Slot) (value : Slot) (full : ¬ ring.count + 1 < size) :
    ring.write value = none := by
  have read := ring.rdInside
  have written := ring.wrInside
  have meets : ring.rdpos = advance size ring.wrpos := by
    unfold count at full
    unfold advance
    split at full <;> split <;> omega
  exact if_pos meets

/-- A write leaves the read position and the slot there. -/
theorem write_slot {ring after : Ring size Slot} {value : Slot}
    (wrote : ring.write value = some after) :
    after.rdpos = ring.rdpos ∧ after.slots ring.rdpos = ring.slots ring.rdpos := by
  unfold write at wrote
  split at wrote
  next => simp at wrote
  next apart =>
    obtain rfl := Option.some.inj wrote
    exact ⟨rfl, Function.update_of_ne apart _ _⟩

/-- A read advances the read position to the slot that it gives back. -/
def read (ring : Ring size Slot) : Option (Ring size Slot) :=
  if ring.rdpos = ring.wrpos then none
  else some { ring with
    rdpos := advance size ring.rdpos
    rdInside := advance_lt ring.rdInside }

/-- An empty ring has equal positions. -/
theorem count_eq_zero (ring : Ring size Slot) : ring.count = 0 ↔ ring.rdpos = ring.wrpos := by
  have read := ring.rdInside
  have written := ring.wrInside
  unfold count
  split <;> omega

@[simp] theorem contents_length (ring : Ring size Slot) : ring.contents.length = ring.count := by
  simp [contents]

/-- Nothing can be read from an empty ring. -/
theorem read_empty (ring : Ring size Slot) (empty : ring.contents = []) : ring.read = none := by
  have none : ring.count = 0 := by
    rw [← contents_length, empty]
    rfl
  exact if_pos (ring.count_eq_zero.mp none)

/-- A read from a ring with values advances the read position. -/
theorem read_eq (ring : Ring size Slot) (apart : ring.rdpos ≠ ring.wrpos) :
    ∃ after, ring.read = some after ∧ after.rdpos = advance size ring.rdpos ∧
      after.wrpos = ring.wrpos ∧ after.slots = ring.slots :=
  ⟨_, if_neg apart, rfl, rfl, rfl⟩

/-- A read gives the first stored value and keeps the others. -/
theorem read_contents (ring : Ring size Slot) {value : Slot} {rest : List Slot}
    (stored : ring.contents = value :: rest) :
    ∃ after, ring.read = some after ∧ after.contents = rest ∧ after.slots = ring.slots ∧
      after.slots after.rdpos = value := by
  have read := ring.rdInside
  have written := ring.wrInside
  have counted : ring.count = rest.length + 1 := by
    rw [← contents_length, stored, List.length_cons]
  have apart : ring.rdpos ≠ ring.wrpos := by
    intro same
    have none := ring.count_eq_zero.mpr same
    omega
  obtain ⟨after, got, next, sameWrite, slots⟩ := ring.read_eq apart
  have left : after.count = rest.length := by
    unfold count at counted ⊢
    rw [next, sameWrite]
    unfold advance
    split at counted <;> split <;> split <;> omega
  have slot (distance : Nat) (inside : distance < size) :
      after.slotAt distance = ring.slotAt (distance + 1) := by
    simp only [slotAt, next]
    unfold advance
    split <;> split <;> split <;> omega
  rw [contents, counted, List.range_succ_eq_map, List.map_cons, List.map_map,
    List.cons.injEq] at stored
  refine ⟨after, got, ?_, slots, ?_⟩
  · rw [contents, left, slots]
    refine Eq.trans ?_ stored.2
    apply List.map_congr_left
    intro index inside
    have small := List.mem_range.mp inside
    have bound := ring.count_lt
    exact congrArg ring.slots (slot (index + 1) (by omega))
  · have first : after.rdpos = ring.slotAt 1 := by
      rw [next]
      unfold advance slotAt
      split <;> split <;> omega
    rw [slots, first]
    exact stored.1

/-- A reservation is the first half of a write. It advances the write position only. -/
def reserve (ring : Ring size Slot) : Option (Ring size Slot) :=
  if ring.rdpos = advance size ring.wrpos then none
  else some { ring with
    wrpos := advance size ring.wrpos
    wrInside := advance_lt ring.wrInside }

/-- A fill is the second half of a write. It stores the value at the write position. -/
def fill (ring : Ring size Slot) (value : Slot) : Ring size Slot :=
  { ring with slots := Function.update ring.slots ring.wrpos value }

/-- A write reserves a slot and fills it. -/
theorem write_eq_reserve (ring : Ring size Slot) (value : Slot) :
    ring.write value = ring.reserve.map (·.fill value) := by
  unfold write reserve
  split <;> rfl

/-- A reservation appends a slot with its old value. -/
theorem reserve_contents {ring after : Ring size Slot} (reserved : ring.reserve = some after) :
    after.contents = ring.contents ++ [after.slots after.wrpos] ∧ after.rdpos = ring.rdpos ∧
      after.slots = ring.slots := by
  have read := ring.rdInside
  have written := ring.wrInside
  unfold reserve at reserved
  split at reserved
  next => simp at reserved
  next apart =>
    have room : ring.count + 1 < size := by
      unfold advance at apart
      unfold count
      split at apart <;> split <;> omega
    -- Writing the old value of the slot back changes no slot.
    obtain ⟨wrote, same, appended, _⟩ :=
      ring.write_contents (ring.slots (advance size ring.wrpos)) room
    obtain rfl := Option.some.inj reserved
    refine ⟨?_, rfl, rfl⟩
    rw [write, if_neg apart] at same
    rw [← appended, ← Option.some.inj same]
    simp [contents, count, slotAt, Function.update_eq_self]

/-- A fill replaces the last stored value. -/
theorem fill_contents {ring : Ring size Slot} {stored : List Slot} {last : Slot} (value : Slot)
    (contents : ring.contents = stored ++ [last]) :
    (ring.fill value).contents = stored ++ [value] := by
  have read := ring.rdInside
  have written := ring.wrInside
  have counted : ring.count = stored.length + 1 := by
    rw [← contents_length, contents, List.length_append, List.length_singleton]
  have place : ring.wrpos = ring.slotAt (stored.length + 1) := by
    unfold count at counted
    unfold slotAt
    split at counted <;> split <;> omega
  have shape (slots : Nat → Slot) : (List.range ring.count).map
      (fun index => slots (ring.slotAt (index + 1))) =
        (List.range stored.length).map (fun index => slots (ring.slotAt (index + 1))) ++
          [slots ring.wrpos] := by
    rw [counted, List.range_succ, List.map_append, List.map_singleton, place]
  have earlier := (List.append_inj' ((shape ring.slots).symm.trans contents) rfl).1
  change (List.range ring.count).map (fun index => (ring.fill value).slots
    (ring.slotAt (index + 1))) = _
  rw [shape, ← earlier]
  congr 1
  · simp only [List.length_map, List.length_range]
    apply List.map_congr_left
    intro index inside
    have before := List.mem_range.mp inside
    have different : ring.slotAt (index + 1) ≠ ring.wrpos := by
      have bound := ring.count_lt
      rw [place]
      unfold slotAt
      split <;> split <;> omega
    exact Function.update_of_ne different _ _
  · exact congrArg (fun slot => [slot]) (Function.update_self ..)

/-- A fill leaves the slot at the read position of a ring with values. -/
theorem fill_slot {ring : Ring size Slot} (value : Slot) (stored : ring.contents ≠ []) :
    (ring.fill value).slots ring.rdpos = ring.slots ring.rdpos := by
  have apart : ring.rdpos ≠ ring.wrpos := by
    intro same
    apply stored
    rw [← List.length_eq_zero_iff, contents_length, ring.count_eq_zero]
    exact same
  exact Function.update_of_ne apart _ _

/-- The ring answers each read with the value in the slot that it gives back. -/
def machine (size : Nat) (Slot : Type) :
    Machine (Ring size Slot) (QueueCall Slot) (QueueResult Slot) where
  step ring call :=
    match call with
    | .read =>
        match ring.read with
        | none => (ring, .value none)
        | some after => (after, .value (some (after.slots after.rdpos)))
    | .write value =>
        match ring.write value with
        | none => (ring, .stored false)
        | some after => (after, .stored true)

/-- A ring is a bounded queue that keeps one slot free. -/
theorem machine_simulates (size : Nat) (Slot : Type) :
    (machine size Slot).Simulates (boundedQueue Slot (size - 1))
      fun ring contents => ring.contents = contents := by
  intro ring contents call same
  subst same
  cases call with
  | read =>
      cases stored : ring.contents with
      | nil => simp [machine, boundedQueue, ring.read_empty stored, stored]
      | cons value rest =>
          obtain ⟨after, got, left, _, slot⟩ := ring.read_contents stored
          simp [machine, boundedQueue, got, left, slot]
  | write value =>
      by_cases room : ring.count + 1 < size
      · obtain ⟨after, wrote, appended, _⟩ := ring.write_contents value room
        have inside : ring.count < size - 1 := by omega
        simp [machine, boundedQueue, wrote, appended, inside]
      · have full : ¬ ring.count < size - 1 := by omega
        simp [machine, boundedQueue, ring.write_full value room, full]

end Ring

end NnpCamera.Library
