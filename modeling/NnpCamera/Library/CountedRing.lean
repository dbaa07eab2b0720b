/-
This file relates a ring that counts its values to the bounded queue with two ends that it stores.
-/

import NnpCamera.Library.Machine
import Mathlib.Logic.Function.Basic
import Mathlib.Tactic.Common

namespace NnpCamera.Library

/-- The slot at a distance behind a position of a ring. -/
def ringSlot (size position distance : Nat) : Nat :=
  if position + distance < size then position + distance else position + distance - size

/-- The values in consecutive slots from a position on. -/
def ringRead {Slot : Type} (slots : Nat → Slot) (size position : Nat) : Nat → List Slot
  | 0 => []
  | count + 1 => ringRead slots size position count ++ [slots (ringSlot size position count)]

section Slots
variable {Slot : Type} {slots : Nat → Slot} {size position count : Nat}

theorem ringSlot_zero (inside : position < size) : ringSlot size position 0 = position := by
  simp [ringSlot, inside]

theorem ringSlot_lt (inside : position < size) (near : count ≤ size) :
    ringSlot size position count < size := by
  unfold ringSlot
  split <;> omega

/-- Two distances below the size name different slots. -/
theorem ringSlot_ne {distance : Nat} (before : distance < count) (near : count < size) :
    ringSlot size position distance ≠ ringSlot size position count := by
  unfold ringSlot
  split <;> split <;> omega

theorem ringRead_length : (ringRead slots size position count).length = count := by
  induction count with
  | zero => rfl
  | succ count ih => rw [ringRead, List.length_append, ih, List.length_singleton]

/-- A value in a slot that is not read changes nothing. -/
theorem ringRead_update {slot : Nat} (value : Slot)
    (apart : ∀ distance < count, ringSlot size position distance ≠ slot) :
    ringRead (Function.update slots slot value) size position count =
      ringRead slots size position count := by
  induction count with
  | zero => rfl
  | succ count ih =>
      have rest := ih fun distance before => apart distance (by omega)
      rw [ringRead, ringRead, rest, Function.update_of_ne (apart count (by omega))]

/-- The first value of a ring is followed by the values from the next slot on. -/
theorem ringRead_succ (inside : position < size) (near : count < size) :
    ringRead slots size position (count + 1) =
      slots position :: ringRead slots size (ringSlot size position 1) count := by
  induction count with
  | zero => simp [ringRead, ringSlot_zero inside]
  | succ count ih =>
      have next : ringSlot size (ringSlot size position 1) count =
          ringSlot size position (count + 1) := by
        unfold ringSlot
        split <;> split <;> split <;> omega
      rw [ringRead, ih (by omega), ringRead, next, List.cons_append]

end Slots

/-- The values begin at the out position, and the in position lies behind the last one. -/
structure CountedRing (Slot : Type) where
  size : Nat
  inPos : Nat
  outPos : Nat
  entries : Nat
  slots : Nat → Slot
  fits : entries ≤ size
  outInside : 0 < size → outPos < size
  inPlace : inPos = ringSlot size outPos entries

namespace CountedRing
variable {Slot : Type}

/-- A new ring has no values. -/
def create (size : Nat) (slots : Nat → Slot) : CountedRing Slot where
  size := size
  inPos := 0
  outPos := 0
  entries := 0
  slots := slots
  fits := Nat.zero_le _
  outInside := id
  inPlace := by simp [ringSlot]

variable (ring : CountedRing Slot)

/-- The values from the oldest on. -/
def contents : List Slot := ringRead ring.slots ring.size ring.outPos ring.entries

@[simp] theorem contents_length : ring.contents.length = ring.entries := ringRead_length

theorem contents_create (size : Nat) (slots : Nat → Slot) :
    (create size slots).contents = [] := rfl

theorem outPos_lt (used : 0 < ring.entries) : ring.outPos < ring.size :=
  ring.outInside (Nat.lt_of_lt_of_le used ring.fits)

/-- A post at the back fills the slot at the in position. The position wraps at the end. -/
def pushBack (value : Slot) : Option (CountedRing Slot) :=
  if room : ring.size ≤ ring.entries then none
  else some { ring with
    slots := Function.update ring.slots ring.inPos value
    inPos := if ring.inPos + 1 = ring.size then 0 else ring.inPos + 1
    entries := ring.entries + 1
    fits := by omega
    inPlace := by
      have inside := ring.outInside (by omega)
      have placed := ring.inPlace
      unfold ringSlot at placed ⊢
      split at placed <;> split <;> split <;> omega }

/-- The slot before the out position. -/
def frontPos : Nat := (if ring.outPos = 0 then ring.size else ring.outPos) - 1

theorem frontPos_lt (inside : ring.outPos < ring.size) : ring.frontPos < ring.size := by
  unfold frontPos
  split <;> omega

theorem ringSlot_frontPos (inside : ring.outPos < ring.size) {distance : Nat}
    (near : distance < ring.size) : ringSlot ring.size ring.frontPos (distance + 1) = ringSlot ring.size ring.outPos distance := by
  unfold ringSlot frontPos
  split <;> split <;> split <;> omega

/-- A post at the front moves the out position back by one slot and fills it. -/
def pushFront (value : Slot) : Option (CountedRing Slot) :=
  if room : ring.size ≤ ring.entries then none
  else some { ring with
    slots := Function.update ring.slots ring.frontPos value
    outPos := ring.frontPos
    entries := ring.entries + 1
    fits := by omega
    outInside := fun used => ring.frontPos_lt (ring.outInside used)
    inPlace := by
      rw [ring.ringSlot_frontPos (ring.outInside (by omega)) (by omega)]
      exact ring.inPlace }

/-- A read takes the value at the out position. The position wraps at the end. -/
def pop : Option (Slot × CountedRing Slot) :=
  if used : 0 < ring.entries then
    some (ring.slots ring.outPos, { ring with
      outPos := if ring.outPos + 1 = ring.size then 0 else ring.outPos + 1
      entries := ring.entries - 1
      fits := Nat.le_trans (Nat.sub_le _ _) ring.fits
      outInside := by
        have inside := ring.outPos_lt used
        split <;> omega
      inPlace := by
        have inside := ring.outPos_lt used
        have fits := ring.fits
        have placed := ring.inPlace
        unfold ringSlot at placed ⊢
        split at placed <;> split <;> split <;> omega })
  else none

/-- A flush resets both positions. -/
def flush : CountedRing Slot := create ring.size ring.slots

/-- A ring with room appends a value. -/
theorem pushBack_contents (value : Slot) (room : ring.entries < ring.size) :
    ∃ after, ring.pushBack value = some after ∧ after.size = ring.size ∧
      after.contents = ring.contents ++ [value] := by
  refine ⟨_, dif_neg (by omega), rfl, ?_⟩
  have fresh (distance : Nat) (before : distance < ring.entries) :
      ringSlot ring.size ring.outPos distance ≠ ring.inPos := by
    rw [ring.inPlace]
    exact ringSlot_ne before room
  simp only [contents, ringRead, ringRead_update value fresh, ← ring.inPlace, Function.update_self]

/-- A ring with room puts a value in front. -/
theorem pushFront_contents (value : Slot) (room : ring.entries < ring.size) :
    ∃ after, ring.pushFront value = some after ∧ after.size = ring.size ∧
      after.contents = value :: ring.contents := by
  refine ⟨_, dif_neg (by omega), rfl, ?_⟩
  have inside := ring.outInside (by omega)
  have fresh (distance : Nat) (near : distance < ring.entries) :
      ringSlot ring.size ring.outPos distance ≠ ring.frontPos := by
    unfold ringSlot frontPos
    split <;> split <;> omega
  have next : ringSlot ring.size ring.frontPos 1 = ring.outPos := by
    rw [ring.ringSlot_frontPos inside (by omega), ringSlot_zero inside]
  simp only [contents]
  rw [ringRead_succ (ring.frontPos_lt inside) room, Function.update_self, next,
    ringRead_update value fresh]

/-- A read from a ring with values advances the out position. -/
theorem pop_eq (used : 0 < ring.entries) :
    ∃ after, ring.pop = some (ring.slots ring.outPos, after) ∧ after.size = ring.size ∧
      after.outPos = ringSlot ring.size ring.outPos 1 ∧ after.entries = ring.entries - 1 ∧
      after.slots = ring.slots := by
  have inside := ring.outPos_lt used
  have next : (if ring.outPos + 1 = ring.size then 0 else ring.outPos + 1) =
      ringSlot ring.size ring.outPos 1 := by
    unfold ringSlot
    split <;> split <;> omega
  exact ⟨_, dif_pos used, rfl, next, rfl, rfl⟩

/-- A read gives the first value and keeps the others. -/
theorem pop_contents {value : Slot} {rest : List Slot} (stored : ring.contents = value :: rest) :
    ∃ after, ring.pop = some (value, after) ∧ after.size = ring.size ∧ after.contents = rest := by
  have counted : ring.entries = rest.length + 1 := by
    rw [← contents_length, stored, List.length_cons]
  have used : 0 < ring.entries := by omega
  have fits := ring.fits
  obtain ⟨after, popped, sized, next, left, same⟩ := ring.pop_eq used
  rw [contents, counted, ringRead_succ (ring.outPos_lt used) (by omega), List.cons.injEq] at stored
  refine ⟨after, by rw [popped, stored.1], sized, ?_⟩
  rw [contents, sized, next, left, same, counted]
  exact stored.2

theorem contents_eq_nil : ring.contents = [] ↔ ring.entries = 0 := by
  rw [← List.length_eq_zero_iff, contents_length]

end CountedRing

/-- A caller posts at an end of a queue, takes the first value or drops all values. -/
inductive DequeCall (Value : Type) where
  | back (value : Value)
  | front (value : Value)
  | take
  | drop

/-- A queue with two ends stores values up to its capacity. -/
def boundedDeque (Value : Type) (capacity : Nat) :
    Machine (List Value) (DequeCall Value) (QueueResult Value) where
  step contents call :=
    match call with
    | .back value =>
        if contents.length < capacity then (contents ++ [value], .stored true)
        else (contents, .stored false)
    | .front value =>
        if contents.length < capacity then (value :: contents, .stored true)
        else (contents, .stored false)
    | .take => (contents.tail, .value contents.head?)
    | .drop => ([], .stored true)

namespace CountedRing
variable {Slot : Type}

/-- The ring as a machine with the same calls. -/
def machine (Slot : Type) : Machine (CountedRing Slot) (DequeCall Slot) (QueueResult Slot) where
  step ring call :=
    match call with
    | .back value =>
        match ring.pushBack value with
        | none => (ring, .stored false)
        | some after => (after, .stored true)
    | .front value =>
        match ring.pushFront value with
        | none => (ring, .stored false)
        | some after => (after, .stored true)
    | .take =>
        match ring.pop with
        | none => (ring, .value none)
        | some (value, after) => (after, .value (some value))
    | .drop => (ring.flush, .stored true)

/-- A ring that counts its values is a bounded queue with two ends that uses each slot. -/
theorem machine_simulates (capacity : Nat) :
    (machine Slot).Simulates (boundedDeque Slot capacity)
      fun ring contents => ring.size = capacity ∧ ring.contents = contents := by
  rintro ring contents call ⟨rfl, rfl⟩
  cases call with
  | back value =>
      by_cases room : ring.entries < ring.size
      · obtain ⟨after, pushed, sized, appended⟩ := ring.pushBack_contents value room
        simp [machine, boundedDeque, pushed, sized, appended, room]
      · simp [machine, boundedDeque, pushBack, room, Nat.le_of_not_lt room]
  | front value =>
      by_cases room : ring.entries < ring.size
      · obtain ⟨after, pushed, sized, added⟩ := ring.pushFront_contents value room
        simp [machine, boundedDeque, pushed, sized, added, room]
      · simp [machine, boundedDeque, pushFront, room, Nat.le_of_not_lt room]
  | take =>
      cases stored : ring.contents with
      | nil =>
          have unused := ring.contents_eq_nil.mp stored
          simp [machine, boundedDeque, pop, unused, stored]
      | cons value rest =>
          obtain ⟨after, popped, sized, left⟩ := ring.pop_contents stored
          simp [machine, boundedDeque, popped, sized, left]
  | drop => exact ⟨rfl, rfl, contents_create ..⟩

end CountedRing

end NnpCamera.Library
