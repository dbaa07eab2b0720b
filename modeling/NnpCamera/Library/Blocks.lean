/-
This file cuts an image into blocks and puts numbered blocks together again.
-/

import NnpCamera.Library.Memory
import Mathlib.Data.List.Range

namespace NnpCamera.Library
variable {Cell : Type}

/-- A partial image knows some of its cells. -/
abbrev PartialImage (Cell : Type) := Nat → Option Cell

namespace PartialImage

/-- The empty image knows no cell. -/
def empty : PartialImage Cell := fun _ => none

/-- A received block fills the cells from its start on. -/
def place (image : PartialImage Cell) (start : Nat) (block : List Cell) : PartialImage Cell :=
  fun position =>
    if start ≤ position ∧ position < start + block.length then block[position - start]?
    else image position

/-- The image knows the cells of one range from the source. -/
def fill (image : PartialImage Cell) (source : Memory Cell) (first past : Nat) :
    PartialImage Cell :=
  fun position =>
    if first ≤ position ∧ position < past then some (source position) else image position

theorem fill_empty_range (image : PartialImage Cell) (source : Memory Cell) (first : Nat) :
    image.fill source first first = image := by
  funext position
  simp only [fill]
  rw [if_neg (by omega)]

/-- A block of the source fills its own range. -/
theorem place_read (image : PartialImage Cell) (source : Memory Cell) (start size : Nat) :
    image.place start (source.read start size) = image.fill source start (start + size) := by
  funext position
  simp only [place, fill, Memory.read_length]
  split
  next inside =>
    have offset : position - start < size := by omega
    have same : start + (position - start) = position := by omega
    simp [Memory.read, offset, same]
  next => rfl

/-- A block that starts at the end of the known range extends it. -/
theorem fill_fill (image : PartialImage Cell) (source : Memory Cell) {first middle past : Nat}
    (low : first ≤ middle) (high : middle ≤ past) :
    (image.fill source first middle).fill source middle past = image.fill source first past := by
  funext position
  simp only [fill]
  by_cases late : middle ≤ position ∧ position < past
  · rw [if_pos late, if_pos (by omega)]
  · rw [if_neg late]
    by_cases early : first ≤ position ∧ position < middle
    · rw [if_pos early, if_pos (by omega)]
    · rw [if_neg early, if_neg (by omega)]

/-- Consecutive blocks of equal size fill exactly the range that they cover. -/
theorem place_blocks (image : PartialImage Cell) (source : Memory Cell)
    (size first count : Nat) :
    (List.range' first count).foldl
        (fun image index => image.place (size * index) (source.read (size * index) size)) image =
      image.fill source (size * first) (size * (first + count)) := by
  induction count with
  | zero => simp [fill_empty_range]
  | succ count ih =>
      rw [List.range'_1_concat, List.foldl_append, ih]
      simp only [List.foldl_cons, List.foldl_nil, place_read]
      have next : size * (first + count) + size = size * (first + (count + 1)) := by
        rw [← Nat.add_assoc, Nat.mul_add_one]
      rw [next]
      apply fill_fill
      · exact Nat.mul_le_mul_left _ (by omega)
      · exact Nat.mul_le_mul_left _ (by omega)

end PartialImage

end NnpCamera.Library
