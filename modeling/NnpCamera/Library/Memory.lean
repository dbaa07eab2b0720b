import Mathlib.Logic.Function.Basic

namespace NnpCamera.Library

/-- A memory holds one cell at each address. -/
abbrev Memory (Cell : Type) := Nat → Cell

namespace Memory
variable {Cell : Type}

/-- The copy loop stores one source cell in each pass. -/
def copy (memory : Memory Cell) (target : Nat) (source : Nat → Cell) : Nat → Memory Cell
  | 0 => memory
  | count + 1 =>
      Function.update (copy memory target source count) (target + count) (source count)

/-- The copy loop leaves each address outside its target range. -/
theorem copy_outside (memory : Memory Cell) (target count address : Nat) (source : Nat → Cell)
    (outside : address < target ∨ target + count ≤ address) :
    copy memory target source count address = memory address := by
  induction count with
  | zero => rfl
  | succ count ih =>
      have different : address ≠ target + count := by omega
      rw [copy, Function.update_of_ne different]
      exact ih (by omega)

/-- The copy loop moves each source cell to its own place in the target range. -/
theorem copy_inside (memory : Memory Cell) (target count index : Nat) (source : Nat → Cell)
    (inside : index < count) :
    copy memory target source count (target + index) = source index := by
  induction count with
  | zero => omega
  | succ count ih =>
      rw [copy]
      by_cases last : index = count
      · subst index
        exact Function.update_self ..
      · rw [Function.update_of_ne (by omega)]
        exact ih (by omega)

attribute [irreducible] copy

/-- The cells of one range in address order. -/
def read (memory : Memory Cell) (first count : Nat) : List Cell :=
  (List.range count).map fun index => memory (first + index)

@[simp] theorem read_length (memory : Memory Cell) (first count : Nat) :
    (memory.read first count).length = count := by
  simp [read]

/-- A range splits at each place. -/
theorem read_add (memory : Memory Cell) (first count rest : Nat) :
    memory.read first (count + rest) = memory.read first count ++ memory.read (first + count) rest := by
  simp [read, List.range_add, Function.comp_def, Nat.add_assoc]

/-- The first cells of a range are a shorter range. -/
theorem take_read (memory : Memory Cell) (first : Nat) {count size : Nat} (less : count ≤ size) :
    (memory.read first size).take count = memory.read first count := by
  rw [← Nat.add_sub_cancel' less, read_add]
  exact List.take_left' (read_length ..)

/-- A range that lies inside another is a slice of it. -/
theorem read_slice (memory : Memory Cell) (first : Nat) {offset count size : Nat}
    (inside : offset + count ≤ size) :
    ((memory.read first size).drop offset).take count = memory.read (first + offset) count := by
  obtain ⟨rest, rfl⟩ := Nat.exists_eq_add_of_le inside
  rw [Nat.add_assoc, read_add, List.drop_left' (read_length ..), read_add]
  exact List.take_left' (read_length ..)

/-- Equal cells give equal ranges. -/
theorem read_congr {memory other : Memory Cell} {first second count : Nat}
    (same : ∀ index < count, memory (first + index) = other (second + index)) :
    memory.read first count = other.read second count := by
  apply List.map_congr_left
  intro index inside
  exact same index (List.mem_range.mp inside)

/-- The copied range holds the source. -/
theorem read_copy (memory : Memory Cell) (target count : Nat) (source : Memory Cell)
    (first : Nat) :
    (memory.copy target (fun index => source (first + index)) count).read target count =
      source.read first count := by
  apply read_congr
  intro index inside
  exact copy_inside memory target count index _ inside

/-- A list that is copied into memory is read back. -/
theorem read_copy_list (memory : Memory Cell) (target : Nat) (cells : List Cell) (fallback : Cell) :
    (memory.copy target (fun index => cells.getD index fallback) cells.length).read target
      cells.length = cells := by
  apply List.ext_getElem (read_length ..)
  intro index _ inside
  simp only [read, List.getElem_map, List.getElem_range]
  rw [copy_inside _ _ _ _ _ inside, ← List.getElem_eq_getD fallback]

/-- A store outside the range does not change it. -/
theorem read_update (memory : Memory Cell) (first count address : Nat) (value : Cell)
    (outside : address < first ∨ first + count ≤ address) :
    read (Function.update memory address value) first count = memory.read first count := by
  apply read_congr
  intro index inside
  have different : first + index ≠ address := by omega
  exact Function.update_of_ne different _ _

section Move
variable {Address Cell : Type} [DecidableEq Address]

/-- The copy loop within one memory reads each cell as the passes before left it. -/
def move (target source : Nat → Address) (memory : Address → Cell) : Nat → Address → Cell
  | 0 => memory
  | count + 1 =>
      Function.update (move target source memory count) (target count)
        (move target source memory count (source count))

/-- The copy loop leaves each address that is no target. -/
theorem move_outside (target source : Nat → Address) (memory : Address → Cell) {count : Nat}
    {address : Address} (outside : ∀ index < count, address ≠ target index) :
    move target source memory count address = memory address := by
  induction count with
  | zero => rfl
  | succ count ih =>
      rw [move, Function.update_of_ne (outside count (Nat.lt_succ_self count))]
      exact ih fun index inside => outside index (Nat.lt_succ_of_lt inside)

/-- A cell arrives as it was at the start, if no pass before its own stores at its source and no pass
after its own stores at its target. -/
theorem move_inside (target source : Nat → Address) (memory : Address → Cell) {count index : Nat}
    (inside : index < count) (early : ∀ other < index, source index ≠ target other)
    (late : ∀ other < count, index < other → target index ≠ target other) :
    move target source memory count (target index) = memory (source index) := by
  induction count with
  | zero => omega
  | succ count ih =>
      rw [move]
      by_cases last : index = count
      · rw [last, Function.update_self]
        exact move_outside target source memory fun other before => last ▸ early other (last ▸ before)
      · rw [Function.update_of_ne (late count (Nat.lt_succ_self count) (by omega))]
        exact ih (by omega) fun other before => late other (Nat.lt_succ_of_lt before)

end Move

end Memory

/-- A loop that stores one value for each entry fills a table. -/
theorem foldl_update {Index Value : Type} [DecidableEq Index] (entries : List Index)
    (value old : Index → Value) :
    entries.foldl (fun table entry => Function.update table entry (value entry)) old =
      fun entry => if entry ∈ entries then value entry else old entry := by
  induction entries generalizing old with
  | nil => simp
  | cons first rest ih =>
      rw [List.foldl_cons, ih]
      funext entry
      by_cases later : entry ∈ rest
      · simp [later]
      · by_cases same : entry = first
        · simp [same]
        · simp [later, same]

end NnpCamera.Library
