/-
This file describes a heap as a row of chunks. A request takes the first free chunk that holds it, and
free neighbours become one chunk.
-/

import Mathlib.Data.List.Basic
import Mathlib.Data.List.Chain
import Mathlib.Logic.Function.Basic

namespace NnpCamera.Library

/-- A chunk of a heap. -/
structure Chunk where
  size : Nat
  used : Bool
  deriving DecidableEq

namespace Chunk

/-- The size of a row of chunks. -/
def width : List Chunk → Nat
  | [] => 0
  | chunk :: rest => chunk.size + width rest

@[simp] theorem width_nil : width [] = 0 := rfl

@[simp] theorem width_cons (chunk : Chunk) (rest : List Chunk) :
    width (chunk :: rest) = chunk.size + width rest := rfl

@[simp] theorem width_append (before rest : List Chunk) :
    width (before ++ rest) = width before + width rest := by
  induction before with
  | nil => exact (Nat.zero_add _).symm
  | cons chunk before ih => rw [List.cons_append, width_cons, width_cons, ih, Nat.add_assoc]

/-- A chunk is no larger than its row. -/
theorem size_le_width {chunk : Chunk} {chunks : List Chunk} (member : chunk ∈ chunks) :
    chunk.size ≤ width chunks := by
  induction chunks with
  | nil => contradiction
  | cons first rest ih =>
      rw [width_cons]
      obtain rfl | later := List.mem_cons.mp member
      · exact Nat.le_add_right ..
      · exact (ih later).trans (Nat.le_add_left ..)

/-- A row has no more chunks than cells. -/
theorem length_le_width {chunks : List Chunk} (sized : ∀ chunk ∈ chunks, 0 < chunk.size) :
    chunks.length ≤ width chunks := by
  induction chunks with
  | nil => exact Nat.le_refl 0
  | cons chunk rest ih =>
      have filled := sized chunk List.mem_cons_self
      have tail := ih fun next member => sized next (List.mem_cons_of_mem _ member)
      rw [List.length_cons, width_cons]
      omega

/-- The sizes of the used chunks at their starts. -/
def held : List Chunk → Nat → Option Nat
  | [], _ => none
  | chunk :: rest, start =>
      if start = 0 then if chunk.used then some chunk.size else none
      else if start < chunk.size then none
      else held rest (start - chunk.size)

/-- A chunk joins the first chunk of a row when both are free. -/
def join (chunk : Chunk) : List Chunk → List Chunk
  | [] => [chunk]
  | next :: rest =>
      if chunk.used = false ∧ next.used = false then ⟨chunk.size + next.size, false⟩ :: rest
      else chunk :: next :: rest

/-- The first free chunk that holds the request is granted. What remains of it becomes a chunk if it
has the least size. -/
def grant (least need : Nat) : List Chunk → Option (Nat × List Chunk)
  | [] => none
  | chunk :: rest =>
      if chunk.used = false ∧ need ≤ chunk.size then
        if need + least ≤ chunk.size then
          some (0, ⟨need, true⟩ :: ⟨chunk.size - need, false⟩ :: rest)
        else some (0, ⟨chunk.size, true⟩ :: rest)
      else (grant least need rest).map fun (start, after) => (chunk.size + start, chunk :: after)

/-- A chunk becomes free and joins its free neighbours. -/
def release : Nat → List Chunk → List Chunk
  | _, [] => []
  | start, chunk :: rest =>
      if start = 0 then join ⟨chunk.size, false⟩ rest
      else join chunk (release (start - chunk.size) rest)

/-- The row begins with a free chunk. -/
def startsFree : List Chunk → Bool
  | [] => false
  | chunk :: _ => !chunk.used

/-- A chunk gives up its end. The end joins a free neighbour, or becomes a chunk if it has the least
size. -/
def shrink (least need : Nat) : Nat → List Chunk → List Chunk
  | _, [] => []
  | start, chunk :: rest =>
      if start = 0 then
        if need < chunk.size ∧ (startsFree rest = true ∨ need + least ≤ chunk.size) then
          ⟨need, true⟩ :: join ⟨chunk.size - need, false⟩ rest
        else chunk :: rest
      else chunk :: shrink least need (start - chunk.size) rest

/-- The place of the first free chunk, or the end of the row. -/
def firstFree : List Chunk → Nat
  | [] => 0
  | chunk :: rest => if chunk.used then chunk.size + firstFree rest else 0

/-- Each chunk has the least size and is a multiple of the unit. No free chunks are neighbours. -/
structure Shaped (least unit : Nat) (chunks : List Chunk) : Prop where
  least_le : ∀ chunk ∈ chunks, least ≤ chunk.size
  unit_dvd : ∀ chunk ∈ chunks, unit ∣ chunk.size
  separated : chunks.IsChain fun first second => first.used = true ∨ second.used = true

variable {least unit need start size : Nat} {chunk : Chunk} {chunks rest after : List Chunk}

theorem Shaped.tail (shaped : Shaped least unit (chunk :: rest)) : Shaped least unit rest where
  least_le := fun next member => shaped.least_le next (List.mem_cons_of_mem _ member)
  unit_dvd := fun next member => shaped.unit_dvd next (List.mem_cons_of_mem _ member)
  separated := shaped.separated.tail

/-- No free chunk follows a free chunk. -/
theorem Shaped.apart (shaped : Shaped least unit (chunk :: rest)) :
    chunk.used = true ∨ startsFree rest = false := by
  cases rest with
  | nil => exact .inr rfl
  | cons next rest =>
      have apart := (List.isChain_cons_cons.mp shaped.separated).1
      simpa [startsFree] using apart

/-- A row gets a new first chunk. -/
theorem Shaped.cons (shaped : Shaped least unit rest) (enough : least ≤ chunk.size)
    (multiple : unit ∣ chunk.size) (apart : chunk.used = true ∨ startsFree rest = false) :
    Shaped least unit (chunk :: rest) := by
  refine ⟨?_, ?_, ?_⟩
  · simpa using ⟨enough, shaped.least_le⟩
  · simpa using ⟨multiple, shaped.unit_dvd⟩
  · cases rest with
    | nil => exact .singleton chunk
    | cons next rest =>
        refine List.IsChain.cons_cons ?_ shaped.separated
        simpa [startsFree] using apart

@[simp] theorem width_join (chunk : Chunk) (rest : List Chunk) :
    width (join chunk rest) = chunk.size + width rest := by
  cases rest with
  | nil => simp [join]
  | cons next rest =>
      rw [join]
      split <;> simp [Nat.add_assoc]

/-- A row keeps its shape when a chunk joins it. -/
theorem Shaped.join (shaped : Shaped least unit rest)
    (enough : least ≤ chunk.size ∨ chunk.used = false ∧ startsFree rest = true)
    (multiple : unit ∣ chunk.size) : Shaped least unit (join chunk rest) := by
  cases rest with
  | nil => exact shaped.cons (enough.resolve_right (by simp [startsFree])) multiple (.inr rfl)
  | cons next rest =>
      rw [Chunk.join]
      split
      next both =>
        have size := shaped.least_le next List.mem_cons_self
        have dvd := shaped.unit_dvd next List.mem_cons_self
        apply shaped.tail.cons (size.trans (Nat.le_add_left ..)) (Nat.dvd_add multiple dvd)
        exact .inr (shaped.apart.resolve_left (by simp [both.2]))
      next apart =>
        have size := enough.resolve_right (by simpa [startsFree] using apart)
        exact shaped.cons size multiple (by simpa [startsFree, or_iff_not_imp_left] using apart)

/-- The used chunks of two rows with the same first chunk. -/
theorem held_cons_update {value : Option Nat} (filled : 0 < chunk.size) (inside : chunk.size ≤ start)
    (same : held after = Function.update (held rest) (start - chunk.size) value) :
    held (chunk :: after) = Function.update (held (chunk :: rest)) start value := by
  funext place
  rw [held, same]
  by_cases here : place = start
  · subst here
    simp [show place ≠ 0 by omega, show ¬ place < chunk.size by omega]
  · by_cases first : place = 0
    · simp [first, held, show (0 : Nat) ≠ start by omega]
    · by_cases before : place < chunk.size
      · simp [held, first, before, here]
      · have other : place - chunk.size ≠ start - chunk.size := by omega
        simp [held, first, before, here, other]

theorem held_cons_congr (same : held after = held rest) :
    held (chunk :: after) = held (chunk :: rest) := by
  funext start
  rw [held, held, same]

/-- The first chunk changes its use. -/
theorem held_first (used : Bool) (chunk : Chunk) (rest : List Chunk) :
    held (⟨chunk.size, used⟩ :: rest) =
      Function.update (held (chunk :: rest)) 0 (if used then some chunk.size else none) := by
  funext place
  by_cases first : place = 0 <;> simp [first, held]

/-- A chunk is cut in two, and the second part is free. -/
theorem held_cut {first second : Nat} (filled : 0 < first) (more : 0 < second) (used : Bool)
    (rest : List Chunk) :
    held (⟨first, used⟩ :: ⟨second, false⟩ :: rest) =
      Function.update (held (⟨first + second, used⟩ :: rest)) 0 (if used then some first else none) := by
  funext place
  by_cases zero : place = 0
  · simp [zero, held]
  · by_cases inside : place < first
    · simp [held, zero, inside, show place < first + second by omega]
    · by_cases cut : place = first
      · simp [held, cut, Nat.ne_of_gt filled, more]
      · by_cases within : place < first + second
        · simp [held, zero, inside, within, show place - first ≠ 0 by omega,
            show place - first < second by omega]
        · simp [held, zero, inside, within, show place - first ≠ 0 by omega,
            show ¬ place - first < second by omega, Nat.sub_sub]

/-- A join of free chunks changes no use. -/
theorem held_join (filled : 0 < chunk.size) (sized : ∀ next ∈ rest, 0 < next.size) :
    held (join chunk rest) = held (chunk :: rest) := by
  cases rest with
  | nil => rfl
  | cons next rest =>
      rw [join]
      split
      next both =>
        obtain ⟨_, _⟩ := chunk
        obtain ⟨_, _⟩ := next
        obtain ⟨rfl, rfl⟩ := both
        rw [held_cut filled (sized _ List.mem_cons_self)]
        exact (Function.update_eq_self_iff.mpr (by simp [held])).symm
      next => rfl

/-- The start of a used chunk after the first one. -/
theorem held_later {value : Nat} (found : held (chunk :: rest) start = some value)
    (later : start ≠ 0) : chunk.size ≤ start ∧ held rest (start - chunk.size) = some value := by
  simp only [held, later, if_false] at found
  split at found
  next => contradiction
  next outside => exact ⟨Nat.le_of_not_lt outside, found⟩

theorem Shaped.pos (shaped : Shaped least unit chunks) (positive : 0 < least) :
    ∀ chunk ∈ chunks, 0 < chunk.size :=
  fun chunk member => positive.trans_le (shaped.least_le chunk member)

@[simp] theorem width_release (start : Nat) (chunks : List Chunk) :
    width (release start chunks) = width chunks := by
  induction chunks generalizing start with
  | nil => rfl
  | cons chunk rest ih =>
      rw [release]
      split <;> simp [ih]

theorem Shaped.release (shaped : Shaped least unit chunks) (start : Nat) :
    Shaped least unit (release start chunks) := by
  induction chunks generalizing start with
  | nil => exact shaped
  | cons chunk rest ih =>
      have enough := shaped.least_le chunk List.mem_cons_self
      have multiple := shaped.unit_dvd chunk List.mem_cons_self
      rw [Chunk.release]
      split
      next => exact shaped.tail.join (.inl enough) multiple
      next => exact (ih shaped.tail _).join (.inl enough) multiple

/-- A release ends the use of its chunk only. -/
theorem held_release (shaped : Shaped least unit chunks) (positive : 0 < least)
    (found : held chunks start = some size) :
    held (release start chunks) = Function.update (held chunks) start none := by
  induction chunks generalizing start with
  | nil => contradiction
  | cons chunk rest ih =>
      have filled := shaped.pos positive chunk List.mem_cons_self
      rw [release]
      split
      next first =>
        subst first
        apply (held_join _ (shaped.tail.pos positive)).trans (held_first false chunk rest)
        exact filled
      next later =>
        obtain ⟨inside, found⟩ := held_later found later
        rw [held_join filled ((shaped.tail.release _).pos positive)]
        exact held_cons_update filled inside (ih shaped.tail found)

/-- A grant uses a chunk that was free and holds the request. -/
theorem held_grant (positive : 0 < least) (asked : least ≤ need) (shaped : Shaped least unit chunks)
    (granted : grant least need chunks = some (start, after)) :
    held chunks start = none ∧ ∃ size, need ≤ size ∧
      held after = Function.update (held chunks) start (some size) := by
  induction chunks generalizing start after with
  | nil => contradiction
  | cons chunk rest ih =>
      have filled := shaped.pos positive chunk List.mem_cons_self
      rw [grant] at granted
      split at granted
      next fits =>
        split at granted
        next room =>
          obtain ⟨rfl, rfl⟩ := Prod.mk.inj (Option.some.inj granted)
          refine ⟨by simp [held, fits.1], need, le_rfl, ?_⟩
          rw [held_cut (by omega) (by omega), Nat.add_sub_cancel' fits.2, held_first,
            Function.update_idem]
          rfl
        next =>
          obtain ⟨rfl, rfl⟩ := Prod.mk.inj (Option.some.inj granted)
          exact ⟨by simp [held, fits.1], chunk.size, fits.2, held_first true chunk rest⟩
      next =>
        obtain ⟨⟨place, row⟩, found, same⟩ := Option.map_eq_some_iff.mp granted
        obtain ⟨rfl, rfl⟩ := Prod.mk.inj same
        obtain ⟨before, size, enough, changed⟩ := ih shaped.tail found
        refine ⟨?_, size, enough, held_cons_update filled (Nat.le_add_right ..) ?_⟩
        · rw [held, if_neg (by omega), if_neg (by omega), Nat.add_sub_cancel_left, before]
        · rw [Nat.add_sub_cancel_left, changed]

/-- A request is refused only when no free chunk holds it. -/
theorem grant_eq_none :
    grant least need chunks = none ↔ ∀ chunk ∈ chunks, chunk.used = false → chunk.size < need := by
  induction chunks with
  | nil => simp [grant]
  | cons chunk rest ih =>
      rw [grant, List.forall_mem_cons]
      split
      next fits =>
        have refused : ¬ (chunk.used = false → chunk.size < need) :=
          fun less => Nat.not_lt_of_le fits.2 (less fits.1)
        split <;> simp [refused]
      next full =>
        rw [Option.map_eq_none_iff, ih, and_iff_right]
        exact fun free => Nat.lt_of_not_le fun enough => full ⟨free, enough⟩

theorem width_grant (granted : grant least need chunks = some (start, after)) :
    width after = width chunks := by
  induction chunks generalizing start after with
  | nil => contradiction
  | cons chunk rest ih =>
      rw [grant] at granted
      split at granted
      next fits =>
        split at granted
        next =>
          obtain ⟨_, rfl⟩ := Prod.mk.inj (Option.some.inj granted)
          simp only [width_cons]
          omega
        next =>
          obtain ⟨_, rfl⟩ := Prod.mk.inj (Option.some.inj granted)
          simp
      next =>
        obtain ⟨⟨place, row⟩, found, same⟩ := Option.map_eq_some_iff.mp granted
        obtain ⟨_, rfl⟩ := Prod.mk.inj same
        simp [ih found]

theorem grant_startsFree (granted : grant least need chunks = some (start, after)) :
    startsFree after = true → startsFree chunks = true := by
  cases chunks with
  | nil => contradiction
  | cons chunk rest =>
      rw [grant] at granted
      split at granted
      next fits => simp [startsFree, fits.1]
      next =>
        obtain ⟨_, _, same⟩ := Option.map_eq_some_iff.mp granted
        obtain ⟨_, rfl⟩ := Prod.mk.inj same
        exact id

/-- A grant keeps the shape of the row. -/
theorem Shaped.grant (shaped : Shaped least unit chunks) (asked : least ≤ need)
    (multiple : unit ∣ need) (granted : grant least need chunks = some (start, after)) :
    Shaped least unit after := by
  induction chunks generalizing start after with
  | nil => contradiction
  | cons chunk rest ih =>
      have enough := shaped.least_le chunk List.mem_cons_self
      have divides := shaped.unit_dvd chunk List.mem_cons_self
      rw [Chunk.grant] at granted
      split at granted
      next fits =>
        split at granted
        next room =>
          obtain ⟨_, rfl⟩ := Prod.mk.inj (Option.some.inj granted)
          have apart : startsFree rest = false := shaped.apart.resolve_left (by simp [fits.1])
          have remainder : Shaped least unit (⟨chunk.size - need, false⟩ :: rest) :=
            shaped.tail.cons (Nat.le_sub_of_add_le' room) (Nat.dvd_sub divides multiple) (.inr apart)
          exact remainder.cons asked multiple (.inl rfl)
        next =>
          obtain ⟨_, rfl⟩ := Prod.mk.inj (Option.some.inj granted)
          exact shaped.tail.cons enough divides (.inl rfl)
      next =>
        obtain ⟨⟨place, row⟩, found, same⟩ := Option.map_eq_some_iff.mp granted
        obtain ⟨_, rfl⟩ := Prod.mk.inj same
        refine (ih shaped.tail found).cons enough divides (shaped.apart.imp_right fun used => ?_)
        rw [← Bool.not_eq_true] at used ⊢
        exact mt (grant_startsFree found) used

@[simp] theorem width_shrink (least need start : Nat) (chunks : List Chunk) :
    width (shrink least need start chunks) = width chunks := by
  induction chunks generalizing start with
  | nil => rfl
  | cons chunk rest ih =>
      rw [shrink]
      split
      next =>
        split
        next less =>
          simp only [width_cons, width_join]
          omega
        next => rfl
      next => simp [ih]

theorem shrink_startsFree (found : held chunks start = some size) :
    startsFree (shrink least need start chunks) = startsFree chunks := by
  cases chunks with
  | nil => contradiction
  | cons chunk rest =>
      rw [shrink]
      split
      next first =>
        subst first
        have used : chunk.used = true := by
          by_contra free
          simp [held, free] at found
        split <;> simp [startsFree, used]
      next => rfl

/-- A shrink keeps the shape of the row. -/
theorem Shaped.shrink (shaped : Shaped least unit chunks) (asked : least ≤ need)
    (multiple : unit ∣ need) (found : held chunks start = some size) :
    Shaped least unit (shrink least need start chunks) := by
  induction chunks generalizing start with
  | nil => contradiction
  | cons chunk rest ih =>
      have enough := shaped.least_le chunk List.mem_cons_self
      have divides := shaped.unit_dvd chunk List.mem_cons_self
      rw [Chunk.shrink]
      split
      next =>
        split
        next less =>
          have joined : Shaped least unit (Chunk.join ⟨chunk.size - need, false⟩ rest) := by
            apply shaped.tail.join _ (Nat.dvd_sub divides multiple)
            exact less.2.symm.imp Nat.le_sub_of_add_le' fun free => ⟨rfl, free⟩
          exact joined.cons asked multiple (.inl rfl)
        next => exact shaped
      next later =>
        obtain ⟨_, found⟩ := held_later found later
        have same : startsFree (Chunk.shrink least need _ rest) = startsFree rest :=
          shrink_startsFree found
        exact (ih shaped.tail found).cons enough divides (same ▸ shaped.apart)

/-- A shrink changes the size of its chunk only. -/
theorem held_shrink (positive : 0 < least) (asked : least ≤ need) (shaped : Shaped least unit chunks)
    (less : need ≤ size) (found : held chunks start = some size) :
    ∃ left, need ≤ left ∧ left ≤ size ∧
      held (shrink least need start chunks) = Function.update (held chunks) start (some left) := by
  induction chunks generalizing start with
  | nil => contradiction
  | cons chunk rest ih =>
      have filled := shaped.pos positive chunk List.mem_cons_self
      rw [shrink]
      split
      next first =>
        subst first
        have used : chunk.used = true := by
          by_contra free
          simp [held, free] at found
        obtain rfl : chunk.size = size := by simpa [held, used] using found
        split
        next smaller =>
          refine ⟨need, le_rfl, less, ?_⟩
          have rest : held (join ⟨chunk.size - need, false⟩ rest) =
              held (⟨chunk.size - need, false⟩ :: rest) :=
            held_join (Nat.sub_pos_of_lt smaller.1) (shaped.tail.pos positive)
          rw [held_cons_congr rest, held_cut (positive.trans_le asked) (Nat.sub_pos_of_lt smaller.1),
            Nat.add_sub_cancel' less, held_first, Function.update_idem]
          rfl
        next => exact ⟨chunk.size, less, le_rfl, (Function.update_eq_self_iff.mpr found.symm).symm⟩
      next later =>
        obtain ⟨inside, found⟩ := held_later found later
        obtain ⟨left, enough, most, changed⟩ := ih shaped.tail found
        exact ⟨left, enough, most, held_cons_update filled inside changed⟩

/-- A used chunk lies inside the row. -/
theorem held_inside (found : held chunks start = some size) : start + size ≤ width chunks := by
  induction chunks generalizing start with
  | nil => contradiction
  | cons chunk rest ih =>
      rw [width_cons]
      by_cases first : start = 0
      · have same : chunk.used = true ∧ chunk.size = size := by simpa [held, first] using found
        omega
      · obtain ⟨inside, found⟩ := held_later found first
        have bound := ih found
        omega

/-- Two used chunks lie apart. -/
theorem held_apart {other length : Nat} (found : held chunks start = some size)
    (second : held chunks other = some length) (before : start < other) : start + size ≤ other := by
  induction chunks generalizing start other with
  | nil => contradiction
  | cons chunk rest ih =>
      obtain ⟨inside, later⟩ := held_later second (by omega)
      by_cases first : start = 0
      · have same : chunk.used = true ∧ chunk.size = size := by simpa [held, first] using found
        omega
      · obtain ⟨above, found⟩ := held_later found first
        have apart := ih found later (by omega)
        omega

/-- A used chunk keeps the shape. -/
theorem Shaped.held (shaped : Shaped least unit chunks) (found : held chunks start = some size) :
    least ≤ size ∧ unit ∣ size ∧ unit ∣ start := by
  induction chunks generalizing start with
  | nil => contradiction
  | cons chunk rest ih =>
      by_cases first : start = 0
      · have same : chunk.used = true ∧ chunk.size = size := by simpa [Chunk.held, first] using found
        have enough := shaped.least_le chunk List.mem_cons_self
        have divides := shaped.unit_dvd chunk List.mem_cons_self
        exact ⟨same.2 ▸ enough, same.2 ▸ divides, first ▸ Nat.dvd_zero unit⟩
      · obtain ⟨inside, found⟩ := held_later found first
        obtain ⟨enough, divides, multiple⟩ := ih shaped.tail found
        have divides' := shaped.unit_dvd chunk List.mem_cons_self
        refine ⟨enough, divides, ?_⟩
        rw [← Nat.sub_add_cancel inside]
        exact Nat.dvd_add multiple divides'

/-- When no chunk is used, the row is one free chunk. -/
theorem Shaped.unused (shaped : Shaped least unit chunks) (positive : 0 < least)
    (filled : 0 < width chunks) (unused : ∀ start, Chunk.held chunks start = none) :
    chunks = [⟨width chunks, false⟩] := by
  cases chunks with
  | nil => simp at filled
  | cons chunk rest =>
      have free : chunk.used = false := by
        have none := unused 0
        simpa [Chunk.held] using none
      cases rest with
      | nil => simp [← free]
      | cons next rest =>
          have size := shaped.pos positive chunk List.mem_cons_self
          have apart := shaped.apart.resolve_left (by simp [free])
          have none := unused chunk.size
          simp [Chunk.held, Nat.ne_of_gt size] at none
          simp [startsFree, none] at apart

/-- A used chunk lies before or after each place where a chunk begins. -/
theorem held_boundary {before : List Chunk} (found : held (before ++ rest) start = some size) :
    start + size ≤ width before ∨ width before ≤ start := by
  induction before generalizing start with
  | nil => exact .inr (Nat.zero_le start)
  | cons chunk before ih =>
      rw [width_cons]
      by_cases first : start = 0
      · have same : chunk.used = true ∧ chunk.size = size := by simpa [held, first] using found
        omega
      · obtain ⟨inside, found⟩ := held_later found first
        have apart := ih found
        omega

/-- A used chunk has chunks before it and after it. -/
theorem held_split (found : held chunks start = some size) :
    ∃ before rest, chunks = before ++ [⟨size, true⟩] ++ rest ∧ width before = start := by
  induction chunks generalizing start with
  | nil => contradiction
  | cons chunk rest ih =>
      by_cases first : start = 0
      · have same : chunk.used = true ∧ chunk.size = size := by simpa [held, first] using found
        exact ⟨[], rest, by simp [← same.1, ← same.2], first.symm⟩
      · obtain ⟨inside, found⟩ := held_later found first
        obtain ⟨before, after, rfl, place⟩ := ih found
        exact ⟨chunk :: before, after, rfl, by rw [width_cons]; omega⟩

/-- A granted chunk has chunks before it and after it. -/
theorem grant_split (granted : grant least need chunks = some (start, after)) :
    ∃ before chunk rest, chunks = before ++ [chunk] ++ rest ∧ width before = start ∧
      chunk.used = false ∧ need ≤ chunk.size ∧
      after = before ++ (if need + least ≤ chunk.size then
        [⟨need, true⟩, ⟨chunk.size - need, false⟩] else [⟨chunk.size, true⟩]) ++ rest := by
  induction chunks generalizing start after with
  | nil => contradiction
  | cons chunk rest ih =>
      rw [grant] at granted
      split at granted
      next fits =>
        refine ⟨[], chunk, rest, rfl, ?_⟩
        split at granted <;> obtain ⟨rfl, rfl⟩ := Prod.mk.inj (Option.some.inj granted) <;>
          simp [*]
      next =>
        obtain ⟨⟨place, row⟩, found, same⟩ := Option.map_eq_some_iff.mp granted
        obtain ⟨rfl, rfl⟩ := Prod.mk.inj same
        obtain ⟨before, free, after, rfl, rfl, rest⟩ := ih found
        exact ⟨chunk :: before, free, after, rfl, by simp, rest.1, rest.2.1, by simp [rest.2.2]⟩

/-- A request passes the used chunks at the front. -/
theorem grant_used {before : List Chunk} (used : ∀ chunk ∈ before, chunk.used = true) :
    grant least need (before ++ rest) =
      (grant least need rest).map fun (start, after) => (width before + start, before ++ after) := by
  induction before with
  | nil => simp
  | cons chunk before ih =>
      have first := used chunk List.mem_cons_self
      have others := ih fun next member => used next (List.mem_cons_of_mem _ member)
      rw [List.cons_append, grant, if_neg (by simp [first]), others, Option.map_map]
      congr 1
      funext ⟨place, row⟩
      simp [Nat.add_assoc]

theorem firstFree_used {before : List Chunk} (used : ∀ chunk ∈ before, chunk.used = true) :
    firstFree (before ++ rest) = width before + firstFree rest := by
  induction before with
  | nil => simp
  | cons chunk before ih =>
      have first := used chunk List.mem_cons_self
      have others := ih fun next member => used next (List.mem_cons_of_mem _ member)
      rw [List.cons_append, firstFree, if_pos first, others, width_cons, Nat.add_assoc]

/-- A free chunk before the rest comes first. -/
theorem firstFree_free {before : List Chunk} (sized : ∀ chunk ∈ before, 0 < chunk.size)
    (free : ¬ ∀ chunk ∈ before, chunk.used = true) (rest : List Chunk) :
    firstFree (before ++ rest) = firstFree before ∧ firstFree before < width before := by
  induction before with
  | nil => simp at free
  | cons chunk before ih =>
      rw [List.cons_append, firstFree, firstFree, width_cons]
      split
      next first =>
        rw [List.forall_mem_cons, not_and] at free
        have tail := ih (fun next member => sized next (List.mem_cons_of_mem _ member)) (free first)
        exact ⟨by rw [tail.1], Nat.add_lt_add_left tail.2 _⟩
      next =>
        have filled := sized chunk List.mem_cons_self
        exact ⟨rfl, Nat.add_pos_left filled _⟩

/-- The used chunks at the front of a row. -/
theorem firstFree_split (chunks : List Chunk) :
    ∃ before rest, chunks = before ++ rest ∧ (∀ chunk ∈ before, chunk.used = true) ∧
      width before = firstFree chunks := by
  induction chunks with
  | nil => exact ⟨[], [], rfl, by simp, rfl⟩
  | cons chunk rest ih =>
      by_cases first : chunk.used = true
      · obtain ⟨before, after, rfl, used, place⟩ := ih
        refine ⟨chunk :: before, after, rfl, ?_, ?_⟩
        · rw [List.forall_mem_cons]
          exact ⟨first, used⟩
        · rw [width_cons, place, firstFree, if_pos first]
      · exact ⟨[], chunk :: rest, rfl, by simp, by simp [firstFree, first]⟩

@[simp] theorem startsFree_join (chunk : Chunk) (rest : List Chunk) :
    startsFree (join chunk rest) = !chunk.used := by
  cases rest with
  | nil => rfl
  | cons next rest =>
      rw [join]
      split
      next both => simp [startsFree, both.1]
      next => rfl

theorem join_free (size : Nat) (rest : List Chunk) :
    ∃ (joined : Nat) (others : List Chunk), join ⟨size, false⟩ rest = ⟨joined, false⟩ :: others := by
  cases rest with
  | nil => exact ⟨size, [], rfl⟩
  | cons next rest =>
      rw [join]
      split
      next => exact ⟨_, _, rfl⟩
      next => exact ⟨_, _, rfl⟩

/-- A chunk joins nothing when it is used or no free chunk follows. -/
theorem join_eq_cons (apart : chunk.used = true ∨ startsFree rest = false) :
    join chunk rest = chunk :: rest := by
  cases rest with
  | nil => rfl
  | cons next rest =>
      rw [join, if_neg]
      simpa [startsFree, or_iff_not_imp_left] using apart

/-- A released chunk joins the chunk after it and then the chunk before it. -/
theorem release_split {front : List Chunk} {last : Chunk} (positive : 0 < least)
    (shaped : Shaped least unit (front ++ last :: chunk :: rest)) :
    release (width front + last.size) (front ++ last :: chunk :: rest) =
      front ++ join last (join ⟨chunk.size, false⟩ rest) := by
  induction front with
  | nil =>
      have filled := shaped.pos positive last List.mem_cons_self
      rw [List.nil_append, width_nil, Nat.zero_add, release, if_neg (Nat.ne_of_gt filled),
        Nat.sub_self, release, if_pos rfl, List.nil_append]
  | cons first front ih =>
      have filled := shaped.pos positive first List.mem_cons_self
      rw [List.cons_append, width_cons, Nat.add_assoc, release, if_neg (by omega),
        Nat.add_sub_cancel_left, ih shaped.tail]
      apply join_eq_cons
      have apart := shaped.apart
      cases front with
      | nil =>
          rw [List.nil_append, startsFree_join]
          simpa [startsFree] using apart
      | cons next front => simpa [startsFree] using apart

/-- A release frees the first chunk, or leaves the first free chunk. -/
theorem firstFree_release (found : held chunks start = some size) :
    firstFree (release start chunks) = min start (firstFree chunks) := by
  induction chunks generalizing start with
  | nil => contradiction
  | cons chunk rest ih =>
      have free (chunk : Chunk) (rest : List Chunk) (free : chunk.used = false) :
          firstFree (join chunk rest) = 0 := by
        have begins := startsFree_join chunk rest
        cases joined : join chunk rest with
        | nil => rfl
        | cons next row =>
            rw [joined] at begins
            have unused : next.used = false := by simpa [startsFree, free] using begins
            simp [firstFree, unused]
      rw [release]
      split
      next first => rw [free _ _ rfl, first, Nat.zero_min]
      next later =>
        obtain ⟨inside, found⟩ := held_later found later
        by_cases used : chunk.used = true
        · rw [join_eq_cons (.inl used), firstFree, if_pos used, firstFree, if_pos used, ih found]
          omega
        · rw [free _ _ (by simpa using used), firstFree, if_neg used, Nat.min_zero]

theorem held_append_congr (before : List Chunk) (same : held after = held rest) :
    held (before ++ after) = held (before ++ rest) := by
  induction before with
  | nil => exact same
  | cons chunk before ih => exact held_cons_congr ih

/-- The used chunks lie before and after a free chunk. -/
theorem held_apart_free {before : List Chunk} (free : chunk.used = false)
    (found : held (before ++ chunk :: rest) start = some size) :
    start + size ≤ width before ∨ width before + chunk.size ≤ start := by
  induction before generalizing start with
  | nil =>
      have later : start ≠ 0 := by
        rintro rfl
        simp [held, free] at found
      exact .inr (by simpa using (held_later found later).1)
  | cons first before ih =>
      rw [width_cons]
      by_cases zero : start = 0
      · have same : first.used = true ∧ first.size = size := by simpa [held, zero] using found
        omega
      · obtain ⟨inside, found⟩ := held_later found zero
        have apart := ih found
        omega

/-- The chunk that is shrunk has chunks before it and after it. -/
theorem shrink_split (least need : Nat) (chunk : Chunk) (rest : List Chunk) {before : List Chunk}
    (sized : ∀ chunk ∈ before, 0 < chunk.size) :
    shrink least need (width before) (before ++ chunk :: rest) =
      before ++ if need < chunk.size ∧ (startsFree rest = true ∨ need + least ≤ chunk.size) then
        ⟨need, true⟩ :: join ⟨chunk.size - need, false⟩ rest else chunk :: rest := by
  induction before with
  | nil => rw [width_nil, List.nil_append, shrink, if_pos rfl, List.nil_append]
  | cons first before ih =>
      have filled := sized first List.mem_cons_self
      have others := ih fun next member => sized next (List.mem_cons_of_mem _ member)
      rw [List.cons_append, width_cons, shrink, if_neg (by omega), Nat.add_sub_cancel_left, others,
        List.cons_append]

end Chunk

end NnpCamera.Library
