/-
This file describes a whole that is put together from slices in their order.
-/

import Mathlib.Data.List.Chain
import Mathlib.Data.List.Basic

namespace NnpCamera.Library
variable {Item Value : Type} {whole : List Value} {start stop : Item → Nat} {data : Item → List Value}

/-- The data of an item is the part of the whole between two places. -/
structure Slice (whole : List Value) (start stop : Item → Nat) (data : Item → List Value)
    (item : Item) : Prop where
  order : start item ≤ stop item
  inside : stop item ≤ whole.length
  data : data item = (whole.take (stop item)).drop (start item)

theorem Slice.length {item : Item} (slice : Slice whole start stop data item) :
    (data item).length = stop item - start item := by
  rw [slice.data, List.length_drop, List.length_take, Nat.min_eq_left slice.inside]

/-- Two parts of the whole that touch are one part. -/
theorem part_append {first second third : Nat} (less : first ≤ second) (more : second ≤ third)
    (inside : third ≤ whole.length) :
    (whole.take second).drop first ++ (whole.take third).drop second =
      (whole.take third).drop first := by
  have shorter : whole.take second = (whole.take third).take second := by
    rw [List.take_take, Nat.min_eq_left more]
  have room : first ≤ ((whole.take third).take second).length := by
    rw [List.length_take, List.length_take, Nat.min_eq_left inside, Nat.min_eq_left more]
    exact less
  rw [shorter, ← List.drop_append_of_le_length room, List.take_append_drop]

/-- Slices in order are no longer than the part of the whole from the first one to the last one, and
they are as long when they touch. -/
theorem slices_length {first : Item} {rest : List Item}
    (order : (first :: rest).IsChain fun item next => stop item ≤ start next)
    (slices : ∀ item ∈ first :: rest, Slice whole start stop data item) :
    start first ≤ stop (rest.getLastD first) ∧
      ((first :: rest).flatMap data).length ≤ stop (rest.getLastD first) - start first ∧
      (((first :: rest).flatMap data).length = stop (rest.getLastD first) - start first ↔
        (first :: rest).IsChain fun item next => stop item = start next) := by
  induction rest generalizing first with
  | nil =>
      have slice := slices first List.mem_cons_self
      simp [slice.length, slice.order]
  | cons next rest ih =>
      have slice := slices first List.mem_cons_self
      rw [List.isChain_cons_cons] at order
      obtain ⟨less, most, exact_iff⟩ := ih order.2 fun item member =>
        slices item (List.mem_cons_of_mem _ member)
      have ordered := slice.order
      rw [List.flatMap_cons, List.length_append, slice.length, List.getLastD_cons,
        List.isChain_cons_cons, ← exact_iff]
      omega

/-- Slices that touch are one slice. -/
theorem slices_join {first : Item} {rest : List Item}
    (touch : (first :: rest).IsChain fun item next => stop item = start next)
    (slices : ∀ item ∈ first :: rest, Slice whole start stop data item) :
    (first :: rest).flatMap data = (whole.take (stop (rest.getLastD first))).drop (start first) := by
  induction rest generalizing first with
  | nil => simpa using (slices first List.mem_cons_self).data
  | cons next rest ih =>
      have slice := slices first List.mem_cons_self
      have later : ∀ item ∈ next :: rest, Slice whole start stop data item := fun item member =>
        slices item (List.mem_cons_of_mem _ member)
      rw [List.isChain_cons_cons] at touch
      have order : (next :: rest).IsChain fun item next => stop item ≤ start next :=
        touch.2.imp fun _ _ same => same.le
      have less := (slices_length order later).1
      have last : rest.getLastD next ∈ next :: rest := List.getLastD_mem_cons ..
      rw [List.flatMap_cons, ih touch.2 later, slice.data, ← touch.1, List.getLastD_cons]
      exact part_append slice.order (touch.1 ▸ less) (later _ last).inside

/-- Slices in order from the start to the end of the whole are the whole when they touch. -/
theorem slices_whole {first : Item} {rest : List Item}
    (order : (first :: rest).IsChain fun item next => stop item ≤ start next)
    (slices : ∀ item ∈ first :: rest, Slice whole start stop data item)
    (begins : start first = 0) (ends : stop (rest.getLastD first) = whole.length) :
    (first :: rest).flatMap data = whole ↔
      (first :: rest).IsChain fun item next => stop item = start next := by
  constructor
  · intro same
    apply (slices_length order slices).2.2.mp
    rw [same, begins, ends, Nat.sub_zero]
  · intro touch
    rw [slices_join touch slices, begins, ends, List.take_length, List.drop_zero]

/-- The last one of items in order ends last. -/
theorem stop_le_last {first : Item} {rest : List Item}
    (order : (first :: rest).Pairwise fun item next => stop item ≤ start next)
    (filled : ∀ item ∈ first :: rest, start item ≤ stop item) {item : Item}
    (member : item ∈ first :: rest) : stop item ≤ stop (rest.getLastD first) := by
  induction rest generalizing first item with
  | nil =>
      obtain rfl := List.mem_singleton.mp member
      exact Nat.le_refl _
  | cons next rest ih =>
      have inside : ∀ item ∈ next :: rest, start item ≤ stop item := fun item member =>
        filled item (List.mem_cons_of_mem _ member)
      rw [List.getLastD_cons]
      obtain rfl | member := List.mem_cons.mp member
      · have less := List.rel_of_pairwise_cons order List.mem_cons_self
        have more := ih order.of_cons inside List.mem_cons_self
        have ordered := inside next List.mem_cons_self
        omega
      · exact ih order.of_cons inside member

/-- Items in order touch when they cover each place from the first one to a place at which none ends
later. -/
theorem covered_touch {bound : Nat} {first : Item} {rest : List Item}
    (order : (first :: rest).Pairwise fun item next => stop item ≤ start next)
    (filled : ∀ item ∈ first :: rest, start item < stop item ∧ stop item ≤ bound)
    (covered : ∀ place, start first ≤ place → place < bound →
      ∃ item ∈ first :: rest, start item ≤ place ∧ place < stop item) :
    (first :: rest).IsChain fun item next => stop item = start next := by
  induction rest generalizing first with
  | nil => exact .singleton _
  | cons next rest ih =>
      have later : ∀ item ∈ next :: rest, stop first ≤ start item := fun _ member =>
        List.rel_of_pairwise_cons order member
      have before := filled first List.mem_cons_self
      have behind := filled next (List.mem_cons_of_mem _ List.mem_cons_self)
      have less := later next List.mem_cons_self
      refine List.isChain_cons_cons.mpr ⟨?_, ih order.of_cons ?_ ?_⟩
      · by_contra hole
        obtain ⟨item, member, low, high⟩ := covered (stop first) before.1.le (by omega)
        obtain rfl | member := List.mem_cons.mp member
        · omega
        · obtain rfl | member := List.mem_cons.mp member
          · omega
          · have next_order := List.rel_of_pairwise_cons order.of_cons member
            omega
      · exact fun item member => filled item (List.mem_cons_of_mem _ member)
      · intro place low high
        obtain ⟨item, member, inside⟩ := covered place (by omega) high
        obtain rfl | member := List.mem_cons.mp member
        · omega
        · exact ⟨item, member, inside⟩

end NnpCamera.Library
