/-
This file develops linked cells that count the references to them.
-/

import Mathlib.Algebra.BigOperators.Group.Finset.Piecewise
import Mathlib.Data.Finset.Max
import Mathlib.Data.Fintype.Basic
import Mathlib.Data.List.Chain
import Mathlib.Data.List.Count
import Mathlib.Logic.Relation

namespace NnpCamera.Library

/-- A cell points to at most one cell and counts the references to itself. -/
structure Cell (Node : Type) where
  next : Option Node
  ref : Nat

/-- A node without a cell is free. -/
abbrev Cells (Node : Type) := Node → Option (Cell Node)

namespace Cells
variable {Node : Type} [DecidableEq Node]

/-- The cell of a node points to another node. -/
def Points (cells : Cells Node) (node target : Node) : Prop :=
  (cells node).bind Cell.next = some target

instance (cells : Cells Node) (node target : Node) : Decidable (cells.Points node target) :=
  inferInstanceAs (Decidable (_ = _))

/-- One pointer of a cell, or none. -/
def pointer (cell : Option (Cell Node)) (target : Node) : Nat :=
  if cell.bind Cell.next = some target then 1 else 0

/-- The number of cells that point to a node. -/
def pointers [Fintype Node] (cells : Cells Node) (target : Node) : Nat :=
  Finset.univ.sum fun node => pointer (cells node) target

/-- Each cell counts its holders and the pointers to it. There is no cycle, and no pointer goes to a
free node. -/
structure Counted [Fintype Node] (cells : Cells Node) (held : List Node) : Prop where
  ref : ∀ node cell, cells node = some cell →
    cell.ref = held.count node + cells.pointers node ∧ 0 < cell.ref
  held : ∀ node ∈ held, (cells node).isSome
  next : ∀ node target, cells.Points node target → (cells target).isSome
  acyclic : ∃ depth : Node → Nat, ∀ node target, cells.Points node target → depth target < depth node

section Pointers
variable {cells : Cells Node} {node target : Node}

omit [DecidableEq Node] in
theorem points_some {cell : Cell Node} (found : cells node = some cell) :
    cells.Points node target ↔ cell.next = some target := by
  rw [Points, found, Option.bind_some]

omit [DecidableEq Node] in
theorem Points.cell (points : cells.Points node target) :
    ∃ cell, cells node = some cell ∧ cell.next = some target :=
  Option.bind_eq_some_iff.mp points

/-- Only the changed cell changes its pointer. -/
theorem points_update {other : Node} {cell : Option (Cell Node)} :
    Points (Function.update cells node cell) other target ↔
      if other = node then cell.bind Cell.next = some target else cells.Points other target := by
  rw [Points, Function.update_apply]
  split
  · rfl
  · rfl

variable [Fintype Node]

/-- A change of one cell moves at most one pointer. -/
theorem pointers_update (cells : Cells Node) (node target : Node) (cell : Option (Cell Node)) :
    pointers (Function.update cells node cell) target + pointer (cells node) target =
      cells.pointers target + pointer cell target := by
  have changed : (fun other => pointer (Function.update cells node cell other) target) =
      Function.update (fun other => pointer (cells other) target) node (pointer cell target) := by
    funext other
    rcases eq_or_ne other node with rfl | different
    · rw [Function.update_self, Function.update_self]
    · rw [Function.update_of_ne different, Function.update_of_ne different]
  have split := Finset.add_sum_erase Finset.univ (fun other => pointer (cells other) target)
    (Finset.mem_univ node)
  rw [pointers, pointers, changed, Finset.sum_update_of_mem (Finset.mem_univ node),
    Finset.sdiff_singleton_eq_erase]
  omega

/-- A node that a cell points to has a pointer. -/
theorem Points.pointers_pos (points : cells.Points node target) : 0 < cells.pointers target := by
  have one : pointer (cells node) target = 1 := if_pos points
  have without := pointers_update cells node target none
  rw [one, show pointer none target = 0 from rfl] at without
  omega

theorem exists_points (some : 0 < cells.pointers target) : ∃ node, cells.Points node target := by
  obtain ⟨node, _, pos⟩ := Finset.exists_ne_zero_of_sum_ne_zero (Nat.ne_of_gt some)
  refine ⟨node, ?_⟩
  by_contra none
  exact pos (if_neg none)

/-- Two cells that point to a node are two pointers. -/
theorem Points.pointers_two {other : Node} (points : cells.Points node target)
    (too : cells.Points other target) (different : other ≠ node) : 2 ≤ cells.pointers target := by
  have one : pointer (cells node) target = 1 := if_pos points
  have without := pointers_update cells node target none
  have rest : Points (Function.update cells node none) other target := by
    rw [points_update, if_neg different]
    exact too
  have more := rest.pointers_pos
  rw [one, show pointer none target = 0 from rfl] at without
  omega

end Pointers

section Rules
variable [Fintype Node] {cells : Cells Node} {held : List Node} {node target : Node}
  {cell : Cell Node}

/-- The order of the holders does not matter. -/
theorem Counted.perm {others : List Node} (counted : Counted cells held) (perm : held.Perm others) :
    Counted cells others where
  ref node cell found := by
    rw [← perm.count_eq]
    exact counted.ref node cell found
  held node inside := counted.held node (perm.mem_iff.mpr inside)
  next := counted.next
  acyclic := counted.acyclic

theorem counted_empty : Counted (fun _ => none : Cells Node) [] where
  ref _ _ found := nomatch found
  held _ inside := nomatch inside
  next _ _ points := nomatch points
  acyclic := ⟨fun _ => 0, fun _ _ points => nomatch points⟩

omit [Fintype Node] in
/-- A change of a count leaves the pointers as they are. -/
theorem points_count (found : cells node = some cell) (count : Nat) {other : Node} :
    Points (Function.update cells node (some { cell with ref := count })) other target ↔
      cells.Points other target := by
  rw [points_update]
  split
  · rename_i same
    rw [same, points_some found]
    rfl
  · rfl

theorem pointers_count (found : cells node = some cell) (count : Nat) :
    pointers (Function.update cells node (some { cell with ref := count })) target =
      cells.pointers target := by
  have moved := pointers_update cells node target (some { cell with ref := count })
  rw [found] at moved
  exact Nat.add_right_cancel moved

/-- One count changes together with the holders of its cell. -/
theorem Counted.count {others : List Node} {count : Nat} (counted : Counted cells held)
    (found : cells node = some cell) (positive : 0 < count)
    (changed : count + held.count node = cell.ref + others.count node)
    (same : ∀ other, other ≠ node → others.count other = held.count other)
    (alive : ∀ other ∈ others, (cells other).isSome) :
    Counted (Function.update cells node (some { cell with ref := count })) others where
  ref other after changes := by
    rw [pointers_count found]
    rcases eq_or_ne other node with rfl | different
    · rw [Function.update_self, Option.some_inj] at changes
      subst changes
      have before := (counted.ref other cell found).1
      exact ⟨by simp only; omega, positive⟩
    · rw [Function.update_of_ne different] at changes
      rw [same other different]
      exact counted.ref other after changes
  held other inside := by
    rw [Function.update_apply]
    split
    · rfl
    · exact alive other inside
  next other target points := by
    rw [Function.update_apply]
    split
    · rfl
    · exact counted.next other target ((points_count found count).mp points)
  acyclic := by
    obtain ⟨depth, deeper⟩ := counted.acyclic
    exact ⟨depth, fun other target points =>
      deeper other target ((points_count found count).mp points)⟩

/-- A holder shares its cell. -/
theorem Counted.share (counted : Counted cells held) (found : cells node = some cell) :
    Counted (Function.update cells node (some { cell with ref := cell.ref + 1 })) (node :: held) := by
  refine counted.count found (Nat.succ_pos _) ?_ (fun other different => ?_) (fun other inside => ?_)
  · rw [List.count_cons_self]
    omega
  · exact List.count_cons_of_ne different.symm
  · rcases List.mem_cons.mp inside with rfl | inside
    · rw [found]
      rfl
    · exact counted.held other inside

/-- A holder gives a shared cell back. -/
theorem Counted.drop (counted : Counted cells (node :: held)) (found : cells node = some cell)
    (shared : cell.ref ≠ 1) :
    Counted (Function.update cells node (some { cell with ref := cell.ref - 1 })) held := by
  have positive := (counted.ref node cell found).2
  refine counted.count found (by omega) ?_ (fun other different => ?_) (fun other inside => ?_)
  · rw [List.count_cons_self]
    omega
  · exact (List.count_cons_of_ne different.symm).symm
  · exact counted.held other (List.mem_cons_of_mem _ inside)

/-- The last holder frees a cell and gets its pointer. -/
theorem Counted.delete (counted : Counted cells (node :: held)) (found : cells node = some cell)
    (last : cell.ref = 1) :
    Counted (Function.update cells node none) (cell.next.toList ++ held) := by
  obtain ⟨exact, -⟩ := counted.ref node cell found
  rw [last, List.count_cons_self] at exact
  have away (other : Node) : ¬ cells.Points other node := fun points => by
    have := points.pointers_pos
    omega
  have absent : node ∉ held := List.count_eq_zero.mp (by omega)
  have points (other target : Node)
      (points : Points (Function.update cells node none) other target) :
      cells.Points other target := by
    rw [points_update] at points
    split at points
    · cases points
    · exact points
  refine ⟨fun other after changes => ?_, fun other inside => ?_, fun other target pointed => ?_, ?_⟩
  · rcases eq_or_ne other node with rfl | different
    · rw [Function.update_self] at changes
      cases changes
    · rw [Function.update_of_ne different] at changes
      obtain ⟨before, positive⟩ := counted.ref other after changes
      have moved := pointers_update cells node other none
      have next : pointer (some cell) other = cell.next.toList.count other := by
        rw [pointer, Option.bind_some]
        cases cell.next with
        | none => rfl
        | some target => simp only [Option.some_inj, Option.toList_some, List.count_singleton, beq_iff_eq]
      rw [found, next, show pointer none other = 0 from rfl] at moved
      rw [List.count_cons_of_ne different.symm] at before
      rw [List.count_append]
      exact ⟨by omega, positive⟩
  · rcases List.mem_append.mp inside with pointed | inside
    · have points : cells.Points node other := (points_some found).mpr (Option.mem_toList.mp pointed)
      have different : other ≠ node := fun same => away node (same ▸ points)
      rw [Function.update_of_ne different]
      exact counted.next node other points
    · have different : other ≠ node := fun same => absent (same ▸ inside)
      rw [Function.update_of_ne different]
      exact counted.held other (List.mem_cons_of_mem _ inside)
  · have before := points other target pointed
    have different : target ≠ node := fun same => away other (same ▸ before)
    rw [Function.update_of_ne different]
    exact counted.next other target before
  · obtain ⟨depth, deeper⟩ := counted.acyclic
    exact ⟨depth, fun other target pointed => deeper other target (points other target pointed)⟩

/-- A free node becomes a cell with one holder. -/
theorem Counted.create (counted : Counted cells held) (free : cells node = none) :
    Counted (Function.update cells node (some ⟨none, 1⟩)) (node :: held) := by
  have absent : node ∉ held := fun inside => by
    have alive := counted.held node inside
    rw [free] at alive
    cases alive
  have away (other : Node) : ¬ cells.Points other node := fun points => by
    have alive := counted.next other node points
    rw [free] at alive
    cases alive
  have points (other target : Node) :
      Points (Function.update cells node (some ⟨none, 1⟩)) other target ↔
        cells.Points other target := by
    rw [points_update]
    split
    · rename_i same
      rw [same, Points, free]
      rfl
    · rfl
  have count (target : Node) : pointers (Function.update cells node (some ⟨none, 1⟩)) target =
      cells.pointers target := by
    have moved := pointers_update cells node target (some ⟨none, 1⟩)
    rw [free] at moved
    exact Nat.add_right_cancel moved
  refine ⟨fun other after changes => ?_, fun other inside => ?_, fun other target pointed => ?_, ?_⟩
  · rw [count]
    rcases eq_or_ne other node with rfl | different
    · rw [Function.update_self, Option.some_inj] at changes
      have none : cells.pointers other = 0 := by
        by_contra some
        obtain ⟨source, points⟩ := exists_points (Nat.pos_of_ne_zero some)
        exact away source points
      rw [← changes, List.count_cons_self, List.count_eq_zero.mpr absent, none]
      exact ⟨rfl, Nat.one_pos⟩
    · rw [Function.update_of_ne different] at changes
      rw [List.count_cons_of_ne different.symm]
      exact counted.ref other after changes
  · rw [Function.update_apply]
    split
    · rfl
    · rename_i different
      exact counted.held other ((List.mem_cons.mp inside).resolve_left different)
  · rw [Function.update_apply]
    split
    · rfl
    · exact counted.next other target ((points other target).mp pointed)
  · obtain ⟨depth, deeper⟩ := counted.acyclic
    exact ⟨depth, fun other target pointed => deeper other target ((points other target).mp pointed)⟩

/-- A cell takes over the reference of a holder. The new pointer closes no cycle. -/
theorem Counted.attach (counted : Counted cells (target :: held)) (found : cells node = some cell)
    (last : cell.next = none) (away : ¬ Relation.ReflTransGen cells.Points target node) :
    Counted (Function.update cells node (some { cell with next := some target })) held := by
  have points (other source : Node)
      (pointed : Points (Function.update cells node (some { cell with next := some target }))
        source other) : source = node ∧ other = target ∨ cells.Points source other := by
    rw [points_update] at pointed
    split at pointed
    · rename_i same
      exact Or.inl ⟨same, (Option.some_inj.mp pointed).symm⟩
    · exact Or.inr pointed
  refine ⟨fun other after changes => ?_, fun other inside => ?_, fun other aim pointed => ?_, ?_⟩
  · have moved := pointers_update cells node other (some { cell with next := some target })
    rw [found, show pointer (some cell) other = 0 by rw [pointer, Option.bind_some, last]; rfl] at moved
    simp only [pointer, Option.bind_some, Option.some_inj] at moved
    have before : after.ref = (target :: held).count other + cells.pointers other ∧ 0 < after.ref := by
      rcases eq_or_ne other node with rfl | different
      · rw [Function.update_self, Option.some_inj] at changes
        rw [← changes]
        exact counted.ref other cell found
      · rw [Function.update_of_ne different] at changes
        exact counted.ref other after changes
    rw [List.count_cons] at before
    simp only [beq_iff_eq] at before
    omega
  · rw [Function.update_apply]
    split
    · rfl
    · exact counted.held other (List.mem_cons_of_mem _ inside)
  · rw [Function.update_apply]
    split
    · rfl
    · rcases points aim other pointed with ⟨-, rfl⟩ | before
      · exact counted.held aim (List.mem_cons_self ..)
      · exact counted.next other aim before
  · classical
    obtain ⟨depth, deeper⟩ := counted.acyclic
    refine ⟨fun other => if Relation.ReflTransGen cells.Points other node then
      depth other + depth target + 1 else depth other, fun other aim pointed => ?_⟩
    beta_reduce
    rcases points aim other pointed with ⟨rfl, rfl⟩ | before
    · rw [if_neg away, if_pos .refl]
      omega
    · have less := deeper other aim before
      by_cases reaches : Relation.ReflTransGen cells.Points aim node
      · rw [if_pos reaches, if_pos (reaches.head before)]
        omega
      · rw [if_neg reaches]
        split
        · omega
        · exact less

/-- A cell gives its pointer to a holder. -/
theorem Counted.detach (counted : Counted cells held) (found : cells node = some cell)
    (pointed : cell.next = some target) :
    Counted (Function.update cells node (some { cell with next := none })) (target :: held) := by
  have points (source other : Node)
      (pointed : Points (Function.update cells node (some { cell with next := none })) source other) :
      cells.Points source other := by
    rw [points_update] at pointed
    split at pointed
    · cases pointed
    · exact pointed
  refine ⟨fun other after changes => ?_, fun other inside => ?_, fun source other pointed => ?_, ?_⟩
  · have moved := pointers_update cells node other (some { cell with next := none })
    rw [found, show pointer (some { cell with next := none }) other = 0 from rfl] at moved
    simp only [pointer, Option.bind_some, pointed, Option.some_inj] at moved
    have before : after.ref = held.count other + cells.pointers other ∧ 0 < after.ref := by
      rcases eq_or_ne other node with rfl | different
      · rw [Function.update_self, Option.some_inj] at changes
        rw [← changes]
        exact counted.ref other cell found
      · rw [Function.update_of_ne different] at changes
        exact counted.ref other after changes
    rw [List.count_cons]
    simp only [beq_iff_eq]
    omega
  · rw [Function.update_apply]
    split
    · rfl
    · rcases List.mem_cons.mp inside with rfl | inside
      · exact counted.next node other ((points_some found).mpr pointed)
      · exact counted.held other inside
  · rw [Function.update_apply]
    split
    · rfl
    · exact counted.next source other (points source other pointed)
  · obtain ⟨depth, deeper⟩ := counted.acyclic
    exact ⟨depth, fun source other pointed => deeper source other (points source other pointed)⟩

/-- Without holders all cells are free. -/
theorem Counted.all_free (counted : Counted cells []) (node : Node) : cells node = none := by
  by_contra alive
  obtain ⟨depth, deeper⟩ := counted.acyclic
  -- The deepest cell has no pointer to it, and nobody holds it.
  have some : (Finset.univ.filter fun node => cells node ≠ none).Nonempty :=
    ⟨node, Finset.mem_filter.mpr ⟨Finset.mem_univ _, alive⟩⟩
  obtain ⟨top, inside, most⟩ := Finset.exists_max_image _ depth some
  obtain ⟨cell, found⟩ := Option.ne_none_iff_exists'.mp (Finset.mem_filter.mp inside).2
  obtain ⟨exact, positive⟩ := counted.ref top cell found
  rw [List.count_nil, Nat.zero_add] at exact
  obtain ⟨source, points⟩ := exists_points (exact ▸ positive)
  obtain ⟨_, present, _⟩ := points.cell
  have above := most source (Finset.mem_filter.mpr ⟨Finset.mem_univ _, by rw [present]; simp⟩)
  exact Nat.not_lt.mpr above (deeper source top points)

end Rules

/-- The nodes of a list of cells, from its first node to its end. -/
def Chain (cells : Cells Node) : Option Node → List Node → Prop
  | start, [] => start = none
  | start, node :: rest =>
      start = some node ∧ ∃ cell, cells node = some cell ∧ Chain cells cell.next rest

section Chains
variable {cells : Cells Node}

omit [DecidableEq Node] in
/-- A list reaches all its nodes. -/
theorem Chain.reaches {node other : Node} {nodes : List Node} (chain : Chain cells (some node) nodes)
    (inside : other ∈ nodes) : Relation.ReflTransGen cells.Points node other := by
  induction nodes generalizing node with
  | nil => cases inside
  | cons first rest ih =>
      obtain ⟨start, cell, found, next⟩ := chain
      cases start
      rcases List.mem_cons.mp inside with rfl | later
      · exact .refl
      · cases pointed : cell.next with
        | none =>
            rw [pointed] at next
            cases rest with
            | nil => cases later
            | cons second others => cases next.1
        | some second =>
            rw [pointed] at next
            exact (ih next later).head ((points_some found).mpr pointed)

omit [DecidableEq Node] in
/-- A list depends on its nodes only. -/
theorem Chain.congr {others : Cells Node} {start : Option Node} {nodes : List Node}
    (chain : Chain cells start nodes)
    (same : ∀ node ∈ nodes, (others node).map Cell.next = (cells node).map Cell.next) :
    Chain others start nodes := by
  induction nodes generalizing start with
  | nil => exact chain
  | cons node rest ih =>
      obtain ⟨first, cell, found, next⟩ := chain
      have equal := same node (List.mem_cons_self ..)
      rw [found, Option.map_some] at equal
      obtain ⟨after, present, kept⟩ := Option.map_eq_some_iff.mp equal
      exact ⟨first, after, present, kept ▸ ih next fun other inside =>
        same other (List.mem_cons_of_mem _ inside)⟩

omit [DecidableEq Node] in
theorem Chain.linked {start : Option Node} {nodes : List Node} (chain : Chain cells start nodes) :
    nodes.IsChain cells.Points := by
  induction nodes generalizing start with
  | nil => exact .nil
  | cons node rest ih =>
      obtain ⟨-, cell, found, next⟩ := chain
      cases rest with
      | nil => exact .singleton node
      | cons second others => exact .cons_cons ((points_some found).mpr next.1) (ih next)

omit [DecidableEq Node] in
/-- The last node of a list points nowhere, and each other node points to a node of the list. -/
theorem Chain.last {node : Node} {nodes : List Node} (chain : Chain cells (some node) nodes) :
    ∃ last cell, last ∈ nodes ∧ cells last = some cell ∧ cell.next = none ∧
      ∀ other ∈ nodes, other = last ∨ ∃ target ∈ nodes, cells.Points other target := by
  induction nodes generalizing node with
  | nil => cases chain
  | cons first rest ih =>
      obtain ⟨start, cell, found, next⟩ := chain
      cases rest with
      | nil =>
          exact ⟨first, cell, List.mem_cons_self .., found, next, fun other inside =>
            Or.inl (List.mem_singleton.mp inside)⟩
      | cons second others =>
          have points := (points_some found).mpr next.1
          rw [next.1] at next
          obtain ⟨last, ending, inside, ended, none, all⟩ := ih next
          refine ⟨last, ending, List.mem_cons_of_mem _ inside, ended, none, fun other inside => ?_⟩
          rcases List.mem_cons.mp inside with rfl | inside
          · exact Or.inr ⟨second, List.mem_cons_of_mem _ (List.mem_cons_self ..), points⟩
          · exact (all other inside).imp_right fun ⟨target, member, points⟩ =>
              ⟨target, List.mem_cons_of_mem _ member, points⟩

omit [DecidableEq Node] in
theorem Chain.unique {start : Option Node} {nodes others : List Node}
    (one : Chain cells start nodes) (two : Chain cells start others) : nodes = others := by
  induction nodes generalizing start others with
  | nil =>
      cases one
      cases others with
      | nil => rfl
      | cons node rest => cases two.1
  | cons node rest ih =>
      obtain ⟨rfl, cell, found, next⟩ := one
      cases others with
      | nil => cases two
      | cons other rest =>
          obtain ⟨start, cell, present, last⟩ := two
          cases start
          rw [found, Option.some_inj] at present
          rw [ih next (present ▸ last)]

omit [DecidableEq Node] in
/-- No pointer leaves a list. -/
theorem Chain.inside {start : Option Node} {nodes : List Node} {node target : Node}
    (chain : Chain cells start nodes) (member : node ∈ nodes) (points : cells.Points node target) :
    target ∈ nodes := by
  induction nodes generalizing start with
  | nil => cases member
  | cons first rest ih =>
      obtain ⟨-, cell, found, next⟩ := chain
      rcases List.mem_cons.mp member with rfl | later
      · rw [points_some found] at points
        rw [points] at next
        cases rest with
        | nil => cases next
        | cons second others =>
            cases next.1
            exact List.mem_cons_of_mem _ (List.mem_cons_self ..)
      · exact List.mem_cons_of_mem _ (ih next later)

omit [DecidableEq Node] in
theorem Chain.after {start : Option Node} {kept others : List Node} {node : Node} {cell : Cell Node}
    (chain : Chain cells start (kept ++ node :: others)) (found : cells node = some cell) :
    Chain cells cell.next others := by
  induction kept generalizing start with
  | nil =>
      obtain ⟨-, first, present, next⟩ := chain
      rw [found, Option.some_inj] at present
      exact present ▸ next
  | cons first rest ih =>
      obtain ⟨-, _, -, next⟩ := chain
      exact ih next

omit [DecidableEq Node] in
/-- A list goes on with the new pointer of its last node. -/
theorem Chain.extend {others : Cells Node} {start : Option Node} {front rest : List Node} {node : Node}
    {cell : Cell Node} (chain : Chain cells start (front ++ [node]))
    (same : ∀ node ∈ front, others node = cells node) (found : others node = some cell)
    (next : Chain others cell.next rest) : Chain others start (front ++ node :: rest) := by
  induction front generalizing start with
  | nil => exact ⟨chain.1, cell, found, next⟩
  | cons first more ih =>
      obtain ⟨head, old, present, following⟩ := chain
      exact ⟨head, old, by rw [same first (List.mem_cons_self ..), present],
        ih following fun other inside => same other (List.mem_cons_of_mem _ inside)⟩

/-- A list ends at a node that loses its pointer. -/
theorem Chain.cut {start : Option Node} {kept others : List Node} {node : Node}
    (chain : Chain cells start (kept ++ node :: others)) (fresh : node ∉ kept) (count : Nat) :
    Chain (Function.update cells node (some ⟨none, count⟩)) start (kept ++ [node]) := by
  induction kept generalizing start with
  | nil => exact ⟨chain.1, _, Function.update_self .., rfl⟩
  | cons first rest ih =>
      obtain ⟨head, cell, found, next⟩ := chain
      have apart : first ≠ node := fun same => fresh (same ▸ List.mem_cons_self ..)
      exact ⟨head, cell, by rw [Function.update_of_ne apart, found],
        ih next fun inside => fresh (List.mem_cons_of_mem _ inside)⟩

variable [Fintype Node] {held : List Node}

/-- A cell starts a finite list without repetition. -/
theorem Counted.chain (counted : Counted cells held) {node : Node} (alive : (cells node).isSome) :
    ∃ nodes, Chain cells (some node) nodes := by
  obtain ⟨depth, deeper⟩ := counted.acyclic
  induction bound : depth node using Nat.strong_induction_on generalizing node with
  | _ bound ih =>
      obtain ⟨cell, found⟩ := Option.isSome_iff_exists.mp alive
      cases pointed : cell.next with
      | none => exact ⟨[node], rfl, cell, found, pointed⟩
      | some target =>
          have points := (points_some found).mpr pointed
          obtain ⟨rest, chain⟩ := ih (depth target) (by have := deeper node target points; omega)
            (counted.next node target points) rfl
          exact ⟨node :: rest, rfl, cell, found, pointed ▸ chain⟩

theorem Counted.chain_nodup (counted : Counted cells held) {start : Option Node} {nodes : List Node}
    (chain : Chain cells start nodes) : nodes.Nodup := by
  obtain ⟨depth, deeper⟩ := counted.acyclic
  have less {node other : Node} (reaches : Relation.ReflTransGen cells.Points node other) :
      depth other ≤ depth node := by
    induction reaches with
    | refl => exact Nat.le_refl _
    | tail _ points ih => exact Nat.le_trans (Nat.le_of_lt (deeper _ _ points)) ih
  induction nodes generalizing start with
  | nil => exact .nil
  | cons node rest ih =>
      obtain ⟨-, cell, found, next⟩ := chain
      refine List.nodup_cons.mpr ⟨fun again => ?_, ih next⟩
      cases pointed : cell.next with
      | none =>
          rw [pointed] at next
          cases rest with
          | nil => cases again
          | cons second others => cases next.1
      | some target =>
          rw [pointed] at next
          have below := less (next.reaches again)
          have step := deeper node target ((points_some found).mpr pointed)
          omega

/-- A path belongs to one holder when its cells have one reference each. -/
structure Owned (cells : Cells Node) (path : List Node) : Prop where
  linked : path.IsChain cells.Points
  single : ∀ node ∈ path, (cells node).map Cell.ref = some 1

/-- Nobody else holds a node of the path or points to it. -/
theorem Owned.alone {node : Node} {path : List Node} (owned : Owned cells (node :: path))
    (counted : Counted cells (node :: held)) {inner : Node} (inside : inner ∈ node :: path) :
    inner ∉ held ∧ ∀ source, cells.Points source inner → source ∈ node :: path := by
  obtain ⟨cell, found, one⟩ := Option.map_eq_some_iff.mp (owned.single inner inside)
  obtain ⟨exact, -⟩ := counted.ref inner cell found
  rw [one] at exact
  rcases List.mem_cons.mp inside with rfl | later
  · rw [List.count_cons_self] at exact
    refine ⟨List.count_eq_zero.mp (by omega), fun source points => ?_⟩
    have := points.pointers_pos
    omega
  · have before (first : Node) (rest : List Node) (linked : (first :: rest).IsChain cells.Points)
        (among : inner ∈ rest) : ∃ source ∈ first :: rest, cells.Points source inner := by
      induction rest generalizing first with
      | nil => cases among
      | cons second rest ih =>
          obtain ⟨points, linked⟩ := List.isChain_cons_cons.mp linked
          rcases List.mem_cons.mp among with rfl | among
          · exact ⟨first, List.mem_cons_self .., points⟩
          · obtain ⟨source, member, points⟩ := ih second linked among
            exact ⟨source, List.mem_cons_of_mem _ member, points⟩
    obtain ⟨source, member, points⟩ := before node path owned.linked later
    have positive := points.pointers_pos
    rw [List.count_cons] at exact
    refine ⟨List.count_eq_zero.mp (by omega), fun other too => ?_⟩
    by_contra outside
    have two := points.pointers_two too fun same => outside (same ▸ member)
    omega

/-- From outside no pointer leads into an owned path. -/
theorem Owned.unreached {node : Node} {path : List Node} (owned : Owned cells (node :: path))
    (counted : Counted cells (node :: held)) {start target : Node} (outside : start ∈ held)
    (reaches : Relation.ReflTransGen cells.Points start target) : target ∉ node :: path := by
  induction reaches with
  | refl => exact fun inside => (owned.alone counted inside).1 outside
  | tail _ points ih => exact fun inside => ih ((owned.alone counted inside).2 _ points)

end Chains

end Cells

end NnpCamera.Library
