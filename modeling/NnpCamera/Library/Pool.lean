/-
This file relates a pool of reused blocks to the handles that its users keep.
-/

import Mathlib.Data.List.Nodup
import Mathlib.Logic.Function.Basic
import Mathlib.Tactic.Common

namespace NnpCamera.Library

/-- Each block of a pool is unused or has a content. The free list is a stack. -/
structure Pool (Content : Type) where
  contents : Nat → Option Content
  free : List Nat

/-- A handle keeps the number of its block for ever. The value is history: it belongs to the user
of the handle and ends with the release. -/
structure Handle (Content : Type) where
  block : Nat
  value : Option Content

namespace Pool
variable {Content : Type}

/-- A pool in which the first blocks are free in their order. -/
def initial (blocks : Nat) : Pool Content where
  contents := fun _ => none
  free := List.range blocks

/-- An allocation takes the block that was returned last. -/
def allocate (pool : Pool Content) (content : Content) : Option (Nat × Pool Content) :=
  match pool.free with
  | [] => none
  | block :: rest =>
      some (block, { contents := Function.update pool.contents block (some content), free := rest })

/-- A store replaces the content of a block. -/
def store (pool : Pool Content) (block : Nat) (content : Content) : Pool Content :=
  { pool with contents := Function.update pool.contents block (some content) }

/-- A release returns a block to the free list. -/
def release (pool : Pool Content) (block : Nat) : Pool Content where
  contents := Function.update pool.contents block none
  free := block :: pool.free

/-- The user of a handle has not released it. -/
def LiveAt (handles : List (Handle Content)) (index block : Nat) (value : Content) : Prop :=
  handles[index]? = some { block := block, value := some value }

section Handles
variable {handles : List (Handle Content)} {index other block new : Nat} {old value : Content}

theorem LiveAt.lt_length (live : LiveAt handles index block value) : index < handles.length :=
  (List.getElem?_eq_some_iff.mp live).1

theorem LiveAt.block_eq (first : LiveAt handles index block value)
    (second : LiveAt handles index new old) : block = new :=
  congrArg Handle.block (Option.some.inj (first.symm.trans second))

theorem liveAt_append (content : Content) :
    LiveAt (handles ++ [{ block := new, value := some content }]) other block value ↔
      if other = handles.length then block = new ∧ some content = some value
      else LiveAt handles other block value := by
  unfold LiveAt
  split
  next same =>
    subst same
    simp [eq_comm]
  next different =>
    obtain shorter | longer := Nat.lt_or_gt_of_ne different
    · rw [List.getElem?_append_left shorter]
    · rw [List.getElem?_eq_none (by simp; omega), List.getElem?_eq_none (Nat.le_of_lt longer)]

theorem liveAt_set (live : LiveAt handles index new old) (content : Option Content) :
    LiveAt (handles.set index { block := new, value := content }) other block value ↔
      if other = index then block = new ∧ content = some value
      else LiveAt handles other block value := by
  unfold LiveAt
  split
  next same =>
    subst same
    simp [live.lt_length, eq_comm]
  next different => rw [List.getElem?_set_ne (Ne.symm different)]

end Handles

/-- The handles account for the blocks: free blocks are unused, each live handle has its value in
its block, two live handles have different blocks, and each content belongs to a live handle. -/
structure Tracks (pool : Pool Content) (handles : List (Handle Content)) : Prop where
  nodup : pool.free.Nodup
  unused : ∀ block ∈ pool.free, pool.contents block = none
  holds : ∀ index block value, LiveAt handles index block value →
    pool.contents block = some value
  apart : ∀ first second block one two, LiveAt handles first block one →
    LiveAt handles second block two → first = second
  held : ∀ block value, pool.contents block = some value →
    ∃ index, LiveAt handles index block value

namespace Tracks
variable {pool after : Pool Content} {handles changed : List (Handle Content)} {index new : Nat}

theorem initial (blocks : Nat) : Tracks (Pool.initial blocks) ([] : List (Handle Content)) where
  nodup := List.nodup_range
  unused := fun _ _ => rfl
  holds := by simp [LiveAt]
  apart := by simp [LiveAt]
  held := by simp [Pool.initial]

/-- A block has a content exactly when a live handle has it as its value. -/
theorem contents_iff (tracks : pool.Tracks handles) (block : Nat) (value : Content) :
    pool.contents block = some value ↔ ∃ index, LiveAt handles index block value :=
  ⟨tracks.held block value, fun ⟨index, live⟩ => tracks.holds index block value live⟩

/-- A block with a live handle is not free. -/
theorem not_free (tracks : pool.Tracks handles) {block : Nat} {value : Content}
    (live : LiveAt handles index block value) : block ∉ pool.free := by
  intro free
  have unused := tracks.unused block free
  rw [tracks.holds index block value live] at unused
  contradiction

/-- A change of one block and of its handle keeps the account, when no other live handle has the
block. -/
theorem change (tracks : pool.Tracks handles) {content : Option Content}
    (alone : ∀ other value, LiveAt handles other new value → other = index)
    (own : ∀ block value, LiveAt handles index block value → block = new)
    (contents : after.contents = Function.update pool.contents new content)
    (live : ∀ other block value, LiveAt changed other block value ↔
      if other = index then block = new ∧ content = some value
      else LiveAt handles other block value)
    (nodup : after.free.Nodup) (unused : ∀ block ∈ after.free, after.contents block = none) :
    after.Tracks changed where
  nodup := nodup
  unused := unused
  holds := by
    intro other block value found
    rw [live] at found
    rw [contents]
    split at found
    next =>
      obtain ⟨rfl, rfl⟩ := found
      exact Function.update_self ..
    next different =>
      have blocks : block ≠ new := fun same => different (alone other value (same ▸ found))
      rw [Function.update_of_ne blocks]
      exact tracks.holds other block value found
  apart := by
    intro one two block oneValue twoValue oneFound twoFound
    rw [live] at oneFound twoFound
    split at oneFound
    next oneSame =>
      split at twoFound
      next twoSame => exact oneSame.trans twoSame.symm
      next twoDifferent => exact absurd (alone two twoValue (oneFound.1 ▸ twoFound)) twoDifferent
    next oneDifferent =>
      split at twoFound
      next twoSame => exact absurd (alone one oneValue (twoFound.1 ▸ oneFound)) oneDifferent
      next => exact tracks.apart one two block oneValue twoValue oneFound twoFound
  held := by
    intro block value found
    rw [contents] at found
    by_cases same : block = new
    · rw [same, Function.update_self] at found
      exact ⟨index, (live index block value).mpr (by simp [same, found])⟩
    · rw [Function.update_of_ne same] at found
      obtain ⟨other, kept⟩ := tracks.held block value found
      have different : other ≠ index := by
        rintro rfl
        exact same (own block value kept)
      exact ⟨other, (live other block value).mpr (by simpa [different] using kept)⟩

/-- An allocation adds a live handle. -/
theorem allocate (tracks : pool.Tracks handles) {content : Content}
    (allocated : pool.allocate content = some (new, after)) :
    after.Tracks (handles ++ [{ block := new, value := some content }]) := by
  unfold Pool.allocate at allocated
  split at allocated
  next => simp at allocated
  next first rest free =>
    obtain ⟨rfl, rfl⟩ := Prod.mk.inj (Option.some.inj allocated)
    have nodup := tracks.nodup
    rw [free] at nodup
    obtain ⟨fresh, rest_nodup⟩ := List.nodup_cons.mp nodup
    have alone (other : Nat) (value : Content) (live : LiveAt handles other first value) :
        other = handles.length :=
      absurd (free ▸ List.mem_cons_self) (tracks.not_free live)
    have own (block : Nat) (value : Content) (live : LiveAt handles handles.length block value) :
        block = first :=
      absurd live.lt_length (Nat.lt_irrefl _)
    apply tracks.change alone own rfl fun _ _ _ => liveAt_append content
    · exact rest_nodup
    · intro block member
      have different : block ≠ first := fun same => fresh (same ▸ member)
      have before : pool.contents block = none := tracks.unused block (by simp [free, member])
      exact (Function.update_of_ne different ..).trans before

/-- A store through a live handle changes its value. -/
theorem store (tracks : pool.Tracks handles) {old : Content} (live : LiveAt handles index new old)
    (content : Content) :
    (pool.store new content).Tracks
      (handles.set index { block := new, value := some content }) := by
  apply tracks.change (fun _ _ found => tracks.apart _ _ _ _ _ found live)
    (fun _ _ found => found.block_eq live) rfl fun _ _ _ => liveAt_set live (some content)
  · exact tracks.nodup
  · intro block free
    have different : block ≠ new := fun same => tracks.not_free live (same ▸ free)
    exact (Function.update_of_ne different ..).trans (tracks.unused block free)

/-- A release ends a live handle. -/
theorem release (tracks : pool.Tracks handles) {old : Content}
    (live : LiveAt handles index new old) :
    (pool.release new).Tracks (handles.set index { block := new, value := none }) := by
  apply tracks.change (fun _ _ found => tracks.apart _ _ _ _ _ found live)
    (fun _ _ found => found.block_eq live) rfl fun _ _ _ => liveAt_set live none
  · exact List.nodup_cons.mpr ⟨tracks.not_free live, tracks.nodup⟩
  · intro block free
    by_cases same : block = new
    · subst same
      exact Function.update_self ..
    · have old := (List.mem_cons.mp free).resolve_left same
      exact (Function.update_of_ne same ..).trans (tracks.unused block old)

end Tracks
end Pool

end NnpCamera.Library
