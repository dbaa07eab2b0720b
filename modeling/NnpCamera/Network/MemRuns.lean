/-
This file shows that the heap of the network stack keeps its blocks apart and intact in each run, and
that nothing is lost when all blocks are released.
-/

import NnpCamera.Library.History
import NnpCamera.Network.MemCalls

namespace NnpCamera.Network
open Library
open Chunk (width held Shaped firstFree grant release shrink)

/-- The heap, and the blocks that callers hold with the sizes that they may use. -/
structure MemState where
  heap : MemHeap
  live : Nat → Option Nat

/-- A caller calls the heap, or stores a byte in its block. -/
inductive MemAction where
  | malloc (size : UInt16)
  | free (rmem : Option Nat)
  | trim (rmem : Nat) (newsize : UInt16)
  | write (rmem index : Nat) (value : UInt8)

namespace MemState
variable (state : MemState)

/-- Callers release and trim their own blocks or nothing, and store inside their blocks. -/
def Permits : MemAction → Prop
  | .malloc _ => True
  | .free none => True
  | .free (some rmem) => state.live rmem ≠ none ∨ memSizeAligned ≤ rmem
  | .trim rmem _ => state.live rmem ≠ none
  | .write rmem index _ => ∃ size ∈ state.live rmem, index < size

instance (action : MemAction) : Decidable (state.Permits action) := by
  cases action with
  | malloc => exact instDecidableTrue
  | free rmem =>
      cases rmem with
      | none => exact instDecidableTrue
      | some rmem => exact inferInstanceAs (Decidable (_ ∨ _))
  | trim => exact inferInstanceAs (Decidable (_ ≠ _))
  | write => exact inferInstanceAs (Decidable (∃ size ∈ _, _))

/-- The state after a call. A granted block has the size that the code rounds the request to. A caller
may use no more of a trimmed block than before. -/
def act : MemAction → Option MemState
  | .malloc size =>
      (state.heap.memMalloc size).map fun (found, heap) =>
        { heap := heap
          live := match found with
            | none => state.live
            | some rmem => Function.update state.live rmem (some (MemHeap.blockSize size)) }
  | .free rmem =>
      some { heap := state.heap.memFree rmem
             live := match rmem with
              | none => state.live
              | some rmem => Function.update state.live rmem none }
  | .trim rmem newsize =>
      let (found, heap) := state.heap.memTrim rmem newsize
      some { heap := heap
             live := match found with
              | none => state.live
              | some rmem => Function.update state.live rmem
                  ((state.live rmem).map fun size => min size (MemHeap.blockSize newsize)) }
  | .write rmem index value =>
      some { state with
        heap := { state.heap with ram := Function.update state.heap.ram (rmem + index) value } }

/-- The callers use the heap in any order. -/
def system : System MemState MemAction where
  step state action := if state.Permits action then state.act action else none

/-- The heap after `mem_init`, with any bytes before it. -/
def start (heap : MemHeap) : MemState where
  heap := heap.memInit
  live := fun _ => none

/-- The bytes that callers have stored. A granted block begins with the bytes that are there. -/
def remember (state : MemState) (action : MemAction) (bytes : Memory UInt8) : Memory UInt8 :=
  match action with
  | .malloc size =>
      match state.heap.memMalloc size with
      | some (some rmem, heap) => fun address =>
          if rmem ≤ address ∧ address < rmem + MemHeap.blockSize size then heap.ram address
          else bytes address
      | _ => bytes
  | .write rmem index value => Function.update bytes (rmem + index) value
  | _ => bytes

/-- Each held block is a used chunk behind its header, and each used chunk is a held block. The held
blocks have the bytes that their holders know. -/
structure Owns (state : MemState) (bytes : Memory UInt8) (chunks : List Chunk) : Prop where
  models : state.heap.Models chunks
  live : ∀ rmem size, state.live rmem = some size → ∃ start length, rmem = start + sizeofStructMem ∧
    held chunks start = some length ∧ size + sizeofStructMem ≤ length
  used : ∀ start length, held chunks start = some length →
    state.live (start + sizeofStructMem) ≠ none
  kept : ∀ rmem size, state.live rmem = some size → ∀ address, rmem ≤ address →
    address < rmem + size → state.heap.ram address = bytes address

variable {state : MemState} {bytes : Memory UInt8} {chunks after : List Chunk} {next : MemHeap}

/-- A call that leaves the used chunks keeps the bytes of the blocks in them. -/
theorem Owns.untouched (owns : state.Owns bytes chunks)
    (untouched : Ram.Untouched after state.heap.ram next.ram) {start length size : Nat}
    (before : state.live (start + sizeofStructMem) = some size) (found : held after start = some length)
    {most : Nat} (fits : most + sizeofStructMem ≤ length) (less : most ≤ size) (address : Nat)
    (low : start + sizeofStructMem ≤ address) (high : address < start + sizeofStructMem + most) :
    next.ram address = bytes address := by
  rw [untouched start length found address low (by omega)]
  exact owns.kept _ size before address low (by omega)

/-- A request is granted with a chunk of its own, or refused. -/
theorem Owns.malloc (owns : state.Owns bytes chunks) (size : UInt16) :
    ∃ (found : Option Nat) (heap : MemHeap), state.heap.memMalloc size = some (found, heap) ∧
      ∀ last, state.act (.malloc size) = some last →
        ∃ after, last.Owns (state.remember (.malloc size) bytes) after := by
  cases granted : grant MemHeap.leastChunk (MemHeap.blockSize size + sizeofStructMem) chunks with
  | none =>
      have refused := owns.models.memMalloc_none size granted
      refine ⟨none, state.heap, refused, fun last acted => ⟨chunks, ?_⟩⟩
      simp only [act, refused, Option.map_some, Option.some.injEq] at acted
      subst acted
      rw [remember, refused]
      exact owns
  | some result =>
      obtain ⟨start, after⟩ := result
      by_cases zero : size = 0
      · have refused : state.heap.memMalloc size = some (none, state.heap) := by
          rw [MemHeap.memMalloc, if_pos zero]
        refine ⟨none, state.heap, refused, fun last acted => ⟨chunks, ?_⟩⟩
        simp only [act, refused, Option.map_some, Option.some.injEq] at acted
        subst acted
        rw [remember, refused]
        exact owns
      · obtain ⟨next, called, models, untouched⟩ := owns.models.memMalloc_some zero granted
        refine ⟨_, next, called, fun last acted => ⟨after, ?_⟩⟩
        simp only [act, called, Option.map_some, Option.some.injEq] at acted
        subst acted
        rw [remember, called]
        have bounds := MemHeap.blockSize_bounds size
        have header : sizeofStructMem = 8 := rfl
        have least : minSizeAligned = 12 := rfl
        have both : MemHeap.leastChunk = 20 := rfl
        obtain ⟨unused, length, enough, changed⟩ :=
          Chunk.held_grant (by decide) (by omega) owns.models.shaped granted
        refine ⟨models, ?_, ?_, ?_⟩
        · intro rmem size live
          by_cases here : rmem = start + sizeofStructMem
          · subst here
            simp only [Function.update_self, Option.some.injEq] at live
            exact ⟨start, length, rfl, by rw [changed, Function.update_self], live ▸ enough⟩
          · dsimp only at live
            rw [Function.update_of_ne here] at live
            obtain ⟨other, whole, rfl, found, fits⟩ := owns.live rmem size live
            refine ⟨other, whole, rfl, ?_, fits⟩
            rw [changed, Function.update_of_ne fun same => here (by rw [same]), found]
        · intro other whole found
          by_cases here : other = start
          · simp [here]
          · rw [changed, Function.update_of_ne here] at found
            simpa [here] using owns.used other whole found
        · intro rmem size live address low high
          dsimp only at live ⊢
          by_cases here : rmem = start + sizeofStructMem
          · subst here
            simp only [Function.update_self, Option.some.injEq] at live
            rw [if_pos ⟨low, live ▸ high⟩]
          · rw [Function.update_of_ne here] at live
            obtain ⟨other, whole, rfl, found, fits⟩ := owns.live rmem size live
            split
            next => rfl
            next => exact owns.untouched untouched live found fits le_rfl address low high

/-- A release ends a block, and does nothing outside the heap. -/
theorem Owns.free (owns : state.Owns bytes chunks) {rmem : Option Nat}
    (permitted : state.Permits (.free rmem)) {last : MemState}
    (acted : state.act (.free rmem) = some last) : ∃ after, last.Owns bytes after := by
  cases rmem with
  | none =>
      obtain rfl := Option.some.inj acted
      exact ⟨chunks, owns⟩
  | some rmem =>
      obtain rfl := Option.some.inj acted
      dsimp only
      cases held_block : state.live rmem with
      | none =>
          have outside := permitted.resolve_left (not_not.mpr held_block)
          rw [MemHeap.memFree_outside _ outside, Function.update_eq_self_iff.mpr held_block.symm]
          exact ⟨chunks, owns⟩
      | some size =>
          obtain ⟨start, length, rfl, found, _⟩ := owns.live rmem size held_block
          obtain ⟨models, untouched⟩ := owns.models.memFree found
          have changed := Chunk.held_release owns.models.shaped (by decide) found
          refine ⟨release start chunks, models, ?_, ?_, ?_⟩
          · intro other size live
            have here : other ≠ start + sizeofStructMem := by
              rintro rfl
              simp at live
            dsimp only at live
            rw [Function.update_of_ne here] at live
            obtain ⟨place, whole, rfl, found, fits⟩ := owns.live other size live
            refine ⟨place, whole, rfl, ?_, fits⟩
            rw [changed, Function.update_of_ne fun same => here (by rw [same]), found]
          · intro other whole found
            have here : other ≠ start := by
              rintro rfl
              simp [changed] at found
            rw [changed, Function.update_of_ne here] at found
            simpa [here] using owns.used other whole found
          · intro other size live
            have here : other ≠ start + sizeofStructMem := by
              rintro rfl
              simp at live
            dsimp only at live
            rw [Function.update_of_ne here] at live
            obtain ⟨place, whole, rfl, found, fits⟩ := owns.live other size live
            apply owns.untouched untouched live _ fits le_rfl
            rw [changed, Function.update_of_ne fun same => here (by rw [same]), found]

/-- A trim keeps the first bytes of a block, or does nothing. -/
theorem Owns.trim (owns : state.Owns bytes chunks) {rmem : Nat} {newsize : UInt16}
    (permitted : state.Permits (.trim rmem newsize)) {last : MemState}
    (acted : state.act (.trim rmem newsize) = some last) : ∃ after, last.Owns bytes after := by
  obtain ⟨size, live⟩ := Option.ne_none_iff_exists'.mp permitted
  obtain ⟨start, length, rfl, found, fits⟩ := owns.live rmem size live
  by_cases less : MemHeap.blockSize newsize + sizeofStructMem ≤ length
  · obtain ⟨next, called, models, untouched⟩ := owns.models.memTrim found newsize less
    have bounds := MemHeap.blockSize_bounds newsize
    have header : sizeofStructMem = 8 := rfl
    have least : minSizeAligned = 12 := rfl
    have both : MemHeap.leastChunk = 20 := rfl
    obtain ⟨left, enough, _, changed⟩ :=
      Chunk.held_shrink (by decide) (by omega) owns.models.shaped less found
    simp only [act, called, live, Option.map_some, Option.some.injEq] at acted
    subst acted
    refine ⟨_, models, ?_, ?_, ?_⟩
    · intro other most held_block
      by_cases here : other = start + sizeofStructMem
      · subst here
        simp only [Function.update_self, Option.some.injEq] at held_block
        exact ⟨start, left, rfl, by rw [changed, Function.update_self], by omega⟩
      · dsimp only at held_block
        rw [Function.update_of_ne here] at held_block
        obtain ⟨place, whole, rfl, there, room⟩ := owns.live other most held_block
        refine ⟨place, whole, rfl, ?_, room⟩
        rw [changed, Function.update_of_ne fun same => here (by rw [same]), there]
    · intro other whole there
      by_cases here : other = start
      · simp [here]
      · rw [changed, Function.update_of_ne here] at there
        simpa [here] using owns.used other whole there
    · intro other most held_block address low high
      by_cases here : other = start + sizeofStructMem
      · subst here
        simp only [Function.update_self, Option.some.injEq] at held_block
        have there : held (shrink MemHeap.leastChunk (MemHeap.blockSize newsize + sizeofStructMem)
            start chunks) start = some left := by rw [changed, Function.update_self]
        exact owns.untouched untouched live there (by omega) (by omega) address low high
      · dsimp only at held_block
        rw [Function.update_of_ne here] at held_block
        obtain ⟨place, whole, rfl, there, room⟩ := owns.live other most held_block
        refine owns.untouched untouched held_block ?_ room le_rfl address low high
        rw [changed, Function.update_of_ne fun same => here (by rw [same]), there]
  · have refused := owns.models.memTrim_none found newsize (by omega)
    simp only [act, refused, Option.some.injEq] at acted
    exact ⟨chunks, acted ▸ owns⟩

/-- A holder stores a byte in its own block. -/
theorem Owns.write (owns : state.Owns bytes chunks) {rmem index : Nat} {value : UInt8}
    (permitted : state.Permits (.write rmem index value)) {last : MemState}
    (acted : state.act (.write rmem index value) = some last) :
    last.Owns (Function.update bytes (rmem + index) value) chunks := by
  obtain ⟨size, live, inside⟩ := permitted
  obtain ⟨start, length, rfl, found, fits⟩ := owns.live rmem size live
  obtain rfl := Option.some.inj acted
  refine ⟨owns.models.write found (Nat.le_add_right ..) (by omega) value, owns.live, owns.used, ?_⟩
  intro other most held_block address low high
  by_cases here : address = start + sizeofStructMem + index
  · simp [here]
  · simpa [here] using owns.kept other most held_block address low high

/-- Each step keeps the blocks. -/
theorem Owns.act (owns : state.Owns bytes chunks) {action : MemAction}
    (permitted : state.Permits action) {last : MemState} (acted : state.act action = some last) :
    ∃ after, last.Owns (state.remember action bytes) after := by
  cases action with
  | malloc size =>
      obtain ⟨_, _, _, step⟩ := owns.malloc size
      exact step last acted
  | free rmem => exact owns.free permitted acted
  | trim rmem newsize => exact owns.trim permitted acted
  | write rmem index value => exact ⟨chunks, owns.write permitted acted⟩

theorem start_owns (heap : MemHeap) (bytes : Memory UInt8) :
    (start heap).Owns bytes [⟨memSizeAligned, false⟩] := by
  refine ⟨heap.memInit_models, by simp [start], ?_, by simp [start]⟩
  intro place length found
  simp only [held, Bool.false_eq_true, if_false] at found
  split at found <;> simp at found

/-- The blocks are those of one row of chunks. -/
def Owned (state : MemState) (bytes : Memory UInt8) : Prop := ∃ chunks, state.Owns bytes chunks

theorem owned_of_reachable {heap : MemHeap} {bytes : Memory UInt8} {state : MemState × Memory UInt8}
    (reached : (system.traced remember).Reachable (start heap, bytes) state) :
    state.1.Owned state.2 := by
  refine reached.traced_invariant (fun _ _ => trivial) ⟨_, start_owns heap bytes⟩ ?_
  intro before action after bytes _ ⟨chunks, owns⟩ stepped
  simp only [system] at stepped
  split at stepped
  next permitted => exact owns.act permitted stepped
  next => contradiction

/-- In each run a request is answered. The blocks that callers hold are aligned, lie inside the heap,
have room for a header between them, and have the bytes that their holders stored. -/
theorem blocks_kept {heap : MemHeap} {bytes : Memory UInt8} {state : MemState × Memory UInt8}
    (reached : (system.traced remember).Reachable (start heap, bytes) state) :
    (∀ size, state.1.heap.memMalloc size ≠ none) ∧
      (∀ rmem size, state.1.live rmem = some size →
        sizeofStructMem ≤ rmem ∧ 4 ∣ rmem ∧ rmem + size ≤ memSizeAligned ∧
          state.1.heap.ram.read rmem size = state.2.read rmem size) ∧
      ∀ rmem size other length, state.1.live rmem = some size → state.1.live other = some length →
        rmem < other → rmem + size + sizeofStructMem ≤ other := by
  obtain ⟨chunks, owns⟩ := owned_of_reachable reached
  refine ⟨fun size => ?_, fun rmem size live => ?_, ?_⟩
  · obtain ⟨_, _, answered, _⟩ := owns.malloc size
    simp [answered]
  · obtain ⟨start, length, rfl, found, fits⟩ := owns.live rmem size live
    have inside := Chunk.held_inside found
    have total := owns.models.represents.total
    have aligned := (owns.models.shaped.held found).2.2
    refine ⟨Nat.le_add_left .., Nat.dvd_add aligned (by decide), by omega, ?_⟩
    apply Memory.read_congr
    exact fun index less => owns.kept _ size live _ (Nat.le_add_right ..) (Nat.add_lt_add_left less _)
  · intro rmem size other length live later before
    obtain ⟨start, whole, rfl, found, fits⟩ := owns.live rmem size live
    obtain ⟨place, more, rfl, there, _⟩ := owns.live other length later
    have apart := Chunk.held_apart found there (by omega)
    omega

/-- Two blocks are granted, one byte is stored, and one block is released. -/
theorem blocks_kept_store : ∃ state : MemState × Memory UInt8,
    state.1.live 8 = some 100 ∧ state.2 11 = 90 ∧
      state.1.heap.ram.read 8 100 = state.2.read 8 100 := by
  obtain ⟨state, reached, checked⟩ := (system.traced remember).run_check
    (start ⟨fun _ => 7, 0⟩, fun _ => 0)
    [.malloc 100, .malloc 40, .write 8 3 90, .free (some 116)]
    (fun state => state.1.live 8 = some 100 ∧ state.2 11 = 90) (by decide +kernel)
  obtain ⟨live, stored⟩ := of_decide_eq_true checked
  exact ⟨state, live, stored, ((blocks_kept reached).2.1 8 100 live).2.2.2⟩

/-- In each run, when all blocks are released, the heap is one free chunk again and each request that
fits in it is granted. -/
theorem released_all {heap : MemHeap} {bytes : Memory UInt8} {state : MemState × Memory UInt8}
    (reached : (system.traced remember).Reachable (start heap, bytes) state)
    (released : ∀ rmem, state.1.live rmem = none) {size : UInt16} (asked : size ≠ 0)
    (fits : MemHeap.blockSize size + sizeofStructMem ≤ memSizeAligned) :
    ∃ next, state.1.heap.memMalloc size = some (some sizeofStructMem, next) := by
  obtain ⟨chunks, owns⟩ := owned_of_reachable reached
  have unused (start : Nat) : held chunks start = none := by
    by_contra used
    obtain ⟨length, found⟩ := Option.ne_none_iff_exists'.mp used
    exact owns.used start length found (released _)
  have total := owns.models.represents.total
  have whole := owns.models.shaped.unused (by decide) (total ▸ by decide) unused
  rw [total] at whole
  subst whole
  cases granted : grant MemHeap.leastChunk (MemHeap.blockSize size + sizeofStructMem)
      [⟨memSizeAligned, false⟩] with
  | none =>
      have less := Chunk.grant_eq_none.mp granted _ (List.mem_singleton_self _) rfl
      exact absurd fits (Nat.not_le_of_lt less)
  | some result =>
      obtain ⟨start, after⟩ := result
      obtain ⟨next, called, _⟩ := owns.models.memMalloc_some asked granted
      have place : start = 0 := by
        rw [grant, if_pos ⟨rfl, fits⟩] at granted
        split at granted <;> exact (Prod.mk.inj (Option.some.inj granted)).1.symm
      exact ⟨next, by rw [called, place, Nat.zero_add]⟩

/-- A block is granted and released, and the whole heap is granted after it. -/
theorem released_all_block : ∃ (state : MemState × Memory UInt8) (next : MemHeap),
    (system.traced remember).Reachable (start ⟨fun _ => 7, 0⟩, fun _ => 0) state ∧
      state.1.heap.memMalloc 15992 = some (some sizeofStructMem, next) := by
  have granted : ((start ⟨fun _ => 7, 0⟩).heap.memMalloc 100).map Prod.fst = some (some 8) := by
    decide +kernel
  obtain ⟨⟨_, heap⟩, called, rfl⟩ := Option.map_eq_some_iff.mp granted
  let live : Nat → Option Nat := Function.update (fun _ => none) 8 (some (MemHeap.blockSize 100))
  have first : system.step (start ⟨fun _ => 7, 0⟩) (.malloc 100) = some ⟨heap, live⟩ := by
    simp only [system, act, called, Option.map_some]
    rfl
  have second : system.step ⟨heap, live⟩ (.free (some 8)) =
      some ⟨heap.memFree (some 8), Function.update live 8 none⟩ := by
    have permitted : Permits ⟨heap, live⟩ (.free (some 8)) := .inl (by simp [live])
    simp only [system, if_pos permitted]
    rfl
  obtain ⟨bytes, reached⟩ : ∃ bytes, (system.traced remember).Reachable
      (start ⟨fun _ => 7, 0⟩, fun _ => 0)
      (⟨heap.memFree (some 8), Function.update live 8 none⟩, bytes) :=
    ⟨_, .next (.next .start trivial (Option.map_eq_some_iff.mpr ⟨_, first, rfl⟩)) trivial
      (Option.map_eq_some_iff.mpr ⟨_, second, rfl⟩)⟩
  obtain ⟨next, whole⟩ := released_all reached
    (fun rmem => by by_cases here : rmem = 8 <;> simp [live, here])
    (show (15992 : UInt16) ≠ 0 by decide) (by decide)
  exact ⟨_, next, reached, whole⟩

end MemState

end NnpCamera.Network
