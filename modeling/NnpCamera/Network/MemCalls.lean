/-
This file shows that the heap of the network stack grants, shrinks and releases chunks of one row.
-/

import NnpCamera.Network.MemChain

namespace NnpCamera.Network
open Library
open Chunk (width held Shaped firstFree grant release shrink join startsFree)

namespace Ram
variable {ram after middle : Ram} {before rest chunks : List Chunk} {chunk : Chunk}

/-- The stores leave the bytes of the used chunks. -/
def Untouched (chunks : List Chunk) (ram after : Ram) : Prop :=
  ∀ start size, held chunks start = some size → ∀ address, start + sizeofStructMem ≤ address →
    address < start + size → after address = ram address

theorem Untouched.refl (chunks : List Chunk) (ram : Ram) : Untouched chunks ram ram :=
  fun _ _ _ _ _ _ => rfl

theorem Untouched.trans (first : Untouched chunks ram middle) (second : Untouched chunks middle after) :
    Untouched chunks ram after :=
  fun start size found address low high =>
    (second start size found address low high).trans (first start size found address low high)

theorem Untouched.congr {others : List Chunk} (same : held others = held chunks)
    (untouched : Untouched chunks ram after) : Untouched others ram after := by
  rw [Untouched, same]
  exact untouched

/-- A store to the header of a chunk touches no used chunk. -/
theorem untouched_put (ram : Ram) (before rest : List Chunk) (mem : Mem) :
    Untouched (before ++ rest) ram (ram.put (width before) mem) := by
  intro start size found address low high
  have apart := Chunk.held_boundary found
  have header : sizeofStructMem = 8 := rfl
  exact put_outside ram mem (by omega)

/-- A store inside a free chunk, or to the header after it, touches no used chunk. -/
theorem untouched_free {place : Nat} (ram : Ram) (mem : Mem) (free : chunk.used = false)
    (low : width before ≤ place) (high : place ≤ width before + chunk.size) :
    Untouched (before ++ chunk :: rest) ram (ram.put place mem) := by
  intro start size found address above below
  have apart := Chunk.held_apart_free free found
  have header : sizeofStructMem = 8 := rfl
  exact put_outside ram mem (by omega)

/-- The header of a chunk in a row. -/
theorem Represents.heads (represents : ram.Represents (before ++ chunk :: rest)) :
    ram.Heads (lastStart 0 0 before) (width before) chunk := by
  have chain := represents.chain
  rw [chain_append, Nat.zero_add] at chain
  exact chain.2.1

/-- The places of a chunk and of its end. -/
theorem Represents.bounds (represents : ram.Represents (before ++ chunk :: rest)) :
    8 ≤ chunk.size ∧ width before + chunk.size + width rest = 16000 := by
  have total : width (before ++ chunk :: rest) = 16000 := represents.total
  rw [Chunk.width_append, Chunk.width_cons] at total
  exact ⟨represents.sized chunk (by simp), by omega⟩

theorem Represents.room_eq (represents : ram.Represents (before ++ chunk :: rest)) :
    ram.room (width before) = chunk.size - sizeofStructMem := by
  have next := represents.heads.next
  have bounds := represents.bounds
  have header : sizeofStructMem = 8 := rfl
  rw [room, next]
  omega

/-- The search finds the first free chunk that holds the request. -/
theorem Represents.scan_eq (represents : ram.Represents (before ++ rest)) {size passes : Nat}
    (enough : rest.length < passes) (least : Nat) :
    ram.scan size passes (width before) =
      some ((grant least (size + sizeofStructMem) rest).map fun found => width before + found.1) := by
  obtain ⟨passes, rfl⟩ := Nat.exists_eq_succ_of_ne_zero (Nat.ne_of_gt (Nat.zero_lt_of_lt enough))
  induction rest generalizing before passes with
  | nil =>
      have ended : width before = memSizeAligned := by simpa using represents.total
      rw [scan, ended, if_neg (by omega)]
      rfl
  | cons chunk rest ih =>
      have bounds := represents.bounds
      have limit : memSizeAligned = 16000 := rfl
      have header : sizeofStructMem = 8 := rfl
      rw [scan]
      by_cases inside : width before < memSizeAligned - size
      · have fits : ((ram.mem (width before)).used = 0 ∧ size ≤ ram.room (width before)) ↔
            chunk.used = false ∧ size + sizeofStructMem ≤ chunk.size := by
          have room : sizeofStructMem ≤ chunk.size := bounds.1
          rw [represents.heads.used, represents.room_eq, Nat.le_sub_iff_add_le room]
        rw [if_pos inside, grant]
        simp only [fits]
        by_cases found : chunk.used = false ∧ size + sizeofStructMem ≤ chunk.size
        · rw [if_pos found, if_pos found]
          split <;> rfl
        · rw [if_neg found, if_neg found, represents.heads.next, Option.map_map]
          have more : rest.length < passes := Nat.lt_of_succ_lt_succ enough
          obtain ⟨passes, rfl⟩ := Nat.exists_eq_succ_of_ne_zero (Nat.ne_of_gt (Nat.zero_lt_of_lt more))
          have later : ram.Represents ((before ++ [chunk]) ++ rest) := by simpa using represents
          have found := ih later passes more
          simp only [Chunk.width_append, Chunk.width_cons, Chunk.width_nil, Nat.add_zero] at found
          rw [found]
          simp [Function.comp_def, Nat.add_assoc]
      · rw [if_neg inside, Chunk.grant_eq_none.mpr]
        · rfl
        · intro next member _
          have most := Chunk.size_le_width member
          rw [Chunk.width_cons] at most
          omega

/-- The loop finds the next free chunk. -/
theorem Represents.skipUsed_eq (represents : ram.Represents (before ++ rest)) {passes : Nat}
    (enough : rest.length < passes) :
    ram.skipUsed passes (width before) = some (width before + firstFree rest) := by
  obtain ⟨passes, rfl⟩ := Nat.exists_eq_succ_of_ne_zero (Nat.ne_of_gt (Nat.zero_lt_of_lt enough))
  induction rest generalizing before passes with
  | nil =>
      have ended : width before = memSizeAligned := by simpa using represents.total
      rw [skipUsed, if_neg (by simp [ended])]
      rfl
  | cons chunk rest ih =>
      have bounds := represents.bounds
      have limit : memSizeAligned = 16000 := rfl
      have marked := represents.heads.used
      rw [skipUsed, firstFree]
      by_cases used : chunk.used = true
      · have both : (ram.mem (width before)).used ≠ 0 ∧ width before ≠ memSizeAligned :=
          ⟨fun zero => by simp [marked.mp zero] at used, by omega⟩
        rw [if_pos both, if_pos used, represents.heads.next]
        have more : rest.length < passes := Nat.lt_of_succ_lt_succ enough
        obtain ⟨passes, rfl⟩ := Nat.exists_eq_succ_of_ne_zero (Nat.ne_of_gt (Nat.zero_lt_of_lt more))
        have later : ram.Represents ((before ++ [chunk]) ++ rest) := by simpa using represents
        have found := ih later passes more
        simp only [Chunk.width_append, Chunk.width_cons, Chunk.width_nil, Nat.add_zero] at found
        rw [found, Nat.add_assoc]
      · have free := marked.mpr (by simpa using used)
        rw [if_neg (by simp [free]), if_neg used, Nat.add_zero]

/-- The loops of the heap have enough passes. -/
theorem Represents.length_lt (represents : ram.Represents (before ++ rest)) :
    rest.length < MemHeap.passes := by
  have fewer : rest.length ≤ width rest := by
    apply Chunk.length_le_width
    intro chunk member
    exact Nat.lt_of_lt_of_le (by decide) (represents.sized chunk (List.mem_append_right _ member))
  have total : width before + width rest = memSizeAligned := by simpa using represents.total
  rw [MemHeap.passes]
  omega

/-- The stores of a cut touch no used chunk. -/
theorem untouched_cut {size : Nat} (ram : Ram) (free : chunk.used = false) (less : size ≤ chunk.size) :
    Untouched (before ++ chunk :: rest) ram
      (MemHeap.cut ram (width before) (width before + size) (width before + chunk.size)) := by
  have store (ram : Ram) (place : Nat) (mem : Mem) (low : width before ≤ place)
      (high : place ≤ width before + chunk.size) :
      Untouched (before ++ chunk :: rest) ram (ram.put place mem) :=
    untouched_free ram mem free low high
  have start := Nat.le_add_right (width before) chunk.size
  have ptr2 := Nat.add_le_add_left less (width before)
  unfold MemHeap.cut
  split
  next =>
    refine Untouched.trans (Untouched.trans (store _ _ _ ?_ ptr2) (store _ _ _ le_rfl start))
      (store _ _ _ start le_rfl)
    exact Nat.le_add_right ..
  next =>
    refine Untouched.trans (store _ _ _ ?_ ptr2) (store _ _ _ le_rfl start)
    exact Nat.le_add_right ..

/-- The stores of a merge touch no used chunk. -/
theorem untouched_merge (ram : Ram) (before more rest : List Chunk) (next prev : Nat) :
    Untouched (before ++ more ++ rest) ram
      ((ram.setNext (width before) next).setPrev (width before + width more) prev) := by
  have first := untouched_put ram before (more ++ rest)
  have second (ram : Ram) := untouched_put ram (before ++ more) rest
  rw [← List.append_assoc] at first
  rw [← Chunk.width_append]
  exact (first _).trans (second _ _)

/-- The stores of a cut go to headers of the new row. -/
theorem untouched_split (ram : Ram) (before rest : List Chunk) (first second : Chunk) :
    Untouched (before ++ first :: second :: rest) ram
      (MemHeap.cut ram (width before) (width before + first.size)
        (width before + (first.size + second.size))) := by
  have start (ram : Ram) := ram.untouched_put before (first :: second :: rest)
  have middle (ram : Ram) := ram.untouched_put (before ++ [first]) (second :: rest)
  have stop (ram : Ram) := ram.untouched_put (before ++ [first, second]) rest
  simp only [List.append_assoc, List.cons_append, List.nil_append, Chunk.width_append,
    Chunk.width_cons, Chunk.width_nil, Nat.add_zero] at middle stop
  unfold MemHeap.cut
  split
  next => exact ((middle _ _).trans (start _ _)).trans (stop _ _)
  next => exact (middle _ _).trans (start _ _)

/-- A store inside a used chunk leaves the headers of the row. -/
theorem Chain.store {prev place start size address : Nat} (chain : ram.Chain prev place chunks)
    (sized : ∀ chunk ∈ chunks, sizeofStructMem ≤ chunk.size) (found : held chunks start = some size)
    (low : place + start + sizeofStructMem ≤ address) (high : address < place + start + size)
    (value : UInt8) : Ram.Chain (Function.update ram address value) prev place chunks := by
  induction chunks generalizing prev place start with
  | nil => contradiction
  | cons chunk rest ih =>
      have header : sizeofStructMem = 8 := rfl
      have others := fun next member => sized next (List.mem_cons_of_mem chunk member)
      obtain ⟨heads, tail⟩ := chain
      have same : Ram.mem (Function.update ram address value) place = ram.mem place :=
        mem_congr fun other _ _ => Function.update_of_ne (by omega) ..
      refine ⟨⟨same ▸ heads.next, same ▸ heads.prev, same ▸ heads.used⟩, ?_⟩
      by_cases first : start = 0
      · have whole : chunk.used = true ∧ chunk.size = size := by simpa [held, first] using found
        exact tail.congr others fun other _ _ => Function.update_of_ne (by omega) ..
      · obtain ⟨above, found⟩ := Chunk.held_later found first
        exact ih tail others found (by omega) (by omega)

end Ram

namespace MemHeap
variable {heap : MemHeap} {chunks before rest after : List Chunk} {chunk : Chunk} {start size : Nat}

/-- The least size of a chunk with its header. -/
def leastChunk : Nat := sizeofStructMem + minSizeAligned

/-- The headers represent a row of chunks, and `lfree` is the first free one. -/
structure Models (heap : MemHeap) (chunks : List Chunk) : Prop where
  represents : heap.ram.Represents chunks
  shaped : Shaped leastChunk 4 chunks
  lfree : heap.lfree = firstFree chunks

/-- A chunk holds at least twelve bytes. -/
theorem blockSize_bounds (size : UInt16) :
    minSizeAligned ≤ blockSize size ∧ 4 ∣ blockSize size ∧ blockSize size < 2 ^ 16 := by
  unfold blockSize lwipMemAlignSize minSizeAligned
  dsimp only
  split <;> omega

/-- A chunk covers its request unless the alignment passes the end of 16 bits. -/
theorem blockSize_covers (size : UInt16) :
    size.toNat ≤ blockSize size ↔ size.toNat < 65533 := by
  have bound := size.toNat_lt
  unfold blockSize lwipMemAlignSize minSizeAligned
  dsimp only
  split <;> omega

/-- The heap starts with one free chunk. -/
theorem memInit_models (heap : MemHeap) : heap.memInit.Models [⟨memSizeAligned, false⟩] := by
  refine ⟨⟨⟨⟨?_, ?_, ?_⟩, trivial⟩, rfl, by simp [memSizeAligned, sizeofStructMem], ?_⟩, ?_, rfl⟩
  · rw [memInit, Ram.mem_put_apart _ _ (.inr (by decide)), Ram.mem_put_self]
    rfl
  · rw [memInit, Ram.mem_put_apart _ _ (.inr (by decide)), Ram.mem_put_self]
    rfl
  · rw [memInit, Ram.mem_put_apart _ _ (.inr (by decide)), Ram.mem_put_self]
    simp
  · rw [memInit, Ram.mem_put_self]
    decide
  · exact ⟨by simp [leastChunk, sizeofStructMem, minSizeAligned, memSizeAligned],
      by simp [memSizeAligned], .singleton _⟩

/-- The chunk that `mem_malloc` takes. -/
theorem take_represents {ram : Ram} (represents : ram.Represents (before ++ [chunk] ++ rest))
    (free : chunk.used = false) (enough : size + sizeofStructMem ≤ chunk.size) :
    Ram.Represents (take ram (width before) size)
      (before ++ (if size + sizeofStructMem + leastChunk ≤ chunk.size then
        [⟨size + sizeofStructMem, true⟩, ⟨chunk.size - (size + sizeofStructMem), false⟩]
        else [⟨chunk.size, true⟩]) ++ rest) ∧
    Ram.Untouched (before ++ [chunk] ++ rest) ram (take ram (width before) size) := by
  have row : before ++ [chunk] ++ rest = before ++ chunk :: rest := by simp
  have placed : ram.Represents (before ++ chunk :: rest) := row ▸ represents
  have bounds := placed.bounds
  have header : sizeofStructMem = 8 := rfl
  have least : minSizeAligned = 12 := rfl
  have both : leastChunk = 20 := rfl
  have room : size + sizeofStructMem + minSizeAligned ≤ ram.room (width before) ↔
      size + sizeofStructMem + leastChunk ≤ chunk.size := by
    rw [placed.room_eq]
    omega
  rw [take, placed.heads.next]
  simp only [room]
  split
  next splits =>
    have fits : size + sizeofStructMem + (chunk.size - (size + sizeofStructMem)) = chunk.size :=
      Nat.add_sub_cancel' enough
    have place : (width before + sizeofStructMem + size) % 2 ^ 16 =
        width before + (size + sizeofStructMem) := by omega
    have around : ram.Around before (size + sizeofStructMem +
        (chunk.size - (size + sizeofStructMem))) false rest := by
      rw [fits, ← free]
      simpa using represents.around
    have two := around.cut (Nat.le_add_left ..) (by omega)
    rw [fits] at two
    rw [place]
    constructor
    · have marked : Ram.Represents
          (cut ram (width before) (width before + (size + sizeofStructMem)) (width before + chunk.size))
          (before ++ [⟨size + sizeofStructMem, false⟩] ++
            (⟨chunk.size - (size + sizeofStructMem), false⟩ :: rest)) := by simpa using two
      simpa using marked.setUsed 1
    · rw [row]
      exact (Ram.untouched_cut ram free enough).trans (Ram.untouched_put _ before _ _)
  next =>
    refine ⟨represents.setUsed 1, ?_⟩
    rw [row]
    exact Ram.untouched_put ram before _ _

/-- A request without a free chunk is refused. -/
theorem Models.memMalloc_none (models : heap.Models chunks) (size : UInt16)
    (refused : grant leastChunk (blockSize size + sizeofStructMem) chunks = none) :
    heap.memMalloc size = some (none, heap) := by
  unfold memMalloc
  split
  next => rfl
  next =>
    dsimp only
    split
    next => rfl
    next =>
      obtain ⟨before, rest, rfl, used, place⟩ := Chunk.firstFree_split chunks
      rw [Chunk.grant_used used, Option.map_eq_none_iff] at refused
      rw [models.lfree, ← place, models.represents.scan_eq models.represents.length_lt leastChunk,
        refused]
      rfl

/-- A request takes the first free chunk that holds it. -/
theorem Models.memMalloc_some (models : heap.Models chunks) {size : UInt16} (asked : size ≠ 0)
    (granted : grant leastChunk (blockSize size + sizeofStructMem) chunks = some (start, after)) :
    ∃ next : MemHeap, heap.memMalloc size = some (some (start + sizeofStructMem), next) ∧
      next.Models after ∧ Ram.Untouched chunks heap.ram next.ram := by
  obtain ⟨represents, shaped, lfree⟩ := models
  have bounds := blockSize_bounds size
  have header : sizeofStructMem = 8 := rfl
  have least : minSizeAligned = 12 := rfl
  have both : leastChunk = 20 := rfl
  have row := shaped.grant (by omega) (by omega) granted
  obtain ⟨front, chunk, rest, rfl, rfl, free, enough, result⟩ := Chunk.grant_split granted
  obtain ⟨taken, untouched⟩ := take_represents represents free enough
  rw [← result] at taken
  have small : ¬ memSizeAligned < blockSize size := by
    have inside := (show heap.ram.Represents (front ++ chunk :: rest) by simpa using represents).bounds
    have limit : memSizeAligned = 16000 := rfl
    omega
  -- The search begins at the first free chunk.
  obtain ⟨before, others, same, used, first⟩ :=
    Chunk.firstFree_split (front ++ [chunk] ++ rest)
  have found : heap.ram.scan (blockSize size) passes heap.lfree = some (some (width front)) := by
    rw [same] at represents granted
    rw [Chunk.grant_used used] at granted
    obtain ⟨⟨later, tail⟩, inner, pair⟩ := Option.map_eq_some_iff.mp granted
    rw [lfree, ← first, represents.scan_eq represents.length_lt leastChunk, inner, ← (Prod.mk.inj pair).1]
    rfl
  unfold memMalloc
  rw [if_neg asked, if_neg small]
  dsimp only
  rw [found, Option.bind_some]
  dsimp only
  have sized : ∀ chunk ∈ front, 0 < chunk.size := fun chunk member =>
    shaped.pos (by decide) chunk (by simp [member])
  rw [List.append_assoc] at lfree result
  split
  next lowest =>
    have all : ∀ chunk ∈ front, chunk.used = true := by
      by_contra other
      have below := Chunk.firstFree_free sized other ([chunk] ++ rest)
      omega
    have skipped := taken
    rw [result] at skipped
    rw [skipped.skipUsed_eq skipped.length_lt, Option.map_some]
    refine ⟨_, rfl, ⟨taken, row, ?_⟩, untouched⟩
    rw [result, Chunk.firstFree_used all]
  next other =>
    have some : ¬ ∀ chunk ∈ front, chunk.used = true := by
      intro all
      apply other
      rw [lfree, Chunk.firstFree_used all, List.singleton_append, firstFree, free]
      simp
    refine ⟨_, rfl, ⟨taken, row, ?_⟩, untouched⟩
    rw [lfree, result, (Chunk.firstFree_free sized some _).1, (Chunk.firstFree_free sized some _).1]

/-- A free chunk joins the chunk after it. -/
theorem plugNext_represents (represents : heap.ram.Represents (before ++ ⟨size, false⟩ :: rest)) :
    (heap.plugNext (width before)).ram.Represents (before ++ join ⟨size, false⟩ rest) ∧
      Ram.Untouched (before ++ ⟨size, false⟩ :: rest) heap.ram (heap.plugNext (width before)).ram ∧
      (heap.lfree ≤ width before → (heap.plugNext (width before)).lfree = heap.lfree) := by
  have bounds := represents.bounds
  have limit : memSizeAligned = 16000 := rfl
  rw [plugNext, represents.heads.next]
  dsimp only at bounds ⊢
  cases rest with
  | nil =>
      rw [if_neg (by rw [Chunk.width_nil] at bounds; omega)]
      exact ⟨represents, .refl _ _, fun _ => rfl⟩
  | cons next rest =>
      have after : heap.ram.Represents ((before ++ [⟨size, false⟩]) ++ next :: rest) := by
        simpa using represents
      have later := after.bounds
      have heads := after.heads
      simp only [Chunk.width_append, Chunk.width_cons, Chunk.width_nil, Nat.add_zero] at heads later
      by_cases free : next.used = false
      · rw [if_pos ⟨by omega, heads.used.mpr free, by omega⟩, heads.next]
        refine ⟨?_, ?_, fun low => if_neg (by omega)⟩
        · have around : heap.ram.Around before (size + next.size) false rest := by
            have gap : heap.ram.Represents (before ++ ⟨size, false⟩ :: [next] ++ rest) := by
              simpa using represents
            simpa using gap.around
          have merged := around.merge (by rw [sizeofStructMem]; omega)
          simpa [join, free, Nat.add_assoc] using merged
        · have untouched := heap.ram.untouched_merge before [⟨size, false⟩, next] rest
            (width before + size + next.size) (width before)
          simpa [Nat.add_assoc] using untouched
      · rw [if_neg fun both => free (heads.used.mp both.2.1)]
        rw [Chunk.join_eq_cons (.inr (by simpa [startsFree] using free))]
        exact ⟨represents, .refl _ _, fun _ => rfl⟩

/-- A free chunk joins the chunk before it. -/
theorem plugPrev_represents {last : Chunk}
    (represents : heap.ram.Represents (before ++ last :: ⟨size, false⟩ :: rest)) :
    (heap.plugPrev (width before + last.size)).ram.Represents
        (before ++ join last (⟨size, false⟩ :: rest)) ∧
      Ram.Untouched (before ++ last :: ⟨size, false⟩ :: rest) heap.ram
        (heap.plugPrev (width before + last.size)).ram ∧
      ((last.used = false → heap.lfree ≠ width before + last.size) →
        (heap.plugPrev (width before + last.size)).lfree = heap.lfree) := by
  have bounds := represents.bounds
  have marked := represents.heads.used
  have after : heap.ram.Represents ((before ++ [last]) ++ ⟨size, false⟩ :: rest) := by
    simpa using represents
  have heads := after.heads
  have back := heads.prev
  have next := heads.next
  rw [Ram.lastStart_concat, Chunk.width_append, Chunk.width_cons, Chunk.width_nil, Nat.add_zero,
    Nat.zero_add] at back
  rw [Chunk.width_append, Chunk.width_cons, Chunk.width_nil, Nat.add_zero] at next
  rw [plugPrev, back]
  dsimp only at next ⊢
  by_cases free : last.used = false
  · rw [if_pos ⟨by omega, marked.mpr free⟩, next]
    refine ⟨?_, ?_, fun other => if_neg (other free)⟩
    · have around : heap.ram.Around before (last.size + size) last.used rest := by
        have gap : heap.ram.Represents (before ++ last :: [⟨size, false⟩] ++ rest) := by
          simpa using represents
        simpa using gap.around
      have merged := around.merge (by rw [sizeofStructMem]; omega)
      simpa [join, free, Nat.add_assoc] using merged
    · have untouched := heap.ram.untouched_merge before [last, ⟨size, false⟩] rest
        (width before + last.size + size) (width before)
      simpa [Nat.add_assoc] using untouched
  · rw [if_neg fun both => free (marked.mp both.2)]
    rw [Chunk.join_eq_cons (.inl (by simpa using free))]
    exact ⟨represents, .refl _ _, fun _ => rfl⟩

/-- The first chunk of the heap has no chunk before it. -/
theorem plugPrev_first (represents : heap.ram.Represents (chunk :: rest)) :
    heap.plugPrev 0 = heap := by
  have row : heap.ram.Represents ([] ++ chunk :: rest) := represents
  have prev : (heap.ram.mem 0).prev.toNat = 0 := row.heads.prev
  rw [plugPrev, prev, if_neg]
  simp

/-- A release gives its chunk back to the row. -/
theorem Models.memFree (models : heap.Models chunks) (found : held chunks start = some size) :
    (heap.memFree (some (start + sizeofStructMem))).Models (release start chunks) ∧
      Ram.Untouched (release start chunks) heap.ram
        (heap.memFree (some (start + sizeofStructMem))).ram := by
  obtain ⟨represents, shaped, lfree⟩ := models
  have row := shaped.release start
  have lowest := Chunk.firstFree_release found
  obtain ⟨before, rest, rfl, rfl⟩ := Chunk.held_split found
  have marked := represents.setUsed 0
  have untouched := heap.ram.untouched_put before (⟨size, false⟩ :: rest)
    { heap.ram.mem (width before) with used := 0 }
  have enough : leastChunk ≤ size := shaped.least_le ⟨size, true⟩ (by simp)
  simp only [ne_eq, not_true_eq_false, decide_false, List.append_assoc, List.singleton_append] at *
  have bounds := represents.bounds
  have limit : memSizeAligned = 16000 := rfl
  have least : leastChunk = 20 := rfl
  have header : sizeofStructMem = 8 := rfl
  dsimp only at bounds
  rw [Network.MemHeap.memFree, if_neg (by omega), Nat.add_sub_cancel]
  dsimp only
  generalize freed : MemHeap.mk (heap.ram.setUsed (width before) 0)
    (if width before < heap.lfree then width before else heap.lfree) = first
  have first_lfree : first.lfree = min (width before) (firstFree (before ++ ⟨size, true⟩ :: rest)) := by
    rw [← freed, ← lfree]
    dsimp only
    split <;> omega
  have first_ram : first.ram = heap.ram.setUsed (width before) 0 := by rw [← freed]
  rw [← first_ram] at marked
  obtain ⟨plugged, kept, same⟩ := plugNext_represents marked
  rw [plugHoles]
  generalize next : first.plugNext (width before) = second at plugged kept same ⊢
  have second_lfree := (same (by omega)).trans first_lfree
  have sized : ∀ chunk ∈ rest, 0 < chunk.size := fun chunk member =>
    shaped.pos (by decide) chunk (by simp [member])
  have unjoined : held (join ⟨size, false⟩ rest) = held (⟨size, false⟩ :: rest) :=
    Chunk.held_join (by dsimp only; omega) sized
  have written : Ram.Untouched (before ++ ⟨size, false⟩ :: rest) heap.ram second.ram :=
    Ram.Untouched.trans (first_ram ▸ untouched) kept
  rcases List.eq_nil_or_concat' before with rfl | ⟨front, last, rfl⟩
  · obtain ⟨joined, others, form⟩ := Chunk.join_free size rest
    rw [Chunk.width_nil] at second_lfree
    simp only [List.nil_append, Chunk.width_nil] at *
    rw [form] at plugged
    rw [plugPrev_first plugged]
    have released : release 0 (⟨size, true⟩ :: rest) = join ⟨size, false⟩ rest := rfl
    rw [released] at row lowest ⊢
    exact ⟨⟨form ▸ plugged, row, by rw [second_lfree, lowest]⟩, written.congr unjoined⟩
  · obtain ⟨joined, others, form⟩ := Chunk.join_free size rest
    have place : width (front ++ [last]) = width front + last.size := by simp
    rw [List.append_assoc, List.singleton_append] at shaped plugged written lowest second_lfree row
    have released := Chunk.release_split (by decide) shaped
    have lower (free : last.used = false) : second.lfree ≠ width front + last.size := by
      have front_sized : ∀ chunk ∈ front ++ [last], 0 < chunk.size := by
        intro chunk member
        apply shaped.pos (by decide)
        rw [← List.singleton_append, ← List.append_assoc]
        exact List.mem_append_left _ member
      have below := Chunk.firstFree_free front_sized (by simp [free]) (⟨size, true⟩ :: rest)
      rw [List.append_assoc, List.singleton_append] at below
      omega
    rw [form] at plugged
    rw [place, List.append_assoc, List.singleton_append]
    rw [place] at second_lfree row lowest
    rw [released] at row lowest ⊢
    -- Neither of the two joins changes which chunks are used.
    have last_sized : 0 < last.size := shaped.pos (by decide) last (by simp)
    have joined_sized : ∀ chunk ∈ join ⟨size, false⟩ rest, 0 < chunk.size := by
      intro chunk member
      rw [form] at member
      exact Nat.lt_of_lt_of_le (by decide) (plugged.sized chunk (by simp [List.mem_cons.mp member]))
    have second_join := Chunk.held_append_congr front (Chunk.held_join last_sized joined_sized)
    have first_join : held (front ++ last :: join ⟨size, false⟩ rest) =
        held (front ++ last :: ⟨size, false⟩ :: rest) :=
      Chunk.held_append_congr front (Chunk.held_cons_congr unjoined)
    obtain ⟨joins, touched, same⟩ := plugPrev_represents plugged
    rw [form] at row lowest second_join first_join ⊢
    refine ⟨⟨joins, row, ?_⟩, ?_⟩
    · rw [same lower, second_lfree, lowest]
    · exact (written.congr (second_join.trans first_join)).trans (touched.congr second_join)

/-- The lowest free chunk after a cut. -/
theorem firstFree_cut (need left : Nat) (rest : List Chunk) (sized : ∀ chunk ∈ before, 0 < chunk.size) :
    firstFree (before ++ ⟨need, true⟩ :: ⟨left, false⟩ :: rest) =
      if ∀ chunk ∈ before, chunk.used = true then width before + need else firstFree before := by
  split
  next all => simp [Chunk.firstFree_used all, firstFree]
  next other => rw [(Chunk.firstFree_free sized other _).1]

/-- A cut in a used chunk, and in the free chunks after it. -/
theorem cut_represents {ram : Ram} {need left : Nat} {more : List Chunk} {used : Bool}
    (represents : ram.Represents (before ++ ⟨size, used⟩ :: more ++ rest))
    (gap : size + width more = need + left) (enough : sizeofStructMem ≤ need)
    (room : sizeofStructMem ≤ left) :
    (cut ram (width before) (width before + need) (width before + (need + left))).Represents
        (before ++ ⟨need, used⟩ :: ⟨left, false⟩ :: rest) ∧
      Ram.Untouched (before ++ ⟨need, used⟩ :: ⟨left, false⟩ :: rest) ram
        (cut ram (width before) (width before + need) (width before + (need + left))) := by
  constructor
  · have around : ram.Around before (need + left) used rest := by
      rw [← gap]
      simpa using represents.around
    simpa using around.cut enough room
  · exact ram.untouched_split before rest ⟨need, used⟩ ⟨left, false⟩

/-- The header after a chunk is free when the row goes on with a free chunk. -/
theorem next_free {ram : Ram} (represents : ram.Represents (before ++ chunk :: rest)) :
    (ram.mem (width before + chunk.size)).used = 0 ↔ startsFree rest = true := by
  cases rest with
  | nil =>
      have ended : width before + chunk.size = memSizeAligned := by simpa using represents.total
      rw [ended]
      exact iff_of_false represents.last (by simp [startsFree])
  | cons next rest =>
      have later : ram.Represents ((before ++ [chunk]) ++ next :: rest) := by simpa using represents
      have marked := later.heads.used
      simp only [Chunk.width_append, Chunk.width_cons, Chunk.width_nil, Nat.add_zero] at marked
      rw [marked]
      simp [startsFree]

/-- A trim moves the end of its chunk down, unless the chunk is smaller than asked. -/
theorem Models.memTrim (models : heap.Models chunks) (found : held chunks start = some size)
    (newsize : UInt16) (less : blockSize newsize + sizeofStructMem ≤ size) :
    ∃ next : MemHeap, heap.memTrim (start + sizeofStructMem) newsize =
        (some (start + sizeofStructMem), next) ∧
      next.Models (shrink leastChunk (blockSize newsize + sizeofStructMem) start chunks) ∧
      Ram.Untouched (shrink leastChunk (blockSize newsize + sizeofStructMem) start chunks)
        heap.ram next.ram := by
  obtain ⟨represents, shaped, lfree⟩ := models
  have bounds := blockSize_bounds newsize
  have header : sizeofStructMem = 8 := rfl
  have least : minSizeAligned = 12 := rfl
  have both : leastChunk = 20 := rfl
  have limit : memSizeAligned = 16000 := rfl
  have row : Shaped leastChunk 4 (shrink leastChunk (blockSize newsize + sizeofStructMem) start chunks) :=
    shaped.shrink (by omega) (by omega) found
  obtain ⟨before, rest, rfl, rfl⟩ := Chunk.held_split found
  rw [List.append_assoc, List.singleton_append] at represents shaped lfree row found ⊢
  have sized : ∀ chunk ∈ before, 0 < chunk.size := fun chunk member =>
    shaped.pos (by decide) chunk (by simp [member])
  have enough : leastChunk ≤ size := shaped.least_le ⟨size, true⟩ (by simp)
  have place := represents.bounds
  have next := represents.heads.next
  have follows := next_free represents
  dsimp only at place next follows
  have size_eq : (width before + size + 2 ^ 32 - width before - sizeofStructMem) % 2 ^ 16 =
      size - sizeofStructMem := by omega
  have ptr2 : (width before + sizeofStructMem + blockSize newsize) % 2 ^ 16 =
      width before + (blockSize newsize + sizeofStructMem) := by omega
  have result := Chunk.shrink_split leastChunk (blockSize newsize + sizeofStructMem) ⟨size, true⟩ rest
    sized
  have lowest (left : Nat) (others : List Chunk) :=
    firstFree_cut (blockSize newsize + sizeofStructMem) left others sized
  unfold Network.MemHeap.memTrim
  dsimp only at result ⊢
  rw [if_neg (by omega), if_neg (by omega), Nat.add_sub_cancel, next, size_eq, ptr2, if_neg (by omega)]
  split
  next same =>
    rw [if_neg (by omega)] at result
    rw [result] at row ⊢
    exact ⟨heap, rfl, ⟨represents, row, lfree⟩, .refl _ _⟩
  next different =>
    split
    next free =>
      have begins := follows.mp free
      rw [if_pos ⟨by omega, .inl begins⟩] at result
      cases rest with
      | nil => contradiction
      | cons other rest =>
          have unused : other.used = false := by simpa [startsFree] using begins
          have later : heap.ram.Represents ((before ++ [⟨size, true⟩]) ++ other :: rest) := by
            simpa using represents
          have heads := later.heads.next
          simp only [Chunk.width_append, Chunk.width_cons, Chunk.width_nil, Nat.add_zero] at heads
          have gap : size + width [other] = blockSize newsize + sizeofStructMem +
              (size - (blockSize newsize + sizeofStructMem) + other.size) := by
            simp only [Chunk.width_cons, Chunk.width_nil]
            omega
          have cell : 8 ≤ other.size := later.bounds.1
          have whole : heap.ram.Represents (before ++ ⟨size, true⟩ :: [other] ++ rest) := by
            simpa using represents
          obtain ⟨two, untouched⟩ := cut_represents whole gap (Nat.le_add_left ..) (by omega)
          have stop : width before + (blockSize newsize + sizeofStructMem +
              (size - (blockSize newsize + sizeofStructMem) + other.size)) =
              (heap.ram.mem (width before + size)).next.toNat := by omega
          rw [stop] at two untouched
          rw [join, if_pos ⟨rfl, unused⟩] at result
          rw [result] at row ⊢
          refine ⟨_, rfl, ⟨two, row, ?_⟩, untouched⟩
          rw [lowest, lfree]
          by_cases all : ∀ chunk ∈ before, chunk.used = true
          · rw [if_pos all, Chunk.firstFree_used all, firstFree, if_pos rfl, if_pos]
            simp [firstFree, unused]
          · obtain ⟨same, below⟩ := Chunk.firstFree_free sized all (⟨size, true⟩ :: other :: rest)
            rw [if_neg all, same, if_neg (by omega)]
    next unused =>
      have begins := mt follows.mpr unused
      split
      next room =>
        rw [if_pos ⟨by omega, .inr (by omega)⟩,
          Chunk.join_eq_cons (.inr (by simpa using begins))] at result
        rw [result] at row ⊢
        have gap : size + width [] = blockSize newsize + sizeofStructMem +
            (size - (blockSize newsize + sizeofStructMem)) := by
          rw [Chunk.width_nil]
          omega
        have whole : heap.ram.Represents (before ++ ⟨size, true⟩ :: [] ++ rest) := by
          simpa using represents
        obtain ⟨two, untouched⟩ := cut_represents whole gap (Nat.le_add_left ..) (by omega)
        rw [← gap, Chunk.width_nil, Nat.add_zero] at two untouched
        refine ⟨_, rfl, ⟨two, row, ?_⟩, untouched⟩
        rw [lowest, lfree]
        by_cases all : ∀ chunk ∈ before, chunk.used = true
        · rw [if_pos all, Chunk.firstFree_used all, firstFree, if_pos rfl, if_pos (by dsimp only; omega)]
        · obtain ⟨same, below⟩ := Chunk.firstFree_free sized all (⟨size, true⟩ :: rest)
          rw [if_neg all, same, if_neg (by omega)]
      next tight =>
        have whole : ¬ (blockSize newsize + sizeofStructMem < size ∧ (startsFree rest = true ∨
            blockSize newsize + sizeofStructMem + leastChunk ≤ size)) := by
          rintro ⟨_, free | room⟩
          · exact begins free
          · omega
        rw [if_neg whole] at result
        rw [result] at row ⊢
        exact ⟨heap, rfl, ⟨represents, row, lfree⟩, .refl _ _⟩

/-- A trim to a larger size is refused. -/
theorem Models.memTrim_none (models : heap.Models chunks) (found : held chunks start = some size)
    (newsize : UInt16) (more : size < blockSize newsize + sizeofStructMem) :
    heap.memTrim (start + sizeofStructMem) newsize = (none, heap) := by
  have enough : leastChunk ≤ size := (models.shaped.held found).1
  obtain ⟨before, rest, rfl, rfl⟩ := Chunk.held_split found
  have represents := models.represents
  rw [List.append_assoc, List.singleton_append] at represents
  have place := represents.bounds
  have next := represents.heads.next
  have header : sizeofStructMem = 8 := rfl
  have both : leastChunk = 20 := rfl
  have limit : memSizeAligned = 16000 := rfl
  dsimp only at place next
  unfold Network.MemHeap.memTrim
  dsimp only
  rw [Nat.add_sub_cancel, next]
  split
  next => rfl
  next => rw [if_neg (by omega), if_pos (by omega)]

/-- A pointer outside the heap releases nothing. -/
theorem memFree_outside (heap : MemHeap) {rmem : Nat} (outside : memSizeAligned ≤ rmem) :
    heap.memFree (some rmem) = heap := by
  rw [Network.MemHeap.memFree, if_pos outside]

/-- A store inside a used chunk leaves the headers. -/
theorem Models.write (models : heap.Models chunks) (found : held chunks start = some size)
    {address : Nat} (low : start + sizeofStructMem ≤ address) (high : address < start + size)
    (value : UInt8) :
    Models { heap with ram := Function.update heap.ram address value } chunks := by
  obtain ⟨⟨chain, total, sized, last⟩, shaped, lfree⟩ := models
  have inside := Chunk.held_inside found
  refine ⟨⟨chain.store sized found (by omega) (by omega) value, total, sized, ?_⟩, shaped, lfree⟩
  rwa [Ram.mem_congr fun other _ _ => Function.update_of_ne (by omega) ..]

end MemHeap

end NnpCamera.Network
