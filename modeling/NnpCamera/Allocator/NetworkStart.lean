/-
This file models the start of the network in `lwip_comm.c` and shows what its failed attempts leave
in the internal memory.
-/

import NnpCamera.Allocator.Bank
import NnpCamera.Image.Netbuf

namespace NnpCamera.Allocator
open Library
open Image (ErrT)

def tcpipThreadStacksize : UInt32 := 1000

def lwipDhcpStkSize : UInt32 := 128

/-- The internal pool and the pointers to the two stacks. -/
structure NetStart where
  sramin : Bank
  tcpipThreadTaskStk : UInt32
  lwipDhcpTaskStk : UInt32

section Calls
variable (base : Membase)

def lwipCommMemFree (state : NetStart) : NetStart :=
  let sramin := myfree base .sramin state.sramin state.tcpipThreadTaskStk
  { state with sramin := myfree base .sramin sramin state.lwipDhcpTaskStk }

/-- The stacks of the kernel task and of the DHCP task come from the internal pool. -/
def lwipCommMemMalloc (state : NetStart) : UInt8 × NetStart :=
  let (tcpipThreadTaskStk, sramin) :=
    mymalloc base .sramin state.sramin (tcpipThreadStacksize * 4)
  let (lwipDhcpTaskStk, sramin) := mymalloc base .sramin sramin (lwipDhcpStkSize * 4)
  let state := ⟨sramin, tcpipThreadTaskStk, lwipDhcpTaskStk⟩
  if tcpipThreadTaskStk = 0 ∨ lwipDhcpTaskStk = 0 then (1, lwipCommMemFree base state)
  else (0, state)

/-- The loop calls `LAN8720_Init` until it returns 0, and gives up when `retry` passes 5. -/
def lan8720Starts (lan8720Init : Nat → Int32) (retry : Nat) : Bool :=
  if lan8720Init retry = 0 then true
  else if 5 < retry + 1 then false
  else lan8720Starts lan8720Init (retry + 1)
termination_by 6 - retry

/-- `ethernetif_init` has no failing end. -/
def ethernetifInit : ErrT := .ok

/-- `netif_add` gives the null pointer when the function that it calls fails. -/
def netifAdd (init : ErrT) : Bool := init = .ok

/-- The results of `LAN8720_Init` depend on the PHY. -/
def lwipCommInit (lan8720Init : Nat → Int32) (state : NetStart) : UInt8 × NetStart :=
  let (failed, state) := lwipCommMemMalloc base state
  if failed ≠ 0 then (2, state)
  else if lan8720Starts lan8720Init 0 = false then (3, state)
  else if netifAdd ethernetifInit = false then (4, state)
  else (0, state)

/-- The state after some attempts of the retry loop. -/
def attempts (state : NetStart) (inits : List (Nat → Int32)) : NetStart :=
  inits.foldl (fun state init => (lwipCommInit base init state).2) state

end Calls

/-- One of the six calls of `LAN8720_Init` returns 0. -/
def PhyUp (lan8720Init : Nat → Int32) : Prop := ∃ call ≤ 5, lan8720Init call = 0

/-- The bytes of the two stacks. -/
def stackSizes : List UInt32 := [tcpipThreadStacksize * 4, lwipDhcpStkSize * 4]

/-- The blocks of the two stacks. -/
def stackBlocks : List Nat := stackSizes.map fun size => (nmemb .sramin size).toNat

example : stackBlocks = [63, 8] := by decide

/-- The pool has room for the stacks of some attempts. -/
def RoomFor (sramin : Bank) (count : Nat) : Prop :=
  Fits (sramin.free .sramin) (List.replicate count stackBlocks).flatten

theorem lan8720Starts_iff (lan8720Init : Nat → Int32) (retry : Nat) (first : retry ≤ 5) :
    lan8720Starts lan8720Init retry = true ↔
      ∃ call, retry ≤ call ∧ call ≤ 5 ∧ lan8720Init call = 0 := by
  fun_induction lan8720Starts lan8720Init retry with
  | case1 retry up => exact iff_of_true rfl ⟨retry, Nat.le_refl _, first, up⟩
  | case2 retry down last =>
      refine iff_of_false Bool.false_ne_true ?_
      rintro ⟨call, low, high, up⟩
      obtain rfl : call = retry := by omega
      exact down up
  | case3 retry down more ih =>
      rw [ih (by omega)]
      constructor
      · rintro ⟨call, low, high, up⟩
        exact ⟨call, by omega, high, up⟩
      · rintro ⟨call, low, high, up⟩
        have different : call ≠ retry := fun same => down (same ▸ up)
        exact ⟨call, by omega, high, up⟩

/-- The loop succeeds exactly when the PHY comes up. -/
theorem lan8720Starts_phyUp (lan8720Init : Nat → Int32) :
    lan8720Starts lan8720Init 0 = true ↔ PhyUp lan8720Init := by
  rw [lan8720Starts_iff _ _ (Nat.zero_le _)]
  simp [PhyUp]

section Attempts
variable {base : Membase} {state : NetStart} {init : Nat → Int32}

/-- The two stacks both get their blocks, or the pool stays as it was. -/
theorem lwipCommMemMalloc_cases (base : Membase) (ready : state.sramin.memrdy = true) :
    ∃ extents after, Placed (state.sramin.free .sramin) stackBlocks extents (after.free .sramin) ∧
      after.memrdy = true ∧
      ((none ∉ extents ∧ (lwipCommMemMalloc base state).1 = 0 ∧
          (lwipCommMemMalloc base state).2.sramin = after) ∨
        (none ∈ extents ∧ (lwipCommMemMalloc base state).1 = 1 ∧
          (lwipCommMemMalloc base state).2.sramin = state.sramin)) := by
  obtain ⟨extents, after, results, placed, still, tiles⟩ :=
    mymallocs_placed base ready stackSizes (by decide) (Tiling.start mark _ state.sramin.memmap)
  refine ⟨extents, after, placed, still, ?_⟩
  obtain ⟨tcpip, dhcp, rfl⟩ : ∃ tcpip dhcp, extents = [tcpip, dhcp] :=
    List.length_eq_two.mp placed.length
  have failed : (base.pointer .sramin tcpip = 0 ∨ base.pointer .sramin dhcp = 0) ↔
      none ∈ [tcpip, dhcp] := by
    rw [pointer_eq_zero_iff base tiles (by simp), pointer_eq_zero_iff base tiles (by simp)]
    simp [eq_comm]
  obtain ⟨⟨first, middle⟩, one⟩ : ∃ result, mymalloc base .sramin state.sramin
    (tcpipThreadStacksize * 4) = result := ⟨_, rfl⟩
  obtain ⟨⟨second, last⟩, two⟩ : ∃ result, mymalloc base .sramin middle
    (lwipDhcpStkSize * 4) = result := ⟨_, rfl⟩
  simp only [stackSizes, mymallocs, one, two, List.map_cons, List.map_nil, Prod.mk.injEq,
    List.cons.injEq, and_true] at results
  obtain ⟨⟨rfl, rfl⟩, rfl⟩ := results
  simp only [lwipCommMemMalloc, one, two]
  by_cases missing : none ∈ [tcpip, dhcp]
  · rw [if_pos (failed.mpr missing)]
    exact .inr ⟨missing, rfl, myfrees_all base ready still tiles (.refl _)⟩
  · rw [if_neg (mt failed.mp missing)]
    exact .inl ⟨missing, rfl, rfl⟩

/-- An attempt without room for both stacks ends first and leaves the pool as it was. An attempt
with room takes the blocks, whether the PHY comes up or not. -/
theorem lwipCommInit_cases (base : Membase) (ready : state.sramin.memrdy = true) (init : Nat → Int32) :
    (¬ Fits (state.sramin.free .sramin) stackBlocks ∧ (lwipCommInit base init state).1 = 2 ∧
        (lwipCommInit base init state).2.sramin = state.sramin) ∨
      ∃ extents, none ∉ extents ∧ Placed (state.sramin.free .sramin) stackBlocks extents
          ((lwipCommInit base init state).2.sramin.free .sramin) ∧
        (lwipCommInit base init state).2.sramin.memrdy = true ∧
        ((lwipCommInit base init state).1 = 0 ↔ PhyUp init) := by
  obtain ⟨extents, after, placed, still, parts⟩ := lwipCommMemMalloc_cases base ready
  obtain ⟨⟨failed, next⟩, called⟩ : ∃ result, lwipCommMemMalloc base state = result := ⟨_, rfl⟩
  simp only [called] at parts
  rcases parts with ⟨full, rfl, rfl⟩ | ⟨missing, rfl, pool⟩
  · right
    refine ⟨extents, full, ?_⟩
    rw [← lan8720Starts_phyUp]
    cases started : lan8720Starts init 0 with
    | false =>
        have result : lwipCommInit base init state = (3, next) := by
          simp [lwipCommInit, called, started]
        rw [result]
        exact ⟨placed, still, by simp⟩
    | true =>
        have result : lwipCommInit base init state = (0, next) := by
          simp [lwipCommInit, called, started, netifAdd, ethernetifInit]
        rw [result]
        exact ⟨placed, still, by simp⟩
  · left
    have result : lwipCommInit base init state = (2, next) := by
      simp [lwipCommInit, called]
    rw [result]
    exact ⟨fun fits => placed.fits_iff.mp fits missing, rfl, pool⟩

theorem lwipCommInit_ready (base : Membase) (ready : state.sramin.memrdy = true)
    (init : Nat → Int32) : (lwipCommInit base init state).2.sramin.memrdy = true := by
  rcases lwipCommInit_cases base ready init with ⟨_, _, pool⟩ | ⟨_, _, _, still, _⟩
  · rw [pool]
    exact ready
  · exact still

/-- The free entries of the pool. -/
noncomputable def NetStart.room (state : NetStart) : Nat := (state.sramin.free .sramin).ncard

/-- An attempt with room leaves fewer free entries. -/
theorem lwipCommInit_room (base : Membase) (ready : state.sramin.memrdy = true)
    (init : Nat → Int32) (fits : Fits (state.sramin.free .sramin) stackBlocks) :
    (lwipCommInit base init state).2.room < state.room := by
  rcases lwipCommInit_cases base ready init with ⟨none, _, _⟩ | ⟨extents, full, placed, _, _⟩
  · exact absurd fits none
  · have used := placed.ncard full (freeCells_finite _ _)
    change _ + 71 = _ at used
    exact Nat.lt_of_lt_of_eq (Nat.lt_add_of_pos_right (by decide)) used

/-- No attempt leaves more free entries. -/
theorem lwipCommInit_room_le (base : Membase) (ready : state.sramin.memrdy = true)
    (init : Nat → Int32) : (lwipCommInit base init state).2.room ≤ state.room := by
  by_cases fits : Fits (state.sramin.free .sramin) stackBlocks
  · exact Nat.le_of_lt (lwipCommInit_room base ready init fits)
  · rcases lwipCommInit_cases base ready init with ⟨_, _, pool⟩ | ⟨extents, full, placed, _⟩
    · exact Nat.le_of_eq (congrArg (fun sramin => (sramin.free .sramin).ncard) pool)
    · exact absurd ⟨extents, _, placed, full⟩ fits

theorem attempts_cons (base : Membase) (state : NetStart) (init : Nat → Int32)
    (inits : List (Nat → Int32)) : attempts base state (init :: inits) =
      attempts base (lwipCommInit base init state).2 inits := rfl

theorem attempts_room_le (base : Membase) (ready : state.sramin.memrdy = true)
    (inits : List (Nat → Int32)) : (attempts base state inits).room ≤ state.room := by
  induction inits generalizing state with
  | nil => exact Nat.le_refl _
  | cons init inits ih =>
      rw [attempts_cons]
      exact Nat.le_trans (ih (lwipCommInit_ready base ready init))
        (lwipCommInit_room_le base ready init)

/-- Without room, no attempt changes the pool. -/
theorem attempts_full (base : Membase) (ready : state.sramin.memrdy = true)
    (none : ¬ Fits (state.sramin.free .sramin) stackBlocks) (inits : List (Nat → Int32)) :
    (attempts base state inits).sramin = state.sramin := by
  induction inits generalizing state with
  | nil => rfl
  | cons init inits ih =>
      rw [attempts_cons]
      rcases lwipCommInit_cases base ready init with ⟨_, _, pool⟩ | ⟨extents, full, placed, _⟩
      · rw [ih (pool ▸ ready) (pool ▸ none), pool]
      · exact absurd ⟨extents, _, placed, full⟩ none

/-- Some attempts leave the map as it was exactly when there is no room for the stacks. -/
theorem attempts_unchanged_iff (base : Membase) (ready : state.sramin.memrdy = true)
    (inits : List (Nat → Int32)) :
    (attempts base state inits).sramin.memmap = state.sramin.memmap ↔
      inits = [] ∨ ¬ Fits (state.sramin.free .sramin) stackBlocks := by
  cases inits with
  | nil => exact iff_of_true rfl (.inl rfl)
  | cons init inits =>
      by_cases fits : Fits (state.sramin.free .sramin) stackBlocks
      · refine iff_of_false ?_ (by simp [fits])
        intro same
        have fewer := lwipCommInit_room base ready init fits
        have later := attempts_room_le base (lwipCommInit_ready base ready init) inits
        have equal : (attempts base state (init :: inits)).room = state.room :=
          congrArg (fun memmap => (freeCells memmap (tableSize .sramin)).ncard) same
        rw [attempts_cons] at equal
        omega
      · exact iff_of_true (congrArg Bank.memmap (attempts_full base ready fits _)) (.inr fits)

/-- After some attempts, one more succeeds exactly when the PHY comes up and the pool had room for
the stacks of all of them. -/
theorem attempts_success_iff (base : Membase) (ready : state.sramin.memrdy = true)
    (inits : List (Nat → Int32)) (init : Nat → Int32) :
    (lwipCommInit base init (attempts base state inits)).1 = 0 ↔
      PhyUp init ∧ RoomFor state.sramin (inits.length + 1) := by
  induction inits generalizing state with
  | nil =>
      have single : RoomFor state.sramin 1 ↔ Fits (state.sramin.free .sramin) stackBlocks := by
        simp [RoomFor]
      have same : attempts base state [] = state := rfl
      rw [List.length_nil, same, single]
      rcases lwipCommInit_cases base ready init with
        ⟨none, code, _⟩ | ⟨extents, full, placed, _, code⟩
      · rw [code]
        exact iff_of_false (by decide) fun both => none both.2
      · rw [code]
        exact (and_iff_left ⟨extents, _, placed, full⟩).symm
  | cons first inits ih =>
      have more : RoomFor state.sramin (inits.length + 1 + 1) ↔ Fits (state.sramin.free .sramin)
          (stackBlocks ++ (List.replicate (inits.length + 1) stackBlocks).flatten) := by
        rw [RoomFor, List.replicate_succ, List.flatten_cons]
      rw [attempts_cons, ih (lwipCommInit_ready base ready first), List.length_cons, more]
      apply and_congr_right'
      rcases lwipCommInit_cases base ready first with
        ⟨none, _, pool⟩ | ⟨extents, full, placed, _, _⟩
      · rw [pool, RoomFor, List.replicate_succ, List.flatten_cons]
        exact iff_of_false (fun fits => none fits.left) fun fits => none fits.left
      · rw [placed.fits_append]
        exact (and_iff_right full).symm

end Attempts

/-- An attempt that fails leaves the map as it was exactly when the pool has no room for the two
stacks or the attempt does not fail. Later attempts find the first map only without room. The
attempt after some others needs room for the stacks of all of them. -/
theorem networkStart_trace (base : Membase) {state : NetStart}
    (ready : state.sramin.memrdy = true) :
    (∀ init, ((lwipCommInit base init state).1 ≠ 0 →
        (lwipCommInit base init state).2.sramin.memmap = state.sramin.memmap) ↔
      ¬ (Fits (state.sramin.free .sramin) stackBlocks ∧ ¬ PhyUp init)) ∧
    (∀ inits, (attempts base state inits).sramin.memmap = state.sramin.memmap ↔
      inits = [] ∨ ¬ Fits (state.sramin.free .sramin) stackBlocks) ∧
    ∀ inits init, PhyUp init → ((lwipCommInit base init (attempts base state inits)).1 = 0 ↔
      RoomFor state.sramin (inits.length + 1)) := by
  refine ⟨fun init => ?_, attempts_unchanged_iff base ready, fun inits init up => ?_⟩
  · have unchanged : (lwipCommInit base init state).2.sramin.memmap = state.sramin.memmap ↔ _ :=
      attempts_unchanged_iff base ready [init]
    rw [unchanged]
    rcases lwipCommInit_cases base ready init with ⟨none, _, _⟩ | ⟨extents, full, placed, _, code⟩
    · exact iff_of_true (fun _ => .inr none) fun both => none both.1
    · have fits : Fits (state.sramin.free .sramin) stackBlocks := ⟨extents, _, placed, full⟩
      rw [Ne, code]
      simp [fits]
  · rw [attempts_success_iff base ready]
    exact and_iff_right up

/-- The internal pool after `my_mem_init`. -/
def emptyStart : NetStart := ⟨myMemInit .sramin ⟨fun _ => 0, false⟩, 0, 0⟩

theorem emptyStart_ready : emptyStart.sramin.memrdy = true := rfl

theorem emptyStart_free : emptyStart.sramin.free .sramin = Set.Ico 0 2560 :=
  freeCells_cleared _ _

/-- An attempt after two failed attempts with an empty pool succeeds when the PHY comes up. -/
theorem networkStart_trace_empty :
    (lwipCommInit mallcoDev (fun _ => 0)
      (attempts mallcoDev emptyStart [fun _ => -1, fun _ => -1])).1 = 0 := by
  obtain ⟨_, _, success⟩ := networkStart_trace mallcoDev emptyStart_ready
  refine (success [fun _ => -1, fun _ => -1] (fun _ => 0) ⟨0, Nat.zero_le _, rfl⟩).mpr ?_
  rw [RoomFor, emptyStart_free]
  exact fits_Ico (by decide) (by decide)

/-- An attempt without a PHY changes the map of an empty pool. After 36 such attempts no attempt
succeeds. -/
theorem networkStart_leaks :
    (lwipCommInit mallcoDev (fun _ => -1) emptyStart).1 ≠ 0 ∧
      (lwipCommInit mallcoDev (fun _ => -1) emptyStart).2.sramin.memmap ≠
        emptyStart.sramin.memmap ∧
      ∀ init, (lwipCommInit mallcoDev init
        (attempts mallcoDev emptyStart (List.replicate 36 fun _ => -1))).1 ≠ 0 := by
  have down : ¬ PhyUp fun _ => -1 := by
    rintro ⟨call, _, up⟩
    change (-1 : Int32) = 0 at up
    exact absurd up (by decide)
  refine ⟨fun success => ?_, fun same => ?_, fun init success => ?_⟩
  · exact down ((attempts_success_iff mallcoDev emptyStart_ready [] _).mp success).1
  · have fits : Fits (emptyStart.sramin.free .sramin) stackBlocks := by
      rw [emptyStart_free]
      exact fits_Ico (by decide) (by decide)
    have unchanged := attempts_unchanged_iff mallcoDev emptyStart_ready [fun _ => -1]
    exact (unchanged.mp same).elim (by simp) fun none => none fits
  · have room := ((attempts_success_iff mallcoDev emptyStart_ready _ init).mp success).2
    rw [RoomFor, emptyStart_free, List.length_replicate] at room
    have bound := room.sum_le (Set.finite_Ico _ _)
    rw [Set.ncard_eq_toFinset_card', Set.toFinset_Ico, Nat.card_Ico] at bound
    exact absurd bound (by decide)

end NnpCamera.Allocator
