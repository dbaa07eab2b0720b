/-
This file models a task that waits for a semaphore, reads a ring and copies the slot that it got.
-/

import NnpCamera.Library.Ring
import NnpCamera.Library.Runs
import NnpCamera.Library.Semaphore

namespace NnpCamera.Library

/-- The task waits, reads the ring after a granted pend, or copies the slot that it got. -/
inductive ConsumerPoint where
  | pend
  | read
  | copy (slot : Nat)
  deriving DecidableEq

/-- The steps of the task have the names of its points. -/
inductive ConsumerStep where
  | pend
  | read
  | copy

/-- The task shares the ring and the semaphore with a producer. It lists the values it copied. -/
structure Consumer (size : Nat) (Slot : Type) where
  ring : Ring size Slot
  semaphore : Nat
  point : ConsumerPoint
  taken : List Slot

namespace Consumer
variable {size : Nat} {Slot : Type}

/-- The task takes the step at which it stands. An empty ring sends it back to its pend. -/
def step (consumer : Consumer size Slot) : ConsumerStep → Option (Consumer size Slot)
  | .pend =>
      if consumer.point = .pend then
        (semaphorePend consumer.semaphore).map fun count =>
          { consumer with semaphore := count, point := .read }
      else none
  | .read =>
      if consumer.point = .read then
        match consumer.ring.read with
        | none => some { consumer with point := .pend }
        | some ring => some { consumer with ring := ring, point := .copy ring.rdpos }
      else none
  | .copy =>
      match consumer.point with
      | .copy slot =>
          some { consumer with taken := consumer.taken ++ [consumer.ring.slots slot], point := .pend }
      | _ => none

/-- The value that was read and is not copied yet. -/
def inFlight (consumer : Consumer size Slot) : List Slot :=
  match consumer.point with
  | .copy slot => [consumer.ring.slots slot]
  | _ => []

/-- The tokens of the semaphore and the pend that was granted and is not followed by its read. -/
def tokens (consumer : Consumer size Slot) : Nat :=
  match consumer.point with
  | .read => consumer.semaphore + 1
  | _ => consumer.semaphore

/-- The values that were taken, are in flight or are stored. -/
def passed (consumer : Consumer size Slot) : List Slot :=
  consumer.taken ++ consumer.inFlight ++ consumer.ring.contents

/-- The slot in flight is the one at the read position. -/
def Follows (consumer : Consumer size Slot) : Prop :=
  ∀ slot, consumer.point = .copy slot → slot = consumer.ring.rdpos

/-- What one step of the task can do to its tokens and to the stored values. -/
inductive Takes (before after : Consumer size Slot) : Prop where
  | neither : after.tokens = before.tokens → after.ring = before.ring → Takes before after
  | value : before.tokens = after.tokens + 1 →
      before.ring.contents.length = after.ring.contents.length + 1 → Takes before after
  | nothing : before.tokens = after.tokens + 1 → before.ring.contents = [] →
      after.ring = before.ring → Takes before after

/-- Each step keeps all values in their order. -/
theorem step_passed {consumer after : Consumer size Slot} {event : ConsumerStep}
    (stepped : consumer.step event = some after) :
    after.passed = consumer.passed ∧ after.Follows ∧ Takes consumer after := by
  cases event with
  | pend =>
      simp only [step] at stepped
      split at stepped
      next waiting =>
        obtain ⟨count, granted, rfl⟩ := Option.map_eq_some_iff.mp stepped
        have token := semaphorePend_some granted
        refine ⟨?_, ?_, .neither ?_ rfl⟩
        · simp only [passed, inFlight, waiting]
        · intro slot copying
          simp at copying
        · simp only [tokens, waiting, token]
      next => simp at stepped
  | read =>
      simp only [step] at stepped
      split at stepped
      next granted =>
        cases stored : consumer.ring.contents with
        | nil =>
            rw [Ring.read_empty _ stored] at stepped
            obtain rfl := Option.some.inj stepped
            refine ⟨?_, ?_, .nothing ?_ stored rfl⟩
            · simp only [passed, inFlight, granted]
            · intro slot copying
              simp at copying
            · simp only [tokens, granted]
        | cons value rest =>
            obtain ⟨ring, read, left, _, slot⟩ := Ring.read_contents _ stored
            rw [read] at stepped
            obtain rfl := Option.some.inj stepped
            refine ⟨?_, ?_, .value ?_ ?_⟩
            · simp [passed, inFlight, granted, stored, left, slot]
            · intro other copying
              exact (ConsumerPoint.copy.inj copying).symm
            · simp only [tokens, granted]
            · rw [stored, left, List.length_cons]
      next => simp at stepped
  | copy =>
      simp only [step] at stepped
      split at stepped
      next slot copying =>
        obtain rfl := Option.some.inj stepped
        refine ⟨?_, ?_, .neither ?_ rfl⟩
        · simp [passed, inFlight, copying]
        · intro other copying
          simp at copying
        · simp only [tokens, copying]
      next => simp at stepped

/-- Only a read moves the ring. -/
theorem step_ring {consumer after : Consumer size Slot} {event : ConsumerStep}
    (stepped : consumer.step event = some after) :
    after.ring =
      match event with
      | .read => consumer.ring.read.getD consumer.ring
      | _ => consumer.ring := by
  cases event with
  | pend =>
      simp only [step] at stepped
      split at stepped
      next =>
        obtain ⟨count, _, rfl⟩ := Option.map_eq_some_iff.mp stepped
        rfl
      next => simp at stepped
  | read =>
      simp only [step] at stepped
      split at stepped
      next =>
        cases read : consumer.ring.read with
        | none =>
            rw [read] at stepped
            obtain rfl := Option.some.inj stepped
            rfl
        | some ring =>
            rw [read] at stepped
            obtain rfl := Option.some.inj stepped
            rfl
      next => simp at stepped
  | copy =>
      simp only [step] at stepped
      split at stepped
      next =>
        obtain rfl := Option.some.inj stepped
        rfl
      next => simp at stepped

/-- No step leaves a stored value without a token. -/
theorem Takes.covered {before after : Consumer size Slot} (takes : Takes before after)
    (covered : before.ring.contents.length ≤ before.tokens) :
    after.ring.contents.length ≤ after.tokens := by
  cases takes with
  | neither tokens same =>
      rw [tokens, same]
      exact covered
  | value tokens stored => omega
  | nothing tokens none same =>
      rw [same, none]
      exact Nat.zero_le _

/-- A producer that leaves the slot at the read position does not disturb the value in flight. -/
theorem Follows.produce {consumer : Consumer size Slot} (follows : consumer.Follows)
    (ring : Ring size Slot) (count : Nat) (position : ring.rdpos = consumer.ring.rdpos)
    (slot : ring.slots consumer.ring.rdpos = consumer.ring.slots consumer.ring.rdpos) :
    ({ consumer with ring := ring, semaphore := count }).passed =
        consumer.taken ++ consumer.inFlight ++ ring.contents ∧
      Follows { consumer with ring := ring, semaphore := count } := by
  constructor
  · unfold passed inFlight
    cases copying : consumer.point with
    | copy other =>
        obtain rfl := follows other copying
        simp only [slot]
    | pend => rfl
    | read => rfl
  · intro other copying
    exact (follows other copying).trans position.symm

/-- This system runs the task alone. -/
def system (size : Nat) (Slot : Type) : System (Consumer size Slot) ConsumerStep where
  step := step

/-- This number falls with each step while values are left. -/
def rank (consumer : Consumer size Slot) : Nat :=
  match consumer.point with
  | .pend => 3 * consumer.ring.contents.length
  | .read => 3 * consumer.ring.contents.length - 1
  | .copy _ => 3 * consumer.ring.contents.length + 1

/-- With a token for each stored value, the task can take its next step. -/
theorem progress {consumer : Consumer size Slot}
    (covered : consumer.ring.contents.length ≤ consumer.tokens)
    (busy : consumer.taken ≠ consumer.passed) :
    ∃ event after, consumer.step event = some after ∧ after.rank < consumer.rank := by
  have stored (idle : consumer.inFlight = []) : 0 < consumer.ring.contents.length := by
    apply List.length_pos_iff.mpr
    intro none
    apply busy
    rw [passed, idle, none, List.append_nil, List.append_nil]
  cases point : consumer.point with
  | pend =>
      have some := stored (by simp only [inFlight, point])
      have token : 0 < consumer.semaphore := by
        simp only [tokens, point] at covered
        omega
      refine ⟨.pend, { consumer with semaphore := consumer.semaphore - 1, point := .read }, ?_, ?_⟩
      · simp [step, point, semaphorePend, token]
      · simp only [rank, point]
        omega
  | read =>
      have some := stored (by simp only [inFlight, point])
      obtain ⟨value, rest, shape⟩ := List.exists_cons_of_length_pos some
      obtain ⟨ring, got, left, _⟩ := Ring.read_contents _ shape
      refine ⟨.read, { consumer with ring := ring, point := .copy ring.rdpos }, ?_, ?_⟩
      · simp [step, point, got]
      · simp only [rank, point, shape, left, List.length_cons]
        omega
  | copy slot =>
      refine ⟨.copy, { consumer with
        taken := consumer.taken ++ [consumer.ring.slots slot], point := .pend }, ?_, ?_⟩
      · simp [step, point]
      · simp only [rank, point]
        omega

/-- With a token for each stored value, the task can take all values. -/
theorem drain {consumer : Consumer size Slot}
    (covered : consumer.ring.contents.length ≤ consumer.tokens) :
    ∃ after, (system size Slot).Reachable consumer after ∧ after.taken = consumer.passed := by
  by_cases busy : consumer.taken = consumer.passed
  · exact ⟨consumer, .start, busy⟩
  · obtain ⟨event, next, stepped, falls⟩ := progress covered busy
    obtain ⟨passed, _, takes⟩ := step_passed stepped
    obtain ⟨after, reached, all⟩ := drain (takes.covered covered)
    exact ⟨after, .trans (.next .start trivial stepped) reached, all.trans passed⟩
termination_by consumer.rank

end Consumer

end NnpCamera.Library
