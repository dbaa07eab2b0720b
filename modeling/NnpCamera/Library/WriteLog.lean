/-
This file describes a program by the single cells that it writes one after the other, and says
what memory holds when the program is cut short.
-/

import NnpCamera.Library.Machine
import NnpCamera.Library.Program
import Mathlib.Logic.Function.Basic
import Mathlib.Data.List.Basic

namespace NnpCamera.Library
variable {Address Cell State : Type} [DecidableEq Address]

/-- A log lists single writes in their order. -/
abbrev WriteLog (Address Cell : Type) := List (Address × Cell)

namespace WriteLog

/-- The memory after the writes of the log. -/
def replay (log : WriteLog Address Cell) (memory : Address → Cell) : Address → Cell :=
  log.foldl (fun memory write => Function.update memory write.1 write.2) memory

/-- The addresses that the log writes. -/
def addresses (log : WriteLog Address Cell) : List Address := log.map Prod.fst

@[simp] theorem replay_nil (memory : Address → Cell) :
    replay ([] : WriteLog Address Cell) memory = memory := rfl

@[simp] theorem replay_cons (write : Address × Cell) (log : WriteLog Address Cell)
    (memory : Address → Cell) :
    replay (write :: log) memory = log.replay (Function.update memory write.1 write.2) := rfl

theorem replay_append (first second : WriteLog Address Cell) (memory : Address → Cell) :
    replay (first ++ second) memory = second.replay (first.replay memory) :=
  List.foldl_append

/-- A machine whose calls write their logs replays all of them. -/
theorem after_eq {Call Result : Type} {machine : Machine (Address → Cell) Call Result}
    {writes : Call → WriteLog Address Cell}
    (step : ∀ memory call, (machine.step memory call).1 = (writes call).replay memory)
    (memory : Address → Cell) (calls : List Call) :
    machine.after memory calls = replay (calls.flatMap writes) memory := by
  induction calls generalizing memory with
  | nil => rfl
  | cons call rest ih =>
      rw [List.flatMap_cons, replay_append, ← step memory call]
      exact ih _

/-- A cell that no write touches keeps its value. -/
theorem replay_untouched {log : WriteLog Address Cell} {address : Address}
    (untouched : address ∉ log.addresses) (memory : Address → Cell) :
    log.replay memory address = memory address := by
  induction log generalizing memory with
  | nil => rfl
  | cons write rest ih =>
      simp only [addresses, List.map_cons, List.mem_cons, not_or] at untouched
      rw [replay_cons, ih untouched.2, Function.update_of_ne untouched.1]

/-- A cell that some write touches does not depend on the memory before. -/
theorem replay_touched {log : WriteLog Address Cell} {address : Address}
    (touched : address ∈ log.addresses) (first second : Address → Cell) :
    log.replay first address = log.replay second address := by
  induction log generalizing first second with
  | nil => simp [addresses] at touched
  | cons write rest ih =>
      rw [replay_cons, replay_cons]
      by_cases later : address ∈ addresses rest
      · exact ih later _ _
      · have here : address = write.1 := by
          rcases List.mem_cons.mp touched with first | deep
          · exact first
          · exact absurd deep later
        rw [replay_untouched later, replay_untouched later, here, Function.update_self,
          Function.update_self]

omit [DecidableEq Address] in
/-- A cell that no write touches is touched by no part of the log. -/
theorem addresses_take {log : WriteLog Address Cell} {address : Address}
    (untouched : address ∉ log.addresses) (count : Nat) :
    address ∉ addresses (log.take count) := by
  intro inside
  obtain ⟨write, taken, same⟩ := List.mem_map.mp inside
  exact untouched (List.mem_map.mpr ⟨write, List.mem_of_mem_take taken, same⟩)

/-- A complete log makes up for a part of itself that ran before. -/
theorem replay_take (log : WriteLog Address Cell) (count : Nat) (memory : Address → Cell) :
    log.replay (replay (log.take count) memory) = log.replay memory := by
  funext address
  by_cases touched : address ∈ log.addresses
  · exact replay_touched touched _ _
  · rw [replay_untouched touched, replay_untouched touched,
      replay_untouched (addresses_take touched count)]

/-- A cut log has made a single write of one cell when the cut comes after it. -/
theorem replay_take_single {before after : WriteLog Address Cell} {address : Address}
    {value : Cell} (first : address ∉ before.addresses) (last : address ∉ after.addresses)
    (count : Nat) (memory : Address → Cell) :
    replay (List.take count (before ++ (address, value) :: after)) memory address =
      if before.length < count then value else memory address := by
  rw [List.take_append, replay_append]
  split
  next reached =>
    obtain ⟨size, more⟩ : ∃ size, count - before.length = size + 1 :=
      ⟨count - before.length - 1, by omega⟩
    rw [more, List.take_succ_cons, replay_cons, replay_untouched (addresses_take last size),
      Function.update_self]
  next short =>
    rw [show count - before.length = 0 by omega, List.take_zero, replay_nil,
      replay_untouched (addresses_take first count)]

/-- A cut log that ends with a commit mark has written all or left the mark out. -/
theorem replay_take_commit {body : WriteLog Address Cell} {mark : Address × Cell}
    (last : mark.1 ∉ body.addresses) (count : Nat) {memory : Address → Cell}
    (unmarked : memory mark.1 ≠ mark.2)
    (marked : replay (List.take count (body ++ [mark])) memory mark.1 = mark.2) :
    replay (List.take count (body ++ [mark])) memory = replay (body ++ [mark]) memory := by
  by_cases short : count ≤ body.length
  · rw [List.take_append_of_le_length short] at marked
    rw [replay_untouched (addresses_take last count)] at marked
    exact absurd marked unmarked
  · rw [List.take_of_length_le]
    rw [List.length_append, List.length_singleton]
    omega

end WriteLog

/-- The program writes exactly the cells of the log when it runs from this state. -/
inductive Logs (cells : State → Address → Cell) :
    Program State → State → WriteLog Address Cell → Prop where
  | done {state : State} : Logs cells .done state []
  | quiet {action : State → State} {rest : Program State} {state : State}
      {log : WriteLog Address Cell} : cells (action state) = cells state →
      Logs cells rest (action state) log → Logs cells (.act action rest) state log
  | write {action : State → State} {rest : Program State} {state : State}
      {address : Address} {value : Cell} {log : WriteLog Address Cell} :
      cells (action state) = Function.update (cells state) address value →
      Logs cells rest (action state) log →
      Logs cells (.act action rest) state ((address, value) :: log)
  | branch {test : State → Bool} {yes no : Program State} {state : State}
      {log : WriteLog Address Cell} :
      Logs cells (if test state then yes else no) state log →
      Logs cells (.branch test yes no) state log

namespace Logs
variable {cells : State → Address → Cell} {program first second : Program State} {state : State}
  {log one two : WriteLog Address Cell}

/-- A complete run makes all writes of its log. -/
theorem exec (logs : Logs cells program state log) :
    cells (program.exec state) = log.replay (cells state) := by
  induction logs with
  | done => rfl
  | quiet same _ ih => rw [Program.exec_act, ih, same]
  | write stored _ ih => rw [Program.exec_act, ih, stored, WriteLog.replay_cons]
  | branch _ ih =>
      rw [Program.exec, ← ih]
      split <;> rfl

/-- A run that is cut short makes the first writes of its log. -/
theorem execFor (logs : Logs cells program state log) (steps : Nat) :
    ∃ count, cells (program.execFor steps state) =
      WriteLog.replay (log.take count) (cells state) := by
  induction logs generalizing steps with
  | done => exact ⟨0, by rw [Program.execFor_done]; rfl⟩
  | @quiet action rest state log same _ ih =>
      cases steps with
      | zero => exact ⟨0, by rw [Program.execFor_zero]; rfl⟩
      | succ steps =>
          obtain ⟨count, cut⟩ := ih steps
          exact ⟨count, by rw [Program.execFor, cut, same]⟩
  | @write action rest state address value log stored _ ih =>
      cases steps with
      | zero => exact ⟨0, by rw [Program.execFor_zero]; rfl⟩
      | succ steps =>
          obtain ⟨count, cut⟩ := ih steps
          exact ⟨count + 1, by rw [Program.execFor, cut, stored]; rfl⟩
  | @branch test yes no state log _ ih =>
      cases steps with
      | zero => exact ⟨0, by rw [Program.execFor_zero]; rfl⟩
      | succ steps =>
          obtain ⟨count, cut⟩ := ih steps
          refine ⟨count, ?_⟩
          rw [Program.execFor, ← cut]
          split <;> rfl

/-- A run can be cut short after each number of its writes. -/
theorem cut (logs : Logs cells program state log) (count : Nat) :
    ∃ steps, cells (program.execFor steps state) =
      WriteLog.replay (log.take count) (cells state) := by
  induction logs generalizing count with
  | done => exact ⟨0, by rw [List.take_nil]; rfl⟩
  | @quiet action rest state log same _ ih =>
      obtain ⟨steps, cut⟩ := ih count
      exact ⟨steps + 1, by rw [Program.execFor, cut, same]⟩
  | @write action rest state address value log stored _ ih =>
      cases count with
      | zero => exact ⟨0, by rw [Program.execFor_zero]; rfl⟩
      | succ count =>
          obtain ⟨steps, cut⟩ := ih count
          exact ⟨steps + 1, by rw [Program.execFor, cut, stored]; rfl⟩
  | @branch test yes no state log _ ih =>
      obtain ⟨steps, cut⟩ := ih count
      refine ⟨steps + 1, ?_⟩
      rw [Program.execFor, ← cut]
      split <;> rfl

/-- The log of a sequence joins the logs of its parts. -/
theorem append (start : Logs cells first state one)
    (rest : Logs cells second (first.exec state) two) :
    Logs cells (first ++ second) state (one ++ two) := by
  induction start with
  | done => exact rest
  | quiet same _ ih => exact .quiet same (ih rest)
  | write stored _ ih => exact .write stored (ih rest)
  | @branch test yes no state log chosen ih =>
      apply Logs.branch
      rw [Program.exec] at rest
      split at rest
      next passed =>
        rw [if_pos passed] at ih ⊢
        exact ih rest
      next failed =>
        rw [if_neg failed] at ih ⊢
        exact ih rest

/-- A program that keeps all cells has an empty log. -/
theorem ofKeeps {program : Program State} (keeps : program.Keeps cells) (state : State) :
    Logs cells program state [] := by
  induction program generalizing state with
  | done => exact .done
  | act action rest ih => exact .quiet (keeps.1 state) (ih keeps.2 _)
  | branch test yes no ihYes ihNo =>
      apply Logs.branch
      split
      · exact ihYes keeps.1 state
      · exact ihNo keeps.2 state

/-- A guarded body has an empty log when its test fails. -/
theorem only {test : State → Bool} {body : Program State}
    (inner : test state = true → Logs cells body state log) :
    Logs cells (.only test body) state (if test state then log else []) := by
  apply Logs.branch
  split
  next passed => exact inner passed
  next => exact .done

end Logs

end NnpCamera.Library
