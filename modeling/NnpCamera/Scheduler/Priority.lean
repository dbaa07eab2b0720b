/-
This file shows that in each run the task that executes is the one of the highest priority that can run.
-/

import NnpCamera.Scheduler.Invariant

namespace NnpCamera.Scheduler
open Library

namespace Kernel
variable {Message : Type} [Inhabited Message] {kernel after : Kernel Message}

/-- The scheduler restores the invariant when it is not locked. -/
theorem Inv.schedule (running : kernel.osRunning = true) (agrees : kernel.Agrees)
    (current : kernel.curPlace ≠ none) (unlocked : kernel.osLockNesting = 0) :
    kernel.osSchedNew.switch.Inv := by
  unfold switch
  split
  next =>
    refine ⟨running, agrees, current, ?_, fun _ _ => rfl, fun atTask => ?_⟩
    · intro locked
      exact absurd unlocked (Nat.ne_of_gt locked)
    · exact Bool.noConfusion atTask.2
  next same =>
    refine ⟨running, agrees, current, ?_, fun _ _ => rfl, fun _ _ _ => ?_⟩
    · intro locked
      exact absurd unlocked (Nat.ne_of_gt locked)
    · exact (not_not.mp same).symm

theorem Inv.sched (inv : kernel.Inv) (atTask : kernel.AtTask) :
    (osSched { kernel with
      inSched := Function.update kernel.inSched kernel.osPrioCur false }).Inv := by
  unfold osSched
  rw [if_pos atTask.1]
  split
  next unlocked => exact Inv.schedule inv.running inv.agrees inv.current unlocked
  next locked =>
    refine ⟨inv.running, inv.agrees, inv.current, inv.locked, inv.high, ?_⟩
    intro _ unlocked
    exact absurd unlocked locked

/-- A task after `OS_Sched` that is inside a delay or a pend can run. -/
theorem Inv.runnable (inv : kernel.Inv) (atTask : kernel.AtTask)
    (quiet : kernel.inSched kernel.osPrioCur = false) {tcb : OsTcb Message}
    (held : kernel.osTCBPrioTbl kernel.osPrioCur = some tcb) (placed : tcb.place ≠ .app) :
    kernel.osLockNesting = 0 ∧ kernel.osPrioCur ∈ kernel.osRdy ∧ tcb.Runnable := by
  have unlocked : kernel.osLockNesting = 0 := by
    by_contra locked
    have place := (inv.locked (Nat.pos_of_ne_zero locked)).2
    rw [curPlace, held, Option.map_some, Option.some.injEq] at place
    exact placed place
  have first := inv.top atTask unlocked quiet
  have ready : kernel.osPrioCur ∈ kernel.osRdy := by
    rw [first]
    exact inv.agrees.highest_mem
  exact ⟨unlocked, ready, (inv.agrees.agrees _ tcb held).ready.mp ready⟩

/-- The current task returns to its own code. -/
theorem Inv.returns (inv : kernel.Inv) (atTask : kernel.AtTask)
    (quiet : kernel.inSched kernel.osPrioCur = false) (unlocked : kernel.osLockNesting = 0)
    {tcb : OsTcb Message} {pool : Pool (OsEvent Message)}
    (agrees : Kernel.Agrees { kernel.setTcb kernel.osPrioCur tcb with osEventTbl := pool }) :
    Kernel.Inv { kernel.setTcb kernel.osPrioCur tcb with osEventTbl := pool } := by
  refine ⟨inv.running, agrees, by simp [curPlace, setTcb], ?_, ?_, ?_⟩
  · intro locked
    exact absurd unlocked (Nat.ne_of_gt locked)
  · intro pending
    exact absurd pending (by simp [setTcb, atTask.2])
  · intro _ _ _
    exact inv.top atTask unlocked quiet

omit [Inhabited Message] in
theorem osEventTaskRemove_eq (kernel : Kernel Message) {pevent : Nat} {event : OsEvent Message}
    (found : kernel.osEventTbl.contents pevent = some event) (prio : Prio) :
    kernel.osEventTaskRemove prio pevent = { kernel with
      osEventTbl := kernel.osEventTbl.store pevent
        { event with osEventTbl := event.osEventTbl.clear prio } } := by
  rw [osEventTaskRemove, found]

/-- A task that leaves a delay or a pend has been readied before. -/
theorem Inv.leave (inv : kernel.Inv) (atTask : kernel.AtTask)
    (quiet : kernel.inSched kernel.osPrioCur = false) {tcb : OsTcb Message}
    (held : kernel.osTCBPrioTbl kernel.osPrioCur = some tcb)
    {answer : Answer Message} (left : kernel.leave tcb = some (answer, after)) : after.Inv := by
  have before := inv.agrees.agrees _ tcb held
  have others (other : Prio) (_ : other ≠ kernel.osPrioCur) :
      other ∈ kernel.osRdy ↔ other ∈ kernel.osRdy := Iff.rfl
  cases placed : tcb.place with
  | app => simp [Kernel.leave, placed] at left
  | timeDly =>
      obtain ⟨unlocked, ready, runnable⟩ := inv.runnable atTask quiet held (by simp [placed])
      simp only [Kernel.leave, placed, Option.some.injEq, Prod.mk.injEq] at left
      obtain ⟨_, rfl⟩ := left
      let record : OsTcb Message := { tcb with place := .app }
      have none := (OsStat.pendAny_eq_false _).mp runnable.1
      have wellFormed : record.WellFormed := by
        refine ⟨fun type pends => ?_, fun timeout => ?_, fun delayed => ?_⟩
        · exact absurd pends (by simp [record, none])
        · obtain ⟨_, _, _, place⟩ := before.wellFormed.timeout timeout
          simp [placed] at place
        · exact absurd runnable.2.2 delayed
      apply inv.returns atTask quiet unlocked
      exact inv.agrees.setTcb_unlisted held (tcb.not_waits fun _ _ => by simp [placed])
        (record.not_waits fun _ _ => by simp [record]) wellFormed others
        (iff_of_true ready runnable) fun _ => ⟨rfl, runnable⟩
  | pend type pevent =>
      obtain ⟨unlocked, ready, runnable⟩ := inv.runnable atTask quiet held (by simp [placed])
      have none := (OsStat.pendAny_eq_false _).mp runnable.1
      let record : OsTcb Message := { tcb with
        osTCBStat := .rdy
        osTCBStatPend := .pendOk
        osTCBMsg := if type = .q then default else tcb.osTCBMsg
        place := .app }
      have awake : record.Runnable := ⟨rfl, rfl, runnable.2.2⟩
      have wellFormed : record.WellFormed := by
        refine ⟨fun other pends => ?_, fun timeout => by simp [record] at timeout, fun delayed => ?_⟩
        · cases other <;> exact Bool.noConfusion pends
        · exact absurd awake.2.2 delayed
      have unwaiting := record.not_waits fun _ _ => by simp [record]
      simp only [Kernel.leave, placed, endPend, Option.some.injEq] at left
      cases status : tcb.osTCBStatPend with
      | pendTo =>
          simp only [status, Prod.mk.injEq] at left
          obtain ⟨_, rfl⟩ := left
          obtain ⟨event, found, _⟩ := before.live pevent type ⟨placed, Or.inr status⟩
          have unlisted := before.cleared event placed
          have agrees := inv.agrees.update others
            (.store found fun other different => by simp [different])
            (OsTcb.agrees_unlisted wellFormed (iff_of_true ready awake) unlisted unwaiting)
            (fun _ => ⟨rfl, awake⟩)
            fun block entry stored member => absurd member (unlisted block entry stored)
          rw [osEventTaskRemove_eq (kernel.setTcb kernel.osPrioCur record) found]
          exact inv.returns atTask quiet unlocked agrees
      | pendOk =>
          simp only [status, Prod.mk.injEq] at left
          obtain ⟨_, rfl⟩ := left
          apply inv.returns atTask quiet unlocked
          exact inv.agrees.setTcb_unlisted held (fun block kind waits => by
            simp [OsTcb.Waits, none, status] at waits) unwaiting wellFormed others
            (iff_of_true ready awake) fun _ => ⟨rfl, awake⟩
      | pendAbort =>
          simp only [status, Prod.mk.injEq] at left
          obtain ⟨_, rfl⟩ := left
          apply inv.returns atTask quiet unlocked
          exact inv.agrees.setTcb_unlisted held (fun block kind waits => by
            simp [OsTcb.Waits, none, status] at waits) unwaiting wellFormed others
            (iff_of_true ready awake) fun _ => ⟨rfl, awake⟩

/-- One pass of the tick loop changes at most the delay of one task. -/
theorem Inv.tickTask (inv : kernel.Inv) (inside : 0 < kernel.osIntNesting) (prio : Prio) :
    (kernel.osTimeTickTask prio).Inv := by
  have vacuous (after : Kernel Message) (atTask : kernel.AtTask)
      (_ : kernel.osPrioCur = kernel.osRdy.highest) : kernel.osPrioCur = after.osRdy.highest := by
    have outside := atTask.1
    omega
  unfold osTimeTickTask
  cases held : kernel.osTCBPrioTbl prio with
  | none => exact inv
  | some ptcb =>
      dsimp only
      split
      next delayed =>
        split
        next =>
          have placed : (endDlyTcb ptcb).place = ptcb.place := by
            unfold endDlyTcb
            split <;> rfl
          exact inv.keeps (Or.inl inside) (inv.agrees.endDly held delayed)
            (keeps_setTcb _ _ held placed) (vacuous _)
        next later =>
          have before := inv.agrees.agrees prio ptcb held
          let record : OsTcb Message := { ptcb with osTCBDly := ptcb.osTCBDly - 1 }
          have asleep : ¬ ptcb.Runnable := fun runnable => delayed runnable.2.2
          have wellFormed : record.WellFormed := by
            refine ⟨before.wellFormed.pends, fun timeout => ?_,
              fun _ => before.wellFormed.delayed delayed⟩
            exact absurd (before.wellFormed.timeout timeout).1 delayed
          have waits (pevent : Nat) (type : OsEventType) :
              record.Waits pevent type ↔ ptcb.Waits pevent type := Iff.rfl
          have agrees := inv.agrees.setTcb_waits held waits wellFormed (fun _ _ => Iff.rfl)
            (iff_of_false (mt before.ready.mp asleep) fun runnable => later runnable.2.2)
            fun idle => by
              obtain ⟨record, found, _, runnable⟩ := inv.agrees.idle
              exact absurd (Option.some.inj (held.symm.trans (idle ▸ found)) ▸ runnable) asleep
          exact inv.keeps (Or.inl inside) agrees (keeps_setTcb _ _ held rfl) (vacuous _)
      next => exact inv

theorem Inv.intExit (inv : kernel.Inv) : kernel.osIntExit.Inv := by
  unfold osIntExit
  dsimp only
  split
  next =>
    split
    next unlocked => exact Inv.schedule inv.running inv.agrees inv.current unlocked
    next locked =>
      refine ⟨inv.running, inv.agrees, inv.current, inv.locked, ?_, fun _ unlocked => ?_⟩
      · intro pending _
        have clear := (inv.locked (Nat.pos_of_ne_zero locked)).1
        exact absurd pending (by simp [clear])
      · exact absurd unlocked locked
  next inside =>
    refine ⟨inv.running, inv.agrees, inv.current, inv.locked, ?_, ?_⟩
    · intro _ outside
      exact absurd outside inside
    · intro atTask
      exact absurd atTask.1 inside

theorem Inv.pendSvHandler (inv : kernel.Inv) (outside : kernel.osIntNesting = 0)
    (pending : kernel.pendSv = true) : kernel.pendSvHandler.Inv := by
  have first := inv.high pending outside
  have ready := inv.agrees.highest_mem
  refine ⟨inv.running, inv.agrees, ?_, ?_, fun _ _ => first, fun _ _ _ => first⟩
  · intro gone
    have absent : kernel.osTCBPrioTbl kernel.osPrioHighRdy = none := by
      simpa [curPlace, Kernel.pendSvHandler] using gone
    exact (inv.agrees.absent _ absent).1 (first ▸ ready)
  · intro locked
    have clear := (inv.locked locked).1
    simp [pending] at clear

/-- Each step of a task or of a handler keeps the invariant. -/
theorem Inv.act (inv : kernel.Inv) {action : Action Message} {answer : Answer Message}
    (acted : kernel.act action = some (answer, after)) : after.Inv := by
  cases action with
  | call service =>
      simp only [Kernel.act] at acted
      split at acted
      next enters =>
        have served := inv.serve enters.2 enters.1
        rw [Option.some.inj acted] at served
        exact served
      next => contradiction
  | sched =>
      simp only [Kernel.act] at acted
      split at acted
      next enters =>
        obtain ⟨_, rfl⟩ := Prod.mk.inj (Option.some.inj acted)
        exact inv.sched enters.1
      next => contradiction
  | leave =>
      simp only [Kernel.act] at acted
      split at acted
      next enters =>
        obtain ⟨tcb, held, left⟩ := Option.bind_eq_some_iff.mp acted
        exact inv.leave enters.1 enters.2 held left
      next => contradiction
  | pendSv =>
      simp only [Kernel.act] at acted
      split at acted
      next enters =>
        obtain ⟨_, rfl⟩ := Prod.mk.inj (Option.some.inj acted)
        exact inv.pendSvHandler enters.1 enters.2
      next => contradiction
  | intEnter =>
      obtain ⟨_, rfl⟩ := Prod.mk.inj (Option.some.inj acted)
      split
      next =>
        refine ⟨inv.running, inv.agrees, inv.current, inv.locked, ?_, ?_⟩
        · intro _ outside
          exact absurd outside (Nat.succ_ne_zero _)
        · intro atTask
          exact absurd atTask.1 (Nat.succ_ne_zero _)
      next => exact inv
  | timeTick =>
      simp only [Kernel.act] at acted
      split at acted
      next =>
        obtain ⟨_, rfl⟩ := Prod.mk.inj (Option.some.inj acted)
        exact ⟨inv.running, inv.agrees, inv.current, inv.locked, inv.high, inv.top⟩
      next => contradiction
  | tickTask =>
      simp only [Kernel.act] at acted
      split at acted
      next => contradiction
      next prio rest _ =>
        split at acted
        next inside =>
          obtain ⟨_, rfl⟩ := Prod.mk.inj (Option.some.inj acted)
          have ticked := inv.tickTask inside prio
          exact ⟨ticked.running, ticked.agrees, ticked.current, ticked.locked, ticked.high,
            ticked.top⟩
        next => contradiction
  | intExit =>
      simp only [Kernel.act] at acted
      split at acted
      next =>
        obtain ⟨_, rfl⟩ := Prod.mk.inj (Option.some.inj acted)
        exact inv.intExit
      next => contradiction

/-- The state of the kernel before `OSStart`. -/
structure Prepared (kernel : Kernel Message) : Prop where
  agrees : kernel.Agrees
  stopped : kernel.osRunning = false
  outside : kernel.osIntNesting = 0
  unlocked : kernel.osLockNesting = 0
  quiet : ∀ prio tcb, kernel.osTCBPrioTbl prio = some tcb → tcb = .init

theorem Prepared.taskCreate (prepared : kernel.Prepared) (prio : Prio) :
    (kernel.osTaskCreate prio).2.Prepared := by
  unfold Kernel.osTaskCreate
  split
  next => exact prepared
  next =>
    cases absent : kernel.osTCBPrioTbl prio with
    | some _ => exact prepared
    | none =>
        dsimp only
        split
        next => exact prepared
        next =>
          rw [if_neg (by simp [prepared.stopped])]
          refine ⟨prepared.agrees.osTCBInit absent, prepared.stopped, prepared.outside,
            prepared.unlocked, ?_⟩
          intro other tcb held
          simp only [osTCBInit, setTcb, Function.update_apply] at held
          split at held
          next => exact (Option.some.inj held).symm
          next => exact prepared.quiet other tcb held

/-- The idle task alone makes the tables agree. -/
theorem osInitTables_idle : Prepared ((osInitTables : Kernel Message).osTCBInit osTaskIdlePrio) := by
  have unlisted (pevent : Nat) (event : OsEvent Message)
      (found : (Pool.initial Mailbox.osMaxEvents).contents pevent = some event) (prio : Prio) :
      prio ∉ event.osEventTbl := by
    simp [Pool.initial] at found
  refine ⟨⟨?_, ?_, ?_, ?_, List.nodup_range, fun _ _ => rfl⟩, rfl, rfl, rfl, ?_⟩
  · intro prio tcb held
    simp only [osTCBInit, setTcb, osInitTables, Function.update_apply] at held
    split at held
    next same =>
      obtain rfl := Option.some.inj held
      subst same
      exact OsTcb.init_agrees ((PrioMap.mem_set _ _ _).mpr (Or.inl rfl))
        fun pevent event found => unlisted pevent event found _
    next => contradiction
  · intro prio absent
    simp only [osTCBInit, setTcb, osInitTables, Function.update_apply] at absent
    split at absent
    next => contradiction
    next different =>
      refine ⟨fun member => ?_, fun pevent event found => unlisted pevent event found prio⟩
      obtain same | before := (PrioMap.mem_set _ _ _).mp member
      · exact different same
      · exact PrioMap.not_mem_init _ before
  · exact ⟨.init, by simp [osTCBInit, setTcb], rfl, rfl, rfl, rfl⟩
  · exact fun pevent event prio found member => absurd member (unlisted pevent event found prio)
  · intro prio tcb held
    simp only [osTCBInit, setTcb, osInitTables, Function.update_apply] at held
    split at held
    next => exact (Option.some.inj held).symm
    next => contradiction

/-- The creations before the start keep the tables consistent. -/
theorem Prepared.create (prepared : kernel.Prepared) (creation : Creation Message) :
    (kernel.serve creation.service).2.Prepared := by
  cases creation with
  | sem cnt =>
      show (kernel.osSemCreate cnt).2.Prepared
      unfold Kernel.osSemCreate
      split
      next => exact prepared
      next =>
        cases created : kernel.eventCreate (.sem cnt) with
        | none => exact prepared
        | some result =>
            obtain ⟨agrees, _, same, _⟩ := prepared.agrees.eventCreate created
            rw [same] at agrees ⊢
            exact ⟨agrees, prepared.stopped, prepared.outside, prepared.unlocked, prepared.quiet⟩
  | q start size =>
      show (kernel.osQCreate start size).2.Prepared
      unfold Kernel.osQCreate
      split
      next => exact prepared
      next =>
        cases created : kernel.eventCreate (.q (.create size start)) with
        | none => exact prepared
        | some result =>
            obtain ⟨agrees, _, same, _⟩ := prepared.agrees.eventCreate created
            rw [same] at agrees
            dsimp only
            split
            next => exact prepared
            next =>
              rw [same]
              exact ⟨agrees, prepared.stopped, prepared.outside, prepared.unlocked, prepared.quiet⟩
  | task prio => exact prepared.taskCreate prio

/-- The kernel is prepared before the start. -/
theorem prepared_creations (creations : List (Creation Message)) :
    (creations.foldl (fun kernel creation => (kernel.serve creation.service).2)
      (osInit : Kernel Message)).Prepared := by
  have prepared (kernel : Kernel Message) (prepared : kernel.Prepared) :
      (creations.foldl (fun kernel creation => (kernel.serve creation.service).2)
        kernel).Prepared := by
    induction creations generalizing kernel with
    | nil => exact prepared
    | cons creation rest ih => exact ih _ (prepared.create creation)
  exact prepared osInit (osInitTables_idle.taskCreate osTaskStatPrio)

/-- The kernel starts with the invariant. -/
theorem boot_inv (creations : List (Creation Message)) : (boot creations).Inv := by
  have ready := prepared_creations creations
  have first := ready.agrees.highest_mem
  refine ⟨rfl, ready.agrees, ?_, ?_, fun _ _ => rfl, fun atTask => ?_⟩
  · intro gone
    have absent := Option.map_eq_none_iff.mp gone
    exact (ready.agrees.absent _ absent).1 first
  · intro locked
    exact absurd ready.unlocked (Nat.ne_of_gt locked)
  · exact Bool.noConfusion atTask.2

/-- The invariant holds in each run. -/
theorem inv_of_reachable {creations : List (Creation Message)}
    (reached : (system Message).Reachable (boot creations) kernel) : kernel.Inv := by
  refine reached.invariant (boot_inv creations) ?_
  intro before action after inv _ stepped
  obtain ⟨⟨answer, next⟩, acted, rfl⟩ := Option.map_eq_some_iff.mp stepped
  exact inv.act acted

/-- The current task executes, and the scheduler is not locked. -/
def Executes (kernel : Kernel Message) : Prop :=
  kernel.AtTask ∧ kernel.inSched kernel.osPrioCur = false ∧ kernel.osLockNesting = 0

instance (kernel : Kernel Message) : Decidable kernel.Executes := inferInstanceAs (Decidable (_ ∧ _))

end Kernel

end NnpCamera.Scheduler
