/-
This file shows that the current task is the ready task of the highest priority in each run.
-/

import NnpCamera.Scheduler.Consistency

namespace NnpCamera.Scheduler
open Library

namespace Kernel
variable {Message : Type} [Inhabited Message] {kernel after middle : Kernel Message}

/-- Two kernels agree in the fields that the scheduler uses besides the ready table. -/
structure Keeps (before after : Kernel Message) : Prop where
  running : after.osRunning = before.osRunning
  intNesting : after.osIntNesting = before.osIntNesting
  lockNesting : after.osLockNesting = before.osLockNesting
  prioCur : after.osPrioCur = before.osPrioCur
  prioHighRdy : after.osPrioHighRdy = before.osPrioHighRdy
  pendSv : after.pendSv = before.pendSv
  inSched : after.inSched before.osPrioCur = before.inSched before.osPrioCur
  place : after.curPlace = before.curPlace

omit [Inhabited Message] in
theorem Keeps.refl (kernel : Kernel Message) : Keeps kernel kernel :=
  ⟨rfl, rfl, rfl, rfl, rfl, rfl, rfl, rfl⟩

omit [Inhabited Message] in
theorem Keeps.trans (first : Keeps kernel middle) (second : Keeps middle after) :
    Keeps kernel after where
  running := second.running.trans first.running
  intNesting := second.intNesting.trans first.intNesting
  lockNesting := second.lockNesting.trans first.lockNesting
  prioCur := second.prioCur.trans first.prioCur
  prioHighRdy := second.prioHighRdy.trans first.prioHighRdy
  pendSv := second.pendSv.trans first.pendSv
  inSched := by
    have same := second.inSched
    rw [first.prioCur] at same
    exact same.trans first.inSched
  place := second.place.trans first.place

omit [Inhabited Message] in
/-- A change of one control block that keeps its place. -/
theorem keeps_setTcb {prio : Prio} {tcb record : OsTcb Message} (rdy : PrioMap)
    (pool : Pool (OsEvent Message)) (held : kernel.osTCBPrioTbl prio = some tcb)
    (placed : record.place = tcb.place) :
    Keeps kernel { kernel.setTcb prio record with osRdy := rdy, osEventTbl := pool } := by
  refine ⟨rfl, rfl, rfl, rfl, rfl, rfl, rfl, ?_⟩
  show (Function.update kernel.osTCBPrioTbl prio (some record) kernel.osPrioCur).map _ =
    (kernel.osTCBPrioTbl kernel.osPrioCur).map _
  by_cases same : kernel.osPrioCur = prio
  · rw [same, Function.update_self, held, Option.map_some, Option.map_some, placed]
  · rw [Function.update_of_ne same]

/-- The tables agree, the current task exists, and a task that locks the scheduler runs its own code.
A pending context switch goes to the ready task of the highest priority. Without one, the current
task is this task, unless it is about to call `OS_Sched`. -/
structure Inv (kernel : Kernel Message) : Prop where
  running : kernel.osRunning = true
  agrees : kernel.Agrees
  current : kernel.curPlace ≠ none
  locked : 0 < kernel.osLockNesting → kernel.pendSv = false ∧ kernel.curPlace = some .app
  high : kernel.pendSv = true → kernel.osIntNesting = 0 →
    kernel.osPrioHighRdy = kernel.osRdy.highest
  top : kernel.AtTask → kernel.osLockNesting = 0 → kernel.inSched kernel.osPrioCur = false →
    kernel.osPrioCur = kernel.osRdy.highest

/-- A handler runs, or no context switch is pending. -/
def Entered (kernel : Kernel Message) : Prop := 0 < kernel.osIntNesting ∨ kernel.pendSv = false

/-- A change of the tables keeps the invariant when the current task stays the first one. -/
theorem Inv.keeps (inv : kernel.Inv) (entered : kernel.Entered) (agrees : after.Agrees)
    (keeps : Keeps kernel after)
    (first : kernel.AtTask → kernel.osPrioCur = kernel.osRdy.highest →
      kernel.osPrioCur = after.osRdy.highest) : after.Inv where
  running := keeps.running.trans inv.running
  agrees := agrees
  current := keeps.place ▸ inv.current
  locked := by
    intro locked
    rw [keeps.pendSv, keeps.place]
    exact inv.locked (keeps.lockNesting ▸ locked)
  high := by
    intro pending outside
    rw [keeps.pendSv] at pending
    rw [keeps.intNesting] at outside
    obtain inside | clear := entered
    · omega
    · simp [clear] at pending
  top := by
    intro atTask unlocked quiet
    have same : kernel.AtTask :=
      ⟨keeps.intNesting ▸ atTask.1, keeps.pendSv ▸ atTask.2⟩
    rw [keeps.prioCur] at quiet ⊢
    exact first same (inv.top same (keeps.lockNesting ▸ unlocked) (keeps.inSched ▸ quiet))

/-- A service that calls `OS_Sched` may make any task ready. -/
theorem Inv.callSched (inv : kernel.Inv) (entered : kernel.Entered) (agrees : after.Agrees)
    (keeps : Keeps kernel after) : after.callSched.Inv := by
  obtain inside | clear := entered
  · have same : after.callSched = after := by
      rw [Kernel.callSched, if_neg (by rw [keeps.intNesting]; omega)]
    rw [same]
    exact inv.keeps (Or.inl inside) agrees keeps fun atTask => absurd atTask.1 (by omega)
  · unfold Kernel.callSched
    split
    next =>
      refine ⟨keeps.running.trans inv.running, agrees, keeps.place ▸ inv.current, ?_, ?_, ?_⟩
      · intro locked
        show after.pendSv = false ∧ after.curPlace = some .app
        rw [keeps.pendSv, keeps.place]
        exact inv.locked (keeps.lockNesting ▸ locked)
      · intro pending
        have set : after.pendSv = true := pending
        rw [keeps.pendSv, clear] at set
        contradiction
      · intro _ _ quiet
        simp at quiet
    next inside =>
      apply inv.keeps (Or.inr clear) agrees keeps
      intro atTask
      exact absurd (keeps.intNesting ▸ atTask.1) inside

/-- A service that blocks the current task calls `OS_Sched`. -/
theorem Inv.blocks (running : after.osRunning = true) (agrees : after.Agrees)
    (outside : after.AtTask) (current : after.curPlace ≠ none)
    (unlocked : after.osLockNesting = 0) : after.callSched.Inv := by
  rw [Kernel.callSched, if_pos outside.1]
  refine ⟨running, agrees, current, ?_, ?_, ?_⟩
  · intro locked
    have none : after.osLockNesting ≠ 0 := Nat.ne_of_gt locked
    exact absurd unlocked none
  · intro pending
    have set : after.pendSv = true := pending
    rw [outside.2] at set
    contradiction
  · intro _ _ quiet
    simp at quiet

omit [Inhabited Message] in
theorem keeps_osEventTaskRdy (pevent : Nat) (event : OsEvent Message) (pmsg : Message)
    (msk : OsEventType) (pendStat : PendStatus) :
    Keeps kernel (kernel.osEventTaskRdy pevent event pmsg msk pendStat) := by
  cases held : kernel.osTCBPrioTbl event.osEventTbl.highest with
  | none =>
      rw [osEventTaskRdy, held]
      exact .refl kernel
  | some ptcb =>
      rw [osEventTaskRdy_eq held]
      exact keeps_setTcb _ _ held rfl

/-- One pass of the loop over a wait list. -/
theorem Agrees.pass (agrees : kernel.Agrees) {pevent : Nat} {event : OsEvent Message}
    (found : kernel.osEventTbl.contents pevent = some event) (filled : event.osEventTbl.grp ≠ 0)
    (pmsg : Message) :
    (kernel.osEventTaskRdy pevent event pmsg event.body.type .pendAbort).Agrees ∧
      (kernel.osEventTaskRdy pevent event pmsg event.body.type
        .pendAbort).osEventTbl.contents pevent =
          some { event with osEventTbl := event.osEventTbl.clear event.osEventTbl.highest } := by
  obtain ⟨ptcb, held, _⟩ := agrees.waiter found filled
  refine ⟨agrees.osEventTaskRdy found filled pmsg (by simp), ?_⟩
  rw [osEventTaskRdy_eq held]
  exact Function.update_self ..

/-- A fact that each pass keeps holds after the loop over a wait list. -/
theorem Agrees.rdyAll_invariant (agrees : kernel.Agrees) {pevent : Nat} {event : OsEvent Message}
    (found : kernel.osEventTbl.contents pevent = some event) (pmsg : Message) (tasks : Nat)
    (fact : Kernel Message → Prop) (start : fact kernel)
    (keeps : ∀ (kernel : Kernel Message) (event : OsEvent Message), kernel.Agrees →
      kernel.osEventTbl.contents pevent = some event → event.osEventTbl.grp ≠ 0 → fact kernel →
        fact (kernel.osEventTaskRdy pevent event pmsg event.body.type .pendAbort)) :
    fact (osEventTaskRdyAll pevent pmsg event.body.type .pendAbort tasks kernel) := by
  induction tasks generalizing kernel event with
  | zero => exact start
  | succ tasks ih =>
      rw [osEventTaskRdyAll, found]
      by_cases empty : event.osEventTbl.grp = 0
      · simpa only [empty, if_true] using start
      · simp only [empty, if_false]
        obtain ⟨next, stored⟩ := agrees.pass found empty pmsg
        have passed := keeps kernel event agrees found empty start
        exact @ih _ next { event with osEventTbl := event.osEventTbl.clear _ } stored passed

/-- The loop over a wait list leaves no task in it. -/
theorem Agrees.rdyAll_empty (agrees : kernel.Agrees) {pevent : Nat} {event : OsEvent Message}
    (found : kernel.osEventTbl.contents pevent = some event) (pmsg : Message) (tasks : Nat)
    (left : ∀ prio, prio ∈ event.osEventTbl → 64 ≤ prio + tasks) :
    ∃ last, (osEventTaskRdyAll pevent pmsg event.body.type .pendAbort tasks
      kernel).osEventTbl.contents pevent = some last ∧ last.osEventTbl.grp = 0 := by
  induction tasks generalizing kernel event with
  | zero =>
      refine ⟨event, found, event.osEventTbl.grp_eq_zero.mpr ?_⟩
      intro prio member
      have bound := left prio member
      omega
  | succ tasks ih =>
      rw [osEventTaskRdyAll, found]
      by_cases empty : event.osEventTbl.grp = 0
      · simp only [empty, if_true]
        exact ⟨event, found, empty⟩
      · simp only [empty, if_false]
        obtain ⟨next, stored⟩ := agrees.pass found empty pmsg
        have fewer (prio : Prio) (member : prio ∈ event.osEventTbl.clear event.osEventTbl.highest) :
            64 ≤ prio + tasks := by
          obtain ⟨different, before⟩ := (event.osEventTbl.mem_clear _ _).mp member
          obtain ⟨first, least⟩ := event.osEventTbl.highest_least prio before
          have above : event.osEventTbl.highest.val ≤ prio.val := least prio before
          have bound := left _ first
          have apart := Fin.val_ne_of_ne different
          omega
        exact @ih _ next { event with osEventTbl := event.osEventTbl.clear _ } stored fewer

/-- The loop over a wait list readies all tasks in it. -/
theorem Agrees.rdyAll (agrees : kernel.Agrees) {pevent : Nat} {event : OsEvent Message}
    (found : kernel.osEventTbl.contents pevent = some event) (pmsg : Message) :
    (osEventTaskRdyAll pevent pmsg event.body.type .pendAbort 64 kernel).Agrees ∧
      Keeps kernel (osEventTaskRdyAll pevent pmsg event.body.type .pendAbort 64 kernel) ∧
      ∃ last, (osEventTaskRdyAll pevent pmsg event.body.type .pendAbort 64
        kernel).osEventTbl.contents pevent = some last ∧ last.osEventTbl.grp = 0 := by
  refine ⟨?_, ?_, agrees.rdyAll_empty found pmsg 64 fun prio _ => by omega⟩
  · apply agrees.rdyAll_invariant found pmsg 64 Kernel.Agrees agrees
    intro kernel event agrees found filled _
    exact (agrees.pass found filled pmsg).1
  · apply agrees.rdyAll_invariant found pmsg 64 (Keeps kernel) (.refl kernel)
    intro _ _ _ _ _ before
    exact before.trans (keeps_osEventTaskRdy _ _ _ _ _)

/-- A handler or the current task enters a service. -/
def Enters (kernel : Kernel Message) : Prop := 0 < kernel.osIntNesting ∨ kernel.AtApp

omit [Inhabited Message] in
theorem Enters.entered (enters : kernel.Enters) : kernel.Entered :=
  enters.imp_right fun atApp => atApp.1.2

omit [Inhabited Message] in
theorem AtApp.place {tcb : OsTcb Message} (atApp : kernel.AtApp)
    (held : kernel.osTCBPrioTbl kernel.osPrioCur = some tcb) : tcb.place = .app := by
  have placed := atApp.2.2.1
  rw [curPlace, held, Option.map_some, Option.some.injEq] at placed
  exact placed

omit [Inhabited Message] in
theorem eventOf_eq_some {pevent : Nat} {type : OsEventType} {event : OsEvent Message}
    (found : kernel.eventOf pevent type = some event) :
    kernel.osEventTbl.contents pevent = some event ∧ event.body.type = type := by
  simpa [eventOf, Option.filter_eq_some_iff] using found

theorem Inv.osTimeDly (inv : kernel.Inv) (enters : kernel.Enters) (ticks : Nat) :
    (kernel.osTimeDly ticks).2.Inv := by
  unfold Kernel.osTimeDly
  split
  next => exact inv
  next outside =>
    have atApp := enters.resolve_left outside
    split
    next => exact inv
    next unlocked =>
      split
      next positive =>
        cases held : kernel.osTCBPrioTbl kernel.osPrioCur with
        | none => exact inv
        | some tcb =>
            have placed := atApp.place held
            have before := inv.agrees.agrees _ tcb held
            have none := before.wellFormed.pendAny_eq_false fun _ _ => by simp [placed]
            let record : OsTcb Message := { tcb with osTCBDly := ticks, place := .timeDly }
            have wellFormed : record.WellFormed := by
              refine ⟨fun type pends => ?_, fun timeout => ?_, fun _ => Or.inl rfl⟩
              · have clear := (OsStat.pendAny_eq_false _).mp none type
                simp [record, clear] at pends
              · obtain ⟨_, _, _, place⟩ := before.wellFormed.timeout timeout
                simp [placed] at place
            have asleep : ¬ record.Runnable := fun runnable => Nat.ne_of_gt positive runnable.2.2
            have others (other : Prio) (different : other ≠ kernel.osPrioCur) :
                other ∈ kernel.osRdy.clear kernel.osPrioCur ↔ other ∈ kernel.osRdy := by
              simp [different]
            have agrees := inv.agrees.setTcb_unlisted held
              (tcb.not_waits fun _ _ => by simp [placed])
              (record.not_waits fun _ _ => by simp [record]) wellFormed others
              (iff_of_false (by simp) asleep) fun idle => absurd idle atApp.2.2.2
            exact Inv.blocks inv.running agrees atApp.1 (by simp [curPlace, setTcb])
              (Nat.eq_zero_of_not_pos unlocked)
      next => exact inv

theorem Inv.osTimeDlyResume (inv : kernel.Inv) (enters : kernel.Enters) (prio : Prio) :
    (kernel.osTimeDlyResume prio).2.Inv := by
  unfold Kernel.osTimeDlyResume
  split
  next => exact inv
  next =>
    cases held : kernel.osTCBPrioTbl prio with
    | none => exact inv
    | some ptcb =>
        by_cases delayed : ptcb.osTCBDly = 0
        · simpa [delayed] using inv
        · simp only [delayed, if_false]
          have agrees := inv.agrees.endDly held delayed
          have placed : (endDlyTcb ptcb).place = ptcb.place := by
            unfold endDlyTcb
            split <;> rfl
          have keeps : Keeps kernel (kernel.endDly prio ptcb) := keeps_setTcb _ _ held placed
          split
          next suspended =>
            apply inv.keeps enters.entered agrees keeps
            intro _ same
            simpa [endDly, suspended] using same
          next => exact inv.callSched enters.entered agrees keeps

/-- A new content of an event leaves the scheduler alone. -/
theorem Inv.storeBody (inv : kernel.Inv) (entered : kernel.Entered) {pevent : Nat}
    {event : OsEvent Message} {body : OsEventBody Message}
    (found : kernel.osEventTbl.contents pevent = some event) (type : body.type = event.body.type)
    (empty : ∀ prio, prio ∈ event.osEventTbl → body.items = []) :
    Kernel.Inv { kernel with
      osEventTbl := kernel.osEventTbl.store pevent { event with body := body } } :=
  inv.keeps entered (inv.agrees.storeBody found type empty) ⟨rfl, rfl, rfl, rfl, rfl, rfl, rfl, rfl⟩
    fun _ same => same

/-- The first item of an event is taken only when no task waits for the event. -/
theorem Inv.take (inv : kernel.Inv) (entered : kernel.Entered) {pevent : Nat}
    {event : OsEvent Message} {body : OsEventBody Message} {pmsg : Message}
    (found : kernel.osEventTbl.contents pevent = some event)
    (taken : event.body.take = some (pmsg, body)) :
    Kernel.Inv { kernel with
      osEventTbl := kernel.osEventTbl.store pevent { event with body := body } } := by
  obtain ⟨items, type⟩ := OsEventBody.take_eq_some taken
  apply inv.storeBody entered found type
  intro prio member
  have none := inv.agrees.items pevent event prio found member
  simp [items] at none

theorem Inv.osSemCreate (inv : kernel.Inv) (enters : kernel.Enters) (cnt : Nat) :
    (kernel.osSemCreate cnt).2.Inv := by
  unfold Kernel.osSemCreate
  split
  next => exact inv
  next =>
    cases created : kernel.eventCreate (.sem cnt) with
    | none => exact inv
    | some result =>
        obtain ⟨agrees, _, same, _⟩ := inv.agrees.eventCreate created
        rw [same] at agrees ⊢
        exact inv.keeps enters.entered agrees ⟨rfl, rfl, rfl, rfl, rfl, rfl, rfl, rfl⟩
          fun _ first => first

theorem Inv.osQCreate (inv : kernel.Inv) (enters : kernel.Enters) (start : Nat → Message)
    (size : Nat) : (kernel.osQCreate start size).2.Inv := by
  unfold Kernel.osQCreate
  split
  next => exact inv
  next =>
    cases created : kernel.eventCreate (.q (.create size start)) with
    | none => exact inv
    | some result =>
        obtain ⟨agrees, _, same, _⟩ := inv.agrees.eventCreate created
        rw [same] at agrees
        dsimp only
        split
        next => exact inv
        next =>
          rw [same]
          exact inv.keeps enters.entered agrees ⟨rfl, rfl, rfl, rfl, rfl, rfl, rfl, rfl⟩
            fun _ first => first

theorem Inv.eventPend (inv : kernel.Inv) (enters : kernel.Enters) (type : OsEventType)
    (pevent timeout : Nat) : (kernel.eventPend type pevent timeout).2.Inv := by
  unfold Kernel.eventPend
  cases found : kernel.eventOf pevent type with
  | none => exact inv
  | some event =>
      obtain ⟨stored, rfl⟩ := eventOf_eq_some found
      dsimp only
      split
      next => exact inv
      next outside =>
        have atApp := enters.resolve_left outside
        split
        next => exact inv
        next unlocked =>
          cases taken : event.body.take with
          | some result => exact inv.take enters.entered stored taken
          | none =>
              cases held : kernel.osTCBPrioTbl kernel.osPrioCur with
              | none => exact inv
              | some tcb =>
                  have agrees := inv.agrees.osEventTaskWait stored
                    (OsEventBody.take_eq_none.mp taken) held (atApp.place held) atApp.2.2.2 timeout
                  exact Inv.blocks inv.running agrees atApp.1 (by simp [curPlace, osEventTaskWait, setTcb])
                    (Nat.eq_zero_of_not_pos unlocked)

theorem Inv.eventAccept (inv : kernel.Inv) (enters : kernel.Enters) (type : OsEventType)
    (empty : UInt8) (pevent : Nat) : (kernel.eventAccept type empty pevent).2.Inv := by
  unfold Kernel.eventAccept
  cases found : kernel.eventOf pevent type with
  | none => exact inv
  | some event =>
      obtain ⟨stored, rfl⟩ := eventOf_eq_some found
      cases taken : event.body.take with
      | some result => simpa [taken] using inv.take enters.entered stored taken
      | none => simpa [taken] using inv

theorem Inv.eventPost (inv : kernel.Inv) (enters : kernel.Enters) (type : OsEventType)
    (full : UInt8) (pevent : Nat) (pmsg : Message) (token : type = .sem → pmsg = default) :
    (kernel.eventPost type full pevent pmsg).2.Inv := by
  unfold Kernel.eventPost
  cases found : kernel.eventOf pevent type with
  | none => exact inv
  | some event =>
      obtain ⟨stored, rfl⟩ := eventOf_eq_some found
      dsimp only
      split
      next filled =>
        exact inv.callSched enters.entered
          (inv.agrees.osEventTaskRdy stored filled pmsg (by simp))
          (keeps_osEventTaskRdy _ _ _ _ _)
      next empty =>
        have none := event.osEventTbl.grp_eq_zero.mp (not_not.mp empty)
        cases put : event.body.put pmsg with
        | none => exact inv
        | some body =>
            obtain ⟨_, same⟩ := OsEventBody.put_eq_some put token
            exact inv.storeBody enters.entered stored same fun prio member =>
              absurd member (none prio)

theorem Inv.eventPendAbort (inv : kernel.Inv) (enters : kernel.Enters) (type : OsEventType)
    (pevent : Nat) (broadcast : Bool) : (kernel.eventPendAbort type pevent broadcast).2.Inv := by
  unfold Kernel.eventPendAbort
  cases found : kernel.eventOf pevent type with
  | none => exact inv
  | some event =>
      obtain ⟨stored, rfl⟩ := eventOf_eq_some found
      dsimp only
      split
      next filled =>
        cases broadcast with
        | true =>
            obtain ⟨agrees, keeps, _⟩ := inv.agrees.rdyAll stored default
            exact inv.callSched enters.entered agrees keeps
        | false =>
            exact inv.callSched enters.entered
              (inv.agrees.osEventTaskRdy stored filled default (by simp))
              (keeps_osEventTaskRdy _ _ _ _ _)
      next => exact inv

theorem Inv.eventDel (inv : kernel.Inv) (enters : kernel.Enters) (type : OsEventType)
    (pevent : Nat) (opt : DelOpt) : (kernel.eventDel type pevent opt).2.Inv := by
  unfold Kernel.eventDel
  cases found : kernel.eventOf pevent type with
  | none => exact inv
  | some event =>
      obtain ⟨stored, rfl⟩ := eventOf_eq_some found
      dsimp only
      split
      next => exact inv
      next =>
        cases opt with
        | noPend =>
            dsimp only
            split
            next empty =>
              exact inv.keeps enters.entered (inv.agrees.eventFree stored empty _)
                ⟨rfl, rfl, rfl, rfl, rfl, rfl, rfl, rfl⟩ fun _ first => first
            next => exact inv
        | always =>
            obtain ⟨agrees, keeps, last, left, empty⟩ := inv.agrees.rdyAll stored default
            have freed := agrees.eventFree left empty event.body.type
            have kept : Keeps kernel (eventFree _ event.body.type pevent) :=
              keeps.trans ⟨rfl, rfl, rfl, rfl, rfl, rfl, rfl, rfl⟩
            dsimp only
            split
            next => exact inv.callSched enters.entered freed kept
            next unlisted =>
              apply inv.keeps enters.entered freed kept
              intro _ first
              have none := not_not.mp unlisted
              simpa [osEventTaskRdyAll, stored, none, eventFree] using first
        | other => exact inv

theorem Inv.osTaskCreate (inv : kernel.Inv) (enters : kernel.Enters) (prio : Prio) :
    (kernel.osTaskCreate prio).2.Inv := by
  unfold Kernel.osTaskCreate
  split
  next => exact inv
  next =>
    cases absent : kernel.osTCBPrioTbl prio with
    | some _ => exact inv
    | none =>
        have agrees := inv.agrees.osTCBInit absent
        have different : kernel.osPrioCur ≠ prio := by
          rintro rfl
          exact inv.current (by simp [curPlace, absent])
        have keeps : Keeps kernel (kernel.osTCBInit prio) := by
          refine ⟨rfl, rfl, rfl, rfl, rfl, rfl, Function.update_of_ne different .., ?_⟩
          simp [curPlace, osTCBInit, setTcb, different]
        dsimp only
        split
        next => exact inv
        next =>
          rw [if_pos inv.running]
          exact inv.callSched enters.entered agrees keeps

/-- The ready table is never empty. -/
theorem Agrees.highest_mem (agrees : kernel.Agrees) : kernel.osRdy.highest ∈ kernel.osRdy := by
  obtain ⟨tcb, held, _, runnable⟩ := agrees.idle
  have ready := (agrees.agrees _ tcb held).ready.mpr runnable
  exact (kernel.osRdy.highest_least _ ready).1

/-- The suspension of another task leaves the first task. -/
theorem Agrees.highest_clear (agrees : kernel.Agrees) {prio : Prio}
    (different : prio ≠ kernel.osRdy.highest) :
    (kernel.osRdy.clear prio).highest = kernel.osRdy.highest := by
  have ready := agrees.highest_mem
  apply PrioMap.highest_eq
  · simpa [Ne.symm different] using ready
  · intro other member
    exact (kernel.osRdy.highest_least _ ready).2 other ((PrioMap.mem_clear _ _ _).mp member).2

theorem Inv.osTaskSuspend (inv : kernel.Inv) (enters : kernel.Enters) {prio : Prio}
    (busy : prio ≠ osTaskIdlePrio) : (kernel.osTaskSuspend prio).2.Inv := by
  unfold Kernel.osTaskSuspend
  cases held : kernel.osTCBPrioTbl prio with
  | none => exact inv
  | some ptcb =>
      have before := (inv.agrees.agrees prio ptcb held).wellFormed
      let record : OsTcb Message :=
        { ptcb with osTCBStat := { ptcb.osTCBStat with suspend := true } }
      have others (other : Prio) (different : other ≠ prio) :
          other ∈ kernel.osRdy.clear prio ↔ other ∈ kernel.osRdy := by
        simp [different]
      have asleep : ¬ record.Runnable := fun runnable => Bool.noConfusion runnable.2.1
      have waits (pevent : Nat) (type : OsEventType) :
          record.Waits pevent type ↔ ptcb.Waits pevent type := Iff.rfl
      have agrees := inv.agrees.setTcb_waits held waits
        ⟨before.pends, before.timeout, before.delayed⟩ others (iff_of_false (by simp) asleep)
        fun idle => absurd idle busy
      have keeps := keeps_setTcb (kernel.osRdy.clear prio) kernel.osEventTbl held
        (show record.place = ptcb.place from rfl)
      dsimp only
      split
      next => exact inv.callSched enters.entered agrees keeps
      next different =>
        apply inv.keeps enters.entered agrees keeps
        intro _ first
        rw [first] at different ⊢
        exact (inv.agrees.highest_clear different).symm

theorem Inv.osTaskResume (inv : kernel.Inv) (enters : kernel.Enters) (prio : Prio) :
    (kernel.osTaskResume prio).2.Inv := by
  unfold Kernel.osTaskResume
  cases held : kernel.osTCBPrioTbl prio with
  | none => exact inv
  | some ptcb =>
      dsimp only
      split
      next suspended =>
        have before := inv.agrees.agrees prio ptcb held
        let record : OsTcb Message :=
          { ptcb with osTCBStat := { ptcb.osTCBStat with suspend := false } }
        have asleep : ¬ ptcb.Runnable := fun runnable => by simp [runnable.2.1] at suspended
        have waits (pevent : Nat) (type : OsEventType) :
            record.Waits pevent type ↔ ptcb.Waits pevent type := Iff.rfl
        have wellFormed : record.WellFormed :=
          ⟨before.wellFormed.pends, before.wellFormed.timeout, before.wellFormed.delayed⟩
        have busy : prio ≠ osTaskIdlePrio := by
          rintro rfl
          obtain ⟨idle, found, _, runnable⟩ := inv.agrees.idle
          exact asleep (Option.some.inj (held.symm.trans found) ▸ runnable)
        have runnable : record.Runnable ↔
            ptcb.osTCBStat.pendAny = false ∧ ptcb.osTCBDly = 0 := by
          show ptcb.osTCBStat.pendAny = false ∧ false = false ∧ ptcb.osTCBDly = 0 ↔ _
          simp
        split
        next free =>
          have others (other : Prio) (different : other ≠ prio) :
              other ∈ kernel.osRdy.set prio ↔ other ∈ kernel.osRdy := by
            simp [different]
          have agrees := inv.agrees.setTcb_waits held waits wellFormed others
            (iff_of_true (by simp) (runnable.mpr free)) fun idle => absurd idle busy
          exact inv.callSched enters.entered agrees (keeps_setTcb _ _ held rfl)
        next blocked =>
          have agrees := inv.agrees.setTcb_waits held waits wellFormed (fun _ _ => Iff.rfl)
            (iff_of_false (mt before.ready.mp asleep) (mt runnable.mp blocked))
            fun idle => absurd idle busy
          exact inv.keeps enters.entered agrees (keeps_setTcb _ _ held rfl) fun _ first => first
      next => exact inv

theorem Inv.osSchedLock (inv : kernel.Inv) (enters : kernel.Enters) :
    kernel.osSchedLock.2.Inv := by
  unfold Kernel.osSchedLock
  split
  next outside =>
    have atApp := enters.resolve_left (by omega)
    refine ⟨inv.running, inv.agrees, inv.current, fun _ => ⟨atApp.1.2, atApp.2.2.1⟩, ?_, ?_⟩
    · exact inv.high
    · intro _ unlocked
      exact absurd unlocked (Nat.succ_ne_zero _)
  next => exact inv

theorem Inv.osSchedUnlock (inv : kernel.Inv) (enters : kernel.Enters) :
    kernel.osSchedUnlock.2.Inv := by
  unfold Kernel.osSchedUnlock
  split
  next outside =>
    have atApp := enters.resolve_left (by omega)
    dsimp only
    split
    next unlocked =>
      exact Inv.blocks inv.running inv.agrees atApp.1 inv.current unlocked
    next locked =>
      refine ⟨inv.running, inv.agrees, inv.current, fun _ => ⟨atApp.1.2, atApp.2.2.1⟩, ?_, ?_⟩
      · exact inv.high
      · intro _ unlocked
        exact absurd unlocked locked
  next => exact inv

/-- Each service keeps the invariant. -/
theorem Inv.serve (inv : kernel.Inv) (enters : kernel.Enters) {service : Service Message}
    (permitted : Permits service) : (kernel.serve service).2.Inv := by
  cases service with
  | timeDly ticks => exact inv.osTimeDly enters ticks
  | timeDlyResume prio => exact inv.osTimeDlyResume enters prio
  | semCreate cnt => exact inv.osSemCreate enters cnt
  | semPend pevent timeout => exact inv.eventPend enters .sem pevent timeout
  | semAccept pevent => exact inv.eventAccept enters .sem 0 pevent
  | semPost pevent => exact inv.eventPost enters .sem _ pevent default fun _ => rfl
  | semPendAbort pevent broadcast => exact inv.eventPendAbort enters .sem pevent broadcast
  | semDel pevent opt => exact inv.eventDel enters .sem pevent opt
  | qCreate start size => exact inv.osQCreate enters start size
  | qPend pevent timeout => exact inv.eventPend enters .q pevent timeout
  | qAccept pevent => exact inv.eventAccept enters .q _ pevent
  | qPost pevent pmsg => exact inv.eventPost enters .q _ pevent pmsg (by simp)
  | qPendAbort pevent broadcast => exact inv.eventPendAbort enters .q pevent broadcast
  | qDel pevent opt => exact inv.eventDel enters .q pevent opt
  | taskCreate prio => exact inv.osTaskCreate enters prio
  | taskSuspend prio => exact inv.osTaskSuspend enters permitted
  | taskResume prio => exact inv.osTaskResume enters prio
  | schedLock => exact inv.osSchedLock enters
  | schedUnlock => exact inv.osSchedUnlock enters

end Kernel

end NnpCamera.Scheduler
