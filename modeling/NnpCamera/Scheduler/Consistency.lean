/-
This file shows that the ready table, the wait lists and the task control blocks agree in each run.
-/

import NnpCamera.Scheduler.Services

namespace NnpCamera.Scheduler
open Library

variable {Message : Type}

namespace OsStat
variable (stat : OsStat) (type other : OsEventType)

@[simp] theorem pends_set :
    (stat.set type).pends other = true ↔ other = type ∨ stat.pends other = true := by
  cases type <;> cases other <;> simp [set, pends]

@[simp] theorem pends_clear :
    (stat.clear type).pends other = true ↔ other ≠ type ∧ stat.pends other = true := by
  cases type <;> cases other <;> simp [clear, pends]

@[simp] theorem suspend_clear : (stat.clear type).suspend = stat.suspend := by
  cases type <;> rfl

@[simp] theorem suspend_set : (stat.set type).suspend = stat.suspend := by
  cases type <;> rfl

/-- No bit of `OS_STAT_PEND_ANY` is set. -/
theorem pendAny_eq_false : stat.pendAny = false ↔ ∀ type, stat.pends type = false := by
  constructor
  · intro none type
    cases type <;> simp_all [pendAny, pends]
  · intro none
    have sem := none .sem
    have q := none .q
    simp_all [pendAny, pends]

@[simp] theorem pends_clearAny : stat.clearAny.pends type = false := by
  cases type <;> rfl

end OsStat

namespace OsEventBody
variable [Inhabited Message] {body rest : OsEventBody Message} {pmsg : Message}

theorem take_eq_none : body.take = none ↔ body.items = [] := by
  cases body with
  | sem osEventCnt => cases osEventCnt <;> simp [take, items, List.replicate_succ]
  | q osQ =>
      cases stored : osQ.contents with
      | nil => simp [take, items, stored, CountedRing.pop, osQ.contents_eq_nil.mp stored]
      | cons value rest =>
          obtain ⟨after, popped, _⟩ := osQ.pop_contents stored
          simp [take, items, stored, popped]

/-- A take gives the first item. -/
theorem take_eq_some (taken : body.take = some (pmsg, rest)) :
    body.items = pmsg :: rest.items ∧ rest.type = body.type := by
  cases body with
  | sem osEventCnt =>
      cases osEventCnt with
      | zero => simp [take] at taken
      | succ count =>
          simp only [take, Nat.zero_lt_succ, if_true, Option.some.injEq, Prod.mk.injEq] at taken
          obtain ⟨rfl, rfl⟩ := taken
          exact ⟨rfl, rfl⟩
  | q osQ =>
      cases stored : osQ.contents with
      | nil => simp [take, CountedRing.pop, osQ.contents_eq_nil.mp stored] at taken
      | cons value others =>
          obtain ⟨after, popped, _, left⟩ := osQ.pop_contents stored
          simp only [take, popped, Option.map_some, Option.some.injEq, Prod.mk.injEq] at taken
          obtain ⟨rfl, rfl⟩ := taken
          exact ⟨by simp [items, stored, left], rfl⟩

/-- A put appends an item. The item of a semaphore is the null pointer. -/
theorem put_eq_some (stored : body.put pmsg = some rest)
    (token : body.type = .sem → pmsg = default) :
    rest.items = body.items ++ [pmsg] ∧ rest.type = body.type := by
  cases body with
  | sem osEventCnt =>
      simp only [put] at stored
      split at stored
      next =>
        obtain rfl := Option.some.inj stored
        simp [items, type, token rfl, List.replicate_succ']
      next => contradiction
  | q osQ =>
      by_cases room : osQ.entries < osQ.size
      · obtain ⟨after, pushed, _, appended⟩ := osQ.pushBack_contents pmsg room
        simp only [put, pushed, Option.map_some, Option.some.injEq] at stored
        subst stored
        exact ⟨appended, rfl⟩
      · simp [put, CountedRing.pushBack, Nat.le_of_not_lt room] at stored

end OsEventBody

namespace OsTcb
variable (tcb : OsTcb Message)

/-- A task can run when it waits for no event, is not suspended and is not delayed. -/
def Runnable : Prop :=
  tcb.osTCBStat.pendAny = false ∧ tcb.osTCBStat.suspend = false ∧ tcb.osTCBDly = 0

/-- A task is in the wait list of an event from its pend on, until it gets an item or is aborted.
After a timeout it stays there until it runs again. -/
def Waits (pevent : Nat) (type : OsEventType) : Prop :=
  tcb.place = .pend type pevent ∧ (tcb.osTCBStat.pends type = true ∨ tcb.osTCBStatPend = .pendTo)

/-- A task with a pending bit is inside a pend of that kind. A task has a timeout only inside a
pend. A delayed task is inside a delay or waits. -/
structure WellFormed : Prop where
  pends : ∀ type, tcb.osTCBStat.pends type = true →
    tcb.osTCBStatPend = .pendOk ∧ ∃ pevent, tcb.place = .pend type pevent
  timeout : tcb.osTCBStatPend = .pendTo →
    tcb.osTCBDly = 0 ∧ ∃ type pevent, tcb.place = .pend type pevent
  delayed : tcb.osTCBDly ≠ 0 → tcb.place = .timeDly ∨ tcb.osTCBStat.pendAny = true

/-- The tables agree with the control block of a task. -/
structure Agrees (rdy : PrioMap) (events : Nat → Option (OsEvent Message)) (prio : Prio) : Prop where
  wellFormed : tcb.WellFormed
  ready : prio ∈ rdy ↔ tcb.Runnable
  waits : ∀ pevent event, events pevent = some event →
    (prio ∈ event.osEventTbl ↔ tcb.Waits pevent event.body.type)
  live : ∀ pevent type, tcb.Waits pevent type →
    ∃ event, events pevent = some event ∧ event.body.type = type

end OsTcb

section Tables
variable [Inhabited Message]

/-- The tables of the kernel agree with each other. No task waits for an event that has items. -/
structure Consistent (rdy : PrioMap) (tasks : Prio → Option (OsTcb Message))
    (pool : Pool (OsEvent Message)) : Prop where
  agrees : ∀ prio tcb, tasks prio = some tcb → tcb.Agrees rdy pool.contents prio
  absent : ∀ prio, tasks prio = none →
    prio ∉ rdy ∧ ∀ pevent event, pool.contents pevent = some event → prio ∉ event.osEventTbl
  idle : ∃ tcb, tasks osTaskIdlePrio = some tcb ∧ tcb.place = .app ∧ tcb.Runnable
  items : ∀ pevent event prio, pool.contents pevent = some event → prio ∈ event.osEventTbl →
    event.body.items = []
  nodup : pool.free.Nodup
  unused : ∀ block ∈ pool.free, pool.contents block = none

end Tables

/-- The wait lists differ in one task only. -/
structure SameEvents (prio : Prio) (before after : Pool (OsEvent Message)) : Prop where
  free : after.free = before.free
  old : ∀ pevent event, after.contents pevent = some event →
    ∃ was, before.contents pevent = some was ∧ was.body = event.body ∧
      ∀ other, other ≠ prio → (other ∈ event.osEventTbl ↔ other ∈ was.osEventTbl)
  kept : ∀ pevent was, before.contents pevent = some was →
    ∃ event, after.contents pevent = some event ∧ was.body = event.body

namespace SameEvents
variable {prio : Prio} {pool : Pool (OsEvent Message)}

theorem refl (prio : Prio) (pool : Pool (OsEvent Message)) : SameEvents prio pool pool where
  free := rfl
  old := fun _ event held => ⟨event, held, rfl, fun _ _ => Iff.rfl⟩
  kept := fun _ was held => ⟨was, held, rfl⟩

/-- A new wait list of one event changes the membership of one task. -/
theorem store {pevent : Nat} {was : OsEvent Message} {waiting : PrioMap}
    (held : pool.contents pevent = some was)
    (same : ∀ other, other ≠ prio → (other ∈ waiting ↔ other ∈ was.osEventTbl)) :
    SameEvents prio pool (pool.store pevent { was with osEventTbl := waiting }) where
  free := rfl
  old := by
    intro block event found
    by_cases here : block = pevent
    · subst here
      simp only [Pool.store, Function.update_self, Option.some.injEq] at found
      subst found
      exact ⟨was, held, rfl, same⟩
    · simp only [Pool.store, Function.update_of_ne here] at found
      exact ⟨event, found, rfl, fun _ _ => Iff.rfl⟩
  kept := by
    intro block old found
    by_cases here : block = pevent
    · subst here
      obtain rfl := Option.some.inj (held.symm.trans found)
      exact ⟨_, Function.update_self .., rfl⟩
    · exact ⟨old, (Function.update_of_ne here ..).trans found, rfl⟩

end SameEvents

namespace OsTcb
variable {tcb : OsTcb Message} {rdy : PrioMap} {events : Nat → Option (OsEvent Message)}
  {prio : Prio} {pevent : Nat} {type : OsEventType}

/-- A task that waits has no other pending bit. -/
theorem WellFormed.pends_eq (wellFormed : tcb.WellFormed) (placed : tcb.place = .pend type pevent)
    {other : OsEventType} (pends : tcb.osTCBStat.pends other = true) : other = type := by
  obtain ⟨_, event, place⟩ := wellFormed.pends other pends
  rw [placed, Place.pend.injEq] at place
  exact place.1.symm

/-- A task that runs its own code or is in a delay has no pending bit. -/
theorem WellFormed.pendAny_eq_false (wellFormed : tcb.WellFormed)
    (placed : ∀ type pevent, tcb.place ≠ .pend type pevent) : tcb.osTCBStat.pendAny = false := by
  rw [OsStat.pendAny_eq_false]
  intro type
  by_contra held
  obtain ⟨_, event, place⟩ := wellFormed.pends type (by simpa using held)
  exact placed type event place

/-- A task outside of a pend waits for no event. -/
theorem not_waits (tcb : OsTcb Message) (placed : ∀ type pevent, tcb.place ≠ .pend type pevent)
    (pevent : Nat) (type : OsEventType) : ¬ tcb.Waits pevent type :=
  fun waits => placed type pevent waits.1

/-- A task that waits for no event agrees with tables in which it is in no wait list. -/
theorem agrees_unlisted (wellFormed : tcb.WellFormed) (ready : prio ∈ rdy ↔ tcb.Runnable)
    (unlisted : ∀ pevent event, events pevent = some event → prio ∉ event.osEventTbl)
    (idle : ∀ pevent type, ¬ tcb.Waits pevent type) : tcb.Agrees rdy events prio where
  wellFormed := wellFormed
  ready := ready
  waits := fun pevent event found => iff_of_false (unlisted pevent event found) (idle pevent _)
  live := fun pevent type waits => absurd waits (idle pevent type)

/-- A task that waits for no event is in no wait list. -/
theorem Agrees.unlisted (agrees : tcb.Agrees rdy events prio)
    (idle : ∀ pevent type, ¬ tcb.Waits pevent type) (pevent : Nat) (event : OsEvent Message)
    (found : events pevent = some event) : prio ∉ event.osEventTbl :=
  fun member => idle pevent _ ((agrees.waits pevent event found).mp member)

/-- A task becomes ready unless it is suspended. -/
theorem Agrees.readied {after : OsTcb Message} (agrees : tcb.Agrees rdy events prio)
    (runnable : after.Runnable ↔ tcb.osTCBStat.suspend = false) :
    prio ∈ (if tcb.osTCBStat.suspend then rdy else rdy.set prio) ↔ after.Runnable := by
  rw [runnable]
  split
  next suspended =>
    have unready : ¬ tcb.Runnable := fun ready => by simp [ready.2.1] at suspended
    exact iff_of_false (mt agrees.ready.mp unready) (by simp [suspended])
  next unsuspended => simp [unsuspended]

/-- A task that leaves the list of its event is in no wait list. -/
theorem Agrees.cleared {pool : Pool (OsEvent Message)} (agrees : tcb.Agrees rdy pool.contents prio)
    (event : OsEvent Message) (placed : tcb.place = .pend type pevent) (block : Nat)
    (after : OsEvent Message) (found : (pool.store pevent { event with
      osEventTbl := event.osEventTbl.clear prio }).contents block = some after) :
    prio ∉ after.osEventTbl := by
  by_cases here : block = pevent
  · subst here
    simp only [Pool.store, Function.update_self, Option.some.injEq] at found
    subst found
    simp
  · simp only [Pool.store, Function.update_of_ne here] at found
    intro member
    have waits := (agrees.waits block after found).mp member
    rw [Waits, placed, Place.pend.injEq] at waits
    exact here waits.1.2.symm

end OsTcb

section Updates
variable [Inhabited Message]

namespace OsTcb

theorem init_not_waits (pevent : Nat) (type : OsEventType) :
    ¬ (init : OsTcb Message).Waits pevent type :=
  not_waits _ (fun _ _ => by simp [init]) pevent type

/-- A new task agrees with tables in which it is ready and in no wait list. -/
theorem init_agrees {rdy : PrioMap} {events : Nat → Option (OsEvent Message)} {prio : Prio}
    (ready : prio ∈ rdy)
    (unlisted : ∀ pevent event, events pevent = some event → prio ∉ event.osEventTbl) :
    (init : OsTcb Message).Agrees rdy events prio := by
  apply agrees_unlisted ?_ (iff_of_true ready ⟨rfl, rfl, rfl⟩) unlisted init_not_waits
  refine ⟨fun type pends => ?_, fun timeout => by simp [init] at timeout, fun delayed => ?_⟩
  · cases type <;> exact Bool.noConfusion pends
  · exact absurd rfl delayed

end OsTcb

namespace Consistent
variable {rdy after : PrioMap} {tasks : Prio → Option (OsTcb Message)}
  {pool next : Pool (OsEvent Message)} {prio : Prio} {tcb : OsTcb Message}

/-- A step of one task keeps the tables consistent when it keeps them for that task. -/
theorem update (consistent : Consistent rdy tasks pool)
    (others : ∀ other, other ≠ prio → (other ∈ after ↔ other ∈ rdy))
    (events : SameEvents prio pool next) (agrees : tcb.Agrees after next.contents prio)
    (idle : prio = osTaskIdlePrio → tcb.place = .app ∧ tcb.Runnable)
    (items : ∀ pevent event, next.contents pevent = some event → prio ∈ event.osEventTbl →
      event.body.items = []) :
    Consistent after (Function.update tasks prio (some tcb)) next where
  agrees := by
    intro other record held
    by_cases same : other = prio
    · subst same
      simp only [Function.update_self, Option.some.injEq] at held
      exact held ▸ agrees
    · rw [Function.update_of_ne same] at held
      have before := consistent.agrees other record held
      refine ⟨before.wellFormed, (others other same).trans before.ready, ?_, ?_⟩
      · intro pevent event found
        obtain ⟨was, had, body, members⟩ := events.old pevent event found
        rw [members other same, before.waits pevent was had, body]
      · intro pevent type waits
        obtain ⟨was, had, type⟩ := before.live pevent type waits
        obtain ⟨event, found, body⟩ := events.kept pevent was had
        exact ⟨event, found, body ▸ type⟩
  absent := by
    intro other none
    have same : other ≠ prio := by
      rintro rfl
      simp at none
    rw [Function.update_of_ne same] at none
    obtain ⟨unready, unlisted⟩ := consistent.absent other none
    refine ⟨mt (others other same).mp unready, ?_⟩
    intro pevent event found
    obtain ⟨was, had, _, members⟩ := events.old pevent event found
    exact mt (members other same).mp (unlisted pevent was had)
  idle := by
    by_cases same : prio = osTaskIdlePrio
    · exact ⟨tcb, same ▸ Function.update_self .., idle same⟩
    · obtain ⟨record, held, placed⟩ := consistent.idle
      exact ⟨record, (Function.update_of_ne (Ne.symm same) ..).trans held, placed⟩
  items := by
    intro pevent event other found member
    by_cases same : other = prio
    · exact items pevent event found (same ▸ member)
    · obtain ⟨was, had, body, members⟩ := events.old pevent event found
      rw [← body]
      exact consistent.items pevent was other had ((members other same).mp member)
  nodup := events.free ▸ consistent.nodup
  unused := by
    intro block free
    rw [events.free] at free
    have unused := consistent.unused block free
    cases found : next.contents block with
    | none => rfl
    | some event =>
        obtain ⟨was, had, _⟩ := events.old block event found
        rw [unused] at had
        contradiction

/-- A change of one control block that leaves the wait lists. -/
theorem update_task (consistent : Consistent rdy tasks pool)
    (others : ∀ other, other ≠ prio → (other ∈ after ↔ other ∈ rdy))
    (agrees : tcb.Agrees after pool.contents prio)
    (idle : prio = osTaskIdlePrio → tcb.place = .app ∧ tcb.Runnable)
    (waited : ∀ pevent type, tcb.Waits pevent type →
      ∃ was, tasks prio = some was ∧ was.Waits pevent type) :
    Consistent after (Function.update tasks prio (some tcb)) pool := by
  apply consistent.update others (.refl prio pool) agrees idle
  intro pevent event found member
  obtain ⟨was, held, waits⟩ := waited _ _ ((agrees.waits pevent event found).mp member)
  have listed := ((consistent.agrees prio was held).waits pevent event found).mpr waits
  exact consistent.items pevent event prio found listed

end Consistent

namespace Kernel
variable {kernel : Kernel Message}

/-- The tables of a kernel agree with each other. -/
abbrev Agrees (kernel : Kernel Message) : Prop :=
  Consistent kernel.osRdy kernel.osTCBPrioTbl kernel.osEventTbl

/-- The first task in the wait list of an event has a control block, which says so. -/
theorem Agrees.waiter (agrees : kernel.Agrees) {pevent : Nat} {event : OsEvent Message}
    (found : kernel.osEventTbl.contents pevent = some event)
    (filled : event.osEventTbl.grp ≠ 0) :
    ∃ ptcb, kernel.osTCBPrioTbl event.osEventTbl.highest = some ptcb ∧
      ptcb.Waits pevent event.body.type := by
  obtain ⟨prio, member⟩ : ∃ prio, prio ∈ event.osEventTbl := by
    by_contra none
    exact filled (event.osEventTbl.grp_eq_zero.mpr fun prio member => none ⟨prio, member⟩)
  have first := (event.osEventTbl.highest_least prio member).1
  cases held : kernel.osTCBPrioTbl event.osEventTbl.highest with
  | none => exact absurd first ((agrees.absent _ held).2 pevent event found)
  | some ptcb => exact ⟨ptcb, rfl, ((agrees.agrees _ ptcb held).waits pevent event found).mp first⟩

/-- The idle task waits for no event. -/
theorem Agrees.ne_idle (agrees : kernel.Agrees) {prio : Prio} {tcb : OsTcb Message}
    (held : kernel.osTCBPrioTbl prio = some tcb) (placed : tcb.place ≠ .app) :
    prio ≠ osTaskIdlePrio := by
  rintro rfl
  obtain ⟨record, idle, place, _⟩ := agrees.idle
  obtain rfl := Option.some.inj (held.symm.trans idle)
  exact placed place

omit [Inhabited Message] in
theorem osEventTaskRdy_eq {event : OsEvent Message} {ptcb : OsTcb Message}
    (held : kernel.osTCBPrioTbl event.osEventTbl.highest = some ptcb) (pevent : Nat)
    (pmsg : Message) (msk : OsEventType) (pendStat : PendStatus) :
    kernel.osEventTaskRdy pevent event pmsg msk pendStat =
      { kernel with
        osTCBPrioTbl := Function.update kernel.osTCBPrioTbl event.osEventTbl.highest
          (some (osEventTaskRdyTcb ptcb pmsg msk pendStat))
        osRdy := if ptcb.osTCBStat.suspend then kernel.osRdy
          else kernel.osRdy.set event.osEventTbl.highest
        osEventTbl := kernel.osEventTbl.store pevent
          { event with osEventTbl := event.osEventTbl.clear event.osEventTbl.highest } } := by
  simp [osEventTaskRdy, held, setTcb, osEventTaskRdyTcb]

/-- A waiting task leaves its list with the status of a success or of an abort. -/
theorem Agrees.osEventTaskRdy (agrees : kernel.Agrees) {pevent : Nat} {event : OsEvent Message}
    (found : kernel.osEventTbl.contents pevent = some event) (filled : event.osEventTbl.grp ≠ 0)
    (pmsg : Message) {pendStat : PendStatus} (real : pendStat ≠ .pendTo) :
    (kernel.osEventTaskRdy pevent event pmsg event.body.type pendStat).Agrees := by
  obtain ⟨ptcb, held, placed, waits⟩ := agrees.waiter found filled
  have before := agrees.agrees _ ptcb held
  let tcb := osEventTaskRdyTcb ptcb pmsg event.body.type pendStat
  have none (type : OsEventType) : tcb.osTCBStat.pends type = false := by
    by_contra pends
    obtain ⟨different, pends⟩ := (ptcb.osTCBStat.pends_clear _ _).mp (Bool.not_eq_false _ ▸ pends)
    exact different (before.wellFormed.pends_eq placed pends)
  have unwaiting (block : Nat) (type : OsEventType) : ¬ tcb.Waits block type := by
    rintro ⟨_, pends | timeout⟩
    · simp [none] at pends
    · exact real timeout
  have runnable : tcb.Runnable ↔ ptcb.osTCBStat.suspend = false := by
    have any : (ptcb.osTCBStat.clear event.body.type).pendAny = false :=
      (OsStat.pendAny_eq_false _).mpr none
    simp [OsTcb.Runnable, any, tcb, osEventTaskRdyTcb]
  have others (other : Prio) (different : other ≠ event.osEventTbl.highest) :
      other ∈ (if ptcb.osTCBStat.suspend then kernel.osRdy
        else kernel.osRdy.set event.osEventTbl.highest) ↔ other ∈ kernel.osRdy := by
    split <;> simp [different]
  have wellFormed : tcb.WellFormed := by
    refine ⟨fun type pends => ?_, fun timeout => absurd timeout real, fun delayed => ?_⟩
    · simp [none] at pends
    · exact absurd rfl delayed
  have listed : tcb.Agrees _ _ event.osEventTbl.highest :=
    OsTcb.agrees_unlisted wellFormed (before.readied runnable) (before.cleared event placed) unwaiting
  rw [osEventTaskRdy_eq held]
  exact agrees.update others
    (.store found fun other different => by simp [different]) listed
    (fun idle => absurd idle (agrees.ne_idle held (by simp [placed])))
    fun block after stored member => absurd member (before.cleared event placed block after stored)

/-- The task that waits leaves the ready table and enters the list of an empty event. -/
theorem Agrees.osEventTaskWait (agrees : kernel.Agrees) {pevent : Nat} {event : OsEvent Message}
    {tcb : OsTcb Message} (found : kernel.osEventTbl.contents pevent = some event)
    (empty : event.body.items = []) (held : kernel.osTCBPrioTbl kernel.osPrioCur = some tcb)
    (placed : tcb.place = .app) (busy : kernel.osPrioCur ≠ osTaskIdlePrio) (timeout : Nat) :
    (kernel.osEventTaskWait pevent event event.body.type timeout tcb).Agrees := by
  have before := agrees.agrees _ tcb held
  have outside (type : OsEventType) (block : Nat) : tcb.place ≠ .pend type block := by
    simp [placed]
  have none := (OsStat.pendAny_eq_false _).mp (before.wellFormed.pendAny_eq_false outside)
  let after : OsTcb Message := { tcb with
    osTCBStat := tcb.osTCBStat.set event.body.type
    osTCBStatPend := .pendOk
    osTCBDly := timeout
    place := .pend event.body.type pevent }
  have pends (type : OsEventType) :
      after.osTCBStat.pends type = true ↔ type = event.body.type := by
    simp [after, none]
  have any : after.osTCBStat.pendAny ≠ false := by
    intro clear
    have unset := (OsStat.pendAny_eq_false _).mp clear event.body.type
    exact absurd ((pends event.body.type).mpr rfl) (by simp [unset])
  have waits (block : Nat) (type : OsEventType) :
      after.Waits block type ↔ block = pevent ∧ type = event.body.type := by
    simp only [OsTcb.Waits, pends]
    simp [after, eq_comm, and_comm]
  have unlisted := before.unlisted (tcb.not_waits outside)
  have stored (block : Nat) (entry : OsEvent Message)
      (entered : (kernel.osEventTbl.store pevent { event with
        osEventTbl := event.osEventTbl.set kernel.osPrioCur }).contents block = some entry) :
      (block = pevent ∧ entry.body = event.body ∧ kernel.osPrioCur ∈ entry.osEventTbl) ∨
        (block ≠ pevent ∧ kernel.osPrioCur ∉ entry.osEventTbl) := by
    by_cases here : block = pevent
    · subst here
      simp only [Pool.store, Function.update_self, Option.some.injEq] at entered
      subst entered
      simp
    · simp only [Pool.store, Function.update_of_ne here] at entered
      exact Or.inr ⟨here, unlisted block entry entered⟩
  have listed : after.Agrees (kernel.osRdy.clear kernel.osPrioCur)
      (kernel.osEventTbl.store pevent { event with
        osEventTbl := event.osEventTbl.set kernel.osPrioCur }).contents kernel.osPrioCur := by
    refine ⟨⟨fun type held => ?_, fun timed => by simp [after] at timed, fun _ => ?_⟩, ?_, ?_, ?_⟩
    · exact ⟨rfl, pevent, by rw [(pends type).mp held]⟩
    · exact Or.inr (by simpa using any)
    · exact iff_of_false (by simp) (fun runnable => any runnable.1)
    · intro block entry entered
      rw [waits]
      obtain ⟨here, body, member⟩ | ⟨there, missing⟩ := stored block entry entered
      · exact iff_of_true member ⟨here, body ▸ rfl⟩
      · exact iff_of_false missing fun both => there both.1
    · intro block type waiting
      obtain ⟨rfl, rfl⟩ := (waits block type).mp waiting
      exact ⟨_, Function.update_self .., rfl⟩
  have others (other : Prio) (different : other ≠ kernel.osPrioCur) :
      other ∈ kernel.osRdy.clear kernel.osPrioCur ↔ other ∈ kernel.osRdy := by
    simp [different]
  apply agrees.update others (.store found fun other different => by simp [different]) listed
    fun idle => absurd idle busy
  intro block entry entered member
  obtain ⟨_, body, _⟩ | ⟨_, missing⟩ := stored block entry entered
  · rw [body]
    exact empty
  · exact absurd member missing

/-- A change of a task that waits for no event before and after it. -/
theorem Agrees.setTcb_unlisted (agrees : kernel.Agrees) {prio : Prio} {tcb after : OsTcb Message}
    {rdy : PrioMap} (held : kernel.osTCBPrioTbl prio = some tcb)
    (before : ∀ pevent type, ¬ tcb.Waits pevent type)
    (unwaiting : ∀ pevent type, ¬ after.Waits pevent type) (wellFormed : after.WellFormed)
    (others : ∀ other, other ≠ prio → (other ∈ rdy ↔ other ∈ kernel.osRdy))
    (ready : prio ∈ rdy ↔ after.Runnable)
    (idle : prio = osTaskIdlePrio → after.place = .app ∧ after.Runnable) :
    Kernel.Agrees { kernel.setTcb prio after with osRdy := rdy } := by
  have unlisted := (agrees.agrees prio tcb held).unlisted before
  exact agrees.update_task others (OsTcb.agrees_unlisted wellFormed ready unlisted unwaiting) idle
    fun pevent type waits => absurd waits (unwaiting pevent type)

/-- A change of a task that waits for the same event before and after it. -/
theorem Agrees.setTcb_waits (agrees : kernel.Agrees) {prio : Prio} {tcb after : OsTcb Message}
    {rdy : PrioMap} (held : kernel.osTCBPrioTbl prio = some tcb)
    (waits : ∀ pevent type, after.Waits pevent type ↔ tcb.Waits pevent type)
    (wellFormed : after.WellFormed)
    (others : ∀ other, other ≠ prio → (other ∈ rdy ↔ other ∈ kernel.osRdy))
    (ready : prio ∈ rdy ↔ after.Runnable)
    (idle : prio = osTaskIdlePrio → after.place = .app ∧ after.Runnable) :
    Kernel.Agrees { kernel.setTcb prio after with osRdy := rdy } := by
  have before := agrees.agrees prio tcb held
  apply agrees.update_task others ?_ idle
    fun pevent type waiting => ⟨tcb, held, (waits pevent type).mp waiting⟩
  refine ⟨wellFormed, ready, ?_, ?_⟩
  · intro pevent event found
    rw [waits]
    exact before.waits pevent event found
  · intro pevent type waiting
    exact before.live pevent type ((waits pevent type).mp waiting)

/-- The end of a delay keeps the place of the task, and its wait as one with a timeout. -/
theorem Agrees.endDly (agrees : kernel.Agrees) {prio : Prio} {ptcb : OsTcb Message}
    (held : kernel.osTCBPrioTbl prio = some ptcb) (delayed : ptcb.osTCBDly ≠ 0) :
    (kernel.endDly prio ptcb).Agrees := by
  have before := agrees.agrees prio ptcb held
  have placed : ptcb.place ≠ .app := by
    intro app
    have none := before.wellFormed.pendAny_eq_false fun type pevent => by simp [app]
    simpa [app, none] using before.wellFormed.delayed delayed
  have stat : (endDlyTcb ptcb).osTCBStat.pendAny = false ∧
      (endDlyTcb ptcb).osTCBStat.suspend = ptcb.osTCBStat.suspend ∧
        (endDlyTcb ptcb).osTCBDly = 0 ∧ (endDlyTcb ptcb).place = ptcb.place := by
    unfold endDlyTcb
    split
    next => exact ⟨rfl, rfl, rfl, rfl⟩
    next none => exact ⟨by simpa using none, rfl, rfl, rfl⟩
  have runnable : (endDlyTcb ptcb).Runnable ↔ ptcb.osTCBStat.suspend = false := by
    simp [OsTcb.Runnable, stat.1, stat.2.1, stat.2.2.1]
  have none := (OsStat.pendAny_eq_false _).mp stat.1
  have untimed : ptcb.osTCBStatPend ≠ .pendTo :=
    fun timeout => delayed (before.wellFormed.timeout timeout).1
  have status : (endDlyTcb ptcb).osTCBStatPend =
      if ptcb.osTCBStat.pendAny then .pendTo else .pendOk := by
    unfold endDlyTcb
    split <;> rfl
  have waits (pevent : Nat) (type : OsEventType) :
      (endDlyTcb ptcb).Waits pevent type ↔ ptcb.Waits pevent type := by
    simp only [OsTcb.Waits, stat.2.2.2, none, status]
    apply and_congr_right
    intro place
    have any : ptcb.osTCBStat.pendAny = true ↔ ptcb.osTCBStat.pends type = true := by
      rw [← not_iff_not, Bool.not_eq_true, OsStat.pendAny_eq_false]
      constructor
      · intro clear held
        simp [clear] at held
      · intro clear other
        by_contra held
        have pends : ptcb.osTCBStat.pends other = true := by simpa using held
        exact clear (before.wellFormed.pends_eq place pends ▸ pends)
    simp [any, untimed]
  have wellFormed : (endDlyTcb ptcb).WellFormed := by
    refine ⟨fun type pends => ?_, fun timeout => ⟨stat.2.2.1, ?_⟩, fun later => ?_⟩
    · simp [none] at pends
    · rw [status] at timeout
      split at timeout
      next any =>
        obtain ⟨type, pends⟩ : ∃ type, ptcb.osTCBStat.pends type = true := by
          by_contra unset
          have clear := (OsStat.pendAny_eq_false _).mpr fun type =>
            Bool.eq_false_iff.mpr fun pends => unset ⟨type, pends⟩
          simp [clear] at any
        obtain ⟨_, pevent, place⟩ := before.wellFormed.pends type pends
        exact ⟨type, pevent, stat.2.2.2.trans place⟩
      next => contradiction
    · exact absurd stat.2.2.1 later
  apply agrees.setTcb_waits held waits wellFormed ?_ (before.readied runnable)
    fun idle => absurd idle (agrees.ne_idle held placed)
  intro other different
  split <;> simp [different]

/-- A new content of an event keeps the tables consistent when no task waits for its items. -/
theorem Agrees.storeBody (agrees : kernel.Agrees) {pevent : Nat} {event : OsEvent Message}
    {body : OsEventBody Message} (found : kernel.osEventTbl.contents pevent = some event)
    (type : body.type = event.body.type)
    (empty : ∀ prio, prio ∈ event.osEventTbl → body.items = []) :
    Kernel.Agrees { kernel with
      osEventTbl := kernel.osEventTbl.store pevent { event with body := body } } := by
  have stored (block : Nat) (entry : OsEvent Message)
      (held : (kernel.osEventTbl.store pevent { event with body := body }).contents block =
        some entry) :
      ∃ was, kernel.osEventTbl.contents block = some was ∧ entry.body.type = was.body.type ∧
        entry.osEventTbl = was.osEventTbl ∧ (block = pevent ∧ entry.body = body ∨ entry = was) := by
    by_cases here : block = pevent
    · subst here
      simp only [Pool.store, Function.update_self, Option.some.injEq] at held
      subst held
      exact ⟨event, found, type, rfl, Or.inl ⟨rfl, rfl⟩⟩
    · simp only [Pool.store, Function.update_of_ne here] at held
      exact ⟨entry, held, rfl, rfl, Or.inr rfl⟩
  refine ⟨?_, ?_, agrees.idle, ?_, agrees.nodup, ?_⟩
  · intro prio tcb held
    have before := agrees.agrees prio tcb held
    refine ⟨before.wellFormed, before.ready, ?_, ?_⟩
    · intro block entry entered
      obtain ⟨was, had, kind, list, _⟩ := stored block entry entered
      rw [list, kind]
      exact before.waits block was had
    · intro block kind waits
      obtain ⟨was, had, same⟩ := before.live block kind waits
      by_cases here : block = pevent
      · subst here
        obtain rfl := Option.some.inj (found.symm.trans had)
        exact ⟨_, Function.update_self .., type.trans same⟩
      · exact ⟨was, (Function.update_of_ne here ..).trans had, same⟩
  · intro prio none
    obtain ⟨unready, unlisted⟩ := agrees.absent prio none
    refine ⟨unready, ?_⟩
    intro block entry entered
    obtain ⟨was, had, _, list, _⟩ := stored block entry entered
    rw [list]
    exact unlisted block was had
  · intro block entry prio entered member
    obtain ⟨was, had, _, list, ⟨rfl, content⟩ | rfl⟩ := stored block entry entered
    · obtain rfl := Option.some.inj (found.symm.trans had)
      rw [content]
      exact empty prio (list ▸ member)
    · exact agrees.items block entry prio had member
  · intro block free
    have different : block ≠ pevent := by
      rintro rfl
      simp [agrees.unused block free] at found
    exact (Function.update_of_ne different ..).trans (agrees.unused block free)

/-- A new event has no waiting task. -/
theorem Agrees.eventCreate (agrees : kernel.Agrees) {body : OsEventBody Message} {pevent : Nat}
    {after : Kernel Message} (created : kernel.eventCreate body = some (pevent, after)) :
    after.Agrees ∧ kernel.osEventTbl.contents pevent = none ∧
      after = { kernel with osEventTbl := after.osEventTbl } ∧
      after.osEventTbl.contents = Function.update kernel.osEventTbl.contents pevent
        (some { body := body, osEventTbl := .init }) := by
  unfold Kernel.eventCreate Pool.allocate at created
  split at created
  next => simp at created
  next block rest free =>
    simp only [Option.map_some, Option.some.injEq, Prod.mk.injEq] at created
    obtain ⟨rfl, rfl⟩ := created
    have nodup := agrees.nodup
    rw [free] at nodup
    obtain ⟨fresh, nodup⟩ := List.nodup_cons.mp nodup
    have unused := agrees.unused block (by simp [free])
    refine ⟨⟨?_, ?_, agrees.idle, ?_, nodup, ?_⟩, unused, rfl, rfl⟩
    · intro prio tcb held
      have before := agrees.agrees prio tcb held
      refine ⟨before.wellFormed, before.ready, ?_, ?_⟩
      · intro other event found
        by_cases here : other = block
        · subst here
          simp only [Function.update_self, Option.some.injEq] at found
          subst found
          refine iff_of_false (by simp) fun waits => ?_
          obtain ⟨event, had, _⟩ := before.live other _ waits
          simp [unused] at had
        · exact before.waits other event ((Function.update_of_ne here ..).symm.trans found)
      · intro other type waits
        obtain ⟨event, had, same⟩ := before.live other type waits
        have here : other ≠ block := by
          rintro rfl
          simp [unused] at had
        exact ⟨event, (Function.update_of_ne here ..).trans had, same⟩
    · intro prio none
      obtain ⟨unready, unlisted⟩ := agrees.absent prio none
      refine ⟨unready, ?_⟩
      intro other event found
      by_cases here : other = block
      · subst here
        simp only [Function.update_self, Option.some.injEq] at found
        subst found
        simp
      · exact unlisted other event ((Function.update_of_ne here ..).symm.trans found)
    · intro other event prio found member
      by_cases here : other = block
      · subst here
        simp only [Function.update_self, Option.some.injEq] at found
        subst found
        simp at member
      · exact agrees.items other event prio ((Function.update_of_ne here ..).symm.trans found) member
    · intro other member
      have here : other ≠ block := fun same => fresh (same ▸ member)
      exact (Function.update_of_ne here ..).trans (agrees.unused other (by simp [free, member]))

/-- A block without a waiting task returns to the free list. -/
theorem Agrees.eventFree (agrees : kernel.Agrees) {pevent : Nat} {event : OsEvent Message}
    (found : kernel.osEventTbl.contents pevent = some event) (empty : event.osEventTbl.grp = 0)
    (type : OsEventType) : (kernel.eventFree type pevent).Agrees := by
  have none := event.osEventTbl.grp_eq_zero.mp empty
  have stored (block : Nat) (entry : OsEvent Message)
      (held : (kernel.osEventTbl.release pevent).contents block = some entry) :
      kernel.osEventTbl.contents block = some entry := by
    by_cases here : block = pevent
    · subst here
      simp [Pool.release] at held
    · exact (Function.update_of_ne here ..).symm.trans held
  refine ⟨?_, ?_, agrees.idle, ?_, ?_, ?_⟩
  · intro prio tcb held
    have before := agrees.agrees prio tcb held
    refine ⟨before.wellFormed, before.ready, ?_, ?_⟩
    · intro block entry entered
      exact before.waits block entry (stored block entry entered)
    · intro block kind waits
      obtain ⟨was, had, same⟩ := before.live block kind waits
      have here : block ≠ pevent := by
        rintro rfl
        obtain rfl := Option.some.inj (found.symm.trans had)
        exact none prio ((before.waits block _ had).mpr (same ▸ waits))
      exact ⟨was, (Function.update_of_ne here ..).trans had, same⟩
  · intro prio gone
    obtain ⟨unready, unlisted⟩ := agrees.absent prio gone
    exact ⟨unready, fun block entry entered => unlisted block entry (stored block entry entered)⟩
  · intro block entry prio entered member
    exact agrees.items block entry prio (stored block entry entered) member
  · refine List.nodup_cons.mpr ⟨fun free => ?_, agrees.nodup⟩
    simp [agrees.unused pevent free] at found
  · intro block free
    by_cases here : block = pevent
    · subst here
      exact Function.update_self ..
    · have before := (List.mem_cons.mp free).resolve_left here
      exact (Function.update_of_ne here ..).trans (agrees.unused block before)

/-- A new task is ready. -/
theorem Agrees.osTCBInit (agrees : kernel.Agrees) {prio : Prio}
    (absent : kernel.osTCBPrioTbl prio = none) : (kernel.osTCBInit prio).Agrees := by
  have unlisted := (agrees.absent prio absent).2
  have others (other : Prio) (different : other ≠ prio) :
      other ∈ kernel.osRdy.set prio ↔ other ∈ kernel.osRdy := by
    simp [different]
  have ready : prio ∈ kernel.osRdy.set prio := (kernel.osRdy.mem_set _ _).mpr (Or.inl rfl)
  exact agrees.update_task others (OsTcb.init_agrees ready unlisted)
    (fun _ => ⟨rfl, rfl, rfl, rfl⟩) fun pevent type waits => absurd waits (OsTcb.init_not_waits _ _)

end Kernel

end Updates

end NnpCamera.Scheduler
