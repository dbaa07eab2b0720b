/-
This file shows that the semaphores and queues of the kernel neither lose nor duplicate an item.
-/

import NnpCamera.Library.History
import NnpCamera.Scheduler.Priority

namespace NnpCamera.Scheduler
open Library
open Mailbox (osErrNone)

/-- The history of the items. An item that is put into an event is given to a caller. A task that
waits is handed its item, and the pend returns it when the task runs again. -/
structure Ledger (Message : Type) where
  put : Nat → List Message
  given : Nat → List Message
  handed : Prio → List Message
  returned : Prio → List Message

namespace Service
variable {Message : Type} [Inhabited Message]

/-- The event from which a service takes an item. -/
def source : Service Message → Option Nat
  | .semPend pevent _ | .semAccept pevent | .qPend pevent _ | .qAccept pevent => some pevent
  | _ => none

/-- The event to which a service posts, and the item. -/
def posted : Service Message → Option (Nat × Message)
  | .semPost pevent => some (pevent, default)
  | .qPost pevent pmsg => some (pevent, pmsg)
  | _ => none

/-- The items of a new event. -/
def initial : Service Message → List Message
  | .semCreate cnt => List.replicate cnt default
  | _ => []

end Service

namespace Ledger
variable {Message : Type} [Inhabited Message] (ledger : Ledger Message)

/-- A caller takes an item directly. -/
def take (pevent : Nat) (pmsg : Message) : Ledger Message :=
  { ledger with given := Function.update ledger.given pevent (ledger.given pevent ++ [pmsg]) }

/-- A new event begins a new account. -/
def create (pevent : Nat) (items : List Message) : Ledger Message :=
  { ledger with
    put := Function.update ledger.put pevent items
    given := Function.update ledger.given pevent [] }

/-- A post puts an item into an event, and hands it to the first waiting task if there is one. -/
def post (kernel : Kernel Message) (pevent : Nat) (pmsg : Message) : Ledger Message :=
  let stored := { ledger with
    put := Function.update ledger.put pevent (ledger.put pevent ++ [pmsg]) }
  match kernel.osEventTbl.contents pevent with
  | none => stored
  | some event =>
      if event.osEventTbl.grp ≠ 0 then
        let prio := event.osEventTbl.highest
        { stored.take pevent pmsg with
          handed := Function.update ledger.handed prio (ledger.handed prio ++ [pmsg]) }
      else stored

/-- A pend returns an item to its task. -/
def leave (prio : Prio) : Answer Message → Ledger Message
  | .item pmsg =>
      { ledger with
        returned := Function.update ledger.returned prio (ledger.returned prio ++ [pmsg]) }
  | _ => ledger

def serve (kernel : Kernel Message) (service : Service Message) :
    Answer Message → Ledger Message
  | .item pmsg =>
      match service.source with
      | none => ledger
      | some pevent => ledger.take pevent pmsg
  | .created (some pevent) => ledger.create pevent service.initial
  | .err perr =>
      match service.posted with
      | none => ledger
      | some (pevent, pmsg) => if perr = osErrNone then ledger.post kernel pevent pmsg else ledger
  | _ => ledger

end Ledger

namespace OsTcb
variable {Message : Type} (tcb : OsTcb Message)

/-- A task inside a pend has its item when it no longer waits and was neither aborted nor late. -/
def inFlight : List Message :=
  match tcb.place with
  | .pend type _ =>
      if tcb.osTCBStatPend = .pendOk ∧ tcb.osTCBStat.pends type = false then [tcb.osTCBMsg] else []
  | _ => []

/-- A task that waits has no item. -/
theorem inFlight_waits {tcb : OsTcb Message} {pevent : Nat} {type : OsEventType}
    (waits : tcb.Waits pevent type) : tcb.inFlight = [] := by
  rw [inFlight, waits.1]
  apply if_neg
  rintro ⟨status, clear⟩
  obtain pends | timeout := waits.2
  · simp [clear] at pends
  · simp [status] at timeout

end OsTcb

section Items
variable {Message : Type}

/-- The item on its way to a task. -/
def flight (tasks : Prio → Option (OsTcb Message)) (prio : Prio) : List Message :=
  match tasks prio with
  | none => []
  | some tcb => tcb.inFlight

theorem flight_update {tasks : Prio → Option (OsTcb Message)} {prio : Prio} {tcb : OsTcb Message}
    (same : tcb.inFlight = flight tasks prio) :
    flight (Function.update tasks prio (some tcb)) = flight tasks := by
  funext other
  by_cases here : other = prio
  · subst here
    simpa [flight] using same
  · simp [flight, here]

variable [Inhabited Message]

/-- The items of an event in use. -/
def stored (pool : Pool (OsEvent Message)) (pevent : Nat) : Option (List Message) :=
  (pool.contents pevent).map fun event => event.body.items

theorem stored_store (pool : Pool (OsEvent Message)) (pevent : Nat) (event : OsEvent Message) :
    stored (pool.store pevent event) =
      Function.update (stored pool) pevent (some event.body.items) := by
  funext other
  by_cases here : other = pevent
  · subst here
    simp [stored, Pool.store]
  · simp [stored, Pool.store, here]

/-- A change of a wait list changes no item. -/
theorem stored_list {pool : Pool (OsEvent Message)} {pevent : Nat} {event : OsEvent Message}
    (found : pool.contents pevent = some event) (list : PrioMap) :
    stored (pool.store pevent { event with osEventTbl := list }) = stored pool := by
  rw [stored_store]
  have same : some event.body.items = stored pool pevent := by simp [stored, found]
  rw [same, Function.update_eq_self]

end Items

namespace Kernel
variable {Message : Type} [Inhabited Message] {kernel after middle : Kernel Message}
  {ledger : Ledger Message}

/-- The history follows the answers of the services. -/
def record (kernel : Kernel Message) (action : Action Message) (ledger : Ledger Message) :
    Ledger Message :=
  match action, kernel.act action with
  | .call service, some (answer, _) => ledger.serve kernel service answer
  | .leave, some (answer, _) => ledger.leave kernel.osPrioCur answer
  | _, _ => ledger

/-- Each item that was put into an event has been given to a caller or is still there, in this
order. Each item that was handed to a task has been returned to it or is on its way. -/
structure Balanced (kernel : Kernel Message) (ledger : Ledger Message) : Prop where
  events : ∀ pevent items, stored kernel.osEventTbl pevent = some items →
    ledger.put pevent = ledger.given pevent ++ items
  tasks : ∀ prio, ledger.handed prio = ledger.returned prio ++ flight kernel.osTCBPrioTbl prio

/-- A step moves no item. An event may be deleted with its items. -/
structure SameItems (before after : Kernel Message) : Prop where
  events : ∀ pevent items, stored after.osEventTbl pevent = some items →
    stored before.osEventTbl pevent = some items
  tasks : flight after.osTCBPrioTbl = flight before.osTCBPrioTbl

theorem SameItems.refl (kernel : Kernel Message) : SameItems kernel kernel := ⟨fun _ _ => id, rfl⟩

theorem SameItems.trans (first : SameItems kernel middle) (second : SameItems middle after) :
    SameItems kernel after :=
  ⟨fun pevent items held => first.events pevent items (second.events pevent items held),
    second.tasks.trans first.tasks⟩

theorem Balanced.same (balanced : kernel.Balanced ledger) (same : SameItems kernel after) :
    after.Balanced ledger where
  events := fun pevent items held => balanced.events pevent items (same.events pevent items held)
  tasks := fun prio => by rw [same.tasks, balanced.tasks prio]

omit [Inhabited Message] in
@[simp] theorem callSched_tasks (kernel : Kernel Message) :
    kernel.callSched.osTCBPrioTbl = kernel.osTCBPrioTbl := by
  unfold callSched
  split <;> rfl

omit [Inhabited Message] in
@[simp] theorem callSched_events (kernel : Kernel Message) :
    kernel.callSched.osEventTbl = kernel.osEventTbl := by
  unfold callSched
  split <;> rfl

theorem SameItems.callSched (same : SameItems kernel after) : SameItems kernel after.callSched where
  events := by simpa using same.events
  tasks := by simpa using same.tasks

/-- A change of one control block that keeps its item. -/
theorem sameItems_setTcb {prio : Prio} {tcb : OsTcb Message} (rdy : PrioMap)
    (same : tcb.inFlight = flight kernel.osTCBPrioTbl prio) :
    SameItems kernel { kernel.setTcb prio tcb with osRdy := rdy } :=
  ⟨fun _ _ => id, flight_update same⟩

/-- An abort hands no item to the task. -/
theorem Agrees.sameItems_abort (agrees : kernel.Agrees) {pevent : Nat} {event : OsEvent Message}
    (found : kernel.osEventTbl.contents pevent = some event) (filled : event.osEventTbl.grp ≠ 0)
    (pmsg : Message) :
    SameItems kernel (kernel.osEventTaskRdy pevent event pmsg event.body.type .pendAbort) := by
  obtain ⟨ptcb, held, waits⟩ := agrees.waiter found filled
  rw [osEventTaskRdy_eq held]
  refine ⟨fun block items => ?_, flight_update ?_⟩
  · rw [stored_list found]
    exact id
  · rw [flight, held]
    dsimp only
    rw [OsTcb.inFlight_waits waits, OsTcb.inFlight, osEventTaskRdyTcb]
    simp [waits.1]

theorem Agrees.sameItems_rdyAll (agrees : kernel.Agrees) {pevent : Nat} {event : OsEvent Message}
    (found : kernel.osEventTbl.contents pevent = some event) (pmsg : Message) :
    SameItems kernel (osEventTaskRdyAll pevent pmsg event.body.type .pendAbort 64 kernel) := by
  apply agrees.rdyAll_invariant found pmsg 64 (SameItems kernel) (.refl kernel)
  intro _ _ agrees found filled before
  exact before.trans (agrees.sameItems_abort found filled pmsg)

/-- The end of a delay leaves the items alone. -/
theorem Agrees.sameItems_endDly (agrees : kernel.Agrees) {prio : Prio} {ptcb : OsTcb Message}
    (held : kernel.osTCBPrioTbl prio = some ptcb) (delayed : ptcb.osTCBDly ≠ 0) :
    SameItems kernel (kernel.endDly prio ptcb) := by
  have wellFormed := (agrees.agrees prio ptcb held).wellFormed
  apply sameItems_setTcb
  rw [flight, held]
  dsimp only
  unfold endDlyTcb
  split
  next any =>
    cases placed : ptcb.place with
    | app => simp [OsTcb.inFlight, placed]
    | timeDly => simp [OsTcb.inFlight, placed]
    | pend type pevent =>
        have pends : ptcb.osTCBStat.pends type = true := by
          by_contra clear
          have none := (OsStat.pendAny_eq_false _).mpr fun other => Bool.eq_false_iff.mpr fun pends =>
            clear (wellFormed.pends_eq placed pends ▸ pends)
          simp [none] at any
        simp [OsTcb.inFlight, placed, pends]
  next none =>
    have placed := (wellFormed.delayed delayed).resolve_right none
    simp [OsTcb.inFlight, placed]

/-- A caller takes the first item of an event. -/
theorem Balanced.take (balanced : kernel.Balanced ledger) {pevent : Nat} {event : OsEvent Message}
    {body : OsEventBody Message} {pmsg : Message}
    (found : kernel.osEventTbl.contents pevent = some event)
    (taken : event.body.take = some (pmsg, body)) :
    Balanced { kernel with osEventTbl := kernel.osEventTbl.store pevent { event with body := body } }
      (ledger.take pevent pmsg) where
  events := by
    intro block items held
    rw [stored_store] at held
    by_cases here : block = pevent
    · subst here
      simp only [Function.update_self, Option.some.injEq] at held
      have before := balanced.events block event.body.items (by simp [stored, found])
      rw [(OsEventBody.take_eq_some taken).1] at before
      simp [Ledger.take, before, held]
    · rw [Function.update_of_ne here] at held
      simpa [Ledger.take, here] using balanced.events block items held
  tasks := balanced.tasks

/-- An event without waiting tasks stores the posted item. -/
theorem Balanced.put (balanced : kernel.Balanced ledger) {pevent : Nat} {event : OsEvent Message}
    {body : OsEventBody Message} {pmsg : Message}
    (found : kernel.osEventTbl.contents pevent = some event) (empty : event.osEventTbl.grp = 0)
    (put : event.body.put pmsg = some body) (token : event.body.type = .sem → pmsg = default) :
    Balanced { kernel with osEventTbl := kernel.osEventTbl.store pevent { event with body := body } }
      (ledger.post kernel pevent pmsg) := by
  have posted : ledger.post kernel pevent pmsg = { ledger with
      put := Function.update ledger.put pevent (ledger.put pevent ++ [pmsg]) } := by
    simp [Ledger.post, found, empty]
  rw [posted]
  refine ⟨?_, balanced.tasks⟩
  intro block items held
  rw [stored_store] at held
  by_cases here : block = pevent
  · subst here
    simp only [Function.update_self, Option.some.injEq] at held
    have before := balanced.events block event.body.items (by simp [stored, found])
    simp [before, ← held, (OsEventBody.put_eq_some put token).1]
  · rw [Function.update_of_ne here] at held
    simpa [here] using balanced.events block items held

/-- A waiting task is handed the posted item at once. -/
theorem Balanced.hand (balanced : kernel.Balanced ledger) (agrees : kernel.Agrees) {pevent : Nat}
    {event : OsEvent Message} (found : kernel.osEventTbl.contents pevent = some event)
    (filled : event.osEventTbl.grp ≠ 0) (pmsg : Message) :
    Balanced (kernel.osEventTaskRdy pevent event pmsg event.body.type .pendOk)
      (ledger.post kernel pevent pmsg) := by
  obtain ⟨ptcb, held, waits⟩ := agrees.waiter found filled
  have posted : ledger.post kernel pevent pmsg = { ledger with
      put := Function.update ledger.put pevent (ledger.put pevent ++ [pmsg])
      given := Function.update ledger.given pevent (ledger.given pevent ++ [pmsg])
      handed := Function.update ledger.handed event.osEventTbl.highest
        (ledger.handed event.osEventTbl.highest ++ [pmsg]) } := by
    simp only [Ledger.post, found]
    exact if_pos filled
  rw [posted, osEventTaskRdy_eq held]
  constructor
  · intro block stock stocked
    have had : stored kernel.osEventTbl block = some stock := by
      rw [← stored_list found]
      exact stocked
    have before := balanced.events block stock had
    by_cases here : block = pevent
    · subst here
      have listed := ((agrees.agrees _ ptcb held).waits block event found).mpr waits
      have none := agrees.items block event _ found listed
      simp only [stored, found, Option.map_some, none, Option.some.injEq] at had
      simp [before, ← had]
    · simpa [here] using before
  · intro prio
    have before := balanced.tasks prio
    by_cases here : prio = event.osEventTbl.highest
    · subst here
      have waited : flight kernel.osTCBPrioTbl event.osEventTbl.highest = [] := by
        simp [flight, held, OsTcb.inFlight_waits waits]
      have clear : ((ptcb.osTCBStat.clear event.body.type).pends event.body.type) = false := by
        rw [Bool.eq_false_iff, ne_eq, OsStat.pends_clear]
        exact fun both => both.1 rfl
      rw [waited, List.append_nil] at before
      simp [before, flight, OsTcb.inFlight, osEventTaskRdyTcb, waits.1, clear]
    · simpa [flight, here] using before

/-- A service that neither takes nor posts an item leaves the history alone. -/
theorem serve_other {service : Service Message} (takes : service.source = none)
    (posts : service.posted = none) {answer : Answer Message}
    (made : ∀ pevent, answer ≠ .created (some pevent)) : ledger.serve kernel service answer = ledger := by
  cases answer with
  | err perr => simp [Ledger.serve, posts]
  | created pevent =>
      cases pevent with
      | none => rfl
      | some pevent => exact absurd rfl (made pevent)
  | item pmsg => simp [Ledger.serve, takes]
  | blocks => rfl

theorem Balanced.timeDly (balanced : kernel.Balanced ledger) (enters : kernel.Enters)
    (ticks : Nat) :
    Balanced (kernel.osTimeDly ticks).2
      (ledger.serve kernel (.timeDly ticks) (kernel.osTimeDly ticks).1) := by
  unfold osTimeDly
  split
  next => exact balanced
  next outside =>
    have atApp := enters.resolve_left outside
    split
    next => exact balanced
    next =>
      split
      next =>
        cases held : kernel.osTCBPrioTbl kernel.osPrioCur with
        | none => exact balanced
        | some tcb =>
            apply balanced.same (SameItems.callSched (sameItems_setTcb _ ?_))
            simp [OsTcb.inFlight, flight, held, atApp.place held]
      next => exact balanced

theorem Balanced.timeDlyResume (balanced : kernel.Balanced ledger) (agrees : kernel.Agrees)
    (prio : Prio) :
    Balanced (kernel.osTimeDlyResume prio).2
      (ledger.serve kernel (.timeDlyResume prio) (kernel.osTimeDlyResume prio).1) := by
  unfold osTimeDlyResume
  split
  next => exact balanced
  next =>
    cases held : kernel.osTCBPrioTbl prio with
    | none => exact balanced
    | some ptcb =>
        by_cases delayed : ptcb.osTCBDly = 0
        · simp only [delayed, if_true]
          exact balanced
        · simp only [delayed, if_false]
          have same := agrees.sameItems_endDly held delayed
          split
          next => exact balanced.same same
          next => exact balanced.same same.callSched

/-- A new event has its own account. -/
theorem Balanced.create (balanced : kernel.Balanced ledger) (agrees : kernel.Agrees)
    {body : OsEventBody Message} {pevent : Nat}
    (created : kernel.eventCreate body = some (pevent, after)) :
    after.Balanced (ledger.create pevent body.items) := by
  obtain ⟨_, _, same, contents⟩ := agrees.eventCreate created
  constructor
  · intro block items held
    simp only [stored, contents] at held
    by_cases here : block = pevent
    · subst here
      simp only [Function.update_self, Option.map_some, Option.some.injEq] at held
      simp [Ledger.create, held]
    · rw [Function.update_of_ne here] at held
      simpa [Ledger.create, here] using balanced.events block items held
  · rw [same]
    exact balanced.tasks

theorem Balanced.semCreate (balanced : kernel.Balanced ledger) (agrees : kernel.Agrees)
    (cnt : Nat) :
    Balanced (kernel.osSemCreate cnt).2
      (ledger.serve kernel (.semCreate cnt) (kernel.osSemCreate cnt).1) := by
  unfold osSemCreate
  split
  next => exact balanced
  next =>
    cases created : kernel.eventCreate (.sem cnt) with
    | none => exact balanced
    | some result => exact balanced.create agrees created

theorem Balanced.qCreate (balanced : kernel.Balanced ledger) (agrees : kernel.Agrees)
    (start : Nat → Message) (size : Nat) :
    Balanced (kernel.osQCreate start size).2
      (ledger.serve kernel (.qCreate start size) (kernel.osQCreate start size).1) := by
  unfold osQCreate
  split
  next => exact balanced
  next =>
    cases created : kernel.eventCreate (.q (.create size start)) with
    | none => exact balanced
    | some result =>
        dsimp only
        split
        next => exact balanced
        next =>
          have made := balanced.create agrees created
          exact ⟨made.events, made.tasks⟩

/-- A pend takes an item for its caller or blocks without one. -/
theorem Balanced.pend (balanced : kernel.Balanced ledger) (enters : kernel.Enters)
    {type : OsEventType} {pevent timeout : Nat} {service : Service Message}
    (takes : service.source = some pevent) (posts : service.posted = none) :
    Balanced (kernel.eventPend type pevent timeout).2
      (ledger.serve kernel service (kernel.eventPend type pevent timeout).1) := by
  have failed (perr : UInt8) : ledger.serve kernel service (.err perr) = ledger := by
    simp [Ledger.serve, posts]
  unfold eventPend
  cases found : kernel.eventOf pevent type with
  | none => exact (failed _).symm ▸ balanced
  | some event =>
      obtain ⟨held, rfl⟩ := eventOf_eq_some found
      dsimp only
      split
      next => exact (failed _).symm ▸ balanced
      next outside =>
        have atApp := enters.resolve_left outside
        split
        next => exact (failed _).symm ▸ balanced
        next =>
          cases taken : event.body.take with
          | some result =>
              have given : ledger.serve kernel service (.item result.1) =
                  ledger.take pevent result.1 := by
                simp [Ledger.serve, takes]
              exact given ▸ balanced.take held taken
          | none =>
              cases current : kernel.osTCBPrioTbl kernel.osPrioCur with
              | none => exact (failed _).symm ▸ balanced
              | some tcb =>
                  apply balanced.same
                  apply SameItems.callSched
                  refine ⟨fun block items => ?_, flight_update ?_⟩
                  · rw [osEventTaskWait, stored_list held]
                    exact id
                  · simp [OsTcb.inFlight, flight, current, atApp.place current]

theorem Balanced.accept (balanced : kernel.Balanced ledger) {type : OsEventType} {empty : UInt8}
    {pevent : Nat} {service : Service Message} (takes : service.source = some pevent)
    (posts : service.posted = none) :
    Balanced (kernel.eventAccept type empty pevent).2
      (ledger.serve kernel service (kernel.eventAccept type empty pevent).1) := by
  have failed (perr : UInt8) : ledger.serve kernel service (.err perr) = ledger := by
    simp [Ledger.serve, posts]
  unfold eventAccept
  cases found : kernel.eventOf pevent type with
  | none => exact (failed _).symm ▸ balanced
  | some event =>
      obtain ⟨held, rfl⟩ := eventOf_eq_some found
      dsimp only
      cases taken : event.body.take with
      | some result =>
          have given : ledger.serve kernel service (.item result.1) =
              ledger.take pevent result.1 := by
            simp [Ledger.serve, takes]
          exact given ▸ balanced.take held taken
      | none => exact (failed _).symm ▸ balanced

/-- A post that succeeds hands its item to a task or stores it. -/
theorem Balanced.eventPost (balanced : kernel.Balanced ledger) (agrees : kernel.Agrees)
    {type : OsEventType} {full : UInt8} {pevent : Nat} {pmsg : Message}
    {service : Service Message} (posts : service.posted = some (pevent, pmsg))
    (refused : full ≠ osErrNone) (token : type = .sem → pmsg = default) :
    Balanced (kernel.eventPost type full pevent pmsg).2
      (ledger.serve kernel service (kernel.eventPost type full pevent pmsg).1) := by
  have failed (perr : UInt8) (bad : perr ≠ osErrNone) :
      ledger.serve kernel service (.err perr) = ledger := by
    simp [Ledger.serve, posts, bad]
  have done : ledger.serve kernel service (.err osErrNone) = ledger.post kernel pevent pmsg := by
    simp [Ledger.serve, posts]
  unfold Kernel.eventPost
  cases found : kernel.eventOf pevent type with
  | none => exact (failed Mailbox.osErrEventType (by decide)).symm ▸ balanced
  | some event =>
      obtain ⟨held, rfl⟩ := eventOf_eq_some found
      dsimp only
      split
      next filled =>
        rw [done]
        have handed := balanced.hand agrees held filled pmsg
        exact ⟨by simpa using handed.events, by simpa using handed.tasks⟩
      next empty =>
        cases put : event.body.put pmsg with
        | none => exact (failed _ refused).symm ▸ balanced
        | some body =>
            rw [done]
            exact balanced.put held (not_not.mp empty) put token

theorem Balanced.pendAbort (balanced : kernel.Balanced ledger) (agrees : kernel.Agrees)
    {type : OsEventType} {pevent : Nat} {broadcast : Bool} {service : Service Message}
    (takes : service.source = none) (posts : service.posted = none) :
    Balanced (kernel.eventPendAbort type pevent broadcast).2
      (ledger.serve kernel service (kernel.eventPendAbort type pevent broadcast).1) := by
  have failed (perr : UInt8) : ledger.serve kernel service (.err perr) = ledger :=
    serve_other takes posts (by simp)
  unfold eventPendAbort
  cases found : kernel.eventOf pevent type with
  | none => exact (failed _).symm ▸ balanced
  | some event =>
      obtain ⟨held, rfl⟩ := eventOf_eq_some found
      dsimp only
      split
      next filled =>
        rw [failed]
        cases broadcast with
        | true => exact balanced.same (agrees.sameItems_rdyAll held default).callSched
        | false => exact balanced.same (agrees.sameItems_abort held filled default).callSched
      next => exact (failed _).symm ▸ balanced

/-- The items of a deleted event go with it. -/
theorem sameItems_eventFree (kernel : Kernel Message) (type : OsEventType) (pevent : Nat) :
    SameItems kernel (kernel.eventFree type pevent) := by
  refine ⟨fun block items held => ?_, rfl⟩
  by_cases here : block = pevent
  · subst here
    simp [stored, eventFree, Pool.release] at held
  · simpa [stored, eventFree, Pool.release, here] using held

theorem Balanced.del (balanced : kernel.Balanced ledger) (agrees : kernel.Agrees)
    {type : OsEventType} {pevent : Nat} {opt : DelOpt} {service : Service Message}
    (takes : service.source = none) (posts : service.posted = none) :
    Balanced (kernel.eventDel type pevent opt).2
      (ledger.serve kernel service (kernel.eventDel type pevent opt).1) := by
  have failed (perr : UInt8) : ledger.serve kernel service (.err perr) = ledger :=
    serve_other takes posts (by simp)
  unfold eventDel
  cases found : kernel.eventOf pevent type with
  | none => exact (failed _).symm ▸ balanced
  | some event =>
      obtain ⟨held, rfl⟩ := eventOf_eq_some found
      dsimp only
      split
      next => exact (failed _).symm ▸ balanced
      next =>
        cases opt with
        | noPend =>
            dsimp only
            split
            next => exact (failed _).symm ▸ balanced.same (sameItems_eventFree _ _ _)
            next => exact (failed _).symm ▸ balanced
        | always =>
            dsimp only
            rw [failed]
            have same := (agrees.sameItems_rdyAll held default).trans
              (sameItems_eventFree _ event.body.type pevent)
            split
            next => exact balanced.same same.callSched
            next => exact balanced.same same
        | other => exact (failed _).symm ▸ balanced

theorem Balanced.taskCreate (balanced : kernel.Balanced ledger) (prio : Prio) :
    Balanced (kernel.osTaskCreate prio).2
      (ledger.serve kernel (.taskCreate prio) (kernel.osTaskCreate prio).1) := by
  unfold osTaskCreate
  split
  next => exact balanced
  next =>
    cases absent : kernel.osTCBPrioTbl prio with
    | some _ => exact balanced
    | none =>
        have same : SameItems kernel (kernel.osTCBInit prio) :=
          ⟨fun _ _ => id, flight_update (by simp [flight, absent, OsTcb.inFlight, OsTcb.init])⟩
        dsimp only
        split
        next => exact balanced
        next =>
          split
          next => exact balanced.same same.callSched
          next => exact balanced.same same

theorem Balanced.taskSuspend (balanced : kernel.Balanced ledger) (prio : Prio) :
    Balanced (kernel.osTaskSuspend prio).2
      (ledger.serve kernel (.taskSuspend prio) (kernel.osTaskSuspend prio).1) := by
  unfold osTaskSuspend
  cases held : kernel.osTCBPrioTbl prio with
  | none => exact balanced
  | some ptcb =>
      dsimp only
      split
      next =>
        apply balanced.same (SameItems.callSched (sameItems_setTcb _ ?_))
        rw [flight, held]
        rfl
      next =>
        apply balanced.same (sameItems_setTcb _ ?_)
        rw [flight, held]
        rfl

theorem Balanced.taskResume (balanced : kernel.Balanced ledger) (prio : Prio) :
    Balanced (kernel.osTaskResume prio).2
      (ledger.serve kernel (.taskResume prio) (kernel.osTaskResume prio).1) := by
  unfold osTaskResume
  cases held : kernel.osTCBPrioTbl prio with
  | none => exact balanced
  | some ptcb =>
      dsimp only
      split
      next =>
        split
        next =>
          apply balanced.same (SameItems.callSched (sameItems_setTcb _ ?_))
          rw [flight, held]
          rfl
        next =>
          apply balanced.same (sameItems_setTcb _ ?_)
          rw [flight, held]
          rfl
      next => exact balanced

theorem Balanced.schedLock (balanced : kernel.Balanced ledger) :
    Balanced kernel.osSchedLock.2 (ledger.serve kernel .schedLock kernel.osSchedLock.1) := by
  unfold osSchedLock
  split
  next => exact ⟨balanced.events, balanced.tasks⟩
  next => exact balanced

theorem Balanced.schedUnlock (balanced : kernel.Balanced ledger) :
    Balanced kernel.osSchedUnlock.2 (ledger.serve kernel .schedUnlock kernel.osSchedUnlock.1) := by
  have same : SameItems kernel { kernel with osLockNesting := kernel.osLockNesting - 1 } :=
    ⟨fun _ _ => id, rfl⟩
  unfold osSchedUnlock
  split
  next =>
    dsimp only
    split
    next => exact balanced.same same.callSched
    next => exact balanced.same same
  next => exact balanced

/-- Each service keeps the accounts. -/
theorem Balanced.serve (balanced : kernel.Balanced ledger) (agrees : kernel.Agrees)
    (enters : kernel.Enters) (service : Service Message) :
    Balanced (kernel.serve service).2 (ledger.serve kernel service (kernel.serve service).1) := by
  cases service with
  | timeDly ticks => exact balanced.timeDly enters ticks
  | timeDlyResume prio => exact balanced.timeDlyResume agrees prio
  | semCreate cnt => exact balanced.semCreate agrees cnt
  | semPend pevent timeout => exact balanced.pend enters rfl rfl
  | semAccept pevent => exact balanced.accept rfl rfl
  | semPost pevent => exact balanced.eventPost agrees rfl (by decide) fun _ => rfl
  | semPendAbort pevent broadcast => exact balanced.pendAbort agrees rfl rfl
  | semDel pevent opt => exact balanced.del agrees rfl rfl
  | qCreate start size => exact balanced.qCreate agrees start size
  | qPend pevent timeout => exact balanced.pend enters rfl rfl
  | qAccept pevent => exact balanced.accept rfl rfl
  | qPost pevent pmsg => exact balanced.eventPost agrees rfl (by decide) (by simp)
  | qPendAbort pevent broadcast => exact balanced.pendAbort agrees rfl rfl
  | qDel pevent opt => exact balanced.del agrees rfl rfl
  | taskCreate prio => exact balanced.taskCreate prio
  | taskSuspend prio => exact balanced.taskSuspend prio
  | taskResume prio => exact balanced.taskResume prio
  | schedLock => exact balanced.schedLock
  | schedUnlock => exact balanced.schedUnlock

/-- A task that leaves a pend with an item returns it. -/
theorem Balanced.leave (balanced : kernel.Balanced ledger) (inv : kernel.Inv)
    (atTask : kernel.AtTask) (quiet : kernel.inSched kernel.osPrioCur = false)
    {tcb : OsTcb Message} (held : kernel.osTCBPrioTbl kernel.osPrioCur = some tcb)
    {answer : Answer Message} (left : kernel.leave tcb = some (answer, after)) :
    after.Balanced (ledger.leave kernel.osPrioCur answer) := by
  cases placed : tcb.place with
  | app => simp [Kernel.leave, placed] at left
  | timeDly =>
      simp only [Kernel.leave, placed, Option.some.injEq, Prod.mk.injEq] at left
      obtain ⟨rfl, rfl⟩ := left
      apply balanced.same
      refine ⟨fun _ _ => id, flight_update ?_⟩
      simp [flight, held, OsTcb.inFlight, placed]
  | pend type pevent =>
      obtain ⟨_, _, runnable⟩ := inv.runnable atTask quiet held (by simp [placed])
      have none := (OsStat.pendAny_eq_false _).mp runnable.1
      have before := inv.agrees.agrees _ tcb held
      simp only [Kernel.leave, placed, endPend, Option.some.injEq] at left
      cases status : tcb.osTCBStatPend with
      | pendOk =>
          simp only [status, Prod.mk.injEq] at left
          obtain ⟨rfl, rfl⟩ := left
          refine ⟨balanced.events, fun prio => ?_⟩
          have account := balanced.tasks prio
          by_cases here : prio = kernel.osPrioCur
          · subst here
            have carried : flight kernel.osTCBPrioTbl kernel.osPrioCur = [tcb.osTCBMsg] := by
              simp [flight, held, OsTcb.inFlight, placed, status, none]
            rw [carried] at account
            simp [account, flight, setTcb, OsTcb.inFlight, Ledger.leave]
          · simpa [flight, setTcb, here, Ledger.leave] using account
      | pendAbort =>
          simp only [status, Prod.mk.injEq] at left
          obtain ⟨rfl, rfl⟩ := left
          apply balanced.same
          refine ⟨fun _ _ => id, flight_update ?_⟩
          simp [flight, held, OsTcb.inFlight, placed, status]
      | pendTo =>
          simp only [status, Prod.mk.injEq] at left
          obtain ⟨rfl, rfl⟩ := left
          obtain ⟨event, found, _⟩ := before.live pevent type ⟨placed, Or.inr status⟩
          rw [osEventTaskRemove_eq (kernel.setTcb kernel.osPrioCur _) found]
          refine balanced.same ⟨fun block items => ?_, flight_update ?_⟩
          · rw [setTcb, stored_list found]
            exact id
          · simp [flight, held, OsTcb.inFlight, placed, status]

/-- The scheduler moves no item. -/
theorem SameItems.switch (same : SameItems kernel middle) :
    SameItems kernel middle.osSchedNew.switch := by
  apply same.trans
  unfold Kernel.switch
  split <;> exact ⟨fun _ _ => id, rfl⟩

/-- Each step keeps the accounts. -/
theorem Balanced.act (balanced : kernel.Balanced ledger) (inv : kernel.Inv)
    {action : Action Message} {answer : Answer Message}
    (acted : kernel.act action = some (answer, after)) :
    after.Balanced (kernel.record action ledger) := by
  cases action with
  | call service =>
      simp only [record, acted]
      simp only [Kernel.act] at acted
      split at acted
      next enters =>
        have served := balanced.serve inv.agrees enters.2 service
        rw [Option.some.inj acted] at served
        exact served
      next => contradiction
  | leave =>
      simp only [record, acted]
      simp only [Kernel.act] at acted
      split at acted
      next enters =>
        obtain ⟨tcb, held, left⟩ := Option.bind_eq_some_iff.mp acted
        exact balanced.leave inv enters.1 enters.2 held left
      next => contradiction
  | tickTask =>
      simp only [Kernel.act] at acted
      split at acted
      next => contradiction
      next prio rest _ =>
        split at acted
        next =>
          obtain ⟨_, rfl⟩ := Prod.mk.inj (Option.some.inj acted)
          have same : SameItems kernel (kernel.osTimeTickTask prio) := by
            unfold osTimeTickTask
            cases held : kernel.osTCBPrioTbl prio with
            | none => exact .refl kernel
            | some ptcb =>
                dsimp only
                split
                next delayed =>
                  split
                  next => exact inv.agrees.sameItems_endDly held delayed
                  next =>
                    apply sameItems_setTcb
                    rw [flight, held]
                    rfl
                next => exact .refl kernel
          exact balanced.same ⟨same.events, same.tasks⟩
        next => contradiction
  | sched =>
      simp only [Kernel.act] at acted
      split at acted
      next =>
        obtain ⟨_, rfl⟩ := Prod.mk.inj (Option.some.inj acted)
        unfold osSched
        split
        next =>
          split
          next => exact balanced.same (SameItems.switch ⟨fun _ _ => id, rfl⟩)
          next => exact balanced.same ⟨fun _ _ => id, rfl⟩
        next => exact balanced.same ⟨fun _ _ => id, rfl⟩
      next => contradiction
  | pendSv =>
      simp only [Kernel.act] at acted
      split at acted
      next =>
        obtain ⟨_, rfl⟩ := Prod.mk.inj (Option.some.inj acted)
        exact balanced.same ⟨fun _ _ => id, rfl⟩
      next => contradiction
  | intEnter =>
      obtain ⟨_, rfl⟩ := Prod.mk.inj (Option.some.inj acted)
      split
      next => exact balanced.same ⟨fun _ _ => id, rfl⟩
      next => exact balanced
  | timeTick =>
      simp only [Kernel.act] at acted
      split at acted
      next =>
        obtain ⟨_, rfl⟩ := Prod.mk.inj (Option.some.inj acted)
        exact balanced.same ⟨fun _ _ => id, rfl⟩
      next => contradiction
  | intExit =>
      simp only [Kernel.act] at acted
      split at acted
      next =>
        obtain ⟨_, rfl⟩ := Prod.mk.inj (Option.some.inj acted)
        unfold osIntExit
        dsimp only
        split
        next =>
          split
          next => exact balanced.same (SameItems.switch ⟨fun _ _ => id, rfl⟩)
          next => exact balanced.same ⟨fun _ _ => id, rfl⟩
        next => exact balanced.same ⟨fun _ _ => id, rfl⟩
      next => contradiction

/-- The accounts begin with the items of the first events. -/
def opening (kernel : Kernel Message) : Ledger Message where
  put := fun pevent => (stored kernel.osEventTbl pevent).getD []
  given := fun _ => []
  handed := fun _ => []
  returned := fun _ => []

theorem opening_balanced (creations : List (Creation Message)) :
    (boot creations).Balanced (opening (boot creations)) := by
  constructor
  · intro pevent items held
    simp [opening, held]
  · intro prio
    have quiet := (prepared_creations creations).quiet
    cases held : (boot creations).osTCBPrioTbl prio with
    | none => simp [opening, flight, held]
    | some tcb =>
        obtain rfl := quiet prio tcb held
        simp [opening, flight, held, OsTcb.inFlight, OsTcb.init]

end Kernel

end NnpCamera.Scheduler
