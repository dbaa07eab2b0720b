/-
This file compares `udp_flag` with the connection on which `udp_thread` receives.
-/

import NnpCamera.Connection.Tasks

namespace NnpCamera.Connection
open Library
open Image (ErrT)

/-- The connection on which a step of `udp_thread` completes a call with `ERR_OK`. -/
def Link.completes (link : Link) (call : ThreadCall) : LinkEvent → Pointer
  | .udpThread .ok =>
      match link.thread with
      | .pass made argument => if made = call then argument else none
      | _ => none
  | _ => none

/-- The connection that a step passes to `netconn_delete`. -/
def Link.deletes (link : Link) : LinkEvent → Pointer
  | .udpThread _ =>
      match link.thread with
      | .pass .deleteUnbound argument => argument
      | .pass .delete argument => argument
      | _ => none
  | .udpSendTask _ =>
      match link.sender with
      | .pass .delete argument => argument
      | _ => none
  | .imgcameraTask _ _ => none

/-- A run of the tasks with its history: the connections that were bound, that were connected
and that any task has deleted. -/
structure Watched where
  link : Link
  bound : List Nat
  connected : List Nat
  deleted : List Nat

/-- A step adds its completed calls to the history. -/
def Watched.record (watched : Watched) (event : LinkEvent) (link : Link) : Watched where
  link := link
  bound := (watched.link.completes .bind event).toList ++ watched.bound
  connected := (watched.link.completes .connect event).toList ++ watched.connected
  deleted := (watched.link.deletes event).toList ++ watched.deleted

/-- This system takes the steps of `linkSystem` and records their calls. -/
def watchedSystem : System Watched LinkEvent where
  step watched event := (linkSystem.step watched.link event).map (watched.record event)

/-- No call is recorded at the start. -/
def initialWatched (err : ErrT) : Watched where
  link := initialLink err
  bound := []
  connected := []
  deleted := []

/-- A connection is live from its creation, bind and connect until its delete. -/
def Watched.Live (watched : Watched) (conn : Nat) : Prop :=
  conn < watched.link.created ∧ conn ∈ watched.bound ∧ conn ∈ watched.connected ∧
    conn ∉ watched.deleted

instance (watched : Watched) (conn : Nat) : Decidable (watched.Live conn) :=
  inferInstanceAs (Decidable (_ ∧ _ ∧ _ ∧ _))

/-- Each call of `netconn_recv` on a live connection finds 1 in `udp_flag`. -/
def RecvAgrees (watched : Watched) : Prop :=
  ∀ conn, watched.link.thread = .pass .recv (some conn) → watched.Live conn →
    watched.link.udpFlag = 1

/-- Each call of `netconn_new` finds 0 in `udp_flag`. -/
def NewAgrees (watched : Watched) : Prop :=
  watched.link.thread = .netconnNew → watched.link.udpFlag = 0

/-- `udp_thread` has not yet stored 1 in `udp_flag`. -/
def ThreadPoint.opening : ThreadPoint → Bool
  | .netconnNew => true
  | .storeUdpconn _ => true
  | .setTimeout => true
  | .testNew => true
  | .read call => call = .bind ∨ call = .connect ∨ call = .deleteUnbound
  | .pass call _ => call = .bind ∨ call = .connect ∨ call = .deleteUnbound
  | .setUdpFlag => true
  | .testClosing => false
  | .clearUdpFlag => false

/-- `udp_thread` has stored 1 in `udp_flag` and no receive has failed. -/
def ThreadPoint.receiving : ThreadPoint → Bool
  | .read call => call = .getaddr ∨ call = .recv
  | .pass call _ => call = .getaddr ∨ call = .recv
  | _ => false

/-- `udp_thread` receives on a live connection. -/
def Watched.Serving (watched : Watched) : Prop :=
  watched.link.thread.receiving = true ∧ ∃ conn, conn ∈ watched.link.udpconn ∧ watched.Live conn

instance (watched : Watched) : Decidable watched.Serving :=
  inferInstanceAs (Decidable (_ ∧ _))

/-- `udp_send_task` or `imgcamera_task` stores 0 in `udp_flag`. -/
def Link.clears (link : Link) : LinkEvent → Bool
  | .udpThread _ => false
  | .udpSendTask _ =>
      match link.sender with
      | .clearUdpFlag => true
      | _ => false
  | .imgcameraTask _ _ =>
      match link.imager with
      | .clearUdpFlag _ => true
      | _ => false

/-- No other task marks the link as down while `udp_thread` receives on a live connection. -/
def Timely (watched : Watched) (event : LinkEvent) : Prop :=
  watched.link.clears event = true → ¬ watched.Serving

instance (watched : Watched) (event : LinkEvent) : Decidable (Timely watched event) :=
  inferInstanceAs (Decidable (_ → _))

/-- A step of `udp_send_task` changes only `udp_flag`, its own place and the deleted connections. -/
theorem Link.udpSendTask_frame (link : Link) (result : ErrT) :
    (link.udpSendTask result).thread = link.thread ∧
      (link.udpSendTask result).udpconn = link.udpconn ∧
      (link.udpSendTask result).created = link.created ∧
      (link.udpSendTask result).udpFlag =
        if link.clears (.udpSendTask result) then 0 else link.udpFlag := by
  cases point : link.sender with
  | read call => simp [Link.udpSendTask, Link.clears, point]
  | pass call argument =>
      cases call with
      | send => simp [Link.udpSendTask, Link.clears, point]
      | close => simp [Link.udpSendTask, Link.clears, point]
      | delete => simp [Link.udpSendTask, Link.clears, Link.netconnDelete, point]
  | testClosing => simp [Link.udpSendTask, Link.clears, point]
  | clearUdpFlag => simp [Link.udpSendTask, Link.clears, point]

/-- A step of `imgcamera_task` changes only `udp_flag` and its own place. -/
theorem Link.imgcameraTask_frame (link : Link) (mode : ImageMode) (result : ErrT) :
    (link.imgcameraTask mode result).thread = link.thread ∧
      (link.imgcameraTask mode result).udpconn = link.udpconn ∧
      (link.imgcameraTask mode result).created = link.created ∧
      (link.imgcameraTask mode result).udpFlag =
        if link.clears (.imgcameraTask mode result) then 0 else link.udpFlag := by
  cases point : link.imager with
  | testUdpFlag => simp [Link.imgcameraTask, Link.clears, point]
  | read later => simp [Link.imgcameraTask, Link.clears, point]
  | pass later argument =>
      simp only [Link.imgcameraTask, Link.clears, point]
      split
      · simp
      · simp
  | clearUdpFlag later => simp [Link.imgcameraTask, Link.clears, point]

/-- `udp_thread` enters a new opening only with a cleared flag. -/
theorem Link.udpThread_opening (link : Link) (result : ErrT)
    (opens : (link.udpThread result).thread.opening = true) :
    (link.udpThread result).udpFlag = 0 ∨
      link.thread.opening = true ∧ (link.udpThread result).udpFlag = link.udpFlag := by
  cases point : link.thread with
  | netconnNew =>
      simp only [Link.udpThread, point]
      split
      · exact .inr ⟨rfl, rfl⟩
      · exact .inr ⟨rfl, rfl⟩
  | storeUdpconn conn => exact .inr ⟨rfl, by simp [Link.udpThread, point]⟩
  | setTimeout => exact .inr ⟨rfl, by simp [Link.udpThread, point]⟩
  | testNew =>
      simp only [Link.udpThread, Link.testErr, point]
      split
      · exact .inr ⟨rfl, rfl⟩
      · exact .inr ⟨rfl, rfl⟩
  | read call => exact .inr (by simpa [Link.udpThread, ThreadPoint.opening, point] using opens)
  | pass call argument =>
      cases call with
      | bind => exact .inr ⟨rfl, by simp [Link.udpThread, Link.threadReturn, point]⟩
      | connect => exact .inr ⟨rfl, by simp [Link.udpThread, Link.threadReturn, Link.testErr, point]⟩
      | deleteUnbound =>
          exact .inr ⟨rfl, by simp [Link.udpThread, Link.threadReturn, Link.netconnDelete, point]⟩
      | getaddr => simp [Link.udpThread, Link.threadReturn, ThreadPoint.opening, point] at opens
      | recv =>
          simp only [Link.udpThread, Link.threadReturn, point] at opens
          split at opens
          · contradiction
          · contradiction
      | close => simp [Link.udpThread, Link.threadReturn, ThreadPoint.opening, point] at opens
      | delete => simp [Link.udpThread, Link.threadReturn, ThreadPoint.opening, point] at opens
  | setUdpFlag => simp [Link.udpThread, ThreadPoint.opening, point] at opens
  | testClosing =>
      simp only [Link.udpThread, point] at opens
      split at opens
      · contradiction
      · contradiction
  | clearUdpFlag => exact .inl (by simp [Link.udpThread, point])

/-- `udp_thread` enters its receive loop with a set flag, and stays in it without an access of
the flag or the pointer. -/
theorem Link.udpThread_receiving (link : Link) (result : ErrT)
    (receives : (link.udpThread result).thread.receiving = true) :
    (link.udpThread result).udpFlag = 1 ∨ (link.udpThread result).udpconn = none ∨
      link.thread.receiving = true ∧ (link.udpThread result).udpFlag = link.udpFlag ∧
        (link.udpThread result).udpconn = link.udpconn ∧
        (link.udpThread result).created = link.created := by
  cases point : link.thread with
  | netconnNew =>
      simp only [Link.udpThread, point] at receives
      split at receives
      · contradiction
      · contradiction
  | storeUdpconn conn => simp [Link.udpThread, ThreadPoint.receiving, point] at receives
  | setTimeout => simp [Link.udpThread, ThreadPoint.receiving, point] at receives
  | testNew =>
      simp only [Link.udpThread, Link.testErr, point] at receives
      split at receives
      · split at receives
        · contradiction
        · contradiction
      · contradiction
  | read call =>
      right
      right
      simpa [Link.udpThread, ThreadPoint.receiving, point] using receives
  | pass call argument =>
      cases call with
      | bind => simp [Link.udpThread, Link.threadReturn, ThreadPoint.receiving, point] at receives
      | connect =>
          simp only [Link.udpThread, Link.threadReturn, Link.testErr, point] at receives
          split at receives
          · contradiction
          · contradiction
      | deleteUnbound =>
          simp [Link.udpThread, Link.threadReturn, ThreadPoint.receiving, point] at receives
      | getaddr =>
          right
          right
          simp [Link.udpThread, Link.threadReturn, ThreadPoint.receiving, point]
      | recv =>
          right
          right
          simp [Link.udpThread, Link.threadReturn, ThreadPoint.receiving, point]
      | close => simp [Link.udpThread, Link.threadReturn, ThreadPoint.receiving, point] at receives
      | delete => simp [Link.udpThread, Link.threadReturn, ThreadPoint.receiving, point] at receives
  | setUdpFlag => exact .inl (by simp [Link.udpThread, point])
  | testClosing =>
      simp only [Link.udpThread, point] at receives ⊢
      split at receives
      next null => exact .inr (.inl null)
      next => contradiction
  | clearUdpFlag => simp [Link.udpThread, ThreadPoint.receiving, point] at receives

/-- Each call of `udp_thread` passes the connection that it has just read. -/
theorem Link.udpThread_argument (link : Link) (result : ErrT) {call : ThreadCall}
    {argument : Pointer} (passes : (link.udpThread result).thread = .pass call argument) :
    argument = (link.udpThread result).udpconn := by
  cases point : link.thread with
  | read other =>
      simp only [Link.udpThread, point] at passes ⊢
      injection passes with _ same
      exact same.symm
  | pass other old =>
      simp only [Link.udpThread, point] at passes
      cases other with
      | connect =>
          simp only [Link.threadReturn, Link.testErr] at passes
          split at passes
          · contradiction
          · contradiction
      | recv =>
          simp only [Link.threadReturn] at passes
          split at passes
          · contradiction
          · contradiction
      | _ => contradiction
  | _ =>
      simp only [Link.udpThread, Link.testErr, point] at passes
      repeat split at passes
      all_goals contradiction

section History
variable {watched after : Watched} {conn : Nat}

/-- In the receive loop, no call adds a live connection. -/
theorem Watched.Live.of_record {event : LinkEvent} {link : Link}
    (live : (watched.record event link).Live conn) (created : link.created = watched.link.created)
    (loop : ∀ result, event = .udpThread result → watched.link.thread.receiving = true) :
    watched.Live conn := by
  have unrecorded (call : ThreadCall) (opens : call = .bind ∨ call = .connect) :
      watched.link.completes call event = none := by
    cases event with
    | udpThread result =>
        have receives := loop result rfl
        cases point : watched.link.thread with
        | pass made argument =>
            rw [point] at receives
            obtain rfl | rfl := opens
            · cases made <;> cases result <;> simp_all [Link.completes, ThreadPoint.receiving]
            · cases made <;> cases result <;> simp_all [Link.completes, ThreadPoint.receiving]
        | _ => cases result <;> simp [Link.completes, point]
    | udpSendTask result => rfl
    | imgcameraTask mode result => rfl
  obtain ⟨old, bound, connected, kept⟩ := live
  simp only [Watched.record, unrecorded, Option.toList_none, List.nil_append, List.mem_append,
    not_or, true_or, or_true] at bound connected kept
  exact ⟨created ▸ old, bound, connected, kept.2⟩

/-- The flag is clear before the receive loop and set while the loop serves a live connection. -/
structure FlagInvariant (watched : Watched) : Prop where
  opening : watched.link.thread.opening = true → watched.link.udpFlag = 0
  serving : watched.Serving → watched.link.udpFlag = 1
  argument : ∀ call argument, watched.link.thread = .pass call argument →
    argument = watched.link.udpconn

namespace FlagInvariant

theorem initial (err : ErrT) : FlagInvariant (initialWatched err) where
  opening := fun _ => rfl
  serving := fun serving => absurd serving.1 (by simp [initialWatched, initialLink,
    ThreadPoint.receiving])
  argument := by simp [initialWatched, initialLink]

/-- Each step of `udp_thread` keeps the invariant. -/
theorem udpThread (invariant : FlagInvariant watched) (result : ErrT) :
    FlagInvariant (watched.record (.udpThread result) (watched.link.udpThread result)) where
  opening := by
    intro opens
    obtain zero | ⟨before, same⟩ := watched.link.udpThread_opening result opens
    · exact zero
    · exact same.trans (invariant.opening before)
  serving := by
    rintro ⟨receives, conn, current, live⟩
    obtain one | null | ⟨before, same, udpconn, created⟩ :=
      watched.link.udpThread_receiving result receives
    · exact one
    · change conn ∈ (watched.link.udpThread result).udpconn at current
      rw [null] at current
      contradiction
    · change conn ∈ (watched.link.udpThread result).udpconn at current
      rw [udpconn] at current
      have old := live.of_record created fun _ _ => before
      exact same.trans (invariant.serving ⟨before, conn, current, old⟩)
  argument := fun _ _ passes => watched.link.udpThread_argument result passes

/-- A timely step of another task keeps the invariant. -/
theorem otherTask (invariant : FlagInvariant watched) {event : LinkEvent} {link : Link}
    (met : Timely watched event) (other : ∀ result, event ≠ .udpThread result)
    (thread : link.thread = watched.link.thread) (udpconn : link.udpconn = watched.link.udpconn)
    (created : link.created = watched.link.created)
    (flag : link.udpFlag = if watched.link.clears event then 0 else watched.link.udpFlag) :
    FlagInvariant (watched.record event link) where
  opening := by
    change link.thread.opening = true → link.udpFlag = 0
    rw [thread, flag]
    intro opens
    rw [invariant.opening opens, ite_self]
  serving := by
    rintro ⟨receives, conn, current, live⟩
    change link.thread.receiving = true at receives
    change conn ∈ link.udpconn at current
    rw [thread] at receives
    rw [udpconn] at current
    have old := live.of_record created fun result same => absurd same (other result)
    have before : watched.Serving := ⟨receives, conn, current, old⟩
    -- A clear would have met the serving loop.
    have kept : ¬ watched.link.clears event = true := fun clears => met clears before
    exact (flag.trans (if_neg kept)).trans (invariant.serving before)
  argument := by
    change ∀ call argument, link.thread = .pass call argument → argument = link.udpconn
    rw [thread, udpconn]
    exact invariant.argument

/-- Each timely step keeps the invariant. -/
theorem step {event : LinkEvent} (invariant : FlagInvariant watched) (met : Timely watched event)
    (stepped : watchedSystem.step watched event = some after) : FlagInvariant after := by
  cases event with
  | udpThread result =>
      obtain rfl := Option.some.inj stepped
      exact invariant.udpThread result
  | udpSendTask result =>
      obtain rfl := Option.some.inj stepped
      obtain ⟨thread, udpconn, created, flag⟩ := watched.link.udpSendTask_frame result
      exact invariant.otherTask met (by simp) thread udpconn created flag
  | imgcameraTask mode result =>
      obtain rfl := Option.some.inj stepped
      obtain ⟨thread, udpconn, created, flag⟩ := watched.link.imgcameraTask_frame mode result
      exact invariant.otherTask met (by simp) thread udpconn created flag

/-- Each timely run keeps the invariant. -/
theorem reaches {err : ErrT}
    (reached : watchedSystem.Reaches Timely (initialWatched err) watched) :
    FlagInvariant watched :=
  reached.invariant (initial err) fun _ _ _ invariant met stepped => invariant.step met stepped

theorem newAgrees (invariant : FlagInvariant watched) : NewAgrees watched := by
  intro point
  exact invariant.opening (by rw [point]; rfl)

theorem recvAgrees (invariant : FlagInvariant watched) : RecvAgrees watched := by
  intro conn point live
  have receives : watched.link.thread.receiving = true := by
    rw [point]
    rfl
  have current : conn ∈ watched.link.udpconn := (invariant.argument _ _ point).symm
  exact invariant.serving ⟨receives, conn, current, live⟩

end FlagInvariant

/-- The same state with `udp_thread` at the call of `netconn_recv`. -/
def Watched.atRecv (watched : Watched) : Watched :=
  { watched with link := { watched.link with thread := .pass .recv watched.link.udpconn } }

/-- From each place of its receive loop, `udp_thread` comes to `netconn_recv` and changes nothing
else. -/
theorem receive_runs (receives : watched.link.thread.receiving = true)
    (argument : ∀ call argument, watched.link.thread = .pass call argument →
      argument = watched.link.udpconn) :
    ∃ steps, watchedSystem.run watched (List.replicate steps (.udpThread .ok)) =
      some watched.atRecv := by
  obtain ⟨link, bound, connected, deleted⟩ := watched
  cases point : link.thread with
  | read call =>
      cases call with
      | getaddr =>
          use 3
          simp [List.replicate, System.run_cons, watchedSystem, linkSystem, Watched.record,
            Watched.atRecv, Link.udpThread, Link.threadReturn, Link.completes, Link.deletes, point]
      | recv =>
          use 1
          simp [List.replicate, System.run_cons, watchedSystem, linkSystem, Watched.record,
            Watched.atRecv, Link.udpThread, Link.completes, Link.deletes, point]
      | _ => simp [ThreadPoint.receiving, point] at receives
  | pass call old =>
      obtain rfl := argument call old point
      cases call with
      | getaddr =>
          use 2
          simp [List.replicate, System.run_cons, watchedSystem, linkSystem, Watched.record,
            Watched.atRecv, Link.udpThread, Link.threadReturn, Link.completes, Link.deletes, point]
      | recv =>
          use 0
          simp [Watched.atRecv, ← point]
      | _ => simp [ThreadPoint.receiving, point] at receives
  | _ => simp [ThreadPoint.receiving, point] at receives

/-- A serving loop with a cleared flag calls `netconn_recv` with the cleared flag. -/
theorem serving_disagrees (serving : watched.Serving) (zero : watched.link.udpFlag = 0)
    (argument : ∀ call argument, watched.link.thread = .pass call argument →
      argument = watched.link.udpconn) :
    ∃ later, watchedSystem.Reachable watched later ∧ ¬ RecvAgrees later := by
  obtain ⟨receives, conn, current, live⟩ := serving
  obtain ⟨steps, ran⟩ := receive_runs receives argument
  have reached := System.run_reachable _ _ _ ran
  refine ⟨watched.atRecv, reached, fun agrees => ?_⟩
  have point : watched.atRecv.link.thread = .pass .recv (some conn) :=
    congrArg (ThreadPoint.pass .recv) current
  have one : watched.link.udpFlag = 1 := agrees conn point live
  rw [zero] at one
  contradiction

/-- A clear during the receive loop leads to a receive on a live connection with a cleared flag. -/
theorem untimely_disagrees (invariant : FlagInvariant watched) {event : LinkEvent}
    (untimely : ¬ Timely watched event) :
    ∃ later, watchedSystem.Reachable watched later ∧ ¬ RecvAgrees later := by
  obtain ⟨clears, serving⟩ : watched.link.clears event = true ∧ watched.Serving := by
    simpa [Timely] using untimely
  -- The clear changes the flag and the place of its own task.
  obtain ⟨link, stepped, thread, udpconn, created, flag, kept⟩ : ∃ link,
      watchedSystem.step watched event = some (watched.record event link) ∧
        link.thread = watched.link.thread ∧ link.udpconn = watched.link.udpconn ∧
        link.created = watched.link.created ∧ link.udpFlag = 0 ∧
        watched.record event link = { watched with link := link } := by
    cases event with
    | udpThread result => contradiction
    | udpSendTask result =>
        have frame := watched.link.udpSendTask_frame result
        rw [if_pos clears] at frame
        refine ⟨_, rfl, frame.1, frame.2.1, frame.2.2.1, frame.2.2.2, ?_⟩
        cases point : watched.link.sender with
        | clearUdpFlag => simp [Watched.record, Link.completes, Link.deletes, point]
        | _ => simp [Link.clears, point] at clears
    | imgcameraTask mode result =>
        have frame := watched.link.imgcameraTask_frame mode result
        rw [if_pos clears] at frame
        exact ⟨_, rfl, frame.1, frame.2.1, frame.2.2.1, frame.2.2.2, rfl⟩
  rw [kept] at stepped
  have still : ({ watched with link := link } : Watched).Serving := by
    obtain ⟨receives, conn, current, live⟩ := serving
    refine ⟨thread ▸ receives, conn, udpconn ▸ current, ?_⟩
    exact ⟨created ▸ live.1, live.2⟩
  have argument : ∀ call argument, link.thread = .pass call argument →
      argument = link.udpconn := by
    rw [thread, udpconn]
    exact invariant.argument
  obtain ⟨later, rest, disagrees⟩ := serving_disagrees still flag argument
  exact ⟨later, System.Reaches.trans (.next .start trivial stepped) rest, disagrees⟩

end History

/-- In a timely run the flag agrees with the connection at each `netconn_new` and `netconn_recv`,
and the first untimely step leads to a receive on a live connection that is marked as down. -/
theorem flag_agrees {err : ErrT} {watched : Watched}
    (reached : watchedSystem.Reaches Timely (initialWatched err) watched) :
    NewAgrees watched ∧ RecvAgrees watched ∧
      ∀ event, ¬ Timely watched event →
        ∃ later, watchedSystem.Reachable watched later ∧ ¬ RecvAgrees later := by
  have invariant := FlagInvariant.reaches reached
  exact ⟨invariant.newAgrees, invariant.recvAgrees, fun _ => untimely_disagrees invariant⟩

/-- `udp_thread` creates, binds and connects a connection and comes to its first receive. -/
def firstReceive : List LinkEvent := List.replicate 12 (.udpThread .ok)

/-- The first receive finds 1 in `udp_flag`. -/
theorem flag_agrees_firstReceive :
    ∃ watched, watchedSystem.Reaches Timely (initialWatched .ok) watched ∧
      watched.link.thread = .pass .recv (some 0) ∧ watched.Live 0 ∧ watched.link.udpFlag = 1 := by
  have passed : ((watchedSystem.guarded Timely).run (initialWatched .ok) firstReceive).any
      (fun watched => decide (watched.link.thread = .pass .recv (some 0) ∧ watched.Live 0)) =
        true := by
    decide +kernel
  obtain ⟨watched, reached, checked⟩ := System.guarded_check _ _ _ _ _ passed
  obtain ⟨point, live⟩ := of_decide_eq_true checked
  exact ⟨watched, reached, point, live, (flag_agrees reached).2.1 0 point live⟩

/-- A receive that returns `ERR_OK` changes nothing, so it can follow any number of times. -/
theorem receive_repeats {watched : Watched}
    (point : watched.link.thread = .pass .recv watched.link.udpconn) (count : Nat) :
    watchedSystem.run watched (List.replicate (2 * count) (.udpThread .ok)) = some watched := by
  induction count with
  | zero => rfl
  | succ count ih =>
      have twice : 2 * (count + 1) = 2 * count + 1 + 1 := by omega
      rw [twice, List.replicate_succ, List.replicate_succ, System.run_cons]
      obtain ⟨link, bound, connected, deleted⟩ := watched
      change link.thread = .pass .recv link.udpconn at point
      have first : watchedSystem.step ⟨link, bound, connected, deleted⟩ (.udpThread .ok) =
          some ⟨{ link with thread := .read .recv }, bound, connected, deleted⟩ := by
        simp [watchedSystem, linkSystem, Watched.record, Link.udpThread, Link.threadReturn,
          Link.completes, Link.deletes, Closing, point]
      have second : watchedSystem.step
          ⟨{ link with thread := .read .recv }, bound, connected, deleted⟩ (.udpThread .ok) =
          some ⟨link, bound, connected, deleted⟩ := by
        simp [watchedSystem, linkSystem, Watched.record, Link.udpThread, Link.completes,
          Link.deletes, ← point]
      rw [first, Option.bind_some, System.run_cons, second, Option.bind_some, ih]

/-- A send of `imgcamera_task` is reset while `udp_thread` receives. -/
def resetImage : List LinkEvent :=
  firstReceive ++ List.replicate 4 (.imgcameraTask .stream .rst)

/-- After a reset image packet, `udp_thread` receives on the live connection with a cleared flag,
as often as datagrams arrive. -/
theorem flag_disagrees :
    ∃ watched, watchedSystem.Reachable (initialWatched .ok) watched ∧ ¬ RecvAgrees watched ∧
      watched.link.thread = .pass .recv (some 0) ∧ watched.Live 0 ∧ watched.link.udpFlag = 0 ∧
      ∀ count, watchedSystem.run watched (List.replicate (2 * count) (.udpThread .ok)) =
        some watched := by
  have ran : (watchedSystem.run (initialWatched .ok) resetImage).any (fun watched => decide
      (watched.link.udpconn = some 0 ∧ watched.link.thread = .pass .recv (some 0) ∧
        watched.Live 0 ∧ watched.link.udpFlag = 0)) = true := by
    decide +kernel
  obtain ⟨watched, final, checked⟩ := (Option.any_eq_true _ _).mp ran
  obtain ⟨current, point, live, zero⟩ := of_decide_eq_true checked
  have reached := System.run_reachable _ _ _ final
  have disagrees : ¬ RecvAgrees watched := by
    intro agrees
    have one := agrees 0 point live
    rw [zero] at one
    contradiction
  exact ⟨watched, reached, disagrees, point, live, zero,
    receive_repeats (current ▸ point)⟩

end NnpCamera.Connection
