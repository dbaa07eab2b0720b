/-
This file shows in which runs no task uses a deleted connection.
-/

import NnpCamera.Connection.Tasks

namespace NnpCamera.Connection
open Library
open Image (ErrT)

/-- `udp_thread` stands between a delete and the store of the next connection. -/
def ThreadPoint.replacing : ThreadPoint → Bool
  | .clearUdpFlag => true
  | .netconnNew => true
  | .storeUdpconn _ => true
  | _ => false

/-- `udp_send_task` enters its closing branch. -/
def Link.closes (link : Link) : LinkEvent → Bool
  | .udpSendTask _ =>
      match link.sender with
      | .testClosing => link.udpconn.isSome
      | _ => false
  | _ => false

/-- `udp_send_task` does not enter its closing branch, and no send uses `udpconn` while
`udp_thread` replaces it. -/
def Undisturbed (link : Link) (event : LinkEvent) : Prop :=
  link.closes event = false ∧
    (link.thread.replacing = true → link.udpconn ≠ none → link.sent event ≠ link.udpconn)

instance (link : Link) (event : LinkEvent) : Decidable (Undisturbed link event) :=
  inferInstanceAs (Decidable (_ ∧ _))

/-- `udp_send_task` stands outside its closing branch. -/
def SenderPoint.Sending : SenderPoint → Prop
  | .read call => call = .send
  | .pass call _ => call = .send
  | .testClosing => True
  | .clearUdpFlag => False

/-- A connection is deleted exactly while `udp_thread` replaces it, and only `udp_thread` deletes
connections. -/
structure LinkInvariant (link : Link) : Prop where
  replaced : ∀ conn ∈ link.deleted, link.udpconn = some conn ∧ link.thread.replacing = true
  gone : link.thread.replacing = true → ∀ conn, link.udpconn = some conn → conn ∈ link.deleted
  current : ∀ call argument, link.thread = .pass call argument → argument = link.udpconn
  sending : link.sender.Sending

namespace LinkInvariant
variable {link after : Link}

theorem initial (err : ErrT) : LinkInvariant (initialLink err) where
  replaced := by
    intro conn deleted
    simp [initialLink] at deleted
  gone := by
    intro _ conn current
    simp [initialLink] at current
  current := by
    intro call argument point
    simp [initialLink] at point
  sending := rfl

/-- A step keeps the invariant when it keeps the connection, the history and the phase. -/
theorem keep (invariant : LinkInvariant link) (udpconn : after.udpconn = link.udpconn)
    (deleted : after.deleted = link.deleted)
    (phase : after.thread.replacing = link.thread.replacing)
    (current : ∀ call argument, after.thread = .pass call argument → argument = link.udpconn)
    (sending : after.sender.Sending) : LinkInvariant after where
  replaced := by
    rw [udpconn, deleted, phase]
    exact invariant.replaced
  gone := by
    rw [udpconn, deleted, phase]
    exact invariant.gone
  current := by
    rw [udpconn]
    exact current
  sending := sending

/-- Outside the replacement, no connection is deleted. -/
theorem deleted_nil (invariant : LinkInvariant link)
    (outside : link.thread.replacing = false) : link.deleted = [] := by
  apply List.eq_nil_iff_forall_not_mem.mpr
  intro conn deleted
  have replacing := (invariant.replaced conn deleted).2
  rw [outside] at replacing
  contradiction

/-- A delete of the current connection starts its replacement. -/
theorem delete (invariant : LinkInvariant link) (outside : link.thread.replacing = false)
    (udpconn : after.udpconn = link.udpconn)
    (deleted : after.deleted = link.udpconn.toList ++ link.deleted)
    (inside : after.thread.replacing = true) (sender : after.sender = link.sender) :
    LinkInvariant after where
  replaced := by
    intro conn gone
    rw [deleted, invariant.deleted_nil outside, List.append_nil, Option.mem_toList] at gone
    exact ⟨udpconn.trans gone, inside⟩
  gone := by
    intro _ conn current
    rw [udpconn] at current
    simp [deleted, current]
  current := by
    intro call argument point
    rw [point] at inside
    contradiction
  sending := sender ▸ invariant.sending

/-- A move of `udp_thread` to an access keeps the invariant outside the replacement. -/
theorem advance (invariant : LinkInvariant link) (outside : link.thread.replacing = false)
    (err : ErrT) (flag : UInt8) (next : ThreadPoint) (phase : next.replacing = false)
    (access : ∀ call argument, next ≠ .pass call argument) :
    LinkInvariant { link with err := err, udpFlag := flag, thread := next } := by
  refine invariant.keep rfl rfl ?_ ?_ invariant.sending
  · rw [outside]
    exact phase
  · intro call argument point
    exact absurd point (access call argument)

/-- The test of `err` keeps the invariant. -/
theorem testErr (invariant : LinkInvariant link) (outside : link.thread.replacing = false)
    (result : ErrT) : LinkInvariant { link with err := result }.testErr := by
  unfold Link.testErr
  split
  · exact invariant.advance outside _ _ _ rfl (by simp)
  · exact invariant.advance outside _ _ _ rfl (by simp)

/-- Each return of a call keeps the invariant. -/
theorem threadReturn (invariant : LinkInvariant link) {call : ThreadCall} {argument : Pointer}
    (point : link.thread = .pass call argument) (result : ErrT) :
    LinkInvariant (link.threadReturn call argument result) := by
  have outside : link.thread.replacing = false := by
    rw [point]
    rfl
  obtain rfl := invariant.current call argument point
  cases call with
  | bind => exact invariant.advance outside _ _ _ rfl (by simp)
  | connect => exact invariant.testErr outside result
  | deleteUnbound => exact invariant.delete outside rfl rfl rfl rfl
  | getaddr => exact invariant.advance outside _ _ _ rfl (by simp)
  | recv =>
      simp only [Link.threadReturn]
      split
      · exact invariant.advance outside _ _ _ rfl (by simp)
      · exact invariant.advance outside _ _ _ rfl (by simp)
  | close => exact invariant.advance outside _ _ _ rfl (by simp)
  | delete => exact invariant.delete outside rfl rfl rfl rfl

/-- Each step of `udp_thread` keeps the invariant. -/
theorem udpThread (invariant : LinkInvariant link) (result : ErrT) :
    LinkInvariant (link.udpThread result) := by
  have advance := invariant.advance
  have sending := invariant.sending
  cases point : link.thread with
  | netconnNew =>
      rw [Link.udpThread, point]
      dsimp only
      split
      · exact invariant.keep rfl rfl (by rw [point]; rfl) (by simp) sending
      · exact invariant.keep rfl rfl (by rw [point]; rfl) (by simp) sending
  | storeUdpconn conn =>
      rw [Link.udpThread, point]
      constructor
      · simp
      · simp [ThreadPoint.replacing]
      · simp
      · exact sending
  | setTimeout =>
      rw [Link.udpThread, point]
      exact advance (by rw [point]; rfl) _ _ _ rfl (by simp)
  | testNew =>
      rw [Link.udpThread, point]
      dsimp only
      split
      · exact invariant.testErr (by rw [point]; rfl) _
      · exact advance (by rw [point]; rfl) _ _ _ rfl (by simp)
  | read call =>
      rw [Link.udpThread, point]
      refine invariant.keep rfl rfl (by rw [point]; rfl) ?_ sending
      intro other argument same
      injection same with _ argumentSame
      exact argumentSame.symm
  | pass call argument =>
      rw [Link.udpThread, point]
      exact invariant.threadReturn point result
  | setUdpFlag =>
      rw [Link.udpThread, point]
      exact advance (by rw [point]; rfl) _ _ _ rfl (by simp)
  | testClosing =>
      rw [Link.udpThread, point]
      dsimp only
      split
      · exact advance (by rw [point]; rfl) _ _ _ rfl (by simp)
      · exact advance (by rw [point]; rfl) _ _ _ rfl (by simp)
  | clearUdpFlag =>
      rw [Link.udpThread, point]
      exact invariant.keep rfl rfl (by rw [point]; rfl) (by simp) sending

/-- Each step of `udp_send_task` outside its closing branch keeps the invariant. -/
theorem udpSendTask (invariant : LinkInvariant link) (result : ErrT)
    (stays : link.closes (.udpSendTask result) = false) :
    LinkInvariant (link.udpSendTask result) := by
  have sending := invariant.sending
  have moved (point : SenderPoint) (inside : point.Sending) :
      LinkInvariant { link with sender := point } :=
    invariant.keep rfl rfl rfl invariant.current inside
  cases point : link.sender with
  | read call =>
      rw [point] at sending
      simp only [Link.udpSendTask, point]
      exact moved _ sending
  | pass call argument =>
      rw [point] at sending
      obtain rfl : call = .send := sending
      simp only [Link.udpSendTask, point]
      split
      · exact moved _ trivial
      · exact moved _ rfl
  | testClosing =>
      have null : link.udpconn = none := by simpa [Link.closes, point] using stays
      simp only [Link.udpSendTask, point, if_pos null]
      exact moved _ rfl
  | clearUdpFlag =>
      rw [point] at sending
      exact sending.elim

/-- Each step of `imgcamera_task` keeps the invariant. -/
theorem imgcameraTask (invariant : LinkInvariant link) (mode : ImageMode) (result : ErrT) :
    LinkInvariant (link.imgcameraTask mode result) := by
  have moved (flag : UInt8) (point : ImagerPoint) :
      LinkInvariant { link with udpFlag := flag, imager := point } :=
    invariant.keep rfl rfl rfl invariant.current invariant.sending
  cases point : link.imager with
  | testUdpFlag =>
      simp only [Link.imgcameraTask, point]
      exact moved _ _
  | read later =>
      simp only [Link.imgcameraTask, point]
      exact moved _ _
  | pass later argument =>
      simp only [Link.imgcameraTask, point]
      split
      · exact moved _ _
      · exact moved _ _
  | clearUdpFlag later =>
      simp only [Link.imgcameraTask, point]
      exact moved _ _

/-- Each undisturbed step keeps the invariant. -/
theorem step {event : LinkEvent} (invariant : LinkInvariant link) (met : Undisturbed link event)
    (stepped : linkSystem.step link event = some after) : LinkInvariant after := by
  cases event with
  | udpThread result =>
      obtain rfl := Option.some.inj stepped
      exact invariant.udpThread result
  | udpSendTask result =>
      obtain rfl := Option.some.inj stepped
      exact invariant.udpSendTask result met.1
  | imgcameraTask mode result =>
      obtain rfl := Option.some.inj stepped
      exact invariant.imgcameraTask mode result

/-- Each undisturbed run keeps the invariant. -/
theorem reaches {err : ErrT} (reached : linkSystem.Reaches Undisturbed (initialLink err) link) :
    LinkInvariant link :=
  reached.invariant (initial err) fun _ _ _ invariant met stepped => invariant.step met stepped

/-- No undisturbed step uses a deleted connection. -/
theorem not_usesDeleted (invariant : LinkInvariant link) {event : LinkEvent}
    (met : Undisturbed link event) : ¬ UsesDeleted link event := by
  rintro ⟨conn, deleted, sent | released⟩
  · obtain ⟨current, replacing⟩ := invariant.replaced conn deleted
    have present : link.udpconn ≠ none := by simp [current]
    exact met.2 replacing present (sent.trans current.symm)
  · have replacing := (invariant.replaced conn deleted).2
    have sending := invariant.sending
    cases event with
    | udpThread result =>
        cases point : link.thread <;> simp_all [Link.released, ThreadPoint.replacing]
    | udpSendTask result =>
        cases point : link.sender <;> simp_all [Link.released, SenderPoint.Sending]
    | imgcameraTask mode result => simp [Link.released] at released

end LinkInvariant

/-- From its closing branch, `udp_send_task` deletes the connection and then sends on it. -/
theorem closing_usesDeleted {link : Link} {conn : Nat} (point : link.sender = .testClosing)
    (current : link.udpconn = some conn) :
    ∃ later next, linkSystem.Reachable link later ∧ UsesDeleted later next := by
  have closing : linkSystem.step link (.udpSendTask .ok) =
      some { link with sender := .read .close } := by
    simp [linkSystem, Link.udpSendTask, point, current]
  -- The task closes and deletes the connection, clears the flag and prepares its next send.
  have sends : linkSystem.run { link with sender := .read .close }
      (List.replicate 6 (.udpSendTask .ok)) = some { link with
        udpFlag := 0
        deleted := link.udpconn.toList ++ link.deleted
        sender := .pass .send link.udpconn } := by
    simp [List.replicate, System.run_cons, linkSystem, Link.udpSendTask, Link.netconnDelete]
  have first : linkSystem.Reachable link { link with sender := .read .close } :=
    .next .start trivial closing
  have reached := first.trans (System.run_reachable _ _ _ sends)
  refine ⟨_, .udpSendTask .ok, reached, conn, ?_, ?_⟩
  · simp [current]
  · exact .inl current

/-- A disturbed step uses a deleted connection or lets `udp_send_task` delete one. -/
theorem disturbed_usesDeleted {link : Link} (invariant : LinkInvariant link) {event : LinkEvent}
    (disturbed : ¬ Undisturbed link event) :
    ∃ later next, linkSystem.Reachable link later ∧ UsesDeleted later next := by
  by_cases closes : link.closes event = false
  · have used : link.thread.replacing = true ∧ link.udpconn ≠ none ∧
        link.sent event = link.udpconn := by
      simpa [Undisturbed, closes] using disturbed
    obtain ⟨replacing, present, sent⟩ := used
    obtain ⟨conn, current⟩ := Option.ne_none_iff_exists'.mp present
    exact ⟨link, event, .start, conn, invariant.gone replacing conn current,
      .inl (sent.trans current)⟩
  · obtain ⟨point, present⟩ : link.sender = .testClosing ∧ link.udpconn.isSome := by
      unfold Link.closes at closes
      split at closes
      · split at closes
        next point => exact ⟨point, (Bool.not_eq_false _).mp closes⟩
        next => contradiction
      · contradiction
    obtain ⟨conn, current⟩ := Option.isSome_iff_exists.mp present
    exact closing_usesDeleted point current

/-- No task uses a deleted connection in an undisturbed run, and the first disturbed step uses
one or leads to a use. -/
theorem connection_lifecycle {err : ErrT} {link : Link}
    (reached : linkSystem.Reaches Undisturbed (initialLink err) link) (event : LinkEvent) :
    (Undisturbed link event → ¬ UsesDeleted link event) ∧
      (¬ Undisturbed link event →
        ∃ later next, linkSystem.Reachable link later ∧ UsesDeleted later next) := by
  have invariant := LinkInvariant.reaches reached
  exact ⟨invariant.not_usesDeleted, disturbed_usesDeleted invariant⟩

/-- `udp_thread` creates a connection and fails to bind it, deletes it and creates another one. -/
def replacement : List LinkEvent :=
  List.replicate 7 (.udpThread .ok) ++ [.udpThread .use] ++ List.replicate 4 (.udpThread .ok)

/-- The sends resume after a replacement without a use of the deleted connection. -/
theorem connection_lifecycle_replacement :
    ∃ link, linkSystem.Reaches Undisturbed (initialLink .ok) link ∧ link.udpconn = some 1 ∧
      ¬ UsesDeleted link (.udpSendTask .ok) := by
  have passed : ((linkSystem.guarded Undisturbed).run (initialLink .ok)
      (replacement ++ [.udpSendTask .ok])).any (fun link => decide
        (link.udpconn = some 1 ∧ Undisturbed link (.udpSendTask .ok))) = true := by
    decide +kernel
  obtain ⟨link, reached, checked⟩ := System.guarded_check _ _ _ _ _ passed
  obtain ⟨current, met⟩ := of_decide_eq_true checked
  exact ⟨link, reached, current, (connection_lifecycle reached (.udpSendTask .ok)).1 met⟩

/-- `udp_thread` receives on a connection. A send of `udp_send_task` is then reset, so the task
closes and deletes the connection, which `udp_thread` uses for its next receive. -/
def resetSend : List LinkEvent :=
  List.replicate 11 (.udpThread .ok) ++ [.udpSendTask .ok, .udpSendTask .rst] ++
    List.replicate 5 (.udpSendTask .ok) ++ [.udpThread .ok]

/-- After a reset send, `udp_thread` passes the deleted connection to `netconn_recv`. -/
theorem connection_usedDeleted :
    ∃ link, linkSystem.Reachable (initialLink .ok) link ∧
      link.thread = .pass .recv (some 0) ∧ UsesDeleted link (.udpThread .ok) := by
  have ran : (linkSystem.run (initialLink .ok) resetSend).any (fun link => decide
      (link.thread = .pass .recv (some 0) ∧ UsesDeleted link (.udpThread .ok))) = true := by
    decide +kernel
  obtain ⟨link, final, checked⟩ := (Option.any_eq_true _ _).mp ran
  have reached := System.run_reachable _ _ _ final
  exact ⟨link, reached, of_decide_eq_true checked⟩

end NnpCamera.Connection
