/-
This file interleaves the AOI reads of a mode-3 send with the accesses of a command.
-/

import NnpCamera.Parameters.AoiWindow

namespace NnpCamera.Parameters
open Library Board

/-- The window that memory holds, which can mix two settings during a command. -/
def Board.window (board : Board) : UInt16 × UInt8 := board.currentCamPara.aoiWindow

/-- The mode-3 branch can lose the processor before each of these accesses. -/
inductive SendPoint where
  | idle
  | readHeight
  | readStartHigh
  | readStartLow
  | sending
  deriving DecidableEq, Repr

/-- A finished send has its packet count, its first index, and the settings that were in
force during its iteration. -/
structure Send where
  udpPacketCount : UInt16
  udpDetectYStartPacketIndex : UInt16
  history : List (UInt16 × UInt8)

/-- This state holds the parameters, the rest of the running command, and the locals of the
sending task. The other fields are history: the setting in force after the last complete
command, the settings in force during this iteration, whether the first read saw a window
that no complete command had left, and the finished sends. -/
structure SnapshotState where
  board : Board
  command : Option (Program Board)
  task : SendPoint
  udpPacketCount : UInt16
  startHigh : UInt8
  udpDetectYStartPacketIndex : UInt16
  inForce : UInt16 × UInt8
  history : List (UInt16 × UInt8)
  ahead : Bool
  sends : List Send

/-- The command task receives a block or makes one access, or the sending task makes one. -/
inductive SnapshotEvent where
  | receive (block : Block)
  | command
  | task

/-- The command task makes the next access of its program, or completes it. -/
def commandStep (state : SnapshotState) (program : Program Board) : SnapshotState :=
  match program.next state.board with
  | some (board, rest) => { state with board := board, command := some rest }
  | none =>
      { state with
        command := none
        inForce := state.board.window
        history := state.board.window :: state.history
        ahead := false }

/-- The sending task makes the access at its program point. -/
def sendStep (state : SnapshotState) : SnapshotState :=
  let para := state.board.currentCamPara
  match state.task with
  | .idle => { state with history := [state.inForce], ahead := false, task := .readHeight }
  | .readHeight =>
      { state with
        udpPacketCount := para.udpPacketCount
        ahead := decide (state.board.window ∉ state.history)
        task := .readStartHigh }
  | .readStartHigh => { state with startHigh := para.aoishowstartyh, task := .readStartLow }
  | .readStartLow =>
      { state with
        udpDetectYStartPacketIndex :=
          ((state.startHigh.toUInt16 <<< 8) + para.aoishowstartyl.toUInt16) <<< 1
        task := .sending }
  | .sending =>
      { state with
        sends := ⟨state.udpPacketCount, state.udpDetectYStartPacketIndex, state.history⟩ ::
          state.sends
        task := .idle }

/-- This system runs one command and one sending task, and either can preempt the other. -/
def snapshotSystem : System SnapshotState SnapshotEvent where
  step state event :=
    match event with
    | .receive block =>
        match state.command with
        | none => some { state with command := some (udpDataprocess block) }
        | some _ => none
    | .command => state.command.map (commandStep state)
    | .task => some (sendStep state)

/-- A send uses one of the settings that were in force during its iteration. -/
def Send.Consistent (send : Send) : Prop :=
  ∃ window ∈ send.history, send.udpPacketCount = window.2.toUInt16 <<< 1 ∧
    send.udpDetectYStartPacketIndex = window.1 <<< 1

/-- The next access of the command leaves alone the AOI bytes that are still to be read. -/
def LeavesUnread (state : SnapshotState) (program : Program Board) : Prop :=
  ∀ result ∈ program.next state.board,
    (state.task = .readStartHigh →
      result.1.currentCamPara.aoishowstartyh = state.board.currentCamPara.aoishowstartyh) ∧
    (state.task = .readStartHigh ∨ state.task = .readStartLow →
      result.1.currentCamPara.aoishowstartyl = state.board.currentCamPara.aoishowstartyl)

/-- Memory holds a setting in force, or the running command has no AOI byte left to change. -/
def Settled (state : SnapshotState) : Prop :=
  state.board.window ∈ state.history ∨
    ∃ program ∈ state.command, (program.exec state.board).window = state.board.window

/-- No step disturbs a snapshot: the first read meets a settled window, no command changes a
byte that is still to be read, and a command that was seen ahead of its end ends in time. -/
def Undisturbed (state : SnapshotState) : SnapshotEvent → Prop
  | .receive _ => True
  | .command => ∀ program ∈ state.command, LeavesUnread state program
  | .task =>
      (state.task = .readHeight → Settled state) ∧ (state.task = .sending → state.ahead = false)

instance (state : SnapshotState) (program : Program Board) :
    Decidable (LeavesUnread state program) :=
  inferInstanceAs (Decidable (∀ result ∈ program.next state.board, _ ∧ _))

instance (state : SnapshotState) : Decidable (Settled state) :=
  inferInstanceAs (Decidable (_ ∈ _ ∨ ∃ program ∈ state.command, _ = _))

instance (state : SnapshotState) : (event : SnapshotEvent) → Decidable (Undisturbed state event)
  | .receive _ => .isTrue trivial
  | .command => inferInstanceAs (Decidable (∀ program ∈ state.command, LeavesUnread state program))
  | .task => inferInstanceAs (Decidable ((_ → _) ∧ (_ → _)))

/-- The window is in force during the iteration, or the running command will leave it. -/
def Expected (state : SnapshotState) (window : UInt16 × UInt8) : Prop :=
  window ∈ state.history ∨
    state.ahead = true ∧ ∃ program, state.command = some program ∧
      (program.exec state.board).window = window

/-- After its first read the task gathers the bytes of one expected window. -/
structure SnapshotInvariant (state : SnapshotState) : Prop where
  afterHeight : state.task = .readStartHigh → ∃ window, Expected state window ∧
    state.udpPacketCount = window.2.toUInt16 <<< 1 ∧
    state.board.currentCamPara.aoiShowStartY = window.1
  afterHigh : state.task = .readStartLow → ∃ window, Expected state window ∧
    state.udpPacketCount = window.2.toUInt16 <<< 1 ∧
    (state.startHigh.toUInt16 <<< 8) +
      state.board.currentCamPara.aoishowstartyl.toUInt16 = window.1
  afterLow : state.task = .sending → ∃ window, Expected state window ∧
    state.udpPacketCount = window.2.toUInt16 <<< 1 ∧
    state.udpDetectYStartPacketIndex = window.1 <<< 1
  sent : ∀ send ∈ state.sends, send.Consistent

/-- A new command keeps the expected windows, because no command runs before it. -/
theorem Expected.receive {state : SnapshotState} {window : UInt16 × UInt8} {block : Block}
    (expected : Expected state window) (free : state.command = none) :
    Expected { state with command := some (udpDataprocess block) } window := by
  rcases expected with past | ⟨_, program, running, _⟩
  · exact .inl past
  · simp [free] at running

/-- An access of the command, or its end, keeps the expected windows. -/
theorem Expected.commandStep {state : SnapshotState} {program : Program Board}
    {window : UInt16 × UInt8} (running : state.command = some program)
    (expected : Expected state window) : Expected (commandStep state program) window := by
  rcases expected with past | ⟨ahead, _, same, leaves⟩
  · unfold Parameters.commandStep
    split
    · exact .inl past
    · exact .inl (List.mem_cons_of_mem _ past)
  · obtain rfl := Option.some.inj (running.symm.trans same)
    unfold Parameters.commandStep
    cases stepped : program.next state.board with
    | some result =>
        obtain ⟨board, rest⟩ := result
        refine .inr ⟨ahead, rest, rfl, ?_⟩
        rw [Program.next_exec stepped]
        exact leaves
    | none =>
        -- A program without a next access is complete, so it leaves the present window.
        have complete := Program.next_none stepped
        rw [complete] at leaves
        exact .inl (leaves ▸ List.mem_cons_self)

/-- A step that keeps the locals of the task keeps the invariant when it keeps the expected
windows and the bytes that are still to be read. -/
theorem SnapshotInvariant.transfer {state after : SnapshotState} (sound : SnapshotInvariant state)
    (task : after.task = state.task) (count : after.udpPacketCount = state.udpPacketCount)
    (high : after.startHigh = state.startHigh)
    (index : after.udpDetectYStartPacketIndex = state.udpDetectYStartPacketIndex)
    (sends : after.sends = state.sends)
    (expected : ∀ window, Expected state window → Expected after window)
    (unreadStart : state.task = .readStartHigh →
      after.board.currentCamPara.aoiShowStartY = state.board.currentCamPara.aoiShowStartY)
    (unreadLow : state.task = .readStartLow →
      after.board.currentCamPara.aoishowstartyl = state.board.currentCamPara.aoishowstartyl) :
    SnapshotInvariant after where
  afterHeight atHigh := by
    rw [task] at atHigh
    obtain ⟨window, known, counted, started⟩ := sound.afterHeight atHigh
    exact ⟨window, expected window known, count.trans counted, (unreadStart atHigh).trans started⟩
  afterHigh atLow := by
    rw [task] at atLow
    obtain ⟨window, known, counted, started⟩ := sound.afterHigh atLow
    refine ⟨window, expected window known, count.trans counted, ?_⟩
    rw [high, unreadLow atLow]
    exact started
  afterLow atSending := by
    rw [task] at atSending
    obtain ⟨window, known, counted, started⟩ := sound.afterLow atSending
    exact ⟨window, expected window known, count.trans counted, index.trans started⟩
  sent := by
    rw [sends]
    exact sound.sent

/-- An access of the command keeps the invariant when it leaves the unread bytes alone. -/
theorem SnapshotInvariant.commandStep {state : SnapshotState} {program : Program Board}
    (sound : SnapshotInvariant state) (running : state.command = some program)
    (leaves : LeavesUnread state program) : SnapshotInvariant (commandStep state program) := by
  have expected (window : UInt16 × UInt8) (known : Expected state window) :
      Expected (Parameters.commandStep state program) window := known.commandStep running
  cases stepped : program.next state.board with
  | none =>
      simp only [Parameters.commandStep, stepped] at expected ⊢
      exact sound.transfer rfl rfl rfl rfl rfl expected (fun _ => rfl) (fun _ => rfl)
  | some result =>
      obtain ⟨board, rest⟩ := result
      have unread := leaves (board, rest) stepped
      simp only [Parameters.commandStep, stepped] at expected ⊢
      refine sound.transfer rfl rfl rfl rfl rfl expected ?_ ?_
      · intro atHigh
        rw [SendPacket.aoiShowStartY, unread.1 atHigh, unread.2 (.inl atHigh)]
        rfl
      · intro atLow
        exact unread.2 (.inr atLow)

/-- A settled window is expected from the first read on. -/
theorem Settled.expected {state : SnapshotState} (settled : Settled state) :
    Expected (sendStep { state with task := .readHeight }) state.board.window := by
  rcases settled with past | ⟨program, running, leaves⟩
  · exact .inl past
  · by_cases past : state.board.window ∈ state.history
    · exact .inl past
    · exact .inr ⟨decide_eq_true past, program, running, leaves⟩

/-- Each access of the sending task keeps the invariant. -/
theorem SnapshotInvariant.sendStep {state : SnapshotState} (sound : SnapshotInvariant state)
    (settled : state.task = .readHeight → Settled state)
    (ended : state.task = .sending → state.ahead = false) :
    SnapshotInvariant (sendStep state) := by
  have sent := sound.sent
  cases here : state.task with
  | idle =>
      simp only [Parameters.sendStep, here]
      exact ⟨nofun, nofun, nofun, sent⟩
  | readHeight =>
      have expected := (settled here).expected
      simp only [Parameters.sendStep, here] at expected ⊢
      exact ⟨fun _ => ⟨state.board.window, expected, rfl, rfl⟩, nofun, nofun, sent⟩
  | readStartHigh =>
      obtain ⟨window, known, counted, started⟩ := sound.afterHeight here
      simp only [Parameters.sendStep, here]
      exact ⟨nofun, fun _ => ⟨window, known, counted, started⟩, nofun, sent⟩
  | readStartLow =>
      obtain ⟨window, known, counted, started⟩ := sound.afterHigh here
      simp only [Parameters.sendStep, here]
      exact ⟨nofun, nofun, fun _ => ⟨window, known, counted, by rw [started]⟩, sent⟩
  | sending =>
      obtain ⟨window, known, counted, started⟩ := sound.afterLow here
      have past : window ∈ state.history := by
        rcases known with past | ⟨ahead, _⟩
        · exact past
        · simp [ended here] at ahead
      simp only [Parameters.sendStep, here]
      refine ⟨nofun, nofun, nofun, ?_⟩
      intro send inside
      rcases List.mem_cons.mp inside with rfl | earlier
      · exact ⟨window, past, counted, started⟩
      · exact sent send earlier

/-- Each undisturbed event keeps the invariant. -/
theorem SnapshotInvariant.step {state after : SnapshotState} {event : SnapshotEvent}
    (sound : SnapshotInvariant state) (calm : Undisturbed state event)
    (stepped : snapshotSystem.step state event = some after) : SnapshotInvariant after := by
  cases event with
  | receive block =>
      cases free : state.command with
      | some program => simp [snapshotSystem, free] at stepped
      | none =>
          simp only [snapshotSystem, free, Option.some.injEq] at stepped
          rw [← stepped]
          exact sound.transfer rfl rfl rfl rfl rfl (fun _ known => known.receive free)
            (fun _ => rfl) (fun _ => rfl)
  | command =>
      obtain ⟨program, running, rfl⟩ := Option.map_eq_some_iff.mp stepped
      exact sound.commandStep running (calm program running)
  | task =>
      obtain rfl : Parameters.sendStep state = after := Option.some.inj stepped
      exact sound.sendStep calm.1 calm.2

/-- No command runs and no send has started. -/
structure Quiet (state : SnapshotState) : Prop where
  command : state.command = none
  task : state.task = .idle
  inForce : state.inForce = state.board.window
  sends : state.sends = []

/-- When no step disturbs a snapshot, each mode-3 send uses the start and the height of one
setting that was in force during its iteration. -/
theorem aoiSnapshot_consistent {start state : SnapshotState} (quiet : Quiet start)
    (reached : snapshotSystem.Reaches Undisturbed start state) :
    ∀ send ∈ state.sends, send.Consistent := by
  have base : SnapshotInvariant start := by
    refine ⟨?_, ?_, ?_, ?_⟩ <;> simp [quiet.task, quiet.sends]
  have sound : SnapshotInvariant state :=
    reached.invariant base fun _ _ _ sound calm stepped => sound.step calm stepped
  exact sound.sent

/-- A quiet camera after a first boot. -/
def quietBoot : SnapshotState where
  board := zeroBoot
  command := none
  task := .idle
  udpPacketCount := 0
  startHigh := 0
  udpDetectYStartPacketIndex := 0
  inForce := zeroBoot.window
  history := []
  ahead := false
  sends := []

theorem quietBoot_quiet : Quiet quietBoot := by
  constructor <;> rfl

/-- A send that follows a complete command uses the window of that command. -/
theorem aoiSnapshot_consistent_setAoi :
    ∃ state : SnapshotState, state.sends.length = 1 ∧ ∀ send ∈ state.sends, send.Consistent := by
  obtain ⟨state, reached, checked⟩ := System.guarded_check snapshotSystem Undisturbed quietBoot
    ([.receive (aoiBlock 0 10 48)] ++ List.replicate 5 .command ++ List.replicate 5 .task)
    (fun state => decide (state.sends.length = 1)) (by decide +kernel)
  exact ⟨state, of_decide_eq_true checked, aoiSnapshot_consistent quietBoot_quiet reached⟩

/-- The command that moves the start from row 255 to row 256 loses the processor after its first
byte. The send then starts at row 511, which no command has ever asked for. -/
theorem aoiSnapshot_torn :
    ∃ state, snapshotSystem.Reachable quietBoot state ∧
      ∃ send ∈ state.sends, send.udpDetectYStartPacketIndex = 1022 ∧ ¬ send.Consistent := by
  obtain ⟨state, reached, checked⟩ := System.guarded_check snapshotSystem (fun _ _ => True)
    quietBoot
    ([.receive (aoiBlock 0 255 48)] ++ List.replicate 9 .command ++
      [.receive (aoiBlock 1 0 48)] ++ List.replicate 3 .command ++ List.replicate 5 .task)
    (fun state => state.sends.any fun send => send.udpDetectYStartPacketIndex == 1022 &&
      send.history.all fun window => send.udpDetectYStartPacketIndex != window.1 <<< 1)
    (by decide +kernel)
  obtain ⟨send, inside, torn⟩ := List.any_eq_true.mp checked
  obtain ⟨start, never⟩ := (Bool.and_eq_true_iff).mp torn
  refine ⟨state, reached, send, inside, eq_of_beq start, ?_⟩
  rintro ⟨window, past, _, same⟩
  have apart := List.all_eq_true.mp never window past
  exact absurd same (by simpa using apart)

end NnpCamera.Parameters
