/-
This file says when a `SET_CAMID` block takes effect.
-/

import NnpCamera.Parameters.Settings

namespace NnpCamera.Parameters
open Library Board

/-- The step handles no `SET_CAMID` block. -/
def LeavesCamid (_ : Board) : Action → Prop
  | .command block => Block.event block ≠ .setCamid
  | .reboot _ => True

/-- A marked EEPROM holds this identity. -/
structure Stores (id : UInt8) (board : Board) : Prop where
  marked : board.eeprom addressMarker = 0x25
  storedId : board.eeprom packetId = id

/-- Each step keeps the marker. -/
theorem marked_step {board after : Board} {action : Action}
    (marked : board.eeprom addressMarker = 0x25)
    (stepped : parameterSystem.step board action = some after) :
    after.eeprom addressMarker = 0x25 := by
  cases action with
  | command block =>
      obtain rfl : (udpDataprocess block).exec board = after := Option.some.inj stepped
      exact ((switch_marker _ _).exec board).trans marked
  | reboot memory =>
      obtain rfl : boot memory board.eeprom = after := Option.some.inj stepped
      exact boot_marked memory board.eeprom

/-- A boot from a marked EEPROM loads the stored identity and leaves it stored. -/
theorem boot_id (memory : SendPacket) {eeprom : Eeprom} (marked : eeprom addressMarker = 0x25) :
    (boot memory eeprom).currentCamPara.id = eeprom packetId ∧
      (boot memory eeprom).eeprom packetId = eeprom packetId := by
  rw [boot_marked_loads memory marked, loadBranch_exec, limitStartY240, Program.exec_only]
  split <;> exact ⟨rfl, rfl⟩

/-- Only a `SET_CAMID` block changes the identity that a marked EEPROM holds. -/
theorem Stores.step {id : UInt8} {board after : Board} {action : Action}
    (stores : Stores id board) (leaves : LeavesCamid board action)
    (stepped : parameterSystem.step board action = some after) : Stores id after where
  marked := marked_step stores.marked stepped
  storedId := by
    cases action with
    | command block =>
        obtain rfl : (udpDataprocess block).exec board = after := Option.some.inj stepped
        have unwritten : writtenCamid block = none := if_neg fun written => leaves written.1
        rw [udpDataprocess_storedId, unwritten]
        exact stores.storedId
    | reboot memory =>
        obtain rfl : boot memory board.eeprom = after := Option.some.inj stepped
        exact (boot_id memory stores.marked).2.trans stores.storedId

/-- A `SET_CAMID` block with a valid identity is in force after the next boots exactly when it
differs from the identity in the same block, or when it was stored before. -/
theorem setCamid_effect {memory : SendPacket} {eeprom : Eeprom} {board later : Board}
    (reached : parameterSystem.Reachable (boot memory eeprom) board) {block : Block}
    (event : Block.event block = .setCamid)
    (low : 1 ≤ (SendPacket.ofBlock block).changeid)
    (high : (SendPacket.ofBlock block).changeid ≤ 20)
    (continued : parameterSystem.Reaches LeavesCamid ((udpDataprocess block).exec board) later)
    (other : SendPacket) :
    (boot other later.eeprom).currentCamPara.id = (SendPacket.ofBlock block).changeid ↔
      (SendPacket.ofBlock block).changeid ≠ (SendPacket.ofBlock block).id ∨
        at24cxxReadOneByte board.eeprom packetId = (SendPacket.ofBlock block).changeid := by
  have marked : board.eeprom addressMarker = 0x25 :=
    reached.invariant (boot_marked memory eeprom) fun _ _ _ marked _ stepped =>
      marked_step marked stepped
  have handled : ((udpDataprocess block).exec board).eeprom addressMarker = 0x25 :=
    ((switch_marker _ _).exec board).trans marked
  have start : Stores _ ((udpDataprocess block).exec board) := ⟨handled, rfl⟩
  have kept := continued.invariant start fun _ _ _ stores leaves stepped =>
    stores.step leaves stepped
  rw [(boot_id other kept.marked).1, kept.storedId, udpDataprocess_storedId, at24cxxReadOneByte]
  have positive : 0 < (SendPacket.ofBlock block).changeid :=
    UInt8.lt_of_lt_of_le (by decide) low
  have small : (SendPacket.ofBlock block).changeid < 21 :=
    UInt8.lt_of_le_of_lt high (by decide)
  by_cases same : (SendPacket.ofBlock block).changeid = (SendPacket.ofBlock block).id
  · have unwritten : writtenCamid block = none := if_neg fun written => written.2.2.2 same
    rw [unwritten, Option.getD_none]
    simp [same]
  · have written : writtenCamid block = some (SendPacket.ofBlock block).changeid :=
      if_pos ⟨event, positive, small, same⟩
    rw [written, Option.getD_some]
    simp [same]

/-- This `SET_CAMID` block gives the current and the new identity. -/
def camidBlock (id changeid : UInt8) : Block := fun index =>
  if index = 2 then id else if index = 3 then 6 else if index = 13 then changeid else 0

/-- The identity 5 that is sent to camera 1 is in force after the reboot. -/
theorem setCamid_effect_first :
    let memory := SendPacket.ofBlock fun _ => 0
    let board := (udpDataprocess (camidBlock 1 5)).exec (boot memory fun _ => 0)
    (boot memory board.eeprom).currentCamPara.id = 5 := by
  intro memory board
  have booted : parameterSystem.Reachable (boot memory fun _ => 0) (boot memory fun _ => 0) := .start
  have event : Block.event (camidBlock 1 5) = .setCamid := by decide +kernel
  have effect := setCamid_effect booted event (by decide +kernel) (by decide +kernel) .start memory
  have different : (SendPacket.ofBlock (camidBlock 1 5)).changeid ≠
      (SendPacket.ofBlock (camidBlock 1 5)).id := by
    decide +kernel
  exact effect.mpr (.inl different)

/-- Camera 1 gets the identity 5 and then, before the reboot, its old identity 1 again. The second
block is ignored, and the camera boots with the identity 5. -/
theorem setCamid_ignored :
    let memory := SendPacket.ofBlock fun _ => 0
    let board := commands (boot memory fun _ => 0) [camidBlock 1 5, camidBlock 1 1]
    Block.event (camidBlock 1 1) = .setCamid ∧
      (SendPacket.ofBlock (camidBlock 1 1)).changeid = 1 ∧
      (boot memory fun _ => 0).currentCamPara.id = 1 ∧
      (boot memory board.eeprom).currentCamPara.id = 5 := by
  decide +kernel

end NnpCamera.Parameters
