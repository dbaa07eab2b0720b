/-
This file models the pin operations of `myiic.c` and shows what they do to a slave.
-/

import NnpCamera.Library.TwoWire

namespace NnpCamera.Eeprom
open Library.TwoWire

section Operations
variable {Slave : Type} (target : Target Slave) (bus : Bus Slave)

def iicStart : Bus Slave :=
  let bus := bus.sdaOut target
  let bus := bus.sda target true
  let bus := bus.scl target true
  let bus := bus.sda target false
  bus.scl target false

def iicStop : Bus Slave :=
  let bus := bus.sdaOut target
  let bus := bus.scl target false
  let bus := bus.sda target false
  let bus := bus.scl target true
  bus.sda target true

/-- The loop reads SDA at most 251 times. -/
def iicWaitAckLoop (ucErrTime : Nat) (bus : Bus Slave) : UInt8 × Bus Slave :=
  if bus.line target then
    if 250 < ucErrTime + 1 then (1, iicStop target bus) else iicWaitAckLoop (ucErrTime + 1) bus
  else (0, bus.scl target false)
termination_by 251 - ucErrTime

def iicWaitAck : UInt8 × Bus Slave :=
  let bus := bus.sdaIn target
  let bus := bus.sda target true
  let bus := bus.scl target true
  iicWaitAckLoop target 0 bus

def iicAck : Bus Slave :=
  let bus := bus.scl target false
  let bus := bus.sdaOut target
  let bus := bus.sda target false
  let bus := bus.scl target true
  bus.scl target false

def iicNAck : Bus Slave :=
  let bus := bus.scl target false
  let bus := bus.sdaOut target
  let bus := bus.sda target true
  let bus := bus.scl target true
  bus.scl target false

/-- Each pass sends the top bit and shifts the byte. -/
def iicSendBits : Nat → UInt8 → Bus Slave → Bus Slave
  | 0, _, bus => bus
  | count + 1, txd, bus =>
      let bus := bus.sda target ((txd &&& 0x80) >>> 7 ≠ 0)
      let bus := bus.scl target true
      let bus := bus.scl target false
      iicSendBits count (txd <<< 1) bus

def iicSendByte (txd : UInt8) : Bus Slave :=
  let bus := bus.sdaOut target
  let bus := bus.scl target false
  iicSendBits target 8 txd bus

/-- Each pass shifts the received byte and adds the bit on SDA. -/
def iicReadBits : Nat → UInt8 → Bus Slave → UInt8 × Bus Slave
  | 0, receive, bus => (receive, bus)
  | count + 1, receive, bus =>
      let bus := bus.scl target false
      let bus := bus.scl target true
      let receive := receive <<< 1
      let receive := if bus.line target then receive + 1 else receive
      iicReadBits count receive bus

def iicReadByte (ack : Bool) : UInt8 × Bus Slave :=
  let bus := bus.sdaIn target
  let (receive, bus) := iicReadBits target 8 0 bus
  (receive, if ack then iicAck target bus else iicNAck target bus)

end Operations

section Bytes
variable {State : Type} (device : Device State) (state : State)

/-- The pins between two calls. -/
def idlePins : Pins := ⟨true, true, true⟩

theorem iicStart_idle :
    iicStart (slave device) ⟨idlePins, ⟨state, .idle⟩⟩ =
      ⟨⟨false, false, true⟩, ⟨device.start state, .receive []⟩⟩ := by
  simp [iicStart, idlePins, Bus.sdaOut, Bus.sda, Bus.scl, Bus.move, Bus.line, slave]

/-- A start condition can follow an acknowledged byte. -/
theorem iicStart_repeated :
    iicStart (slave device) ⟨⟨false, true, false⟩, ⟨state, .receive []⟩⟩ =
      ⟨⟨false, false, true⟩, ⟨device.start state, .receive []⟩⟩ := by
  simp [iicStart, Bus.sdaOut, Bus.sda, Bus.scl, Bus.move, Bus.line, slave]

/-- The loop sends the bits of its byte from the top. -/
theorem iicSendBits_eq {Slave : Type} (target : Target Slave) (count : Nat) (txd : UInt8)
    (bus : Bus Slave) : iicSendBits target count txd bus = bus.writeBits target (topBits count txd) := by
  induction count generalizing txd bus with
  | zero => rfl
  | succ count ih =>
      have bit : ((txd &&& 0x80) >>> 7 ≠ 0) ↔ (txd &&& 0x80 ≠ 0) := by
        revert txd
        exact forall_byte (by decide +kernel)
      rw [iicSendBits, topBits, writeBits_cons, ih]
      simp only [bit]
      rfl

theorem iicSendByte_eq (txd : UInt8) (old out : Bool) :
    ∃ sda, iicSendByte (slave device) ⟨⟨false, old, out⟩, ⟨state, .receive []⟩⟩ txd =
      ⟨⟨false, sda, true⟩, ⟨device.accept txd state, .acknowledge⟩⟩ := by
  have ready : ((Bus.sdaOut (slave device) ⟨⟨false, old, out⟩, ⟨state, .receive []⟩⟩).scl
      (slave device) false) = ⟨⟨false, old, true⟩, ⟨state, .receive []⟩⟩ := by
    simp [Bus.sdaOut, Bus.scl, Bus.move]
  rw [iicSendByte]
  simp only [iicSendBits_eq, ready]
  exact writeByte device state old txd

/-- A slave that acknowledges ends the wait at once. -/
theorem iicWaitAck_eq (sda : Bool) (acknowledges : device.acknowledges state = true) :
    iicWaitAck (slave device) ⟨⟨false, sda, true⟩, ⟨state, .acknowledge⟩⟩ =
      (0, ⟨⟨false, true, false⟩, ⟨state, device.next state⟩⟩) := by
  rw [iicWaitAck, iicWaitAckLoop]
  simp [Bus.sdaIn, Bus.sda, Bus.scl, Bus.move, Bus.line, slave, acknowledges, Device.next]

/-- The loop reads the bits that the slave sends after the current one. -/
theorem iicReadBits_eq (bits : List Bool) (current : Bool) (receive : UInt8) (sda : Bool) :
    ∃ last, iicReadBits (slave device) bits.length receive
        ⟨⟨true, sda, false⟩, ⟨state, .send (current :: bits)⟩⟩ =
      (bits.foldl shiftIn receive, ⟨⟨true, sda, false⟩, ⟨state, .send [last]⟩⟩) := by
  induction bits generalizing current receive with
  | nil => exact ⟨current, rfl⟩
  | cons bit bits ih =>
      obtain ⟨last, read⟩ := ih bit (shiftIn receive bit)
      refine ⟨last, ?_⟩
      rw [List.length_cons, iicReadBits, List.foldl_cons, ← read]
      simp [Bus.scl, Bus.move, Bus.line, slave, shiftIn]

/-- The master reads a byte and does not acknowledge it. -/
theorem iicReadByte_eq (byte : UInt8) :
    iicReadByte (slave device) ⟨⟨false, true, false⟩, ⟨state, .send (topBits 8 byte)⟩⟩ false =
      (byte, ⟨⟨false, true, true⟩, ⟨device.sent false state, .idle⟩⟩) := by
  let top : Bool := byte &&& 0x80 ≠ 0
  let rest := topBits 7 (byte <<< 1)
  obtain ⟨last, read⟩ := iicReadBits_eq device state rest top (shiftIn 0 top) true
  have received : rest.foldl shiftIn (shiftIn 0 top) = byte := ofBits_topBits byte
  have first : iicReadBits (slave device) 8 0 (Bus.sdaIn (slave device)
      ⟨⟨false, true, false⟩, ⟨state, .send (topBits 8 byte)⟩⟩) =
        (byte, ⟨⟨true, true, false⟩, ⟨state, .send [last]⟩⟩) := by
    have bits : topBits 8 byte = top :: rest := rfl
    rw [topBits_length, received] at read
    rw [bits, iicReadBits, ← read]
    simp [Bus.sdaIn, Bus.scl, Bus.move, Bus.line, slave, shiftIn]
  simp only [iicReadByte, first]
  simp [iicNAck, Bus.sdaOut, Bus.sda, Bus.scl, Bus.move, Bus.line, slave]

/-- A stop condition ends a transfer. -/
theorem iicStop_eq (sda out : Bool) (phase : Phase)
    (waits : phase = .idle ∨ phase = .receive []) :
    iicStop (slave device) ⟨⟨false, sda, out⟩, ⟨state, phase⟩⟩ =
      ⟨idlePins, ⟨device.stop state, .idle⟩⟩ := by
  rcases waits with rfl | rfl
  · simp [iicStop, idlePins, Bus.sdaOut, Bus.sda, Bus.scl, Bus.move, Bus.line, slave]
  · simp [iicStop, idlePins, Bus.sdaOut, Bus.sda, Bus.scl, Bus.move, Bus.line, slave]

end Bytes

end NnpCamera.Eeprom
