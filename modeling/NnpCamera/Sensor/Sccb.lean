/-
This file models the pin operations of `sccb.c` and shows what they do to a slave.
-/

import NnpCamera.Library.TwoWire

namespace NnpCamera.Sensor
open Library.TwoWire

section Operations
variable {Slave : Type} (target : Target Slave) (bus : Bus Slave)

def sccbStart : Bus Slave :=
  let bus := bus.sda target true
  let bus := bus.scl target true
  let bus := bus.sda target false
  bus.scl target false

def sccbStop : Bus Slave :=
  let bus := bus.sda target false
  let bus := bus.scl target true
  bus.sda target true

def sccbNoAck : Bus Slave :=
  let bus := bus.sda target true
  let bus := bus.scl target true
  let bus := bus.scl target false
  bus.sda target false

def sccbAck : Bus Slave :=
  let bus := bus.sda target false
  let bus := bus.scl target true
  let bus := bus.scl target false
  bus.sda target true

/-- Each pass sends the top bit and shifts the byte. -/
def sccbWriteBits : Nat → UInt8 → Bus Slave → Bus Slave
  | 0, _, bus => bus
  | count + 1, dat, bus =>
      let bus := if dat &&& 0x80 ≠ 0 then bus.sda target true else bus.sda target false
      let bus := bus.scl target true
      let bus := bus.scl target false
      sccbWriteBits count (dat <<< 1) bus

/-- The result is 0 when the slave pulls SDA low in the ninth clock. -/
def sccbWrByte (dat : UInt8) : UInt8 × Bus Slave :=
  let bus := sccbWriteBits target 8 dat bus
  let bus := bus.sdaIn target
  let bus := bus.scl target true
  let res := if bus.line target then 1 else 0
  let bus := bus.scl target false
  (res, bus.sdaOut target)

/-- Each pass shifts the received byte and adds the bit on SDA. -/
def sccbReadBits : Nat → UInt8 → Bus Slave → UInt8 × Bus Slave
  | 0, temp, bus => (temp, bus)
  | count + 1, temp, bus =>
      let bus := bus.scl target true
      let temp := temp <<< 1
      let temp := if bus.line target then temp + 1 else temp
      let bus := bus.scl target false
      sccbReadBits count temp bus

def sccbRdByte : UInt8 × Bus Slave :=
  let bus := bus.sdaIn target
  let (temp, bus) := sccbReadBits target 8 0 bus
  (temp, bus.sdaOut target)

end Operations

section Bytes
variable {State : Type} (device : Device State) (state : State)

/-- A start from any level of the pins, after an earlier transfer has ended. A data line that was
left low under a high clock first rises, which the slave sees as one more stop. -/
theorem sccbStart_idle (scl sda : Bool) :
    sccbStart (slave device) ⟨⟨scl, sda, true⟩, ⟨state, .idle⟩⟩ =
      ⟨⟨false, false, true⟩,
        ⟨device.start (if scl && !sda then device.stop state else state), .receive []⟩⟩ := by
  cases scl <;> cases sda <;> simp [sccbStart, Bus.sda, Bus.scl, Bus.move, Bus.line, slave]

/-- A start condition can follow a byte. -/
theorem sccbStart_repeated (sda : Bool) :
    sccbStart (slave device) ⟨⟨false, sda, true⟩, ⟨state, .receive []⟩⟩ =
      ⟨⟨false, false, true⟩, ⟨device.start state, .receive []⟩⟩ := by
  simp [sccbStart, Bus.sda, Bus.scl, Bus.move, Bus.line, slave]

/-- A stop condition ends a transfer. -/
theorem sccbStop_eq (sda : Bool) (phase : Phase) (waits : phase = .idle ∨ phase = .receive []) :
    sccbStop (slave device) ⟨⟨false, sda, true⟩, ⟨state, phase⟩⟩ =
      ⟨⟨true, true, true⟩, ⟨device.stop state, .idle⟩⟩ := by
  rcases waits with rfl | rfl
  · simp [sccbStop, Bus.sda, Bus.scl, Bus.move, Bus.line, slave]
  · simp [sccbStop, Bus.sda, Bus.scl, Bus.move, Bus.line, slave]

/-- The loop sends the bits of its byte from the top. -/
theorem sccbWriteBits_eq {Slave : Type} (target : Target Slave) (count : Nat) (dat : UInt8)
    (bus : Bus Slave) :
    sccbWriteBits target count dat bus = bus.writeBits target (topBits count dat) := by
  induction count generalizing dat bus with
  | zero => rfl
  | succ count ih =>
      rw [sccbWriteBits, topBits, writeBits_cons, ih]
      by_cases high : dat &&& 0x80 ≠ 0
      · rw [if_pos high, decide_eq_true high]
        rfl
      · rw [if_neg high, decide_eq_false high]
        rfl

/-- The device takes the byte, and the result says whether it acknowledges. -/
theorem sccbWrByte_eq (old : Bool) (dat : UInt8) :
    ∃ sda, sccbWrByte (slave device) ⟨⟨false, old, true⟩, ⟨state, .receive []⟩⟩ dat =
      (if device.acknowledges (device.accept dat state) then 0 else 1,
        ⟨⟨false, sda, true⟩,
          ⟨device.accept dat state, device.next (device.accept dat state)⟩⟩) := by
  obtain ⟨sda, written⟩ := writeByte device state old dat
  refine ⟨sda, ?_⟩
  rw [sccbWrByte]
  simp only [sccbWriteBits_eq, written]
  cases answer : device.acknowledges (device.accept dat state) with
  | true => simp [Bus.sdaIn, Bus.sdaOut, Bus.scl, Bus.move, Bus.line, slave, answer, Device.next]
  | false => simp [Bus.sdaIn, Bus.sdaOut, Bus.scl, Bus.move, Bus.line, slave, answer, Device.next]

/-- The loop reads the bits that the slave sends. -/
theorem sccbReadBits_eq (bits : List Bool) (bit : Bool) (temp : UInt8) (sda : Bool) :
    sccbReadBits (slave device) (bits.length + 1) temp
        ⟨⟨false, sda, false⟩, ⟨state, .send (bit :: bits)⟩⟩ =
      ((bit :: bits).foldl shiftIn temp, ⟨⟨false, sda, false⟩, ⟨state, .answer⟩⟩) := by
  induction bits generalizing bit temp with
  | nil => simp [sccbReadBits, Bus.scl, Bus.move, Bus.line, slave, shiftIn]
  | cons next bits ih =>
      rw [List.length_cons, List.foldl_cons, ← ih next (shiftIn temp bit)]
      simp [sccbReadBits, Bus.scl, Bus.move, Bus.line, slave, shiftIn]

/-- The master takes the byte that the slave sends. -/
theorem sccbRdByte_send (old : Bool) (byte : UInt8) :
    sccbRdByte (slave device) ⟨⟨false, old, true⟩, ⟨state, .send (topBits 8 byte)⟩⟩ =
      (byte, ⟨⟨false, old, true⟩, ⟨state, .answer⟩⟩) := by
  have bits : topBits 8 byte = (byte &&& 0x80 ≠ 0 : Bool) :: topBits 7 (byte <<< 1) := rfl
  have read := sccbReadBits_eq device state (topBits 7 (byte <<< 1)) (byte &&& 0x80 ≠ 0) 0 old
  have same : (topBits 8 byte).foldl shiftIn 0 = byte := ofBits_topBits byte
  rw [← bits, topBits_length, same] at read
  have inside : Bus.sdaIn (slave device)
      ⟨⟨false, old, true⟩, ⟨state, .send (topBits 8 byte)⟩⟩ =
        ⟨⟨false, old, false⟩, ⟨state, .send (topBits 8 byte)⟩⟩ := rfl
  simp only [sccbRdByte, inside, read]
  rfl

/-- A slave that does not send takes the released line for a byte of ones. -/
theorem sccbRdByte_receive (old : Bool) :
    sccbRdByte (slave device) ⟨⟨false, old, true⟩, ⟨state, .receive []⟩⟩ =
      (0xFF, ⟨⟨false, old, true⟩, ⟨device.accept 0xFF state, .acknowledge⟩⟩) := by
  have ones : (((((((1 : UInt8) <<< 1 + 1) <<< 1 + 1) <<< 1 + 1) <<< 1 + 1) <<< 1 + 1) <<< 1 + 1) <<< 1
      + 1 = 255 := by decide
  simp [sccbRdByte, sccbReadBits, Bus.sdaIn, Bus.sdaOut, Bus.scl, Bus.move, Bus.line, slave, ofBits,
    shiftIn, ones]

/-- The slave sees the acknowledge and sends its next byte. -/
theorem sccbAck_answer (old : Bool) :
    sccbAck (slave device) ⟨⟨false, old, true⟩, ⟨state, .answer⟩⟩ =
      ⟨⟨false, true, true⟩,
        ⟨device.sent true state, .send (topBits 8 (device.byte (device.sent true state)))⟩⟩ := by
  simp [sccbAck, Bus.sda, Bus.scl, Bus.move, Bus.line, slave]

/-- The master's own clock passes the acknowledge of the slave. -/
theorem sccbAck_acknowledge (old : Bool) :
    sccbAck (slave device) ⟨⟨false, old, true⟩, ⟨state, .acknowledge⟩⟩ =
      ⟨⟨false, true, true⟩, ⟨state, device.next state⟩⟩ := by
  simp [sccbAck, Bus.sda, Bus.scl, Bus.move, slave, Device.next]

/-- The slave sees no acknowledge and stops sending. -/
theorem sccbNoAck_answer (old : Bool) :
    sccbNoAck (slave device) ⟨⟨false, old, true⟩, ⟨state, .answer⟩⟩ =
      ⟨⟨false, false, true⟩, ⟨device.sent false state, .idle⟩⟩ := by
  simp [sccbNoAck, Bus.sda, Bus.scl, Bus.move, Bus.line, slave]

theorem sccbNoAck_acknowledge (old : Bool) :
    sccbNoAck (slave device) ⟨⟨false, old, true⟩, ⟨state, .acknowledge⟩⟩ =
      ⟨⟨false, false, true⟩, ⟨state, device.next state⟩⟩ := by
  simp [sccbNoAck, Bus.sda, Bus.scl, Bus.move, slave, Device.next]

end Bytes

end NnpCamera.Sensor
