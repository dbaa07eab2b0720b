/-
This file describes a two-wire bus with one master and one slave, from the two lines up to whole
bytes.
-/

import Mathlib.Tactic.Common

namespace NnpCamera.Library.TwoWire

/-- The pins of the master: the clock, the latch of the data pin, and its direction. -/
structure Pins where
  scl : Bool
  sda : Bool
  out : Bool
  deriving DecidableEq, Repr

/-- A slave pulls the data line low or leaves it. It sees both edges of the clock, and a data edge
while the clock is high starts or stops a transfer. -/
structure Target (Slave : Type) where
  pulls : Slave → Bool
  start : Slave → Slave
  stop : Slave → Slave
  rise : Bool → Slave → Slave
  fall : Slave → Slave

/-- The master's pins and the slave. -/
structure Bus (Slave : Type) where
  pins : Pins
  slave : Slave

namespace Bus
variable {Slave : Type} (target : Target Slave) (bus : Bus Slave)

/-- The data line is low when the master or the slave pulls it low. -/
def line : Bool := (!bus.pins.out || bus.pins.sda) && !target.pulls bus.slave

/-- The slave sees what a change of the pins does to the two lines. -/
def move (pins : Pins) : Bus Slave :=
  let before := bus.line target
  let after := line target ⟨pins, bus.slave⟩
  { pins
    slave :=
      match bus.pins.scl, pins.scl with
      | true, true =>
          if before && !after then target.start bus.slave
          else if !before && after then target.stop bus.slave
          else bus.slave
      | false, true => target.rise after bus.slave
      | true, false => target.fall bus.slave
      | false, false => bus.slave }

def scl (value : Bool) : Bus Slave := bus.move target { bus.pins with scl := value }

def sda (value : Bool) : Bus Slave := bus.move target { bus.pins with sda := value }

def sdaOut : Bus Slave := bus.move target { bus.pins with out := true }

def sdaIn : Bus Slave := bus.move target { bus.pins with out := false }

/-- Each bit is on the data line while the clock is high. -/
def writeBits (bits : List Bool) : Bus Slave :=
  bits.foldl (fun bus bit => ((bus.sda target bit).scl target true).scl target false) bus

end Bus

/-- The first bits of a byte, from the top. -/
def topBits : Nat → UInt8 → List Bool
  | 0, _ => []
  | count + 1, byte => (byte &&& 0x80 ≠ 0) :: topBits count (byte <<< 1)

/-- A byte takes one more bit from below. -/
def shiftIn (byte : UInt8) (bit : Bool) : UInt8 := if bit then (byte <<< 1) + 1 else byte <<< 1

/-- The byte with these bits. -/
def ofBits (bits : List Bool) : UInt8 := bits.foldl shiftIn 0

@[simp] theorem topBits_length (count : Nat) (byte : UInt8) :
    (topBits count byte).length = count := by
  induction count generalizing byte with
  | zero => rfl
  | succ count ih => rw [topBits, List.length_cons, ih]

/-- A fact about bytes can be checked byte by byte. -/
theorem forall_byte {fact : UInt8 → Prop} (all : ∀ value : Fin 256, fact (.ofNat value))
    (byte : UInt8) : fact byte := by
  have same := all ⟨byte.toNat, byte.toNat_lt⟩
  rwa [UInt8.ofNat_toNat] at same

/-- The eight bits of a byte determine it. -/
theorem ofBits_topBits (byte : UInt8) : ofBits (topBits 8 byte) = byte := by
  revert byte
  exact forall_byte (by decide +kernel)

/-- A device takes and gives whole bytes. After a byte it acknowledges or not, and it goes on to send
when the byte asked for this. -/
structure Device (State : Type) where
  start : State → State
  stop : State → State
  accept : UInt8 → State → State
  acknowledges : State → Bool
  sends : State → Bool
  byte : State → UInt8
  sent : Bool → State → State

/-- Where a slave stands in its byte. -/
inductive Phase where
  | idle
  | receive (bits : List Bool)
  | acknowledge
  | send (bits : List Bool)
  | answer
  | answered (more : Bool)
  deriving DecidableEq, Repr

/-- A slave shifts the bits of its device. -/
structure Slave (State : Type) where
  device : State
  phase : Phase

/-- A slave takes bits on rising edges and changes the data line on falling edges. -/
def slave {State : Type} (device : Device State) : Target (Slave State) where
  pulls slave :=
    match slave.phase with
    | .acknowledge => device.acknowledges slave.device
    | .send (bit :: _) => !bit
    | _ => false
  start slave := ⟨device.start slave.device, .receive []⟩
  stop slave := ⟨device.stop slave.device, .idle⟩
  rise line slave :=
    match slave.phase with
    | .receive bits => { slave with phase := .receive (bits ++ [line]) }
    | .answer => ⟨device.sent (!line) slave.device, .answered (!line)⟩
    | _ => slave
  fall slave :=
    match slave.phase with
    | .receive bits =>
        if bits.length = 8 then ⟨device.accept (ofBits bits) slave.device, .acknowledge⟩ else slave
    | .acknowledge =>
        { slave with phase :=
            if device.sends slave.device then .send (topBits 8 (device.byte slave.device))
            else .receive [] }
    | .send (_ :: bit :: rest) => { slave with phase := .send (bit :: rest) }
    | .send _ => { slave with phase := .answer }
    | .answered true => { slave with phase := .send (topBits 8 (device.byte slave.device)) }
    | .answered false => { slave with phase := .idle }
    | _ => slave

/-- What a slave does after the clock of its own acknowledge. -/
def Device.next {State : Type} (device : Device State) (state : State) : Phase :=
  if device.sends state then .send (topBits 8 (device.byte state)) else .receive []

section Bytes
variable {State : Type} (device : Device State) (state : State)

/-- A slave takes one more bit. -/
theorem writeBit (taken : List Bool) (old bit : Bool) (more : taken.length + 1 < 8) :
    Bus.writeBits (slave device) ⟨⟨false, old, true⟩, ⟨state, .receive taken⟩⟩ [bit] =
      ⟨⟨false, bit, true⟩, ⟨state, .receive (taken ++ [bit])⟩⟩ := by
  have short : taken.length + 1 ≠ 8 := Nat.ne_of_lt more
  simp [Bus.writeBits, Bus.sda, Bus.scl, Bus.move, Bus.line, slave, short]

/-- After the eighth bit the device takes the byte. -/
theorem writeLast (taken : List Bool) (old bit : Bool) (last : taken.length + 1 = 8) :
    Bus.writeBits (slave device) ⟨⟨false, old, true⟩, ⟨state, .receive taken⟩⟩ [bit] =
      ⟨⟨false, bit, true⟩, ⟨device.accept (ofBits (taken ++ [bit])) state, .acknowledge⟩⟩ := by
  simp [Bus.writeBits, Bus.sda, Bus.scl, Bus.move, Bus.line, slave, last]

theorem writeBits_cons {Slave : Type} (target : Target Slave) (bus : Bus Slave) (bit : Bool)
    (bits : List Bool) :
    bus.writeBits target (bit :: bits) = (bus.writeBits target [bit]).writeBits target bits := rfl

/-- The bits of a byte reach the device as this byte. -/
theorem writeRest (taken : List Bool) (old bit : Bool) (bits : List Bool)
    (whole : taken.length + bits.length + 1 = 8) :
    ∃ sda, Bus.writeBits (slave device) ⟨⟨false, old, true⟩, ⟨state, .receive taken⟩⟩ (bit :: bits) =
      ⟨⟨false, sda, true⟩,
        ⟨device.accept (ofBits (taken ++ bit :: bits)) state, .acknowledge⟩⟩ := by
  induction bits generalizing taken old bit with
  | nil => exact ⟨bit, writeLast device state taken old bit whole⟩
  | cons next bits ih =>
      rw [List.length_cons] at whole
      have rest : (taken ++ [bit]).length + bits.length + 1 = 8 := by
        rw [List.length_append, List.length_singleton]
        omega
      obtain ⟨sda, written⟩ := ih (taken ++ [bit]) bit next rest
      refine ⟨sda, ?_⟩
      rw [writeBits_cons, writeBit device state taken old bit (by omega), written]
      simp

theorem writeByte (old : Bool) (byte : UInt8) :
    ∃ sda, Bus.writeBits (slave device) ⟨⟨false, old, true⟩, ⟨state, .receive []⟩⟩
        (topBits 8 byte) =
      ⟨⟨false, sda, true⟩, ⟨device.accept byte state, .acknowledge⟩⟩ := by
  have written := writeRest device state [] old (byte &&& 0x80 ≠ 0) (topBits 7 (byte <<< 1)) (by simp)
  have same : ofBits (topBits 8 byte) = byte := ofBits_topBits byte
  rw [List.nil_append] at written
  rw [topBits] at same ⊢
  rw [same] at written
  exact written

end Bytes

end NnpCamera.Library.TwoWire
