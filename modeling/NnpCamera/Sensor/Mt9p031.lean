/-
This file models the registers of the MT9P031 and their driver in `MT9P031D.c`.
-/

import NnpCamera.Library.Machine
import NnpCamera.Library.WriteLog
import NnpCamera.Parameters.Packet
import NnpCamera.Sensor.Sccb

namespace NnpCamera.Sensor
open Library Library.TwoWire
open Parameters (littleEndian littleEndian_halves)

/-- The sensor has 256 registers of 16 bits. -/
abbrev Registers := UInt8 → UInt16

/-- What the sensor takes the next byte for. -/
inductive Expects where
  | nothing
  | deviceAddress
  | registerAddress
  | highByte
  | lowByte (high : UInt8)
  | readHigh
  | readLow
  deriving DecidableEq, Repr

/-- The sensor holds its registers, the selected register, and the bytes that it has seen with its
answer to each. `answers` fixes these answers in advance. -/
structure Mt9p031 where
  registers : Registers
  register : UInt8
  expects : Expects
  answers : Nat → Bool
  received : List (UInt8 × Bool)

def sccbId : UInt8 := 0x90

/-- The sensor uses a byte only if it acknowledges it. A byte without acknowledge ends its part in
the transfer. -/
def mt9p031 : Device Mt9p031 where
  start chip := { chip with expects := .deviceAddress }
  stop chip := { chip with expects := .nothing }
  accept byte chip :=
    let acknowledged := chip.answers chip.received.length
    let chip := { chip with received := chip.received ++ [(byte, acknowledged)] }
    if acknowledged then
      match chip.expects with
      | .deviceAddress =>
          { chip with expects :=
              if byte = sccbId then .registerAddress
              else if byte = sccbId ||| 0x01 then .readHigh else .nothing }
      | .registerAddress => { chip with register := byte, expects := .highByte }
      | .highByte => { chip with expects := .lowByte byte }
      | .lowByte high =>
          { chip with
            registers := Function.update chip.registers chip.register (littleEndian byte high)
            register := chip.register + 1
            expects := .highByte }
      | _ => chip
    else { chip with expects := .nothing }
  acknowledges chip := chip.received.getLast?.any Prod.snd
  sends chip := chip.expects = .readHigh ∨ chip.expects = .readLow
  byte chip :=
    match chip.expects with
    | .readLow => (chip.registers chip.register).toUInt8
    | _ => (chip.registers chip.register >>> 8).toUInt8
  sent _ chip :=
    match chip.expects with
    | .readHigh => { chip with expects := .readLow }
    | _ => { chip with register := chip.register + 1, expects := .readHigh }

section Driver
variable {Slave : Type} (target : Target Slave)

def cmosRset (regnum : UInt8) (regval : UInt16) (bus : Bus Slave) : UInt8 × Bus Slave :=
  let res : UInt8 := 0
  let bus := sccbStart target bus
  let (refused, bus) := sccbWrByte target bus sccbId
  let res := if refused ≠ 0 then 1 else res
  let (refused, bus) := sccbWrByte target bus regnum
  let res := if refused ≠ 0 then 1 else res
  let (refused, bus) := sccbWrByte target bus (regval >>> 8).toUInt8
  let res := if refused ≠ 0 then 1 else res
  let (refused, bus) := sccbWrByte target bus regval.toUInt8
  let res := if refused ≠ 0 then 1 else res
  (res, sccbStop target bus)

/-- The register number has 16 bits, and its low byte is sent. -/
def cmosRget (regnum : UInt16) (bus : Bus Slave) : UInt16 × Bus Slave :=
  let bus := sccbStart target bus
  let bus := (sccbWrByte target bus sccbId).2
  let bus := (sccbWrByte target bus regnum.toUInt8).2
  let bus := sccbStart target bus
  let bus := (sccbWrByte target bus (sccbId ||| 0x01)).2
  let (val, bus) := sccbRdByte target bus
  let bus := sccbAck target bus
  let (val1, bus) := sccbRdByte target bus
  let val := val1.toUInt16 + (val.toUInt16 <<< 8)
  let bus := sccbNoAck target bus
  (val, sccbStop target bus)

end Driver

section Chip
variable (chip : Mt9p031)

/-- The sensor takes its part as a receiver. -/
def Mt9p031.Receives : Prop :=
  chip.expects ≠ .deviceAddress ∧ chip.expects ≠ .readHigh ∧ chip.expects ≠ .readLow

theorem accept_received (byte : UInt8) :
    (mt9p031.accept byte chip).received =
      chip.received ++ [(byte, chip.answers chip.received.length)] := by
  simp only [mt9p031]
  split
  · split <;> rfl
  · rfl

theorem accept_answers (byte : UInt8) :
    (mt9p031.accept byte chip).answers = chip.answers := by
  simp only [mt9p031]
  split
  · split <;> rfl
  · rfl

theorem accept_acknowledges (byte : UInt8) :
    mt9p031.acknowledges (mt9p031.accept byte chip) = chip.answers chip.received.length := by
  show (mt9p031.accept byte chip).received.getLast?.any Prod.snd = _
  rw [accept_received, List.getLast?_concat, Option.any_some]

@[simp] theorem sent_registers (more : Bool) : (mt9p031.sent more chip).registers = chip.registers := by
  simp only [mt9p031]
  split <;> rfl

@[simp] theorem sent_answers (more : Bool) : (mt9p031.sent more chip).answers = chip.answers := by
  simp only [mt9p031]
  split <;> rfl

@[simp] theorem stop_registers : (mt9p031.stop chip).registers = chip.registers := rfl

@[simp] theorem stop_answers : (mt9p031.stop chip).answers = chip.answers := rfl

@[simp] theorem start_registers : (mt9p031.start chip).registers = chip.registers := rfl

@[simp] theorem start_received : (mt9p031.start chip).received = chip.received := rfl

@[simp] theorem start_answers : (mt9p031.start chip).answers = chip.answers := rfl

/-- A receiver stays a receiver. -/
theorem accept_receives (byte : UInt8) (receives : chip.Receives) :
    (mt9p031.accept byte chip).Receives := by
  obtain ⟨address, high, low⟩ := receives
  simp only [mt9p031]
  split
  · split <;> simp_all [Mt9p031.Receives]
  · simp [Mt9p031.Receives]

/-- The write address makes the sensor a receiver. -/
theorem accept_write_receives :
    (mt9p031.accept sccbId (mt9p031.start chip)).Receives := by
  cases acknowledged : chip.answers chip.received.length with
  | true => simp [mt9p031, acknowledged, Mt9p031.Receives]
  | false => simp [mt9p031, acknowledged, Mt9p031.Receives]

theorem next_receives (receives : chip.Receives) : mt9p031.next chip = .receive [] := by
  have silent : mt9p031.sends chip = false := by
    simp [mt9p031, receives.2.1, receives.2.2]
  rw [Device.next, silent]
  rfl

/-- A start condition follows a stop condition that the sensor may have seen before. -/
theorem start_stop (seen : Bool) :
    mt9p031.start (if seen then mt9p031.stop chip else chip) = mt9p031.start chip := by
  cases seen <;> rfl

/-- The sensor after the four bytes of `cmos_rset`. -/
def Mt9p031.written (regnum : UInt8) (regval : UInt16) : Mt9p031 :=
  let chip := mt9p031.accept sccbId (mt9p031.start chip)
  let chip := mt9p031.accept regnum chip
  let chip := mt9p031.accept (regval >>> 8).toUInt8 chip
  mt9p031.stop (mt9p031.accept regval.toUInt8 chip)

/-- The sensor sees the four bytes and answers each. -/
theorem written_received (regnum : UInt8) (regval : UInt16) :
    (chip.written regnum regval).received = chip.received ++
      [(sccbId, chip.answers chip.received.length),
        (regnum, chip.answers (chip.received.length + 1)),
        ((regval >>> 8).toUInt8, chip.answers (chip.received.length + 2)),
        (regval.toUInt8, chip.answers (chip.received.length + 3))] := by
  show (mt9p031.accept _ _).received = _
  simp only [accept_received, accept_answers, start_received, start_answers, List.length_append,
    List.length_singleton, List.append_assoc, List.cons_append, List.nil_append]
  rfl

/-- The register changes exactly when the sensor acknowledges all four bytes. -/
theorem written_registers (regnum : UInt8) (regval : UInt16) :
    (chip.written regnum regval).registers =
      if chip.answers chip.received.length ∧ chip.answers (chip.received.length + 1) ∧
          chip.answers (chip.received.length + 2) ∧ chip.answers (chip.received.length + 3)
        then Function.update chip.registers regnum regval else chip.registers := by
  by_cases one : chip.answers chip.received.length = true
  · by_cases two : chip.answers (chip.received.length + 1) = true
    · by_cases three : chip.answers (chip.received.length + 2) = true
      · by_cases four : chip.answers (chip.received.length + 3) = true
        · simp [Mt9p031.written, mt9p031, one, two, three, four, littleEndian_halves]
        · simp [Mt9p031.written, mt9p031, one, two, three, four]
      · simp [Mt9p031.written, mt9p031, one, two, three]
    · simp [Mt9p031.written, mt9p031, one, two]
  · simp [Mt9p031.written, mt9p031, one]

/-- The sensor before the second start condition of `cmos_rget`. -/
def Mt9p031.addressed (regnum : UInt8) : Mt9p031 :=
  mt9p031.accept regnum (mt9p031.accept sccbId (mt9p031.start chip))

/-- The sensor after the three bytes of `cmos_rget`. -/
def Mt9p031.asked (regnum : UInt8) : Mt9p031 :=
  mt9p031.accept (sccbId ||| 0x01) (mt9p031.start (chip.addressed regnum))

/-- A sensor that has left the transfer stays out of it. -/
theorem accept_nothing (byte : UInt8) (ignores : chip.expects = .nothing) :
    (mt9p031.accept byte chip).expects = .nothing := by
  cases acknowledged : chip.answers chip.received.length with
  | true => simp [mt9p031, ignores, acknowledged]
  | false => simp [mt9p031, acknowledged]

/-- The sensor sends only if it acknowledges the read address. -/
theorem asked_expects (regnum : UInt8) :
    (chip.asked regnum).expects = .readHigh ∨ (chip.asked regnum).expects = .nothing := by
  have started : (mt9p031.start (chip.addressed regnum)).expects = .deviceAddress := rfl
  have reading : sccbId ||| 0x01 ≠ sccbId := by decide
  rw [Mt9p031.asked]
  generalize mt9p031.start (chip.addressed regnum) = state at started
  cases acknowledged : state.answers state.received.length with
  | true => exact .inl (by simp [mt9p031, started, acknowledged, reading])
  | false => exact .inr (by simp [mt9p031, acknowledged])

/-- Only the low byte of a write changes a register. -/
theorem accept_registers (byte : UInt8) (other : ∀ high, chip.expects ≠ .lowByte high) :
    (mt9p031.accept byte chip).registers = chip.registers := by
  simp only [mt9p031]
  split
  · split
    case h_4 high expects => exact absurd expects (other high)
    all_goals rfl
  · rfl

/-- The bytes of `cmos_rget` change no register. -/
theorem asked_registers (regnum : UInt8) : (chip.asked regnum).registers = chip.registers := by
  have begun (state : Mt9p031) (high : UInt8) : (mt9p031.start state).expects ≠ .lowByte high := by
    simp [mt9p031]
  have selected (high : UInt8) :
      (mt9p031.accept sccbId (mt9p031.start chip)).expects ≠ .lowByte high := by
    cases acknowledged : chip.answers chip.received.length with
    | true => simp [mt9p031, acknowledged]
    | false => simp [mt9p031, acknowledged]
  rw [Mt9p031.asked, accept_registers _ _ (begun _), start_registers, Mt9p031.addressed,
    accept_registers _ _ selected, accept_registers _ _ (begun _), start_registers]

/-- A sensor that acknowledges everything selects the register. -/
theorem asked_acknowledged (regnum : UInt8) (acknowledged : ∀ index, chip.answers index = true) :
    (chip.asked regnum).register = regnum ∧ (chip.asked regnum).expects = .readHigh := by
  have reading : sccbId ||| 0x01 ≠ sccbId := by decide
  simp [Mt9p031.asked, Mt9p031.addressed, mt9p031, acknowledged, reading]

theorem asked_answers (regnum : UInt8) : (chip.asked regnum).answers = chip.answers := by
  rw [Mt9p031.asked, accept_answers, start_answers, Mt9p031.addressed, accept_answers, accept_answers,
    start_answers]

end Chip

section Transactions
variable (chip : Mt9p031) (scl sda : Bool)

/-- A byte to a receiver. -/
theorem wrByte_receives (old : Bool) (byte : UInt8)
    (receives : (mt9p031.accept byte chip).Receives) :
    ∃ sda, sccbWrByte (slave mt9p031) ⟨⟨false, old, true⟩, ⟨chip, .receive []⟩⟩ byte =
      (if chip.answers chip.received.length then 0 else 1,
        ⟨⟨false, sda, true⟩, ⟨mt9p031.accept byte chip, .receive []⟩⟩) := by
  obtain ⟨sda, sent⟩ := sccbWrByte_eq mt9p031 chip old byte
  rw [accept_acknowledges, next_receives _ receives] at sent
  exact ⟨sda, sent⟩

/-- One more byte must be acknowledged for the result 0. -/
theorem refused_iff (answer : Bool) (res : UInt8) :
    (if (if answer = true then (0 : UInt8) else 1) ≠ 0 then 1 else res) = 0 ↔
      answer = true ∧ res = 0 := by
  cases answer <;> simp

/-- The driver succeeds exactly when the sensor acknowledges all four bytes. -/
theorem cmosRset_eq (regnum : UInt8) (regval : UInt16) :
    ∃ res, cmosRset (slave mt9p031) regnum regval ⟨⟨scl, sda, true⟩, ⟨chip, .idle⟩⟩ =
        (res, ⟨⟨true, true, true⟩, ⟨chip.written regnum regval, .idle⟩⟩) ∧
      (res = 0 ↔ ∀ entry ∈ (chip.written regnum regval).received.drop chip.received.length,
        entry.2 = true) := by
  have one := accept_write_receives chip
  have two := accept_receives _ regnum one
  have three := accept_receives _ (regval >>> 8).toUInt8 two
  have four := accept_receives _ regval.toUInt8 three
  obtain ⟨sda1, first⟩ := wrByte_receives _ false sccbId one
  obtain ⟨sda2, second⟩ := wrByte_receives _ sda1 regnum two
  obtain ⟨sda3, third⟩ := wrByte_receives _ sda2 (regval >>> 8).toUInt8 three
  obtain ⟨sda4, fourth⟩ := wrByte_receives _ sda3 regval.toUInt8 four
  rw [start_answers, start_received] at first
  simp only [cmosRset, sccbStart_idle, start_stop, first, second, third, fourth]
  rw [sccbStop_eq mt9p031 _ _ _ (.inr rfl)]
  refine ⟨_, rfl, ?_⟩
  rw [written_received, List.drop_left]
  simp only [accept_answers, accept_received, start_received, start_answers, List.length_append,
    List.length_singleton, Nat.add_assoc, List.forall_mem_cons]
  simp only [refused_iff, Nat.reduceAdd, List.not_mem_nil, false_implies, implies_true, and_true]
  tauto

/-- A read changes no register, and an acknowledging sensor sends the word that is asked for. -/
theorem cmosRget_eq (regnum : UInt16) :
    ∃ val final, cmosRget (slave mt9p031) regnum ⟨⟨scl, sda, true⟩, ⟨chip, .idle⟩⟩ =
        (val, ⟨⟨true, true, true⟩, ⟨final, .idle⟩⟩) ∧
      final.registers = chip.registers ∧ final.answers = chip.answers ∧
      ((∀ index, chip.answers index = true) → val = chip.registers regnum.toUInt8) := by
  have one := accept_write_receives chip
  have two := accept_receives _ regnum.toUInt8 one
  obtain ⟨sda1, first⟩ := wrByte_receives _ false sccbId one
  obtain ⟨sda2, second⟩ := wrByte_receives _ sda1 regnum.toUInt8 two
  obtain ⟨sda3, third⟩ := sccbWrByte_eq mt9p031
    (mt9p031.start (chip.addressed regnum.toUInt8)) false (sccbId ||| 0x01)
  rw [← Mt9p031.asked] at third
  simp only [cmosRget, sccbStart_idle, start_stop, first, second, ← Mt9p031.addressed.eq_1,
    sccbStart_repeated, third]
  rcases asked_expects chip regnum.toUInt8 with reads | ignores
  · have sends : mt9p031.next (chip.asked regnum.toUInt8) =
        .send (topBits 8 (mt9p031.byte (chip.asked regnum.toUInt8))) := by
      simp [Device.next, mt9p031, reads]
    simp only [sends, sccbRdByte_send, sccbAck_answer, sccbNoAck_answer]
    rw [sccbStop_eq mt9p031 _ _ _ (.inl rfl)]
    refine ⟨_, _, rfl, ?_, ?_, fun acknowledged => ?_⟩
    · rw [stop_registers, sent_registers, sent_registers, asked_registers]
    · rw [stop_answers, sent_answers, sent_answers, asked_answers]
    · have selects := (asked_acknowledged chip regnum.toUInt8 acknowledged).1
      have top : mt9p031.byte (chip.asked regnum.toUInt8) =
          (chip.registers regnum.toUInt8 >>> 8).toUInt8 := by
        rw [← asked_registers chip regnum.toUInt8]
        simp [mt9p031, reads, selects]
      have low : mt9p031.byte (mt9p031.sent true (chip.asked regnum.toUInt8)) =
          (chip.registers regnum.toUInt8).toUInt8 := by
        rw [← asked_registers chip regnum.toUInt8]
        simp [mt9p031, reads, selects]
      rw [top, low]
      exact littleEndian_halves _
  · have receives : (chip.asked regnum.toUInt8).Receives := by simp [Mt9p031.Receives, ignores]
    have high := accept_receives _ 0xFF receives
    have low := accept_receives _ 0xFF high
    have still := accept_nothing _ 0xFF ignores
    simp only [next_receives _ receives, sccbRdByte_receive, sccbAck_acknowledge,
      next_receives _ high, sccbNoAck_acknowledge, next_receives _ low]
    rw [sccbStop_eq mt9p031 _ _ _ (.inr rfl)]
    refine ⟨_, _, rfl, ?_, ?_, fun acknowledged => ?_⟩
    · rw [stop_registers, accept_registers _ _ (by simp [still]),
        accept_registers _ _ (by simp [ignores]), asked_registers]
    · rw [stop_answers, accept_answers, accept_answers, asked_answers]
    · have selects := (asked_acknowledged chip regnum.toUInt8 acknowledged).2
      rw [selects] at ignores
      contradiction

end Transactions

section Refinement

/-- The calls of the driver. -/
inductive SensorCall where
  | rget (regnum : UInt16)
  | rset (regnum : UInt8) (regval : UInt16)

/-- A read gives a value, and a write gives a result code. -/
inductive SensorResult where
  | value (val : UInt16)
  | code (res : UInt8)
  deriving DecidableEq, Repr

/-- The register that a call writes. -/
def SensorCall.writes : SensorCall → WriteLog UInt8 UInt16
  | rget _ => []
  | rset regnum regval => [(regnum, regval)]

/-- The registers as their callers see them. -/
def registerFile : Machine Registers SensorCall SensorResult where
  step registers call :=
    (call.writes.replay registers,
      match call with
      | .rget regnum => .value (registers regnum.toUInt8)
      | .rset _ _ => .code 0)

/-- The driver with its bus and the sensor. -/
def sensor : Machine (Bus (Slave Mt9p031)) SensorCall SensorResult where
  step bus call :=
    match call with
    | .rget regnum =>
        let (val, bus) := cmosRget (slave mt9p031) regnum bus
        (bus, .value val)
    | .rset regnum regval =>
        let (res, bus) := cmosRset (slave mt9p031) regnum regval bus
        (bus, .code res)

/-- No transfer is under way, and the driver holds the data pin. -/
structure Rests (answers : Nat → Bool) (bus : Bus (Slave Mt9p031)) : Prop where
  out : bus.pins.out = true
  phase : bus.slave.phase = .idle
  answers : bus.slave.device.answers = answers

theorem Rests.bus_eq {answers : Nat → Bool} {bus : Bus (Slave Mt9p031)} (rests : Rests answers bus) :
    bus = ⟨⟨bus.pins.scl, bus.pins.sda, true⟩, ⟨bus.slave.device, .idle⟩⟩ := by
  obtain ⟨⟨scl, sda, out⟩, chip, phase⟩ := bus
  obtain ⟨rfl, rfl, _⟩ := rests
  rfl

theorem written_answers (chip : Mt9p031) (regnum : UInt8) (regval : UInt16) :
    (chip.written regnum regval).answers = chip.answers := by
  rw [Mt9p031.written, stop_answers, accept_answers, accept_answers, accept_answers, accept_answers,
    start_answers]

/-- Each call leaves the bus at rest, and at most the register of a write changes. -/
theorem sensor_step {answers : Nat → Bool} {bus : Bus (Slave Mt9p031)} (rests : Rests answers bus)
    (call : SensorCall) :
    Rests answers (sensor.step bus call).1 ∧
      ((sensor.step bus call).1.slave.device.registers = bus.slave.device.registers ∨
        (sensor.step bus call).1.slave.device.registers =
          call.writes.replay bus.slave.device.registers) := by
  cases call with
  | rget regnum =>
      obtain ⟨val, final, read, registers, same, _⟩ :=
        cmosRget_eq bus.slave.device bus.pins.scl bus.pins.sda regnum
      rw [← rests.bus_eq] at read
      simp only [sensor, read]
      exact ⟨⟨rfl, rfl, same.trans rests.answers⟩, .inl registers⟩
  | rset regnum regval =>
      obtain ⟨res, wrote, _⟩ :=
        cmosRset_eq bus.slave.device bus.pins.scl bus.pins.sda regnum regval
      rw [← rests.bus_eq] at wrote
      simp only [sensor, wrote, written_registers]
      refine ⟨⟨rfl, rfl, (written_answers ..).trans rests.answers⟩, ?_⟩
      split
      · exact .inr rfl
      · exact .inl rfl

/-- The bus rests after any calls. -/
theorem sensor_rests {answers : Nat → Bool} {bus : Bus (Slave Mt9p031)} (rests : Rests answers bus)
    (calls : List SensorCall) : Rests answers (sensor.after bus calls) :=
  Machine.after_invariant (Rests answers) (fun _ call rests => (sensor_step rests call).1) rests calls

/-- A sensor that acknowledges every byte is a register file. -/
theorem sensor_simulates :
    sensor.Simulates registerFile fun bus registers =>
      Rests (fun _ => true) bus ∧ bus.slave.device.registers = registers := by
  rintro bus _ call ⟨rests, rfl⟩
  have all (index : Nat) : bus.slave.device.answers index = true := by rw [rests.answers]
  cases call with
  | rget regnum =>
      obtain ⟨val, final, read, registers, same, value⟩ :=
        cmosRget_eq bus.slave.device bus.pins.scl bus.pins.sda regnum
      rw [← rests.bus_eq] at read
      simp only [sensor, read]
      exact ⟨congrArg _ (value all), ⟨rfl, rfl, same.trans rests.answers⟩, registers⟩
  | rset regnum regval =>
      obtain ⟨res, wrote, success⟩ :=
        cmosRset_eq bus.slave.device bus.pins.scl bus.pins.sda regnum regval
      rw [← rests.bus_eq] at wrote
      have zero : res = 0 := by
        rw [success, written_received, List.drop_left]
        simp [all]
      simp only [sensor, wrote, written_registers, all, and_self, if_true]
      exact ⟨congrArg _ zero, ⟨rfl, rfl, (written_answers ..).trans rests.answers⟩, rfl⟩

/-- The register file replays the writes of its calls. -/
theorem registerFile_after (registers : Registers) (calls : List SensorCall) :
    registerFile.after registers calls =
      WriteLog.replay (calls.flatMap SensorCall.writes) registers :=
  WriteLog.after_eq (fun _ _ => rfl) registers calls

/-- The answers of the sensor to the next bytes. -/
def Mt9p031.answering (chip : Mt9p031) (bytes : List UInt8) : List (UInt8 × Bool) :=
  bytes.mapIdx fun index byte => (byte, chip.answers (chip.received.length + index))

/-- The driver and a sensor that acknowledges every byte are a register file, where each register
holds its last write or its initial value. For every pattern of answers, a call changes no register
that it does not write, and a write succeeds exactly when its four bytes are acknowledged. -/
structure RegisterFileLaw (bus : Bus (Slave Mt9p031)) : Prop where
  results (all : ∀ index, bus.slave.device.answers index = true) (calls) :
    sensor.results bus calls = registerFile.results bus.slave.device.registers calls
  contents (all : ∀ index, bus.slave.device.answers index = true) (calls) :
    (sensor.after bus calls).slave.device.registers =
      WriteLog.replay (calls.flatMap SensorCall.writes) bus.slave.device.registers
  frame (calls) (call : SensorCall) (register : UInt8)
    (other : register ∉ call.writes.addresses) :
    (sensor.after bus (calls ++ [call])).slave.device.registers register =
      (sensor.after bus calls).slave.device.registers register
  success (calls) (regnum : UInt8) (regval : UInt16) :
    let before := sensor.after bus calls
    let set := cmosRset (slave mt9p031) regnum regval before
    let sent := before.slave.device.answering
      [sccbId, regnum, (regval >>> 8).toUInt8, regval.toUInt8]
    set.2.slave.device.received = before.slave.device.received ++ sent ∧
      (set.1 = 0 ↔ ∀ entry ∈ sent, entry.2 = true)

/-- The driver refines a register file from any levels of the pins and any registers. -/
theorem cmos_refines (scl sda : Bool) (chip : Mt9p031) :
    RegisterFileLaw ⟨⟨scl, sda, true⟩, ⟨chip, .idle⟩⟩ := by
  have rests : Rests chip.answers ⟨⟨scl, sda, true⟩, ⟨chip, .idle⟩⟩ := ⟨rfl, rfl, rfl⟩
  refine ⟨fun all => ?_, fun all calls => ?_, fun calls call register other => ?_,
    fun calls regnum regval => ?_⟩
  · have same : chip.answers = fun _ => true := funext all
    exact sensor_simulates.results_eq ⟨same ▸ rests, rfl⟩
  · have same : chip.answers = fun _ => true := funext all
    rw [← registerFile_after]
    exact (sensor_simulates.after ⟨same ▸ rests, rfl⟩ calls).2
  · rw [Machine.after_concat]
    rcases (sensor_step (sensor_rests rests calls) call).2 with kept | wrote
    · rw [kept]
    · rw [wrote]
      exact WriteLog.replay_untouched other _
  · intro before set sent
    have rest : Rests chip.answers before := sensor_rests rests calls
    obtain ⟨res, wrote, success⟩ :=
      cmosRset_eq before.slave.device before.pins.scl before.pins.sda regnum regval
    rw [← rest.bus_eq] at wrote
    have received := written_received before.slave.device regnum regval
    have four : set = (res, _) := wrote
    rw [received, List.drop_left] at success
    rw [four]
    exact ⟨received, success⟩

end Refinement

end NnpCamera.Sensor
