/-
This file models the AT24C02 and its driver in `24cxx.c`.
-/

import NnpCamera.Eeprom.Iic
import NnpCamera.Library.Loop
import NnpCamera.Library.Machine
import NnpCamera.Library.WriteLog
import NnpCamera.Parameters.Board
import Mathlib.Algebra.Group.Nat.Defs

namespace NnpCamera.Eeprom
open Library Library.TwoWire
open Parameters (Eeprom)

/-- What the chip takes the next byte for. -/
inductive Expects where
  | nothing
  | deviceAddress
  | wordAddress
  | data
  | reading
  deriving DecidableEq, Repr

/-- The chip holds its cells, its address counter, and the bytes that it stores at the stop
condition. -/
structure At24c02 where
  cells : Eeprom
  address : UInt8
  expects : Expects
  latched : List (UInt8 × UInt8)

/-- A write stays in its page of eight bytes. -/
def nextInPage (address : UInt8) : UInt8 := (address &&& 0xF8) ||| ((address + 1) &&& 0x07)

/-- The chip stores its latched bytes. -/
def At24c02.commit (chip : At24c02) : Eeprom :=
  chip.latched.foldl (fun cells entry => Function.update cells entry.1 entry.2) chip.cells

/-- The chip has the device address 1010000. Its write cycle is over when the driver goes on, because
the driver waits 10 ms after each stop condition that follows data. -/
def at24c02 : Device At24c02 where
  start chip := { chip with expects := .deviceAddress, latched := [] }
  stop chip := { chip with cells := chip.commit, expects := .nothing, latched := [] }
  accept byte chip :=
    match chip.expects with
    | .deviceAddress =>
        { chip with expects :=
            if byte = 0xA0 then .wordAddress else if byte = 0xA1 then .reading else .nothing }
    | .wordAddress => { chip with address := byte, expects := .data }
    | .data =>
        { chip with
          address := nextInPage chip.address
          latched := chip.latched ++ [(chip.address, byte)] }
    | _ => chip
  acknowledges chip := chip.expects ≠ .nothing
  sends chip := chip.expects = .reading
  byte chip := chip.cells chip.address
  sent _ chip := { chip with address := chip.address + 1 }

def at24c16 : UInt16 := 2047

/-- `EE_TYPE` is `AT24C02`. -/
def eeType : UInt16 := 255

section Driver
variable {Slave : Type} (target : Target Slave)

/-- Both one-byte calls begin with the device address and the address of the byte. -/
def at24cxxAddress (addr : UInt16) (bus : Bus Slave) : Bus Slave :=
  let bus := iicStart target bus
  let bus :=
    if at24c16 < eeType then
      let bus := iicSendByte target bus 0xA0
      let bus := (iicWaitAck target bus).2
      iicSendByte target bus (addr >>> 8).toUInt8
    else iicSendByte target bus ((0xA0 : UInt16) + ((addr / 256) <<< 1)).toUInt8
  let bus := (iicWaitAck target bus).2
  let bus := iicSendByte target bus (addr % 256).toUInt8
  (iicWaitAck target bus).2

def at24cxxReadOneByte (readAddr : UInt16) (bus : Bus Slave) : UInt8 × Bus Slave :=
  let bus := at24cxxAddress target readAddr bus
  let bus := iicStart target bus
  let bus := iicSendByte target bus 0xA1
  let bus := (iicWaitAck target bus).2
  let (temp, bus) := iicReadByte target bus false
  (temp, iicStop target bus)

def at24cxxWriteOneByte (writeAddr : UInt16) (dataToWrite : UInt8) (bus : Bus Slave) : Bus Slave :=
  let bus := at24cxxAddress target writeAddr bus
  let bus := iicSendByte target bus dataToWrite
  let bus := (iicWaitAck target bus).2
  iicStop target bus

/-- Byte `t` of the data goes to address `WriteAddr + t`. -/
def at24cxxWriteLenByte (writeAddr : UInt16) (dataToWrite : UInt32) (len : UInt8)
    (bus : Bus Slave) : Bus Slave :=
  loop (fun t bus => at24cxxWriteOneByte target (writeAddr + .ofNat t)
    ((dataToWrite >>> .ofNat (8 * t)) &&& 0xFF).toUInt8 bus) len.toNat bus

/-- The loop starts with the last byte. -/
def at24cxxReadLenByte (readAddr : UInt16) (len : UInt8) (bus : Bus Slave) : UInt32 × Bus Slave :=
  loop (fun t (temp, bus) =>
    let temp := temp <<< 8
    let (value, bus) :=
      at24cxxReadOneByte target (readAddr + len.toUInt16 - .ofNat t - 1) bus
    (temp + value.toUInt32, bus)) len.toNat (0, bus)

end Driver

/-- The bus between two calls. -/
def restingBus (cells : Eeprom) (address : UInt8) : Bus (Slave At24c02) :=
  ⟨idlePins, ⟨cells, address, .nothing, []⟩, .idle⟩

/-- The chip after the address of one cell. -/
def selected (cells : Eeprom) (address : UInt8) : At24c02 := ⟨cells, address, .data, []⟩

section Bytes
variable (chip : At24c02)

/-- A byte that the chip acknowledges. -/
theorem send_acknowledged (old out : Bool) (byte : UInt8)
    (acknowledges : (at24c02.accept byte chip).expects ≠ .nothing) :
    (iicWaitAck (slave at24c02) (iicSendByte (slave at24c02)
        ⟨⟨false, old, out⟩, ⟨chip, .receive []⟩⟩ byte)).2 =
      ⟨⟨false, true, false⟩,
        ⟨at24c02.accept byte chip, at24c02.next (at24c02.accept byte chip)⟩⟩ := by
  obtain ⟨sda, sent⟩ := iicSendByte_eq at24c02 chip byte old out
  have answers : at24c02.acknowledges (at24c02.accept byte chip) = true :=
    decide_eq_true acknowledges
  rw [sent, iicWaitAck_eq at24c02 _ sda answers]

end Bytes

section Transactions
variable (cells : Eeprom) (address : UInt8)

/-- The address phase selects one cell. -/
theorem at24cxxAddress_eq (addr : UInt16) (inside : addr.toNat < 256) :
    at24cxxAddress (slave at24c02) addr (restingBus cells address) =
      ⟨⟨false, true, false⟩, ⟨selected cells addr.toUInt8, .receive []⟩⟩ := by
  have page : ((0xA0 : UInt16) + ((addr / 256) <<< 1)).toUInt8 = 0xA0 := by
    have first : addr / 256 = 0 := by
      rw [← UInt16.toNat_inj, UInt16.toNat_div]
      exact Nat.div_eq_of_lt inside
    rw [first]
    rfl
  have low : (addr % 256).toUInt8 = addr.toUInt8 := by
    rw [← UInt8.toNat_inj, UInt16.toNat_toUInt8, UInt16.toNat_toUInt8, UInt16.toNat_mod]
    exact Nat.mod_mod _ _
  have small : ¬ at24c16 < eeType := by decide
  simp only [at24cxxAddress, restingBus, if_neg small, page, low, iicStart_idle]
  rw [send_acknowledged _ _ _ _ (by simp [at24c02])]
  have next : at24c02.next (at24c02.accept 0xA0 (at24c02.start ⟨cells, address, .nothing, []⟩)) =
      .receive [] := by
    simp [at24c02, Device.next]
  rw [next, send_acknowledged _ _ _ _ (by simp [at24c02])]
  simp [at24c02, Device.next, selected]

/-- A write stores its byte when the transfer stops. -/
theorem at24cxxWriteOneByte_eq (writeAddr : UInt16) (dataToWrite : UInt8)
    (inside : writeAddr.toNat < 256) :
    at24cxxWriteOneByte (slave at24c02) writeAddr dataToWrite (restingBus cells address) =
      restingBus (Parameters.at24cxxWriteOneByte cells writeAddr.toUInt8 dataToWrite)
        (nextInPage writeAddr.toUInt8) := by
  simp only [at24cxxWriteOneByte, at24cxxAddress_eq cells address writeAddr inside]
  rw [send_acknowledged _ _ _ _ (by simp [at24c02, selected])]
  have next : at24c02.next (at24c02.accept dataToWrite (selected cells writeAddr.toUInt8)) =
      .receive [] := by
    simp [at24c02, Device.next, selected]
  rw [next, iicStop_eq at24c02 _ _ _ _ (.inr rfl)]
  simp [at24c02, selected, restingBus, At24c02.commit, Parameters.at24cxxWriteOneByte]

/-- A read starts again after the address and takes one byte. -/
theorem at24cxxReadOneByte_eq (readAddr : UInt16) (inside : readAddr.toNat < 256) :
    at24cxxReadOneByte (slave at24c02) readAddr (restingBus cells address) =
      (Parameters.at24cxxReadOneByte cells readAddr.toUInt8,
        restingBus cells (readAddr.toUInt8 + 1)) := by
  simp only [at24cxxReadOneByte, at24cxxAddress_eq cells address readAddr inside,
    iicStart_repeated]
  rw [send_acknowledged _ _ _ _ (by simp [at24c02, selected])]
  have next : at24c02.next (at24c02.accept 0xA1 (at24c02.start (selected cells readAddr.toUInt8))) =
      .send (topBits 8 (cells readAddr.toUInt8)) := by
    simp [at24c02, Device.next, selected]
  simp only [next, iicReadByte_eq]
  rw [iicStop_eq at24c02 _ _ _ _ (.inl rfl)]
  simp [at24c02, selected, restingBus, At24c02.commit, Parameters.at24cxxReadOneByte]

end Transactions

section Values

/-- The writes of a value of several bytes. Its low byte goes to the lowest address. -/
def valueWrites (start data len : Nat) : WriteLog UInt8 UInt8 :=
  (List.range len).map fun t => (.ofNat (start + t), .ofNat (data / 256 ^ t))

/-- The value that the bytes from an address make. -/
def storedValue (cells : Eeprom) (start : Nat) : Nat → Nat
  | 0 => 0
  | len + 1 => (cells (.ofNat start)).toNat + 256 * storedValue cells (start + 1) len

theorem storedValue_lt (cells : Eeprom) (start len : Nat) :
    storedValue cells start len < 256 ^ len := by
  induction len generalizing start with
  | zero => exact Nat.one_pos
  | succ len ih =>
      have low := (cells (.ofNat start)).toNat_lt
      have high := ih (start + 1)
      rw [storedValue, Nat.pow_succ]
      omega

/-- Bytes that hold the digits of a number make this number. -/
theorem storedValue_digits {cells : Eeprom} {start data len : Nat}
    (digits : ∀ t < len, cells (.ofNat (start + t)) = .ofNat (data / 256 ^ t)) :
    storedValue cells start len = data % 256 ^ len := by
  induction len generalizing start data with
  | zero => rw [storedValue, Nat.pow_zero, Nat.mod_one]
  | succ len ih =>
      have low : (cells (.ofNat start)).toNat = data % 256 := by
        have first := digits 0 (Nat.succ_pos len)
        rw [Nat.add_zero, Nat.pow_zero, Nat.div_one] at first
        rw [first, UInt8.toNat_ofNat']
      have high : storedValue cells (start + 1) len = data / 256 % 256 ^ len := by
        refine ih fun t below => ?_
        have digit := digits (t + 1) (Nat.succ_lt_succ below)
        rw [Nat.add_right_comm, Nat.add_assoc, digit, Nat.div_div_eq_div_mul, Nat.pow_succ']
      rw [storedValue, low, high, Nat.pow_succ', Nat.mod_mul]

/-- The writes of a value leave its digits in the cells. -/
theorem valueWrites_digit (cells : Eeprom) {start data len t : Nat} (inside : start + len ≤ 256)
    (below : t < len) :
    (valueWrites start data len).replay cells (.ofNat (start + t)) = .ofNat (data / 256 ^ t) := by
  induction len with
  | zero => exact absurd below (Nat.not_lt_zero t)
  | succ len ih =>
      rw [valueWrites, List.range_succ, List.map_append, WriteLog.replay_append, List.map_singleton,
        WriteLog.replay_cons, WriteLog.replay_nil]
      rcases Nat.lt_succ_iff_lt_or_eq.mp below with earlier | rfl
      · have apart : UInt8.ofNat (start + t) ≠ .ofNat (start + len) := by
          intro same
          have values := congrArg UInt8.toNat same
          rw [UInt8.toNat_ofNat', UInt8.toNat_ofNat'] at values
          omega
        rw [Function.update_of_ne apart]
        exact ih (by omega) earlier
      · exact Function.update_self ..

/-- A stored value is read back modulo the size of its bytes. -/
theorem storedValue_valueWrites (cells : Eeprom) {start data len : Nat}
    (inside : start + len ≤ 256) :
    storedValue ((valueWrites start data len).replay cells) start len = data % 256 ^ len :=
  storedValue_digits fun _ below => valueWrites_digit cells inside below

end Values

section Loops
variable (cells : Eeprom) (address : UInt8) (addr : UInt16) (len : UInt8)
  (inside : addr.toNat + len.toNat ≤ 256) (short : len.toNat ≤ 4)

include inside short

/-- The write loop makes the writes of its value. -/
theorem at24cxxWriteLenByte_eq (dataToWrite : UInt32) :
    ∃ next, at24cxxWriteLenByte (slave at24c02) addr dataToWrite len (restingBus cells address) =
      restingBus ((valueWrites addr.toNat dataToWrite.toNat len.toNat).replay cells) next := by
  rw [at24cxxWriteLenByte]
  refine loop_invariant (fun t bus => ∃ next, bus =
    restingBus ((valueWrites addr.toNat dataToWrite.toNat t).replay cells) next) len.toNat
    ⟨address, rfl⟩ ?_
  rintro t _ below ⟨next, rfl⟩
  have target : (addr + .ofNat t).toNat = addr.toNat + t := by
    rw [UInt16.toNat_add, UInt16.toNat_ofNat']
    omega
  have cell : (addr + .ofNat t).toUInt8 = .ofNat (addr.toNat + t) := by
    rw [← UInt8.toNat_inj, UInt16.toNat_toUInt8, target, UInt8.toNat_ofNat']
  have digit : ((dataToWrite >>> .ofNat (8 * t)) &&& 0xFF).toUInt8 =
      .ofNat (dataToWrite.toNat / 256 ^ t) := by
    have shift : (8 * t) % 2 ^ 32 % 32 = 8 * t := by omega
    have size : 2 ^ (8 * t) = 256 ^ t := Nat.pow_mul 2 8 t
    have mask : (0xFF : UInt32).toNat = 2 ^ 8 - 1 := rfl
    rw [← UInt8.toNat_inj, UInt32.toNat_toUInt8, UInt32.toNat_and, UInt32.toNat_shiftRight,
      UInt32.toNat_ofNat', shift, Nat.shiftRight_eq_div_pow, size, mask,
      Nat.and_two_pow_sub_one_eq_mod, UInt8.toNat_ofNat', Nat.mod_mod]
  rw [at24cxxWriteOneByte_eq _ _ _ _ (by omega), cell, digit, valueWrites, valueWrites,
    List.range_succ, List.map_append, WriteLog.replay_append]
  exact ⟨_, rfl⟩

/-- The read loop makes the stored value from its last byte down. -/
theorem at24cxxReadLenByte_eq :
    ∃ next, at24cxxReadLenByte (slave at24c02) addr len (restingBus cells address) =
      (.ofNat (storedValue cells addr.toNat len.toNat), restingBus cells next) := by
  rw [at24cxxReadLenByte, ← Nat.add_sub_cancel addr.toNat len.toNat]
  refine loop_invariant (fun t (state : UInt32 × Bus (Slave At24c02)) => ∃ next, state =
    (.ofNat (storedValue cells (addr.toNat + len.toNat - t) t), restingBus cells next)) len.toNat
    ⟨address, rfl⟩ ?_
  rintro t _ below ⟨next, rfl⟩
  have target : (addr + len.toUInt16 - .ofNat t - 1).toNat = addr.toNat + len.toNat - (t + 1) := by
    rw [UInt16.toNat_sub, UInt16.toNat_sub, UInt16.toNat_add, UInt8.toNat_toUInt16,
      UInt16.toNat_ofNat', UInt16.toNat_one]
    omega
  have cell : (addr + len.toUInt16 - .ofNat t - 1).toUInt8 =
      .ofNat (addr.toNat + len.toNat - (t + 1)) := by
    rw [← UInt8.toNat_inj, UInt16.toNat_toUInt8, target, UInt8.toNat_ofNat']
  have above : addr.toNat + len.toNat - t = addr.toNat + len.toNat - (t + 1) + 1 := by omega
  have sum (value : Nat) (low : UInt8) :
      UInt32.ofNat value <<< 8 + low.toUInt32 = .ofNat (low.toNat + 256 * value) := by
    have shift : (8 : UInt32).toNat % 32 = 8 := rfl
    rw [← UInt32.toNat_inj, UInt32.toNat_add, UInt32.toNat_shiftLeft, UInt32.toNat_ofNat',
      UInt8.toNat_toUInt32, UInt32.toNat_ofNat', shift, Nat.shiftLeft_eq]
    omega
  have read := at24cxxReadOneByte_eq cells next (addr + len.toUInt16 - .ofNat t - 1)
    (by rw [target]; omega)
  simp only [read, cell, sum, above]
  exact ⟨_, rfl⟩

end Loops

section Refinement

/-- The calls of the driver. -/
inductive DriverCall where
  | readOneByte (readAddr : UInt16)
  | writeOneByte (writeAddr : UInt16) (dataToWrite : UInt8)
  | readLenByte (readAddr : UInt16) (len : UInt8)
  | writeLenByte (writeAddr : UInt16) (dataToWrite : UInt32) (len : UInt8)

/-- A write has no result. -/
inductive DriverResult where
  | written
  | value (value : Nat)
  deriving DecidableEq, Repr

namespace DriverCall

/-- The first address that a call uses. -/
def start : DriverCall → Nat
  | readOneByte addr | writeOneByte addr _ | readLenByte addr _ | writeLenByte addr _ _ => addr.toNat

/-- The number of bytes that a call uses. -/
def count : DriverCall → Nat
  | readOneByte _ | writeOneByte _ _ => 1
  | readLenByte _ len | writeLenByte _ _ len => len.toNat

/-- The bytes of a call are in the memory, and they fit in 32 bits. -/
def Inside (call : DriverCall) : Prop := call.start + call.count ≤ 256 ∧ call.count ≤ 4

/-- The bytes that a call stores. -/
def writes : DriverCall → WriteLog UInt8 UInt8
  | readOneByte _ | readLenByte _ _ => []
  | writeOneByte addr data => valueWrites addr.toNat data.toNat 1
  | writeLenByte addr data len => valueWrites addr.toNat data.toNat len.toNat

/-- The value that a call reads. -/
def result (cells : Eeprom) (call : DriverCall) : DriverResult :=
  match call with
  | readOneByte _ | readLenByte _ _ => .value (storedValue cells call.start call.count)
  | writeOneByte _ _ | writeLenByte _ _ _ => .written

end DriverCall

/-- The memory as its callers see it. -/
def byteStore : Machine Eeprom {call : DriverCall // call.Inside} DriverResult where
  step cells call := (call.val.writes.replay cells, call.val.result cells)

/-- The driver with its bus and the chip. -/
def driver : Machine (Bus (Slave At24c02)) {call : DriverCall // call.Inside} DriverResult where
  step bus call :=
    match call.val with
    | .readOneByte addr =>
        let (temp, bus) := at24cxxReadOneByte (slave at24c02) addr bus
        (bus, .value temp.toNat)
    | .writeOneByte addr data => (at24cxxWriteOneByte (slave at24c02) addr data bus, .written)
    | .readLenByte addr len =>
        let (temp, bus) := at24cxxReadLenByte (slave at24c02) addr len bus
        (bus, .value temp.toNat)
    | .writeLenByte addr data len =>
        (at24cxxWriteLenByte (slave at24c02) addr data len bus, .written)

/-- The bus rests, and the chip holds these cells. -/
def Holds (bus : Bus (Slave At24c02)) (cells : Eeprom) : Prop :=
  ∃ address, bus = restingBus cells address

/-- Each call of the driver is one step of the byte store. -/
theorem driver_simulates : driver.Simulates byteStore Holds := by
  rintro _ cells ⟨call, inside, short⟩ ⟨address, rfl⟩
  cases call with
  | readOneByte addr =>
      have read := at24cxxReadOneByte_eq cells address addr inside
      refine ⟨?_, addr.toUInt8 + 1, congrArg Prod.snd read⟩
      exact congrArg (fun got => DriverResult.value got.1.toNat) read
  | writeOneByte addr data =>
      have wrote := at24cxxWriteOneByte_eq cells address addr data inside
      have whole : (valueWrites addr.toNat data.toNat 1).replay cells =
          Parameters.at24cxxWriteOneByte cells addr.toUInt8 data := by
        have byte : UInt8.ofNat (data.toNat / 256 ^ 0) = data := by
          rw [Nat.pow_zero, Nat.div_one, UInt8.ofNat_toNat]
        show Function.update cells _ (UInt8.ofNat (data.toNat / 256 ^ 0)) = _
        rw [byte]
        rfl
      refine ⟨rfl, nextInPage addr.toUInt8, wrote.trans ?_⟩
      exact congrArg (restingBus · _) whole.symm
  | readLenByte addr len =>
      obtain ⟨next, read⟩ := at24cxxReadLenByte_eq cells address addr len inside short
      refine ⟨?_, next, congrArg Prod.snd read⟩
      have fits : storedValue cells addr.toNat len.toNat < 2 ^ 32 :=
        (storedValue_lt cells addr.toNat len.toNat).trans_le
          (Nat.pow_le_pow_right (by decide) short)
      show DriverResult.value (at24cxxReadLenByte _ addr len _).1.toNat = .value _
      rw [read, UInt32.toNat_ofNat', Nat.mod_eq_of_lt fits]
      rfl
  | writeLenByte addr data len =>
      exact ⟨rfl, at24cxxWriteLenByte_eq cells address addr len inside short data⟩

/-- The byte store replays the writes of its calls. -/
theorem byteStore_after (cells : Eeprom) (calls : List {call : DriverCall // call.Inside}) :
    byteStore.after cells calls =
      WriteLog.replay (calls.flatMap fun call => call.val.writes) cells :=
  WriteLog.after_eq (fun _ _ => rfl) cells calls

/-- A call writes only the bytes that it names. -/
theorem DriverCall.writes_inside (call : DriverCall) (inside : call.Inside) {address : UInt8}
    (outside : address.toNat < call.start ∨ call.start + call.count ≤ address.toNat) :
    address ∉ call.writes.addresses := by
  have value (data : Nat) : address ∉ (valueWrites call.start data call.count).addresses := by
    intro member
    rw [valueWrites, WriteLog.addresses, List.map_map, List.mem_map] at member
    obtain ⟨t, below, rfl⟩ := member
    have room := inside.1
    have place : (UInt8.ofNat (call.start + t)).toNat = call.start + t := by
      rw [UInt8.toNat_ofNat']
      have := List.mem_range.mp below
      omega
    simp only [Function.comp, place] at outside
    have := List.mem_range.mp below
    omega
  cases call with
  | readOneByte | readLenByte => exact List.not_mem_nil
  | writeOneByte addr data => exact value data.toNat
  | writeLenByte addr data len => exact value data.toNat

/-- The driver and the chip are a byte store. After all calls, each cell holds its last write or its
initial value, a value comes back modulo the size of its bytes, and a call changes no other
address. -/
structure ByteStoreLaw (bus : Bus (Slave At24c02)) (cells : Eeprom) : Prop where
  results (calls) : driver.results bus calls = byteStore.results cells calls
  contents (calls) : Holds (driver.after bus calls)
    (WriteLog.replay (calls.flatMap fun call => call.val.writes) cells)
  roundTrip (calls) (addr : UInt16) (data : UInt32) (len : UInt8)
    (inside : (DriverCall.writeLenByte addr data len).Inside) :
    driver.results (driver.after bus calls)
      [⟨.writeLenByte addr data len, inside⟩, ⟨.readLenByte addr len, inside⟩] =
        [.written, .value (data.toNat % 2 ^ (8 * len.toNat))]
  frame (calls) (call : {call : DriverCall // call.Inside}) (address : UInt8)
    (outside : address.toNat < call.val.start ∨
      call.val.start + call.val.count ≤ address.toNat) :
    (driver.after bus (calls ++ [call])).slave.device.cells address =
      (driver.after bus calls).slave.device.cells address

/-- The driver refines a byte store from any contents. -/
theorem at24cxx_refines (cells : Eeprom) (address : UInt8) :
    ByteStoreLaw (restingBus cells address) cells := by
  have start : Holds (restingBus cells address) cells := ⟨address, rfl⟩
  have contents (calls) := driver_simulates.after start calls
  refine ⟨driver_simulates.results_eq start, fun calls => ?_, fun calls addr data len inside => ?_,
    fun calls call other outside => ?_⟩
  · rw [← byteStore_after]
    exact contents calls
  · rw [driver_simulates.results_eq (contents calls)]
    have size : 256 ^ len.toNat = 2 ^ (8 * len.toNat) := (Nat.pow_mul 2 8 _).symm
    have value : storedValue ((valueWrites addr.toNat data.toNat len.toNat).replay
        (byteStore.after cells calls)) addr.toNat len.toNat = data.toNat % 256 ^ len.toNat :=
      storedValue_valueWrites _ inside.1
    rw [← size, ← value]
    rfl
  · obtain ⟨_, before⟩ := contents calls
    obtain ⟨_, after⟩ := contents (calls ++ [call])
    rw [before, after, byteStore_after, byteStore_after, List.flatMap_append,
      WriteLog.replay_append, List.flatMap_singleton]
    exact WriteLog.replay_untouched (call.val.writes_inside call.property outside) _

end Refinement

end NnpCamera.Eeprom
