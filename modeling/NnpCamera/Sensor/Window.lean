/-
This file models the loops of `MT9P031D.c` that write a register until it reads back the same value,
and shows for which windows they end.
-/

import NnpCamera.Library.Loop
import NnpCamera.Sensor.Mt9p031
import Mathlib.Data.UInt

namespace NnpCamera.Sensor
open Library Library.TwoWire
open Parameters (SendPacket)

def mt9p031RowStart : UInt8 := 0x01
def mt9p031ColStart : UInt8 := 0x02
def mt9p031Height : UInt8 := 0x03
def mt9p031Width : UInt8 := 0x04
def mt9p031ShutterWidthUpper : UInt8 := 0x08
def mt9p031ShutterWidth : UInt8 := 0x09
def mt9p031GlobalGain : UInt8 := 0x35

section Driver
variable {Slave : Type} (target : Target Slave)

/-- One write and the read after it. The pause between them does not change the bus. -/
def writeBack (regnum : UInt8) (regval : UInt16) (bus : Bus Slave) : UInt16 × Bus Slave :=
  cmosRget target regnum.toUInt16 (cmosRset target regnum regval bus).2

/-- The loop repeats the write until the value read back equals `expected`, which is an `int`. -/
def writeUntil (regnum : UInt8) (regval : UInt16) (expected : Int) (bus : Bus Slave)
    (passes : Nat) : Option (UInt16 × Bus Slave) :=
  whileLoop (fun state => decide ((state.1.toNat : Int) ≠ expected))
    (fun state => writeBack target regnum regval state.2) passes
    (writeBack target regnum regval bus)

def cmosSetGain (gainVal : UInt16) (bus : Bus Slave) (passes : Nat) :
    Option (UInt16 × Bus Slave) :=
  let bus := (cmosRget target mt9p031GlobalGain.toUInt16 bus).2
  writeUntil target mt9p031GlobalGain gainVal gainVal.toNat bus passes

/-- The values that the loops expect are converted to 16 bits. -/
def cmosSetShutter (shutterVal : UInt32) (bus : Bus Slave) (passes : Nat) :
    Option (UInt16 × Bus Slave) := do
  let (_, bus) ← writeUntil target mt9p031ShutterWidth (shutterVal &&& 0xFFFF).toUInt16
    shutterVal.toUInt16.toNat bus passes
  let (_, bus) ← writeUntil target mt9p031ShutterWidthUpper (shutterVal >>> 16).toUInt16
    (shutterVal >>> 16).toUInt16.toNat bus passes
  return (1, bus)

/-- The sums are of type `int`. They are converted to 16 bits for the write only. -/
def cmosSetAoi (yStart ySize xStart xSize : UInt16) (bus : Bus Slave) (passes : Nat) :
    Option (UInt16 × Bus Slave) := do
  let (_, bus) ← writeUntil target mt9p031RowStart (.ofInt (yStart.toNat + 54))
    (yStart.toNat + 54) bus passes
  let (_, bus) ← writeUntil target mt9p031Height ySize ySize.toNat bus passes
  let (_, bus) ← writeUntil target mt9p031ColStart (.ofInt (xStart.toNat + 16))
    (xStart.toNat + 16) bus passes
  writeUntil target mt9p031Width xSize xSize.toNat bus passes

/-- `MT9P031_Init` derives the start of the window from the two AOI start bytes. -/
def windowStart (para : SendPacket) : UInt16 :=
  .ofInt ((para.aoistartyh.toNat <<< 8 : Nat) + para.aoistartyl.toNat - 240)

/-- The exposure time of `MT9P031_Init`. -/
def initExposure (para : SendPacket) : UInt32 :=
  .ofInt ((para.exposureh.toNat <<< 8 : Nat) + para.exposurel.toNat)

/-- The settings of `MT9P031_Init` that follow `cmos_init`. -/
def mt9p031InitSettings (para : SendPacket) (bus : Bus Slave) (passes : Nat) :
    Option (Bus Slave) := do
  let (_, bus) ← cmosSetAoi target (windowStart para) 479 0 2591 bus passes
  let (_, bus) ← cmosSetGain target 9 bus passes
  let (_, bus) ← cmosSetShutter target (initExposure para) bus passes
  return bus

end Driver

/-- A function returns when some number of passes is enough for its loops. -/
def Exits {Result : Type} (run : Nat → Option Result) : Prop := ∃ passes, (run passes).isSome

section Exits
variable {Result : Type} {run : Nat → Option Result}

theorem exits_of_returns {passes : Nat} {result : Result} (returns : run passes = some result) :
    Exits run := ⟨passes, by rw [returns]; rfl⟩

theorem not_exits_of_never (never : ∀ passes, run passes = none) : ¬ Exits run := by
  rintro ⟨passes, returns⟩
  rw [never passes] at returns
  contradiction

end Exits

/-- From each resting bus, the sensor stores a write and returns it on the next read, and the bus
rests again. -/
structure StoresWrites {Slave : Type} (target : Target Slave) (rests : Bus Slave → Prop) : Prop where
  rset : ∀ bus, rests bus → ∀ regnum regval, rests (cmosRset target regnum regval bus).2
  rget : ∀ bus, rests bus → ∀ regnum, rests (cmosRget target regnum bus).2
  stored : ∀ bus, rests bus → ∀ regnum regval,
    (cmosRget target (UInt8.toUInt16 regnum) (cmosRset target regnum regval bus).2).1 = regval

/-- A sensor that acknowledges every byte stores each write. -/
theorem mt9p031_storesWrites : StoresWrites (slave mt9p031) (Rests fun _ => true) where
  rset bus rests regnum regval := (sensor_step rests (.rset regnum regval)).1
  rget bus rests regnum := (sensor_step rests (.rget regnum)).1
  stored bus rests regnum regval := by
    obtain ⟨_, rests, wrote⟩ := sensor_simulates bus _ (.rset regnum regval) ⟨rests, rfl⟩
    obtain ⟨value, _⟩ := sensor_simulates _ _ (.rget regnum.toUInt16) ⟨rests, wrote⟩
    have read := SensorResult.value.inj value
    refine read.trans ?_
    simp [registerFile, SensorCall.writes, WriteLog.replay]

section Loops
variable {Slave : Type} {target : Target Slave} {rests : Bus Slave → Prop}
  (stores : StoresWrites target rests) {bus : Bus Slave}
include stores

/-- A loop that expects the value that it writes ends at once. -/
theorem writeUntil_returns (rest : rests bus) (regnum : UInt8) (regval : UInt16) {expected : Int}
    (same : (regval.toNat : Int) = expected) (passes : Nat) :
    ∃ after, rests after ∧
      writeUntil target regnum regval expected bus passes = some (regval, after) := by
  have read : (writeBack target regnum regval bus).1 = regval := stores.stored bus rest regnum regval
  refine ⟨(writeBack target regnum regval bus).2, stores.rget _ (stores.rset _ rest _ _) _, ?_⟩
  rw [writeUntil, whileLoop_ended (by simp [read, same])]
  exact congrArg some (Prod.ext read rfl)

/-- A loop that expects another value than it writes does not end. -/
theorem writeUntil_never (rest : rests bus) (regnum : UInt8) {regval : UInt16} {expected : Int}
    (other : (regval.toNat : Int) ≠ expected) (passes : Nat) :
    writeUntil target regnum regval expected bus passes = none := by
  have again (bus : Bus Slave) (rest : rests bus) :
      (writeBack target regnum regval bus).1 = regval ∧
        rests (writeBack target regnum regval bus).2 :=
    ⟨stores.stored bus rest regnum regval, stores.rget _ (stores.rset _ rest _ _) _⟩
  exact whileLoop_never (fun state => state.1 = regval ∧ rests state.2)
    (fun state fact => by simp [fact.1, other]) (fun state fact => again state.2 fact.2)
    (again bus rest) passes

theorem cmosSetGain_returns (rest : rests bus) (gainVal : UInt16) (passes : Nat) :
    ∃ after, rests after ∧ cmosSetGain target gainVal bus passes = some (gainVal, after) :=
  writeUntil_returns stores (stores.rget _ rest _) mt9p031GlobalGain gainVal rfl passes

/-- Both loops of `cmos_set_Shutter` compare 16-bit values. -/
theorem cmosSetShutter_returns (rest : rests bus) (shutterVal : UInt32) (passes : Nat) :
    ∃ after, rests after ∧ cmosSetShutter target shutterVal bus passes = some (1, after) := by
  have low : (shutterVal &&& 0xFFFF).toUInt16 = shutterVal.toUInt16 := by
    rw [← UInt16.toNat_inj, UInt32.toNat_toUInt16, UInt32.toNat_toUInt16, UInt32.toNat_and]
    change (_ &&& 2 ^ 16 - 1) % _ = _
    rw [Nat.and_two_pow_sub_one_eq_mod, Nat.mod_mod]
  obtain ⟨first, rest, lower⟩ := writeUntil_returns stores rest mt9p031ShutterWidth
    (shutterVal &&& 0xFFFF).toUInt16 (congrArg (fun value : UInt16 => (value.toNat : Int)) low) passes
  obtain ⟨second, rest, upper⟩ := writeUntil_returns stores rest mt9p031ShutterWidthUpper
    (shutterVal >>> 16).toUInt16 rfl passes
  refine ⟨second, rest, ?_⟩
  simp only [cmosSetShutter, lower, upper, Option.bind_eq_bind, Option.bind_some]
  rfl

omit stores in
/-- A sum that fits in 16 bits is the value that is written. -/
theorem ofInt_fits_iff (sum : Int) (positive : 0 ≤ sum) :
    ((UInt16.ofInt sum).toNat : Int) = sum ↔ sum < 65536 := by
  rw [UInt16.ofInt, UInt16.toNat_ofNat']
  omega

/-- `cmos_set_Aoi` returns when both sums fit in 16 bits. -/
theorem cmosSetAoi_returns (rest : rests bus) (yStart ySize xStart xSize : UInt16)
    (row : yStart.toNat + 54 < 65536) (column : xStart.toNat + 16 < 65536) (passes : Nat) :
    ∃ after, rests after ∧
      cmosSetAoi target yStart ySize xStart xSize bus passes = some (xSize, after) := by
  obtain ⟨first, rest, rowStart⟩ := writeUntil_returns stores rest mt9p031RowStart _
    ((ofInt_fits_iff (yStart.toNat + 54) (by omega)).mpr (by omega)) passes
  obtain ⟨second, rest, height⟩ := writeUntil_returns stores rest mt9p031Height ySize rfl passes
  obtain ⟨third, rest, colStart⟩ := writeUntil_returns stores rest mt9p031ColStart _
    ((ofInt_fits_iff (xStart.toNat + 16) (by omega)).mpr (by omega)) passes
  obtain ⟨fourth, rest, width⟩ := writeUntil_returns stores rest mt9p031Width xSize rfl passes
  refine ⟨fourth, rest, ?_⟩
  simp only [cmosSetAoi, rowStart, height, colStart, width, Option.bind_eq_bind, Option.bind_some]

/-- `cmos_set_Aoi` does not return when a sum does not fit in 16 bits. -/
theorem cmosSetAoi_never (rest : rests bus) (yStart ySize xStart xSize : UInt16)
    (large : ¬ (yStart.toNat + 54 < 65536 ∧ xStart.toNat + 16 < 65536)) (passes : Nat) :
    cmosSetAoi target yStart ySize xStart xSize bus passes = none := by
  by_cases row : yStart.toNat + 54 < 65536
  · obtain ⟨first, rest, rowStart⟩ := writeUntil_returns stores rest mt9p031RowStart _
      ((ofInt_fits_iff (yStart.toNat + 54) (by omega)).mpr (by omega)) passes
    obtain ⟨second, rest, height⟩ := writeUntil_returns stores rest mt9p031Height ySize rfl passes
    have column : ¬ xStart.toNat + 16 < 65536 := fun column => large ⟨row, column⟩
    have colStart := writeUntil_never stores rest mt9p031ColStart
      (mt (ofInt_fits_iff (xStart.toNat + 16) (by omega)).mp (by omega)) passes
    simp only [cmosSetAoi, rowStart, height, colStart, Option.bind_eq_bind, Option.bind_some,
      Option.bind_none]
  · have rowStart := writeUntil_never stores rest mt9p031RowStart
      (mt (ofInt_fits_iff (yStart.toNat + 54) (by omega)).mp (by omega)) passes
    simp only [cmosSetAoi, rowStart, Option.bind_eq_bind, Option.bind_none]

/-- `cmos_set_Aoi` returns exactly when both sums fit in 16 bits. -/
theorem cmosSetAoi_exits_iff (rest : rests bus) (yStart ySize xStart xSize : UInt16) :
    Exits (cmosSetAoi target yStart ySize xStart xSize bus) ↔
      yStart.toNat + 54 < 65536 ∧ xStart.toNat + 16 < 65536 := by
  constructor
  · intro exits
    by_contra large
    exact not_exits_of_never (cmosSetAoi_never stores rest yStart ySize xStart xSize large) exits
  · rintro ⟨row, column⟩
    obtain ⟨after, _, returns⟩ :=
      cmosSetAoi_returns stores rest yStart ySize xStart xSize row column 0
    exact exits_of_returns returns

omit stores in
/-- A start row below 240 wraps around, and a start row of at least 186 then leaves no room for the
offset of 54 rows. -/
theorem windowStart_fits_iff (para : SendPacket) :
    (windowStart para).toNat + 54 < 65536 ↔
      para.aoistartyh.toNat * 256 + para.aoistartyl.toNat < 186 ∨
        240 ≤ para.aoistartyh.toNat * 256 + para.aoistartyl.toNat := by
  have high := para.aoistartyh.toNat_lt
  have low := para.aoistartyl.toNat_lt
  rw [windowStart, UInt16.ofInt, UInt16.toNat_ofNat', Nat.shiftLeft_eq]
  omega

/-- `MT9P031_Init` leaves `cmos_set_Aoi` exactly for these start rows, and its other loops always end. -/
theorem mt9p031InitSettings_exits_iff (rest : rests bus) (para : SendPacket) :
    Exits (mt9p031InitSettings target para bus) ↔
      para.aoistartyh.toNat * 256 + para.aoistartyl.toNat < 186 ∨
        240 ≤ para.aoistartyh.toNat * 256 + para.aoistartyl.toNat := by
  rw [← windowStart_fits_iff para]
  constructor
  · intro exits
    by_contra large
    refine not_exits_of_never (fun passes => ?_) exits
    have aoi := cmosSetAoi_never stores rest (windowStart para) 479 0 2591
      (fun fits => large fits.1) passes
    simp only [mt9p031InitSettings, aoi, Option.bind_eq_bind, Option.bind_none]
  · intro row
    obtain ⟨first, rest, aoi⟩ :=
      cmosSetAoi_returns stores rest (windowStart para) 479 0 2591 row (by decide) 0
    obtain ⟨second, rest, gain⟩ := cmosSetGain_returns stores rest 9 0
    obtain ⟨third, rest, shutter⟩ := cmosSetShutter_returns stores rest (initExposure para) 0
    have returns : mt9p031InitSettings target para bus 0 = some third := by
      simp only [mt9p031InitSettings, aoi, gain, shutter, Option.bind_eq_bind, Option.bind_some]
      rfl
    exact exits_of_returns returns

/-- With a sensor that stores each write and returns it, the loops of `cmos_set_Aoi` end exactly when
the row sum and the column sum fit in 16 bits. From `MT9P031_Init` they end exactly when the AOI start
row is below 186 or at least 240. -/
theorem cmosSetAoi_exits (rest : rests bus) :
    (∀ yStart ySize xStart xSize, Exits (cmosSetAoi target yStart ySize xStart xSize bus) ↔
      yStart.toNat + 54 < 65536 ∧ xStart.toNat + 16 < 65536) ∧
    ∀ para, Exits (cmosSetAoi target (windowStart para) 479 0 2591 bus) ↔
      para.aoistartyh.toNat * 256 + para.aoistartyl.toNat < 186 ∨
        240 ≤ para.aoistartyh.toNat * 256 + para.aoistartyl.toNat := by
  refine ⟨cmosSetAoi_exits_iff stores rest, fun para => ?_⟩
  rw [cmosSetAoi_exits_iff stores rest, windowStart_fits_iff]
  exact and_iff_left (by decide)

end Loops

/-- The bus of a sensor that acknowledges every byte rests. -/
def restingBus : Bus (Slave Mt9p031) :=
  ⟨⟨true, true, true⟩, ⟨⟨fun _ => 0, 0, .nothing, fun _ => true, []⟩, .idle⟩⟩

theorem restingBus_rests : Rests (fun _ => true) restingBus := ⟨rfl, rfl, rfl⟩

/-- The window that the defaults set is programmed. -/
theorem cmosSetAoi_exits_default : Exits (cmosSetAoi (slave mt9p031) 612 479 0 2591 restingBus) :=
  ((cmosSetAoi_exits mt9p031_storesWrites restingBus_rests).1 612 479 0 2591).mpr (by decide)

/-- `MT9P031_Init` does not return from `cmos_set_Aoi` for the start bytes 0 and 200. -/
theorem cmosSetAoi_hangs : ∃ para, para.aoistartyh = 0 ∧ para.aoistartyl = 200 ∧
    ¬ Exits (cmosSetAoi (slave mt9p031) (windowStart para) 479 0 2591 restingBus) := by
  refine ⟨.ofBlock fun index => if index = 24 then 200 else 0, rfl, rfl, ?_⟩
  rw [cmosSetAoi_exits_iff mt9p031_storesWrites restingBus_rests]
  decide

end NnpCamera.Sensor
