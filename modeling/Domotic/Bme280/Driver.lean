import Domotic.Bme280.Compensation
import Domotic.Library.SerialRegisters

/-!
# The driver of the BME280

The functions of bme280.c that the METEO stations use, over an arbitrary device behind the serial
bus. The driver keeps copies of the three control registers: every setter changes some bits of a
copy, writes it to the sensor, and reads the three registers back. A sensor that is not asleep is
reset first, and all three registers are written after a delay.
-/
namespace Domotic
open Library.SerialRegisters

def chipIdReg : UInt8 := 0xD0
def rstReg : UInt8 := 0xE0
def ctrlHumidityReg : UInt8 := 0xF2
def ctrlMeasReg : UInt8 := 0xF4
def configReg : UInt8 := 0xF5
def pressureMsbReg : UInt8 := 0xF7
def temperatureCalibDigT1LsbReg : UInt8 := 0x88
def humidityCalibDigH2LsbReg : UInt8 := 0xE1

def softResetCode : UInt8 := 0xB6

/-- `BME280_3MS_DELAY` -/
def bme2803msDelay : Nat := 3

def sleepMode : UInt8 := 0x00
def forcedMode : UInt8 := 0x01
def normalMode : UInt8 := 0x03
def oversamp1x : UInt8 := 0x01
def standbyTime1Ms : UInt8 := 0x00

def ctrlMeasRegOversampTemperature : Field := ⟨0xE0, 5⟩
def ctrlMeasRegOversampPressure : Field := ⟨0x1C, 2⟩
def ctrlMeasRegPowerMode : Field := ⟨0x03, 0⟩
def ctrlHumidityRegOversampHumidity : Field := ⟨0x07, 0⟩
def configRegTsb : Field := ⟨0xE0, 5⟩
def configRegFilter : Field := ⟨0x1C, 2⟩

/-- `struct bme280_t`, with the sensor on its bus. -/
structure Bme280 (σ : Type) where
  sensor : σ
  chipId : UInt8
  ctrlMeas : UInt8
  ctrlHum : UInt8
  config : UInt8
  oversampTemperature : UInt8
  oversampPressure : UInt8
  oversampHumidity : UInt8
  calParam : Calibration
  tFine : Int

namespace Bme280
variable {σ : Type} (dev : Device σ) (b : Bme280 σ)

/-! ## The bus -/

/-- `BME280_SPI_bus_read` -/
def busRead (reg : UInt8) (cnt : Nat) : Bme280 σ × List UInt8 :=
  let r := transfer dev b.sensor ((reg ||| 0x80) :: List.replicate cnt 0)
  ({ b with sensor := r.1 }, r.2.drop 1)

/-- `BME280_SPI_bus_write`, of one byte. -/
def busWrite (reg v : UInt8) : Bme280 σ :=
  { b with sensor := (transfer dev b.sensor [reg &&& 0x7F, v]).1 }

/-- `bme280_read_register`, of one byte. -/
def readRegister (reg : UInt8) : Bme280 σ × UInt8 :=
  let r := b.busRead dev reg 1
  (r.1, r.2.headD 0)

/-- `bme280_set_soft_rst` -/
def setSoftRst : Bme280 σ := b.busWrite dev rstReg softResetCode

/-- `BME280_delay_msek`: `os_delay_us` waits for three microseconds where a millisecond was asked
for. -/
def delayMsek (msek : Nat) : Bme280 σ := { b with sensor := dev.wait (msek * 3) b.sensor }

/-- `bme280_get_power_mode` -/
def getPowerMode : Bme280 σ × UInt8 :=
  let r := b.readRegister dev ctrlMeasReg
  (r.1, ctrlMeasRegPowerMode.get r.2)

/-! ## The setters -/

/-- The bytes for the three control registers. -/
structure Control where
  hum : UInt8
  meas : UInt8
  config : UInt8
  deriving DecidableEq

/-- The copies in the driver. -/
def control : Control := ⟨b.ctrlHum, b.ctrlMeas, b.config⟩

/-- The copies are read back. -/
def readControl : Bme280 σ :=
  let r := b.readRegister dev ctrlMeasReg
  let b := { r.1 with ctrlMeas := r.2 }
  let r := b.readRegister dev ctrlHumidityReg
  let b := { r.1 with ctrlHum := r.2 }
  let r := b.readRegister dev configReg
  { r.1 with config := r.2 }

/-- All three registers. -/
def writeControl (c : Control) : Bme280 σ :=
  ((b.busWrite dev configReg c.config).busWrite dev ctrlHumidityReg c.hum).busWrite dev ctrlMeasReg
    c.meas

/-- The setters do this, with the new bytes `c`; `asleep` is what they write to a sensor that is
asleep. -/
def apply (c : Control) (asleep : Bme280 σ → Bme280 σ) : Bme280 σ :=
  let r := b.getPowerMode dev
  let b :=
    if r.2 ≠ sleepMode then
      ((r.1.setSoftRst dev).delayMsek dev bme2803msDelay).writeControl dev c
    else asleep r.1
  b.readControl dev

/-- A setter that changes the register `ctrl_meas`. -/
def applyMeas (v : UInt8) : Bme280 σ :=
  b.apply dev ⟨b.ctrlHum, v, b.config⟩ fun b => b.busWrite dev ctrlMeasReg v

/-- A setter that changes the register `config`. -/
def applyConfig (v : UInt8) : Bme280 σ :=
  b.apply dev ⟨b.ctrlHum, b.ctrlMeas, v⟩ fun b => b.busWrite dev configReg v

/-- A setter that changes the register `ctrl_hum`. -/
def applyHum (v : UInt8) : Bme280 σ :=
  b.apply dev ⟨v, b.ctrlMeas, b.config⟩ fun b' =>
    (b'.busWrite dev ctrlHumidityReg v).busWrite dev ctrlMeasReg b.ctrlMeas

/-- `bme280_set_power_mode`; a mode out of range is refused. -/
def setPowerMode (v : UInt8) : Bme280 σ :=
  if v ≤ normalMode then b.applyMeas dev (ctrlMeasRegPowerMode.set b.ctrlMeas v) else b

/-- `bme280_set_oversamp_temperature` -/
def setOversampTemperature (v : UInt8) : Bme280 σ :=
  { b.applyMeas dev (ctrlMeasRegOversampTemperature.set b.ctrlMeas v) with
    oversampTemperature := v }

/-- `bme280_set_oversamp_pressure` -/
def setOversampPressure (v : UInt8) : Bme280 σ :=
  { b.applyMeas dev (ctrlMeasRegOversampPressure.set b.ctrlMeas v) with oversampPressure := v }

/-- `bme280_set_oversamp_humidity`: what is written to `ctrl_hum` becomes effective with the next
write to `ctrl_meas`, which therefore follows. -/
def setOversampHumidity (v : UInt8) : Bme280 σ :=
  { b.applyHum dev (ctrlHumidityRegOversampHumidity.set b.ctrlHum v) with oversampHumidity := v }

/-- `bme280_set_standby_durn` -/
def setStandbyDurn (v : UInt8) : Bme280 σ := b.applyConfig dev (configRegTsb.set b.config v)

/-- `bme280_set_filter` -/
def setFilter (v : UInt8) : Bme280 σ := b.applyConfig dev (configRegFilter.set b.config v)

section setters
variable {dev b} (v : UInt8)

@[simp] theorem setOversampTemperature_sensor : (b.setOversampTemperature dev v).sensor =
    (b.applyMeas dev (ctrlMeasRegOversampTemperature.set b.ctrlMeas v)).sensor := rfl

@[simp] theorem setOversampPressure_sensor : (b.setOversampPressure dev v).sensor =
    (b.applyMeas dev (ctrlMeasRegOversampPressure.set b.ctrlMeas v)).sensor := rfl

@[simp] theorem setOversampHumidity_sensor : (b.setOversampHumidity dev v).sensor =
    (b.applyHum dev (ctrlHumidityRegOversampHumidity.set b.ctrlHum v)).sensor := rfl

end setters

/-! ## Initialisation and measurement -/

/-- `bme280_get_calib_param` -/
def getCalibParam : Bme280 σ :=
  let r := b.busRead dev temperatureCalibDigT1LsbReg 26
  let s := r.1.busRead dev humidityCalibDigH2LsbReg 7
  { s.1 with calParam := calibParam (.ofFn fun i => r.2.getD i 0) (.ofFn fun i => s.2.getD i 0) }

/-- `bme280_init` -/
def init : Bme280 σ :=
  let r := b.readRegister dev chipIdReg
  { r.1 with chipId := r.2 }.getCalibParam dev

/-- `bme280_init_user` -/
def initUser : Bme280 σ :=
  let b := b.init dev
  let b := b.setPowerMode dev normalMode
  let b := b.setOversampHumidity dev oversamp1x
  let b := b.setOversampPressure dev oversamp1x
  let b := b.setOversampTemperature dev oversamp1x
  let b := b.setStandbyDurn dev standbyTime1Ms
  b.setPowerMode dev forcedMode

/-- What the sensor measured, before the compensation. -/
structure Raw where
  pressure : Nat
  temperature : Nat
  humidity : Nat
  deriving DecidableEq

/-- `bme280_read_uncomp_pressure_temperature_humidity` -/
def readUncomp : Bme280 σ × Raw :=
  let r := b.busRead dev pressureMsbReg 8
  let a (i : Nat) : Nat := (r.2.getD i 0).toNat
  (r.1, ⟨a 0 <<< 12 ||| a 1 <<< 4 ||| a 2 >>> 4, a 3 <<< 12 ||| a 4 <<< 4 ||| a 5 >>> 4,
    a 6 <<< 8 ||| a 7⟩)

/-- The measured values: pascals, hundredths of a degree, percents times 1024. -/
structure Measure where
  pressure : Nat
  temperature : Int
  humidity : Int
  deriving DecidableEq

/-- `bme280_read_pressure_temperature_humidity`: the temperature first, for `t_fine`. -/
def readPressureTemperatureHumidity : Bme280 σ × Measure :=
  let r := b.readUncomp dev
  let t := compensateTemperatureInt32 r.1.calParam r.2.temperature
  ({ r.1 with tFine := t.1 },
    { pressure := compensatePressureInt32 r.1.calParam t.1 r.2.pressure
      temperature := t.2
      humidity := compensateHumidityInt32 r.1.calParam t.1 r.2.humidity })

/-- `timer_mesure_handler`: the values that it publishes, and the sensor is put to sleep. -/
def timerMesureHandler : Bme280 σ × Measure :=
  let r := b.readPressureTemperatureHumidity dev
  (r.1.setPowerMode dev sleepMode, { r.2 with humidity := Int.tdiv r.2.humidity 10 })

/-! ## The operations in terms of the registers -/

variable {dev b}

theorem busRead_eq {reg : UInt8} (high : 0x80 ≤ reg) (cnt : Nat) :
    b.busRead dev reg cnt =
      ({ b with sensor := dev.pass b.sensor }, registers dev (dev.pass b.sensor) reg cnt) := by
  rw [busRead, transfer_read, (or_of_high high).1]
  simp

theorem busWrite_eq {reg : UInt8} (high : 0x80 ≤ reg) (v : UInt8) :
    b.busWrite dev reg v = { b with sensor := dev.store (dev.pass b.sensor) reg v } := by
  rw [busWrite, transfer_write, (or_of_high high).2]

theorem readRegister_eq {reg : UInt8} (high : 0x80 ≤ reg) :
    b.readRegister dev reg =
      ({ b with sensor := dev.pass b.sensor }, dev.reg (dev.pass b.sensor) reg) := by
  rw [readRegister, busRead_eq high, registers_succ]
  rfl

theorem readControl_eq :
    b.readControl dev =
      { b with
        sensor := dev.pass (dev.pass (dev.pass b.sensor))
        ctrlMeas := dev.reg (dev.pass b.sensor) ctrlMeasReg
        ctrlHum := dev.reg (dev.pass (dev.pass b.sensor)) ctrlHumidityReg
        config := dev.reg (dev.pass (dev.pass (dev.pass b.sensor))) configReg } := by
  simp only [readControl, readRegister_eq (show (0x80 : UInt8) ≤ ctrlMeasReg by decide),
    readRegister_eq (show (0x80 : UInt8) ≤ ctrlHumidityReg by decide),
    readRegister_eq (show (0x80 : UInt8) ≤ configReg by decide)]

theorem getCalibParam_eq :
    b.getCalibParam dev =
      let first := registers dev (dev.pass b.sensor) temperatureCalibDigT1LsbReg 26
      let second := registers dev (dev.pass (dev.pass b.sensor)) humidityCalibDigH2LsbReg 7
      { b with
        sensor := dev.pass (dev.pass b.sensor)
        calParam :=
          calibParam (.ofFn fun i => first.getD i 0) (.ofFn fun i => second.getD i 0) } := by
  simp only [getCalibParam,
    busRead_eq (show (0x80 : UInt8) ≤ temperatureCalibDigT1LsbReg by decide),
    busRead_eq (show (0x80 : UInt8) ≤ humidityCalibDigH2LsbReg by decide)]

/-- `bme280_init` is three frames that only read. -/
theorem init_sensor : (b.init dev).sensor = dev.pass (dev.pass (dev.pass b.sensor)) := by
  rw [init, getCalibParam_eq, readRegister_eq (by decide)]

end Bme280
end Domotic
