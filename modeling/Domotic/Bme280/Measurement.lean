import Domotic.Bme280.Settings

/-!
# What a station measures

The calibration that the driver reads is the one that the sensor holds, and stays it. What a METEO
station publishes comes from the registers of the moment in which it reads them, and leaves the
sensor asleep.
-/
namespace Domotic
open Library.SerialRegisters
namespace Bme280

section calibration
variable {σ : Type} {D : CalibratedDevice σ} {b b' b'' : Bme280 σ}

/-! ## The calibration stays -/

/-- The calibration in the driver and the bytes of it in the sensor are as they were. -/
def Keeps (D : CalibratedDevice σ) (b b' : Bme280 σ) : Prop :=
  b'.calParam = b.calParam ∧ nvm D.toDevice b'.sensor = nvm D.toDevice b.sensor

theorem Keeps.refl (b : Bme280 σ) : Keeps D b b := ⟨rfl, rfl⟩

theorem Keeps.trans (h : Keeps D b b') (h' : Keeps D b' b'') : Keeps D b b'' :=
  ⟨h'.1.trans h.1, h'.2.trans h.2⟩

theorem keeps_pass (b : Bme280 σ) : Keeps D b { b with sensor := D.pass b.sensor } :=
  ⟨rfl, D.nvmPass _⟩

theorem keeps_delayMsek (b : Bme280 σ) (msek : Nat) : Keeps D b (b.delayMsek D.toDevice msek) :=
  ⟨rfl, D.nvmWait _ _⟩

theorem keeps_busWrite {a : UInt8} (high : 0x80 ≤ a) (control : a ∈ rstReg :: controlRegs)
    (v : UInt8) : Keeps D b (b.busWrite D.toDevice a v) := by
  rw [busWrite_eq high]
  exact ⟨rfl, (D.nvmStore _ _ _ control).trans (D.nvmPass _)⟩

theorem keeps_readControl (b : Bme280 σ) : Keeps D b (b.readControl D.toDevice) := by
  rw [readControl_eq]
  exact ⟨rfl, (D.nvmPass _).trans ((D.nvmPass _).trans (D.nvmPass _))⟩

theorem keeps_writeControl (b : Bme280 σ) (c : Control) :
    Keeps D b (b.writeControl D.toDevice c) := by
  have config : Keeps D b (b.busWrite D.toDevice configReg c.config) :=
    keeps_busWrite (by decide) (by decide) _
  have hum := config.trans (keeps_busWrite (a := ctrlHumidityReg) (by decide) (by decide) c.hum)
  exact hum.trans (keeps_busWrite (by decide) (by decide) _)

theorem keeps_apply {c : Control} {write : Bme280 σ → Bme280 σ}
    (quiet : ∀ b, Keeps D b (write b)) : Keeps D b (b.apply D.toDevice c write) := by
  rw [apply, getPowerMode_eq]
  refine Keeps.trans ?_ (keeps_readControl _)
  dsimp only
  split
  · refine Keeps.trans ?_ (keeps_writeControl _ c)
    refine Keeps.trans ?_ (keeps_delayMsek _ _)
    exact (keeps_pass b).trans (keeps_busWrite (by decide) (by decide) _)
  · exact (keeps_pass b).trans (quiet _)

theorem keeps_applyMeas (b : Bme280 σ) (v : UInt8) : Keeps D b (b.applyMeas D.toDevice v) :=
  keeps_apply fun _ => keeps_busWrite (by decide) (by decide) v

theorem keeps_applyConfig (b : Bme280 σ) (v : UInt8) : Keeps D b (b.applyConfig D.toDevice v) :=
  keeps_apply fun _ => keeps_busWrite (by decide) (by decide) v

theorem keeps_applyHum (b : Bme280 σ) (v : UInt8) : Keeps D b (b.applyHum D.toDevice v) :=
  keeps_apply fun _ =>
    (keeps_busWrite (by decide) (by decide) v).trans (keeps_busWrite (by decide) (by decide) _)

theorem Call.keeps (b : Bme280 σ) (call : Call) : Keeps D b (call.run D.toDevice b) := by
  cases call with
  | powerMode v =>
    rw [run, setPowerMode]
    split
    · exact keeps_applyMeas b _
    · exact .refl b
  | oversampTemperature v =>
    have kept := keeps_applyMeas (D := D) b (ctrlMeasRegOversampTemperature.set b.ctrlMeas v)
    exact ⟨kept.1, kept.2⟩
  | oversampPressure v =>
    have kept := keeps_applyMeas (D := D) b (ctrlMeasRegOversampPressure.set b.ctrlMeas v)
    exact ⟨kept.1, kept.2⟩
  | oversampHumidity v =>
    have kept := keeps_applyHum (D := D) b (ctrlHumidityRegOversampHumidity.set b.ctrlHum v)
    exact ⟨kept.1, kept.2⟩
  | standbyDurn v =>
    rw [run, setStandbyDurn]
    exact keeps_applyConfig b _
  | filter v =>
    rw [run, setFilter]
    exact keeps_applyConfig b _

theorem keeps_runCalls (b : Bme280 σ) (calls : List Call) :
    Keeps D b (b.runCalls D.toDevice calls) := by
  induction calls generalizing b with
  | nil => exact .refl b
  | cons call calls ih => exact (call.keeps b).trans (ih _)

/-! ## The calibration is read -/

/-- The bytes of the calibration, as the sensor shows them. -/
def pressureBytes (dev : Device σ) (s : σ) : Vector UInt8 26 :=
  .ofFn fun i => dev.reg s (temperatureCalibDigT1LsbReg + .ofNat i)

def humidityBytes (dev : Device σ) (s : σ) : Vector UInt8 7 :=
  .ofFn fun i => dev.reg s (humidityCalibDigH2LsbReg + .ofNat i)

theorem registers_getD (dev : Device σ) (s : σ) (a : UInt8) {i n : Nat} (lt : i < n) :
    (registers dev s a n).getD i 0 = dev.reg s (a + .ofNat i) := by
  simp [registers, lt]

/-- Whoever shows the same bytes has the same calibration. -/
theorem bytes_congr {dev : Device σ} {s s' : σ} (same : nvm dev s' = nvm dev s) :
    pressureBytes dev s' = pressureBytes dev s ∧ humidityBytes dev s' = humidityBytes dev s := by
  obtain ⟨pressure, humidity⟩ := Prod.mk.inj same
  constructor
  · refine congrArg Vector.ofFn (funext fun i => ?_)
    rw [← registers_getD dev s' _ i.isLt, ← registers_getD dev s _ i.isLt, pressure]
  · refine congrArg Vector.ofFn (funext fun i => ?_)
    rw [← registers_getD dev s' _ i.isLt, ← registers_getD dev s _ i.isLt, humidity]

/-- The driver has the calibration whose bytes the sensor shows. -/
def Calibrated (D : CalibratedDevice σ) (b : Bme280 σ) : Prop :=
  b.calParam = calibParam (pressureBytes D.toDevice b.sensor) (humidityBytes D.toDevice b.sensor)

theorem Calibrated.keeps (h : Calibrated D b) (kept : Keeps D b b') : Calibrated D b' := by
  obtain ⟨pressure, humidity⟩ := bytes_congr kept.2
  rw [Calibrated, kept.1, pressure, humidity]
  exact h

theorem getCalibParam_calibrated (b : Bme280 σ) : Calibrated D (b.getCalibParam D.toDevice) := by
  obtain ⟨pressure, -⟩ := bytes_congr (D.nvmPass (D.pass b.sensor))
  rw [Calibrated, getCalibParam_eq]
  dsimp only
  rw [pressure]
  simp only [pressureBytes, humidityBytes, registers_getD _ _ _ (Fin.isLt _)]

/-- Reading changes no byte of the calibration. -/
theorem init_nvm (b : Bme280 σ) :
    nvm D.toDevice (b.init D.toDevice).sensor = nvm D.toDevice b.sensor := by
  rw [init_sensor, D.nvmPass, D.nvmPass, D.nvmPass]

/-- Nor does `bme280_init_user`. -/
theorem initUser_nvm (b : Bme280 σ) :
    nvm D.toDevice (b.initUser D.toDevice).sensor = nvm D.toDevice b.sensor := by
  rw [initUser_eq]
  have mode := (Call.powerMode normalMode).keeps (D := D) (b.init D.toDevice)
  exact (mode.trans (keeps_runCalls _ _)).2.trans (init_nvm b)

theorem initUser_calibrated (b : Bme280 σ) : Calibrated D (b.initUser D.toDevice) := by
  have read : Calibrated D (b.init D.toDevice) := getCalibParam_calibrated _
  rw [initUser_eq]
  have mode := (Call.powerMode normalMode).keeps (D := D) (b.init D.toDevice)
  exact read.keeps (mode.trans (keeps_runCalls _ _))

/-- After `bme280_init_user` and whatever setters are called behind it, the driver has the one and
only calibration whose bytes the sensor holds. -/
theorem calibration_exact (D : CalibratedDevice σ) (b : Bme280 σ) (calls : List Call)
    (c : Calibration) :
    let b' := (b.initUser D.toDevice).runCalls D.toDevice calls
    c.Stored (pressureBytes D.toDevice b'.sensor) (humidityBytes D.toDevice b'.sensor) ↔
      b'.calParam = c := by
  intro b'
  have calibrated : Calibrated D b' := (initUser_calibrated b).keeps (keeps_runCalls _ calls)
  rw [calibrated]
  constructor
  · exact fun stored => (calibParam_stored _ _).unique stored
  · rintro rfl
    exact calibParam_stored _ _

end calibration

/-- Plain registers that hold these bytes. -/
def holding (a : Vector UInt8 26) (h : Vector UInt8 7) : Plain :=
  (0, fun r =>
    if r < humidityCalibDigH2LsbReg then
      a.toList.getD (r - temperatureCalibDigT1LsbReg).toNat 0
    else h.toList.getD (r - humidityCalibDigH2LsbReg).toNat 0)

theorem holding_bytes (a : Vector UInt8 26) (h : Vector UInt8 7) (startup : Nat) :
    pressureBytes (plainDevice startup) (holding a h) = a ∧
      humidityBytes (plainDevice startup) (holding a h) = h := by
  have low : ∀ i < 26, temperatureCalibDigT1LsbReg + .ofNat i < humidityCalibDigH2LsbReg ∧
      (temperatureCalibDigT1LsbReg + .ofNat i - temperatureCalibDigT1LsbReg).toNat = i := by decide
  have high : ∀ i < 7, ¬ humidityCalibDigH2LsbReg + .ofNat i < humidityCalibDigH2LsbReg ∧
      (humidityCalibDigH2LsbReg + .ofNat i - humidityCalibDigH2LsbReg).toNat = i := by decide
  constructor
  · refine Vector.ext fun i lt => ?_
    obtain ⟨before, index⟩ := low i lt
    rw [pressureBytes, Vector.getElem_ofFn]
    refine (if_pos before).trans ?_
    rw [index, List.getD_eq_getElem?_getD, List.getElem?_eq_getElem (by simpa using lt),
      Option.getD_some, Vector.getElem_toList]
  · refine Vector.ext fun i lt => ?_
    obtain ⟨behind, index⟩ := high i lt
    rw [humidityBytes, Vector.getElem_ofFn]
    refine (if_neg behind).trans ?_
    rw [index, List.getD_eq_getElem?_getD, List.getElem?_eq_getElem (by simpa using lt),
      Option.getD_some, Vector.getElem_toList]

/-- Parameters of both signs. -/
def someCalibration : Calibration :=
  ⟨27504, 26435, -1000, 36477, -10685, 3024, 2855, 140, -7, 15500, -14600, 6000, 75, 362, 0, 313,
    50, 30⟩

/-- The driver reads this calibration from plain registers that hold it. -/
theorem calibration_exact_plain : ∃ s : Plain,
    ({ measuring with sensor := s }.initUser (plainDevice 9)).calParam = someCalibration := by
  have twelve : someCalibration.Twelve := by decide
  obtain ⟨a, h, stored⟩ := twelve.stored
  obtain ⟨pressure, humidity⟩ := holding_bytes a h 9
  obtain ⟨pressure', humidity'⟩ := bytes_congr (initUser_nvm
    (D := (plainSensor 9).toCalibratedDevice) { measuring with sensor := holding a h })
  refine ⟨holding a h, (calibration_exact (plainSensor 9).toCalibratedDevice
    { measuring with sensor := holding a h } [] someCalibration).mp ?_⟩
  rw [runCalls, List.foldl_nil, pressure', humidity']
  exact pressure.symm ▸ humidity.symm ▸ stored

/-! ## One measurement -/

/-- What the sensor measured, in its registers: 20 bits, 20 bits and 16 bits, the highest byte
first. -/
def rawOf (dev : Device σ) (s : σ) : Raw where
  pressure :=
    4096 * (dev.reg s 0xF7).toNat + 16 * (dev.reg s 0xF8).toNat + (dev.reg s 0xF9).toNat / 16
  temperature :=
    4096 * (dev.reg s 0xFA).toNat + 16 * (dev.reg s 0xFB).toNat + (dev.reg s 0xFC).toNat / 16
  humidity := 256 * (dev.reg s 0xFD).toNat + (dev.reg s 0xFE).toNat

theorem twenty_bits (x y z : UInt8) :
    x.toNat <<< 12 ||| y.toNat <<< 4 ||| z.toNat >>> 4 =
      4096 * x.toNat + 16 * y.toNat + z.toNat / 16 := by
  have hy := y.toNat_lt
  have hz := z.toNat_lt
  have middle : y.toNat <<< 4 < 2 ^ 12 := by
    rw [Nat.shiftLeft_eq]
    omega
  have last : z.toNat >>> 4 < 2 ^ 4 := by
    rw [Nat.shiftRight_eq_div_pow]
    omega
  have shifted : x.toNat <<< 12 + y.toNat <<< 4 = (x.toNat <<< 8 + y.toNat) <<< 4 := by
    simp only [Nat.shiftLeft_eq]
    omega
  rw [← Nat.shiftLeft_add_eq_or_of_lt middle, shifted, ← Nat.shiftLeft_add_eq_or_of_lt last]
  simp only [Nat.shiftLeft_eq, Nat.shiftRight_eq_div_pow]
  omega

theorem sixteen_bits (x y : UInt8) : x.toNat <<< 8 ||| y.toNat = 256 * x.toNat + y.toNat := by
  rw [← Nat.shiftLeft_add_eq_or_of_lt y.toNat_lt, Nat.shiftLeft_eq]
  omega

theorem readUncomp_eq (dev : Device σ) (b : Bme280 σ) :
    b.readUncomp dev =
      ({ b with sensor := dev.pass b.sensor }, rawOf dev (dev.pass b.sensor)) := by
  rw [readUncomp, busRead_eq (by decide)]
  simp (disch := decide) only [twenty_bits, sixteen_bits, rawOf, registers_getD]
  rfl

theorem readPressureTemperatureHumidity_eq (dev : Device σ) (b : Bme280 σ) :
    b.readPressureTemperatureHumidity dev =
      let raw := rawOf dev (dev.pass b.sensor)
      let t := compensateTemperatureInt32 b.calParam raw.temperature
      ({ b with sensor := dev.pass b.sensor, tFine := t.1 },
        ⟨compensatePressureInt32 b.calParam t.1 raw.pressure, t.2,
          compensateHumidityInt32 b.calParam t.1 raw.humidity⟩) := by
  rw [readPressureTemperatureHumidity, readUncomp_eq]

/-! ## The end of it -/

section sensor
variable {startup : Nat} {σ : Type} {S : Sensor startup σ} {b : Bme280 σ}

/-- Whether a write is taken or lost, it does not wake the sensor, unless it is one to do so. -/
theorem busWrite_sleeps {a v : UInt8} (control : a ∈ controlRegs)
    (sleeps : (shown S.toDevice b.sensor).mode = sleepMode)
    (quiet : ((shown S.toDevice b.sensor).write a v).mode = sleepMode) :
    (shown S.toDevice (b.busWrite S.toDevice a v).sensor).mode = sleepMode := by
  rw [busWrite_eq (high_of_control control)]
  have same := shown_pass sleeps
  rcases S.storedOrLost (S.pass b.sensor) a v control (by rwa [same]) with taken | lost
  · rw [taken, same]
    exact quiet
  · rw [lost, same]
    exact sleeps

theorem writeControl_sleeps {c : Control} (sleeps : (shown S.toDevice b.sensor).mode = sleepMode)
    (quiet : c.mode = sleepMode) :
    (shown S.toDevice (b.writeControl S.toDevice c).sensor).mode = sleepMode := by
  have config := busWrite_sleeps (a := configReg) (v := c.config) (by decide) sleeps sleeps
  have hum := busWrite_sleeps (a := ctrlHumidityReg) (v := c.hum) (by decide) config config
  exact busWrite_sleeps (by decide) hum quiet

/-- A sensor that is asleep stays as it is. -/
theorem shown_iterate {s : σ} (sleeps : (shown S.toDevice s).mode = sleepMode) (n : Nat) :
    shown S.toDevice (S.pass^[n] s) = shown S.toDevice s := by
  induction n with
  | zero => rfl
  | succ n ih => rw [Function.iterate_succ_apply', shown_pass (by rwa [ih]), ih]

/-- The mode is set however long the sensor takes to start. -/
theorem setPowerMode_sleeps (S : Sensor startup σ) (b : Bme280 σ) :
    (shown S.toDevice (b.setPowerMode S.toDevice sleepMode).sensor).mode = sleepMode := by
  have quiet : (⟨b.ctrlHum, ctrlMeasRegPowerMode.set b.ctrlMeas sleepMode, b.config⟩ :
      Control).mode = sleepMode := by
    rw [Control.mode, Field.get_set, clip_mode _ (by decide)]
  rw [setPowerMode, if_pos (by decide), applyMeas, apply, getPowerMode_eq, readControl_eq]
  dsimp only
  have written : ∀ b' : Bme280 σ, (shown S.toDevice b'.sensor).mode = sleepMode →
      (shown S.toDevice (S.pass (S.pass (S.pass b'.sensor)))).mode = sleepMode := by
    intro b' sleeps
    rw [← shown_iterate sleeps 3] at sleeps
    exact sleeps
  apply written
  split
  case isTrue =>
    have zero := reset_shown S { b with sensor := S.pass b.sensor } bme2803msDelay
    exact writeControl_sleeps (by rw [zero]; decide) quiet
  case isFalse still => exact busWrite_sleeps (by decide) (not_not.mp still) quiet

/-- From any state of the sensor and of the driver: what `timer_mesure_handler` publishes behind
`bme280_init_user` is compensated, with the calibration of the sensor, from the registers that the
sensor shows in the frame that reads them; the humidity is at most 100 percent, and the sensor is
left asleep for good. If it starts quickly enough, it has the settings that `bme280_init_user`
made. -/
theorem wake_measured (S : Sensor startup σ) (b : Bme280 σ) :
    let b₀ := b.initUser S.toDevice
    let s := S.pass b₀.sensor
    let r := b₀.timerMesureHandler S.toDevice
    (∃ c, c.Stored (pressureBytes S.toDevice s) (humidityBytes S.toDevice s) ∧
      let raw := rawOf S.toDevice s
      let t := compensateTemperatureInt32 c raw.temperature
      r.2 = ⟨compensatePressureInt32 c t.1 raw.pressure, t.2,
        compensateHumidityInt32 c t.1 raw.humidity / 10⟩) ∧
    (0 ≤ r.2.humidity ∧ r.2.humidity ≤ 10240) ∧
    (∀ n, (shown S.toDevice (S.pass^[n] r.1.sensor)).mode = sleepMode) ∧
    (startup ≤ 9 → ¬ S.Starting b.sensor → ∃ filter, ∀ n, ∀ x : Setting,
      x.get (shown S.toDevice (S.pass^[n] r.1.sensor)) = userSettings filter x) := by
  intro b₀ s r
  have calibrated := (initUser_calibrated b).keeps (keeps_pass (D := S.toCalibratedDevice) b₀)
  have bounds := compensateHumidity_bounds b₀.calParam
    (compensateTemperatureInt32 b₀.calParam (rawOf S.toDevice s).temperature).1
    (rawOf S.toDevice s).humidity
  have published : r = ((b₀.readPressureTemperatureHumidity S.toDevice).1.setPowerMode S.toDevice
      sleepMode, _) := rfl
  rw [readPressureTemperatureHumidity_eq] at published
  dsimp only at published
  rw [Int.tdiv_eq_ediv_of_nonneg bounds.1] at published
  have sleeps : (shown S.toDevice r.1.sensor).mode = sleepMode := by
    rw [published]
    exact setPowerMode_sleeps S _
  refine ⟨⟨b₀.calParam, ?_, by rw [published]⟩, ?_, ?_, ?_⟩
  · rw [show b₀.calParam = _ from calibrated]
    exact calibParam_stored _ _
  · rw [published]
    dsimp only
    omega
  · intro n
    rw [shown_iterate sleeps]
    exact sleeps
  · intro quick started
    obtain ⟨filter, asked⟩ := initUser_asked quick started
    -- reading changes nothing that the setters look at
    have before : Asked S { b₀ with
        sensor := s
        tFine := (compensateTemperatureInt32 b₀.calParam
          (rawOf S.toDevice s).temperature).1 } (userSettings filter) forcedMode :=
      ⟨asked.settings, asked.mode, asked.inStep.follows.trans (S.follows _),
        S.startedPass _ asked.inStep.started⟩
    obtain ⟨settings, -⟩ := (Call.run_asked quick before (.powerMode sleepMode)).shown
    refine ⟨filter, ?_⟩
    intro n
    rw [shown_iterate sleeps, published]
    exact settings

/-- Plain registers that start in nine microseconds, while they measure all the time. -/
theorem wake_measured_plain :
    let r := (measuring.initUser (plainDevice 9)).timerMesureHandler (plainDevice 9)
    r.2.humidity ≤ 10240 ∧ (shown (plainDevice 9) r.1.sensor).mode = sleepMode ∧
      Setting.temperature.get (shown (plainDevice 9) r.1.sensor) = oversamp1x := by
  intro r
  have started : ¬ (plainSensor 9).Starting measuring.sensor := fun starting => starting rfl
  have measured := wake_measured (plainSensor 9) measuring
  rw [show (plainSensor 9).toDevice = plainDevice 9 from rfl] at measured
  obtain ⟨-, bounds, sleeps, settings⟩ := measured
  obtain ⟨filter, settings⟩ := settings le_rfl started
  exact ⟨bounds.2, sleeps 0, settings 0 .temperature⟩

end sensor
end Bme280
end Domotic
