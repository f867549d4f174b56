import Domotic.Bme280.Driver

/-!
# The settings of the sensor

A `Sensor` is any device whose control registers behave as the driver relies on: a reset clears
them, a sensor that is asleep takes what is written to them once it has started, and a measurement
that was forced ends with the sensor asleep, at any moment. What a write does to a sensor that is
awake is left open, and a write to one that still starts may be lost.

The settings in the sensor are those that the calls of the setters asked for, for every such
sensor and from any state of it and of the driver, if and only if the sensor starts within the nine
microseconds that the driver waits behind a reset.
-/
namespace Domotic
open Library.SerialRegisters
namespace Bme280

/-! ## The control registers of a sensor -/

namespace Control

/-- The bits that are read. -/
def used (c : Control) : Control := ⟨c.hum &&& 0x07, c.meas, c.config &&& 0xFC⟩

def mode (c : Control) : UInt8 := ctrlMeasRegPowerMode.get c.meas

def asleep (c : Control) : Control := { c with meas := ctrlMeasRegPowerMode.set c.meas sleepMode }

/-- One measurement was asked for. -/
def Forced (m : UInt8) : Prop := m ≠ sleepMode ∧ m ≠ normalMode

instance (m : UInt8) : Decidable (Forced m) := inferInstanceAs (Decidable (_ ∧ _))

/-- By itself a sensor changes its control registers only at the end of a forced measurement. -/
def Follows (c c' : Control) : Prop := c' = c ∨ Forced c.mode ∧ c' = c.asleep

/-- The modes of such registers. -/
def Falls (m m' : UInt8) : Prop := m' = m ∨ Forced m ∧ m' = sleepMode

variable {c c' c'' : Control} {m m' m'' : UInt8}

/-- A byte is written to a control register. -/
def write (c : Control) (a v : UInt8) : Control :=
  if a = ctrlHumidityReg then { c with hum := v &&& 0x07 }
  else if a = ctrlMeasReg then { c with meas := v }
  else if a = configReg then { c with config := v &&& 0xFC }
  else c

theorem write_hum (c : Control) (v : UInt8) :
    c.write ctrlHumidityReg v = { c with hum := v &&& 0x07 } := rfl

theorem write_meas (c : Control) (v : UInt8) :
    c.write ctrlMeasReg v = { c with meas := v } := rfl

theorem write_config (c : Control) (v : UInt8) :
    c.write configReg v = { c with config := v &&& 0xFC } := rfl

@[simp] theorem asleep_mode (c : Control) : c.asleep.mode = sleepMode := by
  rw [mode, asleep, Field.get_set]
  decide

theorem not_forced_sleep : ¬ Forced sleepMode := fun h => h.1 rfl

theorem Falls.trans (h : Falls m m') (h' : Falls m' m'') : Falls m m'' := by
  rcases h with rfl | ⟨forced, rfl⟩
  · exact h'
  · rcases h' with rfl | ⟨again, -⟩
    · exact .inr ⟨forced, rfl⟩
    · exact absurd again not_forced_sleep

namespace Follows

theorem trans (h : c.Follows c') (h' : c'.Follows c'') : c.Follows c'' := by
  rcases h with rfl | ⟨forced, rfl⟩
  · exact h'
  · rcases h' with rfl | ⟨again, -⟩
    · exact .inr ⟨forced, rfl⟩
    · rw [asleep_mode] at again
      exact absurd again not_forced_sleep

/-- Registers that ask for nothing stay. -/
theorem eq_of_asleep (h : c.Follows c') (sleeps : c.mode = sleepMode) : c' = c := by
  rcases h with same | ⟨forced, -⟩
  · exact same
  · rw [sleeps] at forced
    exact absurd forced not_forced_sleep

theorem mode_falls (h : c.Follows c') : Falls c.mode c'.mode := by
  rcases h with rfl | ⟨forced, rfl⟩
  · exact .inl rfl
  · exact .inr ⟨forced, asleep_mode c⟩

theorem hum (h : c.Follows c') : c'.hum = c.hum := by
  rcases h with rfl | ⟨-, rfl⟩ <;> rfl

theorem config (h : c.Follows c') : c'.config = c.config := by
  rcases h with rfl | ⟨-, rfl⟩ <;> rfl

end Follows
end Control

/-- The control registers, as the sensor shows them. -/
def shown {σ : Type} (dev : Device σ) (s : σ) : Control :=
  Control.used ⟨dev.reg s ctrlHumidityReg, dev.reg s ctrlMeasReg, dev.reg s configReg⟩

/-- The registers of the calibration. -/
def nvm {σ : Type} (dev : Device σ) (s : σ) : List UInt8 × List UInt8 :=
  (registers dev s temperatureCalibDigT1LsbReg 26, registers dev s humidityCalibDigH2LsbReg 7)

/-- The registers that the setters write. -/
def controlRegs : List UInt8 := [ctrlHumidityReg, ctrlMeasReg, configReg]

theorem high_of_control {a : UInt8} (control : a ∈ controlRegs) : 0x80 ≤ a := by
  simp only [controlRegs, List.mem_cons, List.not_mem_nil, or_false] at control
  rcases control with rfl | rfl | rfl <;> decide

/-- A device that keeps its calibration. -/
structure CalibratedDevice (σ : Type) extends Device σ where
  nvmPass : ∀ s, nvm toDevice (pass s) = nvm toDevice s
  nvmWait : ∀ n s, nvm toDevice (wait n s) = nvm toDevice s
  nvmStore : ∀ s a v, a ∈ rstReg :: controlRegs → nvm toDevice (store s a v) = nvm toDevice s

/-- A device with the behaviour of the BME280 that the driver relies on. Behind a reset it starts
for `startup` microseconds; what is written meanwhile is taken or lost. -/
structure Sensor (startup : Nat) (σ : Type) extends CalibratedDevice σ where
  Starting : σ → Prop
  follows : ∀ s, (shown toDevice s).Follows (shown toDevice (pass s))
  followsWait : ∀ n s, (shown toDevice s).Follows (shown toDevice (wait n s))
  reset : ∀ s, shown toDevice (store s rstReg softResetCode) = ⟨0, 0, 0⟩
  started : ∀ n s, startup ≤ n → ¬ Starting (wait n (store s rstReg softResetCode))
  startedPass : ∀ s, ¬ Starting s → ¬ Starting (pass s)
  startedStore : ∀ s a v, a ∈ controlRegs → ¬ Starting s → ¬ Starting (store s a v)
  stored : ∀ s a v, a ∈ controlRegs → (shown toDevice s).mode = sleepMode → ¬ Starting s →
    shown toDevice (store s a v) = (shown toDevice s).write a v
  storedOrLost : ∀ s a v, a ∈ controlRegs → (shown toDevice s).mode = sleepMode →
    shown toDevice (store s a v) = (shown toDevice s).write a v ∨
      shown toDevice (store s a v) = shown toDevice s

/-! ## Plain registers -/

/-- What is left of the start, and the registers. -/
abbrev Plain := Nat × (UInt8 → UInt8)

/-- Plain registers, which cannot be written while the sensor starts. A measurement is over at
once. -/
def plainDevice (startup : Nat) : Device Plain where
  reg s := s.2
  store s a v :=
    if a = rstReg then (startup, fun r => if r ∈ controlRegs then 0 else s.2 r)
    else if s.1 = 0 then (0, Function.update s.2 a v)
    else s
  pass s :=
    (s.1, fun r =>
      if r = ctrlMeasReg ∧ Control.Forced (ctrlMeasRegPowerMode.get (s.2 r)) then
        ctrlMeasRegPowerMode.set (s.2 r) sleepMode
      else s.2 r)
  wait n s := (s.1 - n, s.2)
  idle _ := 0xFF

section plain
variable {startup : Nat}

theorem plainDevice_nvm {s s' : Plain} (same : ∀ r ∉ rstReg :: controlRegs, s'.2 r = s.2 r) :
    nvm (plainDevice startup) s' = nvm (plainDevice startup) s := by
  refine Prod.ext (List.map_congr_left fun i lt => same _ ?_)
    (List.map_congr_left fun i lt => same _ ?_) <;>
  · revert i
    decide

theorem plainDevice_follows (s : Plain) :
    (shown (plainDevice startup) s).Follows
      (shown (plainDevice startup) ((plainDevice startup).pass s)) := by
  have same : shown (plainDevice startup) ((plainDevice startup).pass s) = Control.used
      ⟨s.2 ctrlHumidityReg, ((plainDevice startup).pass s).2 ctrlMeasReg, s.2 configReg⟩ := rfl
  have meas : ((plainDevice startup).pass s).2 ctrlMeasReg =
      if Control.Forced (ctrlMeasRegPowerMode.get (s.2 ctrlMeasReg)) then
        ctrlMeasRegPowerMode.set (s.2 ctrlMeasReg) sleepMode
      else s.2 ctrlMeasReg := by simp [plainDevice]
  rw [same, meas]
  split
  case isTrue forced => exact .inr ⟨forced, rfl⟩
  case isFalse => exact .inl rfl

theorem plainDevice_store {s : Plain} {a : UInt8} (control : a ∈ controlRegs) (v : UInt8) :
    (plainDevice startup).store s a v = if s.1 = 0 then (0, Function.update s.2 a v) else s := by
  have apart : a ≠ rstReg := by
    rintro rfl
    revert control
    decide
  exact if_neg apart

theorem plainDevice_stored {s : Plain} {a : UInt8} (control : a ∈ controlRegs) (v : UInt8)
    (started : s.1 = 0) :
    shown (plainDevice startup) ((plainDevice startup).store s a v) =
      (shown (plainDevice startup) s).write a v := by
  rw [plainDevice_store control, if_pos started]
  simp only [controlRegs, List.mem_cons, List.not_mem_nil, or_false] at control
  rcases control with rfl | rfl | rfl <;> rfl

/-- Plain registers are such a sensor. -/
def plainSensor (startup : Nat) : Sensor startup Plain where
  toDevice := plainDevice startup
  Starting s := s.1 ≠ 0
  nvmPass s := plainDevice_nvm fun r other => if_neg fun h => by simp [h.1, controlRegs] at other
  nvmWait n s := rfl
  nvmStore s a v control := by
    rcases List.mem_cons.mp control with rfl | control
    · exact plainDevice_nvm fun r other => if_neg (List.not_mem_of_not_mem_cons other)
    · rw [plainDevice_store control]
      split
      case isTrue =>
        refine plainDevice_nvm fun r other => Function.update_of_ne ?_ v s.2
        rintro rfl
        exact List.not_mem_of_not_mem_cons other control
      case isFalse => rfl
  follows := plainDevice_follows
  followsWait n s := .inl rfl
  reset s := by simp [shown, plainDevice, controlRegs, Control.used]
  started n s enough := by simp [plainDevice, enough]
  startedPass s started := started
  startedStore s a v control started := by
    rw [plainDevice_store control, if_pos (not_not.mp started)]
    exact not_not.mpr rfl
  stored s a v control _ started := plainDevice_stored control v (not_not.mp started)
  storedOrLost s a v control _ := by
    by_cases started : s.1 = 0
    · exact .inl (plainDevice_stored control v started)
    · rw [plainDevice_store control, if_neg started]
      exact .inr rfl

end plain

section sensor
variable {startup : Nat} {σ : Type} {S : Sensor startup σ} {b : Bme280 σ} {c : Control}
  {a v : UInt8}

/-! ## One setter -/

/-- The sensor has started, and the copies in the driver agree with it, but for a measurement that
ended meanwhile. -/
structure InStep (S : Sensor startup σ) (b : Bme280 σ) : Prop where
  follows : b.control.used.Follows (shown S.toDevice b.sensor)
  started : ¬ S.Starting b.sensor

/-- A sensor that is asleep stays as it is until the next write. -/
theorem shown_pass {s : σ} (sleeps : (shown S.toDevice s).mode = sleepMode) :
    shown S.toDevice (S.pass s) = shown S.toDevice s := (S.follows s).eq_of_asleep sleeps

theorem busWrite_shown (control : a ∈ controlRegs)
    (sleeps : (shown S.toDevice b.sensor).mode = sleepMode) (started : ¬ S.Starting b.sensor)
    (v : UInt8) :
    shown S.toDevice (b.busWrite S.toDevice a v).sensor =
      (shown S.toDevice b.sensor).write a v := by
  rw [busWrite_eq (high_of_control control),
    S.stored _ _ _ control (by rwa [shown_pass sleeps]) (S.startedPass _ started),
    shown_pass sleeps]

theorem busWrite_started (control : a ∈ controlRegs) (started : ¬ S.Starting b.sensor) (v : UInt8) :
    ¬ S.Starting (b.busWrite S.toDevice a v).sensor := by
  rw [busWrite_eq (high_of_control control)]
  exact S.startedStore _ _ _ control (S.startedPass _ started)

/-- A sensor that is asleep takes all three registers, whatever they were. -/
theorem writeControl_shown (sleeps : (shown S.toDevice b.sensor).mode = sleepMode)
    (started : ¬ S.Starting b.sensor) (c : Control) :
    shown S.toDevice (b.writeControl S.toDevice c).sensor = c.used ∧
      ¬ S.Starting (b.writeControl S.toDevice c).sensor := by
  have config := busWrite_shown (a := configReg) (by decide) sleeps started c.config
  have started₁ := busWrite_started (a := configReg) (by decide) started c.config
  have sleeps₁ : (shown S.toDevice (b.busWrite S.toDevice configReg c.config).sensor).mode =
      sleepMode := by
    rw [config]
    exact sleeps
  have hum := busWrite_shown (a := ctrlHumidityReg) (by decide) sleeps₁ started₁ c.hum
  have started₂ := busWrite_started (a := ctrlHumidityReg) (by decide) started₁ c.hum
  have meas := busWrite_shown (a := ctrlMeasReg) (by decide) (by rw [hum]; exact sleeps₁) started₂
    c.meas
  refine ⟨?_, busWrite_started (by decide) started₂ c.meas⟩
  rw [writeControl, meas, hum, config]
  rfl

/-- The microseconds that the driver waits behind a reset. -/
def resetDelay : Nat := bme2803msDelay * 3

/-- Behind a reset the sensor is asleep. -/
theorem reset_shown (S : Sensor startup σ) (b : Bme280 σ) (msek : Nat) :
    shown S.toDevice ((b.setSoftRst S.toDevice).delayMsek S.toDevice msek).sensor = ⟨0, 0, 0⟩ := by
  have cleared : shown S.toDevice (b.setSoftRst S.toDevice).sensor = ⟨0, 0, 0⟩ := by
    rw [setSoftRst, busWrite_eq (by decide)]
    exact S.reset _
  have since := S.followsWait (msek * 3) (b.setSoftRst S.toDevice).sensor
  rw [cleared] at since
  exact since.eq_of_asleep (by decide)

theorem reset_started (quick : startup ≤ resetDelay) (b : Bme280 σ) :
    ¬ S.Starting
      ((b.setSoftRst S.toDevice).delayMsek S.toDevice bme2803msDelay).sensor := by
  rw [setSoftRst, busWrite_eq (by decide)]
  exact S.started _ _ quick

/-- Reading the copies back makes them agree with the sensor, whatever they were. -/
theorem readControl_spec (started : ¬ S.Starting b.sensor) :
    (shown S.toDevice b.sensor).Follows (b.readControl S.toDevice).control.used ∧
      InStep S (b.readControl S.toDevice) := by
  have first := S.follows b.sensor
  have second := S.follows (S.pass b.sensor)
  have third := S.follows (S.pass (S.pass b.sensor))
  have copies : (b.readControl S.toDevice).control.used = shown S.toDevice (S.pass b.sensor) := by
    rw [readControl_eq]
    have hum := second.hum
    have config := (second.trans third).config
    simp only [shown, Control.used] at hum config
    simp only [control, shown, Control.used, hum, config]
  refine ⟨by rwa [copies], ?_, ?_⟩
  · rw [copies, readControl_eq]
    exact second.trans third
  · rw [readControl_eq]
    exact S.startedPass _ (S.startedPass _ (S.startedPass _ started))

theorem getPowerMode_eq (dev : Device σ) (b : Bme280 σ) :
    b.getPowerMode dev =
      ({ b with sensor := dev.pass b.sensor }, (shown dev (dev.pass b.sensor)).mode) := by
  rw [getPowerMode, readRegister_eq (by decide)]
  rfl

/-- A setter writes all three registers behind a reset, or its own ones to a sensor that is
asleep. -/
theorem apply_cases (quick : startup ≤ resetDelay) (started : ¬ S.Starting b.sensor)
    {write : Bme280 σ → Bme280 σ}
    (kept : ∀ s, ¬ S.Starting s → ¬ S.Starting (write { b with sensor := s }).sensor) :
    ∃ b', b.apply S.toDevice c write = b'.readControl S.toDevice ∧ ¬ S.Starting b'.sensor ∧
      (shown S.toDevice b'.sensor = c.used ∨
        ∃ s, b' = write { b with sensor := s } ∧ ¬ S.Starting s ∧
          (shown S.toDevice b.sensor).Follows (shown S.toDevice s) ∧
          (shown S.toDevice s).mode = sleepMode) := by
  have passed := S.startedPass _ started
  rw [apply, getPowerMode_eq]
  dsimp only
  split
  case isTrue =>
    have zero := reset_shown S { b with sensor := S.pass b.sensor } bme2803msDelay
    obtain ⟨written, started'⟩ := writeControl_shown (by rw [zero]; decide)
      (reset_started quick { b with sensor := S.pass b.sensor }) c
    exact ⟨_, rfl, started', .inl written⟩
  case isFalse still =>
    exact ⟨_, rfl, kept _ passed, .inr ⟨_, rfl, passed, S.follows _, not_not.mp still⟩⟩

theorem apply_inStep (quick : startup ≤ resetDelay) (started : ¬ S.Starting b.sensor)
    {write : Bme280 σ → Bme280 σ}
    (kept : ∀ s, ¬ S.Starting s → ¬ S.Starting (write { b with sensor := s }).sensor) :
    InStep S (b.apply S.toDevice c write) := by
  obtain ⟨b', eq, started', -⟩ := apply_cases (c := c) quick started kept
  rw [eq]
  exact (readControl_spec started').2

/-- A setter asks the sensor for `c`. It is enough that it does so while the sensor is asleep. -/
theorem apply_spec (quick : startup ≤ resetDelay) (started : ¬ S.Starting b.sensor)
    {write : Bme280 σ → Bme280 σ}
    (kept : ∀ s, ¬ S.Starting s → ¬ S.Starting (write { b with sensor := s }).sensor)
    (sleeping : ∀ s, ¬ S.Starting s → (shown S.toDevice b.sensor).Follows (shown S.toDevice s) →
      (shown S.toDevice s).mode = sleepMode →
      c.used.Follows (shown S.toDevice (write { b with sensor := s }).sensor)) :
    c.used.Follows (b.apply S.toDevice c write).control.used := by
  obtain ⟨b', eq, started', written | ⟨s, rfl, passed, follows, sleeps⟩⟩ :=
    apply_cases (c := c) quick started kept
  · rw [eq, ← written]
    exact (readControl_spec started').1
  · rw [eq]
    exact (sleeping s passed follows sleeps).trans (readControl_spec started').1

theorem applyMeas_inStep (quick : startup ≤ resetDelay) (started : ¬ S.Starting b.sensor)
    (v : UInt8) : InStep S (b.applyMeas S.toDevice v) :=
  apply_inStep quick started fun _ started => busWrite_started (by decide) started v

theorem applyMeas_spec (quick : startup ≤ resetDelay) (inStep : InStep S b) (v : UInt8) :
    Control.Follows (Control.used ⟨b.ctrlHum, v, b.config⟩)
      (b.applyMeas S.toDevice v).control.used ∧ InStep S (b.applyMeas S.toDevice v) := by
  refine ⟨apply_spec quick inStep.started (fun _ started => busWrite_started (by decide) started v)
    fun s started follows sleeps => .inl ?_, applyMeas_inStep quick inStep.started v⟩
  have since := inStep.follows.trans follows
  rw [busWrite_shown (b := { b with sensor := s }) (by decide) sleeps started, Control.write_meas]
  dsimp only
  rw [since.hum, since.config]
  rfl

theorem applyConfig_spec (quick : startup ≤ resetDelay) (inStep : InStep S b) (v : UInt8) :
    Control.Follows (Control.used ⟨b.ctrlHum, b.ctrlMeas, v⟩)
      (b.applyConfig S.toDevice v).control.used ∧ InStep S (b.applyConfig S.toDevice v) := by
  rw [applyConfig]
  have kept : ∀ s, ¬ S.Starting s →
      ¬ S.Starting (busWrite S.toDevice { b with sensor := s } configReg v).sensor :=
    fun _ started => busWrite_started (by decide) started v
  refine ⟨apply_spec quick inStep.started kept fun s started follows sleeps => ?_,
    apply_inStep quick inStep.started kept⟩
  have since := inStep.follows.trans follows
  rw [busWrite_shown (b := { b with sensor := s }) (by decide) sleeps started,
    Control.write_config]
  rcases since with same | ⟨forced, same⟩
  · exact .inl (by rw [same]; rfl)
  · exact .inr ⟨forced, by rw [same]; rfl⟩

theorem applyHum_spec (quick : startup ≤ resetDelay) (inStep : InStep S b) (v : UInt8) :
    Control.Follows (Control.used ⟨v, b.ctrlMeas, b.config⟩)
      (b.applyHum S.toDevice v).control.used ∧ InStep S (b.applyHum S.toDevice v) := by
  rw [applyHum]
  have kept : ∀ s, ¬ S.Starting s →
      ¬ S.Starting ((busWrite S.toDevice { b with sensor := s } ctrlHumidityReg v).busWrite
        S.toDevice ctrlMeasReg b.ctrlMeas).sensor :=
    fun _ started => busWrite_started (by decide) (busWrite_started (by decide) started v) _
  refine ⟨apply_spec quick inStep.started kept fun s started follows sleeps => .inl ?_,
    apply_inStep quick inStep.started kept⟩
  have since := inStep.follows.trans follows
  have first := busWrite_shown (b := { b with sensor := s }) (a := ctrlHumidityReg) (by decide)
    sleeps started v
  rw [busWrite_shown (by decide) (by rw [first]; exact sleeps)
    (busWrite_started (by decide) started v), first, Control.write_meas, Control.write_hum]
  dsimp only
  rw [since.config]
  rfl

/-! ## The settings -/

inductive Setting where
  | temperature
  | pressure
  | humidity
  | standby
  | filter
  deriving DecidableEq

/-- A setting, in the control registers. -/
def Setting.get (c : Control) : Setting → UInt8
  | .temperature => ctrlMeasRegOversampTemperature.get c.meas
  | .pressure => ctrlMeasRegOversampPressure.get c.meas
  | .humidity => ctrlHumidityRegOversampHumidity.get c.hum
  | .standby => configRegTsb.get c.config
  | .filter => configRegFilter.get c.config

/-- The setters. -/
inductive Call where
  | powerMode (v : UInt8)
  | oversampTemperature (v : UInt8)
  | oversampPressure (v : UInt8)
  | oversampHumidity (v : UInt8)
  | standbyDurn (v : UInt8)
  | filter (v : UInt8)

namespace Call

def run (dev : Device σ) (b : Bme280 σ) : Call → Bme280 σ
  | .powerMode v => b.setPowerMode dev v
  | .oversampTemperature v => b.setOversampTemperature dev v
  | .oversampPressure v => b.setOversampPressure dev v
  | .oversampHumidity v => b.setOversampHumidity dev v
  | .standbyDurn v => b.setStandbyDurn dev v
  | .filter v => b.setFilter dev v

/-- What a call is for: it changes one setting, to the low three bits of its argument. -/
def effect (f : Setting → UInt8) : Call → Setting → UInt8
  | .powerMode _ => f
  | .oversampTemperature v => Function.update f .temperature (v &&& 7)
  | .oversampPressure v => Function.update f .pressure (v &&& 7)
  | .oversampHumidity v => Function.update f .humidity (v &&& 7)
  | .standbyDurn v => Function.update f .standby (v &&& 7)
  | .filter v => Function.update f .filter (v &&& 7)

/-- The mode that was asked for last. -/
def mode (m : UInt8) : Call → UInt8
  | .powerMode v => if v ≤ normalMode then v else m
  | _ => m

/-- The bytes that a call asks the sensor for. -/
def bytes (c : Control) : Call → Control
  | .powerMode v =>
    if v ≤ normalMode then ⟨c.hum, ctrlMeasRegPowerMode.set c.meas v, c.config⟩ else c
  | .oversampTemperature v => ⟨c.hum, ctrlMeasRegOversampTemperature.set c.meas v, c.config⟩
  | .oversampPressure v => ⟨c.hum, ctrlMeasRegOversampPressure.set c.meas v, c.config⟩
  | .oversampHumidity v => ⟨ctrlHumidityRegOversampHumidity.set c.hum v, c.meas, c.config⟩
  | .standbyDurn v => ⟨c.hum, c.meas, configRegTsb.set c.config v⟩
  | .filter v => ⟨c.hum, c.meas, configRegFilter.set c.config v⟩

/-- One call asks for its bytes, and the copies agree with the sensor behind it. -/
theorem run_spec (quick : startup ≤ resetDelay) (inStep : InStep S b) (call : Call) :
    (call.bytes b.control).used.Follows (call.run S.toDevice b).control.used ∧
      InStep S (call.run S.toDevice b) := by
  cases call with
  | powerMode v =>
    simp only [run, bytes, setPowerMode]
    split
    · exact applyMeas_spec quick inStep _
    · exact ⟨.inl rfl, inStep⟩
  | oversampTemperature v =>
    obtain ⟨asks, after⟩ := applyMeas_spec quick inStep
      (ctrlMeasRegOversampTemperature.set b.ctrlMeas v)
    exact ⟨asks, after.follows, after.started⟩
  | oversampPressure v =>
    obtain ⟨asks, after⟩ := applyMeas_spec quick inStep
      (ctrlMeasRegOversampPressure.set b.ctrlMeas v)
    exact ⟨asks, after.follows, after.started⟩
  | oversampHumidity v =>
    obtain ⟨asks, after⟩ := applyHum_spec quick inStep
      (ctrlHumidityRegOversampHumidity.set b.ctrlHum v)
    exact ⟨asks, after.follows, after.started⟩
  | standbyDurn v =>
    rw [run, setStandbyDurn]
    exact applyConfig_spec quick inStep _
  | filter v =>
    rw [run, setFilter]
    exact applyConfig_spec quick inStep _

end Call

theorem clip_three (v : UInt8) :
    ctrlMeasRegOversampTemperature.clip v = v &&& 7 ∧ ctrlMeasRegOversampPressure.clip v = v &&& 7 ∧
      ctrlHumidityRegOversampHumidity.clip v = v &&& 7 ∧ configRegTsb.clip v = v &&& 7 ∧
      configRegFilter.clip v = v &&& 7 := by
  cases v with
  | ofBitVec v => revert v; decide

theorem clip_mode (v : UInt8) : v ≤ normalMode → ctrlMeasRegPowerMode.clip v = v := by
  cases v with
  | ofBitVec v => revert v; decide

/-- A call changes its own setting. -/
theorem Call.bytes_get (call : Call) (c : Control) (x : Setting) :
    x.get (call.bytes c) = call.effect (fun x => x.get c) x := by
  cases call with
  | powerMode v =>
    rw [bytes, effect]
    split
    · cases x <;> simp (disch := decide) only [Setting.get, Field.get_set_other]
    · rfl
  | oversampTemperature v | oversampPressure v | oversampHumidity v | standbyDurn v | filter v =>
    cases x <;>
      simp (disch := decide) [bytes, effect, Setting.get, Field.get_set_other, Field.get_set,
        clip_three v]

theorem Call.bytes_mode (call : Call) (c : Control) : (call.bytes c).mode = call.mode c.mode := by
  cases call with
  | powerMode v =>
    rw [bytes, mode]
    split
    case isTrue small => rw [Control.mode, Field.get_set, clip_mode v small]
    case isFalse => rfl
  | oversampHumidity v => rfl
  | standbyDurn v => rfl
  | filter v => rfl
  | oversampTemperature v | oversampPressure v => exact Field.get_set_other (by decide)

/-- The settings are among the bits that are read, and no measurement changes them. -/
theorem Setting.get_used (c : Control) (x : Setting) : x.get c.used = x.get c := by
  cases x with
  | temperature | pressure => rfl
  | humidity | standby | filter => exact Field.get_and (by decide)

theorem Control.Follows.setting {c c' : Control} (h : c.Follows c') (x : Setting) :
    x.get c' = x.get c := by
  rcases h with rfl | ⟨-, rfl⟩
  · rfl
  · cases x <;> simp (disch := decide) only [asleep, Setting.get, Field.get_set_other]

theorem Control.Falls.call {m m' : UInt8} (h : Falls m m') (call : Call) :
    Falls (call.mode m) (call.mode m') := by
  cases call with
  | powerMode v =>
    simp only [Call.mode]
    split
    · exact .inl rfl
    · exact h
  | _ => exact h

/-- The settings and the mode in the copies are those that the calls ask for, and the sensor agrees
with the copies. -/
structure Asked (S : Sensor startup σ) (b : Bme280 σ) (f : Setting → UInt8) (m : UInt8) : Prop where
  settings : ∀ x : Setting, x.get b.control = f x
  mode : Control.Falls m b.control.mode
  inStep : InStep S b

theorem Call.run_asked (quick : startup ≤ resetDelay) {f : Setting → UInt8} {m : UInt8}
    (asked : Asked S b f m) (call : Call) :
    Asked S (call.run S.toDevice b) (call.effect f) (call.mode m) := by
  obtain ⟨follows, inStep⟩ := run_spec quick asked.inStep call
  have before : (fun x : Setting => x.get b.control) = f := funext asked.settings
  refine ⟨?_, ?_, inStep⟩
  · intro x
    rw [← Setting.get_used, follows.setting x, Setting.get_used, call.bytes_get, before]
  · have falls := follows.mode_falls
    rw [show (call.bytes b.control).used.mode = (call.bytes b.control).mode from rfl,
      call.bytes_mode] at falls
    exact (asked.mode.call call).trans falls

/-- Calls one after the other. -/
def runCalls (dev : Device σ) (b : Bme280 σ) (calls : List Call) : Bme280 σ :=
  calls.foldl (fun b call => call.run dev b) b

theorem runCalls_asked (quick : startup ≤ resetDelay) {f : Setting → UInt8} {m : UInt8}
    (asked : Asked S b f m) (calls : List Call) :
    Asked S (b.runCalls S.toDevice calls) (calls.foldl Call.effect f)
      (calls.foldl Call.mode m) := by
  induction calls generalizing b f m with
  | nil => exact asked
  | cons call calls ih => exact ih (call.run_asked quick asked)

theorem Asked.shown {f : Setting → UInt8} {m : UInt8} (asked : Asked S b f m) :
    (∀ x : Setting, x.get (shown S.toDevice b.sensor) = f x) ∧
      Control.Falls m (Bme280.shown S.toDevice b.sensor).mode := by
  refine ⟨?_, asked.mode.trans asked.inStep.follows.mode_falls⟩
  intro x
  rw [asked.inStep.follows.setting x, Setting.get_used, asked.settings]

/-! ## The station -/

/-- What `bme280_init_user` asks for. -/
def userSettings (filter : UInt8) : Setting → UInt8
  | .temperature | .pressure | .humidity => oversamp1x
  | .standby => standbyTime1Ms
  | .filter => filter

def userCalls : List Call :=
  [.oversampHumidity oversamp1x, .oversampPressure oversamp1x, .oversampTemperature oversamp1x,
    .standbyDurn standbyTime1Ms, .powerMode forcedMode]

theorem initUser_eq (dev : Device σ) (b : Bme280 σ) :
    b.initUser dev = ((b.init dev).setPowerMode dev normalMode).runCalls dev userCalls := by
  simp only [initUser, runCalls, userCalls, List.foldl_cons, List.foldl_nil, Call.run]

/-- `bme280_init_user` asks for all settings but the filter. -/
theorem userCalls_effect (f : Setting → UInt8) :
    userCalls.foldl Call.effect f = userSettings (f .filter) := by
  funext x
  cases x <;> rfl

theorem init_started (started : ¬ S.Starting b.sensor) :
    ¬ S.Starting (b.init S.toDevice).sensor := by
  rw [init_sensor]
  exact S.startedPass _ (S.startedPass _ (S.startedPass _ started))

/-- After the first call the copies agree with the sensor, whatever both were before. -/
theorem initUser_asked (quick : startup ≤ resetDelay) (started : ¬ S.Starting b.sensor) :
    ∃ filter, Asked S (b.initUser S.toDevice) (userSettings filter) forcedMode := by
  have first : InStep S ((b.init S.toDevice).setPowerMode S.toDevice normalMode) := by
    rw [setPowerMode, if_pos (by decide)]
    exact applyMeas_inStep quick (init_started started) _
  have rest := runCalls_asked quick ⟨fun _ => rfl, .inl rfl, first⟩ userCalls
  rw [← initUser_eq, userCalls_effect] at rest
  exact ⟨_, rest⟩

/-- After `bme280_init_user` and whatever setters are called behind it, the settings in the sensor
are what the calls asked for, and its mode is the one that was asked for last, or sleep when that
one asks for one measurement. -/
def Refined (dev : Device σ) (b : Bme280 σ) : Prop :=
  ∃ filter, ∀ calls : List Call,
    let sensor := ((b.initUser dev).runCalls dev calls).sensor
    (∀ x : Setting, x.get (shown dev sensor) = calls.foldl Call.effect (userSettings filter) x) ∧
      Control.Falls (calls.foldl Call.mode forcedMode) (shown dev sensor).mode

theorem refined_of_quick (quick : startup ≤ resetDelay) (started : ¬ S.Starting b.sensor) :
    Refined S.toDevice b := by
  obtain ⟨filter, asked⟩ := initUser_asked quick started
  exact ⟨filter, fun calls => (runCalls_asked quick asked calls).shown⟩

end sensor

/-! ## A sensor that is too slow -/

section slow
variable {startup : Nat} {b : Bme280 Plain} {s : Plain}

/-- The sensor is asleep and still starts. -/
structure Deaf (s : Plain) : Prop where
  starting : s.1 ≠ 0
  asleep : s.2 ctrlMeasReg = 0

theorem Deaf.pass (deaf : Deaf s) : (plainDevice startup).pass s = s := by
  refine Prod.ext rfl (funext fun r => if_neg fun h => ?_)
  obtain ⟨rfl, forced⟩ := h
  rw [deaf.asleep] at forced
  exact absurd forced (by decide)

theorem Deaf.busWrite (deaf : Deaf b.sensor) {a : UInt8} (control : a ∈ controlRegs) (v : UInt8) :
    b.busWrite (plainDevice startup) a v = b := by
  rw [busWrite_eq (high_of_control control), deaf.pass, plainDevice_store control,
    if_neg deaf.starting]

theorem Deaf.writeControl (deaf : Deaf b.sensor) (c : Control) :
    b.writeControl (plainDevice startup) c = b := by
  rw [Bme280.writeControl, deaf.busWrite (by decide), deaf.busWrite (by decide),
    deaf.busWrite (by decide)]

theorem Deaf.readControl (deaf : Deaf b.sensor) :
    (b.readControl (plainDevice startup)).sensor = b.sensor := by
  rw [readControl_eq]
  simp only [deaf.pass]

theorem Deaf.apply (deaf : Deaf b.sensor) {c : Control} {write : Bme280 Plain → Bme280 Plain}
    (lost : write b = b) : (b.apply (plainDevice startup) c write).sensor = b.sensor := by
  have mode : (shown (plainDevice startup) b.sensor).mode = sleepMode := by
    show ctrlMeasRegPowerMode.get (b.sensor.2 ctrlMeasReg) = sleepMode
    rw [deaf.asleep]
    decide
  rw [Bme280.apply, getPowerMode_eq]
  dsimp only
  rw [deaf.pass, if_neg (not_not.mpr mode), lost]
  exact deaf.readControl

/-- All calls are lost. -/
theorem Deaf.run (deaf : Deaf b.sensor) (call : Call) :
    (call.run (plainDevice startup) b).sensor = b.sensor := by
  have meas (v : UInt8) : (b.applyMeas (plainDevice startup) v).sensor = b.sensor :=
    deaf.apply (deaf.busWrite (by decide) v)
  have config (v : UInt8) : (b.applyConfig (plainDevice startup) v).sensor = b.sensor :=
    deaf.apply (deaf.busWrite (by decide) v)
  cases call with
  | powerMode v =>
    rw [Call.run, setPowerMode]
    split
    · exact meas _
    · rfl
  | oversampTemperature v => exact (setOversampTemperature_sensor v).trans (meas _)
  | oversampPressure v => exact (setOversampPressure_sensor v).trans (meas _)
  | oversampHumidity v =>
    rw [Call.run, setOversampHumidity_sensor]
    refine deaf.apply ?_
    rw [deaf.busWrite (by decide), deaf.busWrite (by decide)]
  | standbyDurn v =>
    rw [Call.run, setStandbyDurn]
    exact config _
  | filter v =>
    rw [Call.run, setFilter]
    exact config _

theorem Deaf.runCalls (deaf : Deaf b.sensor) (calls : List Call) :
    (b.runCalls (plainDevice startup) calls).sensor = b.sensor := by
  induction calls generalizing b with
  | nil => rfl
  | cons call calls ih =>
    have same := @Deaf.run startup _ deaf call
    exact (ih (by rwa [same])).trans same

/-- A sensor that measures all the time, and a driver that knows nothing. -/
def measuring : Bme280 Plain where
  sensor := (0, Function.update (fun _ => 0) ctrlMeasReg normalMode)
  chipId := 0
  ctrlMeas := 0
  ctrlHum := 0
  config := 0
  oversampTemperature := 0
  oversampPressure := 0
  oversampHumidity := 0
  calParam := calibParam (.replicate 26 0) (.replicate 7 0)
  tFine := 0

theorem measuring_pass : (plainDevice startup).pass measuring.sensor = measuring.sensor := by
  refine Prod.ext rfl (funext fun r => if_neg fun h => ?_)
  obtain ⟨rfl, forced⟩ := h
  exact absurd forced (by decide)

theorem measuring_init : (measuring.init (plainDevice startup)).sensor = measuring.sensor := by
  rw [init_sensor, measuring_pass, measuring_pass, measuring_pass]

/-- The registers behind a reset and the delay. -/
def cleared (startup : Nat) : Plain :=
  (startup - resetDelay, fun r => if r ∈ controlRegs then 0 else measuring.sensor.2 r)

theorem reset_cleared (same : b.sensor = measuring.sensor) :
    ((b.setSoftRst (plainDevice startup)).delayMsek (plainDevice startup) bme2803msDelay).sensor =
      cleared startup := by
  rw [setSoftRst, busWrite_eq (by decide), same, measuring_pass]
  rfl

theorem cleared_deaf (slow : resetDelay < startup) : Deaf (cleared startup) :=
  ⟨Nat.sub_ne_zero_of_lt slow, rfl⟩

/-- The first call resets the sensor, which does not hear what comes next. -/
theorem measuring_reset (slow : resetDelay < startup) :
    ((measuring.init (plainDevice startup)).setPowerMode (plainDevice startup) normalMode).sensor =
      cleared startup := by
  have awake : (shown (plainDevice startup) measuring.sensor).mode ≠ sleepMode := by
    show ctrlMeasRegPowerMode.get (measuring.sensor.2 ctrlMeasReg) ≠ sleepMode
    decide
  rw [setPowerMode, if_pos (by decide), applyMeas, apply, getPowerMode_eq, measuring_init,
    measuring_pass]
  dsimp only
  rw [if_pos awake]
  have reset := @reset_cleared startup
    { measuring.init (plainDevice startup) with sensor := measuring.sensor } rfl
  have deaf := cleared_deaf slow
  rw [← reset] at deaf
  rw [deaf.writeControl, deaf.readControl, reset]

/-- Nothing of what `bme280_init_user` asks for is set. -/
theorem not_refined_of_slow (slow : resetDelay < startup) :
    ¬ Refined (plainDevice startup) measuring := by
  rintro ⟨filter, refined⟩
  have humidity := (refined []).1 .humidity
  have reset := measuring_reset slow
  have deaf := cleared_deaf slow
  rw [← reset] at deaf
  have lost : (measuring.initUser (plainDevice startup)).sensor = cleared startup := by
    rw [initUser_eq, deaf.runCalls, reset]
  have off : Setting.humidity.get (shown (plainDevice startup) (cleared startup)) = 0 := by
    show ctrlHumidityRegOversampHumidity.get (0 &&& 0x07) = 0
    decide
  rw [runCalls, List.foldl_nil, lost, off] at humidity
  change (0 : UInt8) = oversamp1x at humidity
  exact absurd humidity (by decide)

end slow

/-- The settings in every sensor that starts in `startup` microseconds, from any state in which it
has started, are those that the calls ask for, exactly when it takes no longer than the driver
waits: nine microseconds. -/
theorem settings_refined_iff (startup : Nat) :
    (∀ (σ : Type) (S : Sensor startup σ) (b : Bme280 σ), ¬ S.Starting b.sensor →
      Refined S.toDevice b) ↔ startup ≤ 9 := by
  constructor
  · intro refined
    by_contra slow
    have started : ¬ (plainSensor startup).Starting measuring.sensor := fun starting => starting rfl
    exact not_refined_of_slow (Nat.not_le.mp slow)
      (refined Plain (plainSensor startup) measuring started)
  · exact fun quick σ S b started => refined_of_quick quick started

/-- Plain registers that start in nine microseconds, while they measure all the time. -/
theorem settings_refined_plain :
    let sensor := ((measuring.initUser (plainDevice 9)).runCalls (plainDevice 9)
      [.powerMode normalMode, .oversampTemperature 5, .powerMode 7]).sensor
    Setting.temperature.get (shown (plainDevice 9) sensor) = 5 ∧
      (shown (plainDevice 9) sensor).mode = normalMode := by
  intro sensor
  have started : ¬ (plainSensor 9).Starting measuring.sensor := fun starting => starting rfl
  obtain ⟨filter, refined⟩ :=
    (settings_refined_iff 9).mpr le_rfl Plain (plainSensor 9) measuring started
  obtain ⟨settings, mode⟩ := refined [.powerMode normalMode, .oversampTemperature 5, .powerMode 7]
  refine ⟨settings .temperature, ?_⟩
  rcases mode with same | ⟨forced, -⟩
  · exact same
  · exact absurd forced (by decide)

end Bme280
end Domotic
