import Domotic.Bme280.Driver
import Domotic.I2c.Switches
import Domotic.Library.Deadline
import Domotic.Uart.SleepTime

/-!
# A station that sleeps

The builds with `SLEEP` wake up, report and go back to sleep. Three SDK timers decide when:
`timer_mesure` measures or polls the switches, `timer_time_out_connection` gives up after forty
seconds, and `timer_DisconnectMQTT` first calls `DisconnectMQTT` and then `go_sleep`. A message, a
connection and a byte on the UART put the last one off.

Time passes in milliseconds, and a due timer is served in its millisecond. What the station reads
from its sensors comes with the event that reads it.
-/
namespace Domotic
open Library TwoWire

namespace Build

/-- `METEO`, which also defines `BME280` and `SLEEP_IF_BATTERY_LOW`. -/
@[simp] def isMeteo : Build → Bool
  | .meteo | .meteoAds786x => true
  | _ => false

/-- `ADS786x` -/
@[simp] def ads786x : Build → Bool
  | .meteoAds786x => true
  | _ => false

end Build

/-- `TIMOUT_CONNECTION`, in milliseconds. -/
def timoutConnection : Nat := 40000
/-- `T_LONG_SLEEP`, in seconds. -/
def tLongSleep : Nat := 30 * 60

/-- The functions of the three timers. -/
inductive WakeFunction where
  | timerMesureHandler | pcf8885func | disconnectMQTT | goSleep
  deriving DecidableEq

inductive WakeTimer where
  | timerMesure | timerTimeOutConnection | timerDisconnectMQTT
  deriving DecidableEq

instance wakeTimers : Fintype WakeTimer where
  elems := {.timerMesure, .timerTimeOutConnection, .timerDisconnectMQTT}
  complete t := by cases t <;> decide

/-- How the program ends: `system_deep_sleep` for some microseconds, or `system_restart`. -/
inductive Ending where
  | sleeps (us : Nat)
  | restarts
  deriving DecidableEq

structure Wake where
  timers : WakeTimer → Deadline WakeFunction
  uart : RxUart
  switches : Switches Sender
  ended : Option Ending

/-- What the sensors show: the byte of the touch sensor, the two bytes of the ADS786x, and what
`bme280_read_pressure_temperature_humidity` measures. -/
structure Sensed where
  switches : UInt8
  adc : UInt16
  measured : Bme280.Measure

namespace Wake

def setTimer (w : Wake) (t : WakeTimer) (a : Deadline WakeFunction) : Wake :=
  { w with timers := Function.update w.timers t a }

/-- `os_timer_disarm`, `os_timer_setfn` and `os_timer_arm`. -/
def restart (w : Wake) (t : WakeTimer) (f : WakeFunction) (ms : Nat) (again : Bool) : Wake :=
  w.setTimer t (((w.timers t).disarm.setfn f).arm ms again)

/-- The moisture that the ADS786x shows: `val_adc` is a `signed short`. -/
def solHumidity (adc : UInt16) : Int :=
  let val := (Int16.ofInt (3200 - adc.toInt16.toInt)).toInt
  let val := Int.tdiv val 2
  let val := if val < 0 then 0 else val
  let val := if 1000 < val then 1000 else val
  val * 10

/-- `timer_mesure_handler` -/
def timerMesureHandler (b : Build) (sensed : Sensed) (w : Wake) : Wake :=
  let e := w.switches.env
  let e := if b.ads786x then
      e.sendPaquetSensor "/sensors/humiditys/" .humidity (solHumidity sensed.adc) true
        (some "_sol")
    else e
  let e := e.sendPaquetSensor "/sensors/temperatures/" .temperature sensed.measured.temperature
    true none
  let e := e.sendPaquetSensor "/sensors/humiditys/" .humidity (Int.tdiv sensed.measured.humidity 10)
    true none
  let e := e.sendPaquetSensor "/sensors/pressures/" .pressure (int32 sensed.measured.pressure)
    true none
  let e := e.sendPaquetSensor "/sensors/batterys/" .battery w.switches.ubat true none
  { w with switches := { w.switches with env := e } }

/-- The reports of a measurement and of the battery. -/
def measureReports (m : Bme280.Measure) (ubat : Int) : List SensorReport :=
  [⟨"/sensors/temperatures/", .temperature, m.temperature, true, none⟩,
    ⟨"/sensors/humiditys/", .humidity, m.humidity, true, none⟩,
    ⟨"/sensors/pressures/", .pressure, int32 m.pressure, true, none⟩,
    ⟨"/sensors/batterys/", .battery, ubat, true, none⟩]

/-- `timer_mesure_handler` publishes what it measures with the BME280. -/
theorem timerMesureHandler_sent {σ : Type} (dev : SerialRegisters.Device σ) (s : Bme280 σ)
    (b : Build) {sensed : Sensed} {w : Wake} (named : w.switches.env.meter.Named)
    (measured : sensed.measured = (s.readPressureTemperatureHumidity dev).2) :
    (w.timerMesureHandler b sensed).switches.env.sent = w.switches.env.sent ++
      (if b.ads786x then
        [⟨"/sensors/humiditys/", .humidity, solHumidity sensed.adc, true, some "_sol"⟩] else []) ++
      measureReports (s.timerMesureHandler dev).2 w.switches.ubat := by
  have same : (s.timerMesureHandler dev).2 =
      { sensed.measured with humidity := Int.tdiv sensed.measured.humidity 10 } := by
    rw [measured]
    rfl
  have four : ∀ {e : Env}, e.meter.Named → ((((e.sendPaquetSensor "/sensors/temperatures/"
      .temperature sensed.measured.temperature true none).sendPaquetSensor "/sensors/humiditys/"
      .humidity (Int.tdiv sensed.measured.humidity 10) true none).sendPaquetSensor
      "/sensors/pressures/" .pressure (int32 sensed.measured.pressure) true none).sendPaquetSensor
      "/sensors/batterys/" .battery w.switches.ubat true none).sent =
      e.sent ++ measureReports (s.timerMesureHandler dev).2 w.switches.ubat := fun {e} named => by
    obtain ⟨named₁, sent₁⟩ := sendPaquetSensor_sent named "/sensors/temperatures/" .temperature
      sensed.measured.temperature true none
    obtain ⟨named₂, sent₂⟩ := sendPaquetSensor_sent named₁ "/sensors/humiditys/" .humidity
      (Int.tdiv sensed.measured.humidity 10) true none
    obtain ⟨named₃, sent₃⟩ := sendPaquetSensor_sent named₂ "/sensors/pressures/" .pressure
      (int32 sensed.measured.pressure) true none
    obtain ⟨-, sent₄⟩ := sendPaquetSensor_sent named₃ "/sensors/batterys/" .battery
      w.switches.ubat true none
    rw [sent₄, sent₃, sent₂, sent₁, same]
    simp only [measureReports, List.append_assoc, List.cons_append, List.nil_append]
  unfold timerMesureHandler
  dsimp only
  cases b.ads786x with
  | true =>
    obtain ⟨named', soil⟩ := sendPaquetSensor_sent named "/sensors/humiditys/" .humidity
      (solHumidity sensed.adc) true (some "_sol")
    exact (four named').trans (congrArg (· ++ _) soil)
  | false => exact (four named).trans (congrArg (· ++ _) (List.append_nil _).symm)

/-- The switches that the device at `own` shows are read, and the byte is returned. -/
def sendPcf8885 (b : Build) (own : UInt8) (sensed : Sensed) (w : Wake) : Wake × UInt8 :=
  let r := Domotic.sendPcf8885 b (sender own)
    { w.switches with bus := setValue sensed.switches w.switches.bus }
  ({ w with switches := r.1 }, r.2)

/-- `pcf8885func`: when no switch is touched any more, the station disconnects. -/
def pcf8885func (b : Build) (own : UInt8) (sensed : Sensed) (w : Wake) : Wake :=
  let r := sendPcf8885 b own sensed w
  if b.switchOnly ∧ r.2 = 0 then r.1.restart .timerMesure .disconnectMQTT 200 true else r.1

/-- The milliseconds between `DisconnectMQTT` and `go_sleep`. -/
def disconnectDelay (b : Build) : Nat := if b.pcf8885 then 50 else 20

/-- `DisconnectMQTT` -/
def disconnectMQTT (b : Build) (w : Wake) : Wake :=
  w.restart .timerDisconnectMQTT .goSleep (disconnectDelay b) false

/-- `go_sleep` -/
def goSleep (w : Wake) : Wake := { w with ended := some (.sleeps (Domotic.goSleep w.uart.tSleep)) }

/-- What a timer calls. -/
def call (b : Build) (own : UInt8) (sensed : Sensed) (w : Wake) : WakeFunction → Wake
  | .timerMesureHandler => timerMesureHandler b sensed w
  | .pcf8885func => pcf8885func b own sensed w
  | .disconnectMQTT => disconnectMQTT b w
  | .goSleep => goSleep w

/-- `connectedCB` -/
def connectedCB (b : Build) (w : Wake) : Wake :=
  let w := if b.isMeteo then
      w.restart .timerDisconnectMQTT .disconnectMQTT
        (if w.uart.topic.toList.headD 0 = 0 then 200 else 800) false
    else w
  if b.switchOnly then w.restart .timerMesure .pcf8885func 200 true else w

/-- What `rx_uart0` does to `timer_DisconnectMQTT`, and `system_restart`. -/
def rxEffect (w : Wake) : RxEffect → Wake
  | .disarmDisconnect => w.setTimer .timerDisconnectMQTT (w.timers .timerDisconnectMQTT).disarm
  | .setfnDisconnect =>
    w.setTimer .timerDisconnectMQTT ((w.timers .timerDisconnectMQTT).setfn .disconnectMQTT)
  | .armDisconnect ms =>
    w.setTimer .timerDisconnectMQTT ((w.timers .timerDisconnectMQTT).arm ms false)
  | .saveAndRestart => { w with ended := some .restarts }
  | _ => w

/-- `rx_uart0` -/
def rx (b : Build) (w : Wake) (c : UInt8) : Wake :=
  let r := rxUart0 b w.uart c
  r.effects.foldl rxEffect { w with uart := r.next }

/-- The part of `mqttDataCb` for `SLEEP`. -/
def mqttDataCb (w : Wake) : Wake := w.restart .timerDisconnectMQTT .disconnectMQTT 200 false

/-- `ubat`, from what `system_adc_read` returns. -/
def ubat (adc : UInt16) : Int := (Int16.ofNat (adc.toNat * 64 / 21)).toInt

/-- `SLEEP_IF_BATTERY_LOW`, and the battery is low. -/
def LowBattery (b : Build) (adc : UInt16) : Prop := b.isMeteo = true ∧ ubat adc < 1200

instance (b : Build) (adc : UInt16) : Decidable (LowBattery b adc) :=
  inferInstanceAs (Decidable (_ ∧ _))

/-- `user_init`, with what it reads from flash, from the battery and from the touch sensor. -/
def userInit (b : Build) (own : UInt8) (bus : I2c Sender) (cfg : Configuration) (adc : UInt16)
    (sensed : Sensed) : Wake :=
  let w : Wake :=
    { timers := fun _ => {}
      uart := .boot cfg
      switches := .boot b (sender own) bus cfg.tSleep (ubat adc) cfg.stationName.toList
      ended := if LowBattery b adc then some (.sleeps (tLongSleep * 1000 * 1000)) else none }
  let w := if b.isMeteo then w.restart .timerMesure .timerMesureHandler 100 false else w
  let w := w.restart .timerTimeOutConnection .disconnectMQTT timoutConnection true
  if b.switchOnly then (sendPcf8885 b own sensed w).1 else w

end Wake

inductive WakeEvent where
  /-- A millisecond. -/
  | pass
  | serve (t : WakeTimer) (sensed : Sensed)
  | connected
  | message
  | uart (c : UInt8)

/-- What happens to a station that is awake. -/
def Wake.step (b : Build) (own : UInt8) (w : Wake) (ev : WakeEvent) : Option Wake :=
  if w.ended.isSome then none
  else match ev with
    | .pass => (passAll w.timers).map fun timers => { w with timers := timers }
    | .serve t sensed =>
      (serveOne w.timers t).map fun r => call b own sensed { w with timers := r.1 } r.2
    | .connected => some (connectedCB b w)
    | .message => some w.mqttDataCb
    | .uart c => some (rx b w c)

/-- The runs of a station that sleeps. -/
abbrev WakeRun (b : Build) (own : UInt8) (w : Wake) (es : List WakeEvent) (w' : Wake) : Prop :=
  Run (fun w ev w' => w.step b own ev = some w') w es w'

/-- The milliseconds that pass. -/
def elapsed : List WakeEvent → Nat
  | [] => 0
  | .pass :: es => elapsed es + 1
  | _ :: es => elapsed es

theorem elapsed_append (es es' : List WakeEvent) :
    elapsed (es ++ es') = elapsed es + elapsed es' := by
  induction es with
  | nil => simp [elapsed]
  | cons ev es ih =>
    cases ev with
    | pass => simp only [List.cons_append, elapsed, ih]; omega
    | serve | connected | message | uart => exact ih

/-- The event does not put the sleep off. -/
def WakeEvent.Quiet (b : Build) : WakeEvent → Prop
  | .pass | .serve _ _ => True
  | .connected => b.isMeteo = false
  | .message | .uart _ => False

/-- What a timer calls in this event. -/
def Wake.calls (w : Wake) : WakeEvent → Option WakeFunction
  | .serve t _ => (w.timers t).func
  | _ => none

end Domotic
