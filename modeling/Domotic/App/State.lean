import Mathlib.Logic.Function.Basic
import Domotic.Config
import Domotic.Timer

/-!
# The state of the application

The global and static variables of `user_main.c` that the interrupt handlers, the soft-timer
callbacks and the MQTT data callback share. One record serves every build; a variable that a
build does not declare keeps its initial value there.
-/
namespace Domotic

/-- The callbacks that can be in the soft-timer table. -/
inductive CallBack where
  | timerZeroCross | zeroCross | timerDisableTriack | timerEnableTriack
  | timerPwm1 | timerPwm2 | timerMesureSampleAdc
  deriving DecidableEq, Repr

/-- The functions that `os_timer_setfn` installs. -/
inductive OsFunction where
  | timeoutStore | noZeroCross | disconnectMQTT
  deriving DecidableEq, Repr

/-- An SDK timer: its function, and its period and repeat flag while it is armed. As a C
global it starts all zero. -/
structure OsTimer where
  func : Option OsFunction := none
  armed : Option (Nat × Bool) := none
  deriving DecidableEq, Repr

namespace OsTimer

/-- `os_timer_disarm` -/
def disarm (t : OsTimer) : OsTimer := { t with armed := none }

/-- `os_timer_setfn` -/
def setfn (t : OsTimer) (f : OsFunction) : OsTimer := { t with func := some f }

/-- `os_timer_arm` -/
def arm (t : OsTimer) (ms : Nat) (again : Bool) : OsTimer := { t with armed := some (ms, again) }

end OsTimer

/-- `sensor_type_t` -/
inductive SensorType where
  | temperature | temperatureMin | temperatureMax | current | power | humidity | light
  | voltage | battery | pressure | speed | direction | icon | switch | pourcent
  deriving DecidableEq, Repr

/-- The arguments of one call of `send_paquet_sensor` that found a station name. The topic
is the one given to `ID`. -/
structure SensorReport where
  topic : String
  type : SensorType
  val : Int
  retain : Bool
  name : Option String
  deriving DecidableEq, Repr

/-- What the measuring callback reads from outside: the reply of the current sensor and
whether the MQTT session is up. -/
structure Inputs where
  reply : UInt16
  mqttIsConected : Bool
  deriving DecidableEq, Repr

structure Env where
  puissancePwm : Nat → Nat
  /-- The static `on` of `timerPwm1` and `timerPwm2`. -/
  on : Nat → Bool
  puissanceTriac : Int
  timerTriackOn : Bool
  /-- The level of each output. -/
  gpioOut : Nat → Bool
  /-- Whether the zero-cross pin raises an interrupt (`GPIO_PIN_INTR_NEGEDGE`). -/
  zeroCrossIntr : Bool
  tempFromZeroCross : Nat
  timer0V : OsTimer
  niveau : Int
  consinge : Int
  niveau100 : Int
  /-- `t_sleep`, which the shutter builds use as `echelle`. -/
  tSleep : Nat
  timerTimoutStore : OsTimer
  timerDisconnectMQTT : OsTimer
  stationName : List UInt8
  tli4970IsEnable : Nat
  numMesure : Nat
  sum : Int
  moyenPower : Int
  inputs : Inputs
  /-- Every report sent since boot, the last one at the end. -/
  sent : List SensorReport

abbrev App := Timed CallBack Env

namespace Env

/-- `GPIO_REG_WRITE` of one bit to `GPIO_OUT_W1TS` or `GPIO_OUT_W1TC`. -/
def setOut (e : Env) (pin : Nat) (level : Bool) : Env :=
  { e with gpioOut := Function.update e.gpioOut pin level }

def setPwm (e : Env) (l : Nat) (p : Nat) : Env :=
  { e with puissancePwm := Function.update e.puissancePwm l p }

def setPower (e : Env) (p : Int) : Env := { e with puissanceTriac := p }

def setConsinge (e : Env) (target : Int) : Env := { e with consinge := target }

def setNiveau (e : Env) (n : Int) : Env := { e with niveau := n }

def setTimerTimoutStore (e : Env) (t : OsTimer) : Env := { e with timerTimoutStore := t }

/-- The cached percentage and the list of reports. -/
def report (e : Env) (n : Int) (sent : List SensorReport) : Env :=
  { e with niveau100 := n, sent := sent }

/-- `send_paquet_sensor`: nothing is sent without a station name. -/
def sendPaquetSensor (e : Env) (topic : String) (type : SensorType) (val : Int) (retain : Bool)
    (name : Option String) : Env :=
  match e.stationName with
  | [] => e
  | c :: _ => if c = 0 then e else { e with sent := e.sent ++ [⟨topic, type, val, retain, name⟩] }

section fields
variable (e : Env) (pin l p : Nat) (level : Bool)

@[simp] theorem setOut_gpioOut : (e.setOut pin level).gpioOut =
    Function.update e.gpioOut pin level :=
  rfl
@[simp] theorem setOut_puissancePwm : (e.setOut pin level).puissancePwm = e.puissancePwm := rfl
@[simp] theorem setOut_puissanceTriac : (e.setOut pin level).puissanceTriac =
    e.puissanceTriac := rfl
@[simp] theorem setOut_timerTriackOn : (e.setOut pin level).timerTriackOn = e.timerTriackOn := rfl
@[simp] theorem setOut_zeroCrossIntr : (e.setOut pin level).zeroCrossIntr = e.zeroCrossIntr := rfl
@[simp] theorem setOut_on : (e.setOut pin level).on = e.on := rfl

@[simp] theorem setPwm_puissancePwm :
    (e.setPwm l p).puissancePwm = Function.update e.puissancePwm l p := rfl
@[simp] theorem setPwm_puissanceTriac : (e.setPwm l p).puissanceTriac = e.puissanceTriac := rfl
@[simp] theorem setPwm_timerTimoutStore : (e.setPwm l p).timerTimoutStore =
    e.timerTimoutStore := rfl
@[simp] theorem setPwm_niveau : (e.setPwm l p).niveau = e.niveau := rfl
@[simp] theorem setPwm_consinge : (e.setPwm l p).consinge = e.consinge := rfl

@[simp] theorem setPower_puissancePwm (p : Int) : (e.setPower p).puissancePwm =
    e.puissancePwm := rfl
@[simp] theorem setPower_puissanceTriac (p : Int) : (e.setPower p).puissanceTriac = p := rfl
@[simp] theorem setPower_timerTimoutStore (p : Int) :
    (e.setPower p).timerTimoutStore = e.timerTimoutStore := rfl
@[simp] theorem setPower_niveau (p : Int) : (e.setPower p).niveau = e.niveau := rfl
@[simp] theorem setPower_consinge (p : Int) : (e.setPower p).consinge = e.consinge := rfl

@[simp] theorem setConsinge_timerTimoutStore (target : Int) :
    (e.setConsinge target).timerTimoutStore = e.timerTimoutStore := rfl

@[simp] theorem setNiveau_puissancePwm (n : Int) : (e.setNiveau n).puissancePwm =
    e.puissancePwm := rfl
@[simp] theorem setNiveau_puissanceTriac (n : Int) :
    (e.setNiveau n).puissanceTriac = e.puissanceTriac := rfl
@[simp] theorem setNiveau_timerTimoutStore (n : Int) :
    (e.setNiveau n).timerTimoutStore = e.timerTimoutStore := rfl

variable (n : Int) (sent : List SensorReport)

@[simp] theorem report_puissancePwm : (e.report n sent).puissancePwm = e.puissancePwm := rfl
@[simp] theorem report_puissanceTriac : (e.report n sent).puissanceTriac = e.puissanceTriac := rfl
@[simp] theorem report_timerTimoutStore :
    (e.report n sent).timerTimoutStore = e.timerTimoutStore := rfl

variable (t : OsTimer)

@[simp] theorem setTimerTimoutStore_puissancePwm :
    (e.setTimerTimoutStore t).puissancePwm = e.puissancePwm := rfl
@[simp] theorem setTimerTimoutStore_puissanceTriac :
    (e.setTimerTimoutStore t).puissanceTriac = e.puissanceTriac := rfl
@[simp] theorem setTimerTimoutStore_timerTimoutStore :
    (e.setTimerTimoutStore t).timerTimoutStore = t := rfl
@[simp] theorem setTimerTimoutStore_niveau : (e.setTimerTimoutStore t).niveau = e.niveau := rfl
@[simp] theorem setTimerTimoutStore_consinge :
    (e.setTimerTimoutStore t).consinge = e.consinge := rfl

end fields

/-- A report changes only the list of reports. -/
theorem sendPaquetSensor_eq (e : Env) (topic : String) (type : SensorType) (val : Int)
    (retain : Bool) (name : Option String) :
    ∃ sent, e.sendPaquetSensor topic type val retain name = e.report e.niveau100 sent := by
  unfold sendPaquetSensor
  split
  · exact ⟨e.sent, rfl⟩
  · split
    · exact ⟨e.sent, rfl⟩
    · exact ⟨_, rfl⟩

end Env

namespace App

def setOut (m : App) (pin : Nat) (level : Bool) : App := { m with env := m.env.setOut pin level }

def timerChange (m : App) (period : Nat) (c : CallBack) : App :=
  { m with timers := m.timers.timerChange period c }

def timerRemoveCallback (m : App) (c : CallBack) : App :=
  { m with timers := m.timers.timerRemoveCallback c }

def timerAddCallback (m : App) (period : Nat) (c : CallBack) : App :=
  { m with timers := m.timers.timerAddCallback period c }

section parts
variable (m : App) (pin period : Nat) (level : Bool) (c : CallBack)

@[simp] theorem setOut_env : (m.setOut pin level).env = m.env.setOut pin level := rfl
@[simp] theorem setOut_timers : (m.setOut pin level).timers = m.timers := rfl
@[simp] theorem timerChange_env : (m.timerChange period c).env = m.env := rfl
@[simp] theorem timerChange_timers :
    (m.timerChange period c).timers = m.timers.timerChange period c := rfl
@[simp] theorem timerRemoveCallback_env : (m.timerRemoveCallback c).env = m.env := rfl
@[simp] theorem timerRemoveCallback_timers :
    (m.timerRemoveCallback c).timers = m.timers.timerRemoveCallback c := rfl
@[simp] theorem timerAddCallback_env : (m.timerAddCallback period c).env = m.env := rfl
@[simp] theorem timerAddCallback_timers :
    (m.timerAddCallback period c).timers = m.timers.timerAddCallback period c := rfl

end parts

end App

end Domotic
