import Domotic.App.Callbacks
import Domotic.Library.Run

/-!
# Interrupts, messages and initialisation

The handlers that change the application outside the soft-timer tick, and the transition
system of the whole application. Every handler is atomic. `storeIRQ` and `timeout_store`
divide by `echelle`, which the user configures: on a zero divisor they do not return.

`mqttDataCb` receives a pointer and a length and indexes the pointer as it likes, so its
model reads from an unbounded memory and keeps the list of the indices it read.
-/
namespace Domotic
open Library

/-! ## The shutter sensor -/

/-- `3*echelle/100`, computed unsigned. -/
def slowZone (e : Env) : Nat := uint32 (3 * e.tSleep) / 100

/-- The downward branch of `storeIRQ`; the comparison is made on unsigned values. -/
def regulateDown (delta : Int) (e : Env) : Env :=
  if e.puissancePwm 0 ≠ 0 then
    if 0 ≤ delta then (e.setPwm 0 0).setPower 0
    else if uint32 delta < uint32 (-slowZone e) then e.setPwm 0 100
    else e.setPwm 0 pMinStoreDown
  else e

/-- The upward branch of `storeIRQ`. -/
def regulateUp (delta : Int) (e : Env) : Env :=
  if e.puissancePwm 1 ≠ 0 then
    if delta ≤ 0 then (e.setPwm 1 0).setPower 0
    else if slowZone e < uint32 delta then e.setPwm 1 100
    else e.setPwm 1 pMinStoreUp
  else e

/-- Restart the watchdog with the function it already has. -/
def resetTimeout (e : Env) : Env :=
  e.setTimerTimoutStore (e.timerTimoutStore.disarm.arm timoutStore true)

/-- A pulse moves the position; towards the target it also restarts the watchdog. -/
def countPulse (up : Bool) (e : Env) : Env :=
  if up then
    let e := if e.niveau < e.consinge then resetTimeout e else e
    e.setNiveau (int32 (e.niveau + 1))
  else
    let e := if e.consinge < e.niveau then resetTimeout e else e
    e.setNiveau (int32 (e.niveau - 1))

/-- `(signed int)niveau*100/(signed int)echelle` -/
def pourcentage (e : Env) : Option Int :=
  if int32 e.tSleep = 0 then none
  else some (int32 (Int.tdiv (int32 (e.niveau * 100)) (int32 e.tSleep)))

/-- Send the clamped percentage when it differs from the last one. -/
def reportNiveau (e : Env) : Option Env := do
  let temp ← pourcentage e
  let temp := if 100 < temp then 100 else if temp < 0 then 0 else temp
  if temp ≠ e.niveau100 then
    some ((e.report temp e.sent).sendPaquetSensor "/sensors/switch/" .switch temp false
      (some "_MsenS_"))
  else some e

/-- `storeIRQ`, with the levels of the pulse input and of the direction input. The
direction sensor is inverted (`STORE_DIR_SENSOR`). -/
def storeIRQ (pulse direction : Bool) (e : Env) : Option Env :=
  let delta := int32 (e.consinge - e.niveau)
  let e := regulateUp delta (regulateDown delta e)
  if pulse = false then reportNiveau (countPulse (!direction) e) else some e

/-- Both channels stop where one was driven, and the position is taken to lie beyond the
target. -/
def stopMotor (e : Env) : Env :=
  if e.puissancePwm 0 ≠ 0 ∨ e.puissancePwm 1 ≠ 0 then
    let e := (e.setPwm 0 0).setPwm 1 0
    if e.niveau < e.consinge then e.setNiveau (int32 (e.consinge + ↑(e.tSleep / 500)))
    else e.setNiveau (int32 (e.consinge - ↑(e.tSleep / 500)))
  else e

/-- `timeout_store` -/
def timeoutStore (e : Env) : Option Env := do
  let e := e.setTimerTimoutStore e.timerTimoutStore.disarm
  let e := (stopMotor e).setPower 0
  let _ ← pourcentage e
  some (e.sendPaquetSensor "/sensors/switch/" .switch e.niveau100 false (some "_MsenS_"))

/-! ## The GPIO interrupt -/

def zeroCrossIRQ (b : Build) (m : App) : App :=
  let m : App := { m with env := { m.env with tempFromZeroCross := 0 } }
  let m :=
    if b.halfSinPos then m.timerChange 9800 .zeroCross
    else if b.halfSinNeg then m.timerChange 19800 .zeroCross
    else m.timerChange 9800 .timerZeroCross
  if b.detect0V then
    { m with env := { m.env with
        timer0V := ((m.env.timer0V.disarm).setfn .noZeroCross).arm 45 true } }
  else m

/-- The status that one pass of the loop of `IRQ` reads: the bits of the zero-cross pin and
of the shutter pin, and the levels of the two shutter inputs. -/
structure GpioStatus where
  zeroCross : Bool
  store : Bool
  pulse : Bool
  direction : Bool
  deriving DecidableEq, Repr

/-- One pass of the loop of `IRQ`, which goes round until the status is zero: a call is a
sequence of passes. -/
def irq (b : Build) (status : GpioStatus) (m : App) : Option App := do
  let m :=
    if b.triack && status.zeroCross then
      zeroCrossIRQ b { m with env := { m.env with zeroCrossIntr := false } }
    else m
  if b.isStore && status.store then
    let e ← storeIRQ status.pulse status.direction m.env
    some { m with env := e }
  else some m

/-! ## The MQTT data callback -/

/-- A computation that reads a payload and keeps the indices it read. -/
abbrev Reads := StateM (List Nat)

def readData (data : Nat → UInt8) (i : Nat) : Reads UInt8 := do
  modify (· ++ [i])
  return data i

/-- The command `S` of a triac. -/
def triackCommand (b : Build) (data : Nat → UInt8) (e : Env) : Reads Env := do
  if (← readData data 0) = 83 then
    if b.triackOnOffInverse then
      if 0 < (← readData data 1) then return e.setPower 0
      else return e.setPower b.triackOnOffPuissance
    else if 0 < (← readData data 1) then
      if b.triackOnOff then return e.setPower b.triackOnOffPuissance
      else if 100 ≤ (← readData data 1) then return e.setPower Build.puissanceMax
      else
        let value ← readData data 1
        return e.setPower (value.toNat * triacScall + triacMin)
    else return e.setPower 0
  else return e

/-- The toggle `T` of a triac. -/
def triackToggle (data : Nat → UInt8) (e : Env) : Reads Env := do
  if (← readData data 0) = 84 then
    if e.puissanceTriac ≠ 0 then return e.setPower 0
    else return e.setPower Build.puissanceMax
  else return e

/-- The `TRIACK` part, for the builds without `STORE`. -/
def mqttDataTriack (b : Build) (data : Nat → UInt8) (e : Env) : Reads Env := do
  let e ← triackCommand b data e
  triackToggle data e

/-- The target for a command value. -/
def consingeOf (value : UInt8) (e : Env) : Int :=
  int32 ↑(uint32 (min value.toNat 100 * e.tSleep) / 100)

/-- Arm the watchdog for the start of the motor. -/
def startTimeout (e : Env) : Env :=
  e.setTimerTimoutStore
    ((e.timerTimoutStore.disarm.setfn .timeoutStore).arm timoutStoreStart true)

/-- The command `S` of a shutter. -/
def storeCommand (value : UInt8) (e : Env) : Env :=
  let consinge := consingeOf value e
  let delta := int32 (consinge - e.niveau)
  let e := e.setConsinge consinge
  if 0 < delta then
    (((startTimeout e).setPwm 0 0).setPwm 1 100).setPower Build.puissanceMax
  else if delta < 0 then
    (((startTimeout e).setPwm 0 100).setPwm 1 0).setPower Build.puissanceMax
  else ((e.setPwm 0 0).setPwm 1 0).setPower 0

/-- The `STORE` part. -/
def mqttDataStore (data : Nat → UInt8) (e : Env) : Reads Env := do
  if (← readData data 0) = 83 then
    let value ← readData data 1
    pure (storeCommand value e)
  else pure e

/-- The command `S` of channel `l`. -/
def pwmCommand (data : Nat → UInt8) (l : Nat) (e : Env) : Reads Env := do
  if (← readData data 0) = 83 then
    if 100 ≤ (← readData data (1 + l)) then return e.setPwm l 100
    else
      let value ← readData data (1 + l)
      return e.setPwm l value.toNat
  else return e

/-- The toggle `T` of channel `l`. The test is on the address of the array, which is never
`NULL`: the channel is switched off. -/
def pwmToggle (data : Nat → UInt8) (l : Nat) (e : Env) : Reads Env := do
  if (← readData data 0) = 84 then return e.setPwm l 0 else return e

/-- The `PWM` part, for the builds without `STORE`. -/
def mqttDataPwm (data : Nat → UInt8) (dataLen : Nat) : List Nat → Env → Reads Env
  | [], e => pure e
  | l :: ls, e =>
    if l + 1 < dataLen then do
      let e ← pwmCommand data l e
      let e ← pwmToggle data l e
      mqttDataPwm data dataLen ls e
    else pure e

/-- The `RELAY` part, after `SET_GPIO`. -/
def mqttDataRelay (data : Nat → UInt8) (e : Env) : Reads Env := do
  if (← readData data 1) ≠ 0 then return (e.setOut 13 true).setOut bitRelay true
  else return (e.setOut 13 true).setOut bitRelay false

/-- With `SLEEP` a message postpones the disconnection. -/
def restartDisconnect (b : Build) (e : Env) : Env :=
  if b.sleep then
    { e with timerDisconnectMQTT :=
        ((e.timerDisconnectMQTT.disarm).setfn .disconnectMQTT).arm 200 false }
  else e

def mqttDataCb (b : Build) (data : Nat → UInt8) (dataLen : Nat) (e : Env) : Reads Env := do
  let e := restartDisconnect b e
  let e ← (if b.triack && !b.isStore then mqttDataTriack b data e else pure e)
  let e ← (if b.pwm then
      if b.isStore then mqttDataStore data e
      else mqttDataPwm data dataLen (List.range b.nbPwm) e
    else pure e)
  if b.relay then mqttDataRelay data e else pure e

/-! ## Initialisation -/

/-- The initial values of the variables, with what `user_init` reads from flash. -/
def Env.boot (b : Build) (tSleep : Nat) (stationName : List UInt8) : Env where
  puissancePwm l := if b.isStore then 0 else if l = 0 then 100 else 0
  on _ := false
  puissanceTriac := 0
  timerTriackOn := false
  gpioOut _ := false
  zeroCrossIntr := false
  tempFromZeroCross := 0
  timer0V := {}
  niveau := 0
  consinge := 0
  niveau100 := -1
  tSleep := tSleep
  timerTimoutStore := {}
  timerDisconnectMQTT := {}
  stationName := stationName
  tli4970IsEnable := 0
  numMesure := 0
  sum := 0
  moyenPower := 0
  inputs := ⟨0, false⟩
  sent := []

/-- The part of `user_init` for `TRIACK`. -/
def initTriack (b : Build) (m : App) : App :=
  let m :=
    if b.halfSin then
      (m.timerAddCallback (20000 + 1) .zeroCross).timerAddCallback 100000 .timerDisableTriack
    else m.timerAddCallback (20000 + 1) .timerZeroCross
  let m := m.setOut bitTriac false
  { m with env := { m.env with zeroCrossIntr := true } }

/-- The part of `user_init` for `PWM`. -/
def initPwm (b : Build) (m : App) : App :=
  let m := m.timerAddCallback (100 * b.pwmScall) .timerPwm1
  if 1 < b.nbPwm then m.timerAddCallback (150 * b.pwmScall) .timerPwm2 else m

/-- `user_init`, from the state it finds after reset. -/
def userInit (b : Build) (tSleep : Nat) (stationName : List UInt8) : App :=
  let e := Env.boot b tSleep stationName
  let e := (List.range b.nbPwm).foldl (fun e l => e.setOut (b.bitPwm l) false) e
  let e := if b.relay then e.setOut bitRelay true else e
  let m : App := ⟨Timers.timerInit b.nbMaxCallbackTime b.precisionTimer, e⟩
  let m := if b.triack then initTriack b m else m
  let m := if b.pwm then initPwm b m else m
  let m : App := if b.detect0V then
    { m with env := { m.env with timer0V := m.env.timer0V.disarm.setfn .noZeroCross } } else m
  if b.tli4970Enable then
    let m : App := { m with env := tli4970Disable m.env }
    m.timerAddCallback 500 .timerMesureSampleAdc
  else m

/-! ## The transition system -/

inductive Event where
  | tick (io : Inputs)
  | irq (status : GpioStatus)
  | mqttData (data : Nat → UInt8) (dataLen : Nat)
  | timeoutStore

/-- One handler runs to its end. -/
def step (b : Build) (m : App) : Event → Option App
  | .tick io => some (tick b io m).1
  | .irq status => irq b status m
  | .mqttData data dataLen =>
    some { m with env := (mqttDataCb b data dataLen m.env []).1 }
  | .timeoutStore =>
    if b.isStore then do
      let e ← timeoutStore m.env
      some { m with env := e }
    else none

/-- The message with these bytes, followed by zeros in memory. -/
def Event.message (bytes : List UInt8) : Event :=
  .mqttData (fun i => bytes.getD i 0) bytes.length

/-- The runs of the application. -/
abbrev AppRun (b : Build) (m : App) (es : List Event) (m' : App) : Prop :=
  Run (fun m e m' => step b m e = some m') m es m'

/-- The number of ticks of the soft timer. -/
def ticks : List Event → Nat
  | [] => 0
  | .tick _ :: es => ticks es + 1
  | _ :: es => ticks es

theorem ticks_append (es es' : List Event) : ticks (es ++ es') = ticks es + ticks es' := by
  induction es with
  | nil => simp [ticks]
  | cons ev es ih =>
    cases ev with
    | tick => simp only [List.cons_append, ticks, ih]; omega
    | irq | mqttData | timeoutStore => exact ih

end Domotic
