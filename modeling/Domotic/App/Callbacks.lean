import Domotic.App.State

/-!
# The soft-timer callbacks

The functions that `timer_tim1_intr_handler` calls through the table. Debug prints, and the
clearing of the pending bits in the GPIO status register, have no counterpart in the state:
an interrupt may be raised after any step.
-/
namespace Domotic
open Library

/-- `tab_sin` of `sin.h`: forty samples of the mains voltage, one for each half millisecond. -/
def tabSin : Vector Int 40 := #v[0, 50, 100, 147, 191, 229, 263, 289, 309, 321, 325, 321, 309,
  289, 263, 229, 191, 147, 100, 50, 0, -50, -100, -147, -191, -229, -263, -289, -309, -321,
  -325, -321, -309, -289, -263, -229, -191, -147, -100, -50]

def nbMesureAdcBeforSend : Nat := 2000

def bitTli : Nat := 2

/-- `gpio16_output_set`: the level of GPIO 16, which has a register of its own. -/
def gpio16 : Nat := 16

/-- `TLI4970_get_curent`: zero while the high bit of the reply is set, else the 13-bit
reading around `0x1000` times 12.5. -/
def tli4970GetCurent (reply : UInt16) : Int :=
  if 32768 ≤ reply.toNat then 0 else Int.tdiv (((reply.toNat % 8192 : Nat) - 4096) * 25) 2

def tli4970Enable (e : Env) : Env := (e.setOut gpio16 false).setOut bitTli true

def tli4970Disable (e : Env) : Env := (e.setOut bitTli false).setOut gpio16 true

/-- The value measured in this sample, and the state of the sensor after it. -/
def mesure (e : Env) : Int × Env :=
  if e.tli4970IsEnable ≠ 0 then
    if e.tli4970IsEnable = 2 then
      (tli4970GetCurent e.inputs.reply, (e.setOut bitTli false).setOut bitTli true)
    else (0, { e with tli4970IsEnable := 2 })
  else (0, tli4970Disable e)

def stationNameSet (e : Env) : Bool := e.stationName.headD 0 ≠ 0

def timerMesureSampleAdc (m : App) : App :=
  if stationNameSet m.env && m.env.inputs.mqttIsConected then
    let (val, e) := mesure m.env
    let t := if 40 ≤ (e.tempFromZeroCross + 1) % 4294967296 then 0
      else (e.tempFromZeroCross + 1) % 4294967296
    let sum := int32 (e.sum + int32 (val * tabSin.toList.getD t 0))
    let e := { e with tempFromZeroCross := t, sum := sum, numMesure := e.numMesure + 1 }
    { m with env :=
        if nbMesureAdcBeforSend ≤ e.numMesure then
          { e with moyenPower := Int.tdiv e.sum nbMesureAdcBeforSend, numMesure := 0, sum := 0 }
        else e }
  else m

/-- `timerPwm1` and `timerPwm2`: the channel `n`, whose callback is `self`. -/
def timerPwm (b : Build) (n : Nat) (self : CallBack) (m : App) : App :=
  let p := m.env.puissancePwm n
  let scall := if 90 < p ∨ p < 10 then b.pwmScallSlow else b.pwmScall
  if p < 2 then (m.setOut (b.bitPwm n) false).timerChange 10000 self
  else if 98 < p then (m.setOut (b.bitPwm n) true).timerChange 10000 self
  else if m.env.on n then
    let m : App := { m with env := { m.env with on := Function.update m.env.on n false } }
    (m.setOut (b.bitPwm n) false).timerChange ((100 - p) * scall) self
  else
    let m : App := { m with env := { m.env with on := Function.update m.env.on n true } }
    (m.setOut (b.bitPwm n) true).timerChange (p * scall) self

def timerPwm1 (b : Build) : App → App := timerPwm b 0 .timerPwm1

def timerPwm2 (b : Build) : App → App := timerPwm b 1 .timerPwm2

/-- The callback of channel `n`. -/
def pwmCallBack (n : Nat) : CallBack := if n = 0 then .timerPwm1 else .timerPwm2

def timerEnableTriack (m : App) : App := m.setOut bitTriac true

def timerDisableTriack (m : App) : App :=
  (m.setOut bitTriac false).timerChange 1000000 .timerDisableTriack

/-- The part of `ZeroCross` that switches the current sensor. -/
def zeroCrossTli (e : Env) : Env :=
  if 0 < e.puissanceTriac then
    if e.tli4970IsEnable = 0 then { tli4970Enable e with tli4970IsEnable := 1 } else e
  else { e with tli4970IsEnable := 0 }

/-- `if(timer_triack_on)` the delayed gate pulse is taken out of the table. -/
def removeEnableTriack (m : App) : App :=
  if m.env.timerTriackOn then
    let m := m.timerRemoveCallback .timerEnableTriack
    { m with env := { m.env with timerTriackOn := false } }
  else m

/-- The gate pulse comes `delay` microseconds after the zero crossing. -/
def delayEnableTriack (m : App) (delay : Nat) : App :=
  if m.env.timerTriackOn then m.timerChange delay .timerEnableTriack
  else
    let m := m.timerAddCallback delay .timerEnableTriack
    { m with env := { m.env with timerTriackOn := true } }

def zeroCross (b : Build) (m : App) : App :=
  if b.halfSin then
    let m := if 0 < m.env.puissanceTriac then m.setOut bitTriac true else m
    (m.timerChange 9000 .timerDisableTriack).timerChange 100000 .zeroCross
  else
    let m : App := if b.tli4970Enable then { m with env := zeroCrossTli m.env } else m
    if Build.puissanceMax ≤ m.env.puissanceTriac then
      (removeEnableTriack m).setOut bitTriac true
    else if 0 < m.env.puissanceTriac then
      delayEnableTriack (m.setOut bitTriac false) (uint32 (10000 - m.env.puissanceTriac))
    else (removeEnableTriack m).setOut bitTriac false

/-- Enable the interrupt of the pin again and simulate the second zero crossing. -/
def timerZeroCross (b : Build) (m : App) : App :=
  let m : App := { m with env := { m.env with zeroCrossIntr := true } }
  zeroCross b (m.timerChange 10000 .timerZeroCross)

/-- What the table calls. -/
def callBack (b : Build) : CallBack → App → App
  | .timerZeroCross => timerZeroCross b
  | .zeroCross => zeroCross b
  | .timerDisableTriack => timerDisableTriack
  | .timerEnableTriack => timerEnableTriack
  | .timerPwm1 => timerPwm1 b
  | .timerPwm2 => timerPwm2 b
  | .timerMesureSampleAdc => timerMesureSampleAdc

/-- One tick of the hardware timer, with the callbacks it calls. -/
def tick (b : Build) (io : Inputs) (m : App) : App × List CallBack :=
  let m : App := { m with env := { m.env with inputs := io } }
  m.timerTim1IntrHandler (callBack b)

end Domotic
