import Domotic.App.Handlers

/-!
# What the soft timers leave alone

The commands, the shutter position and its watchdog belong to the handlers: no soft-timer
callback and no zero crossing changes them. `Env.control` collects these variables, so that
a property of them needs no argument about the timer table.
-/
namespace Domotic
open Library

/-- The variables that only the handlers write. -/
structure Control where
  puissancePwm : Nat → Nat
  puissanceTriac : Int
  niveau : Int
  consinge : Int
  niveau100 : Int
  tSleep : Nat
  timerTimoutStore : OsTimer
  stationName : List UInt8
  sent : List SensorReport

def Env.control (e : Env) : Control :=
  ⟨e.puissancePwm, e.puissanceTriac, e.niveau, e.consinge, e.niveau100, e.tSleep,
    e.timerTimoutStore, e.stationName, e.sent⟩

theorem mesure_control (e : Env) : (mesure e).2.control = e.control := by
  unfold mesure
  split_ifs <;> rfl

theorem timerMesureSampleAdc_control (m : App) :
    (timerMesureSampleAdc m).env.control = m.env.control := by
  unfold timerMesureSampleAdc
  have keep := mesure_control m.env
  split
  · dsimp only
    split <;> exact keep
  · rfl

theorem timerPwm_control (b : Build) (n : Nat) (c : CallBack) (m : App) :
    (timerPwm b n c m).env.control = m.env.control := by
  unfold timerPwm
  dsimp only
  split_ifs <;> rfl

@[simp] theorem removeEnableTriack_control (m : App) :
    (removeEnableTriack m).env.control = m.env.control := by
  unfold removeEnableTriack
  split <;> rfl

@[simp] theorem delayEnableTriack_control (m : App) (delay : Nat) :
    (delayEnableTriack m delay).env.control = m.env.control := by
  unfold delayEnableTriack
  split <;> rfl

theorem zeroCrossTli_control (e : Env) : (zeroCrossTli e).control = e.control := by
  unfold zeroCrossTli
  split_ifs <;> rfl

@[simp] theorem setOut_control (e : Env) (pin : Nat) (level : Bool) :
    (e.setOut pin level).control = e.control := rfl

/-- The part of `ZeroCross` that switches the current sensor, in the builds that have one. -/
def switchTli (b : Build) (e : Env) : Env := if b.tli4970Enable then zeroCrossTli e else e

theorem switchTli_control (b : Build) (e : Env) : (switchTli b e).control = e.control := by
  unfold switchTli
  split
  · exact zeroCrossTli_control e
  · rfl

theorem switchTli_timerTriackOn (b : Build) (e : Env) :
    (switchTli b e).timerTriackOn = e.timerTriackOn := by
  unfold switchTli zeroCrossTli tli4970Enable
  split_ifs <;> rfl

/-- `ZeroCross` on half waves. -/
theorem zeroCross_half {b : Build} (half : b.halfSin = true) (m : App) : zeroCross b m =
    ((if 0 < m.env.puissanceTriac then m.setOut bitTriac true else m).timerChange 9000
      .timerDisableTriack).timerChange 100000 .zeroCross := by
  unfold zeroCross
  rw [if_pos half]

/-- `ZeroCross` on whole waves. -/
theorem zeroCross_whole {b : Build} (whole : ¬ b.halfSin = true) (m : App) : zeroCross b m =
    if Build.puissanceMax ≤ m.env.puissanceTriac then
      (removeEnableTriack ⟨m.timers, switchTli b m.env⟩).setOut bitTriac true
    else if 0 < m.env.puissanceTriac then
      delayEnableTriack (App.setOut ⟨m.timers, switchTli b m.env⟩ bitTriac false)
        (uint32 (10000 - m.env.puissanceTriac))
    else (removeEnableTriack ⟨m.timers, switchTli b m.env⟩).setOut bitTriac false := by
  have switched : (if b.tli4970Enable then { m with env := zeroCrossTli m.env } else m : App) =
      ⟨m.timers, switchTli b m.env⟩ := by
    unfold switchTli
    split <;> rfl
  have power : (switchTli b m.env).puissanceTriac = m.env.puissanceTriac :=
    congrArg Control.puissanceTriac (switchTli_control b m.env)
  unfold zeroCross
  rw [if_neg whole]
  dsimp only
  rw [switched, power]

theorem zeroCross_control (b : Build) (m : App) :
    (zeroCross b m).env.control = m.env.control := by
  by_cases half : b.halfSin = true
  · rw [zeroCross_half half]
    split <;> rfl
  · rw [zeroCross_whole half]
    split_ifs <;> simp [switchTli_control]

theorem callBack_control (b : Build) (c : CallBack) (m : App) :
    (callBack b c m).env.control = m.env.control := by
  cases c with
  | timerZeroCross => exact zeroCross_control b _
  | zeroCross => exact zeroCross_control b m
  | timerDisableTriack | timerEnableTriack => rfl
  | timerPwm1 | timerPwm2 => exact timerPwm_control b _ _ m
  | timerMesureSampleAdc => exact timerMesureSampleAdc_control m

theorem tickSlot_control (b : Build) (m : App) (l : Nat) :
    (m.tickSlot (callBack b) l).1.env.control = m.env.control := by
  obtain ⟨step, -⟩ | ⟨s, c, -, -, -, step⟩ | ⟨s, c, -, -, -, step⟩ :=
    Timed.tickSlot_cases (callBack b) m l <;> rw [step]
  · rfl
  · exact callBack_control b c _

/-- A property of the machine that every round of the loop keeps is kept by a tick. -/
theorem tick_keeps (b : Build) (io : Inputs) {I : App → Prop}
    (keep : ∀ m l, I m → I (m.tickSlot (callBack b) l).1) (m : App)
    (h : I { m with env := { m.env with inputs := io } }) : I (tick b io m).1 :=
  Timed.tick_invariant keep h

/-- A tick changes no variable of the handlers. -/
theorem tick_control (b : Build) (io : Inputs) (m : App) :
    (tick b io m).1.env.control = m.env.control :=
  tick_keeps b io (I := fun m' => m'.env.control = m.env.control)
    (fun m' l h => (tickSlot_control b m' l).trans h) m rfl

theorem zeroCrossIRQ_control (b : Build) (m : App) :
    (zeroCrossIRQ b m).env.control = m.env.control := by
  unfold zeroCrossIRQ
  dsimp only
  split_ifs <;> rfl

/-! ## What the handlers leave alone -/

/-- Every value that the computation can return satisfies `P`. -/
def Reads.Ensures {α : Type} (r : Reads α) (P : α → Prop) : Prop :=
  ∀ log, P (r log).1

theorem Reads.ensures_pure {α : Type} {P : α → Prop} {a : α} (h : P a) :
    Reads.Ensures (Pure.pure a) P := fun _ => h

theorem Reads.ensures_bind {α β : Type} {P : β → Prop} {r : Reads α} {f : α → Reads β}
    (h : ∀ a, (f a).Ensures P) : Reads.Ensures (r >>= f) P := fun log => h (r log).1 (r log).2

theorem Reads.ensures_read {α : Type} {P : α → Prop} {data : Nat → UInt8} {f : UInt8 → Reads α}
    {i : Nat} (h : (f (data i)).Ensures P) : Reads.Ensures (readData data i >>= f) P := fun _ => h _

theorem Reads.ensures_seq {α β : Type} {P : β → Prop} {Q : α → Prop} {r : Reads α}
    {f : α → Reads β} (first : r.Ensures Q) (h : ∀ a, Q a → (f a).Ensures P) :
    Reads.Ensures (r >>= f) P := fun log => h (r log).1 (first log) (r log).2

theorem Reads.ensures_ite {α : Type} {P : α → Prop} {c : Prop} [Decidable c] {r r' : Reads α}
    (h : r.Ensures P) (h' : r'.Ensures P) : Reads.Ensures (if c then r else r') P := by
  split
  · exact h
  · exact h'

/-- The variables that, in a build without relay, only the soft timers and the zero crossing
write. -/
structure Outputs where
  gpioOut : Nat → Bool
  on : Nat → Bool
  timerTriackOn : Bool
  zeroCrossIntr : Bool

def Env.outputs (e : Env) : Outputs := ⟨e.gpioOut, e.on, e.timerTriackOn, e.zeroCrossIntr⟩

@[simp] theorem setPwm_outputs (e : Env) (l p : Nat) : (e.setPwm l p).outputs = e.outputs := rfl
@[simp] theorem setPower_outputs (e : Env) (p : Int) : (e.setPower p).outputs = e.outputs := rfl
@[simp] theorem setConsinge_outputs (e : Env) (target : Int) :
    (e.setConsinge target).outputs = e.outputs := rfl
@[simp] theorem setNiveau_outputs (e : Env) (n : Int) : (e.setNiveau n).outputs = e.outputs := rfl
@[simp] theorem setTimerTimoutStore_outputs (e : Env) (t : OsTimer) :
    (e.setTimerTimoutStore t).outputs = e.outputs := rfl
@[simp] theorem report_outputs (e : Env) (n : Int) (sent : List SensorReport) :
    (e.report n sent).outputs = e.outputs := rfl
@[simp] theorem startTimeout_outputs (e : Env) : (startTimeout e).outputs = e.outputs := rfl

/-! ### The shutter handlers -/

@[simp] theorem regulateDown_outputs (delta : Int) (e : Env) :
    (regulateDown delta e).outputs = e.outputs := by
  unfold regulateDown
  split_ifs <;> simp

@[simp] theorem regulateUp_outputs (delta : Int) (e : Env) :
    (regulateUp delta e).outputs = e.outputs := by
  unfold regulateUp
  split_ifs <;> simp

@[simp] theorem resetTimeout_outputs (e : Env) : (resetTimeout e).outputs = e.outputs := rfl

@[simp] theorem countPulse_outputs (up : Bool) (e : Env) :
    (countPulse up e).outputs = e.outputs := by
  unfold countPulse
  dsimp only
  split_ifs <;> simp

/-- A report writes the cached percentage and the list of reports. -/
theorem reportNiveau_eq {e e' : Env} (h : reportNiveau e = some e') :
    ∃ n sent, e' = e.report n sent := by
  unfold reportNiveau at h
  obtain ⟨temp, -, h⟩ := Option.bind_eq_some_iff.mp h
  dsimp only at h
  generalize (if 100 < temp then (100 : Int) else if temp < 0 then 0 else temp) = n at h
  split at h
  · obtain rfl := Option.some.inj h
    obtain ⟨sent, eq⟩ := (e.report n e.sent).sendPaquetSensor_eq "/sensors/switch/" .switch n false
      (some "_MsenS_")
    exact ⟨n, sent, eq⟩
  · obtain rfl := Option.some.inj h
    exact ⟨e.niveau100, e.sent, rfl⟩

/-- What `storeIRQ` does: it regulates the duties and, on a pulse, counts and reports. -/
theorem storeIRQ_eq {pulse direction : Bool} {e e' : Env}
    (h : storeIRQ pulse direction e = some e') :
    ∃ r n sent, r = regulateUp (int32 (e.consinge - e.niveau))
        (regulateDown (int32 (e.consinge - e.niveau)) e) ∧
      ((pulse = true ∧ e' = r) ∨
        pulse = false ∧ e' = (countPulse (!direction) r).report n sent) := by
  unfold storeIRQ at h
  cases pulse with
  | true => exact ⟨_, 0, [], rfl, .inl ⟨rfl, (Option.some.inj h).symm⟩⟩
  | false =>
    obtain ⟨n, sent, eq⟩ := reportNiveau_eq h
    exact ⟨_, n, sent, rfl, .inr ⟨rfl, eq⟩⟩

theorem storeIRQ_outputs {pulse direction : Bool} {e e' : Env}
    (h : storeIRQ pulse direction e = some e') : e'.outputs = e.outputs := by
  obtain ⟨r, n, sent, rfl, ⟨-, rfl⟩ | ⟨-, rfl⟩⟩ := storeIRQ_eq h <;> simp

/-- What the watchdog does: it stops the motor and reports. -/
theorem timeoutStore_eq {e e' : Env} (h : timeoutStore e = some e') :
    ∃ n sent, e' =
      ((stopMotor (e.setTimerTimoutStore e.timerTimoutStore.disarm)).setPower 0).report n sent := by
  unfold timeoutStore at h
  obtain ⟨p, -, h⟩ := Option.bind_eq_some_iff.mp h
  obtain rfl := Option.some.inj h
  obtain ⟨sent, eq⟩ := Env.sendPaquetSensor_eq _ "/sensors/switch/" .switch _ false (some "_MsenS_")
  exact ⟨_, sent, eq⟩

@[simp] theorem stopMotor_outputs (e : Env) : (stopMotor e).outputs = e.outputs := by
  unfold stopMotor
  dsimp only
  split_ifs <;> simp

theorem timeoutStore_outputs {e e' : Env} (h : timeoutStore e = some e') :
    e'.outputs = e.outputs := by
  obtain ⟨n, sent, rfl⟩ := timeoutStore_eq h
  simp

/-! ### What a step runs -/

theorem ticks_snoc_tick (es : List Event) (io : Inputs) : ticks (es ++ [.tick io]) = ticks es + 1 :=
  ticks_append es [.tick io]

theorem ticks_snoc_quiet (es : List Event) {ev : Event} (quiet : ∀ io, ev ≠ .tick io) :
    ticks (es ++ [ev]) = ticks es := by
  rw [ticks_append]
  cases ev with
  | tick io => exact absurd rfl (quiet io)
  | irq | mqttData | timeoutStore => rfl

/-- The machine after the part of `IRQ` for the zero-cross pin. -/
def afterCrossing (b : Build) (status : GpioStatus) (m : App) : App :=
  if b.triack && status.zeroCross then
    zeroCrossIRQ b { m with env := { m.env with zeroCrossIntr := false } }
  else m

/-- The part of `IRQ` for the shutter pin runs after it, where it is raised. -/
theorem irq_cases {b : Build} {status : GpioStatus} {m m' : App} (h : irq b status m = some m') :
    (¬ (b.isStore && status.store) = true ∧ m' = afterCrossing b status m) ∨
    ((b.isStore && status.store) = true ∧ ∃ e,
      storeIRQ status.pulse status.direction (afterCrossing b status m).env = some e ∧
        m' = { afterCrossing b status m with env := e }) := by
  have h : (if b.isStore && status.store then
      (storeIRQ status.pulse status.direction (afterCrossing b status m).env).bind fun e =>
        some { afterCrossing b status m with env := e }
      else some (afterCrossing b status m)) = some m' := h
  split at h
  · rename_i store
    obtain ⟨e, run, eq⟩ := Option.bind_eq_some_iff.mp h
    exact .inr ⟨store, e, run, (Option.some.inj eq).symm⟩
  · rename_i store
    exact .inl ⟨store, (Option.some.inj h).symm⟩

theorem timeoutStore_step {b : Build} {m m' : App} (h : step b m .timeoutStore = some m') :
    ∃ e, timeoutStore m.env = some e ∧ m' = { m with env := e } := by
  simp only [step, Option.bind_eq_bind] at h
  split at h
  · obtain ⟨e, run, eq⟩ := Option.bind_eq_some_iff.mp h
    exact ⟨e, run, (Option.some.inj eq).symm⟩
  · cases h

/-! ### Messages -/

section message
variable (b : Build) (data : Nat → UInt8) (dataLen : Nat)
open Reads

theorem mqttDataTriack_outputs (e : Env) :
    (mqttDataTriack b data e).Ensures fun e' => e'.outputs = e.outputs := by
  have command : (triackCommand b data e).Ensures fun e' => e'.outputs = e.outputs := by
    refine ensures_bind fun _ => ensures_ite ?_ (ensures_pure rfl)
    refine ensures_ite ?_ (ensures_bind fun _ => ensures_ite ?_ (ensures_pure rfl))
    · exact ensures_bind fun _ => ensures_ite (ensures_pure rfl) (ensures_pure rfl)
    · refine ensures_ite (ensures_pure rfl) (ensures_bind fun _ => ?_)
      exact ensures_ite (ensures_pure rfl) (ensures_bind fun _ => ensures_pure rfl)
  refine ensures_seq command fun e' same => ensures_bind fun _ => ?_
  exact ensures_ite (ensures_ite (ensures_pure same) (ensures_pure same)) (ensures_pure same)

theorem mqttDataPwm_outputs (ls : List Nat) (e : Env) :
    (mqttDataPwm data dataLen ls e).Ensures fun e' => e'.outputs = e.outputs := by
  induction ls generalizing e with
  | nil => exact ensures_pure rfl
  | cons l ls ih =>
    have command : (pwmCommand data l e).Ensures fun e' => e'.outputs = e.outputs := by
      refine ensures_bind fun _ => ensures_ite (ensures_bind fun _ => ?_) (ensures_pure rfl)
      exact ensures_ite (ensures_pure rfl) (ensures_bind fun _ => ensures_pure rfl)
    have toggle : ∀ e' : Env, e'.outputs = e.outputs →
        (pwmToggle data l e').Ensures fun e' => e'.outputs = e.outputs := fun e' same =>
      ensures_bind fun _ => ensures_ite (ensures_pure same) (ensures_pure same)
    refine ensures_ite ?_ (ensures_pure rfl)
    exact ensures_seq command fun e' same =>
      ensures_seq (toggle e' same) fun e'' same' => same' ▸ ih e''

/-- The three outcomes of a command, by the sign of the distance to the target. -/
theorem storeCommand_cases (value : UInt8) (e : Env) :
    let delta := int32 (consingeOf value e - e.niveau)
    let t := e.setConsinge (consingeOf value e)
    (0 < delta ∧ storeCommand value e =
      (((startTimeout t).setPwm 0 0).setPwm 1 100).setPower Build.puissanceMax) ∨
    (delta < 0 ∧ storeCommand value e =
      (((startTimeout t).setPwm 0 100).setPwm 1 0).setPower Build.puissanceMax) ∨
    (delta = 0 ∧ storeCommand value e = ((t.setPwm 0 0).setPwm 1 0).setPower 0) := by
  unfold storeCommand
  dsimp only
  by_cases up : 0 < int32 (consingeOf value e - e.niveau)
  · refine .inl ⟨up, ?_⟩
    rw [if_pos up]
  · by_cases down : int32 (consingeOf value e - e.niveau) < 0
    · refine .inr (.inl ⟨down, ?_⟩)
      rw [if_neg up, if_pos down]
    · refine .inr (.inr ⟨by omega, ?_⟩)
      rw [if_neg up, if_neg down]

theorem storeCommand_outputs (value : UInt8) (e : Env) :
    (storeCommand value e).outputs = e.outputs := by
  obtain ⟨-, eq⟩ | ⟨-, eq⟩ | ⟨-, eq⟩ := storeCommand_cases value e <;> rw [eq] <;> simp

/-- In a build without relay a message leaves the outputs to the soft timers. -/
theorem mqttDataCb_outputs (norelay : b.relay = false) (e : Env) :
    (mqttDataCb b data dataLen e).Ensures fun e' => e'.outputs = e.outputs := by
  have sleep : (restartDisconnect b e).outputs = e.outputs := by
    unfold restartDisconnect
    split <;> rfl
  have triack : ∀ e' : Env, e'.outputs = e.outputs →
      Reads.Ensures (if b.triack && !b.isStore then mqttDataTriack b data e' else pure e')
        fun e' => e'.outputs = e.outputs := fun e' same =>
    ensures_ite (same ▸ mqttDataTriack_outputs b data e') (ensures_pure same)
  have pwm : ∀ e' : Env, e'.outputs = e.outputs →
      Reads.Ensures (if b.pwm then
          if b.isStore then mqttDataStore data e'
          else mqttDataPwm data dataLen (List.range b.nbPwm) e'
        else pure e') fun e' => e'.outputs = e.outputs := by
    intro e' same
    refine ensures_ite (ensures_ite ?_ (same ▸ mqttDataPwm_outputs data dataLen _ e')) ?_
    · refine ensures_bind fun _ => ensures_ite (ensures_bind fun _ => ?_) (ensures_pure same)
      exact ensures_pure ((storeCommand_outputs _ e').trans same)
    · exact ensures_pure same
  refine ensures_seq (triack _ sleep) fun e' same => ensures_seq (pwm e' same) fun e'' same' => ?_
  rw [norelay]
  exact ensures_pure same'

/-- A step is a tick, or a zero crossing, or leaves the table and the outputs alone. -/
theorem step_cases {b : Build} {m m' : App} {ev : Event} (norelay : b.relay = false)
    (h : step b m ev = some m') :
    (∃ io, ev = .tick io ∧ m' = (tick b io m).1) ∨
    (∃ status, ev = .irq status ∧ (b.triack && status.zeroCross) = true ∧
      m'.timers = (zeroCrossIRQ b m).timers ∧
      m'.env.outputs = { m.env.outputs with zeroCrossIntr := false }) ∨
    ((∀ status, ev = .irq status → (b.triack && status.zeroCross) = false) ∧
      (∀ io, ev ≠ .tick io) ∧ m'.timers = m.timers ∧ m'.env.outputs = m.env.outputs) := by
  cases ev with
  | tick io => exact .inl ⟨io, rfl, (Option.some.inj h).symm⟩
  | irq status =>
    have crossing :
        (zeroCrossIRQ b { m with env := { m.env with zeroCrossIntr := false } }).timers =
          (zeroCrossIRQ b m).timers ∧
        (zeroCrossIRQ b { m with env := { m.env with zeroCrossIntr := false } }).env.outputs =
          { m.env.outputs with zeroCrossIntr := false } := by
      unfold zeroCrossIRQ
      split_ifs <;> exact ⟨rfl, rfl⟩
    have shutter : m'.timers = (afterCrossing b status m).timers ∧
        m'.env.outputs = (afterCrossing b status m).env.outputs := by
      obtain ⟨-, rfl⟩ | ⟨-, e, run, rfl⟩ := irq_cases h
      · exact ⟨rfl, rfl⟩
      · exact ⟨rfl, storeIRQ_outputs run⟩
    obtain ⟨timers, outputs⟩ := shutter
    unfold afterCrossing at timers outputs
    by_cases zero : (b.triack && status.zeroCross) = true
    · rw [if_pos zero] at timers outputs
      exact .inr (.inl ⟨status, rfl, zero, timers.trans crossing.1, outputs.trans crossing.2⟩)
    · rw [if_neg zero] at timers outputs
      exact .inr (.inr ⟨fun _ eq => by cases eq; simpa using zero, by simp, timers, outputs⟩)
  | mqttData data dataLen =>
    obtain rfl := Option.some.inj h
    exact .inr (.inr ⟨by simp, by simp, rfl, mqttDataCb_outputs b data dataLen norelay m.env []⟩)
  | timeoutStore =>
    obtain ⟨e, run, rfl⟩ := timeoutStore_step h
    exact .inr (.inr ⟨by simp, by simp, rfl, timeoutStore_outputs run⟩)

end message

/-! ## The message handler of a shutter -/

theorem mqttDataCb_store (data : Nat → UInt8) (dataLen : Nat) (e : Env) (log : List Nat) :
    mqttDataCb .store data dataLen e log =
      if data 0 = 83 then (storeCommand (data 1) e, log ++ [0] ++ [1]) else (e, log ++ [0]) := by
  have read : mqttDataCb .store data dataLen e log =
      (if data 0 = 83 then (do let value ← readData data 1; pure (storeCommand value e) : Reads Env)
        else pure e) (log ++ [0]) := rfl
  rw [read]
  split <;> rfl

/-- The events of a shutter build that run a handler of the motor. -/
def MotorEvent : Event → Prop
  | .tick _ => False
  | .irq status => status.store = true
  | .mqttData data _ => data 0 = 83
  | .timeoutStore => True

/-- A step of a shutter build leaves the handlers' variables alone or is the run of one
handler on them. -/
theorem store_step_cases {m m' : App} {ev : Event} (h : step .store m ev = some m') :
    (¬ MotorEvent ev ∧ m'.env.control = m.env.control) ∨
    (∃ status e, ev = .irq status ∧ status.store = true ∧ e.control = m.env.control ∧
      storeIRQ status.pulse status.direction e = some m'.env) ∨
    (∃ data dataLen, ev = .mqttData data dataLen ∧ data 0 = 83 ∧
      m' = { m with env := storeCommand (data 1) m.env }) ∨
    (ev = .timeoutStore ∧ timeoutStore m.env = some m'.env) := by
  cases ev with
  | tick io =>
    obtain rfl := Option.some.inj h
    exact .inl ⟨id, tick_control .store io m⟩
  | irq status =>
    have keep : (afterCrossing .store status m).env.control = m.env.control := by
      unfold afterCrossing
      split
      · exact zeroCrossIRQ_control .store _
      · rfl
    obtain ⟨idle, rfl⟩ | ⟨store, e, run, rfl⟩ := irq_cases h
    · exact .inl ⟨idle, keep⟩
    · exact .inr (.inl ⟨status, _, rfl, store, keep, run⟩)
  | mqttData data dataLen =>
    obtain rfl := Option.some.inj h
    rw [mqttDataCb_store]
    by_cases command : data 0 = 83
    · exact .inr (.inr (.inl ⟨data, dataLen, rfl, command, by simp [command]⟩))
    · exact .inl ⟨command, by simp [command]⟩
  | timeoutStore =>
    obtain ⟨e, run, rfl⟩ := timeoutStore_step h
    exact .inr (.inr (.inr ⟨rfl, run⟩))

end Domotic
