import Domotic.App.Slots
import Domotic.Store.Duty
import Domotic.Timer.Calls

/-!
# The periods that the application sets

The calls each callback makes, as a function of the variables it reads. The periods come from the
commanded power through a scale of the build; in every reachable state they are at least one tick,
so that no counter is reloaded with zero and steps past it.
-/
namespace Domotic
open Library

/-! ## The calls -/

/-- `timerPwm1` and `timerPwm2` -/
def timerPwmCalls (b : Build) (n : Nat) (self : CallBack) (e : Env) : List (TimerCall CallBack) :=
  let p := e.puissancePwm n
  let scall := if 90 < p ∨ p < 10 then b.pwmScallSlow else b.pwmScall
  if p < 2 then [.change 10000 self]
  else if 98 < p then [.change 10000 self]
  else if e.on n then [.change ((100 - p) * scall) self]
  else [.change (p * scall) self]

/-- The calls of `removeEnableTriack`. -/
def removeEnableTriackCalls (e : Env) : List (TimerCall CallBack) :=
  if e.timerTriackOn then [.remove .timerEnableTriack] else []

/-- The calls of `delayEnableTriack`. -/
def delayEnableTriackCalls (e : Env) (delay : Nat) : List (TimerCall CallBack) :=
  if e.timerTriackOn then [.change delay .timerEnableTriack] else [.add delay .timerEnableTriack]

def zeroCrossCalls (b : Build) (e : Env) : List (TimerCall CallBack) :=
  if b.halfSin then [.change 9000 .timerDisableTriack, .change 100000 .zeroCross]
  else if Build.puissanceMax ≤ e.puissanceTriac then removeEnableTriackCalls e
  else if 0 < e.puissanceTriac then delayEnableTriackCalls e (uint32 (10000 - e.puissanceTriac))
  else removeEnableTriackCalls e

/-- The calls that a callback makes. -/
def callBackCalls (b : Build) : CallBack → Env → List (TimerCall CallBack)
  | .timerZeroCross, e => .change 10000 .timerZeroCross :: zeroCrossCalls b e
  | .zeroCross, e => zeroCrossCalls b e
  | .timerDisableTriack, _ => [.change 1000000 .timerDisableTriack]
  | .timerEnableTriack, _ => []
  | .timerPwm1, e => timerPwmCalls b 0 .timerPwm1 e
  | .timerPwm2, e => timerPwmCalls b 1 .timerPwm2 e
  | .timerMesureSampleAdc, _ => []

def zeroCrossIRQCalls (b : Build) : List (TimerCall CallBack) :=
  if b.halfSinPos then [.change 9800 .zeroCross]
  else if b.halfSinNeg then [.change 19800 .zeroCross]
  else [.change 9800 .timerZeroCross]

def userInitCalls (b : Build) : List (TimerCall CallBack) :=
  (if b.triack then
    if b.halfSin then [.add (20000 + 1) .zeroCross, .add 100000 .timerDisableTriack]
    else [.add (20000 + 1) .timerZeroCross]
  else []) ++
  (if b.pwm then
    .add (100 * b.pwmScall) .timerPwm1 ::
      if 1 < b.nbPwm then [.add (150 * b.pwmScall) .timerPwm2] else []
  else []) ++
  if b.tli4970Enable then [.add 500 .timerMesureSampleAdc] else []

/-! ## They are what happens to the table -/

variable {b : Build} {m : App}

theorem timerPwm_calls (n : Nat) (self : CallBack) :
    (timerPwm b n self m).timers = m.timers.execs (timerPwmCalls b n self m.env) := by
  unfold timerPwm timerPwmCalls
  dsimp only
  split_ifs <;> rfl

theorem removeEnableTriack_calls :
    (removeEnableTriack m).timers = m.timers.execs (removeEnableTriackCalls m.env) := by
  unfold removeEnableTriack removeEnableTriackCalls
  split <;> rfl

theorem delayEnableTriack_calls (delay : Nat) :
    (delayEnableTriack m delay).timers = m.timers.execs (delayEnableTriackCalls m.env delay) := by
  unfold delayEnableTriack delayEnableTriackCalls
  split <;> rfl

theorem zeroCross_calls : (zeroCross b m).timers = m.timers.execs (zeroCrossCalls b m.env) := by
  unfold zeroCrossCalls
  by_cases half : b.halfSin = true
  · rw [zeroCross_half half, if_pos half]
    split <;> rfl
  · have remove : (removeEnableTriack ⟨m.timers, switchTli b m.env⟩).timers =
        m.timers.execs (removeEnableTriackCalls m.env) := by
      rw [removeEnableTriack_calls, removeEnableTriackCalls, removeEnableTriackCalls,
        switchTli_timerTriackOn]
    rw [zeroCross_whole half, if_neg half]
    split_ifs
    · exact remove
    · rw [delayEnableTriack_calls, delayEnableTriackCalls, delayEnableTriackCalls, App.setOut_env,
        Env.setOut_timerTriackOn, switchTli_timerTriackOn, App.setOut_timers]
    · exact remove

/-- A callback acts on the table through its calls only. -/
theorem callBack_calls (c : CallBack) :
    (callBack b c m).timers = m.timers.execs (callBackCalls b c m.env) := by
  cases c with
  | timerZeroCross => exact zeroCross_calls
  | zeroCross => exact zeroCross_calls
  | timerDisableTriack | timerEnableTriack => rfl
  | timerPwm1 | timerPwm2 => exact timerPwm_calls _ _
  | timerMesureSampleAdc => exact timerMesureSampleAdc_timers m

theorem zeroCross_env (b : Build) (t t' : Timers CallBack) (e : Env) :
    (zeroCross b ⟨t, e⟩).env = (zeroCross b ⟨t', e⟩).env := by
  have remove : ∀ e, (removeEnableTriack ⟨t, e⟩).env = (removeEnableTriack ⟨t', e⟩).env := by
    intro e
    unfold removeEnableTriack
    dsimp only
    split <;> rfl
  have delay : ∀ e d, (delayEnableTriack ⟨t, e⟩ d).env = (delayEnableTriack ⟨t', e⟩ d).env := by
    intro e d
    unfold delayEnableTriack
    dsimp only
    split <;> rfl
  by_cases half : b.halfSin = true
  · rw [zeroCross_half half, zeroCross_half half]
    dsimp only
    split <;> rfl
  · rw [zeroCross_whole half, zeroCross_whole half]
    dsimp only
    split_ifs
    · exact congrArg (·.setOut bitTriac true) (remove _)
    · exact delay ((switchTli b e).setOut bitTriac false) _
    · exact congrArg (·.setOut bitTriac false) (remove _)

/-- What a callback does to the variables does not depend on the table. -/
theorem callBack_env (c : CallBack) (t t' : Timers CallBack) (e : Env) :
    (callBack b c ⟨t, e⟩).env = (callBack b c ⟨t', e⟩).env := by
  cases c with
  | timerZeroCross => exact zeroCross_env b _ _ _
  | zeroCross => exact zeroCross_env b t t' e
  | timerDisableTriack | timerEnableTriack => rfl
  | timerPwm1 | timerPwm2 =>
    simp only [callBack, timerPwm1, timerPwm2, timerPwm]
    split_ifs <;> rfl
  | timerMesureSampleAdc =>
    simp only [callBack, timerMesureSampleAdc]
    split_ifs <;> rfl

/-- The callbacks of a build as a script. -/
def script (b : Build) : Script CallBack Env where
  calls := callBackCalls b
  effect c e := (callBack b c ⟨Timers.timerInit 0 0, e⟩).env

theorem callBack_script : callBack b = (script b).call := by
  funext c m
  have env : (callBack b c m).env = (script b).effect c m.env := callBack_env c _ _ _
  have timers : (callBack b c m).timers = m.timers.execs ((script b).calls c m.env) :=
    callBack_calls c
  rw [Script.call, ← env, ← timers]

theorem zeroCrossIRQ_calls : (zeroCrossIRQ b m).timers = m.timers.execs (zeroCrossIRQCalls b) := by
  unfold zeroCrossIRQ zeroCrossIRQCalls
  dsimp only
  split_ifs <;> rfl

theorem userInit_calls (tSleep : Nat) (stationName : List UInt8) :
    (userInit b tSleep stationName).timers =
      (Timers.timerInit b.nbMaxCallbackTime b.precisionTimer).execs (userInitCalls b) := by
  cases b <;> rfl

/-! ## The commanded power -/

/-- The commanded power is full, or leaves at least 883 microseconds of the half wave. -/
def Env.Dimmed (e : Env) : Prop :=
  e.puissanceTriac < Build.puissanceMax → e.puissanceTriac ≤ 9117

theorem Env.Dimmed.congr {e e' : Env} (h : e.Dimmed) (same : e'.puissanceTriac = e.puissanceTriac) :
    e'.Dimmed := by
  unfold Env.Dimmed
  rwa [same]

theorem Env.Dimmed.of_zero {e : Env} (off : e.puissanceTriac = 0) : e.Dimmed := by
  intro _
  simp [off]

theorem dimmed_zero (e : Env) : (e.setPower 0).Dimmed := .of_zero rfl

theorem dimmed_full (e : Env) : (e.setPower Build.puissanceMax).Dimmed := by
  intro below
  simp at below

section message
variable (data : Nat → UInt8) {e : Env}
open Reads

theorem triackCommand_dimmed (h : e.Dimmed) : (triackCommand b data e).Ensures Env.Dimmed := by
  have preset : (e.setPower b.triackOnOffPuissance).Dimmed := by
    intro below
    cases b <;> simp_all [Build.puissanceMax]
  refine ensures_bind fun _ => ensures_ite (ensures_ite ?_ ?_) (ensures_pure h)
  · refine ensures_bind fun _ => ensures_ite ?_ ?_
    · exact ensures_pure (dimmed_zero e)
    · exact ensures_pure preset
  · refine ensures_bind fun _ => ensures_ite (ensures_ite (ensures_pure preset) ?_) ?_
    · refine ensures_read ?_
      by_cases full : 100 ≤ data 1
      · rw [if_pos full]
        exact ensures_pure (dimmed_full e)
      · rw [if_neg full]
        refine ensures_read (ensures_pure fun _ => ?_)
        have below : (data 1).toNat < 100 := UInt8.lt_iff_toNat_lt.mp (UInt8.not_le.mp full)
        simp only [Env.setPower_puissanceTriac, triacScall, triacMin]
        omega
    · exact ensures_pure (dimmed_zero e)

theorem mqttDataTriack_dimmed (h : e.Dimmed) : (mqttDataTriack b data e).Ensures Env.Dimmed := by
  refine ensures_seq (triackCommand_dimmed data h) fun e' h' => ensures_bind fun _ => ?_
  refine ensures_ite (ensures_ite ?_ ?_) (ensures_pure h')
  · exact ensures_pure (dimmed_zero e')
  · exact ensures_pure (dimmed_full e')

theorem mqttDataPwm_dimmed (dataLen : Nat) (ls : List Nat) (h : e.Dimmed) :
    (mqttDataPwm data dataLen ls e).Ensures Env.Dimmed := by
  induction ls generalizing e with
  | nil => exact ensures_pure h
  | cons l ls ih =>
    have command : (pwmCommand data l e).Ensures Env.Dimmed := by
      refine ensures_bind fun _ => ensures_ite (ensures_bind fun _ => ?_) (ensures_pure h)
      exact ensures_ite (ensures_pure h) (ensures_bind fun _ => ensures_pure h)
    have toggle : ∀ e' : Env, e'.Dimmed → (pwmToggle data l e').Ensures Env.Dimmed :=
      fun e' h' => ensures_bind fun _ => ensures_ite (ensures_pure h') (ensures_pure h')
    refine ensures_ite ?_ (ensures_pure h)
    exact ensures_seq command fun e' h' => ensures_seq (toggle e' h') fun e'' h'' => ih h''

theorem storeCommand_dimmed (value : UInt8) (e : Env) : (storeCommand value e).Dimmed := by
  obtain ⟨-, eq⟩ | ⟨-, eq⟩ | ⟨-, eq⟩ := storeCommand_cases value e <;> rw [eq]
  · exact dimmed_full _
  · exact dimmed_full _
  · exact dimmed_zero _

theorem mqttDataCb_dimmed (dataLen : Nat) (h : e.Dimmed) :
    (mqttDataCb b data dataLen e).Ensures Env.Dimmed := by
  have awake : (restartDisconnect b e).Dimmed := by
    unfold restartDisconnect
    split <;> exact h
  refine ensures_seq (Q := Env.Dimmed) ?_ fun e' h' => ensures_seq (Q := Env.Dimmed) ?_ ?_
  · exact ensures_ite (mqttDataTriack_dimmed data awake) (ensures_pure awake)
  · refine ensures_ite (ensures_ite ?_ (mqttDataPwm_dimmed data dataLen _ h')) (ensures_pure h')
    refine ensures_bind fun _ => ensures_ite (ensures_bind fun _ => ?_) (ensures_pure h')
    exact ensures_pure (storeCommand_dimmed _ e')
  · intro e'' h''
    refine ensures_ite (ensures_bind fun _ => ?_) (ensures_pure h'')
    exact ensures_ite (ensures_pure h'') (ensures_pure h'')

end message

theorem regulate_power (delta : Int) (e : Env) :
    (regulateUp delta (regulateDown delta e)).puissanceTriac = e.puissanceTriac ∨
      (regulateUp delta (regulateDown delta e)).puissanceTriac = 0 := by
  unfold regulateUp regulateDown
  split_ifs <;> simp

theorem storeIRQ_dimmed {pulse direction : Bool} {e e' : Env}
    (h : storeIRQ pulse direction e = some e') (dimmed : e.Dimmed) : e'.Dimmed := by
  obtain ⟨r, n, sent, eq, out⟩ := storeIRQ_eq h
  have regulated : r.Dimmed := by
    obtain same | off := regulate_power (int32 (e.consinge - e.niveau)) e
    · exact dimmed.congr (eq ▸ same)
    · exact .of_zero (eq ▸ off)
  apply regulated.congr
  obtain ⟨-, rfl⟩ | ⟨-, rfl⟩ := out
  · rfl
  · simp

theorem timeoutStore_dimmed {e e' : Env} (h : timeoutStore e = some e') : e'.Dimmed := by
  obtain ⟨n, sent, rfl⟩ := timeoutStore_eq h
  exact .of_zero rfl

/-! ## The calls have a tick each -/

theorem precisionTimer_bounds (b : Build) : 0 < b.precisionTimer ∧ b.precisionTimer ≤ 100 := by
  cases b <;> decide

theorem pwmScall_bounds (pwm : b.pwm = true) : b.precisionTimer ≤ 10 * b.pwmScall ∧
    b.precisionTimer ≤ 2 * b.pwmScallSlow ∧ b.pwmScall ≤ 100 := by
  cases b <;> first | decide | exact absurd pwm (by decide)

/-- A share of a PWM period is at least one tick: the slow scale is taken where the share is
short. -/
theorem share_oneTick (pwm : b.pwm = true) {share p : Nat} (least : 2 ≤ share) (most : share ≤ 98)
    (short : share < 10 → 90 < p ∨ p < 10) (self : CallBack) :
    let scall := if 90 < p ∨ p < 10 then b.pwmScallSlow else b.pwmScall
    (TimerCall.change (share * scall) self).OneTick b.precisionTimer ∧
      (TimerCall.change (share * scall) self).Small := by
  obtain ⟨fast, slow, small⟩ := pwmScall_bounds pwm
  have scallSlow : b.pwmScallSlow = b.pwmScall * 4 := rfl
  dsimp only [TimerCall.OneTick, TimerCall.Small]
  split
  · have up := Nat.mul_le_mul_right b.pwmScallSlow least
    have down := Nat.mul_le_mul_right b.pwmScallSlow most
    omega
  · rename_i long
    have wide : 10 ≤ share := Nat.le_of_not_lt fun narrow => long (short narrow)
    have up := Nat.mul_le_mul_right b.pwmScall wide
    have down := Nat.mul_le_mul_right b.pwmScall most
    omega

theorem timerPwmCalls_oneTick (pwm : b.pwm = true) (n : Nat) (self : CallBack) (e : Env) :
    ∀ op ∈ timerPwmCalls b n self e, op.OneTick b.precisionTimer ∧ op.Small := by
  have tick := (precisionTimer_bounds b).2
  have whole : (TimerCall.change 10000 self).OneTick b.precisionTimer ∧
      (TimerCall.change 10000 self).Small := by
    dsimp only [TimerCall.OneTick, TimerCall.Small]
    omega
  intro op mem
  unfold timerPwmCalls at mem
  dsimp only at mem
  split at mem
  · obtain rfl := List.mem_singleton.mp mem
    exact whole
  · split at mem
    · obtain rfl := List.mem_singleton.mp mem
      exact whole
    · split at mem
      · obtain rfl := List.mem_singleton.mp mem
        apply share_oneTick pwm <;> omega
      · obtain rfl := List.mem_singleton.mp mem
        apply share_oneTick pwm <;> omega

theorem zeroCrossCalls_oneTick {e : Env} (h : e.Dimmed) :
    ∀ op ∈ zeroCrossCalls b e, op.OneTick b.precisionTimer ∧ op.Small := by
  have tick := (precisionTimer_bounds b).2
  have remove : ∀ op ∈ removeEnableTriackCalls e, op.OneTick b.precisionTimer ∧ op.Small := by
    intro op mem
    unfold removeEnableTriackCalls at mem
    split at mem
    · obtain rfl := List.mem_singleton.mp mem
      exact ⟨trivial, trivial⟩
    · cases mem
  intro op mem
  unfold zeroCrossCalls at mem
  split at mem
  · simp only [List.mem_cons, List.not_mem_nil, or_false] at mem
    obtain rfl | rfl := mem
    all_goals dsimp only [TimerCall.OneTick, TimerCall.Small]; omega
  · split at mem
    · exact remove op mem
    · rename_i below
      have most := h (Int.not_le.mp below)
      split at mem
      · rename_i positive
        have delay : uint32 (10000 - e.puissanceTriac) = (10000 - e.puissanceTriac).toNat := by
          rw [uint32_eq, Int.emod_eq_of_lt (by omega) (by omega)]
        unfold delayEnableTriackCalls at mem
        rw [delay] at mem
        split at mem
        all_goals
          obtain rfl := List.mem_singleton.mp mem
          dsimp only [TimerCall.OneTick, TimerCall.Small]
          omega
      · exact remove op mem

/-- The PWM callbacks belong to the builds with PWM. -/
def CallBack.OfBuild (b : Build) (c : CallBack) : Prop :=
  c = .timerPwm1 ∨ c = .timerPwm2 → b.pwm = true

theorem callBackCalls_oneTick {c : CallBack} (known : c.OfBuild b) {e : Env} (h : e.Dimmed) :
    ∀ op ∈ callBackCalls b c e, op.OneTick b.precisionTimer ∧ op.Small := by
  have tick := (precisionTimer_bounds b).2
  cases c with
  | timerZeroCross =>
    rw [callBackCalls, List.forall_mem_cons]
    refine ⟨?_, zeroCrossCalls_oneTick h⟩
    dsimp only [TimerCall.OneTick, TimerCall.Small]
    omega
  | zeroCross => exact zeroCrossCalls_oneTick h
  | timerDisableTriack =>
    rw [callBackCalls, List.forall_mem_singleton]
    dsimp only [TimerCall.OneTick, TimerCall.Small]
    omega
  | timerEnableTriack | timerMesureSampleAdc => exact List.forall_mem_nil _
  | timerPwm1 => exact timerPwmCalls_oneTick (known (.inl rfl)) _ _ e
  | timerPwm2 => exact timerPwmCalls_oneTick (known (.inr rfl)) _ _ e

/-- The gate pulse is all that a callback puts into the table or takes out. -/
theorem callBackCalls_moves {c c' : CallBack} {e : Env} {op : TimerCall CallBack}
    (mem : op ∈ callBackCalls b c e) (moves : op.Moves c') : c' = .timerEnableTriack := by
  have crossing : ∀ op ∈ zeroCrossCalls b e, op.Moves c' → c' = .timerEnableTriack := by
    unfold zeroCrossCalls removeEnableTriackCalls delayEnableTriackCalls
    split_ifs <;> simp [TimerCall.Moves, eq_comm]
  have channel : ∀ n self, ∀ op ∈ timerPwmCalls b n self e, ¬ op.Moves c' := by
    intro n self
    unfold timerPwmCalls
    dsimp only
    split_ifs <;> simp [TimerCall.Moves]
  cases c with
  | timerZeroCross =>
    obtain rfl | mem := List.mem_cons.mp mem
    · cases moves
    · exact crossing op mem moves
  | zeroCross => exact crossing op mem moves
  | timerDisableTriack =>
    obtain rfl := List.mem_singleton.mp mem
    cases moves
  | timerEnableTriack | timerMesureSampleAdc => cases mem
  | timerPwm1 | timerPwm2 => exact absurd moves (channel _ _ op mem)

theorem zeroCrossIRQCalls_moves {c : CallBack} :
    ∀ op ∈ zeroCrossIRQCalls b, ¬ op.Moves c := by
  unfold zeroCrossIRQCalls
  split_ifs <;> simp [TimerCall.Moves]

theorem zeroCrossIRQCalls_oneTick (b : Build) :
    ∀ op ∈ zeroCrossIRQCalls b, op.OneTick b.precisionTimer ∧ op.Small := by
  cases b <;> simp [zeroCrossIRQCalls, TimerCall.OneTick, TimerCall.Small]

theorem userInitCalls_oneTick (b : Build) :
    ∀ op ∈ userInitCalls b, op.OneTick b.precisionTimer ∧ op.Small := by
  cases b <;> simp [userInitCalls, TimerCall.OneTick, TimerCall.Small]

/-! ## Every countdown -/

/-- The table counts, its callbacks are those of the build, and the power leaves a tick for every
period computed from it. -/
structure OnCourse (b : Build) (m : App) : Prop where
  us_eq : m.timers.us = b.precisionTimer
  counting : m.timers.Counting
  known : ∀ c, some c ∈ m.timers.owners → c.OfBuild b
  dimmed : m.env.Dimmed

/-- Calls of at least one tick keep the table counting. -/
theorem counting_calls {t : Timers CallBack} (us : t.us = b.precisionTimer) (h : t.Counting)
    {ops : List (TimerCall CallBack)}
    (tick : ∀ op ∈ ops, op.OneTick b.precisionTimer ∧ op.Small) : (t.execs ops).Counting := by
  apply h.execs
  · rw [us]
    exact (precisionTimer_bounds b).1
  · rw [us]
    exact fun op mem => (tick op mem).1
  · exact fun op mem => (tick op mem).2

theorem tickSlot_us (m : App) (l : Nat) :
    (m.tickSlot (callBack b) l).1.timers.us = m.timers.us := by
  obtain ⟨eq, -⟩ | ⟨s, c, -, -, -, eq⟩ | ⟨s, c, -, -, -, eq⟩ :=
    Timed.tickSlot_cases (callBack b) m l <;> rw [eq]
  · rfl
  · exact callBack_us c _

/-- The callback that a round calls is in the table. -/
theorem tickSlot_called {l : Nat} {c : CallBack} (called : (m.tickSlot (callBack b) l).2 = some c) :
    some c ∈ m.timers.owners := by
  obtain ⟨eq, -⟩ | ⟨s, c', slot, own, -, eq⟩ | ⟨s, c', slot, own, -, eq⟩ :=
    Timed.tickSlot_cases (callBack b) m l <;> rw [eq] at called
  · cases called
  · cases called
  · obtain rfl := Option.some.inj called
    exact own ▸ List.mem_of_getElem? (Timers.owners_of_slot slot)

theorem OnCourse.tickSlot (h : OnCourse b m) (l : Nat) :
    OnCourse b (m.tickSlot (callBack b) l).1 := by
  refine ⟨(tickSlot_us m l).trans h.us_eq, ?_, fun c mem => ?_, ?_⟩
  · refine Timed.counting_tickSlot h.counting fun c m' owned env us counting => ?_
    rw [callBack_calls, env]
    exact counting_calls (us.trans h.us_eq) counting
      (callBackCalls_oneTick (h.known c owned) h.dimmed)
  · obtain ⟨eq, -⟩ | ⟨s, c', slot, -, -, eq⟩ | ⟨s, c', slot, -, -, eq⟩ :=
      Timed.tickSlot_cases (callBack b) m l <;> rw [eq] at mem
    · exact h.known c mem
    · rw [Timed.setSlot_owners slot] at mem
      exact h.known c mem
    · rw [callBack_calls] at mem
      obtain old | ⟨period, added⟩ := Timers.mem_owners_execs mem
      · rw [Timed.setSlot_owners slot] at old
        exact h.known c old
      · obtain rfl := callBackCalls_moves added rfl
        exact fun pwm => by simp at pwm
  · exact h.dimmed.congr (congrArg Control.puissanceTriac (tickSlot_control b m l))

theorem OnCourse.crossing (h : OnCourse b m) : OnCourse b (zeroCrossIRQ b m) := by
  refine ⟨?_, ?_, fun c mem => ?_, ?_⟩
  · unfold zeroCrossIRQ
    split_ifs <;> exact h.us_eq
  · rw [zeroCrossIRQ_calls]
    exact counting_calls h.us_eq h.counting (zeroCrossIRQCalls_oneTick b)
  · rw [zeroCrossIRQ_calls] at mem
    obtain old | ⟨period, added⟩ := Timers.mem_owners_execs mem
    · exact h.known c old
    · exact absurd rfl (zeroCrossIRQCalls_moves _ added)
  · exact h.dimmed.congr (congrArg Control.puissanceTriac (zeroCrossIRQ_control b m))

theorem onCourse_step {m' : App} {ev : Event} (h : step b m ev = some m') (course : OnCourse b m) :
    OnCourse b m' := by
  cases ev with
  | tick io =>
    obtain rfl := Option.some.inj h
    exact tick_keeps b io (fun m l h => h.tickSlot l) m { course with }
  | irq status =>
    have crossed : OnCourse b (afterCrossing b status m) := by
      unfold afterCrossing
      split
      · exact OnCourse.crossing (m := { m with env := { m.env with zeroCrossIntr := false } })
          { course with }
      · exact course
    obtain ⟨-, rfl⟩ | ⟨-, e, run, rfl⟩ := irq_cases h
    · exact crossed
    · exact { crossed with dimmed := storeIRQ_dimmed run crossed.dimmed }
  | mqttData data dataLen =>
    obtain rfl := Option.some.inj h
    exact { course with dimmed := mqttDataCb_dimmed data dataLen course.dimmed [] }
  | timeoutStore =>
    obtain ⟨e, run, rfl⟩ := timeoutStore_step h
    exact { course with dimmed := timeoutStore_dimmed run }

theorem onCourse_userInit (b : Build) (tSleep : Nat) (stationName : List UInt8) :
    OnCourse b (userInit b tSleep stationName) := by
  refine ⟨?_, ?_, fun c mem => ?_, ?_⟩
  · cases b <;> rfl
  · rw [userInit_calls]
    exact counting_calls rfl (counting_timerInit _ _) (userInitCalls_oneTick b)
  · rw [userInit_calls] at mem
    obtain empty | ⟨period, added⟩ := Timers.mem_owners_execs mem
    · simp [Timers.owners, Timers.timerInit] at empty
    · rintro (rfl | rfl)
      all_goals
        revert added
        cases b <;> simp [userInitCalls]
  · apply Env.Dimmed.of_zero
    cases b <;> rfl

/-- The state before a round of a tick. -/
def beforeRound (b : Build) (io : Inputs) (m : App) (k : Nat) : App :=
  (Timed.tickSlots (callBack b) (List.range k) { m with env := { m.env with inputs := io } }).1

/-- In every build and every reachable state, the slots in use are between one tick and their
period from their call; a round never counts one past zero; and every period that the program
sets, at the start, in a zero crossing or from a callback, is at least one tick. The calls that set
them are all that these functions do to the timers. -/
theorem no_callBack_lost {tSleep : Nat} {stationName : List UInt8} {es : List Event}
    (run : AppRun b (userInit b tSleep stationName) es m) :
    m.timers.us = b.precisionTimer ∧
    ((userInit b tSleep stationName).timers =
        (Timers.timerInit b.nbMaxCallbackTime b.precisionTimer).execs (userInitCalls b) ∧
      (∀ m', (zeroCrossIRQ b m').timers = m'.timers.execs (zeroCrossIRQCalls b)) ∧
      ∀ op ∈ userInitCalls b ++ zeroCrossIRQCalls b, op.OneTick b.precisionTimer) ∧
    (∀ s ∈ m.timers.tab, s.callBack ≠ none → 1 ≤ s.cpt ∧ s.cpt ≤ s.period) ∧
    ∀ io k,
      (∀ s ∈ (beforeRound b io m k).timers.tab, s.callBack ≠ none → 0 ≤ int32 (s.cpt - 1)) ∧
      ∀ c, ((beforeRound b io m k).tickSlot (callBack b) k).2 = some c →
        (∀ m', (callBack b c m').timers = m'.timers.execs (callBackCalls b c m'.env)) ∧
        ∀ op ∈ callBackCalls b c (beforeRound b io m k).env, op.OneTick b.precisionTimer := by
  have course : OnCourse b m := run.invariant (I := OnCourse b)
    (fun _ _ _ => onCourse_step) (onCourse_userInit b _ _)
  refine ⟨course.us_eq, ⟨userInit_calls _ _, fun _ => zeroCrossIRQ_calls, ?_⟩, ?_, fun io k => ?_⟩
  · intro op mem
    obtain init | irq := List.mem_append.mp mem
    · exact (userInitCalls_oneTick b op init).1
    · exact (zeroCrossIRQCalls_oneTick b op irq).1
  · intro s mem busy
    obtain ⟨least, most, -⟩ := course.counting s mem busy
    exact ⟨least, most⟩
  · have before : OnCourse b (beforeRound b io m k) :=
      Timed.tickSlots_invariant (fun m l h => h.tickSlot l) _ _ { course with }
    refine ⟨fun s mem busy => ?_, fun c called => ⟨fun _ => callBack_calls c, fun op mem => ?_⟩⟩
    · obtain ⟨c, own⟩ := Option.ne_none_iff_exists'.mp busy
      exact ((before.counting s mem).next own).1
    · have known := before.known c (tickSlot_called called)
      exact (callBackCalls_oneTick known before.dimmed op mem).1

set_option maxRecDepth 1000 in
/-- A socket at half power, up to the tick of its first simulated zero crossing. -/
theorem no_callBack_lost_half_power : ∃ m,
    AppRun .prise (userInit .prise 100 [65]) (.message [83, 50] ::
      .irq ⟨true, false, false, false⟩ :: List.replicate 465 (.tick ⟨0, false⟩)) m ∧
    (∀ s ∈ m.timers.tab, s.callBack ≠ none → 1 ≤ s.cpt ∧ s.cpt ≤ s.period) ∧
    ((beforeRound .prise ⟨0, false⟩ m 0).tickSlot (callBack .prise) 0).2 = some .timerZeroCross ∧
    ∀ op ∈ callBackCalls .prise .timerZeroCross (beforeRound .prise ⟨0, false⟩ m 0).env,
      op.OneTick 21 := by
  have run : (((.message [83, 50] :: .irq ⟨true, false, false, false⟩ ::
      List.replicate 465 (.tick ⟨0, false⟩) : List Event).foldlM (step .prise)
        (userInit .prise 100 [65])).map fun m =>
          ((beforeRound .prise ⟨0, false⟩ m 0).tickSlot (callBack .prise) 0).2) =
        some (some .timerZeroCross) := by
    decide +kernel
  obtain ⟨m, run, called⟩ := Option.map_eq_some_iff.mp run
  obtain ⟨-, -, counting, rounds⟩ := no_callBack_lost (run_iff_foldlM.mpr run)
  exact ⟨m, run_iff_foldlM.mpr run, counting, called, ((rounds _ 0).2 _ called).2⟩

end Domotic
