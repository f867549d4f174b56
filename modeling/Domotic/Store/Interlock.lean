import Domotic.Store.Channel

/-!
# The two motor outputs

The duties are exclusive but the outputs are not interlocked: a command that turns the motor
round while it is driven starts the second channel when its slot expires, and the first one
stops when its own does. Both outputs can therefore be high, but only within a hundred ticks
of such a command: after that the channel that lost the motor has expired.
-/
namespace Domotic
open Library

variable {m m' m₀ : App} {n : Nat} {e e' : Env}

/-- The command gives the motor to the other channel while the output of channel `n` is
still high. -/
def Reverses (e : Env) (ev : Event) (n : Nat) : Prop :=
  match ev with
  | .mqttData data _ => data 0 = 83 ∧ High e n ∧
      if n = 0 then 0 < int32 (consingeOf (data 1) e - e.niveau)
      else int32 (consingeOf (data 1) e - e.niveau) < 0
  | _ => False

/-! ## Power and duties -/

/-- The values that the handlers give to the power and to the duties. -/
structure Drive (e : Env) : Prop where
  power : e.puissanceTriac = 0 ∨ e.puissanceTriac = Build.puissanceMax
  duty : ∀ n, e.puissancePwm n ∈ [0, 17, 60, 100]

theorem Drive.setPwm (h : Drive e) {l p : Nat} (hp : p ∈ [0, 17, 60, 100]) :
    Drive (e.setPwm l p) := by
  refine ⟨h.power, fun n => ?_⟩
  by_cases here : n = l
  · subst here
    simpa using hp
  · simpa [here] using h.duty n

theorem Drive.setPower (h : Drive e) {p : Int} (hp : p = 0 ∨ p = Build.puissanceMax) :
    Drive (e.setPower p) := ⟨hp, h.duty⟩

/-- Only the power and the duties matter. -/
theorem Drive.congr (h : Drive e) (pwm : e'.puissancePwm = e.puissancePwm)
    (triac : e'.puissanceTriac = e.puissanceTriac) : Drive e' :=
  ⟨triac ▸ h.power, pwm ▸ h.duty⟩

/-- A duty that `storeIRQ` regulates was not at rest. -/
structure Regulated (e e' : Env) : Prop where
  drive : Drive e'
  driven : ∀ n, e'.puissancePwm n ≠ 0 → e.puissancePwm n ≠ 0

theorem regulateDown_regulated (delta : Int) (h : Drive e) :
    Regulated e (regulateDown delta e) := by
  refine ⟨?_, fun _ => regulateDown_driven⟩
  obtain ⟨eq, -⟩ | ⟨eq, -⟩ | ⟨p, hp, eq, -⟩ := regulateDown_duty delta e <;> rw [eq]
  · exact h
  · exact (h.setPwm (by decide)).setPower (.inl rfl)
  · exact h.setPwm (List.mem_cons_of_mem 0 hp)

theorem regulateUp_regulated (delta : Int) (h : Drive e) :
    Regulated e (regulateUp delta e) := by
  refine ⟨?_, fun _ => regulateUp_driven⟩
  obtain ⟨eq, -⟩ | ⟨eq, -⟩ | ⟨p, hp, eq, -⟩ := regulateUp_duty delta e <;> rw [eq]
  · exact h
  · exact (h.setPwm (by decide)).setPower (.inl rfl)
  · exact h.setPwm (List.mem_cons_of_mem 0 hp)

theorem storeIRQ_regulated {pulse direction : Bool} (run : storeIRQ pulse direction e = some e')
    (h : Drive e) : Regulated e e' := by
  refine ⟨?_, fun _ => storeIRQ_driven run⟩
  obtain ⟨r, k, sent, hr, out⟩ := storeIRQ_eq run
  have down := regulateDown_regulated (int32 (e.consinge - e.niveau)) h
  have both : Drive r := hr ▸ (regulateUp_regulated _ down.drive).drive
  obtain ⟨-, rfl⟩ | ⟨-, rfl⟩ := out
  · exact both
  · exact both.congr (by simp) (by simp)

theorem storeCommand_drive (value : UInt8) (h : Drive e) : Drive (storeCommand value e) := by
  have start : Drive (startTimeout (e.setConsinge (consingeOf value e))) := h.congr rfl rfl
  obtain ⟨-, eq⟩ | ⟨-, eq⟩ | ⟨-, eq⟩ := storeCommand_cases value e <;> rw [eq]
  · exact ((start.setPwm (by decide)).setPwm (by decide)).setPower (.inr rfl)
  · exact ((start.setPwm (by decide)).setPwm (by decide)).setPower (.inr rfl)
  · have target : Drive (e.setConsinge (consingeOf value e)) := h.congr rfl rfl
    exact ((target.setPwm (by decide)).setPwm (by decide)).setPower (.inl rfl)

theorem timeoutStore_drive (run : timeoutStore e = some e') (h : Drive e) : Drive e' := by
  obtain ⟨zero, one, off, -⟩ := timeoutStore_stops run
  refine ⟨.inl off, fun n => ?_⟩
  obtain ⟨k, sent, rfl⟩ := timeoutStore_eq run
  have other : Drive (stopMotor (e.setTimerTimoutStore e.timerTimoutStore.disarm)) := by
    have start : Drive (e.setTimerTimoutStore e.timerTimoutStore.disarm) := h.congr rfl rfl
    have stopped := (start.setPwm (l := 0) (p := 0) (by decide)).setPwm (l := 1) (p := 0)
      (by decide)
    unfold stopMotor
    dsimp only
    split_ifs
    · exact stopped.congr (by simp) (by simp)
    · exact stopped.congr (by simp) (by simp)
    · exact start
  simpa using other.duty n

/-! ## One step -/

theorem Motor.drive (h : Motor m) : Drive m.env := ⟨h.power, h.duty⟩

theorem step_drive {ev : Event} (h : step .store m ev = some m') (drive : Drive m.env) :
    Drive m'.env := by
  obtain ⟨-, same⟩ | ⟨status, e, -, -, same, run⟩ | ⟨data, dataLen, -, -, rfl⟩ | ⟨-, run⟩ :=
    store_step_cases h
  · exact drive.congr (congrArg Control.puissancePwm same) (congrArg Control.puissanceTriac same)
  · have before : Drive e :=
      drive.congr (congrArg Control.puissancePwm same) (congrArg Control.puissanceTriac same)
    exact (storeIRQ_regulated run before).drive
  · exact storeCommand_drive (data 1) drive
  · exact timeoutStore_drive run drive

/-- An event that is not a tick leaves the channels alone. -/
theorem step_channel {ev : Event} (h : step .store m ev = some m')
    (quiet : ∀ io, ev ≠ .tick io) {cpt : Int} {level : Bool} (channel : Channel n cpt level m) :
    Channel n cpt level m' := by
  have drive := step_drive h channel.motor.drive
  obtain ⟨s, slot, own, count⟩ := channel.counts
  have other : s.callBack ≠ some .timerZeroCross := by
    rw [own, pwmCallBack]
    split <;> simp
  obtain ⟨io, tick, -⟩ | ⟨status, -, -, timers, outputs⟩ | ⟨-, -, timers, outputs⟩ :=
    step_cases rfl h
  · exact absurd tick (quiet io)
  · have irq : (zeroCrossIRQ .store m).timers = m.timers.timerChange 9800 .timerZeroCross := rfl
    rw [irq] at timers
    have flag : m'.env.timerTriackOn = false :=
      (congrArg Outputs.timerTriackOn outputs).trans channel.motor.flag
    refine ⟨⟨?_, ?_, flag, drive.power, drive.duty⟩, ⟨s, ?_, own, count⟩, ?_⟩
    · exact timers ▸ channel.motor.us
    · rw [timers, Timers.timerChange_owners]
      exact channel.motor.owners
    · rw [timers]
      exact m.timers.timerChange_of_ne _ _ _ slot other
    · exact (congrFun (congrArg Outputs.gpioOut outputs) _).trans channel.out
  · have flag : m'.env.timerTriackOn = false :=
      (congrArg Outputs.timerTriackOn outputs).trans channel.motor.flag
    exact ⟨⟨timers ▸ channel.motor.us, timers ▸ channel.motor.owners, flag, drive.power,
      drive.duty⟩, ⟨s, timers ▸ slot, own, count⟩,
      (congrFun (congrArg Outputs.gpioOut outputs) _).trans channel.out⟩

/-- A channel that is driven after an event was driven before it, or the event is a command
that drives it. -/
theorem step_driven {ev : Event} (h : step .store m ev = some m') (drive : Drive m.env)
    (hn : n < 2) (on : m'.env.puissancePwm n ≠ 0) :
    m.env.puissancePwm n ≠ 0 ∨ ∃ data dataLen, ev = .mqttData data dataLen ∧ data 0 = 83 ∧
      if n = 1 then 0 < int32 (consingeOf (data 1) m.env - m.env.niveau)
      else int32 (consingeOf (data 1) m.env - m.env.niveau) < 0 := by
  obtain ⟨-, same⟩ | ⟨status, e, -, -, same, run⟩ | ⟨data, dataLen, rfl, command, rfl⟩ |
    ⟨-, run⟩ := store_step_cases h
  · have pwm : m'.env.puissancePwm = m.env.puissancePwm := congrArg Control.puissancePwm same
    exact .inl (pwm ▸ on)
  · have pwm : e.puissancePwm = m.env.puissancePwm := congrArg Control.puissancePwm same
    have before : Drive e := drive.congr pwm (congrArg Control.puissanceTriac same)
    exact .inl (pwm ▸ (storeIRQ_regulated run before).driven n on)
  · refine .inr ⟨data, dataLen, rfl, command, ?_⟩
    dsimp only at on
    obtain ⟨up, eq⟩ | ⟨down, eq⟩ | ⟨-, eq⟩ := storeCommand_cases (data 1) m.env <;>
      rw [eq] at on <;> interval_cases n <;> simp at on ⊢
    · exact up
    · exact down
  · obtain ⟨zero, one, -, -⟩ := timeoutStore_stops run
    interval_cases n
    · exact absurd zero on
    · exact absurd one on

/-! ## Whole runs -/

/-- A command reversed the motor while channel `n` was high, and the ticks since then and the
count of the channel make at most a hundred. -/
def Window (m₀ : App) (es : List Event) (n : Nat) (cpt : Int) : Prop :=
  ∃ pre ev post s, es = pre ++ ev :: post ∧ AppRun .store m₀ pre s ∧ Reverses s.env ev n ∧
    ticks post + cpt ≤ 100

theorem Window.snoc {es : List Event} {cpt cpt' : Int} (h : Window m₀ es n cpt) (ev : Event)
    (spent : ticks [ev] + cpt' ≤ cpt) : Window m₀ (es ++ [ev]) n cpt' := by
  obtain ⟨pre, ev', post, s, rfl, run, reverses, bound⟩ := h
  refine ⟨pre, ev', post ++ [ev], s, by simp, run, reverses, ?_⟩
  rw [ticks_append]
  push_cast
  omega

/-- The state of the two channels after the events `es`. -/
structure Interlock (m₀ : App) (es : List Event) (m : App) : Prop where
  channel : ∀ n < 2, ∃ cpt level, Channel n cpt level m ∧ 1 ≤ cpt ∧ cpt ≤ 150 ∧
    (level = true → cpt ≤ 100)
  /-- A channel that is high while the other one is driven has just lost the motor. -/
  lost : ∀ n < 2, ∀ cpt, Channel n cpt true m → m.env.puissancePwm (1 - n) ≠ 0 →
    Window m₀ es n cpt
  both : ∀ c c', Channel 0 c true m → Channel 1 c' true m → Window m₀ es 0 c ∨ Window m₀ es 1 c'

theorem Channel.unique {c c' : Int} {level level' : Bool} (h : Channel n c level m)
    (h' : Channel n c' level' m) : c = c' ∧ level = level' :=
  ⟨h.counts.unique h'.counts, h.out.symm.trans h'.out⟩

theorem interlock_tick {es : List Event} (io : Inputs) (duty : DutyPower m.env)
    (h : Interlock m₀ es m) : Interlock m₀ (es ++ [.tick io]) (tick .store io m).1 := by
  have pwm : (tick .store io m).1.env.puissancePwm = m.env.puissancePwm :=
    congrArg Control.puissancePwm (tick_control .store io m)
  -- a channel that is high after the tick was high one count earlier, or follows its duty
  have after : ∀ n < 2, ∀ cpt, Channel n cpt true (tick .store io m).1 →
      Channel n (cpt + 1) true m ∨ m.env.puissancePwm n ≠ 0 := by
    intro n hn cpt high
    obtain ⟨c, level, channel, low, bound, -⟩ := h.channel n hn
    obtain ⟨-, next⟩ | ⟨-, c', level', next, -, -, driven⟩ :=
      tick_channel hn io low (by omega) channel
    · obtain ⟨rfl, rfl⟩ := next.unique high
      exact .inl (by simpa using channel)
    · obtain ⟨rfl, rfl⟩ := next.unique high
      exact .inr (driven rfl)
  have spent : ∀ cpt : Int, ticks [.tick io] + cpt ≤ cpt + 1 := fun cpt => by
    simp only [ticks]
    omega
  refine ⟨fun n hn => ?_, fun n hn cpt high other => ?_, fun c c' high high' => ?_⟩
  · obtain ⟨c, level, channel, low, bound, short⟩ := h.channel n hn
    obtain ⟨long, next⟩ | ⟨-, c', level', next, low', high', -⟩ :=
      tick_channel hn io low (by omega) channel
    · exact ⟨c - 1, level, next, by omega, by omega, fun on => by have := short on; omega⟩
    · exact ⟨c', level', next, low', by omega, fun _ => high'⟩
  · rw [pwm] at other
    obtain before | driven := after n hn cpt high
    · exact (h.lost n hn _ before other).snoc _ (spent cpt)
    · exfalso
      interval_cases n <;> exact duty.exclusive.elim (by simp_all) (by simp_all)
  · obtain before | driven := after 0 (by omega) c high
    · obtain before' | driven' := after 1 (by omega) c' high'
      · exact (h.both _ _ before before').imp (fun w => w.snoc _ (spent c))
          fun w => w.snoc _ (spent c')
      · exact .inl ((h.lost 0 (by omega) _ before driven').snoc _ (spent c))
    · obtain before' | driven' := after 1 (by omega) c' high'
      · exact .inr ((h.lost 1 (by omega) _ before' driven).snoc _ (spent c'))
      · exact absurd duty.exclusive (by simp [driven, driven'])

theorem interlock_step {es : List Event} {ev : Event} (run : AppRun .store m₀ es m)
    (h : step .store m ev = some m') (duty : DutyPower m.env) (lock : Interlock m₀ es m) :
    Interlock m₀ (es ++ [ev]) m' := by
  by_cases isTick : ∃ io, ev = .tick io
  · obtain ⟨io, rfl⟩ := isTick
    obtain rfl := Option.some.inj h
    exact interlock_tick io duty lock
  · have quiet : ∀ io, ev ≠ .tick io := fun io eq => isTick ⟨io, eq⟩
    have none : ∀ cpt : Int, ticks [ev] + cpt ≤ cpt := fun cpt => by
      cases ev with
      | tick io => exact absurd rfl (quiet io)
      | irq | mqttData | timeoutStore => simp [ticks]
    -- an event changes no channel, so a channel afterwards is the channel before
    have before : ∀ n < 2, ∀ cpt, Channel n cpt true m' → Channel n cpt true m := by
      intro n hn cpt high
      obtain ⟨c, level, channel, -⟩ := lock.channel n hn
      obtain ⟨rfl, rfl⟩ := (step_channel h quiet channel).unique high
      exact channel
    refine ⟨fun n hn => ?_, fun n hn cpt high other => ?_, fun c c' high high' => ?_⟩
    · obtain ⟨c, level, channel, low, bound, short⟩ := lock.channel n hn
      exact ⟨c, level, step_channel h quiet channel, low, bound, short⟩
    · have channel := before n hn cpt high
      obtain driven | ⟨data, dataLen, rfl, command, side⟩ :=
        step_driven h channel.motor.drive (show 1 - n < 2 by omega) other
      · exact (lock.lost n hn cpt channel driven).snoc _ (none cpt)
      · obtain ⟨c, level, channel', -, -, short⟩ := lock.channel n hn
        obtain ⟨rfl, rfl⟩ := channel'.unique channel
        have bound := short rfl
        refine ⟨es, _, [], m, rfl, run, ⟨command, channel.out, ?_⟩, by simpa [ticks] using bound⟩
        interval_cases n <;> simpa using side
    · have channel := before 0 (by omega) c high
      have channel' := before 1 (by omega) c' high'
      exact (lock.both c c' channel channel').imp (fun w => w.snoc _ (none c))
        fun w => w.snoc _ (none c')

theorem userInit_store_timers (t : Nat) (name : List UInt8) :
    (userInit .store t name).timers = ⟨100, [⟨200, 200, some .timerZeroCross⟩,
      ⟨100, 100, some .timerPwm1⟩, ⟨150, 150, some .timerPwm2⟩, ⟨0, 0, none⟩]⟩ := by
  simp [userInit, initTriack, initPwm, Timers.timerInit, Timers.timerAddCallback, List.replicate,
    int32_eq]

theorem userInit_channels (t : Nat) (name : List UInt8) :
    Channel 0 100 false (userInit .store t name) ∧
      Channel 1 150 false (userInit .store t name) := by
  have timers := userInit_store_timers t name
  have motor : Motor (userInit .store t name) := by
    refine ⟨congrArg Timers.us timers, congrArg Timers.owners timers, rfl, .inl rfl, fun n => ?_⟩
    have pwm : (userInit .store t name).env.puissancePwm n = 0 :=
      congrFun (congrArg Control.puissancePwm (userInit_store_control t name)) n
    simp [pwm]
  exact ⟨⟨motor, ⟨⟨100, 100, some .timerPwm1⟩, by rw [timers]; rfl, rfl, rfl⟩, rfl⟩,
    ⟨motor, ⟨⟨150, 150, some .timerPwm2⟩, by rw [timers]; rfl, rfl, rfl⟩, rfl⟩⟩

theorem userInit_interlock (t : Nat) (name : List UInt8) :
    Interlock m₀ [] (userInit .store t name) := by
  obtain ⟨zero, one⟩ := userInit_channels t name
  refine ⟨fun n hn => ?_, fun n hn cpt high => ?_, fun c c' high => ?_⟩
  · interval_cases n
    · exact ⟨100, false, zero, by omega, by omega, by simp⟩
    · exact ⟨150, false, one, by omega, by omega, by simp⟩
  · interval_cases n
    · exact absurd (zero.unique high).2 (by simp)
    · exact absurd (one.unique high).2 (by simp)
  · exact absurd (zero.unique high).2 (by simp)

theorem run_interlock {t : Nat} {name : List UInt8} {es : List Event}
    (run : AppRun .store (userInit .store t name) es m) :
    Interlock (userInit .store t name) es m := by
  induction run with
  | nil => exact userInit_interlock t name
  | snoc run step ih => exact interlock_step run step (run_dutyPower run) ih

/-- Both outputs are high only within a hundred ticks of a command that turned the motor
round while the output of the other direction was high. -/
theorem both_high_after_reversal {t : Nat} {name : List UInt8} {es : List Event}
    (run : AppRun .store (userInit .store t name) es m)
    (high : High m.env 0) (high' : High m.env 1) :
    ∃ pre ev post s n, es = pre ++ ev :: post ∧ n < 2 ∧
      AppRun .store (userInit .store t name) pre s ∧ Reverses s.env ev n ∧ ticks post < 100 := by
  have lock := run_interlock run
  obtain ⟨c, level, channel, low, -⟩ := lock.channel 0 (by omega)
  obtain ⟨c', level', channel', low', -⟩ := lock.channel 1 (by omega)
  obtain rfl : level = true := channel.out.symm.trans high
  obtain rfl : level' = true := channel'.out.symm.trans high'
  obtain ⟨pre, ev, post, s, eq, run', reverses, bound⟩ |
    ⟨pre, ev, post, s, eq, run', reverses, bound⟩ := lock.both c c' channel channel'
  · exact ⟨pre, ev, post, s, 0, eq, by omega, run', reverses, by omega⟩
  · exact ⟨pre, ev, post, s, 1, eq, by omega, run', reverses, by omega⟩

/-- Up at full speed, one pulse, and down again before the first channel has expired. -/
def reversal : List Event :=
  [.message [83, 100]] ++ List.replicate 150 (.tick ⟨0, false⟩) ++
    [.irq ⟨false, true, false, false⟩, .message [83, 0]] ++ List.replicate 50 (.tick ⟨0, false⟩)

theorem reversal_high : ∃ m, AppRun .store (userInit .store 100 [65]) reversal m ∧
    High m.env 0 ∧ High m.env 1 := by
  have run : (((reversal.foldlM (step .store) (userInit .store 100 [65])).map fun m =>
      (m.env.gpioOut (Build.store.bitPwm 0), m.env.gpioOut (Build.store.bitPwm 1)))) =
        some (true, true) := by
    decide +kernel
  obtain ⟨m, run, eq⟩ := Option.map_eq_some_iff.mp run
  simp only [Prod.mk.injEq] at eq
  exact ⟨m, run_iff_foldlM.mpr run, eq.1, eq.2⟩

/-- Both outputs can be high. -/
theorem not_interlocked : ¬ ∀ (t : Nat) (name : List UInt8) (es : List Event) (m : App),
    AppRun .store (userInit .store t name) es m → ¬ (High m.env 0 ∧ High m.env 1) := by
  intro h
  obtain ⟨m, run, high⟩ := reversal_high
  exact h 100 [65] reversal m run high

theorem both_high_in_reversal :
    ∃ pre ev post s n, reversal = pre ++ ev :: post ∧ n < 2 ∧
      AppRun .store (userInit .store 100 [65]) pre s ∧ Reverses s.env ev n ∧ ticks post < 100 := by
  obtain ⟨m, run, high, high'⟩ := reversal_high
  exact both_high_after_reversal run high high'

end Domotic
