import Domotic.Store.Duty

/-!
# The watchdog of the shutter motor

`timer_timout_store` is armed in three places. A command that starts the motor sets the
callback first; a sensor pulse towards the target arms the timer with whatever callback it
has. So the timer is armed with no callback exactly when such a pulse comes before the
first command that starts the motor, and that needs no command at all: one pulse moves the
position off its target and the next one, in the other direction, moves it back.
-/
namespace Domotic
open Library

/-- An armed watchdog has a function to call. -/
def Supervised (e : Env) : Prop :=
  e.timerTimoutStore.armed ≠ none → e.timerTimoutStore.func ≠ none

/-- The event is a sensor pulse that moves the position towards the target. -/
def PulseTowardsTarget (e : Env) : Event → Prop
  | .irq status => status.store = true ∧ status.pulse = false ∧
      if status.direction = false then e.niveau < e.consinge else e.consinge < e.niveau
  | _ => False

/-- The event is a command whose target is away from the position. -/
def StartsMotor (e : Env) : Event → Prop
  | .mqttData data _ => data 0 = 83 ∧ int32 (consingeOf (data 1) e - e.niveau) ≠ 0
  | _ => False

/-- A command started the motor somewhere in the events `es` from `m`. -/
def Started (m : App) (es : List Event) : Prop :=
  ∃ pre ev s, pre ++ [ev] <+: es ∧ AppRun .store m pre s ∧ StartsMotor s.env ev

/-- No pulse towards the target comes before the first command that starts the motor. -/
def NoEarlyPulse (m : App) (es : List Event) : Prop :=
  ∀ pre ev s, pre ++ [ev] <+: es → AppRun .store m pre s →
    PulseTowardsTarget s.env ev → Started m pre

/-! ## One step -/

@[simp] theorem regulateDown_control (delta : Int) (e : Env) :
    (regulateDown delta e).timerTimoutStore = e.timerTimoutStore ∧
      (regulateDown delta e).niveau = e.niveau ∧
      (regulateDown delta e).consinge = e.consinge := by
  unfold regulateDown
  split_ifs <;> simp

@[simp] theorem regulateUp_control (delta : Int) (e : Env) :
    (regulateUp delta e).timerTimoutStore = e.timerTimoutStore ∧
      (regulateUp delta e).niveau = e.niveau ∧
      (regulateUp delta e).consinge = e.consinge := by
  unfold regulateUp
  split_ifs <;> simp

/-- `storeIRQ` arms the watchdog on a pulse towards the target and never sets its function. -/
theorem storeIRQ_timer {status : GpioStatus} {e e' : Env} (store : status.store = true)
    (h : storeIRQ status.pulse status.direction e = some e') :
    (PulseTowardsTarget e (.irq status) ∧
      e'.timerTimoutStore = e.timerTimoutStore.disarm.arm timoutStore true) ∨
    (¬ PulseTowardsTarget e (.irq status) ∧ e'.timerTimoutStore = e.timerTimoutStore) := by
  obtain ⟨r, n, sent, hr, out⟩ := storeIRQ_eq h
  obtain ⟨timer, niveau, consinge⟩ : r.timerTimoutStore = e.timerTimoutStore ∧
      r.niveau = e.niveau ∧ r.consinge = e.consinge := by
    rw [hr]
    simp
  obtain ⟨high, rfl⟩ | ⟨low, rfl⟩ := out
  · refine .inr ⟨fun towards => ?_, timer⟩
    have low := towards.2.1
    simp [high] at low
  · have pulse : PulseTowardsTarget e (.irq status) ↔
        if status.direction = false then e.niveau < e.consinge else e.consinge < e.niveau := by
      simp [PulseTowardsTarget, store, low]
    rw [pulse]
    cases hd : status.direction with
    | false =>
      by_cases towards : e.niveau < e.consinge
      · exact .inl (by simp [countPulse, resetTimeout, niveau, consinge, timer, towards])
      · exact .inr (by simp [countPulse, niveau, consinge, timer, towards])
    | true =>
      by_cases towards : e.consinge < e.niveau
      · exact .inl (by simp [countPulse, resetTimeout, niveau, consinge, timer, towards])
      · exact .inr (by simp [countPulse, niveau, consinge, timer, towards])

/-- What a step does to the watchdog. -/
theorem step_timer {m m' : App} {ev : Event} (h : step .store m ev = some m') :
    (StartsMotor m.env ev ∧ m'.env.timerTimoutStore =
      (m.env.timerTimoutStore.disarm.setfn .timeoutStore).arm timoutStoreStart true) ∨
    (¬ StartsMotor m.env ev ∧ PulseTowardsTarget m.env ev ∧
      m'.env.timerTimoutStore = m.env.timerTimoutStore.disarm.arm timoutStore true) ∨
    (¬ StartsMotor m.env ev ∧ ¬ PulseTowardsTarget m.env ev ∧
      (m'.env.timerTimoutStore = m.env.timerTimoutStore ∨
        m'.env.timerTimoutStore = m.env.timerTimoutStore.disarm)) := by
  obtain ⟨quiet, same⟩ | ⟨status, e, rfl, store, same, run⟩ | ⟨data, dataLen, rfl, command, rfl⟩ |
    ⟨rfl, run⟩ := store_step_cases h
  · refine .inr (.inr ⟨?_, ?_, .inl (congrArg Control.timerTimoutStore same)⟩)
    · cases ev with
      | mqttData => exact fun starts => quiet starts.1
      | _ => exact id
    · cases ev with
      | irq => exact fun towards => quiet towards.1
      | _ => exact id
  · have timer : e.timerTimoutStore = m.env.timerTimoutStore :=
      congrArg Control.timerTimoutStore same
    have niveau : e.niveau = m.env.niveau := congrArg Control.niveau same
    have consinge : e.consinge = m.env.consinge := congrArg Control.consinge same
    have pulse : PulseTowardsTarget e (.irq status) ↔ PulseTowardsTarget m.env (.irq status) := by
      simp only [PulseTowardsTarget, niveau, consinge]
    rw [← timer, ← pulse]
    obtain ⟨towards, armed⟩ | ⟨away, kept⟩ := storeIRQ_timer store run
    · exact .inr (.inl ⟨id, towards, armed⟩)
    · exact .inr (.inr ⟨id, away, .inl kept⟩)
  · dsimp only
    obtain ⟨up, eq⟩ | ⟨down, eq⟩ | ⟨reached, eq⟩ := storeCommand_cases (data 1) m.env
    · exact .inl ⟨⟨command, by omega⟩, by rw [eq]; rfl⟩
    · exact .inl ⟨⟨command, by omega⟩, by rw [eq]; rfl⟩
    · exact .inr (.inr ⟨fun starts => starts.2 reached, id, .inl (by rw [eq]; rfl)⟩)
  · exact .inr (.inr ⟨id, id, .inr (timeoutStore_stops run).2.2.2⟩)

/-! ## Whole runs -/

theorem started_snoc {m s : App} {es : List Event} {ev : Event} (run : AppRun .store m es s) :
    Started m (es ++ [ev]) ↔ Started m es ∨ StartsMotor s.env ev :=
  run.exists_step_snoc (P := fun _ ev (s : App) => StartsMotor s.env ev)

theorem noEarlyPulse_nil (m : App) : NoEarlyPulse m [] := by
  intro pre ev s before
  simp at before

theorem noEarlyPulse_snoc {m s : App} {es : List Event} {ev : Event} (run : AppRun .store m es s) :
    NoEarlyPulse m (es ++ [ev]) ↔
      NoEarlyPulse m es ∧ (PulseTowardsTarget s.env ev → Started m es) :=
  Run.forall_steps_snoc
    (P := fun pre ev (s : App) => PulseTowardsTarget s.env ev → Started m pre) run

theorem boot_timer (t : Nat) (name : List UInt8) :
    (userInit .store t name).env.timerTimoutStore = {} :=
  congrArg Control.timerTimoutStore (userInit_store_control t name)

/-- The watchdog has a function exactly when a command has started the motor. -/
theorem func_iff_started {t : Nat} {name : List UInt8} {es : List Event} {s : App}
    (run : AppRun .store (userInit .store t name) es s) :
    s.env.timerTimoutStore.func ≠ none ↔ Started (userInit .store t name) es := by
  induction run with
  | nil =>
    rw [boot_timer]
    refine iff_of_false (by simp) ?_
    rintro ⟨pre, ev, s, before, -⟩
    simp at before
  | @snoc es ev s s' run step ih =>
    rw [started_snoc run, ← ih]
    obtain ⟨starts, eq⟩ | ⟨rest, -, eq⟩ | ⟨rest, -, eq | eq⟩ := step_timer step <;> rw [eq]
    · simp [OsTimer.arm, OsTimer.setfn, starts]
    · simp [OsTimer.arm, OsTimer.disarm, rest]
    · simp [rest]
    · simp [OsTimer.disarm, rest]

/-- The watchdog is armed with a function all along a run exactly when no pulse towards the
target is handled before the first command that starts the motor. -/
theorem supervised_iff_noEarlyPulse {t : Nat} {name : List UInt8} {es : List Event} {m : App}
    (run : AppRun .store (userInit .store t name) es m) :
    (∀ pre s, pre <+: es → AppRun .store (userInit .store t name) pre s → Supervised s.env) ↔
      NoEarlyPulse (userInit .store t name) es := by
  induction run with
  | nil =>
    refine iff_of_true ?_ ?_
    · intro pre s before run
      obtain rfl := List.prefix_nil.mp before
      obtain rfl := run.unique .nil
      simp [Supervised, boot_timer]
    · exact noEarlyPulse_nil _
  | @snoc es ev s s' run step ih =>
    rw [Run.forall_states_snoc (P := fun _ (m : App) => Supervised m.env) (run.snoc step),
      noEarlyPulse_snoc run, ih, ← func_iff_started run]
    refine and_congr_right fun quiet => ?_
    have before : Supervised s.env := ih.mpr quiet es s List.prefix_rfl run
    obtain ⟨starts, eq⟩ | ⟨rest, towards, eq⟩ | ⟨rest, away, eq⟩ := step_timer step
    · have still : ¬ PulseTowardsTarget s.env ev := by
        cases ev with
        | mqttData => exact id
        | _ => exact starts.elim
      simp [Supervised, eq, OsTimer.arm, OsTimer.setfn, still]
    · simp [Supervised, eq, OsTimer.arm, OsTimer.disarm, towards]
    · refine iff_of_true ?_ (fun towards => absurd towards away)
      obtain eq | eq := eq <;> intro armed <;> rw [eq] at armed ⊢
      · exact before armed
      · simp [OsTimer.disarm] at armed

/-- One pulse up and one pulse down after boot arm the watchdog with no function. -/
theorem unsupervised_after_two_pulses :
    ∃ m, AppRun .store (userInit .store 100 [65])
      [.irq ⟨false, true, false, false⟩, .irq ⟨false, true, false, true⟩] m ∧
      m.env.timerTimoutStore = ⟨none, some (200, true)⟩ := by
  have timer : ((([.irq ⟨false, true, false, false⟩, .irq ⟨false, true, false, true⟩] :
      List Event).foldlM (step .store) (userInit .store 100 [65])).map
        fun m => m.env.timerTimoutStore) = some ⟨none, some (200, true)⟩ := by
    decide +kernel
  obtain ⟨m, run, armed⟩ := Option.map_eq_some_iff.mp timer
  exact ⟨m, run_iff_foldlM.mpr run, armed⟩

/-- A pulse towards the target behind the command. -/
theorem supervised_after_start :
    ∃ m, AppRun .store (userInit .store 100 [65])
      ([.message [83, 100]] ++ [.irq ⟨false, true, false, false⟩]) m ∧
      ∀ pre s, pre <+: [Event.message [83, 100]] ++ [.irq ⟨false, true, false, false⟩] →
        AppRun .store (userInit .store 100 [65]) pre s → Supervised s.env := by
  have armed : ((([.message [83, 100]] : List Event).foldlM (step .store)
      (userInit .store 100 [65])).map fun s => (s.env.timerTimoutStore.func.isSome,
        (step .store s (.irq ⟨false, true, false, false⟩)).isSome)) = some (true, true) := by
    decide +kernel
  obtain ⟨s, run, eq⟩ := Option.map_eq_some_iff.mp armed
  obtain ⟨func, goes⟩ := Prod.mk.inj eq
  obtain ⟨m, step⟩ := Option.isSome_iff_exists.mp goes
  have run := run_iff_foldlM.mpr run
  refine ⟨m, run.snoc step, (supervised_iff_noEarlyPulse (run.snoc step)).mpr ?_⟩
  rw [noEarlyPulse_snoc run, ← func_iff_started run]
  refine ⟨?_, fun _ => Option.isSome_iff_ne_none.mp func⟩
  exact (@noEarlyPulse_snoc _ _ [] _ .nil).mpr ⟨noEarlyPulse_nil _, fun towards => towards.elim⟩

/-! ## A moving motor -/

/-- A motor that moves has the watchdog behind it. With an empty scale nothing ever moves. -/
structure Watched (e : Env) : Prop where
  moving : e.puissancePwm 0 ≠ 0 ∨ e.puissancePwm 1 ≠ 0 →
    e.timerTimoutStore.armed ≠ none ∧ e.timerTimoutStore.func = some .timeoutStore
  empty : int32 e.tSleep = 0 →
    e.niveau = 0 ∧ e.consinge = 0 ∧ e.timerTimoutStore.armed = none

theorem consingeOf_empty (value : UInt8) {e : Env} (empty : int32 e.tSleep = 0) :
    consingeOf value e = 0 := by
  have multiple : (4294967296 : Int) ∣ e.tSleep := by
    rw [int32_eq] at empty
    omega
  have none : uint32 (↑(min value.toNat 100) * ↑e.tSleep) = 0 := by
    rw [uint32_eq]
    have product : (4294967296 : Int) ∣ ↑(min value.toNat 100) * ↑e.tSleep :=
      Dvd.dvd.mul_left multiple _
    omega
  unfold consingeOf
  rw [none, int32_of_range (by omega) (by omega)]
  rfl

theorem regulateDown_tSleep (delta : Int) (e : Env) :
    (regulateDown delta e).tSleep = e.tSleep := by
  unfold regulateDown
  split_ifs <;> rfl

theorem regulateUp_tSleep (delta : Int) (e : Env) : (regulateUp delta e).tSleep = e.tSleep := by
  unfold regulateUp
  split_ifs <;> rfl

theorem countPulse_tSleep (up : Bool) (e : Env) : (countPulse up e).tSleep = e.tSleep := by
  unfold countPulse
  dsimp only
  split_ifs <;> rfl

theorem stopMotor_tSleep (e : Env) : (stopMotor e).tSleep = e.tSleep := by
  unfold stopMotor
  dsimp only
  split_ifs <;> rfl

/-- A pulse is counted only with a scale to divide by. -/
theorem storeIRQ_scale {direction : Bool} {e e' : Env}
    (h : storeIRQ false direction e = some e') : int32 e.tSleep ≠ 0 := by
  intro empty
  unfold storeIRQ reportNiveau at h
  simp [pourcentage, countPulse_tSleep, regulateUp_tSleep, regulateDown_tSleep, empty] at h

theorem storeIRQ_watched {status : GpioStatus} {e e' : Env} (store : status.store = true)
    (h : storeIRQ status.pulse status.direction e = some e') (w : Watched e) : Watched e' := by
  constructor
  · intro moving
    have before : e.puissancePwm 0 ≠ 0 ∨ e.puissancePwm 1 ≠ 0 :=
      moving.imp (storeIRQ_driven h) (storeIRQ_driven h)
    obtain ⟨armed, func⟩ := w.moving before
    obtain ⟨-, eq⟩ | ⟨-, eq⟩ := storeIRQ_timer store h <;> rw [eq]
    · exact ⟨by simp [OsTimer.arm], func⟩
    · exact ⟨armed, func⟩
  · intro empty
    obtain ⟨r, n, sent, hr, out⟩ := storeIRQ_eq h
    obtain ⟨high, rfl⟩ | ⟨low, -⟩ := out
    · rw [hr, regulateUp_tSleep, regulateDown_tSleep] at empty
      rw [hr]
      simpa using w.empty empty
    · rw [low] at h
      have scale := storeIRQ_scale h
      have kept : e'.tSleep = e.tSleep := by
        obtain ⟨r, n, sent, rfl, ⟨-, rfl⟩ | ⟨-, rfl⟩⟩ := storeIRQ_eq h
        · exact (regulateUp_tSleep _ _).trans (regulateDown_tSleep _ _)
        · exact (countPulse_tSleep _ _).trans
            ((regulateUp_tSleep _ _).trans (regulateDown_tSleep _ _))
      exact absurd (kept ▸ empty) scale

theorem storeCommand_watched (value : UInt8) {e : Env} (w : Watched e) :
    Watched (storeCommand value e) := by
  -- without a scale both the target and the position are zero, so nothing starts
  have still : int32 e.tSleep = 0 → int32 (consingeOf value e - e.niveau) = 0 := fun empty => by
    rw [consingeOf_empty value empty, (w.empty empty).1]
    exact int32_of_range (by omega) (by omega)
  obtain ⟨up, eq⟩ | ⟨down, eq⟩ | ⟨reached, eq⟩ := storeCommand_cases value e <;> rw [eq]
  · exact ⟨fun _ => ⟨by simp [startTimeout, OsTimer.arm], rfl⟩,
      fun empty => absurd (still empty) (by omega)⟩
  · exact ⟨fun _ => ⟨by simp [startTimeout, OsTimer.arm], rfl⟩,
      fun empty => absurd (still empty) (by omega)⟩
  · refine ⟨fun moving => absurd moving (by simp), fun empty => ?_⟩
    exact ⟨(w.empty empty).1, consingeOf_empty value empty, (w.empty empty).2.2⟩

/-- The watchdog returns as long as there is a scale to divide by. -/
theorem timeoutStore_returns {e : Env} (scale : int32 e.tSleep ≠ 0) :
    ∃ e', timeoutStore e = some e' := by
  have kept : ((stopMotor (e.setTimerTimoutStore e.timerTimoutStore.disarm)).setPower 0).tSleep =
      e.tSleep := stopMotor_tSleep _
  simp [timeoutStore, pourcentage, kept, scale]

theorem timeoutStore_scale {e e' : Env} (h : timeoutStore e = some e') : int32 e.tSleep ≠ 0 := by
  intro empty
  have kept : ((stopMotor (e.setTimerTimoutStore e.timerTimoutStore.disarm)).setPower 0).tSleep =
      e.tSleep := stopMotor_tSleep _
  simp [timeoutStore, pourcentage, kept, empty] at h

theorem step_watched {m m' : App} {ev : Event} (h : step .store m ev = some m')
    (w : Watched m.env) : Watched m'.env := by
  have of_control : ∀ {e e' : Env}, e'.control = e.control → Watched e → Watched e' := by
    intro e e' same w
    have timer : e'.timerTimoutStore = e.timerTimoutStore := congrArg Control.timerTimoutStore same
    have pwm : e'.puissancePwm = e.puissancePwm := congrArg Control.puissancePwm same
    have niveau : e'.niveau = e.niveau := congrArg Control.niveau same
    have consinge : e'.consinge = e.consinge := congrArg Control.consinge same
    have tSleep : e'.tSleep = e.tSleep := congrArg Control.tSleep same
    exact ⟨by rw [pwm, timer]; exact w.moving,
    by rw [tSleep, niveau, consinge, timer]; exact w.empty⟩
  obtain ⟨-, same⟩ | ⟨status, e, -, store, same, run⟩ | ⟨data, dataLen, -, -, rfl⟩ | ⟨-, run⟩ :=
    store_step_cases h
  · exact of_control same w
  · exact storeIRQ_watched store run (of_control same w)
  · exact storeCommand_watched (data 1) w
  · obtain ⟨zero, one, -, -⟩ := timeoutStore_stops run
    have scale := timeoutStore_scale run
    have kept : m'.env.tSleep = m.env.tSleep := by
      obtain ⟨n, sent, eq⟩ := timeoutStore_eq run
      rw [eq]
      exact stopMotor_tSleep _
    exact ⟨fun moving => absurd moving (by simp [zero, one]),
      fun empty => absurd (kept ▸ empty) scale⟩

theorem boot_watched (t : Nat) (name : List UInt8) : Watched (userInit .store t name).env := by
  have control := userInit_store_control t name
  have pwm : (userInit .store t name).env.puissancePwm = fun _ => 0 :=
    congrArg Control.puissancePwm control
  refine ⟨fun moving => absurd moving (by simp [pwm]), fun _ => ?_⟩
  exact ⟨congrArg Control.niveau control, congrArg Control.consinge control, by simp [boot_timer]⟩

/-- A motor that moves has the watchdog armed, and the watchdog stops it: wherever the timer is
armed, `timeout_store` returns with both duties and the power at zero. -/
theorem moving_supervised {t : Nat} {name : List UInt8} {es : List Event} {m : App}
    (run : AppRun .store (userInit .store t name) es m) :
    (m.env.puissancePwm 0 ≠ 0 ∨ m.env.puissancePwm 1 ≠ 0 →
      m.env.timerTimoutStore.armed ≠ none ∧
        m.env.timerTimoutStore.func = some .timeoutStore) ∧
    (m.env.timerTimoutStore.armed ≠ none → ∃ e', timeoutStore m.env = some e' ∧
      e'.puissancePwm 0 = 0 ∧ e'.puissancePwm 1 = 0 ∧ e'.puissanceTriac = 0) := by
  have w := run.invariant (I := fun m => Watched m.env) (fun _ _ _ => step_watched)
    (boot_watched t name)
  refine ⟨w.moving, fun armed => ?_⟩
  have scale : int32 m.env.tSleep ≠ 0 := fun empty => armed (w.empty empty).2.2
  obtain ⟨e', returns⟩ := timeoutStore_returns scale
  obtain ⟨zero, one, off, -⟩ := timeoutStore_stops returns
  exact ⟨e', returns, zero, one, off⟩

/-- One command starts the motor, and the watchdog stops it. -/
theorem moving_supervised_after_start :
    ∃ m, AppRun .store (userInit .store 100 [65]) [.message [83, 100]] m ∧
      m.env.puissancePwm 1 = 100 ∧ m.env.timerTimoutStore.armed ≠ none ∧
      ∃ e', timeoutStore m.env = some e' ∧
        e'.puissancePwm 0 = 0 ∧ e'.puissancePwm 1 = 0 ∧ e'.puissanceTriac = 0 := by
  have up : ((([.message [83, 100]] : List Event).foldlM (step .store)
      (userInit .store 100 [65])).map fun m => m.env.puissancePwm 1) = some 100 := by
    decide +kernel
  obtain ⟨m, run, up⟩ := Option.map_eq_some_iff.mp up
  obtain ⟨moving, firing⟩ := moving_supervised (run_iff_foldlM.mpr run)
  have armed := (moving (.inr (by omega))).1
  exact ⟨m, run_iff_foldlM.mpr run, up, armed, firing armed⟩

end Domotic
