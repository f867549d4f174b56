import Domotic.Sleep.Station

/-!
# Falling asleep

Three results about every run of a station that sleeps. `go_sleep` is called one delay after a
`DisconnectMQTT` with nothing received in between. A station that nothing disturbs is asleep soon
after its forty seconds. And a station with switches that is left alone falls asleep only after it
has reported that every switch is released.
-/
namespace Domotic
open Library TwoWire WakeTimer

variable {b : Build} {own : UInt8} {w w' u : Wake} {ev : WakeEvent} {es es' : List WakeEvent}

/-! ## What a step does to the timers -/

abbrev WakeTimers := WakeTimer → Deadline WakeFunction

/-- A timer that was armed again. -/
def armed (f : WakeFunction) (ms : Nat) (again : Bool) : Deadline WakeFunction :=
  ⟨some f, some ms, if again then some ms else none⟩

theorem Wake.restart_timers (w : Wake) (t : WakeTimer) (f : WakeFunction) (ms : Nat)
    (again : Bool) :
    (w.restart t f ms again).timers = Function.update w.timers t (armed f ms again) := rfl

theorem Wake.pcf8885func_timers (sensed : Sensed) (w : Wake) :
    (w.pcf8885func b own sensed).timers = w.timers ∨
      (w.pcf8885func b own sensed).timers =
        Function.update w.timers timerMesure (armed .disconnectMQTT 200 true) := by
  unfold Wake.pcf8885func
  dsimp only
  split
  · exact .inr rfl
  · exact .inl rfl

/-- What the functions of the timers do to the timers. -/
inductive Called (b : Build) (a : WakeTimers) : WakeFunction → WakeTimers → Prop where
  | measured : Called b a .timerMesureHandler a
  | polled : Called b a .pcf8885func a
  | released : Called b a .pcf8885func
      (Function.update a timerMesure (armed .disconnectMQTT 200 true))
  | disconnected : Called b a .disconnectMQTT
      (Function.update a timerDisconnectMQTT (armed .goSleep (Wake.disconnectDelay b) false))
  | slept : Called b a .goSleep a

theorem Wake.call_timers (sensed : Sensed) (w : Wake) (f : WakeFunction) :
    Called b w.timers f (w.call b own sensed f).timers := by
  cases f with
  | timerMesureHandler => exact .measured
  | pcf8885func =>
    obtain eq | eq := @Wake.pcf8885func_timers b own sensed w
    · exact eq ▸ .polled
    · exact eq ▸ .released
  | disconnectMQTT => exact .disconnected
  | goSleep => exact .slept

/-- What an event does to the timers. -/
inductive Ticked (b : Build) (a : WakeTimers) : WakeEvent → WakeTimers → Prop where
  | pass (notDue : ∀ t, (a t).left ≠ some 0) : Ticked b a .pass fun t => (a t).pass
  | serve {t : WakeTimer} {sensed : Sensed} {f : WakeFunction} {a' : WakeTimers}
      (due : (a t).left = some 0) (func : (a t).func = some f)
      (call : Called b (Function.update a t (a t).serve) f a') : Ticked b a (.serve t sensed) a'
  | connected (other : b.isMeteo = false) (other' : b.switchOnly = false) :
    Ticked b a .connected a
  | polls (switches : b.switchOnly = true) :
    Ticked b a .connected (Function.update a timerMesure (armed .pcf8885func 200 true))
  | measures (meteo : b.isMeteo = true) (ms : Nat) :
    Ticked b a .connected
      (Function.update a timerDisconnectMQTT (armed .disconnectMQTT ms false))
  | message : Ticked b a .message
      (Function.update a timerDisconnectMQTT (armed .disconnectMQTT 200 false))
  | uart (c : UInt8) (ms : Nat) : Ticked b a (.uart c)
      (Function.update a timerDisconnectMQTT (armed .disconnectMQTT ms false))

/-- The effects behind the first three of `rx_uart0` leave `DisconnectMQTT` armed. -/
theorem Wake.rxEffects_timers (effects : List RxEffect) {a : WakeTimers} {ms : Nat}
    (only : ∀ e ∈ effects, e ≠ .disarmDisconnect)
    (start : w.timers = Function.update a timerDisconnectMQTT (armed .disconnectMQTT ms false)) :
    ∃ ms', (effects.foldl Wake.rxEffect w).timers =
      Function.update a timerDisconnectMQTT (armed .disconnectMQTT ms' false) := by
  induction effects generalizing w ms with
  | nil => exact ⟨ms, start⟩
  | cons e effects ih =>
    have rest := fun e mem => only e (List.mem_cons_of_mem _ mem)
    have first := only e List.mem_cons_self
    have same : ∀ x : Deadline WakeFunction,
        Function.update (Function.update a timerDisconnectMQTT (armed .disconnectMQTT ms false))
          timerDisconnectMQTT x = Function.update a timerDisconnectMQTT x := fun x =>
      Function.update_idem _ _ _
    cases e with
    | disarmDisconnect => exact absurd rfl first
    | setfnDisconnect =>
      apply @ih (w.rxEffect .setfnDisconnect) ms rest
      unfold Wake.rxEffect Wake.setTimer
      dsimp only
      rw [start, same, Function.update_self]
      rfl
    | armDisconnect ms' =>
      apply @ih (w.rxEffect (.armDisconnect ms')) ms' rest
      unfold Wake.rxEffect Wake.setTimer
      dsimp only
      rw [start, same, Function.update_self]
      rfl
    | print | printBytes | mqttSubscribe | saveAndRestart => exact ih rest start

theorem rxWait_effects (s : RxUart) (c : UInt8) :
    ∀ e ∈ (rxWait s c).effects, e ≠ .disarmDisconnect := by
  unfold rxWait
  split <;> simp [startLine, startAdresse, printMenu]

theorem rxState_effects (b : Build) (s : RxUart) (c : UInt8) :
    ∀ e ∈ (rxState b s c).effects, e ≠ .disarmDisconnect := by
  have edits : ∀ (buffer : Buffer) (base bound : Nat) (tooLong : String),
      ∀ e ∈ (editByte s buffer base bound tooLong c).effects, e ≠ .disarmDisconnect := by
    intro buffer base bound tooLong
    unfold editByte
    dsimp only
    split <;> simp
  unfold rxState
  cases s.state with
  | wait => exact rxWait_effects s c
  | configTSleep =>
    simp only [rxConfigTSleep]
    split
    · simp
    · exact edits _ _ _ _
  | configTopic =>
    simp only [rxConfigTopic]
    split
    · cases b.sleep <;> simp [endLine]
    · exact edits _ _ _ _
  | configSsid | configName | configPassword | configAddresse =>
    simp only [rxConfigSsid, rxConfigName, rxConfigPassword, rxConfigAddresse]
    split
    · simp [endLine, printMenu]
    · exact edits _ _ _ _

theorem Wake.rx_timers (sleeps : b.sleep = true) (w : Wake) (c : UInt8) :
    ∃ ms, (w.rx b c).timers =
      Function.update w.timers timerDisconnectMQTT (armed .disconnectMQTT ms false) := by
  unfold Wake.rx rxUart0
  dsimp only
  rw [if_pos sleeps, List.foldl_append]
  apply @Wake.rxEffects_timers _ (rxState b w.uart c).effects w.timers 3000
    (rxState_effects b w.uart c)
  simp only [List.foldl_cons, List.foldl_nil, Wake.rxEffect, Wake.setTimer, Function.update_idem,
    Function.update_self]
  rfl

/-- A step of a station that is awake is a step of its timers. -/
theorem Wake.step_timers (sleeps : b.sleep = true) (h : w.step b own ev = some w') :
    w.ended = none ∧ Ticked b w.timers ev w'.timers := by
  unfold Wake.step at h
  split at h
  · cases h
  rename_i awake
  refine ⟨by simpa using awake, ?_⟩
  cases ev with
  | pass =>
    obtain ⟨timers, passed, rfl⟩ := Option.map_eq_some_iff.mp h
    obtain ⟨notDue, rfl⟩ := passAll_eq passed
    exact .pass notDue
  | serve t sensed =>
    obtain ⟨⟨a, f⟩, served, rfl⟩ := Option.map_eq_some_iff.mp h
    obtain ⟨due, func, rfl⟩ := serveOne_eq served
    exact .serve due func (Wake.call_timers sensed { w with timers := _ } f)
  | connected =>
    obtain rfl := Option.some.inj h
    unfold Wake.connectedCB
    cases switches : b.switchOnly with
    | true =>
      have other : b.isMeteo = false := by cases b <;> simp_all
      rw [other]
      exact .polls switches
    | false =>
      cases meteo : b.isMeteo with
      | true => exact .measures meteo _
      | false => exact .connected meteo switches
  | message =>
    obtain rfl := Option.some.inj h
    exact .message
  | uart c =>
    obtain rfl := Option.some.inj h
    obtain ⟨ms, eq⟩ := w.rx_timers sleeps c
    exact eq ▸ .uart c ms

/-! ## What the timers are for -/

variable {a a' : WakeTimers}

/-- `timer_time_out_connection` calls `DisconnectMQTT` every forty seconds. The function and the
period of `timer_mesure` belong together, and only `timer_DisconnectMQTT` calls `go_sleep`, one
delay after it was armed for it. -/
structure Scheduled (b : Build) (a : WakeTimers) : Prop where
  timeOut_func : (a timerTimeOutConnection).func = some .disconnectMQTT
  timeOut_period : (a timerTimeOutConnection).period = some timoutConnection
  timeOut_left : ∃ n ≤ timoutConnection, (a timerTimeOutConnection).left = some n
  mesure_period : (a timerMesure).func = some .disconnectMQTT → (a timerMesure).period = some 200
  mesure_awake : (a timerMesure).func ≠ some .goSleep
  once : (a timerDisconnectMQTT).period = none
  disconnect_func : ∀ f, (a timerDisconnectMQTT).func = some f → f = .disconnectMQTT ∨ f = .goSleep
  delay : (a timerDisconnectMQTT).func = some .goSleep →
    (a timerDisconnectMQTT).Armed (· ≤ Wake.disconnectDelay b)
  idle : ∀ t, (a t).func = none → (a t).left = none ∧ (a t).period = none

/-- Arming a timer sets its function. -/
theorem idle_update (idle : ∀ t, (a t).func = none → (a t).left = none ∧ (a t).period = none)
    (t : WakeTimer) {x : Deadline WakeFunction}
    (own : x.func = none → x.left = none ∧ x.period = none) :
    ∀ t', (Function.update a t x t').func = none →
      (Function.update a t x t').left = none ∧ (Function.update a t x t').period = none := by
  intro t'
  by_cases itself : t' = t
  · subst itself
    rw [Function.update_self]
    exact own
  · rw [Function.update_of_ne itself]
    exact idle t'

theorem Scheduled.pass (h : Scheduled b a) (notDue : ∀ t, (a t).left ≠ some 0) :
    Scheduled b fun t => (a t).pass := by
  obtain ⟨n, le, left⟩ := h.timeOut_left
  obtain ⟨n, rfl, next⟩ := Deadline.exists_pass_left (notDue _) left
  refine ⟨h.timeOut_func, h.timeOut_period, ⟨n, Nat.le_of_succ_le le, next⟩, h.mesure_period,
    h.mesure_awake, h.once, h.disconnect_func, fun func => ?_,
    fun t func => ⟨by rw [Deadline.pass, (h.idle t func).1]; rfl, (h.idle t func).2⟩⟩
  exact (h.delay func).pass (notDue _) fun n le => Nat.le_of_succ_le le

theorem Scheduled.serve (h : Scheduled b a) (t : WakeTimer) :
    Scheduled b (Function.update a t (a t).serve) := by
  have idle := @idle_update a h.idle t (a t).serve fun func =>
    ⟨(h.idle t func).2, (h.idle t func).2⟩
  cases t with
  | timerMesure => exact ⟨h.timeOut_func, h.timeOut_period, h.timeOut_left, h.mesure_period,
      h.mesure_awake, h.once, h.disconnect_func, h.delay, idle⟩
  | timerTimeOutConnection => exact ⟨h.timeOut_func, h.timeOut_period,
      ⟨timoutConnection, le_rfl, h.timeOut_period⟩, h.mesure_period, h.mesure_awake, h.once,
      h.disconnect_func, h.delay, idle⟩
  | timerDisconnectMQTT =>
    refine ⟨h.timeOut_func, h.timeOut_period, h.timeOut_left, h.mesure_period, h.mesure_awake,
      h.once, h.disconnect_func, fun _ n left => ?_, idle⟩
    have none : (a timerDisconnectMQTT).period = some n := left
    rw [h.once] at none
    cases none

theorem Scheduled.armMesure (h : Scheduled b a) {f : WakeFunction} (awake : f ≠ .goSleep) :
    Scheduled b (Function.update a timerMesure (armed f 200 true)) :=
  ⟨h.timeOut_func, h.timeOut_period, h.timeOut_left, fun _ => rfl,
    fun eq => awake (Option.some.inj eq), h.once, h.disconnect_func, h.delay,
    idle_update h.idle _ (by simp [armed])⟩

theorem Scheduled.armDisconnect (h : Scheduled b a) {f : WakeFunction} {ms : Nat}
    (known : f = .disconnectMQTT ∨ f = .goSleep ∧ ms ≤ Wake.disconnectDelay b) :
    Scheduled b (Function.update a timerDisconnectMQTT (armed f ms false)) := by
  refine ⟨h.timeOut_func, h.timeOut_period, h.timeOut_left, h.mesure_period, h.mesure_awake, rfl,
    fun g func => ?_, fun func n left => ?_, idle_update h.idle _ (by simp [armed])⟩
  · obtain rfl : f = g := Option.some.inj func
    exact known.imp_right And.left
  · obtain rfl : f = .goSleep := Option.some.inj func
    obtain rfl : ms = n := Option.some.inj left
    obtain other | ⟨-, le⟩ := known
    · cases other
    · exact le

theorem Scheduled.tick (h : Scheduled b a) (tick : Ticked b a ev a') : Scheduled b a' := by
  cases tick with
  | pass notDue => exact h.pass notDue
  | serve _ _ call =>
    cases call with
    | measured | polled | slept => exact h.serve _
    | released => exact (h.serve _).armMesure (by simp)
    | disconnected => exact (h.serve _).armDisconnect (.inr ⟨rfl, le_rfl⟩)
  | connected => exact h
  | polls => exact h.armMesure (by simp)
  | measures | message | uart => exact h.armDisconnect (.inl rfl)

/-- The timers when `user_init` ends. -/
theorem Wake.userInit_timers (b : Build) (own : UInt8) (bus : I2c Sender) (cfg : Configuration)
    (adc : UInt16) (sensed : Sensed) : (Wake.userInit b own bus cfg adc sensed).timers =
      Function.update (if b.isMeteo then
          Function.update (fun _ => {}) timerMesure (armed .timerMesureHandler 100 false)
        else fun _ => {}) timerTimeOutConnection (armed .disconnectMQTT timoutConnection true) := by
  unfold Wake.userInit
  dsimp only
  cases b.isMeteo <;> cases b.switchOnly <;> rfl

theorem Wake.userInit_scheduled (b : Build) (own : UInt8) (bus : I2c Sender) (cfg : Configuration)
    (adc : UInt16) (sensed : Sensed) :
    Scheduled b (Wake.userInit b own bus cfg adc sensed).timers := by
  rw [Wake.userInit_timers]
  have idle := @idle_update (fun _ => {}) (fun _ _ => ⟨rfl, rfl⟩) timerMesure
    (armed .timerMesureHandler 100 false) (by simp [armed])
  cases b.isMeteo with
  | true => exact ⟨rfl, rfl, ⟨_, le_rfl, rfl⟩, by simp [armed], by simp [armed], rfl, by simp,
      by simp, idle_update idle _ (by simp [armed])⟩
  | false => exact ⟨rfl, rfl, ⟨_, le_rfl, rfl⟩, by simp, by simp, rfl, by simp, by simp,
      idle_update (fun _ _ => ⟨rfl, rfl⟩) _ (by simp [armed])⟩

theorem WakeRun.scheduled (sleeps : b.sleep = true) (start : Scheduled b w.timers)
    (run : WakeRun b own w es w') : Scheduled b w'.timers :=
  run.invariant (I := fun w => Scheduled b w.timers)
    (fun _ _ _ step h => h.tick (Wake.step_timers sleeps step).2) start

/-! ## Nothing is received before the station falls asleep -/

/-- The run passed a call of `DisconnectMQTT`, and since then nothing put the sleep off and `ms`
milliseconds passed. -/
def Disconnected (b : Build) (own : UInt8) (w : Wake) (es : List WakeEvent) (ms : Nat) : Prop :=
  ∃ pre ev post u, es = pre ++ ev :: post ∧ WakeRun b own w pre u ∧
    u.calls ev = some .disconnectMQTT ∧ (∀ e ∈ post, e.Quiet b) ∧ elapsed post = ms

theorem Disconnected.snoc {ms : Nat} (h : Disconnected b own w es ms) (quiet : ev.Quiet b) :
    Disconnected b own w (es ++ [ev]) (ms + elapsed [ev]) := by
  obtain ⟨pre, ev', post, u, rfl, run, calls, quiets, passed⟩ := h
  refine ⟨pre, ev', post ++ [ev], u, by simp, run, calls, ?_, ?_⟩
  · intro e mem
    obtain before | last := List.mem_append.mp mem
    · exact quiets e before
    · obtain rfl := List.mem_singleton.mp last
      exact quiet
  · rw [elapsed_append, passed]

/-- While `go_sleep` is what `timer_DisconnectMQTT` calls next, the delay is under way. -/
def Delaying (b : Build) (own : UInt8) (w : Wake) (es : List WakeEvent) (a : WakeTimers) : Prop :=
  (a timerDisconnectMQTT).func = some .goSleep → (a timerDisconnectMQTT).Armed fun d =>
    ∃ ms, Disconnected b own w es ms ∧ ms + d = Wake.disconnectDelay b

/-- A quiet event that does not reach `timer_DisconnectMQTT`. -/
theorem Delaying.quiet (h : Delaying b own w es a) (quiet : ev.Quiet b) (none : elapsed [ev] = 0)
    (same : a' timerDisconnectMQTT = a timerDisconnectMQTT) :
    Delaying b own w (es ++ [ev]) a' := by
  intro func d left
  rw [same] at func left
  obtain ⟨ms, before, sum⟩ := h func d left
  refine ⟨ms, ?_, sum⟩
  have after := before.snoc quiet
  rwa [none] at after

theorem Delaying.tick (run : WakeRun b own w es u) (h : Delaying b own w es u.timers)
    (scheduled : Scheduled b u.timers) (tick : Ticked b u.timers ev a') :
    Delaying b own w (es ++ [ev]) a' := by
  have resumed : ∀ ms, Delaying b own w (es ++ [ev])
      (Function.update u.timers timerDisconnectMQTT (armed .disconnectMQTT ms false)) := by
    intro ms func
    cases func
  cases tick with
  | pass notDue =>
    intro func d left
    obtain ⟨ms, before, sum⟩ := h func (d + 1) ((Deadline.pass_left (notDue _)).mp left)
    exact ⟨ms + 1, before.snoc trivial, by omega⟩
  | @serve t sensed f _ due func call =>
    -- a timer that was served once is not armed
    have served : Delaying b own w (es ++ [.serve t sensed])
        (Function.update u.timers t (u.timers t).serve) := by
      by_cases itself : t = timerDisconnectMQTT
      · subst itself
        intro _ d left
        rw [Function.update_self, Deadline.serve_left, scheduled.once] at left
        cases left
      · exact h.quiet trivial rfl (Function.update_of_ne (Ne.symm itself) _ _)
    cases call with
    | measured | polled | slept => exact served
    | released => exact served
    | disconnected =>
      intro _ d left
      obtain rfl : Wake.disconnectDelay b = d := Option.some.inj left
      exact ⟨0, ⟨es, _, [], u, rfl, run, func, by simp, rfl⟩, Nat.zero_add _⟩
  | connected other => exact h.quiet other rfl rfl
  | polls switches =>
    have other : b.isMeteo = false := by cases b <;> simp_all
    exact h.quiet other rfl rfl
  | measures _ ms => exact resumed ms
  | message => exact resumed 200
  | uart c ms => exact resumed ms

theorem WakeRun.delaying (sleeps : b.sleep = true) (start : Scheduled b w.timers)
    (fresh : Delaying b own w [] w.timers) (run : WakeRun b own w es w') :
    Delaying b own w es w'.timers := by
  induction run with
  | nil => exact fresh
  | snoc run step ih =>
    exact ih.tick run (WakeRun.scheduled sleeps start run) (Wake.step_timers sleeps step).2

theorem Wake.rxEffects_ended (effects : List RxEffect) (w : Wake) :
    (effects.foldl Wake.rxEffect w).ended = w.ended ∨
      (effects.foldl Wake.rxEffect w).ended = some .restarts := by
  induction effects generalizing w with
  | nil => exact .inl rfl
  | cons e effects ih =>
    obtain eq | eq := ih (w.rxEffect e)
    · cases e with
      | saveAndRestart => exact .inr eq
      | _ => exact .inl eq
    · exact .inr eq

/-- Only `go_sleep` makes the station sleep. -/
theorem Wake.step_sleeps {us : Nat} (h : w.step b own ev = some w')
    (asleep : w'.ended = some (.sleeps us)) :
    ∃ t sensed, ev = .serve t sensed ∧ (w.timers t).left = some 0 ∧
      (w.timers t).func = some .goSleep ∧ us = Domotic.goSleep w'.uart.tSleep := by
  unfold Wake.step at h
  split at h
  · cases h
  rename_i awake
  have awake : w.ended = none := by simpa using awake
  have still : ∀ w'' : Wake, w''.ended = w.ended → w'' ≠ w' := by
    rintro _ same rfl
    rw [same, awake] at asleep
    cases asleep
  cases ev with
  | pass =>
    obtain ⟨timers, -, eq⟩ := Option.map_eq_some_iff.mp h
    exact absurd eq (still _ rfl)
  | connected =>
    refine absurd (Option.some.inj h) (still _ ?_)
    unfold Wake.connectedCB
    dsimp only
    split_ifs <;> rfl
  | message => exact absurd (Option.some.inj h) (still _ rfl)
  | uart c =>
    obtain rfl := Option.some.inj h
    obtain eq | eq := Wake.rxEffects_ended (rxUart0 b w.uart c).effects
      { w with uart := (rxUart0 b w.uart c).next }
    · exact absurd rfl (still _ eq)
    · rw [show (w.rx b c).ended = some .restarts from eq] at asleep
      cases asleep
  | serve t sensed =>
    obtain ⟨⟨a, f⟩, served, rfl⟩ := Option.map_eq_some_iff.mp h
    obtain ⟨due, func, rfl⟩ := serveOne_eq served
    cases f with
    | goSleep =>
      exact ⟨t, sensed, rfl, due, func, (Ending.sleeps.inj (Option.some.inj asleep)).symm⟩
    | timerMesureHandler => exact absurd rfl (still _ rfl)
    | disconnectMQTT => exact absurd rfl (still _ rfl)
    | pcf8885func =>
      refine absurd rfl (still _ ?_)
      unfold Wake.call Wake.pcf8885func
      dsimp only
      split_ifs <;> rfl

theorem Wake.userInit_ended (b : Build) (own : UInt8) (bus : I2c Sender) (cfg : Configuration)
    (adc : UInt16) (sensed : Sensed) : (Wake.userInit b own bus cfg adc sensed).ended =
      if Wake.LowBattery b adc then some (.sleeps (tLongSleep * 1000 * 1000)) else none := by
  unfold Wake.userInit
  dsimp only
  cases b.isMeteo <;> cases b.switchOnly <;> rfl

/-- In every run from the start, a station sleeps because its battery is low when it starts, or
`go_sleep` is called one delay after a `DisconnectMQTT`, with nothing received in between, for the
sleep time that is configured then. The microseconds are a product of 32 bits. -/
theorem sleeps_after_disconnect (sleeps : b.sleep = true) {bus : I2c Sender} {cfg : Configuration}
    {adc : UInt16} {sensed : Sensed} {us : Nat}
    (run : WakeRun b own (.userInit b own bus cfg adc sensed) es w)
    (asleep : w.ended = some (.sleeps us)) :
    (es = [] ∧ Wake.LowBattery b adc ∧ us = tLongSleep * 1000 * 1000) ∨
      (us = w.uart.tSleep * 1000000 % 2 ^ 32 ∧
        ∃ pre ev post u sensed', es = pre ++ ev :: post ++ [.serve timerDisconnectMQTT sensed'] ∧
          WakeRun b own (.userInit b own bus cfg adc sensed) pre u ∧
          u.calls ev = some .disconnectMQTT ∧ (∀ e ∈ post, e.Quiet b) ∧
          elapsed post = Wake.disconnectDelay b) := by
  have start := Wake.userInit_scheduled b own bus cfg adc sensed
  cases run with
  | nil =>
    rw [Wake.userInit_ended] at asleep
    obtain ⟨low, eq⟩ := Option.ite_none_right_eq_some.mp asleep
    exact .inl ⟨rfl, low, (Ending.sleeps.inj (Option.some.inj eq)).symm⟩
  | @snoc es ev v _ run step =>
    obtain ⟨t, sensed', rfl, due, func, configured⟩ := Wake.step_sleeps step asleep
    have scheduled := WakeRun.scheduled sleeps start run
    obtain rfl : t = timerDisconnectMQTT := by
      cases t with
      | timerMesure => exact absurd func scheduled.mesure_awake
      | timerTimeOutConnection =>
        rw [scheduled.timeOut_func] at func
        cases func
      | timerDisconnectMQTT => rfl
    have fresh : Delaying b own (.userInit b own bus cfg adc sensed) []
        (Wake.userInit b own bus cfg adc sensed).timers := by
      rw [Wake.userInit_timers]
      intro func
      cases meteo : b.isMeteo with
      | true =>
        rw [meteo] at func
        cases func
      | false =>
        rw [meteo] at func
        cases func
    obtain ⟨ms, ⟨pre, ev, post, u, rfl, run', calls, quiets, passed⟩, sum⟩ :=
      WakeRun.delaying sleeps start fresh run func 0 due
    exact .inr ⟨configured.trans (goSleep_eq _), pre, ev, post, u, sensed', by simp, run', calls,
      quiets, passed.trans (by omega)⟩

/-! A station without switches that gets one message. -/

def plainBus : I2c Sender :=
  ⟨true, true, ⟨⟨true, true, none⟩, [], ⟨⟨true, true, none⟩, .idle, true, 0⟩⟩⟩

def plainSensed : Sensed := ⟨0, 0, ⟨0, 0, 0⟩⟩

/-- The name `A` and a minute of sleep. -/
def plainConfiguration : Configuration :=
  ⟨.replicate 32 0, .replicate 64 0, .replicate 64 0, (Vector.replicate 32 0).set 0 65, 60⟩

def plainStart : Wake := .userInit .switchQt1040 0 plainBus plainConfiguration 1000 plainSensed

/-- After a message: two hundred milliseconds, `DisconnectMQTT`, twenty more, `go_sleep`. -/
def plainRest : List WakeEvent :=
  List.replicate 200 .pass ++ [.serve timerDisconnectMQTT plainSensed] ++
    List.replicate 20 .pass ++ [.serve timerDisconnectMQTT plainSensed]

theorem WakeRun.of_ended {e : Option Ending}
    (h : (es.foldlM (Wake.step b own) w).map (·.ended) = some e) :
    ∃ w', WakeRun b own w es w' ∧ w'.ended = e := by
  obtain ⟨w', run, ended⟩ := Option.map_eq_some_iff.mp h
  exact ⟨w', run_iff_foldlM.mpr run, ended⟩

theorem plain_message : WakeRun .switchQt1040 0 plainStart [.message] plainStart.mqttDataCb :=
  .single rfl

set_option maxRecDepth 10000 in
theorem plain_sleeps :
    (plainRest.foldlM (Wake.step .switchQt1040 0) plainStart.mqttDataCb).map (·.ended) =
      some (some (.sleeps 60000000)) := by
  decide +kernel

theorem sleeps_after_disconnect_message : ∃ w : Wake,
    w.ended = some (.sleeps 60000000) ∧ 60000000 = w.uart.tSleep * 1000000 % 2 ^ 32 ∧
      ∃ pre ev post u sensed',
        WakeEvent.message :: plainRest = pre ++ ev :: post ++ [.serve timerDisconnectMQTT sensed'] ∧
        WakeRun .switchQt1040 0 plainStart pre u ∧ u.calls ev = some .disconnectMQTT ∧
        (∀ e ∈ post, e.Quiet .switchQt1040) ∧
        elapsed post = Wake.disconnectDelay .switchQt1040 := by
  obtain ⟨w, rest, asleep⟩ := WakeRun.of_ended plain_sleeps
  refine ⟨w, asleep, ?_⟩
  obtain ⟨-, low, -⟩ | after := sleeps_after_disconnect rfl (plain_message.append rest) asleep
  · exact absurd low.1 Bool.false_ne_true
  · exact after

/-! ## A station that nothing disturbs falls asleep -/

theorem disconnectDelay_le (b : Build) : Wake.disconnectDelay b ≤ 50 := by
  unfold Wake.disconnectDelay
  split
  · exact le_rfl
  · decide

/-- `ms` milliseconds after a call of `DisconnectMQTT`, `go_sleep` is what is called next. Each of
the other timers can have called `DisconnectMQTT` once more since then: it takes at least two
hundred milliseconds until it does so again. -/
structure Dozing (b : Build) (ms : Nat) (a : WakeTimers) : Prop where
  func : (a timerDisconnectMQTT).func = some .goSleep
  left : ∃ (d : Nat) (again again' : Bool), (a timerDisconnectMQTT).left = some d ∧
    ms + d ≤ Wake.disconnectDelay b * (1 + again.toNat + again'.toNat) ∧
    (again = true → (a timerMesure).Armed fun l => 200 ≤ l + ms) ∧
    (again' = true → (a timerTimeOutConnection).Armed fun l => timoutConnection ≤ l + ms)

theorem Dozing.short {ms : Nat} (h : Dozing b ms a) : ms ≤ 3 * Wake.disconnectDelay b := by
  obtain ⟨-, d, again, again', -, sum, -⟩ := h
  have most : 1 + again.toNat + again'.toNat ≤ 3 := by cases again <;> cases again' <;> decide
  have product := Nat.mul_le_mul_left (Wake.disconnectDelay b) most
  omega

/-- The station goes on dozing in a quiet event, unless it falls asleep. -/
theorem Dozing.tick {ms : Nat} (h : Dozing b ms a) (scheduled : Scheduled b a)
    (tick : Ticked b a ev a') (quiet : ev.Quiet b)
    (awake : ∀ t sensed, ev = .serve t sensed → (a t).func ≠ some .goSleep) :
    Dozing b (ms + elapsed [ev]) a' := by
  have short := h.short
  have delay := disconnectDelay_le b
  have once_more (k : Nat) : Wake.disconnectDelay b * (k + 1) =
      Wake.disconnectDelay b * k + Wake.disconnectDelay b := Nat.mul_succ _ k
  obtain ⟨func, d, again, again', left, sum, mesure, timeOut⟩ := h
  cases tick with
  | pass notDue =>
    obtain ⟨d, rfl, less⟩ := Deadline.exists_pass_left (notDue _) left
    refine ⟨func, d, again, again', less, ?_, ?_, ?_⟩
    · simp only [elapsed]
      omega
    · intro h
      refine (mesure h).pass (notDue _) ?_
      intro l le
      simp only [elapsed]
      omega
    · intro h
      refine (timeOut h).pass (notDue _) ?_
      intro l le
      simp only [elapsed]
      omega
  | @serve t sensed f _ due known call =>
    have asleep := awake t sensed rfl
    cases t with
    | timerDisconnectMQTT => exact absurd func asleep
    | timerMesure =>
      have first : again = false := by
        cases again with
        | false => rfl
        | true =>
          have late := mesure rfl 0 due
          omega
      subst first
      cases call with
      | measured | polled => exact ⟨func, d, false, again', left, sum, by simp, timeOut⟩
      | released => exact ⟨func, d, false, again', left, sum, by simp, timeOut⟩
      | slept => exact absurd known asleep
      | disconnected =>
        refine ⟨rfl, _, true, again', rfl, ?_, fun _ l left => ?_, timeOut⟩
        · simp only [elapsed, Bool.toNat_true, Bool.toNat_false, Nat.add_zero] at sum ⊢
          have delays := once_more (1 + again'.toNat)
          rw [Nat.add_right_comm] at delays
          omega
        · have period : (a timerMesure).period = some l := left
          rw [scheduled.mesure_period known] at period
          obtain rfl : 200 = l := Option.some.inj period
          omega
    | timerTimeOutConnection =>
      have first : again' = false := by
        cases again' with
        | false => rfl
        | true =>
          have late := timeOut rfl 0 due
          unfold timoutConnection at late
          omega
      subst first
      obtain rfl : f = .disconnectMQTT :=
        Option.some.inj (known.symm.trans scheduled.timeOut_func)
      cases call with
      | disconnected =>
        refine ⟨rfl, _, again, true, rfl, ?_, mesure, fun _ l left => ?_⟩
        · simp only [elapsed, Bool.toNat_true, Bool.toNat_false, Nat.add_zero] at sum ⊢
          have delays := once_more (1 + again.toNat)
          omega
        · have period : (a timerTimeOutConnection).period = some l := left
          rw [scheduled.timeOut_period] at period
          obtain rfl : timoutConnection = l := Option.some.inj period
          omega
  | connected => exact ⟨func, d, again, again', left, sum, mesure, timeOut⟩
  | polls =>
    refine ⟨func, d, again, again', left, sum, fun _ l left => ?_, timeOut⟩
    obtain rfl : 200 = l := Option.some.inj left
    omega
  | measures meteo =>
    rw [show b.isMeteo = false from quiet] at meteo
    cases meteo
  | message => exact quiet.elim
  | uart => exact quiet.elim

/-- `timer_time_out_connection` has still to call `DisconnectMQTT`, or it has and the station is
dozing. -/
def Settling (b : Build) (ms : Nat) (a : WakeTimers) : Prop :=
  (∃ n, (a timerTimeOutConnection).left = some n ∧ ms + n ≤ timoutConnection) ∨
    ∃ before after, before ≤ timoutConnection ∧ ms = before + after ∧ Dozing b after a

theorem Settling.short {ms : Nat} (h : Settling b ms a) :
    ms ≤ timoutConnection + 3 * Wake.disconnectDelay b := by
  obtain ⟨n, -, sum⟩ | ⟨before, after, le, rfl, dozing⟩ := h
  · omega
  · have short := dozing.short
    omega

theorem Settling.tick {ms : Nat} (h : Settling b ms a) (scheduled : Scheduled b a)
    (tick : Ticked b a ev a') (quiet : ev.Quiet b)
    (awake : ∀ t sensed, ev = .serve t sensed → (a t).func ≠ some .goSleep) :
    Settling b (ms + elapsed [ev]) a' := by
  obtain ⟨n, left, sum⟩ | ⟨before, after, le, rfl, dozing⟩ := h
  swap
  · exact .inr ⟨before, after + elapsed [ev], le, by omega, dozing.tick scheduled tick quiet awake⟩
  have still : ∀ a' : WakeTimers, a' timerTimeOutConnection = a timerTimeOutConnection →
      Settling b ms a' := fun a' same => .inl ⟨n, by rw [same]; exact left, sum⟩
  cases tick with
  | pass notDue =>
    obtain ⟨n, rfl, less⟩ := Deadline.exists_pass_left (notDue _) left
    refine .inl ⟨n, less, ?_⟩
    simp only [elapsed]
    omega
  | @serve t sensed f _ due known call =>
    by_cases itself : t = timerTimeOutConnection
    · subst itself
      obtain rfl : f = .disconnectMQTT :=
        Option.some.inj (known.symm.trans scheduled.timeOut_func)
      cases call with
      | disconnected =>
        refine .inr ⟨ms, 0, by omega, rfl, rfl, _, false, false, rfl, ?_, by simp, by simp⟩
        simp
    · have other := Function.update_of_ne (Ne.symm itself) (a t).serve a
      cases call with
      | measured | polled | slept | released | disconnected => exact still _ other
  | connected => exact still _ rfl
  | polls => exact still _ rfl
  | measures meteo =>
    rw [show b.isMeteo = false from quiet] at meteo
    cases meteo
  | message => exact quiet.elim
  | uart => exact quiet.elim

/-- A station that `go_sleep` is called in does not stay awake. -/
theorem Wake.step_goSleep {t : WakeTimer} {sensed : Sensed}
    (h : w.step b own (.serve t sensed) = some w') (func : (w.timers t).func = some .goSleep) :
    w'.ended ≠ none := by
  unfold Wake.step at h
  split at h
  · cases h
  · obtain ⟨⟨a, f⟩, served, rfl⟩ := Option.map_eq_some_iff.mp h
    obtain ⟨-, known, rfl⟩ := serveOne_eq served
    obtain rfl : f = .goSleep := Option.some.inj (known.symm.trans func)
    exact Option.some_ne_none _

/-- While the station is awake, time passes or a timer is served. -/
theorem Scheduled.goes_on (scheduled : Scheduled b w.timers) (awake : w.ended = none)
    (own : UInt8) (sensed : Sensed) :
    ∃ ev w', (ev = .pass ∨ ∃ t, ev = .serve t sensed) ∧ w.step b own ev = some w' := by
  have awake' : ¬ w.ended.isSome = true := by simp [awake]
  by_cases due : ∃ t, (w.timers t).left = some 0
  · obtain ⟨t, due⟩ := due
    have known : (w.timers t).func ≠ none := fun none => by
      rw [(scheduled.idle t none).1] at due
      cases due
    obtain ⟨f, func⟩ := Option.ne_none_iff_exists'.mp known
    refine ⟨.serve t sensed, Wake.call b own sensed
      { w with timers := Function.update w.timers t (w.timers t).serve } f, .inr ⟨t, rfl⟩, ?_⟩
    unfold Wake.step serveOne
    rw [if_neg awake']
    dsimp only
    rw [if_pos due, func]
    rfl
  · refine ⟨_, { w with timers := fun t => (w.timers t).pass }, .inl rfl, ?_⟩
    unfold Wake.step passAll
    rw [if_neg awake']
    dsimp only
    rw [if_pos (not_exists.mp due)]
    rfl

/-- From every reachable state a station that nothing disturbs is asleep within forty seconds and
three delays, and as long as it is awake, time passes or a timer is served. -/
theorem asleep_within (sleeps : b.sleep = true) {bus : I2c Sender} {cfg : Configuration}
    {adc : UInt16} {sensed : Sensed} (run : WakeRun b own (.userInit b own bus cfg adc sensed) es w)
    (rest : WakeRun b own w es' w') (quiet : ∀ ev ∈ es', ev.Quiet b) :
    elapsed es' ≤ timoutConnection + 3 * Wake.disconnectDelay b ∧
      (w'.ended = none → ∀ sensed', ∃ ev w'',
        (ev = .pass ∨ ∃ t, ev = .serve t sensed') ∧ w'.step b own ev = some w'') := by
  have scheduled := WakeRun.scheduled sleeps (Wake.userInit_scheduled b own bus cfg adc sensed) run
  have settles : elapsed es' ≤ timoutConnection + 3 * Wake.disconnectDelay b ∧
      (w'.ended = none → Settling b (elapsed es') w'.timers) := by
    induction rest with
    | nil =>
      obtain ⟨n, le, left⟩ := scheduled.timeOut_left
      exact ⟨Nat.zero_le _, fun _ => .inl ⟨n, left, by simpa [elapsed] using le⟩⟩
    | @snoc es' ev v v' rest step ih =>
      obtain ⟨awake, tick⟩ := Wake.step_timers sleeps step
      have settling := (ih fun e mem => quiet e (List.mem_append_left _ mem)).2 awake
      have last := quiet ev (List.mem_append_right _ List.mem_cons_self)
      rw [elapsed_append]
      by_cases asleep : ∃ t sensed, ev = .serve t sensed ∧ (v.timers t).func = some .goSleep
      · obtain ⟨t, sensed', rfl, func⟩ := asleep
        exact ⟨settling.short, fun awake' => absurd awake' (Wake.step_goSleep step func)⟩
      · push Not at asleep
        have next := settling.tick (WakeRun.scheduled sleeps scheduled rest) tick last asleep
        exact ⟨next.short, fun _ => next⟩
  exact ⟨settles.1, fun awake sensed' =>
    (WakeRun.scheduled sleeps scheduled rest).goes_on awake own sensed'⟩

set_option maxRecDepth 10000 in
theorem plain_waits :
    ((List.replicate 200 .pass).foldlM (Wake.step .switchQt1040 0) plainStart.mqttDataCb).map
      (·.ended) = some none := by
  decide +kernel

/-- Two hundred milliseconds after the message the station is awake, and goes on. -/
theorem asleep_within_message :
    elapsed (List.replicate 200 .pass) ≤
        timoutConnection + 3 * Wake.disconnectDelay .switchQt1040 ∧
      ∃ w : Wake, w.ended = none ∧ ∀ sensed, ∃ ev w'',
        (ev = .pass ∨ ∃ t, ev = .serve t sensed) ∧ w.step .switchQt1040 0 ev = some w'' := by
  have quiet : ∀ ev ∈ List.replicate 200 WakeEvent.pass, ev.Quiet .switchQt1040 := by
    intro ev mem
    obtain rfl := List.eq_of_mem_replicate mem
    exact trivial
  obtain ⟨w, rest, awake⟩ := WakeRun.of_ended plain_waits
  obtain ⟨bound, more⟩ := asleep_within rfl plain_message rest quiet
  exact ⟨bound, w, awake, more awake⟩

/-! ## A station with switches reports every release -/

/-- What was reported last for every switch is the byte that was read last. -/
structure Shown (s : Switches Sender) : Prop where
  named : s.env.meter.Named
  last : ∀ l < 8, (reported l s.env).getLastD 0 =
    if s.oldStatSwitch.toNat.testBit l then 100 else 0

theorem Shown.send {s : Switches Sender} (h : Shown s) (b : Build) (dev : Device Sender) :
    Shown (sendPcf8885 b dev s).1 := by
  refine ⟨(@sendPcf8885_reported 0 Sender dev s b h.named (by decide)).1, ?_⟩
  intro l less
  rw [(@sendPcf8885_reported l Sender dev s b h.named less).2]
  unfold changed
  split
  · rw [List.getLastD_concat]
  · rename_i same
    rw [List.append_nil, h.last l less, not_not.mp same]

/-- The byte is zero when the station is about to disconnect, and it is not read again before the
station sleeps. -/
structure Letting (a : WakeTimers) (s : Switches Sender) : Prop where
  measures : (a timerMesure).func ≠ some .timerMesureHandler
  polls : (a timerMesure).func = some .pcf8885func → (a timerMesure).period = some 200
  released : (a timerMesure).func = some .disconnectMQTT → s.oldStatSwitch = 0
  disconnects : (a timerDisconnectMQTT).func ≠ some .disconnectMQTT
  sleeps : (a timerDisconnectMQTT).func = some .goSleep → s.oldStatSwitch = 0 ∧
    ∃ d, (a timerDisconnectMQTT).left = some d ∧
      ((a timerMesure).func = some .pcf8885func → ∃ n, (a timerMesure).left = some n ∧ d < n)

/-- Nothing but the switches and connections reaches the station, and it does not give up. -/
def WakeEvent.Alone : WakeEvent → Prop
  | .pass | .connected => True
  | .serve t _ => t ≠ timerTimeOutConnection
  | .message | .uart _ => False

theorem Letting.pass {s : Switches Sender} (h : Letting a s)
    (notDue : ∀ t, (a t).left ≠ some 0) : Letting (fun t => (a t).pass) s := by
  refine ⟨h.measures, h.polls, h.released, h.disconnects, ?_⟩
  intro func
  obtain ⟨zero, d, left, later⟩ := h.sleeps func
  obtain ⟨d, rfl, next⟩ := Deadline.exists_pass_left (notDue _) left
  refine ⟨zero, d, next, ?_⟩
  intro polls
  obtain ⟨n, left', less⟩ := later polls
  obtain ⟨n, rfl, next'⟩ := Deadline.exists_pass_left (notDue _) left'
  exact ⟨n, next', by omega⟩

/-- A poll, when the station is not about to sleep. -/
theorem Letting.poll (h : Letting a w.switches) (shown : Shown w.switches)
    (awake : (a timerDisconnectMQTT).func ≠ some .goSleep)
    (func : (a timerMesure).func = some .pcf8885func) (own : UInt8) (sensed : Sensed) :
    let w' := Wake.pcf8885func .switchPcf8885 own sensed
      { w with timers := Function.update a timerMesure (a timerMesure).serve }
    Shown w'.switches ∧ w'.ended = w.ended ∧ Letting w'.timers w'.switches := by
  have shown' : Shown { w.switches with bus := setValue sensed.switches w.switches.bus } :=
    ⟨shown.named, shown.last⟩
  have sent := shown'.send .switchPcf8885 (sender own)
  intro w'
  unfold w' Wake.pcf8885func
  dsimp only
  split
  · rename_i zero
    refine ⟨sent, rfl, by simp [Wake.restart_timers, armed], by simp [Wake.restart_timers, armed],
      fun _ => zero.2, h.disconnects, fun func => absurd func awake⟩
  · refine ⟨sent, rfl, h.measures, h.polls, fun func' => ?_, h.disconnects,
      fun func => absurd func awake⟩
    have known : (a timerMesure).func = some .disconnectMQTT := func'
    rw [func] at known
    cases known

theorem Letting.step (h : Letting w.timers w.switches) (shown : Shown w.switches)
    (scheduled : Scheduled .switchPcf8885 w.timers) (alone : ev.Alone)
    (step : w.step .switchPcf8885 own ev = some w') :
    Shown w'.switches ∧ (w'.ended = none → Letting w'.timers w'.switches) ∧
      (w'.ended ≠ none → w'.switches.oldStatSwitch = 0) := by
  have awake := (Wake.step_timers rfl step).1
  unfold Wake.step at step
  rw [if_neg (by simp [awake])] at step
  cases ev with
  | pass =>
    obtain ⟨timers, passed, rfl⟩ := Option.map_eq_some_iff.mp step
    obtain ⟨notDue, rfl⟩ := passAll_eq passed
    exact ⟨shown, fun _ => h.pass notDue, fun ended => absurd awake ended⟩
  | connected =>
    obtain rfl := Option.some.inj step
    refine ⟨shown, fun _ => ⟨?_, fun _ => rfl, ?_, h.disconnects, fun func => ?_⟩,
      fun ended => absurd awake ended⟩
    · exact fun eq => by cases eq
    · exact fun eq => by cases eq
    · obtain ⟨zero, d, left, -⟩ := h.sleeps func
      have le : d ≤ 50 := scheduled.delay func d left
      exact ⟨zero, d, left, fun _ => ⟨200, rfl, by omega⟩⟩
  | message => exact alone.elim
  | uart => exact alone.elim
  | serve t sensed =>
    obtain ⟨⟨a, f⟩, served, rfl⟩ := Option.map_eq_some_iff.mp step
    obtain ⟨due, func, rfl⟩ := serveOne_eq served
    cases t with
    | timerTimeOutConnection => exact absurd rfl alone
    | timerMesure =>
      cases f with
      | timerMesureHandler => exact absurd func h.measures
      | goSleep => exact absurd func scheduled.mesure_awake
      | pcf8885func =>
        have early : (w.timers timerDisconnectMQTT).func ≠ some .goSleep := by
          intro sleeps
          obtain ⟨-, d, -, later⟩ := h.sleeps sleeps
          obtain ⟨n, left, less⟩ := later func
          rw [due] at left
          obtain rfl := Option.some.inj left
          omega
        obtain ⟨shown', same, letting⟩ := h.poll shown early func own sensed
        exact ⟨shown', fun _ => letting, fun ended => absurd (same.trans awake) ended⟩
      | disconnectMQTT =>
        refine ⟨shown, fun _ => ⟨h.measures, h.polls, h.released, ?_, fun _ => ?_⟩,
          fun ended => absurd awake ended⟩
        · exact fun eq => by cases eq
        · refine ⟨h.released func, 50, rfl, fun polls => ?_⟩
          have known : (w.timers timerMesure).func = some .pcf8885func := polls
          rw [func] at known
          cases known
    | timerDisconnectMQTT =>
      obtain rfl | rfl := scheduled.disconnect_func f func
      · exact absurd func h.disconnects
      · exact ⟨shown, fun awake' => absurd awake' (Option.some_ne_none _), fun _ =>
          (h.sleeps func).1⟩

theorem Shown.boot {name : List UInt8} (named : name.headD 0 ≠ 0) (b : Build)
    (dev : Device Sender) (bus bus' : I2c Sender) (tSleep : Nat) (ubat : Int) :
    Shown { Switches.boot b dev bus tSleep ubat name with bus := bus' } := by
  obtain ⟨sent, station⟩ := userInit_env b tSleep name
  refine ⟨?_, fun l _ => ?_⟩
  · unfold Meter.Named Env.meter Switches.boot
    dsimp only
    rw [station]
    exact named
  · unfold Switches.boot reported
    dsimp only
    rw [sent, show (0 : UInt8).toNat.testBit l = false from Nat.zero_testBit l]
    rfl

theorem WakeRun.letting {bus : I2c Sender} {cfg : Configuration} {adc : UInt16} {sensed : Sensed}
    (named : cfg.stationName.toList.headD 0 ≠ 0)
    (run : WakeRun .switchPcf8885 own (.userInit .switchPcf8885 own bus cfg adc sensed) es w)
    (alone : ∀ ev ∈ es, ev.Alone) :
    Shown w.switches ∧ (w.ended = none → Letting w.timers w.switches) ∧
      (w.ended ≠ none → w.switches.oldStatSwitch = 0) := by
  induction run with
  | nil =>
    refine ⟨(Shown.boot named _ _ bus _ _ _).send .switchPcf8885 (sender own), fun _ => ?_,
      fun ended => absurd rfl ended⟩
    rw [Wake.userInit_timers]
    exact ⟨by simp, by simp, by simp, by simp, by simp⟩
  | snoc run step ih =>
    have awake := (Wake.step_timers rfl step).1
    obtain ⟨shown, letting, -⟩ := ih fun ev mem => alone ev (List.mem_append_left _ mem)
    have scheduled := WakeRun.scheduled rfl
      (Wake.userInit_scheduled .switchPcf8885 own bus cfg adc sensed) run
    exact (letting awake).step shown scheduled
      (alone _ (List.mem_append_right _ List.mem_cons_self)) step

/-- A station with switches that is left alone sleeps only after the last report of every switch
was that it is released. -/
theorem sleeps_released {bus : I2c Sender} {cfg : Configuration} {adc : UInt16} {sensed : Sensed}
    (named : cfg.stationName.toList.headD 0 ≠ 0)
    (run : WakeRun .switchPcf8885 own (.userInit .switchPcf8885 own bus cfg adc sensed) es w)
    (alone : ∀ ev ∈ es, ev.Alone) (asleep : w.ended ≠ none) {l : Nat} (less : l < 8) :
    (reported l w.switches.env).getLastD 0 = 0 := by
  obtain ⟨shown, -, zero⟩ := WakeRun.letting named run alone
  rw [shown.last l less, zero asleep, show (0 : UInt8).toNat.testBit l = false from
    Nat.zero_testBit l]
  rfl

/-- The first switch is touched at the start, and released when it is polled. -/
def touchedStart : Wake :=
  .userInit .switchPcf8885 0x41 plainBus plainConfiguration 1000 { plainSensed with switches := 1 }

def released : List WakeEvent :=
  .connected :: List.replicate 200 .pass ++ [.serve timerMesure plainSensed] ++
    List.replicate 200 .pass ++ [.serve timerMesure plainSensed] ++
    List.replicate 50 .pass ++ [.serve timerDisconnectMQTT plainSensed]

set_option maxRecDepth 10000 in
theorem released_sleeps :
    (released.foldlM (Wake.step .switchPcf8885 0x41) touchedStart).map (·.ended) =
      some (some (.sleeps 60000000)) := by
  decide +kernel

theorem sleeps_released_touched : ∃ w : Wake, w.ended = some (.sleeps 60000000) ∧
    (reported 0 w.switches.env).getLastD 0 = 0 := by
  obtain ⟨w, run, asleep⟩ := WakeRun.of_ended released_sleeps
  have alone : ∀ ev ∈ released, ev.Alone := by
    intro ev mem
    unfold released at mem
    simp only [List.mem_append, List.mem_cons, List.mem_replicate, List.not_mem_nil,
      or_false] at mem
    obtain (((((rfl | ⟨-, rfl⟩) | rfl) | ⟨-, rfl⟩) | rfl) | ⟨-, rfl⟩) | rfl := mem
    all_goals simp [WakeEvent.Alone]
  exact ⟨w, asleep, sleeps_released (by decide) run alone
    (by rw [asleep]; exact Option.some_ne_none _) (by decide)⟩

end Domotic
