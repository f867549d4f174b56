import Domotic.Store.Approach

/-!
# Stopping at the target

After a command the motor is in one of two phases. While it approaches, the position is on the
near side of the target; the first call that finds the target reached stops it. The call tests
the position before it counts its own pulse, so the motor stops on the target or one pulse away.
-/
namespace Domotic
open Library

variable {m m₁ m' : App} {e e' : Env} {up : Bool}

/-- The channel that turns the motor in a direction. -/
def channel (up : Bool) : Nat := if up then 1 else 0

/-- The position has reached the target in the driven direction. -/
def Reached (up : Bool) (e : Env) : Prop :=
  if up then e.consinge ≤ e.niveau else e.niveau ≤ e.consinge

/-- The event calls `storeIRQ` at a position that has reached the target. -/
def CallsAtTarget (up : Bool) (e : Env) : Event → Prop
  | .irq status => status.store = true ∧ Reached up e
  | _ => False

/-- Somewhere in the events `es` from `m`, a call found the target reached. -/
def ReachedBy (up : Bool) (m : App) (es : List Event) : Prop :=
  ∃ pre ev s, pre ++ [ev] <+: es ∧ AppRun .store m pre s ∧ CallsAtTarget up s.env ev

/-- Neither a new command nor the watchdog. -/
def Undisturbed : Event → Prop
  | .mqttData data _ => data 0 ≠ 83
  | .timeoutStore => False
  | _ => True

/-- The motor is on its way. -/
structure Approaching (up : Bool) (e : Env) : Prop where
  duty : DutyPower e
  driven : e.puissancePwm (channel up) ≠ 0
  side : if up then e.niveau ≤ e.consinge else e.consinge ≤ e.niveau

/-- The motor is at rest. -/
structure Stopped (e : Env) : Prop where
  duty : DutyPower e
  down : e.puissancePwm 0 = 0
  up : e.puissancePwm 1 = 0

theorem Stopped.power (h : Stopped e) : e.puissanceTriac = 0 := by
  by_contra on
  have driven := h.duty.powered.mp on
  simp [Xor, h.down, h.up] at driven

/-! ## One call -/

theorem downDuty_eq_zero {delta : Int} : downDuty delta e = 0 ↔
    e.puissancePwm 0 = 0 ∨ 0 ≤ delta := by
  unfold downDuty
  split_ifs with stop fast
  · exact iff_of_true rfl stop
  · exact iff_of_false (by decide) stop
  · exact iff_of_false (by decide) stop

theorem upDuty_eq_zero {delta : Int} : upDuty delta e = 0 ↔ e.puissancePwm 1 = 0 ∨ delta ≤ 0 := by
  unfold upDuty
  split_ifs with stop fast
  · exact iff_of_true rfl stop
  · exact iff_of_false (by decide) stop
  · exact iff_of_false (by decide) stop

/-- Without overflow the distance is the exact one. -/
theorem delta_exact (target : TargetBounded e) (fits : e.meter.Fits) :
    int32 (e.consinge - e.niveau) = e.consinge - e.niveau := by
  obtain ⟨-, -, low, high⟩ := fits
  obtain ⟨low', high'⟩ := target
  simp only [Env.meter] at low high
  exact int32_of_range (by omega) (by omega)

/-- A call moves the position by at most one. -/
theorem storeIRQ_place {pulse direction : Bool} (h : storeIRQ pulse direction e = some e')
    (fits : e.meter.Fits) :
    e'.niveau = e.niveau ∨ e'.niveau = e.niveau + 1 ∨ e'.niveau = e.niveau - 1 := by
  obtain ⟨-, -, low, high⟩ := fits
  simp only [Env.meter] at low high
  have niveau := (storeIRQ_niveau h).1
  have counted : int32 (pulseNiveau direction e) = pulseNiveau direction e := by
    unfold pulseNiveau
    split <;> exact int32_of_range (by omega) (by omega)
  rw [counted, pulseNiveau] at niveau
  split_ifs at niveau <;> omega

section call
variable {pulse direction : Bool} (h : storeIRQ pulse direction e = some e')
include h

/-- A call before the target keeps the motor on its way. -/
theorem Approaching.call (a : Approaching up e) (target : TargetBounded e) (fits : e.meter.Fits)
    (before : ¬ Reached up e) : Approaching up e' := by
  obtain ⟨down, high⟩ := storeIRQ_duties h
  have niveau := storeIRQ_place h fits
  have consinge := storeIRQ_consinge h
  rw [delta_exact target fits] at down high
  refine ⟨storeIRQ_dutyPower h a.duty, fun stops => ?_, ?_⟩
  · have driven := a.driven
    cases up with
    | false =>
      have stopped := downDuty_eq_zero.mp (down.symm.trans stops)
      simp only [Reached, channel, Bool.false_eq_true, ↓reduceIte] at before driven
      omega
    | true =>
      have stopped := upDuty_eq_zero.mp (high.symm.trans stops)
      simp only [Reached, channel, ↓reduceIte] at before driven
      omega
  · cases up <;> simp only [Reached, Bool.false_eq_true, ↓reduceIte] at before ⊢ <;> omega

/-- The call that finds the target reached stops the motor, next to the target. -/
theorem Approaching.stops (a : Approaching up e) (target : TargetBounded e) (fits : e.meter.Fits)
    (reached : Reached up e) : Stopped e' ∧ |e'.niveau - e'.consinge| ≤ 1 := by
  obtain ⟨down, high⟩ := storeIRQ_duties h
  have niveau := storeIRQ_place h fits
  have consinge := storeIRQ_consinge h
  rw [delta_exact target fits] at down high
  have exclusive := a.duty.exclusive
  have driven := a.driven
  have side := a.side
  have here : e.niveau = e.consinge := by
    cases up <;> simp only [Reached, Bool.false_eq_true, ↓reduceIte] at reached side <;> omega
  refine ⟨⟨storeIRQ_dutyPower h a.duty, ?_, ?_⟩, ?_⟩
  · exact down.trans (downDuty_eq_zero.mpr (.inr (by omega)))
  · exact high.trans (upDuty_eq_zero.mpr (.inr (by omega)))
  · rw [abs_le]
    omega

theorem Stopped.call (s : Stopped e) : Stopped e' := by
  obtain ⟨down, high⟩ := storeIRQ_duties h
  refine ⟨storeIRQ_dutyPower h s.duty, ?_, ?_⟩
  · exact down.trans (downDuty_eq_zero.mpr (.inl s.down))
  · exact high.trans (upDuty_eq_zero.mpr (.inl s.up))

end call

/-! ## One step -/

section control
variable (same : e'.control = e.control)
include same

theorem Approaching.of_control (a : Approaching up e) : Approaching up e' := by
  have pwm : e'.puissancePwm = e.puissancePwm := congrArg Control.puissancePwm same
  have niveau : e'.niveau = e.niveau := congrArg Control.niveau same
  have consinge : e'.consinge = e.consinge := congrArg Control.consinge same
  exact ⟨a.duty.of_control same, by rw [pwm]; exact a.driven,
    by rw [niveau, consinge]; exact a.side⟩

theorem Stopped.of_control (s : Stopped e) : Stopped e' := by
  have pwm : e'.puissancePwm = e.puissancePwm := congrArg Control.puissancePwm same
  exact ⟨s.duty.of_control same, by rw [pwm]; exact s.down, by rw [pwm]; exact s.up⟩

theorem reached_of_control : Reached up e' ↔ Reached up e := by
  have niveau : e'.niveau = e.niveau := congrArg Control.niveau same
  have consinge : e'.consinge = e.consinge := congrArg Control.consinge same
  rw [Reached, Reached, niveau, consinge]

theorem targetBounded_of_control (target : TargetBounded e) : TargetBounded e' := by
  have consinge : e'.consinge = e.consinge := congrArg Control.consinge same
  rw [TargetBounded, consinge]
  exact target

end control

/-- An undisturbed step is a call of `storeIRQ` or leaves the handlers' variables alone. -/
theorem undisturbed_cases (up : Bool) {ev : Event} (quiet : Undisturbed ev)
    (h : step .store m ev = some m') :
    (¬ CallsAtTarget up m.env ev ∧ m'.env.control = m.env.control) ∨
    (∃ pulse direction e, e.control = m.env.control ∧
      storeIRQ pulse direction e = some m'.env ∧
        (CallsAtTarget up m.env ev ↔ Reached up m.env)) := by
  obtain ⟨still, same⟩ | ⟨status, e, rfl, store, same, run⟩ | ⟨data, dataLen, rfl, command, -⟩ |
    ⟨rfl, -⟩ := store_step_cases h
  · refine .inl ⟨?_, same⟩
    cases ev with
    | irq status => exact fun calls => still calls.1
    | _ => exact id
  · exact .inr ⟨_, _, e, same, run, and_iff_right store⟩
  · exact absurd command quiet
  · exact quiet.elim

/-- A motor on its way is stopped by the first call at the target, and only by it. -/
theorem step_approaching {ev : Event} (quiet : Undisturbed ev) (h : step .store m ev = some m')
    (a : Approaching up m.env) (target : TargetBounded m.env) (fits : m.env.meter.Fits) :
    (¬ CallsAtTarget up m.env ev → Approaching up m'.env) ∧
      (CallsAtTarget up m.env ev → Stopped m'.env ∧ |m'.env.niveau - m'.env.consinge| ≤ 1) := by
  obtain ⟨other, same⟩ | ⟨pulse, direction, e, same, call, at_target⟩ :=
    undisturbed_cases up quiet h
  · exact ⟨fun _ => a.of_control same, fun calls => absurd calls other⟩
  · have target' := targetBounded_of_control same target
    have fits' : e.meter.Fits := meter_of_control same ▸ fits
    rw [at_target, ← reached_of_control same]
    exact ⟨(a.of_control same).call call target' fits',
      (a.of_control same).stops call target' fits'⟩

theorem step_stopped {ev : Event} (quiet : Undisturbed ev) (h : step .store m ev = some m')
    (s : Stopped m.env) : Stopped m'.env := by
  obtain ⟨-, same⟩ | ⟨pulse, direction, e, same, call, -⟩ := undisturbed_cases true quiet h
  · exact s.of_control same
  · exact (s.of_control same).call call

/-! ## Whole runs -/

theorem reachedBy_snoc {s : App} {es : List Event} {ev : Event} (run : AppRun .store m es s) :
    ReachedBy up m (es ++ [ev]) ↔ ReachedBy up m es ∨ CallsAtTarget up s.env ev :=
  run.exists_step_snoc (P := fun _ ev (s : App) => CallsAtTarget up s.env ev)

/-- The phase of the motor after a command. -/
theorem phase_of_run {es : List Event} (run : AppRun .store m es m')
    (quiet : ∀ ev ∈ es, Undisturbed ev) (fits : RunFits m es) (a : Approaching up m.env)
    (target : TargetBounded m.env) : TargetBounded m'.env ∧
      (¬ ReachedBy up m es → Approaching up m'.env) ∧ (ReachedBy up m es → Stopped m'.env) := by
  induction run with
  | nil =>
    refine ⟨target, fun _ => a, ?_⟩
    rintro ⟨pre, ev, s, before, -⟩
    simp at before
  | @snoc es ev s s' run step ih =>
    obtain ⟨target', moving, still⟩ := ih (fun ev mem => quiet ev (List.mem_append_left _ mem))
      fun pre u before => fits pre u (before.trans (List.prefix_append es [ev]))
    have quiet' := quiet ev (List.mem_append_right _ (List.mem_singleton_self ev))
    have fits' := fits es s (List.prefix_append es [ev]) run
    rw [reachedBy_snoc run]
    refine ⟨step_target step target', fun none => ?_, fun some => ?_⟩
    · rw [not_or] at none
      exact (step_approaching quiet' step (moving none.1) target' fits').1 none.2
    · by_cases earlier : ReachedBy up m es
      · exact step_stopped quiet' step (still earlier)
      · have now := some.resolve_left earlier
        exact ((step_approaching quiet' step (moving earlier) target' fits').2 now).1

/-- A command sets the target and drives the motor on the side of the distance. -/
theorem storeCommand_drives (value : UInt8) (e : Env) :
    (storeCommand value e).niveau = e.niveau ∧
      (storeCommand value e).consinge = consingeOf value e ∧
      ((storeCommand value e).puissancePwm (channel up) ≠ 0 →
        if up then 0 < int32 (consingeOf value e - e.niveau)
        else int32 (consingeOf value e - e.niveau) < 0) := by
  obtain ⟨far, eq⟩ | ⟨far, eq⟩ | ⟨-, eq⟩ := storeCommand_cases value e <;> rw [eq]
  · refine ⟨rfl, rfl, fun driven => ?_⟩
    cases up with
    | true => exact far
    | false => simp [channel] at driven
  · refine ⟨rfl, rfl, fun driven => ?_⟩
    cases up with
    | true => simp [channel] at driven
    | false => simpa using far
  · refine ⟨rfl, rfl, fun driven => ?_⟩
    cases up <;> simp [channel] at driven

/-- A command that starts the motor sends it towards the target. -/
theorem approaching_of_command {data : Nat → UInt8} {dataLen : Nat} (command : data 0 = 83)
    (start : step .store m (.mqttData data dataLen) = some m₁)
    (driven : m₁.env.puissancePwm (channel up) ≠ 0) (fits : m₁.env.meter.Fits) :
    Approaching up m₁.env ∧ TargetBounded m₁.env := by
  obtain rfl := Option.some.inj start
  rw [mqttDataCb_store, if_pos command] at driven fits ⊢
  dsimp only at driven fits ⊢
  obtain ⟨niveau, consinge, sign⟩ := @storeCommand_drives up (data 1) m.env
  have target : TargetBounded (storeCommand (data 1) m.env) := by
    rw [TargetBounded, consinge]
    exact consingeOf_bounds (data 1) m.env
  have delta := delta_exact target fits
  rw [niveau, consinge] at delta
  have sign := sign driven
  refine ⟨⟨storeCommand_dutyPower _ _, driven, ?_⟩, target⟩
  rw [niveau, consinge]
  cases up <;> simp only [Bool.false_eq_true, ↓reduceIte] at sign ⊢ <;> omega

/-- After a command that starts the motor, and with neither a command nor the watchdog since, the
motor is driven up to the first call of `storeIRQ` that finds the target reached. That call stops
it, within one pulse of the target, and it stays at rest. -/
theorem stops_at_target {data : Nat → UInt8} {dataLen : Nat} {es : List Event}
    (command : data 0 = 83) (start : step .store m (.mqttData data dataLen) = some m₁)
    (driven : m₁.env.puissancePwm (channel up) ≠ 0) (quiet : ∀ ev ∈ es, Undisturbed ev)
    (run : AppRun .store m₁ es m') (fits : RunFits m₁ es) :
    (m'.env.puissancePwm (channel up) ≠ 0 ↔ ¬ ReachedBy up m₁ es) ∧
      (ReachedBy up m₁ es → m'.env.puissancePwm 0 = 0 ∧ m'.env.puissancePwm 1 = 0 ∧
        m'.env.puissanceTriac = 0) ∧
      (∀ pre ev, es = pre ++ [ev] → ¬ ReachedBy up m₁ pre → ReachedBy up m₁ es →
        |m'.env.niveau - m'.env.consinge| ≤ 1) := by
  obtain ⟨a, target⟩ := approaching_of_command command start driven
    (fits [] m₁ (List.nil_prefix) .nil)
  obtain ⟨-, moving, still⟩ := phase_of_run run quiet fits a target
  refine ⟨⟨fun on some => on ?_, fun none => (moving none).driven⟩, fun some => ?_, ?_⟩
  · have rest := still some
    cases up with
    | false => exact rest.down
    | true => exact rest.up
  · exact ⟨(still some).down, (still some).up, (still some).power⟩
  · rintro pre ev rfl none some
    obtain ⟨s, run', step⟩ := run.last
    have quiet' : ∀ e ∈ pre, Undisturbed e := fun e mem => quiet e (List.mem_append_left _ mem)
    have fits' : RunFits m₁ pre := fun pre' u before =>
      fits pre' u (before.trans (List.prefix_append pre [ev]))
    obtain ⟨target', moving', -⟩ := phase_of_run run' quiet' fits' a target
    have now := ((reachedBy_snoc run').mp some).resolve_left none
    have last := quiet ev (List.mem_append_right _ (List.mem_singleton_self ev))
    exact ((step_approaching last step (moving' none) target'
      (fits pre s (List.prefix_append pre [ev]) run')).2 now).2

/-- The motor right after a command to go up by two pulses. -/
def goingUp : App :=
  { userInit .store 100 [65] with env := storeCommand 2 (userInit .store 100 [65]).env }

/-- Four pulses: the call of the third one finds the target reached. -/
theorem stops_at_target_two :
    ∃ m', AppRun .store goingUp (List.replicate 4 (.irq ⟨false, true, false, false⟩)) m' ∧
      m'.env.niveau = 4 ∧ (m'.env.puissancePwm (channel true) ≠ 0 ↔
        ¬ ReachedBy true goingUp (List.replicate 4 (.irq ⟨false, true, false, false⟩))) := by
  have start : step .store (userInit .store 100 [65])
      (.mqttData (fun i => [83, 2].getD i 0) 2) = some goingUp := by
    simp [step, mqttDataCb_store, goingUp]
  have driven : goingUp.env.puissancePwm (channel true) ≠ 0 := by decide +kernel
  have four : ((List.replicate 4 (Event.irq ⟨false, true, false, false⟩)).foldlM (step .store)
      goingUp).map (fun m' => m'.env.niveau) = some 4 := by
    decide +kernel
  obtain ⟨m', run, place⟩ := Option.map_eq_some_iff.mp four
  have fits : RunFits goingUp (List.replicate 4 (.irq ⟨false, true, false, false⟩)) :=
    runFits_of_prefixes (by decide +kernel)
  have quiet : ∀ ev ∈ List.replicate 4 (Event.irq ⟨false, true, false, false⟩), Undisturbed ev :=
    fun ev mem => List.eq_of_mem_replicate mem ▸ trivial
  exact ⟨m', run_iff_foldlM.mpr run, place,
    (stops_at_target rfl start driven quiet (run_iff_foldlM.mpr run) fits).1⟩

end Domotic
