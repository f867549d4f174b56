import Domotic.Library.Wave
import Domotic.Timer.Periods

/-!
# The waveform of a PWM channel

An expired channel changes its level and restarts its own slot for the length of the new phase.
No other callback stores to its pin or moves its slot, so the channel is a counter of its own: from
its next expiry on, a duty that is held gives a square wave, whatever happens in between.
-/
namespace Domotic
open Library

/-- The scale of a duty: `PWM_SCALL_SLOW` near the ends. -/
def Build.scall (b : Build) (p : Nat) : Nat :=
  if 90 < p ∨ p < 10 then b.pwmScallSlow else b.pwmScall

/-- The ticks of a high phase. -/
def Build.ticksHigh (b : Build) (p : Nat) : Nat := p * b.scall p / b.precisionTimer

/-- The ticks of a low phase. -/
def Build.ticksLow (b : Build) (p : Nat) : Nat := (100 - p) * b.scall p / b.precisionTimer

/-- The runs in which the duty of channel `n` is held at `p`. -/
abbrev SteadyRun (b : Build) (n p : Nat) (m : App) (es : List Event) (m' : App) : Prop :=
  Run (Guarded (fun m _ => m.env.puissancePwm n = p) fun m e m' => step b m e = some m') m es m'

/-- The slot of channel `n`: the zero crossing is registered first. -/
def Build.pwmSlot (b : Build) (n : Nat) : Nat := if b.triack then n + 1 else n

/-- The table that `user_init` leaves. -/
def bootTimers (b : Build) : Timers CallBack :=
  (Timers.timerInit b.nbMaxCallbackTime b.precisionTimer).execs (userInitCalls b)

/-- Every callback but the gate pulse is where `user_init` put it. -/
def InPlace (b : Build) (m : App) : Prop :=
  ∀ c ≠ CallBack.timerEnableTriack, ∀ i : Nat,
    m.timers.owners[i]? = some (some c) ↔ (bootTimers b).owners[i]? = some (some c)

/-- Channel `n` expires in `cpt` ticks. -/
structure ChannelAt (b : Build) (n : Nat) (cpt : Nat) (on level : Bool) (m : App) : Prop where
  course : OnCourse b m
  place : InPlace b m
  slot : ∃ s, m.timers.tab[b.pwmSlot n]? = some s ∧ s.callBack = some (pwmCallBack n) ∧ s.cpt = cpt
  flag : m.env.on n = on
  out : m.env.gpioOut (b.bitPwm n) = level

variable {b : Build} {m m' : App} {n : Nat}

/-! ## The places of the callbacks -/

theorem inPlace_userInit (b : Build) (tSleep : Nat) (stationName : List UInt8) :
    InPlace b (userInit b tSleep stationName) := fun c _ i => by
  rw [userInit_calls, bootTimers]

theorem InPlace.congr (h : InPlace b m) (same : m'.timers = m.timers) : InPlace b m' := by
  unfold InPlace
  rwa [same]

theorem InPlace.tickSlot (h : InPlace b m) (l : Nat) :
    InPlace b (m.tickSlot (callBack b) l).1 := by
  intro c other i
  obtain ⟨eq, -⟩ | ⟨s, c', slot, -, -, eq⟩ | ⟨s, c', slot, -, -, eq⟩ :=
    Timed.tickSlot_cases (callBack b) m l <;> rw [eq]
  · exact h c other i
  · rw [Timed.setSlot_owners slot]
    exact h c other i
  · have still : ∀ e, ∀ op ∈ callBackCalls b c' e, ¬ op.Moves c :=
      fun _ op mem moves => other (callBackCalls_moves mem moves)
    rw [callBack_calls, Timers.owners_execs (still _), Timed.setSlot_owners slot]
    exact h c other i

theorem InPlace.crossing (h : InPlace b m) : InPlace b (zeroCrossIRQ b m) := fun c other i => by
  rw [zeroCrossIRQ_calls, Timers.owners_execs zeroCrossIRQCalls_moves]
  exact h c other i

theorem pwm_norelay (pwm : b.pwm = true) : b.relay = false := by
  cases b <;> first | rfl | exact absurd pwm (by decide)

theorem inPlace_step (norelay : b.relay = false) {ev : Event} (h : step b m ev = some m')
    (place : InPlace b m) : InPlace b m' := by
  obtain ⟨io, -, rfl⟩ | ⟨status, -, -, timers, -⟩ | ⟨-, -, timers, -⟩ := step_cases norelay h
  · exact tick_keeps b io (fun m l h => h.tickSlot l) m (place.congr rfl)
  · exact place.crossing.congr timers
  · exact place.congr timers

theorem channel_cases (channel : n < b.nbPwm) : n = 0 ∨ n = 1 ∧ b.nbPwm = 2 := by
  have two : b.nbPwm = 0 ∨ b.nbPwm = 1 ∨ b.nbPwm = 2 := by cases b <;> decide
  omega

/-- A channel has one slot. -/
theorem bootTimers_channel (channel : n < b.nbPwm) (i : Nat) :
    (bootTimers b).owners[i]? = some (some (pwmCallBack n)) ↔ i = b.pwmSlot n := by
  have inside : ∀ i < 4, (bootTimers b).owners[i]? = some (some (pwmCallBack n)) ↔
      i = b.pwmSlot n := by
    obtain rfl | ⟨rfl, -⟩ := channel_cases channel
    all_goals cases b <;> first | decide | exact absurd channel (by decide)
  have length : (bootTimers b).owners.length ≤ 4 := by
    cases b <;> decide
  have slot : b.pwmSlot n < 4 := by
    obtain rfl | ⟨rfl, -⟩ := channel_cases channel
    all_goals cases b <;> decide
  by_cases table : i < 4
  · exact inside i table
  · rw [List.getElem?_eq_none (by omega)]
    exact iff_of_false nofun (by omega)

/-- The second callback is registered in the builds with two channels. -/
theorem bootTimers_second (registered : some .timerPwm2 ∈ (bootTimers b).owners) : 1 < b.nbPwm := by
  cases b <;> first | decide | exact absurd registered (by decide)

/-! ## The outputs of the other callbacks -/

theorem bitPwm_apart (b : Build) (n : Nat) :
    b.bitPwm n ≠ bitTriac ∧ b.bitPwm n ≠ bitTli ∧ b.bitPwm n ≠ gpio16 := by
  unfold Build.bitPwm
  split <;> decide

theorem switchTli_pin {e : Env} {pin : Nat} (tli : pin ≠ bitTli) (select : pin ≠ gpio16) :
    (switchTli b e).gpioOut pin = e.gpioOut pin ∧ (switchTli b e).on = e.on := by
  unfold switchTli zeroCrossTli tli4970Enable
  split_ifs <;> simp [tli, select]

/-- A zero crossing stores to the gate and to the pins of the current sensor. -/
theorem zeroCross_pin {pin : Nat} (gate : pin ≠ bitTriac) (tli : pin ≠ bitTli)
    (select : pin ≠ gpio16) :
    (zeroCross b m).env.gpioOut pin = m.env.gpioOut pin ∧ (zeroCross b m).env.on = m.env.on := by
  have sensor := @switchTli_pin b m.env pin tli select
  by_cases half : b.halfSin = true
  · rw [zeroCross_half half]
    split <;> simp [gate]
  · rw [zeroCross_whole half]
    unfold removeEnableTriack delayEnableTriack
    split_ifs <;> simpa [gate] using sensor

theorem mesure_pin {e : Env} {pin : Nat} (tli : pin ≠ bitTli) (select : pin ≠ gpio16) :
    (mesure e).2.gpioOut pin = e.gpioOut pin ∧ (mesure e).2.on = e.on := by
  unfold mesure tli4970Disable
  split_ifs <;> simp [tli, select]

theorem timerMesureSampleAdc_pin {pin : Nat} (tli : pin ≠ bitTli) (select : pin ≠ gpio16) :
    (timerMesureSampleAdc m).env.gpioOut pin = m.env.gpioOut pin ∧
      (timerMesureSampleAdc m).env.on = m.env.on := by
  have sensor := @mesure_pin m.env pin tli select
  unfold timerMesureSampleAdc
  split
  · dsimp only
    split <;> exact sensor
  · exact ⟨rfl, rfl⟩

theorem timerPwm_pin {k : Nat} {c : CallBack} (apart : b.bitPwm n ≠ b.bitPwm k) (other : n ≠ k) :
    (timerPwm b k c m).env.gpioOut (b.bitPwm n) = m.env.gpioOut (b.bitPwm n) ∧
      (timerPwm b k c m).env.on n = m.env.on n := by
  unfold timerPwm
  dsimp only
  generalize (if 90 < m.env.puissancePwm k ∨ m.env.puissancePwm k < 10 then b.pwmScallSlow
    else b.pwmScall) = scall
  split_ifs
  · exact ⟨Function.update_of_ne apart _ _, rfl⟩
  · exact ⟨Function.update_of_ne apart _ _, rfl⟩
  · exact ⟨Function.update_of_ne apart _ _, Function.update_of_ne other _ _⟩
  · exact ⟨Function.update_of_ne apart _ _, Function.update_of_ne other _ _⟩

/-- Only its own callback stores to the pin of a channel and to its flag. -/
theorem callBack_other {c : CallBack} (channel : n < b.nbPwm) (other : c ≠ pwmCallBack n)
    (second : c = .timerPwm2 → 1 < b.nbPwm) :
    (callBack b c m).env.gpioOut (b.bitPwm n) = m.env.gpioOut (b.bitPwm n) ∧
      (callBack b c m).env.on n = m.env.on n := by
  obtain ⟨gate, tli, select⟩ := bitPwm_apart b n
  have two_pins : 1 < b.nbPwm → b.bitPwm 0 ≠ b.bitPwm 1 := by
    cases b <;> decide
  cases c with
  | timerZeroCross => exact (zeroCross_pin gate tli select).imp_right (congrFun · n)
  | zeroCross => exact (zeroCross_pin gate tli select).imp_right (congrFun · n)
  | timerDisableTriack => exact ⟨Function.update_of_ne gate _ _, rfl⟩
  | timerEnableTriack => exact ⟨Function.update_of_ne gate _ _, rfl⟩
  | timerPwm1 =>
    obtain rfl | ⟨rfl, two⟩ := channel_cases channel
    · exact absurd rfl other
    · exact timerPwm_pin (two_pins (by omega)).symm (by decide)
  | timerPwm2 =>
    obtain rfl | ⟨rfl, -⟩ := channel_cases channel
    · exact timerPwm_pin (two_pins (second rfl)) (by decide)
    · exact absurd rfl other
  | timerMesureSampleAdc => exact (timerMesureSampleAdc_pin tli select).imp_right (congrFun · n)

/-! ## One round -/

/-- With a duty between the ends the callback changes the level, for the ticks of the new phase. -/
theorem timerPwm_toggles {c : CallBack} {p : Nat} (duty : m.env.puissancePwm n = p) (least : 2 ≤ p)
    (most : p ≤ 98) :
    (timerPwm b n c m).timers = m.timers.timerChange
        ((if m.env.on n then 100 - p else p) * b.scall p) c ∧
      (timerPwm b n c m).env.on n = !m.env.on n ∧
      (timerPwm b n c m).env.gpioOut (b.bitPwm n) = !m.env.on n := by
  rw [timerPwm, duty, if_neg (by omega), if_neg (by omega)]
  cases on : m.env.on n with
  | true => exact ⟨rfl, Function.update_self _ _ _, Function.update_self _ _ _⟩
  | false => exact ⟨rfl, Function.update_self _ _ _, Function.update_self _ _ _⟩

theorem pwmCallBack_cases (n : Nat) : pwmCallBack n = .timerPwm1 ∨ pwmCallBack n = .timerPwm2 := by
  unfold pwmCallBack
  split
  · exact .inl rfl
  · exact .inr rfl

theorem pwmCallBack_touched {c : CallBack} (touched : pwmCallBack n ∈ c.touches) :
    c = pwmCallBack n := by
  obtain own | own := pwmCallBack_cases n <;> rw [own] at touched ⊢ <;> cases c <;>
    simp [CallBack.touches] at touched ⊢

theorem pwmCallBack_ne_gate (n : Nat) : pwmCallBack n ≠ .timerEnableTriack := by
  obtain own | own := pwmCallBack_cases n <;> rw [own] <;> decide

theorem InPlace.channel (h : InPlace b m) (channel : n < b.nbPwm) (i : Nat) :
    m.timers.owners[i]? = some (some (pwmCallBack n)) ↔ i = b.pwmSlot n :=
  (h _ (pwmCallBack_ne_gate n) i).trans (bootTimers_channel channel i)

theorem InPlace.second (h : InPlace b m) (registered : some .timerPwm2 ∈ m.timers.owners) :
    1 < b.nbPwm := by
  obtain ⟨i, owned⟩ := List.mem_iff_getElem?.mp registered
  exact bootTimers_second (List.mem_of_getElem? ((h _ (by decide) i).mp owned))

/-- The callback of a channel is called in its own round only. -/
theorem InPlace.tickSlot_apart (h : InPlace b m) (channel : n < b.nbPwm) {j : Nat}
    (ne : j ≠ b.pwmSlot n) : InPlace b (m.tickSlot (callBack b) j).1 ∧
      (m.tickSlot (callBack b) j).2 ≠ some (pwmCallBack n) := by
  refine ⟨h.tickSlot j, fun called => ne ((h.channel channel j).mp ?_)⟩
  obtain ⟨eq, -⟩ | ⟨s, c, -, -, -, eq⟩ | ⟨s, c, slot, own, -, eq⟩ :=
    Timed.tickSlot_cases (callBack b) m j <;> rw [eq] at called
  · cases called
  · cases called
  · obtain rfl := Option.some.inj called
    exact own ▸ Timers.owners_of_slot slot

variable {cpt : Nat} {on level : Bool}

/-- A round of another slot leaves the channel alone. -/
theorem ChannelAt.tickSlot_apart (h : ChannelAt b n cpt on level m) (channel : n < b.nbPwm)
    {j : Nat}
    (ne : j ≠ b.pwmSlot n) : ChannelAt b n cpt on level (m.tickSlot (callBack b) j).1 ∧
      (m.tickSlot (callBack b) j).2 ≠ some (pwmCallBack n) := by
  obtain ⟨s, slot, own, count⟩ := h.slot
  obtain ⟨place, uncalled⟩ := h.place.tickSlot_apart channel ne
  have owner : ∀ c, m.timers.owners[j]? = some (some c) → c ≠ pwmCallBack n := by
    rintro c owned rfl
    exact ne ((h.place.channel channel j).mp owned)
  have kept : (m.tickSlot (callBack b) j).1.timers.tab[b.pwmSlot n]? = some s :=
    tickSlot_slot slot own ne fun c owned touched => owner c owned (pwmCallBack_touched touched)
  have same : (m.tickSlot (callBack b) j).1.env.gpioOut (b.bitPwm n) = m.env.gpioOut (b.bitPwm n) ∧
      (m.tickSlot (callBack b) j).1.env.on n = m.env.on n := by
    obtain ⟨eq, -⟩ | ⟨s', c, -, -, -, eq⟩ | ⟨s', c, slot', own', -, eq⟩ :=
      Timed.tickSlot_cases (callBack b) m j <;> rw [eq]
    · exact ⟨rfl, rfl⟩
    · exact ⟨rfl, rfl⟩
    · have owned : m.timers.owners[j]? = some (some c) := own' ▸ Timers.owners_of_slot slot'
      refine callBack_other channel (owner c owned) ?_
      rintro rfl
      exact h.place.second (List.mem_of_getElem? owned)
  exact ⟨⟨h.course.tickSlot j, place, ⟨s, kept, own, count⟩, same.2.trans h.flag,
    same.1.trans h.out⟩, uncalled⟩

/-- The round of the channel while it counts. -/
theorem ChannelAt.tickSlot_waits (h : ChannelAt b n (cpt + 1) on level m) (positive : 1 ≤ cpt) :
    ChannelAt b n cpt on level (m.tickSlot (callBack b) (b.pwmSlot n)).1 ∧
      (m.tickSlot (callBack b) (b.pwmSlot n)).2 ≠ some (pwmCallBack n) := by
  obtain ⟨s, slot, own, count⟩ := h.slot
  have bound := (List.getElem?_eq_some_iff.mp slot).1
  obtain ⟨-, most, small⟩ := h.course.counting s (List.mem_of_getElem? slot) (by simp [own])
  have round := @Timed.tickSlot_wait _ _ (callBack b) m _ s _ slot own (by omega) (by omega)
  have course := h.course.tickSlot (b.pwmSlot n)
  have place := h.place.tickSlot (b.pwmSlot n)
  rw [round] at course place ⊢
  refine ⟨⟨course, place, ⟨{ s with cpt := s.cpt - 1 }, by simp [bound], own, ?_⟩, h.flag,
    h.out⟩, nofun⟩
  dsimp only
  omega

theorem ChannelAt.tickSlot_called (h : ChannelAt b n 1 on level m) :
    (m.tickSlot (callBack b) (b.pwmSlot n)).2 = some (pwmCallBack n) := by
  obtain ⟨s, slot, own, count⟩ := h.slot
  rw [Timed.tickSlot_fire slot own count]

/-- The ticks of the phase that a channel enters. -/
theorem phase_ticks (pwm : b.pwm = true) {p : Nat} (least : 2 ≤ p) (most : p ≤ 98) (on : Bool) :
    let share := if on then 100 - p else p
    int32 ↑(share * b.scall p / b.precisionTimer) = ↑(share * b.scall p / b.precisionTimer) ∧
      1 ≤ share * b.scall p / b.precisionTimer := by
  intro share
  have positive := (precisionTimer_bounds b).1
  obtain ⟨tick, small⟩ := @share_oneTick b pwm share p
    (by dsimp only [share]; split <;> omega) (by dsimp only [share]; split <;> omega)
    (by dsimp only [share]; split <;> omega) .timerPwm1
  have tick : b.precisionTimer ≤ share * b.scall p := tick
  have small : share * b.scall p < 2147483648 := small
  generalize share * b.scall p = period at tick small ⊢
  have fewer := Nat.div_le_self period b.precisionTimer
  have least := (Nat.one_le_div_iff positive).mpr tick
  generalize period / b.precisionTimer = length at fewer least ⊢
  exact ⟨int32_of_range (by omega) (by omega), least⟩

/-- The round in which the channel expires: it changes its level for the ticks of the new phase. -/
theorem ChannelAt.tickSlot_expires (h : ChannelAt b n 1 on level m) (pwm : b.pwm = true)
    (channel : n < b.nbPwm) {p : Nat} (duty : m.env.puissancePwm n = p) (least : 2 ≤ p)
    (most : p ≤ 98) :
    ChannelAt b n (if on then b.ticksLow p else b.ticksHigh p) (!on) (!on)
      (m.tickSlot (callBack b) (b.pwmSlot n)).1 := by
  obtain ⟨s, slot, own, count⟩ := h.slot
  have bound := (List.getElem?_eq_some_iff.mp slot).1
  have course := h.course.tickSlot (b.pwmSlot n)
  have place := h.place.tickSlot (b.pwmSlot n)
  rw [Timed.tickSlot_fire slot own count] at course place ⊢
  let z := m.setSlot (b.pwmSlot n) { s with cpt := int32 s.period }
  have call : callBack b (pwmCallBack n) z = timerPwm b n (pwmCallBack n) z := by
    obtain rfl | ⟨rfl, -⟩ := channel_cases channel <;> rfl
  obtain ⟨timers, flag, out⟩ := @timerPwm_toggles b z n (pwmCallBack n) p duty least most
  have flag' : z.env.on n = on := h.flag
  rw [flag'] at timers flag out
  have slot' : z.timers.tab[b.pwmSlot n]? = some { s with cpt := int32 s.period } := by
    simp [z, bound]
  have first : ∀ j < b.pwmSlot n, z.timers.owners[j]? ≠ some (some (pwmCallBack n)) := by
    intro j before owned
    rw [Timed.setSlot_owners slot] at owned
    exact before.ne ((h.place.channel channel j).mp owned)
  have restart := z.timers.timerChange_first ((if on then 100 - p else p) * b.scall p)
    (pwmCallBack n) (b.pwmSlot n) slot' own first
  have us : z.timers.us = b.precisionTimer := h.course.us_eq
  obtain ⟨exact, -⟩ := phase_ticks pwm least most on
  rw [← timers, ← call] at restart
  rw [← call] at flag out
  refine ⟨course, place, ⟨_, restart, own, ?_⟩, flag, out⟩
  rw [us, exact]
  cases on <;> rfl

/-! ## One step -/

/-- The state in which a tick starts its rounds. -/
theorem ChannelAt.inputs (h : ChannelAt b n cpt on level m) (io : Inputs) :
    ChannelAt b n cpt on level { m with env := { m.env with inputs := io } } :=
  ⟨{ h.course with }, h.place.congr rfl, h.slot, h.flag, h.out⟩

theorem ChannelAt.inside (h : ChannelAt b n cpt on level m) :
    b.pwmSlot n < m.timers.tab.length := by
  obtain ⟨s, slot, -⟩ := h.slot
  exact (List.getElem?_eq_some_iff.mp slot).1

/-- A tick takes one from the count. -/
theorem ChannelAt.tick_waits (h : ChannelAt b n (cpt + 1) on level m) (channel : n < b.nbPwm)
    (positive : 1 ≤ cpt) (io : Inputs) :
    ChannelAt b n cpt on level (tick b io m).1 ∧ pwmCallBack n ∉ (tick b io m).2 := by
  have round := @Timed.tick_round _ _ (callBack b) _ (ChannelAt b n (cpt + 1) on level)
    (ChannelAt b n cpt on level) (pwmCallBack n) (b.pwmSlot n) False
    (fun _ _ ne h => h.tickSlot_apart channel ne)
    (fun _ h => (h.tickSlot_waits positive).imp_right fun uncalled => by simpa using uncalled)
    (fun _ _ ne h => h.tickSlot_apart channel ne) (h.inputs io).inside (h.inputs io)
  exact ⟨round.1, round.2.mp⟩

/-- The last tick of the count calls the callback. -/
theorem ChannelAt.tick_called (h : ChannelAt b n 1 on level m) (channel : n < b.nbPwm)
    (io : Inputs) :
    pwmCallBack n ∈ (tick b io m).2 := by
  have round := @Timed.tick_round _ _ (callBack b) _ (ChannelAt b n 1 on level) (InPlace b)
    (pwmCallBack n) (b.pwmSlot n) True (fun _ _ ne h => h.tickSlot_apart channel ne)
    (fun _ h => ⟨h.place.tickSlot _, iff_true_intro h.tickSlot_called⟩)
    (fun _ _ ne h => h.tickSlot_apart channel ne) (h.inputs io).inside (h.inputs io)
  exact round.2.mpr trivial

/-- The last tick of the count starts a phase. -/
theorem ChannelAt.tick_expires (h : ChannelAt b n 1 on level m) (pwm : b.pwm = true)
    (channel : n < b.nbPwm) {p : Nat} (duty : m.env.puissancePwm n = p) (least : 2 ≤ p)
    (most : p ≤ 98) (io : Inputs) :
    ChannelAt b n (if on then b.ticksLow p else b.ticksHigh p) (!on) (!on) (tick b io m).1 := by
  have held : ∀ m' : App, ∀ l, m'.env.puissancePwm n = p →
      (m'.tickSlot (callBack b) l).1.env.puissancePwm n = p := fun m' l duty =>
    (congrFun (congrArg Control.puissancePwm (tickSlot_control b m' l)) n).trans duty
  have round := @Timed.tick_round _ _ (callBack b) _
    (fun m' => ChannelAt b n 1 on level m' ∧ m'.env.puissancePwm n = p)
    (ChannelAt b n (if on then b.ticksLow p else b.ticksHigh p) (!on) (!on)) (pwmCallBack n)
    (b.pwmSlot n) True
    (fun m' j ne h => ⟨⟨(h.1.tickSlot_apart channel ne).1, held m' j h.2⟩,
      (h.1.tickSlot_apart channel ne).2⟩)
    (fun _ h => ⟨h.1.tickSlot_expires pwm channel h.2 least most,
      iff_true_intro h.1.tickSlot_called⟩)
    (fun _ _ ne h => h.tickSlot_apart channel ne) (h.inputs io).inside ⟨h.inputs io, duty⟩
  exact round.1

/-- Between two ticks nothing happens to the channel. -/
theorem ChannelAt.step (h : ChannelAt b n cpt on level m) (pwm : b.pwm = true) {ev : Event}
    (quiet : ∀ io, ev ≠ .tick io) (run : step b m ev = some m') :
    ChannelAt b n cpt on level m' := by
  have course := onCourse_step run h.course
  have place := inPlace_step (pwm_norelay pwm) run h.place
  obtain ⟨s, slot, own, count⟩ := h.slot
  obtain ⟨io, rfl, -⟩ | ⟨status, -, -, timers, outputs⟩ | ⟨-, -, timers, outputs⟩ :=
    step_cases (pwm_norelay pwm) run
  · exact absurd rfl (quiet io)
  · refine ⟨course, place, ⟨s, ?_, own, count⟩, ?_, ?_⟩
    · rw [timers]
      exact zeroCrossIRQ_slot slot own fun moved => by
        obtain eq | eq := pwmCallBack_cases n <;> simp [eq] at moved
    · exact (congrFun (congrArg Outputs.on outputs) n).trans h.flag
    · exact (congrFun (congrArg Outputs.gpioOut outputs) _).trans h.out
  · refine ⟨course, place, ⟨s, ?_, own, count⟩, ?_, ?_⟩
    · rw [timers]
      exact slot
    · exact (congrFun (congrArg Outputs.on outputs) n).trans h.flag
    · exact (congrFun (congrArg Outputs.gpioOut outputs) _).trans h.out

/-! ## Runs -/

/-- The channel counts until its next expiry. -/
theorem ChannelAt.run (pwm : b.pwm = true) (channel : n < b.nbPwm) {first : Nat} {es : List Event}
    (run : AppRun b m es m') (early : ticks es < first) (h : ChannelAt b n first on level m) :
    ChannelAt b n (first - ticks es) on level m' := by
  induction run with
  | nil => exact h
  | @snoc es ev t u run last ih =>
    by_cases ticking : ∃ io, ev = .tick io
    · obtain ⟨io, rfl⟩ := ticking
      obtain rfl := Option.some.inj last
      rw [ticks_snoc_tick] at early ⊢
      have counted := ih (by omega)
      have one : first - ticks es = first - (ticks es + 1) + 1 := by omega
      rw [one] at counted
      exact (counted.tick_waits channel (by omega) io).1
    · have quiet := not_exists.mp ticking
      rw [ticks_snoc_quiet es quiet] at early ⊢
      exact (ih early).step pwm quiet last

/-- From its next expiry on, a channel whose duty is held follows the square wave. The expiry starts
with the phase that the flag selects. -/
theorem ChannelAt.steady (pwm : b.pwm = true) (channel : n < b.nbPwm) {p : Nat} (least : 2 ≤ p)
    (most : p ≤ 98) {first : Nat} {es : List Event} (positive : 1 ≤ first)
    (run : SteadyRun b n p m es m') (late : first ≤ ticks es) (h : ChannelAt b n first on level m) :
    let t := ticks es - first + if on then b.ticksHigh p else 0
    ChannelAt b n (untilEdge (b.ticksHigh p) (b.ticksLow p) t)
      (squareWave (b.ticksHigh p) (b.ticksLow p) t)
      (squareWave (b.ticksHigh p) (b.ticksLow p) t) m' := by
  have high : 1 ≤ b.ticksHigh p := (phase_ticks pwm least most false).2
  have low : 1 ≤ b.ticksLow p := (phase_ticks pwm least most true).2
  induction run with
  | nil => exact absurd late (by simp [ticks]; omega)
  | @snoc es ev u v run last ih =>
    obtain ⟨duty, last⟩ := last
    by_cases ticking : ∃ io, ev = .tick io
    · obtain ⟨io, rfl⟩ := ticking
      obtain rfl := Option.some.inj last
      rw [ticks_snoc_tick] at late ⊢
      obtain expires | late := Nat.eq_or_lt_of_le late
      · -- the first expiry
        have due := h.run pwm channel run.unguarded (by omega)
        have one : first - ticks es = 1 := by omega
        rw [one] at due
        have started := due.tick_expires pwm channel duty least most io
        have start : ticks es + 1 - first = 0 := by omega
        rw [start, Nat.zero_add]
        cases on with
        | false =>
          obtain ⟨edge, length⟩ := @squareWave_zero (b.ticksHigh p) (b.ticksLow p) high
          simpa [edge, length] using started
        | true =>
          obtain ⟨edge, length⟩ := @squareWave_high (b.ticksHigh p) (b.ticksLow p) low
          simpa [edge, length] using started
      · -- a later tick, at an edge or between two
        have before := ih (by omega)
        dsimp only at before ⊢
        have next : ticks es + 1 - first + (if on then b.ticksHigh p else 0) =
            ticks es - first + (if on then b.ticksHigh p else 0) + 1 := by omega
        rw [next]
        generalize ticks es - first + (if on then b.ticksHigh p else 0) = t at before ⊢
        obtain due | waits := Nat.eq_or_lt_of_le (@untilEdge_pos _ (b.ticksLow p) t high)
        · obtain ⟨edge, length⟩ := squareWave_edge high low due.symm
          rw [← due] at before
          rw [edge, length]
          exact before.tick_expires pwm channel duty least most io
        · obtain ⟨same, counted⟩ := squareWave_wait waits
          rw [← counted] at before
          rw [same]
          exact (before.tick_waits channel (by omega) io).1
    · have quiet := not_exists.mp ticking
      rw [ticks_snoc_quiet es quiet] at late ⊢
      exact (ih late).step pwm quiet last

/-- In every reachable state a channel counts down to its next expiry. -/
theorem channelAt_reachable (channel : n < b.nbPwm) (pwm : b.pwm = true) {tSleep : Nat}
    {stationName : List UInt8} {es : List Event}
    (reach : AppRun b (userInit b tSleep stationName) es m) :
    ∃ first, 1 ≤ first ∧
      ChannelAt b n first (m.env.on n) (m.env.gpioOut (b.bitPwm n)) m := by
  have course : OnCourse b m := reach.invariant (I := OnCourse b)
    (fun _ _ _ => onCourse_step) (onCourse_userInit b _ _)
  have place : InPlace b m := reach.invariant (I := InPlace b)
    (fun _ _ _ run => inPlace_step (pwm_norelay pwm) run) (inPlace_userInit b _ _)
  have owned := (place.channel channel (b.pwmSlot n)).mpr rfl
  rw [Timers.owners, List.getElem?_map, Option.map_eq_some_iff] at owned
  obtain ⟨s, slot, own⟩ := owned
  obtain ⟨positive, -, -⟩ := course.counting s (List.mem_of_getElem? slot) (by simp [own])
  exact ⟨s.cpt.toNat, by omega, course, place, ⟨s, slot, own, by omega⟩, rfl, rfl⟩

/-- From every reachable state the callback of a channel is next called in the tick `first`. From
then on, as long as the duty is held between 2 and 98, the output is a square wave with the phases
of that duty, whatever else happens between the ticks and in them. -/
theorem pwm_waveform (pwm : b.pwm = true) (channel : n < b.nbPwm) {tSleep : Nat}
    {stationName : List UInt8} {es : List Event}
    (reach : AppRun b (userInit b tSleep stationName) es m) {p : Nat} (least : 2 ≤ p)
    (most : p ≤ 98) :
    1 ≤ b.ticksHigh p ∧ 1 ≤ b.ticksLow p ∧ ∃ first, 1 ≤ first ∧
      (∀ es' m' io, AppRun b m es' m' → ticks es' < first →
        (pwmCallBack n ∈ (tick b io m').2 ↔ ticks es' + 1 = first)) ∧
      ∀ es' m', SteadyRun b n p m es' m' → first ≤ ticks es' →
        m'.env.gpioOut (b.bitPwm n) = squareWave (b.ticksHigh p) (b.ticksLow p)
          (ticks es' - first + if m.env.on n then b.ticksHigh p else 0) := by
  obtain ⟨first, positive, start⟩ := channelAt_reachable channel pwm reach
  refine ⟨(phase_ticks pwm least most false).2, (phase_ticks pwm least most true).2, first,
    positive, fun es' m' io run early => ?_,
    fun es' m' run late => (start.steady pwm channel least most positive run late).out⟩
  have counted := start.run pwm channel run early
  obtain due | waits := Nat.eq_or_lt_of_le (show ticks es' + 1 ≤ first from early)
  · have one : first - ticks es' = 1 := by omega
    rw [one] at counted
    exact iff_of_true (counted.tick_called channel io) due
  · have more : first - ticks es' = first - (ticks es' + 1) + 1 := by omega
    rw [more] at counted
    exact iff_of_false (counted.tick_waits channel (by omega) io).2 (by omega)

/-- The second channel at a fifth, after the message that sets it: four ticks high, nineteen low. -/
theorem pwm_waveform_fifth : ∃ m,
    AppRun .pwm12V (userInit .pwm12V 0 []) [.message [83, 50, 20]] m ∧ m.env.puissancePwm 1 = 20 ∧
    ∃ first, ∀ es m', SteadyRun .pwm12V 1 20 m es m' → first ≤ ticks es →
      m'.env.gpioOut 5 = squareWave 4 19 (ticks es - first + if m.env.on 1 then 4 else 0) := by
  have run : AppRun .pwm12V (userInit .pwm12V 0 []) [.message [83, 50, 20]] _ := Run.single rfl
  obtain ⟨-, -, first, -, -, wave⟩ := @pwm_waveform .pwm12V _ 1 rfl (by decide) 0 [] _ run 20
    (by decide) (by decide)
  exact ⟨_, run, by decide, first, wave⟩

end Domotic
