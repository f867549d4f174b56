import Domotic.App.Slots
import Domotic.Store.Duty

/-!
# The two channels of the shutter motor

A channel is a slot of the table and an output pin. The output follows the duty only when
the slot expires, and the slot counts at most a hundred ticks; until then the channel keeps
its level whatever is commanded. `tick_channel` says all that a tick does to a channel.
-/
namespace Domotic
open Library

variable {m m' : App} {n : Nat}

/-- The output of channel `n` is high. -/
def High (e : Env) (n : Nat) : Prop := e.gpioOut (Build.store.bitPwm n) = true

/-- The slot of channel `n` counts `cpt` ticks. -/
def Counts (m : App) (n : Nat) (cpt : Int) : Prop :=
  ∃ s, m.timers.tab[n + 1]? = some s ∧ s.callBack = some (pwmCallBack n) ∧ s.cpt = cpt

theorem Counts.unique {c c' : Int} (h : Counts m n c) (h' : Counts m n c') : c = c' := by
  obtain ⟨s, slot, -, rfl⟩ := h
  obtain ⟨s', slot', -, rfl⟩ := h'
  rw [Option.some.inj (slot.symm.trans slot')]

/-- What holds of the table, of the power and of the duties in every reachable state. -/
structure Motor (m : App) : Prop where
  us : m.timers.us = 100
  owners : m.timers.owners = [some .timerZeroCross, some .timerPwm1, some .timerPwm2, none]
  flag : m.env.timerTriackOn = false
  power : m.env.puissanceTriac = 0 ∨ m.env.puissanceTriac = Build.puissanceMax
  duty : ∀ n, m.env.puissancePwm n ∈ [0, 17, 60, 100]

/-! ## One callback -/

theorem bitPwm_store (hn : n < 2) : Build.store.bitPwm n ≠ bitTriac := by
  interval_cases n <;> decide

/-- A zero crossing restarts its own slot and moves the gate. -/
theorem timerZeroCross_motor (h : Motor m) : ∃ level,
    timerZeroCross .store m = App.setOut
      { m.timerChange 10000 .timerZeroCross with env := { m.env with zeroCrossIntr := true } }
      bitTriac level := by
  obtain off | full := h.power
  · refine ⟨false, ?_⟩
    simp [timerZeroCross, zeroCross, removeEnableTriack, h.flag, off, Build.puissanceMax]
    rfl
  · refine ⟨true, ?_⟩
    simp [timerZeroCross, zeroCross, removeEnableTriack, h.flag, full]
    rfl

/-- What an expired channel does: it restarts its slot, for at most a hundred ticks, and is
high afterwards only if it has a duty. -/
theorem timerPwm_motor (h : Motor m) (n : Nat) : ∃ period level on,
    timerPwm .store n (pwmCallBack n) m =
      App.timerChange { m with env := { m.env.setOut (Build.store.bitPwm n) level with on := on } }
        period (pwmCallBack n) ∧
      1 ≤ period / 100 ∧ period / 100 ≤ 100 ∧ (level = true → m.env.puissancePwm n ≠ 0) := by
  have duty := h.duty n
  simp only [List.mem_cons, List.not_mem_nil, or_false] at duty
  -- a duty strictly between rest and full speed is neither slow nor close to its ends
  have switching : ∀ p : Nat, m.env.puissancePwm n = p → p = 17 ∨ p = 60 →
      ∃ period level on, timerPwm .store n (pwmCallBack n) m =
        App.timerChange
          { m with env := { m.env.setOut (Build.store.bitPwm n) level with on := on } }
          period (pwmCallBack n) ∧
        1 ≤ period / 100 ∧ period / 100 ≤ 100 ∧ (level = true → m.env.puissancePwm n ≠ 0) := by
    intro p duty values
    have slow : ¬ (90 < p ∨ p < 10) := by omega
    have none : ¬ p < 2 := by omega
    have full : ¬ 98 < p := by omega
    simp only [timerPwm, duty, slow, none, full, ↓reduceIte]
    cases m.env.on n with
    | true =>
      exact ⟨_, false, _, rfl, by simp only [Build.pwmScall]; omega,
        by simp only [Build.pwmScall]; omega, by simp⟩
    | false =>
      exact ⟨_, true, _, rfl, by simp only [Build.pwmScall]; omega,
        by simp only [Build.pwmScall]; omega, fun _ => by omega⟩
  obtain zero | slow | up | full := duty
  · exact ⟨10000, false, m.env.on, by simp [timerPwm, zero]; rfl, by decide, by decide, by simp⟩
  · exact switching 17 slow (.inl rfl)
  · exact switching 60 up (.inr rfl)
  · exact ⟨10000, true, m.env.on, by simp [timerPwm, full]; rfl, by decide, by decide,
      fun _ => by omega⟩

theorem callBack_motor (h : Motor m) {c : CallBack} (registered : some c ∈ m.timers.owners) :
    Motor (callBack .store c m) ∧ ∀ n < 2, c ≠ pwmCallBack n →
      (callBack .store c m).env.gpioOut (Build.store.bitPwm n) =
        m.env.gpioOut (Build.store.bitPwm n) := by
  have control := callBack_control .store c m
  have power : (callBack .store c m).env.puissanceTriac = m.env.puissanceTriac :=
    congrArg Control.puissanceTriac control
  have duty : (callBack .store c m).env.puissancePwm = m.env.puissancePwm :=
    congrArg Control.puissancePwm control
  have motor : (callBack .store c m).timers.owners = m.timers.owners →
      (callBack .store c m).env.timerTriackOn = false → Motor (callBack .store c m) :=
    fun owners flag => ⟨(callBack_us c m).trans h.us, owners.trans h.owners, flag,
      power ▸ h.power, fun n => duty ▸ h.duty n⟩
  have channel : ∀ k, c = pwmCallBack k → callBack .store c m = timerPwm .store k c m →
      (callBack .store c m).timers.owners = m.timers.owners ∧
      (callBack .store c m).env.timerTriackOn = false ∧ ∀ n, Build.store.bitPwm n ≠
        Build.store.bitPwm k → (callBack .store c m).env.gpioOut (Build.store.bitPwm n) =
          m.env.gpioOut (Build.store.bitPwm n) := by
    rintro k own eq
    obtain ⟨period, level, on, eq', -⟩ := timerPwm_motor h k
    rw [eq, own, eq']
    refine ⟨Timers.timerChange_owners _ _ _, h.flag, fun n ne => ?_⟩
    exact Function.update_of_ne ne _ _
  have own : c = .timerZeroCross ∨ c = .timerPwm1 ∨ c = .timerPwm2 := by
    simpa [h.owners] using registered
  obtain rfl | rfl | rfl := own
  · obtain ⟨level, eq⟩ := timerZeroCross_motor h
    have eq : callBack .store .timerZeroCross m = _ := eq
    refine ⟨motor ?_ ?_, fun n hn _ => ?_⟩
    · rw [eq]
      exact Timers.timerChange_owners _ _ _
    · rw [eq]
      exact h.flag
    · rw [eq]
      exact Function.update_of_ne (bitPwm_store hn) _ _
  · obtain ⟨owners, flag, out⟩ := channel 0 rfl rfl
    refine ⟨motor owners flag, fun n hn other => out n ?_⟩
    interval_cases n
    · exact absurd rfl other
    · decide
  · obtain ⟨owners, flag, out⟩ := channel 1 rfl rfl
    refine ⟨motor owners flag, fun n hn other => out n ?_⟩
    interval_cases n
    · decide
    · exact absurd rfl other

/-! ## One round -/

/-- Channel `n` counts `cpt` ticks at this level. -/
structure Channel (n : Nat) (cpt : Int) (level : Bool) (m : App) : Prop where
  motor : Motor m
  counts : Counts m n cpt
  out : m.env.gpioOut (Build.store.bitPwm n) = level

theorem Motor.setSlot (h : Motor m) {l : Nat} {s : CallbackTime CallBack}
    (slot : m.timers.tab[l]? = some s) (cpt : Int) : Motor (m.setSlot l { s with cpt := cpt }) :=
  ⟨h.us, (Timed.setSlot_owners slot cpt).trans h.owners, h.flag, h.power, h.duty⟩

theorem tickSlot_motor (h : Motor m) (l : Nat) : Motor (m.tickSlot (callBack .store) l).1 := by
  obtain ⟨eq, -⟩ | ⟨s, c, slot, own, -, eq⟩ | ⟨s, c, slot, own, -, eq⟩ :=
    Timed.tickSlot_cases (callBack .store) m l <;> rw [eq]
  · exact h
  · exact h.setSlot slot _
  · refine (callBack_motor (h.setSlot slot _) ?_).1
    rw [Timed.setSlot_owners slot, ← own]
    exact List.mem_of_getElem? (Timers.owners_of_slot slot)

/-- A round of another slot leaves the channel alone. -/
theorem tickSlot_other {cpt : Int} {level : Bool} (hn : n < 2) {j : Nat} (ne : j ≠ n + 1)
    (h : Channel n cpt level m) : Channel n cpt level (m.tickSlot (callBack .store) j).1 := by
  obtain ⟨s, slot, own, count⟩ := h.counts
  have owner : ∀ c, m.timers.owners[j]? = some (some c) → c ≠ pwmCallBack n ∧
      pwmCallBack n ∉ c.touches := by
    intro c hc
    rw [h.motor.owners] at hc
    have bound : j < 4 := (List.getElem?_eq_some_iff.mp hc).1
    interval_cases n <;> interval_cases j <;> simp_all <;> subst hc <;> decide
  refine ⟨tickSlot_motor h.motor j, ⟨s, ?_, own, count⟩, ?_⟩
  · exact tickSlot_slot slot own ne fun c hc => (owner c hc).2
  · obtain ⟨eq, -⟩ | ⟨s', c, slot', own', -, eq⟩ | ⟨s', c, slot', own', -, eq⟩ :=
      Timed.tickSlot_cases (callBack .store) m j <;> rw [eq]
    · exact h.out
    · exact h.out
    · have owners : m.timers.owners[j]? = some (some c) := own' ▸ Timers.owners_of_slot slot'
      refine Eq.trans ((callBack_motor (h.motor.setSlot slot' _) ?_).2 n hn (owner c owners).1)
        h.out
      rw [Timed.setSlot_owners slot']
      exact List.mem_of_getElem? owners

/-- The round of the channel's own slot while it counts. -/
theorem tickSlot_waits {cpt : Int} {level : Bool} (long : 2 ≤ cpt) (small : cpt < 2147483648)
    (h : Channel n cpt level m) :
    Channel n (cpt - 1) level (m.tickSlot (callBack .store) (n + 1)).1 := by
  obtain ⟨s, slot, own, rfl⟩ := h.counts
  have bound : n + 1 < m.timers.tab.length := (List.getElem?_eq_some_iff.mp slot).1
  rw [Timed.tickSlot_wait slot own long small]
  exact ⟨h.motor.setSlot slot _, ⟨{ s with cpt := s.cpt - 1 }, by simp [bound], own, rfl⟩, h.out⟩

/-- The round in which the channel's slot expires. -/
theorem tickSlot_expires {level : Bool} (hn : n < 2) (h : Channel n 1 level m) :
    ∃ cpt level', Channel n cpt level' (m.tickSlot (callBack .store) (n + 1)).1 ∧
      1 ≤ cpt ∧ cpt ≤ 100 ∧ (level' = true → m.env.puissancePwm n ≠ 0) := by
  obtain ⟨s, slot, own, due⟩ := h.counts
  have bound : n + 1 < m.timers.tab.length := (List.getElem?_eq_some_iff.mp slot).1
  let z := m.setSlot (n + 1) { s with cpt := int32 s.period }
  have motor : Motor z := h.motor.setSlot slot _
  obtain ⟨period, level', on, eq, low, high, driven⟩ := timerPwm_motor motor n
  have call : callBack .store (pwmCallBack n) z = timerPwm .store n (pwmCallBack n) z := by
    interval_cases n <;> rfl
  have registered : some (pwmCallBack n) ∈ z.timers.owners := by
    rw [motor.owners]
    interval_cases n <;> decide
  have after := (callBack_motor motor registered).1
  have slot' : z.timers.tab[n + 1]? = some { s with cpt := int32 s.period } := by simp [z, bound]
  have first : ∀ j < n + 1, z.timers.owners[j]? ≠ some (some (pwmCallBack n)) := by
    intro j hj
    rw [motor.owners]
    interval_cases n <;> interval_cases j <;> decide
  have restart := z.timers.timerChange_first period (pwmCallBack n) (n + 1) slot' own first
  have exact : int32 ↑(period / z.timers.us) = ↑(period / 100) := by
    rw [motor.us]
    exact int32_of_range (by omega) (by omega)
  rw [Timed.tickSlot_fire slot own due]
  refine ⟨↑(period / 100), level', ⟨after, ?_, ?_⟩, by omega, by omega, driven⟩
  · refine ⟨{ s with period := period / z.timers.us, cpt := int32 ↑(period / z.timers.us) },
      ?_, own, exact⟩
    dsimp only
    rw [call, eq]
    exact restart
  · dsimp only
    rw [call, eq]
    exact Function.update_self _ _ _

/-! ## One tick -/

/-- A tick takes one from the channel's count, or lets the channel follow its duty when the
count is over. -/
theorem tick_channel {cpt : Int} {level : Bool} (hn : n < 2) (io : Inputs) (positive : 1 ≤ cpt)
    (small : cpt < 2147483648) (h : Channel n cpt level m) :
    (2 ≤ cpt ∧ Channel n (cpt - 1) level (tick .store io m).1) ∨
    (cpt = 1 ∧ ∃ cpt' level', Channel n cpt' level' (tick .store io m).1 ∧ 1 ≤ cpt' ∧
      cpt' ≤ 100 ∧ (level' = true → m.env.puissancePwm n ≠ 0)) := by
  let z : App := { m with env := { m.env with inputs := io } }
  have start : Channel n cpt level z := by
    obtain ⟨motor, counts, out⟩ := h
    exact ⟨⟨motor.us, motor.owners, motor.flag, motor.power, motor.duty⟩, counts, out⟩
  have inside : n + 1 < z.timers.tab.length := by
    obtain ⟨s, slot, -⟩ := start.counts
    exact (List.getElem?_eq_some_iff.mp slot).1
  obtain ⟨ls, ls', split, absent, absent'⟩ := Timed.range_split inside
  have others : ∀ {cpt level m' ls}, n + 1 ∉ ls → Channel n cpt level m' →
      Channel n cpt level (m'.tickSlots (callBack .store) ls).1 := fun absent h =>
    Timed.tickSlots_others (fun _ _ ne h => tickSlot_other hn ne h) absent h
  have duty : (z.tickSlots (callBack .store) ls).1.env.puissancePwm = m.env.puissancePwm := by
    refine Timed.tickSlots_invariant (I := fun m' => m'.env.puissancePwm = m.env.puissancePwm)
      (fun m' l h => ?_) ls z rfl
    exact (congrArg Control.puissancePwm (tickSlot_control .store m' l)).trans h
  have rounds : (tick .store io m).1 = (Timed.tickSlots (callBack .store) ls'
      ((z.tickSlots (callBack .store) ls).1.tickSlot (callBack .store) (n + 1)).1).1 := by
    show (z.tickSlots (callBack .store) (List.range z.timers.tab.length)).1 = _
    rw [split, Timed.tickSlots_append]
    rfl
  rw [rounds]
  have reached := others absent start
  obtain long | due := lt_or_eq_of_le positive
  · exact .inl ⟨long, others absent' (tickSlot_waits long small reached)⟩
  · subst due
    obtain ⟨cpt', level', fired, low, high, driven⟩ := tickSlot_expires hn reached
    exact .inr ⟨rfl, cpt', level', others absent' fired, low, high, fun on => duty ▸ driven on⟩

end Domotic
