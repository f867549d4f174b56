import Domotic.App.Frame

/-!
# Which slots a callback touches

A callback restarts its own slot, and the zero crossing also sets up the gate pulse. Every
other slot keeps its callback and its counters, whatever happens in the same tick.
-/
namespace Domotic
open Library

/-- The callbacks whose slot `c` may change. -/
def CallBack.touches : CallBack → List CallBack
  | .timerZeroCross => [.timerZeroCross, .timerDisableTriack, .zeroCross, .timerEnableTriack]
  | .zeroCross => [.timerDisableTriack, .zeroCross, .timerEnableTriack]
  | .timerDisableTriack => [.timerDisableTriack]
  | .timerPwm1 => [.timerPwm1]
  | .timerPwm2 => [.timerPwm2]
  | .timerEnableTriack | .timerMesureSampleAdc => []

variable {b : Build} {m : App} {l : Nat} {s : CallbackTime CallBack} {k : CallBack}

@[simp] theorem timerMesureSampleAdc_timers (m : App) :
    (timerMesureSampleAdc m).timers = m.timers := by
  unfold timerMesureSampleAdc
  split <;> rfl

theorem timerPwm_slot {n : Nat} {c : CallBack} (slot : m.timers.tab[l]? = some s)
    (own : s.callBack = some k) (other : k ≠ c) : (timerPwm b n c m).timers.tab[l]? = some s := by
  have keep : ∀ period, (m.timers.timerChange period c).tab[l]? = some s := fun period =>
    m.timers.timerChange_of_ne period c l slot (by simpa [own] using other)
  unfold timerPwm
  dsimp only
  split_ifs <;> exact keep _

theorem removeEnableTriack_slot (slot : m.timers.tab[l]? = some s) (own : s.callBack = some k)
    (other : k ≠ .timerEnableTriack) : (removeEnableTriack m).timers.tab[l]? = some s := by
  unfold removeEnableTriack
  split
  · exact m.timers.timerRemoveCallback_of_ne _ l slot (by simpa [own] using other)
  · exact slot

theorem delayEnableTriack_slot {delay : Nat} (slot : m.timers.tab[l]? = some s)
    (own : s.callBack = some k) (other : k ≠ .timerEnableTriack) :
    (delayEnableTriack m delay).timers.tab[l]? = some s := by
  unfold delayEnableTriack
  split
  · exact m.timers.timerChange_of_ne _ _ l slot (by simpa [own] using other)
  · exact m.timers.timerAddCallback_of_busy _ _ l slot (by simp [own])

theorem zeroCross_slot (slot : m.timers.tab[l]? = some s) (own : s.callBack = some k)
    (other : k ∉ CallBack.zeroCross.touches) : (zeroCross b m).timers.tab[l]? = some s := by
  simp only [CallBack.touches, List.mem_cons, List.not_mem_nil, or_false, not_or] at other
  obtain ⟨disable, self, enable⟩ := other
  by_cases half : b.halfSin = true
  · rw [zeroCross_half half]
    refine Timers.timerChange_of_ne _ _ _ l ?_ (by simpa [own] using self)
    refine Timers.timerChange_of_ne _ _ _ l ?_ (by simpa [own] using disable)
    split <;> exact slot
  · rw [zeroCross_whole half]
    split_ifs
    · exact removeEnableTriack_slot (m := ⟨m.timers, switchTli b m.env⟩) slot own enable
    · exact delayEnableTriack_slot
        (m := App.setOut ⟨m.timers, switchTli b m.env⟩ bitTriac false) slot own enable
    · exact removeEnableTriack_slot (m := ⟨m.timers, switchTli b m.env⟩) slot own enable

/-- A callback leaves alone the slots of the callbacks that it does not touch. -/
theorem callBack_slot {c : CallBack} (slot : m.timers.tab[l]? = some s)
    (own : s.callBack = some k) (other : k ∉ c.touches) :
    (callBack b c m).timers.tab[l]? = some s := by
  cases c with
  | timerZeroCross =>
    have self : k ≠ .timerZeroCross := fun eq => other (by simp [eq, CallBack.touches])
    refine zeroCross_slot ?_ own fun touched => other (List.mem_cons_of_mem _ touched)
    exact Timers.timerChange_of_ne _ _ _ l slot (by simpa [own] using self)
  | zeroCross => exact zeroCross_slot slot own other
  | timerDisableTriack =>
    have self : k ≠ .timerDisableTriack := fun eq => other (by simp [eq, CallBack.touches])
    exact Timers.timerChange_of_ne _ _ _ l slot (by simpa [own] using self)
  | timerEnableTriack => exact slot
  | timerPwm1 => exact timerPwm_slot slot own fun eq => other (by simp [eq, CallBack.touches])
  | timerPwm2 => exact timerPwm_slot slot own fun eq => other (by simp [eq, CallBack.touches])
  | timerMesureSampleAdc => simpa [callBack] using slot

/-- A round for another slot, whose callback does not touch this one, leaves it alone. -/
theorem tickSlot_slot {j : Nat} (slot : m.timers.tab[l]? = some s) (own : s.callBack = some k)
    (ne : j ≠ l) (other : ∀ c, m.timers.owners[j]? = some (some c) → k ∉ c.touches) :
    (m.tickSlot (callBack b) j).1.timers.tab[l]? = some s := by
  have kept : ∀ s', (m.setSlot j s').timers.tab[l]? = some s := fun s' => by
    rw [Timed.setSlot_tab, List.getElem?_set_ne ne, slot]
  obtain ⟨eq, -⟩ | ⟨s', c, -, -, -, eq⟩ | ⟨s', c, slot', own', -, eq⟩ :=
    Timed.tickSlot_cases (callBack b) m j <;> rw [eq]
  · exact slot
  · exact kept _
  · exact callBack_slot (kept _) own (other c (own' ▸ Timers.owners_of_slot slot'))

/-- A zero crossing restarts its own slot. -/
theorem zeroCrossIRQ_slot (slot : m.timers.tab[l]? = some s) (own : s.callBack = some k)
    (other : ¬ (k = .zeroCross ∨ k = .timerZeroCross)) :
    (zeroCrossIRQ b m).timers.tab[l]? = some s := by
  obtain ⟨half, whole⟩ := not_or.mp other
  have keep : ∀ period c, k ≠ c → (m.timers.timerChange period c).tab[l]? = some s :=
    fun period c ne => m.timers.timerChange_of_ne period c l slot (by simpa [own] using ne)
  unfold zeroCrossIRQ
  dsimp only
  split_ifs <;> first | exact keep _ _ half | exact keep _ _ whole

/-! ## The duration of a tick -/

theorem callBack_us (c : CallBack) (m : App) :
    (callBack b c m).timers.us = m.timers.us := by
  cases c with
  | timerZeroCross | zeroCross =>
    simp only [callBack, timerZeroCross, zeroCross, removeEnableTriack, delayEnableTriack]
    split_ifs <;> rfl
  | timerDisableTriack | timerEnableTriack => rfl
  | timerPwm1 | timerPwm2 =>
    simp only [callBack, timerPwm1, timerPwm2, timerPwm]
    split_ifs <;> rfl
  | timerMesureSampleAdc => simp [callBack]

end Domotic
