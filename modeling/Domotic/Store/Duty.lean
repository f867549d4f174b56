import Domotic.App.Frame

/-!
# Duties and power of the shutter motor

The motor turns one way while `puissance_pwm[0]` is nonzero and the other way while
`puissance_pwm[1]` is. Each handler writes some of the two duties and of the triac power;
`DutyPower` is what all of them keep. The power half leans on the exclusive half: `storeIRQ`
cuts the power when one channel stops, which is right only if the other one was at rest.
-/
namespace Domotic
open Library

/-- At most one direction is driven, and there is power exactly while one is. -/
structure DutyPower (e : Env) : Prop where
  exclusive : e.puissancePwm 0 = 0 ∨ e.puissancePwm 1 = 0
  powered : e.puissanceTriac ≠ 0 ↔ Xor (e.puissancePwm 0 ≠ 0) (e.puissancePwm 1 ≠ 0)

/-- Only the duties and the power matter. -/
theorem DutyPower.congr {e e' : Env} (h : DutyPower e)
    (pwm : e'.puissancePwm = e.puissancePwm) (triac : e'.puissanceTriac = e.puissanceTriac) :
    DutyPower e' :=
  ⟨by rw [pwm]; exact h.exclusive, by rw [pwm, triac]; exact h.powered⟩

theorem DutyPower.of_control {e e' : Env} (h : DutyPower e) (same : e'.control = e.control) :
    DutyPower e' :=
  h.congr (congrArg Control.puissancePwm same) (congrArg Control.puissanceTriac same)

/-! ## The parts of `storeIRQ` -/

/-- A duty that is regulated stays nonzero or drops to zero with the power. -/
theorem regulateDown_duty (delta : Int) (e : Env) :
    (regulateDown delta e = e ∧ e.puissancePwm 0 = 0) ∨
    (regulateDown delta e = (e.setPwm 0 0).setPower 0 ∧ e.puissancePwm 0 ≠ 0) ∨
    (∃ p ∈ [17, 60, 100], regulateDown delta e = e.setPwm 0 p ∧ e.puissancePwm 0 ≠ 0) := by
  unfold regulateDown
  by_cases on : e.puissancePwm 0 = 0
  · exact .inl ⟨by simp [on], on⟩
  · simp only [ne_eq, on, not_false_eq_true, ↓reduceIte]
    split_ifs
    · exact .inr (.inl ⟨rfl, trivial⟩)
    · exact .inr (.inr ⟨100, by decide, rfl, trivial⟩)
    · exact .inr (.inr ⟨17, by decide, rfl, trivial⟩)

theorem regulateUp_duty (delta : Int) (e : Env) :
    (regulateUp delta e = e ∧ e.puissancePwm 1 = 0) ∨
    (regulateUp delta e = (e.setPwm 1 0).setPower 0 ∧ e.puissancePwm 1 ≠ 0) ∨
    (∃ p ∈ [17, 60, 100], regulateUp delta e = e.setPwm 1 p ∧ e.puissancePwm 1 ≠ 0) := by
  unfold regulateUp
  by_cases on : e.puissancePwm 1 = 0
  · exact .inl ⟨by simp [on], on⟩
  · simp only [ne_eq, on, not_false_eq_true, ↓reduceIte]
    split_ifs
    · exact .inr (.inl ⟨rfl, trivial⟩)
    · exact .inr (.inr ⟨100, by decide, rfl, trivial⟩)
    · exact .inr (.inr ⟨60, by decide, rfl, trivial⟩)

/-- Regulation drives no channel that was at rest. -/
theorem regulateDown_driven {delta : Int} {e : Env} {n : Nat}
    (on : (regulateDown delta e).puissancePwm n ≠ 0) : e.puissancePwm n ≠ 0 := by
  obtain ⟨eq, -⟩ | ⟨eq, down⟩ | ⟨p, -, eq, down⟩ := regulateDown_duty delta e <;> rw [eq] at on
  · exact on
  · by_cases here : n = 0
    · exact here ▸ down
    · simpa [here] using on
  · by_cases here : n = 0
    · exact here ▸ down
    · simpa [here] using on

theorem regulateUp_driven {delta : Int} {e : Env} {n : Nat}
    (on : (regulateUp delta e).puissancePwm n ≠ 0) : e.puissancePwm n ≠ 0 := by
  obtain ⟨eq, -⟩ | ⟨eq, up⟩ | ⟨p, -, eq, up⟩ := regulateUp_duty delta e <;> rw [eq] at on
  · exact on
  · by_cases here : n = 1
    · exact here ▸ up
    · simpa [here] using on
  · by_cases here : n = 1
    · exact here ▸ up
    · simpa [here] using on

theorem regulateDown_dutyPower (delta : Int) {e : Env} (h : DutyPower e) :
    DutyPower (regulateDown delta e) := by
  obtain ⟨eq, -⟩ | ⟨eq, on⟩ | ⟨p, hp, eq, on⟩ := regulateDown_duty delta e
  · rwa [eq]
  · have rest : e.puissancePwm 1 = 0 := h.exclusive.resolve_left on
    rw [eq]
    constructor <;> simp [Xor, rest]
  · have driven : p ≠ 0 := by rintro rfl; simp at hp
    have rest : e.puissancePwm 1 = 0 := h.exclusive.resolve_left on
    have power : e.puissanceTriac ≠ 0 := h.powered.mpr (.inl ⟨on, by simp [rest]⟩)
    rw [eq]
    constructor <;> simp [Xor, rest, power, driven]

theorem regulateUp_dutyPower (delta : Int) {e : Env} (h : DutyPower e) :
    DutyPower (regulateUp delta e) := by
  obtain ⟨eq, -⟩ | ⟨eq, on⟩ | ⟨p, hp, eq, on⟩ := regulateUp_duty delta e
  · rwa [eq]
  · have rest : e.puissancePwm 0 = 0 := h.exclusive.resolve_right on
    rw [eq]
    constructor <;> simp [Xor, rest]
  · have driven : p ≠ 0 := by rintro rfl; simp at hp
    have rest : e.puissancePwm 0 = 0 := h.exclusive.resolve_right on
    have power : e.puissanceTriac ≠ 0 := h.powered.mpr (.inr ⟨on, by simp [rest]⟩)
    rw [eq]
    constructor <;> simp [Xor, rest, power, driven]

@[simp] theorem countPulse_puissancePwm (up : Bool) (e : Env) :
    (countPulse up e).puissancePwm = e.puissancePwm := by
  unfold countPulse resetTimeout
  dsimp only
  split_ifs <;> rfl

@[simp] theorem countPulse_puissanceTriac (up : Bool) (e : Env) :
    (countPulse up e).puissanceTriac = e.puissanceTriac := by
  unfold countPulse resetTimeout
  dsimp only
  split_ifs <;> rfl

theorem storeIRQ_driven {pulse direction : Bool} {e e' : Env}
    (h : storeIRQ pulse direction e = some e') {n : Nat} (on : e'.puissancePwm n ≠ 0) :
    e.puissancePwm n ≠ 0 := by
  obtain ⟨r, k, sent, hr, out⟩ := storeIRQ_eq h
  have regulated : r.puissancePwm n ≠ 0 := by
    obtain ⟨-, rfl⟩ | ⟨-, rfl⟩ := out
    · exact on
    · simpa using on
  rw [hr] at regulated
  exact regulateDown_driven (regulateUp_driven regulated)

theorem storeIRQ_dutyPower {pulse direction : Bool} {e e' : Env}
    (h : storeIRQ pulse direction e = some e') (d : DutyPower e) : DutyPower e' := by
  obtain ⟨r, n, sent, hr, ⟨-, rfl⟩ | ⟨-, rfl⟩⟩ := storeIRQ_eq h
  · exact hr ▸ regulateUp_dutyPower _ (regulateDown_dutyPower _ d)
  · refine DutyPower.congr (e := r) (hr ▸ regulateUp_dutyPower _ (regulateDown_dutyPower _ d)) ?_ ?_
    · exact countPulse_puissancePwm _ r
    · exact countPulse_puissanceTriac _ r

/-! ## Commands and the watchdog -/

theorem storeCommand_dutyPower (value : UInt8) (e : Env) : DutyPower (storeCommand value e) := by
  obtain ⟨-, eq⟩ | ⟨-, eq⟩ | ⟨-, eq⟩ := storeCommand_cases value e <;> rw [eq] <;>
    constructor <;> simp [Xor, Build.puissanceMax]

/-- The watchdog stops the motor, whatever it was doing. -/
theorem timeoutStore_stops {e e' : Env} (h : timeoutStore e = some e') :
    e'.puissancePwm 0 = 0 ∧ e'.puissancePwm 1 = 0 ∧ e'.puissanceTriac = 0 ∧
      e'.timerTimoutStore = e.timerTimoutStore.disarm := by
  obtain ⟨n, sent, rfl⟩ := timeoutStore_eq h
  unfold stopMotor
  dsimp only
  split_ifs with moving below
  · simp
  · simp
  · simp only [ne_eq, not_or, not_not] at moving
    exact ⟨moving.1, moving.2, rfl, rfl⟩

theorem step_dutyPower {m m' : App} {ev : Event} (h : step .store m ev = some m')
    (d : DutyPower m.env) : DutyPower m'.env := by
  obtain ⟨-, same⟩ | ⟨status, e, -, -, same, run⟩ | ⟨data, dataLen, -, -, rfl⟩ | ⟨-, run⟩ :=
    store_step_cases h
  · exact d.of_control same
  · exact storeIRQ_dutyPower run (d.of_control same)
  · dsimp only
    exact storeCommand_dutyPower (data 1) m.env
  · obtain ⟨zero, one, off, -⟩ := timeoutStore_stops run
    exact ⟨.inl zero, by simp [Xor, zero, one, off]⟩

theorem userInit_store_control (t : Nat) (name : List UInt8) :
    (userInit .store t name).env.control = (Env.boot .store t name).control := by
  simp only [userInit, initTriack, initPwm, Build.triack, Build.pwm, Build.relay, Build.detect0V,
    Build.tli4970Enable, Build.halfSin, Build.halfSinPos, Build.halfSinNeg, Bool.or_false]
  rfl

theorem boot_dutyPower (t : Nat) (name : List UInt8) : DutyPower (userInit .store t name).env := by
  refine DutyPower.of_control (e := Env.boot .store t name) ?_ (userInit_store_control t name)
  constructor <;> simp [Env.boot, Build.isStore, Xor]

theorem run_dutyPower {t : Nat} {name : List UInt8} {es : List Event} {m : App}
    (h : AppRun .store (userInit .store t name) es m) : DutyPower m.env :=
  h.invariant (I := fun m => DutyPower m.env) (fun _ _ _ => step_dutyPower) (boot_dutyPower t name)

/-- In every reachable state at most one direction is driven, and the power is on exactly
while one is. -/
theorem duty_and_power {t : Nat} {name : List UInt8} {es : List Event} {m : App}
    (h : AppRun .store (userInit .store t name) es m) :
    (m.env.puissancePwm 0 = 0 ∨ m.env.puissancePwm 1 = 0) ∧
      (m.env.puissanceTriac ≠ 0 ↔ Xor (m.env.puissancePwm 0 ≠ 0) (m.env.puissancePwm 1 ≠ 0)) := by
  have d := run_dutyPower h
  exact ⟨d.exclusive, d.powered⟩

/-- One command starts the motor upwards. -/
theorem duty_and_power_after_start :
    ∃ m, AppRun .store (userInit .store 100 [65]) [.message [83, 100]] m ∧
      m.env.puissancePwm 1 = 100 ∧
      (m.env.puissancePwm 0 = 0 ∨ m.env.puissancePwm 1 = 0) ∧
      (m.env.puissanceTriac ≠ 0 ↔ Xor (m.env.puissancePwm 0 ≠ 0) (m.env.puissancePwm 1 ≠ 0)) := by
  have up : ((([.message [83, 100]] : List Event).foldlM (step .store)
      (userInit .store 100 [65])).map fun m => m.env.puissancePwm 1) = some 100 := by
    decide +kernel
  obtain ⟨m, run, up⟩ := Option.map_eq_some_iff.mp up
  exact ⟨m, run_iff_foldlM.mpr run, up, duty_and_power (run_iff_foldlM.mpr run)⟩

end Domotic
