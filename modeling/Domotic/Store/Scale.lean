import Domotic.Store.Report
import Domotic.Uart.SleepTime

/-!
# The arithmetic of the position

The scale has up to nine digits and may be empty, the position counts pulses with no bound, and
both are multiplied in 32 bits before they are divided. The bounds under which the results are
the exact ones, taken along a run, keep the position small: each step starts from a position
that an earlier one has checked.
-/
namespace Domotic
open Library

variable {m m' : App} {e e' : Env}

/-- The position after a pulse. -/
def pulseNiveau (direction : Bool) (e : Env) : Int :=
  if direction then e.niveau - 1 else e.niveau + 1

/-- A hundred times the position is an `int`. -/
def SmallPlace (n : Int) : Prop := -21474836 ≤ n ∧ n ≤ 21474836

/-- The state in which `storeIRQ` computes the percentage. -/
def countedState (direction : Bool) (e : Env) : Env :=
  let delta := int32 (e.consinge - e.niveau)
  countPulse (!direction) (regulateUp delta (regulateDown delta e))

/-- The state in which `timeout_store` computes the percentage. -/
def timeoutState (e : Env) : Env :=
  (stopMotor (e.setTimerTimoutStore e.timerTimoutStore.disarm)).setPower 0

/-- Every result that the handlers compute from the scale and the position is the exact one, and
no divisor is zero. -/
def ExactArithmetic (e : Env) : Event → Prop
  | .mqttData data _ => data 0 = 83 →
      consingeOf (data 1) e = ↑(min (data 1).toNat 100 * e.tSleep / 100) ∧
      int32 (consingeOf (data 1) e - e.niveau) = consingeOf (data 1) e - e.niveau
  | .irq status => status.store = true →
      slowZone e = 3 * e.tSleep / 100 ∧
      int32 (e.consinge - e.niveau) = e.consinge - e.niveau ∧
      (status.pulse = false →
        (countedState status.direction e).niveau = pulseNiveau status.direction e ∧
        pourcentage (countedState status.direction e) =
          some (Int.tdiv (pulseNiveau status.direction e * 100) e.tSleep))
  | .timeoutStore =>
      (timeoutState e).niveau = timeoutNiveau e ∧
      pourcentage (timeoutState e) = some (Int.tdiv (timeoutNiveau e * 100) e.tSleep)
  | .tick _ => True

/-- The product of a command is an unsigned 32-bit number; a pulse and the watchdog find a scale,
and leave a position a hundred times of which is an `int`. -/
def ScaleFits (e : Env) : Event → Prop
  | .mqttData data _ => data 0 = 83 → min (data 1).toNat 100 * e.tSleep < 4294967296
  | .irq status => status.store = true → status.pulse = false →
      e.tSleep ≠ 0 ∧ SmallPlace (pulseNiveau status.direction e)
  | .timeoutStore => e.tSleep ≠ 0 ∧ SmallPlace (timeoutNiveau e)
  | .tick _ => True

instance (n : Int) : Decidable (SmallPlace n) := inferInstanceAs (Decidable (_ ∧ _))

instance (e : Env) (ev : Event) : Decidable (ScaleFits e ev) :=
  match ev with
  | .mqttData _ _ => inferInstanceAs (Decidable (_ → _))
  | .irq _ => inferInstanceAs (Decidable (_ → _ → _ ∧ _))
  | .timeoutStore => inferInstanceAs (Decidable (_ ∧ _))
  | .tick _ => inferInstanceAs (Decidable True)

/-- The scale has nine digits and the position and the target are small. -/
structure Counter (e : Env) : Prop where
  scale : e.tSleep < 1000000000
  place : SmallPlace e.niveau
  target : TargetBounded e

/-! ## One result -/

/-- The target is exact exactly when the product fits. -/
theorem consingeOf_exact_iff (value : UInt8) (e : Env) :
    consingeOf value e = ↑(min value.toNat 100 * e.tSleep / 100) ↔
      min value.toNat 100 * e.tSleep < 4294967296 := by
  have product : (↑(min value.toNat 100) * ↑e.tSleep : Int) =
    ↑(min value.toNat 100 * e.tSleep : Nat) := by push_cast; rfl
  rw [consingeOf, product, uint32_natCast]
  generalize min value.toNat 100 * e.tSleep = p
  rw [int32_of_range (by omega) (by omega)]
  omega

theorem slowZone_eq (scale : e.tSleep < 1000000000) : slowZone e = 3 * e.tSleep / 100 := by
  have product : (3 * e.tSleep : Int) = ↑(3 * e.tSleep : Nat) := by push_cast; rfl
  rw [slowZone, product, uint32_natCast, Nat.mod_eq_of_lt (by omega)]

/-- The percentage is exact exactly when there is a scale and the position is small. -/
theorem pourcentage_exact_iff (scale : e.tSleep < 1000000000) :
    pourcentage e = some (Int.tdiv (e.niveau * 100) e.tSleep) ↔
      e.tSleep ≠ 0 ∧ SmallPlace e.niveau := by
  have echelle : int32 e.tSleep = e.tSleep := int32_of_range (by omega) (by omega)
  by_cases empty : e.tSleep = 0
  · have zero : int32 e.tSleep = 0 := by rw [echelle, empty]; rfl
    refine iff_of_false ?_ fun h => h.1 empty
    simp [pourcentage, zero]
  have nonzero : (e.tSleep : Int) ≠ 0 := by omega
  have range := int32_bounds (e.niveau * 100)
  have bound := Int.natAbs_tdiv_le_natAbs (int32 (e.niveau * 100)) e.tSleep
  have negative : int32 (e.niveau * 100) ≤ 0 → Int.tdiv (int32 (e.niveau * 100)) e.tSleep ≤ 0 := by
    intro h
    have opposite := Int.tdiv_nonneg (Int.neg_nonneg_of_nonpos h) (Int.natCast_nonneg e.tSleep)
    rw [Int.neg_tdiv] at opposite
    omega
  have quotient : int32 (Int.tdiv (int32 (e.niveau * 100)) e.tSleep) =
      Int.tdiv (int32 (e.niveau * 100)) e.tSleep := int32_of_range (by omega) (by omega)
  have product := @tdiv_int32_iff (e.niveau * 100) e.tSleep (by omega) (by omega)
  rw [pourcentage, echelle, if_neg nonzero, quotient, Option.some_inj, product, SmallPlace]
  omega

theorem countPulse_niveau (up : Bool) (e : Env) :
    (countPulse up e).niveau = int32 (if up then e.niveau + 1 else e.niveau - 1) := by
  unfold countPulse
  dsimp only
  split_ifs <;> rfl

theorem countedState_place (direction : Bool) (e : Env) :
    (countedState direction e).niveau = int32 (pulseNiveau direction e) ∧
      (countedState direction e).tSleep = e.tSleep := by
  unfold countedState pulseNiveau
  refine ⟨?_, by rw [countPulse_tSleep, regulateUp_tSleep, regulateDown_tSleep]⟩
  have kept : ∀ delta, (regulateUp delta (regulateDown delta e)).niveau = e.niveau := by simp
  rw [countPulse_niveau, kept]
  cases direction <;> rfl

theorem storeIRQ_niveau {pulse direction : Bool} (h : storeIRQ pulse direction e = some e') :
    e'.niveau = (if pulse then e.niveau else int32 (pulseNiveau direction e)) ∧
      e'.tSleep = e.tSleep := by
  obtain ⟨r, n, sent, hr, ⟨rfl, rfl⟩ | ⟨rfl, rfl⟩⟩ := storeIRQ_eq h
  · rw [hr, regulateUp_tSleep, regulateDown_tSleep]
    simp
  · rw [hr]
    exact countedState_place direction e

/-- The position that the watchdog leaves is exact. -/
theorem timeoutState_place (c : Counter e) :
    (timeoutState e).niveau = timeoutNiveau e ∧ (timeoutState e).tSleep = e.tSleep := by
  have scale := c.scale
  have meter := stopMotor_meter (e.setTimerTimoutStore e.timerTimoutStore.disarm) c.target
    (Nat.lt_trans scale (by decide))
  exact ⟨congrArg Meter.niveau meter, stopMotor_tSleep _⟩

/-! ## One step -/

theorem distance_exact {target n : Int} (bounds : 0 ≤ target ∧ target ≤ 42949672)
    (place : SmallPlace n) : int32 (target - n) = target - n := by
  obtain ⟨low, high⟩ := place
  exact int32_of_range (by omega) (by omega)

/-- From a small position a step is exact exactly when it fits. -/
theorem Counter.exact_iff (c : Counter e) (ev : Event) : ExactArithmetic e ev ↔ ScaleFits e ev := by
  have scale := c.scale
  cases ev with
  | tick => exact Iff.rfl
  | irq status =>
    obtain ⟨niveau, tSleep⟩ := countedState_place status.direction e
    have counted : int32 (pulseNiveau status.direction e) = pulseNiveau status.direction e := by
      obtain ⟨low, high⟩ := c.place
      unfold pulseNiveau
      split <;> exact int32_of_range (by omega) (by omega)
    have percentage := @pourcentage_exact_iff (countedState status.direction e) (tSleep ▸ scale)
    rw [niveau, tSleep, counted] at percentage
    refine imp_congr_right fun _ => ?_
    rw [and_iff_right (slowZone_eq scale), and_iff_right (distance_exact c.target c.place)]
    refine imp_congr_right fun _ => ?_
    rw [and_iff_right (niveau.trans counted), percentage]
  | mqttData data dataLen =>
    refine imp_congr_right fun _ => ?_
    rw [and_iff_left (distance_exact (consingeOf_bounds (data 1) e) c.place), consingeOf_exact_iff]
  | timeoutStore =>
    obtain ⟨niveau, tSleep⟩ := timeoutState_place c
    have percentage := @pourcentage_exact_iff (timeoutState e) (tSleep ▸ scale)
    rw [niveau, tSleep] at percentage
    exact (and_iff_right niveau).trans percentage

theorem Counter.of_control (c : Counter e) (same : e'.control = e.control) : Counter e' := by
  have niveau : e'.niveau = e.niveau := congrArg Control.niveau same
  have consinge : e'.consinge = e.consinge := congrArg Control.consinge same
  have tSleep : e'.tSleep = e.tSleep := congrArg Control.tSleep same
  exact ⟨tSleep ▸ c.scale, niveau ▸ c.place, by rw [TargetBounded, consinge]; exact c.target⟩

/-- A step that fits leaves a small position. -/
theorem step_counter {ev : Event} (h : step .store m ev = some m') (c : Counter m.env)
    (fits : ScaleFits m.env ev) : Counter m'.env := by
  have target := step_target h c.target
  obtain ⟨-, same⟩ | ⟨status, e, rfl, store, same, run⟩ | ⟨data, dataLen, rfl, -, rfl⟩ |
    ⟨rfl, run⟩ := store_step_cases h
  · exact c.of_control same
  · have c' := c.of_control same
    obtain ⟨niveau, tSleep⟩ := storeIRQ_niveau run
    refine ⟨tSleep ▸ c'.scale, ?_, target⟩
    rw [niveau]
    split
    · exact c'.place
    · rename_i low
      have place := (fits store (Bool.eq_false_iff.mpr low)).2
      have before : pulseNiveau status.direction e = pulseNiveau status.direction m.env := by
        have kept : e.niveau = m.env.niveau := congrArg Control.niveau same
        rw [pulseNiveau, pulseNiveau, kept]
      rw [before, int32_of_range (by have := place.1; omega) (by have := place.2; omega)]
      exact place
  · have meter := storeCommand_meter m.env (data 1)
    exact ⟨(congrArg Meter.tSleep meter).trans_lt c.scale,
      (congrArg (fun r => SmallPlace r.niveau) meter).mpr c.place, target⟩
  · obtain ⟨n, sent, eq⟩ := timeoutStore_eq run
    obtain ⟨niveau, tSleep⟩ := timeoutState_place c
    refine ⟨?_, ?_, target⟩
    · rw [eq]
      exact tSleep.trans_lt c.scale
    · rw [eq]
      exact niveau ▸ fits.2

/-! ## Whole runs -/

theorem boot_counter {t : Nat} (scale : t < 1000000000) (name : List UInt8) :
    Counter (userInit .store t name).env := by
  have meter := boot_meter t name
  refine ⟨(congrArg Meter.tSleep meter).trans_lt scale, ?_, boot_target t name⟩
  exact (congrArg (fun r => SmallPlace r.niveau) meter).mpr ⟨by simp, by simp⟩

theorem run_counter {t : Nat} {name : List UInt8} {es : List Event} (scale : t < 1000000000)
    (run : AppRun .store (userInit .store t name) es m)
    (fits : ∀ pre ev s, pre ++ [ev] <+: es → AppRun .store (userInit .store t name) pre s →
      ScaleFits s.env ev) : Counter m.env := by
  induction run with
  | nil => exact boot_counter scale name
  | @snoc es ev s s' run step ih =>
    obtain ⟨before, last⟩ := (Run.forall_steps_snoc
      (P := fun _ ev (s : App) => ScaleFits s.env ev) run).mp fits
    exact step_counter step (ih before) last

/-- With a scale that a line can store, the handlers compute exact results at every step from boot
exactly when every step fits. -/
theorem exactArithmetic_iff_scaleFits {t : Nat} (name : List UInt8) (es : List Event)
    (stored : StoredByLine .store t) :
    (∀ pre ev s, pre ++ [ev] <+: es → AppRun .store (userInit .store t name) pre s →
        ExactArithmetic s.env ev) ↔
      ∀ pre ev s, pre ++ [ev] <+: es → AppRun .store (userInit .store t name) pre s →
        ScaleFits s.env ev :=
  Run.forall_steps_congr (P := fun (s : App) ev => ExactArithmetic s.env ev)
    (Q := fun (s : App) ev => ScaleFits s.env ev)
    (fun _ _ run fits ev => (run_counter stored.lt run fits).exact_iff ev) es

/-- A command, a pulse and the watchdog. -/
def halfWay : List Event :=
  [.message [83, 50], .irq ⟨false, true, false, false⟩, .timeoutStore]

/-- With the scale 100 they are computed exactly. -/
theorem exactArithmetic_hundred : ∃ m, AppRun .store (userInit .store 100 [65]) halfWay m ∧
    ∀ pre ev s, pre ++ [ev] <+: halfWay → AppRun .store (userInit .store 100 [65]) pre s →
      ExactArithmetic s.env ev := by
  have some : (halfWay.foldlM (fun s ev => if ScaleFits s.env ev then step .store s ev else none)
      (userInit .store 100 [65])).isSome := by decide +kernel
  obtain ⟨m, run⟩ := Option.isSome_iff_exists.mp some
  have guarded := run_guarded_iff.mpr run
  exact ⟨m, guarded.unguarded,
    (exactArithmetic_iff_scaleFits [65] halfWay storedByLine_hundred).mpr guarded.guarded_steps⟩

/-- An empty line stores 0, and the first pulse divides by it; with eight digits a full command
sets a target seven times too small. -/
theorem not_exactArithmetic_empty_scale :
    (StoredByLine .store 0 ∧ ¬ ∀ pre ev s, pre ++ [ev] <+: [.irq ⟨false, true, false, false⟩] →
      AppRun .store (userInit .store 0 [65]) pre s → ExactArithmetic s.env ev) ∧
    StoredByLine .store 50000000 ∧
      consingeOf 100 (userInit .store 50000000 [65]).env = 7050327 := by
  refine ⟨⟨?_, fun h => ?_⟩, ?_, by decide +kernel⟩
  · exact ⟨.boot .blank, 120, [], 10, rfl, by decide, by simp [isNewline], by decide,
      by decide +kernel⟩
  · have pulse := h [] _ _ List.prefix_rfl .nil
    have percentage := (pulse rfl).2.2 rfl
    have none : pourcentage (countedState false (userInit .store 0 [65]).env) = none := by
      decide +kernel
    exact absurd (none.symm.trans percentage.2) nofun
  · exact ⟨.boot .blank, 120, [53, 48, 48, 48, 48, 48, 48, 48], 10, rfl, by decide,
      by simp [isNewline], by decide, by decide +kernel⟩

end Domotic
