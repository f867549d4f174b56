import Domotic.Store.Scale

/-!
# Approaching the target

`storeIRQ` compares the distance to the target with three per cent of the scale and drives the
motor slowly inside that zone. `echelle` is unsigned, so going down the distance is compared as
an unsigned value with the wrapped negation of the zone, which is zero where the zone is.
-/
namespace Domotic
open Library

variable {e e' : Env}

/-! ## The slow zone -/

/-- Each channel that is driven has its slow duty inside the zone and full duty outside. -/
def SlowInZone (e e' : Env) : Prop :=
  let near := |e.consinge - e.niveau| ≤ ↑(3 * e.tSleep / 100)
  (e'.puissancePwm 0 ≠ 0 → e'.puissancePwm 0 = if near then pMinStoreDown else 100) ∧
    (e'.puissancePwm 1 ≠ 0 → e'.puissancePwm 1 = if near then pMinStoreUp else 100)

/-- A value of an `int`. -/
def IsInt (x : Int) : Prop := -2147483648 ≤ x ∧ x < 2147483648

/-- The difference, as an `int`, is negative. -/
def Below (x : Int) : Prop := (-2147483648 ≤ x ∧ x < 0) ∨ 2147483648 ≤ x

/-- The difference, as an `int`, is positive. -/
def Above (x : Int) : Prop := (0 < x ∧ x < 2147483648) ∨ x < -2147483648

/-- The target is not as far away as an `int` can be, and for a motor that goes down the zone is
not empty. -/
structure ZoneSound (e : Env) : Prop where
  down : e.puissancePwm 0 ≠ 0 → Below (e.consinge - e.niveau) →
    34 ≤ e.tSleep ∧ |e.consinge - e.niveau| + ↑(3 * e.tSleep / 100) < 4294967296
  up : e.puissancePwm 1 ≠ 0 → Above (e.consinge - e.niveau) →
    |e.consinge - e.niveau| + ↑(3 * e.tSleep / 100) < 4294967296

section regulation
variable (delta : Int) (e : Env)

/-- The duty of channel 0 that a call leaves, from the distance it computes. -/
def downDuty : Nat :=
  if e.puissancePwm 0 = 0 ∨ 0 ≤ delta then 0
  else if uint32 delta < uint32 (-slowZone e) then 100 else pMinStoreDown

/-- The duty of channel 1 that a call leaves, from the distance it computes. -/
def upDuty : Nat :=
  if e.puissancePwm 1 = 0 ∨ delta ≤ 0 then 0
  else if slowZone e < uint32 delta then 100 else pMinStoreUp

theorem regulateDown_zero : (regulateDown delta e).puissancePwm 0 = downDuty delta e := by
  unfold regulateDown downDuty
  by_cases rest : e.puissancePwm 0 = 0
  · simp [rest]
  by_cases reached : 0 ≤ delta
  · simp [rest, reached]
  · simp only [ne_eq, rest, reached, not_false_eq_true, or_self, ↓reduceIte]
    split_ifs <;> simp

theorem regulateUp_one : (regulateUp delta e).puissancePwm 1 = upDuty delta e := by
  unfold regulateUp upDuty
  by_cases rest : e.puissancePwm 1 = 0
  · simp [rest]
  by_cases reached : delta ≤ 0
  · simp [rest, reached]
  · simp only [ne_eq, rest, reached, not_false_eq_true, or_self, ↓reduceIte]
    split_ifs <;> simp

theorem regulateDown_one : (regulateDown delta e).puissancePwm 1 = e.puissancePwm 1 := by
  unfold regulateDown
  split_ifs <;> simp

theorem regulateUp_zero : (regulateUp delta e).puissancePwm 0 = e.puissancePwm 0 := by
  unfold regulateUp
  split_ifs <;> simp

end regulation

/-- The duties that a call leaves. -/
theorem storeIRQ_duties {pulse direction : Bool} (h : storeIRQ pulse direction e = some e') :
    e'.puissancePwm 0 = downDuty (int32 (e.consinge - e.niveau)) e ∧
      e'.puissancePwm 1 = upDuty (int32 (e.consinge - e.niveau)) e := by
  obtain ⟨r, n, sent, hr, out⟩ := storeIRQ_eq h
  have duties : e'.puissancePwm = r.puissancePwm := by
    obtain ⟨-, rfl⟩ | ⟨-, rfl⟩ := out <;> simp
  have kept : upDuty (int32 (e.consinge - e.niveau))
      (regulateDown (int32 (e.consinge - e.niveau)) e) =
        upDuty (int32 (e.consinge - e.niveau)) e := by
    rw [upDuty, regulateDown_one, slowZone, regulateDown_tSleep]
    rfl
  rw [duties, hr, regulateUp_zero, regulateDown_zero, regulateUp_one, kept]
  exact ⟨rfl, rfl⟩

section distance
variable {x z : Int}

theorem below_iff (lo : -4294967296 < x) (hi : x < 4294967296) : int32 x < 0 ↔ Below x := by
  rw [int32_eq, Below]
  omega

theorem above_iff (lo : -4294967296 < x) (hi : x < 4294967296) : 0 < int32 x ↔ Above x := by
  rw [int32_eq, Above]
  omega

/-- The unsigned comparison on the way down. -/
theorem down_fast_iff (lo : -4294967296 < x) (hi : x < 4294967296) (zone : 0 ≤ z)
    (small : z < 2147483648) :
    uint32 (int32 x) < uint32 (-z) ↔ 0 < z ∧ (x < 0 → x < -z) ∧ (0 ≤ x → x + z < 4294967296) := by
  rw [uint32_eq, uint32_eq, int32_eq]
  omega

/-- The unsigned comparison on the way up. -/
theorem up_fast_iff (lo : -4294967296 < x) (hi : x < 4294967296) (above : Above x) {z : Nat} :
    z < uint32 (int32 x) ↔ (0 < x → z < x) ∧ (x ≤ 0 → z < x + 4294967296) := by
  rw [uint32_eq, int32_eq]
  unfold Above at above
  omega

end distance

theorem ite_eq_ite_swap {p q : Prop} [Decidable p] [Decidable q] {a b : Nat} (ne : a ≠ b) :
    (if p then a else b) = (if q then b else a) ↔ (p ↔ ¬ q) := by
  split_ifs <;> simp_all [eq_comm]

/-- On the way down the duty is right exactly when there is a zone and the target is not too far. -/
theorem downDuty_iff {x : Int} (lo : -4294967296 < x) (hi : x < 4294967296)
    (scale : e.tSleep < 1000000000) :
    (downDuty (int32 x) e ≠ 0 → downDuty (int32 x) e =
        if |x| ≤ ↑(3 * e.tSleep / 100) then pMinStoreDown else 100) ↔
      (e.puissancePwm 0 ≠ 0 → Below x → 34 ≤ e.tSleep ∧
        |x| + ↑(3 * e.tSleep / 100) < 4294967296) := by
  have down := below_iff lo hi
  by_cases driven : e.puissancePwm 0 ≠ 0 ∧ Below x
  · obtain ⟨driven, below⟩ := driven
    have negative := down.mpr below
    have fast := down_fast_iff (z := ↑(3 * e.tSleep / 100)) lo hi (by omega) (by omega)
    rw [downDuty, slowZone_eq scale, if_neg (by simp [driven, negative])]
    simp only [ne_eq, driven, below, not_false_eq_true, forall_const]
    rw [imp_iff_right (by split_ifs <;> decide), ite_eq_ite_swap (by decide), fast]
    obtain ⟨eq, sign⟩ | ⟨eq, sign⟩ := abs_cases x <;> rw [eq] <;> unfold Below at below <;> omega
  · have rest : e.puissancePwm 0 = 0 ∨ 0 ≤ int32 x := by
      rw [← not_lt, down]
      tauto
    rw [downDuty, if_pos rest]
    exact iff_of_true (by simp) fun on below => absurd ⟨on, below⟩ driven

theorem upDuty_iff {x : Int} (lo : -4294967296 < x) (hi : x < 4294967296)
    (scale : e.tSleep < 1000000000) :
    (upDuty (int32 x) e ≠ 0 → upDuty (int32 x) e =
        if |x| ≤ ↑(3 * e.tSleep / 100) then pMinStoreUp else 100) ↔
      (e.puissancePwm 1 ≠ 0 → Above x → |x| + ↑(3 * e.tSleep / 100) < 4294967296) := by
  have up := above_iff lo hi
  by_cases driven : e.puissancePwm 1 ≠ 0 ∧ Above x
  · obtain ⟨driven, above⟩ := driven
    have positive := up.mpr above
    have fast := up_fast_iff (z := 3 * e.tSleep / 100) lo hi above
    rw [upDuty, slowZone_eq scale, if_neg (by simp [driven, positive])]
    simp only [ne_eq, driven, above, not_false_eq_true, forall_const]
    rw [imp_iff_right (by split_ifs <;> decide), ite_eq_ite_swap (by decide), fast]
    obtain ⟨eq, sign⟩ | ⟨eq, sign⟩ := abs_cases x <;> rw [eq] <;> unfold Above at above <;> omega
  · have rest : e.puissancePwm 1 = 0 ∨ int32 x ≤ 0 := by
      rw [← not_lt, up]
      tauto
    rw [upDuty, if_pos rest]
    exact iff_of_true (by simp) fun on above => absurd ⟨on, above⟩ driven

/-- A call drives the motor slowly inside the zone and fast outside, in both directions, exactly
when the zone is sound. -/
theorem slowInZone_iff {b : Build} {pulse direction : Bool} (stored : StoredByLine b e.tSleep)
    (target : IsInt e.consinge) (place : IsInt e.niveau)
    (h : storeIRQ pulse direction e = some e') : SlowInZone e e' ↔ ZoneSound e := by
  obtain ⟨down, up⟩ := storeIRQ_duties h
  unfold IsInt at target place
  have lo : -4294967296 < e.consinge - e.niveau := by omega
  have hi : e.consinge - e.niveau < 4294967296 := by omega
  simp only [SlowInZone, down, up]
  rw [downDuty_iff lo hi stored.lt, upDuty_iff lo hi stored.lt]
  exact ⟨fun ⟨down, up⟩ => ⟨down, up⟩, fun ⟨down, up⟩ => ⟨down, up⟩⟩

/-- Up by five pulses and then down again. -/
def upAndDown : List Event :=
  .message [83, 100] :: List.replicate 5 (.irq ⟨false, true, false, false⟩) ++ [.message [83, 0]]

/-- With a scale of 33 the zone is empty, and the motor goes down slowly all the way. -/
theorem not_slowInZone_small_scale : StoredByLine .store 33 ∧
    ∃ m e', AppRun .store (userInit .store 33 [65]) upAndDown m ∧
      storeIRQ true true m.env = some e' ∧ ¬ SlowInZone m.env e' := by
  refine ⟨⟨.boot .blank, 120, [51, 51], 10, rfl, by decide, by simp [isNewline], by decide,
    by decide +kernel⟩, ?_⟩
  have values : ((upAndDown.foldlM (step .store) (userInit .store 33 [65])).bind fun m =>
      (storeIRQ true true m.env).map fun e' =>
        (m.env.consinge - m.env.niveau, m.env.tSleep, e'.puissancePwm 0)) = some (-5, 33, 17) := by
    decide +kernel
  obtain ⟨m, run, values⟩ := Option.bind_eq_some_iff.mp values
  obtain ⟨e', call, values⟩ := Option.map_eq_some_iff.mp values
  simp only [Prod.mk.injEq] at values
  obtain ⟨distance, scale, slow⟩ := values
  refine ⟨m, e', run_iff_foldlM.mpr run, call, fun right => ?_⟩
  have full := right.1 (by omega)
  rw [distance, scale, slow] at full
  revert full
  decide

/-- With a scale of 100 it goes down fast first. -/
theorem slowInZone_hundred : ∃ m e', AppRun .store (userInit .store 100 [65]) upAndDown m ∧
    storeIRQ true true m.env = some e' ∧ SlowInZone m.env e' := by
  have values : ((upAndDown.foldlM (step .store) (userInit .store 100 [65])).bind fun m =>
      (storeIRQ true true m.env).map fun _ => (m.env.consinge, m.env.niveau, m.env.tSleep)) =
        some (0, 5, 100) := by
    decide +kernel
  obtain ⟨m, run, values⟩ := Option.bind_eq_some_iff.mp values
  obtain ⟨e', call, values⟩ := Option.map_eq_some_iff.mp values
  simp only [Prod.mk.injEq] at values
  obtain ⟨target, place, scale⟩ := values
  have small : |m.env.consinge - m.env.niveau| + ↑(3 * m.env.tSleep / 100) < 4294967296 := by
    rw [target, place, scale]
    decide
  refine ⟨m, e', run_iff_foldlM.mpr run, call, (slowInZone_iff (b := .store) ?_ ?_ ?_ call).mpr ?_⟩
  · rw [scale]
    exact storedByLine_hundred
  · rw [target]
    exact ⟨by decide, by decide⟩
  · rw [place]
    exact ⟨by decide, by decide⟩
  · exact ⟨fun _ _ => ⟨by omega, small⟩, fun _ _ => small⟩

end Domotic
