import Domotic.App.Frame

/-!
# Commands of the PWM builds

A message addresses the channels that it has a byte for. `S` sets them and `T` is meant to
toggle them, but its test is on the address of the duty array, so it always switches off; the
triac that supplies channel 0 does toggle. `Meaning` is what the two commands are for, and
`meaning_iff` says when the code does it.
-/
namespace Domotic
open Library

variable {b : Build} {data : Nat → UInt8} {dataLen : Nat} {e e' : Env}

/-- A build with PWM channels that is not the shutter. -/
def Build.IsPwm (b : Build) : Prop := b.pwm = true ∧ b.isStore = false

/-- The message has a byte for channel `l`. -/
def Addressed (b : Build) (dataLen l : Nat) : Prop := l < b.nbPwm ∧ l + 1 < dataLen

instance (b : Build) (dataLen l : Nat) : Decidable (Addressed b dataLen l) :=
  inferInstanceAs (Decidable (_ ∧ _))

/-- What a message is for: `S` sets the addressed channels, `T` toggles them, any other message
does nothing, and the triac supplies channel 0 exactly while it has a duty. -/
structure Meaning (b : Build) (data : Nat → UInt8) (dataLen : Nat) (e e' : Env) : Prop where
  set : data 0 = 83 → ∀ l, e'.puissancePwm l =
    if Addressed b dataLen l then min (data (l + 1)).toNat 100 else e.puissancePwm l
  toggle : data 0 = 84 → ∀ l, e'.puissancePwm l =
    if Addressed b dataLen l then if e.puissancePwm l = 0 then 100 else 0 else e.puissancePwm l
  other : data 0 ≠ 83 → data 0 ≠ 84 → e' = e
  supply : b.triack = true → data 0 = 83 ∨ data 0 = 84 →
    (e'.puissanceTriac ≠ 0 ↔ e'.puissancePwm 0 ≠ 0)

/-! ## What the code does -/

open Reads

/-- The duty that a message gives to a channel with the duty `p`. -/
def channelDuty (data : Nat → UInt8) (l p : Nat) : Nat :=
  if data 0 = 83 then min (data (l + 1)).toNat 100 else if data 0 = 84 then 0 else p

/-- The power that a message gives to the supply of the channels. -/
def supplyPower (data : Nat → UInt8) (p : Int) : Int :=
  if data 0 = 83 then if 0 < data 1 then Build.puissanceMax else 0
  else if data 0 = 84 then if p = 0 then Build.puissanceMax else 0
  else p

theorem setPwm_same (e : Env) (l : Nat) : e.setPwm l (e.puissancePwm l) = e := by
  simp [Env.setPwm]

theorem channel_ensures (l : Nat) (e : Env) :
    (pwmCommand data l e >>= pwmToggle data l).Ensures
      fun e' => e' = e.setPwm l (channelDuty data l (e.puissancePwm l)) := by
  refine ensures_seq
    (Q := fun e' => e' = if data 0 = 83 then e.setPwm l (min (data (1 + l)).toNat 100) else e) ?_ ?_
  · refine ensures_read ?_
    by_cases set : data 0 = 83
    · simp only [set, ↓reduceIte]
      refine ensures_read ?_
      by_cases full : 100 ≤ data (1 + l)
      · have top : 100 ≤ (data (1 + l)).toNat := full
        rw [if_pos full]
        exact ensures_pure (by rw [Nat.min_eq_right top])
      · have below : (data (1 + l)).toNat ≤ 100 := Nat.le_of_not_le full
        rw [if_neg full]
        exact ensures_read (ensures_pure (by rw [Nat.min_eq_left below]))
    · simp only [set, ↓reduceIte]
      exact ensures_pure rfl
  · rintro e' rfl
    refine ensures_read ?_
    unfold channelDuty
    by_cases set : data 0 = 83
    · have toggle : data 0 ≠ 84 := by rw [set]; decide
      rw [if_neg toggle, if_pos set, if_pos set, Nat.add_comm]
      exact ensures_pure rfl
    · rw [if_neg set, if_neg set]
      by_cases toggle : data 0 = 84
      · rw [if_pos toggle, if_pos toggle]
        exact ensures_pure rfl
      · rw [if_neg toggle, if_neg toggle]
        exact ensures_pure (setPwm_same e l).symm

/-- The channels of `ls` that the message addresses, with the duties that it gives them. -/
def Env.commanded (e : Env) (data : Nat → UInt8) (dataLen : Nat) (ls : List Nat) : Env :=
  { e with puissancePwm := fun l =>
      if l ∈ ls ∧ l + 1 < dataLen then channelDuty data l (e.puissancePwm l)
      else e.puissancePwm l }

/-- The loop stops at the first channel without a byte; those after it have none either. -/
theorem mqttDataPwm_ensures {ls : List Nat} (sorted : ls.Pairwise (· < ·)) (e : Env) :
    (mqttDataPwm data dataLen ls e).Ensures fun e' => e' = e.commanded data dataLen ls := by
  induction ls generalizing e with
  | nil => exact ensures_pure (by simp [Env.commanded])
  | cons l ls ih =>
    obtain ⟨below, sorted⟩ := List.pairwise_cons.mp sorted
    by_cases inside : l + 1 < dataLen
    · have tail : ∀ e', e' = e.setPwm l (channelDuty data l (e.puissancePwm l)) →
          (mqttDataPwm data dataLen ls e').Ensures
            fun e' => e' = e.commanded data dataLen (l :: ls) := by
        rintro _ rfl log
        rw [ih sorted]
        simp only [Env.commanded, Env.setPwm, Env.mk.injEq, and_self, and_true]
        funext k
        by_cases here : k = l
        · subst here
          have fresh : k ∉ ls := fun h => Nat.lt_irrefl k (below k h)
          simp [fresh, inside]
        · simp [here]
      have body := ensures_seq (@channel_ensures data l e) tail
      rw [bind_assoc] at body
      simpa only [mqttDataPwm, inside, ↓reduceIte] using body
    · have outside : ∀ k ∈ l :: ls, ¬ k + 1 < dataLen := by
        intro k hk
        obtain rfl | hk := List.mem_cons.mp hk
        · exact inside
        · have := below k hk
          omega
      simp only [mqttDataPwm, inside, ↓reduceIte]
      refine ensures_pure ?_
      have none : ∀ k, ¬ (k ∈ l :: ls ∧ k + 1 < dataLen) := fun k h => outside k h.1 h.2
      simp only [Env.commanded, none, ↓reduceIte]

/-- The supply of the channels; it is switched on and off and never dimmed. -/
theorem mqttDataTriack_ensures (onOff : b.triackOnOff = true)
    (direct : b.triackOnOffInverse = false) (full : b.triackOnOffPuissance = Build.puissanceMax)
    (e : Env) :
    (mqttDataTriack b data e).Ensures
      fun e' => e' = e.setPower (supplyPower data e.puissanceTriac) := by
  refine ensures_seq (Q := fun e' => e' = if data 0 = 83 then
    e.setPower (if 0 < data 1 then Build.puissanceMax else 0) else e) ?_ ?_
  · refine ensures_read ?_
    by_cases set : data 0 = 83
    · rw [if_pos set, if_pos set, direct, onOff, full]
      refine ensures_read ?_
      by_cases positive : 0 < data 1
      · rw [if_pos positive, if_pos positive]
        exact ensures_pure rfl
      · rw [if_neg positive, if_neg positive]
        exact ensures_pure rfl
    · rw [if_neg set, if_neg set]
      exact ensures_pure rfl
  · rintro e' rfl
    refine ensures_read ?_
    unfold supplyPower
    by_cases set : data 0 = 83
    · have toggle : data 0 ≠ 84 := by rw [set]; decide
      rw [if_neg toggle, if_pos set, if_pos set]
      exact ensures_pure rfl
    · rw [if_neg set, if_neg set]
      by_cases toggle : data 0 = 84
      · rw [if_pos toggle, if_pos toggle]
        by_cases on : e.puissanceTriac = 0
        · rw [if_neg (not_not.mpr on), if_pos on]
          exact ensures_pure rfl
        · rw [if_pos on, if_neg on]
          exact ensures_pure rfl
      · rw [if_neg toggle, if_neg toggle]
        exact ensures_pure rfl

/-- What a message does in a PWM build. -/
theorem mqttDataCb_pwm (pwm : b.IsPwm) (e : Env) (log : List Nat) :
    (mqttDataCb b data dataLen e log).1 =
      (if b.triack then e.setPower (supplyPower data e.puissanceTriac) else e).commanded
        data dataLen (List.range b.nbPwm) := by
  obtain ⟨pwm, store⟩ := pwm
  have awake : restartDisconnect b e = e := by
    cases b <;> first | rfl | exact absurd pwm (by decide)
  have norelay : b.relay = false := by
    cases b <;> first | rfl | exact absurd pwm (by decide)
  have triack : (if b.triack && !b.isStore then mqttDataTriack b data e else pure e).Ensures
      fun e' => e' = if b.triack then e.setPower (supplyPower data e.puissanceTriac) else e := by
    by_cases triack : b.triack = true
    · rw [if_pos triack, if_pos (by rw [triack, store]; rfl)]
      have onOff : b.triackOnOff = true ∧ b.triackOnOffInverse = false ∧
          b.triackOnOffPuissance = Build.puissanceMax := by
        cases b <;> first
          | exact ⟨rfl, rfl, rfl⟩
          | exact absurd pwm (by decide)
          | exact absurd triack (by decide)
      exact mqttDataTriack_ensures onOff.1 onOff.2.1 onOff.2.2 e
    · rw [if_neg triack, if_neg (by simpa using fun h => absurd h triack)]
      exact ensures_pure rfl
  have whole : (mqttDataCb b data dataLen e).Ensures fun e' => e' =
      (if b.triack then e.setPower (supplyPower data e.puissanceTriac) else e).commanded
        data dataLen (List.range b.nbPwm) := by
    unfold mqttDataCb
    dsimp only
    rw [awake, pwm, norelay]
    refine ensures_seq triack ?_
    rintro _ rfl
    rw [store]
    refine ensures_seq (mqttDataPwm_ensures List.pairwise_lt_range _) ?_
    rintro _ rfl
    exact ensures_pure rfl
  exact whole log

/-! ## When the code does what the commands are for -/

theorem commanded_puissancePwm (e : Env) (l : Nat) :
    (e.commanded data dataLen (List.range b.nbPwm)).puissancePwm l =
      if Addressed b dataLen l then channelDuty data l (e.puissancePwm l)
      else e.puissancePwm l := by
  simp only [Env.commanded, Addressed, List.mem_range]
  congr 1

/-- A channel that the message does not command keeps its duty. -/
theorem commanded_other (e : Env) (set : data 0 ≠ 83) (toggle : data 0 ≠ 84) (ls : List Nat) :
    e.commanded data dataLen ls = e := by
  simp [Env.commanded, channelDuty, set, toggle]

theorem supply_iff (two : 2 ≤ dataLen) (pwm : b.IsPwm) (triack : b.triack = true)
    (known : data 0 = 83 ∨ data 0 = 84) (e : Env) :
    ((mqttDataCb b data dataLen e []).1.puissanceTriac ≠ 0 ↔
        (mqttDataCb b data dataLen e []).1.puissancePwm 0 ≠ 0) ↔
      (data 0 = 84 → e.puissanceTriac ≠ 0) := by
  have first : Addressed b dataLen 0 := by
    obtain ⟨pwm, -⟩ := pwm
    refine ⟨?_, two⟩
    cases b <;> first | exact absurd pwm (by decide) | decide
  rw [mqttDataCb_pwm pwm, triack, commanded_puissancePwm, if_pos first]
  simp only [↓reduceIte, Env.commanded, Env.setPower_puissanceTriac, supplyPower, channelDuty]
  obtain set | toggle := known
  · have other : data 0 ≠ 84 := by rw [set]; decide
    have positive : 0 < data 1 ↔ min (data 1).toNat 100 ≠ 0 := by
      rw [UInt8.lt_iff_toNat_lt]
      simp only [UInt8.toNat_zero]
      omega
    by_cases on : 0 < data 1
    · simp [set, on, positive.mp on, Build.puissanceMax]
    · have off := not_imp_not.mpr positive.mpr on
      simp only [set, on, ↓reduceIte]
      simpa using off
  · have other : data 0 ≠ 83 := by rw [toggle]; decide
    by_cases on : e.puissanceTriac = 0 <;> simp [toggle, on, Build.puissanceMax]

/-- The commands do what they are for unless a toggle meets a channel, or the supply, that is
off. -/
theorem meaning_iff (pwm : b.IsPwm) (two : 2 ≤ dataLen) (e : Env) :
    Meaning b data dataLen e (mqttDataCb b data dataLen e []).1 ↔
      (data 0 = 84 → (∀ l, Addressed b dataLen l → e.puissancePwm l ≠ 0) ∧
        (b.triack = true → e.puissanceTriac ≠ 0)) := by
  have duties : ∀ l, (mqttDataCb b data dataLen e []).1.puissancePwm l =
      if Addressed b dataLen l then channelDuty data l (e.puissancePwm l)
      else e.puissancePwm l := by
    intro l
    rw [mqttDataCb_pwm pwm, commanded_puissancePwm]
    by_cases triack : b.triack = true
    · rw [if_pos triack]
      rfl
    · rw [if_neg triack]
  constructor
  · intro meaning toggle
    refine ⟨fun l addressed off => ?_, fun triack => ?_⟩
    · have := meaning.toggle toggle l
      simp [duties, addressed, channelDuty, toggle, off] at this
    · exact (supply_iff two pwm triack (.inr toggle) e).mp
        (meaning.supply triack (.inr toggle)) toggle
  · intro known
    refine ⟨fun set l => ?_, fun toggle l => ?_, fun set toggle => ?_, fun triack command => ?_⟩
    · rw [duties, channelDuty, if_pos set]
    · have on := (known toggle).1 l
      by_cases addressed : Addressed b dataLen l <;>
        simp [duties, channelDuty, toggle, addressed, on]
    · rw [mqttDataCb_pwm pwm, commanded_other _ set toggle]
      simp [supplyPower, set, toggle, Env.setPower]
    · exact (supply_iff two pwm triack command e).mpr fun toggle => (known toggle).2 triack

/-- A toggle that finds both channels on. -/
theorem meaning_both_on :
    Meaning .pwm12V (fun i => [84, 0, 0].getD i 0) 3 ((Env.boot .pwm12V 0 []).setPwm 1 30)
      (mqttDataCb .pwm12V (fun i => [84, 0, 0].getD i 0) 3
        ((Env.boot .pwm12V 0 []).setPwm 1 30) []).1 := by
  refine (meaning_iff ⟨rfl, rfl⟩ (by decide) _).mpr fun _ => ⟨?_, nofun⟩
  rintro l ⟨below, -⟩
  have both : ∀ l, l < 2 → ((Env.boot .pwm12V 0 []).setPwm 1 30).puissancePwm l ≠ 0 := by decide
  exact both l below

/-- After reset channel 1 is off, and a toggle leaves it off. -/
theorem toggle_leaves_off :
    ¬ Meaning .pwm12V (fun i => [84, 0, 0].getD i 0) 3 (Env.boot .pwm12V 0 [])
      (mqttDataCb .pwm12V (fun i => [84, 0, 0].getD i 0) 3 (Env.boot .pwm12V 0 []) []).1 := by
  intro meaning
  have toggled := meaning.toggle rfl 1
  revert toggled
  decide

end Domotic
