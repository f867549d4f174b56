import Domotic.I2c.Transaction
import Domotic.Store.Report
import Mathlib.Data.List.Destutter

/-!
# The switches

`send_PCF8885` reads the byte of the touch sensor, and reports every switch whose bit differs from
the one read before. What is reported for a switch is the history of its bit without repetitions,
so a report is never repeated, none is missing, and the last one is the state that was read last.
-/
namespace Domotic
open Library TwoWire

/-- `MASQUE_SWITCH` -/
def masqueSwitch : UInt8 := 0x0F

namespace Build

/-- `PCF8885` -/
@[simp] def pcf8885 : Build → Bool
  | .switchPcf8885 | .pwm12VAndSwitchPcf8885 => true
  | _ => false

/-- `SWITCH_ONLY` -/
@[simp] def switchOnly : Build → Bool
  | .switchPcf8885 => true
  | _ => false

/-- `ON_BATTERY` -/
@[simp] def onBattery : Build → Bool
  | .meteo | .meteoAds786x | .switchPcf8885 => true
  | _ => false

end Build

/-- The bus, `old_stat_switch`, `ubat` and the variables that every build has. -/
structure Switches (σ : Type) where
  bus : I2c σ
  oldStatSwitch : UInt8
  ubat : Int
  env : Env

/-- `(stat_switch>>l)&0x01` -/
def statBit (stat : UInt8) (l : Nat) : Nat := stat.toNat >>> l &&& 1

/-- `name`, with the digit `'1'+l`. -/
def switchName (l : Nat) : String := String.ofList ['_', Char.ofNat (49 + l)]

/-- One round of the loop of `send_PCF8885`. -/
def reportSwitch (b : Build) (ubat : Int) (old stat : UInt8) (e : Env) (l : Nat) : Env :=
  if statBit stat l ≠ statBit old l then
    let e := e.sendPaquetSensor "/sensors/switch/" .switch ↑(statBit stat l * 100) false
      (some (switchName l))
    if b.onBattery then
      e.sendPaquetSensor "/sensors/batterys/" .battery ubat true (some (switchName l))
    else e
  else e

/-- `send_PCF8885` -/
def sendPcf8885 {σ : Type} (b : Build) (dev : Device σ) (s : Switches σ) : Switches σ × UInt8 :=
  let r := readPcf8885 dev s.bus
  let stat := r.2 &&& masqueSwitch
  (⟨r.1, stat, s.ubat,
    (List.range 8).foldl (reportSwitch b s.ubat s.oldStatSwitch stat) s.env⟩, stat)

/-- The state that the initialisation of the bus and of the application leaves. -/
def Switches.boot {σ : Type} (b : Build) (dev : Device σ) (bus : I2c σ) (tSleep : Nat)
    (ubat : Int) (name : List UInt8) : Switches σ :=
  ⟨i2cMasterGpioInit dev bus, 0, ubat, (userInit b tSleep name).env⟩

/-- The values reported for switch `l`, in order. -/
def reported (l : Nat) (e : Env) : List Int :=
  (e.sent.filter fun r => r.type = .switch ∧ r.name = some (switchName l)).map (·.val)

/-- The calls of `send_PCF8885` while the device has these bytes to send. -/
def polls (b : Build) (own : UInt8) : List UInt8 → Switches Sender → Switches Sender
  | [], s => s
  | v :: vs, s => polls b own vs (sendPcf8885 b (sender own) { s with bus := setValue v s.bus }).1

/-! ## Changes of a level -/

section changes
variable {α : Type} [DecidableEq α]

/-- The values that a level takes, from an old one on, without repetitions. -/
def changes (old : α) (levels : List α) : List α := (levels.destutter' (· ≠ ·) old).tail

theorem destutter'_changes (old : α) (levels : List α) :
    levels.destutter' (· ≠ ·) old = old :: changes old levels := by
  unfold changes
  induction levels with
  | nil => rfl
  | cons level levels ih =>
    by_cases same : old = level
    · rw [List.destutter'_cons_neg levels (not_not_intro same)]
      exact ih
    · rw [List.destutter'_cons_pos levels same, List.tail_cons]

theorem changes_cons (old level : α) (levels : List α) :
    changes old (level :: levels) =
      (if level ≠ old then [level] else []) ++ changes level levels := by
  by_cases same : level = old
  · subst same
    unfold changes
    rw [List.destutter'_cons_neg levels (not_not_intro rfl), if_neg (not_not_intro rfl)]
    rfl
  · rw [if_pos same, List.singleton_append, ← destutter'_changes]
    unfold changes
    rw [List.destutter'_cons_pos levels (Ne.symm same), List.tail_cons]

end changes

/-! ## One call -/

variable {b : Build} {own : UInt8} {s : Switches Sender} {e : Env} {l : Nat}

theorem statBit_eq (stat : UInt8) (l : Nat) : statBit stat l = (stat.toNat.testBit l).toNat := by
  unfold statBit
  rw [Nat.testBit_eq_decide_div_mod_eq, Nat.and_one_is_mod, Nat.shiftRight_eq_div_pow]
  have bit : stat.toNat / 2 ^ l % 2 < 2 := Nat.mod_lt _ two_pos
  interval_cases value : stat.toNat / 2 ^ l % 2
  · rfl
  · rfl

theorem statBit_injective : ∀ x y : Bool, x.toNat = y.toNat → x = y := by decide

theorem switchName_injective : ∀ l < 8, ∀ k < 8, switchName l = switchName k → l = k := by
  decide

/-- What a round of the loop reports for switch `l`. -/
def changed (old stat : UInt8) (l : Nat) : List Int :=
  if stat.toNat.testBit l ≠ old.toNat.testBit l then [if stat.toNat.testBit l then 100 else 0]
  else []

theorem reportSwitch_named (named : e.meter.Named) (b : Build) (ubat : Int) (old stat : UInt8)
    {k : Nat} (small : k < 8) (less : l < 8) :
    (reportSwitch b ubat old stat e k).meter.Named ∧
      reported l (reportSwitch b ubat old stat e k) =
        reported l e ++ if k = l then changed old stat l else [] := by
  unfold reportSwitch
  rw [statBit_eq, statBit_eq]
  by_cases same : stat.toNat.testBit k = old.toNat.testBit k
  · rw [if_neg (not_not_intro (congrArg Bool.toNat same))]
    refine ⟨named, ?_⟩
    split
    · rename_i own
      rw [changed, if_neg (own ▸ not_not_intro same), List.append_nil]
    · rw [List.append_nil]
  · rw [if_pos (mt (statBit_injective _ _) same)]
    have first := sendPaquetSensor_named named "/sensors/switch/" .switch
      ↑((stat.toNat.testBit k).toNat * 100) false (some (switchName k))
    have named' : (e.sendPaquetSensor "/sensors/switch/" .switch
        ↑((stat.toNat.testBit k).toNat * 100) false (some (switchName k))).meter.Named := by
      rw [first]
      exact named
    have second := sendPaquetSensor_named named' "/sensors/batterys/" .battery ubat true
      (some (switchName k))
    have value : reported l (e.sendPaquetSensor "/sensors/switch/" .switch
        ↑((stat.toNat.testBit k).toNat * 100) false (some (switchName k))) =
          reported l e ++ if k = l then changed old stat l else [] := by
      rw [first]
      unfold reported Env.report
      dsimp only
      rw [List.filter_append, List.map_append]
      congr 1
      by_cases own : k = l
      · subst own
        rw [if_pos rfl, changed, if_pos same]
        cases stat.toNat.testBit k with
        | false => simp
        | true => simp
      · have other : switchName k ≠ switchName l := fun eq =>
          own (switchName_injective k small l less eq)
        rw [if_neg own]
        simp [other]
    dsimp only
    split
    · refine ⟨by rw [second]; exact named', ?_⟩
      rw [second, ← value]
      unfold reported Env.report
      simp
    · exact ⟨named', value⟩

theorem reportLoop_named (b : Build) (ubat : Int) (old stat : UInt8) (less : l < 8)
    (ks : List Nat) (small : ∀ k ∈ ks, k < 8) (named : e.meter.Named) :
    (ks.foldl (reportSwitch b ubat old stat) e).meter.Named ∧
      reported l (ks.foldl (reportSwitch b ubat old stat) e) =
        reported l e ++ ks.flatMap fun k => if k = l then changed old stat l else [] := by
  induction ks generalizing e with
  | nil => exact ⟨named, (List.append_nil _).symm⟩
  | cons k ks ih =>
    obtain ⟨named', value⟩ :=
      reportSwitch_named named b ubat old stat (small k List.mem_cons_self) less
    obtain ⟨named'', values⟩ := ih (fun j mem => small j (List.mem_cons_of_mem k mem)) named'
    refine ⟨named'', ?_⟩
    rw [List.foldl_cons, values, value, List.append_assoc, List.flatMap_cons]

/-- One call reports the change of every switch. -/
theorem sendPcf8885_reported {σ : Type} {dev : Device σ} {s : Switches σ} (b : Build)
    (named : s.env.meter.Named) (less : l < 8) :
    (sendPcf8885 b dev s).1.env.meter.Named ∧
      reported l (sendPcf8885 b dev s).1.env =
        reported l s.env ++ changed s.oldStatSwitch (sendPcf8885 b dev s).1.oldStatSwitch l := by
  obtain ⟨named', values⟩ := reportLoop_named b s.ubat s.oldStatSwitch
    ((readPcf8885 dev s.bus).2 &&& masqueSwitch) less (List.range 8)
    (fun k mem => List.mem_range.mp mem) named
  refine ⟨named', values.trans ?_⟩
  congr 1
  have own : ∀ x : List Int, ((List.range 8).flatMap fun k => if k = l then x else []) = x := by
    intro x
    interval_cases l <;> simp [List.range_succ]
  exact own _

/-! ## Many calls -/

/-- What the application sees of a byte: nothing but the bits of the mask, and all of them set
where no device has the address. -/
def seen (own v : UInt8) : UInt8 := (if 0x41 = own then v else 0xFF) &&& masqueSwitch

/-- After the initialisation the values reported for a switch are the history of its bit without
repetitions. -/
theorem polls_reported (b : Build) {value : UInt8} (rest : AtRest value s.bus)
    (named : s.env.meter.Named) (less : l < 8) (vs : List UInt8) :
    reported l (polls b own vs s).env =
      reported l s.env ++
        (changes (s.oldStatSwitch.toNat.testBit l)
          (vs.map fun v => (seen own v).toNat.testBit l)).map fun on => if on then 100 else 0 := by
  induction vs generalizing s value with
  | nil => exact (List.append_nil _).symm
  | cons v vs ih =>
    obtain ⟨result, rest', -⟩ := @readPcf8885_sender own v _ (rest.setValue v)
    obtain ⟨named', values⟩ := @sendPcf8885_reported l Sender (sender own)
      { s with bus := setValue v s.bus } b named less
    have stat : (sendPcf8885 b (sender own) { s with bus := setValue v s.bus }).1.oldStatSwitch =
        seen own v := congrArg (· &&& masqueSwitch) result
    rw [stat] at values
    rw [polls, ih rest' named', values, stat, List.map_cons, changes_cons, List.map_append,
      List.append_assoc]
    congr 2
    unfold changed
    dsimp only
    split
    · rfl
    · rfl

theorem userInit_env (b : Build) (tSleep : Nat) (name : List UInt8) :
    (userInit b tSleep name).env.sent = [] ∧
      (userInit b tSleep name).env.stationName = name := by
  cases b <;> exact ⟨rfl, rfl⟩

/-- The bits outside the mask are never set. -/
theorem seen_high (own v : UInt8) (high : 4 ≤ l) : (seen own v).toNat.testBit l = false := by
  unfold seen masqueSwitch
  rw [UInt8.toNat_and, Nat.testBit_and]
  have mask : (15 : UInt8).toNat.testBit l = false :=
    Nat.testBit_lt_two_pow (show 15 < 2 ^ l from
      Nat.lt_of_lt_of_le (by decide) (Nat.pow_le_pow_right two_pos high))
  rw [mask, Bool.and_false]

theorem changes_constant {α : Type} [DecidableEq α] (old : α) {levels : List α}
    (same : ∀ level ∈ levels, level = old) : changes old levels = [] := by
  induction levels with
  | nil => rfl
  | cons level levels ih =>
    obtain rfl := same level List.mem_cons_self
    rw [changes_cons, if_neg (not_not_intro rfl), List.nil_append]
    exact ih fun x mem => same x (List.mem_cons_of_mem level mem)

/-- From the start of a station with a name, whatever the bus was left in: what is reported for a
switch of the mask is the history of its bit without repetitions, and nothing for the others. -/
theorem switch_history {bus : I2c Sender} (listening : bus.lines.device.heard = bus.lines.heard)
    {name : List UInt8} (named : name.headD 0 ≠ 0) (b : Build) (tSleep : Nat) (ubat : Int)
    (less : l < 8) (vs : List UInt8) :
    reported l (polls b own vs (.boot b (sender own) bus tSleep ubat name)).env =
        (changes false (vs.map fun v => (seen own v).toNat.testBit l)).map
          (fun on => if on then 100 else 0) ∧
      (4 ≤ l →
        reported l (polls b own vs (.boot b (sender own) bus tSleep ubat name)).env = []) := by
  obtain ⟨sent, station⟩ := userInit_env b tSleep name
  have named' : (Switches.boot b (sender own) bus tSleep ubat name).env.meter.Named := by
    unfold Meter.Named Env.meter Switches.boot
    dsimp only
    rw [station]
    exact named
  have history := @polls_reported own _ _ b _ (init_sender listening) named' less vs
  have none : reported l (Switches.boot b (sender own) bus tSleep ubat name).env = [] := by
    unfold reported Switches.boot
    dsimp only
    rw [sent]
    rfl
  have old : (Switches.boot b (sender own) bus tSleep ubat name).oldStatSwitch.toNat.testBit l =
      false := Nat.zero_testBit l
  rw [none, old, List.nil_append] at history
  refine ⟨history, fun high => history.trans ?_⟩
  rw [changes_constant false]
  · rfl
  · intro level mem
    obtain ⟨v, -, rfl⟩ := List.mem_map.mp mem
    exact seen_high own v high

theorem switch_history_midByte :
    reported 1 (polls .switchPcf8885 0x41 [1, 3, 2, 2, 0]
      (.boot .switchPcf8885 (sender 0x41) midByte 60 3000 [65])).env = [100, 0] :=
  (@switch_history 0x41 1 midByte rfl [65] (by decide) .switchPcf8885 60 3000 (by decide)
    [1, 3, 2, 2, 0]).1.trans (by decide)

end Domotic
