import Domotic.Timer.Calls
import Domotic.Timer.Schedule
import Mathlib.Data.Multiset.Filter

/-!
# The alarms behind the table

What the table is for, without slots: a multiset of alarms, of which no more than a fixed number
can be set. The three functions act on it as they act on a table in which every callback has at
most one slot. Two placements of the same callbacks have the same alarms.
-/
namespace Domotic
open Library

universe u v

/-- A registered callback with its two counters. -/
structure Alarm (C : Type u) where
  callBack : C
  period : Nat
  cpt : Int
  deriving DecidableEq

/-- The alarms of a table with `slots` slots. -/
structure Clock (C : Type u) where
  us : Nat
  slots : Nat
  alarms : Multiset (Alarm C)

variable {C : Type u} {E : Type v}

namespace Alarm

/-- The alarm starts a period. -/
def set (us period : Nat) (c : C) : Alarm C := ⟨c, period / us, int32 ↑(period / us)⟩

/-- The alarm after a tick. -/
def counted (a : Alarm C) : Alarm C :=
  if int32 (a.cpt - 1) = 0 then { a with cpt := int32 a.period }
  else { a with cpt := int32 (a.cpt - 1) }

/-- The callback that a tick calls for the alarm. -/
def called (a : Alarm C) : Option C := if int32 (a.cpt - 1) = 0 then some a.callBack else none

theorem counted_name (a : Alarm C) : a.counted.callBack = a.callBack := by
  unfold counted
  split <;> rfl

theorem called_name {a : Alarm C} {c : C} (called : a.called = some c) : a.callBack = c :=
  Option.some.inj (Option.ite_none_right_eq_some.mp called).2

theorem set_name [DecidableEq C] {us period : Nat} {c : C} (a : Alarm C) :
    (if a.callBack = c then set us period c else a).callBack = a.callBack := by
  split
  · rename_i own
    exact own.symm
  · rfl

end Alarm

namespace Clock

/-- Every callback has at most one alarm. -/
def Once (k : Clock C) : Prop := (k.alarms.map Alarm.callBack).Nodup

/-- All alarms count a tick. -/
def counted (k : Clock C) : Clock C := { k with alarms := k.alarms.map Alarm.counted }

/-- The callbacks that the next tick calls. -/
def due (k : Clock C) : Multiset C := k.alarms.filterMap Alarm.called

variable [DecidableEq C]

/-- A call. -/
def exec (k : Clock C) : TimerCall C → Clock C
  | .add period c =>
    if k.alarms.card < k.slots then { k with alarms := Alarm.set k.us period c ::ₘ k.alarms } else k
  | .change period c =>
    { k with alarms := k.alarms.map fun a => if a.callBack = c then Alarm.set k.us period c else a }
  | .remove c => { k with alarms := k.alarms.filter fun a => a.callBack ≠ c }

/-- The call adds no alarm for a callback that has one. -/
def Fresh (k : Clock C) : TimerCall C → Prop
  | .add _ c => k.alarms.card < k.slots → c ∉ k.alarms.map Alarm.callBack
  | .change _ _ | .remove _ => True

theorem Once.exec {k : Clock C} {op : TimerCall C} (once : k.Once) (fresh : k.Fresh op) :
    (k.exec op).Once := by
  cases op with
  | add period c =>
    unfold Once Clock.exec
    dsimp only
    split
    · rename_i room
      rw [Multiset.map_cons]
      exact Multiset.nodup_cons.mpr ⟨fresh room, once⟩
    · exact once
  | change period c =>
    unfold Once Clock.exec
    simp only [Multiset.map_map, Function.comp_def, Alarm.set_name]
    exact once
  | remove c => exact Multiset.nodup_of_le (Multiset.map_le_map (Multiset.filter_le _ _)) once

end Clock

/-! ## The alarms of a table -/

/-- The alarm in a slot. -/
def CallbackTime.alarm (s : CallbackTime C) : Option (Alarm C) :=
  s.callBack.map fun c => ⟨c, s.period, s.cpt⟩

/-- The alarms of the slots. -/
def alarmsOf (tab : List (CallbackTime C)) : Multiset (Alarm C) :=
  ↑(tab.filterMap CallbackTime.alarm)

/-- The alarms of the table. -/
def Timers.clock (t : Timers C) : Clock C := ⟨t.us, t.tab.length, alarmsOf t.tab⟩

theorem mem_alarmsOf {tab : List (CallbackTime C)} {a : Alarm C} : a ∈ alarmsOf tab ↔
    ⟨a.period, a.cpt, some a.callBack⟩ ∈ tab := by
  rw [alarmsOf, Multiset.mem_coe, List.mem_filterMap]
  constructor
  · rintro ⟨⟨period, cpt, callBack⟩, mem, eq⟩
    cases callBack with
    | none => cases eq
    | some c =>
      obtain rfl := Option.some.inj eq
      exact mem
  · exact fun mem => ⟨_, mem, rfl⟩

theorem mem_callBacks {t : Timers C} {c : C} :
    c ∈ t.clock.alarms.map Alarm.callBack ↔ some c ∈ t.owners := by
  rw [Multiset.mem_map, Timers.owners, List.mem_map]
  constructor
  · rintro ⟨a, mem, rfl⟩
    exact ⟨_, mem_alarmsOf.mp mem, rfl⟩
  · rintro ⟨⟨period, cpt, callBack⟩, mem, rfl⟩
    exact ⟨⟨c, period, cpt⟩, mem_alarmsOf.mpr mem, rfl⟩

/-- Replacing the only match is replacing all. -/
theorem replaceF_eq_map {α : Type u} {f : α → Option α} {xs : List α}
    (once : xs.Pairwise fun a b => f a ≠ none → f b = none) :
    xs.replaceF f = xs.map fun a => (f a).getD a := by
  induction xs with
  | nil => rfl
  | cons x xs ih =>
    obtain ⟨first, rest⟩ := List.pairwise_cons.mp once
    cases hit : f x with
    | none => simp [hit, ih rest]
    | some y =>
      have others : xs.map (fun a => (f a).getD a) = xs := by
        refine (List.map_congr_left fun a mem => ?_).trans (List.map_id xs)
        rw [first a mem (by simp [hit])]
        rfl
      simp [hit, others]

theorem alarmsOf_map {g : CallbackTime C → CallbackTime C} {g' : Alarm C → Alarm C}
    (same : ∀ s, (g s).alarm = s.alarm.map g') (tab : List (CallbackTime C)) :
    alarmsOf (tab.map g) = (alarmsOf tab).map g' := by
  have each : CallbackTime.alarm ∘ g = fun s => s.alarm.map g' := funext same
  rw [alarmsOf, alarmsOf, Multiset.map_coe, List.filterMap_map, List.map_filterMap, each]

theorem alarmsOf_filter {g : CallbackTime C → CallbackTime C} {P : Alarm C → Prop} [DecidablePred P]
    (same : ∀ s, (g s).alarm = s.alarm.filter P) (tab : List (CallbackTime C)) :
    alarmsOf (tab.map g) = (alarmsOf tab).filter P := by
  have each : CallbackTime.alarm ∘ g = fun s => s.alarm.filter P := funext same
  rw [alarmsOf, alarmsOf, Multiset.filter_coe, List.filterMap_map, List.filter_filterMap, each]

theorem alarm_counted (s : CallbackTime C) : s.counted.alarm = s.alarm.map Alarm.counted := by
  obtain ⟨period, cpt, callBack⟩ := s
  cases callBack with
  | none => rfl
  | some c =>
    simp only [CallbackTime.counted, CallbackTime.alarm, Alarm.counted, Option.map_some,
      reduceCtorEq, if_false]
    split <;> rfl

theorem alarmsOf_counted (tab : List (CallbackTime C)) :
    alarmsOf (tab.map CallbackTime.counted) = (alarmsOf tab).map Alarm.counted :=
  alarmsOf_map alarm_counted tab

/-- The slots call what the alarms call. -/
theorem called_eq_due (tab : List (CallbackTime C)) :
    (↑(tab.filterMap CallbackTime.called) : Multiset C) =
      (alarmsOf tab).filterMap Alarm.called := by
  have each : ∀ s : CallbackTime C, s.called = s.alarm.bind Alarm.called := by
    intro s
    obtain ⟨period, cpt, callBack⟩ := s
    cases callBack <;> simp [CallbackTime.called, CallbackTime.alarm, Alarm.called]
  rw [alarmsOf, Multiset.filterMap_coe, List.filterMap_filterMap]
  exact congrArg _ (List.filterMap_congr fun s _ => each s)

theorem once_iff {t : Timers C} : t.clock.Once ↔ (t.owners.filterMap id).Nodup := by
  have names : t.clock.alarms.map Alarm.callBack = ↑(t.owners.filterMap id) := by
    rw [Timers.clock, alarmsOf, Multiset.map_coe, List.map_filterMap, Timers.owners,
      List.filterMap_map]
    refine congrArg _ (List.filterMap_congr fun s _ => ?_)
    simp [CallbackTime.alarm, Function.comp_def]
  rw [Clock.Once, names, Multiset.coe_nodup]

theorem Clock.Once.pairwise {t : Timers C} (once : t.clock.Once) (c : C) :
    t.tab.Pairwise fun s s' => s.callBack = some c → s'.callBack ≠ some c := by
  have names := once_iff.mp once
  rw [Timers.owners, List.filterMap_map] at names
  refine (List.pairwise_filterMap.mp names).imp fun {s s'} apart own own' => ?_
  exact apart c own c own' rfl

/-- In a table with an empty slot there is room for an alarm. -/
theorem card_alarmsOf_lt {tab : List (CallbackTime C)} :
    (alarmsOf tab).card < tab.length ↔ ∃ s ∈ tab, s.callBack = none := by
  rw [alarmsOf, Multiset.coe_card, List.length_filterMap_lt_length_iff_exists]
  simp [CallbackTime.alarm]

/-- The slot taken by an alarm was empty. -/
theorem alarmsOf_insert {before behind : List (CallbackTime C)} {s s' : CallbackTime C}
    {a : Alarm C} (empty : s.callBack = none) (taken : s'.alarm = some a) :
    alarmsOf (before ++ s' :: behind) = a ::ₘ alarmsOf (before ++ s :: behind) := by
  have nothing : s.alarm = none := by simp [CallbackTime.alarm, empty]
  simp only [alarmsOf, List.filterMap_append, List.filterMap_cons, nothing, taken]
  rw [Multiset.cons_coe]
  exact Multiset.coe_eq_coe.mpr List.perm_middle

variable [DecidableEq C]

theorem clock_exec_eq (t : Timers C) (op : TimerCall C) :
    (t.exec op).clock = ⟨t.us, t.tab.length, alarmsOf (t.exec op).tab⟩ := by
  rw [Timers.clock, Timers.exec_us, Timers.exec_length]

/-- With one slot for each callback, the table acts as its alarms. -/
theorem exec_clock {t : Timers C} (op : TimerCall C) (once : t.clock.Once) :
    (t.exec op).clock = t.clock.exec op := by
  rw [clock_exec_eq]
  cases op with
  | add period c =>
    unfold Clock.exec
    by_cases room : ∃ s ∈ t.tab, s.callBack = none
    · have below : t.clock.alarms.card < t.clock.slots := card_alarmsOf_lt.mpr room
      obtain ⟨s, mem, empty⟩ := room
      obtain ⟨before, s, behind, tab, empty, added⟩ := replaceF_of_mem
        (g := fun _ => ⟨period / t.us, int32 ↑(period / t.us), some c⟩)
        (P := fun s : CallbackTime C => s.callBack = none) mem empty
      dsimp only [Timers.exec, Timers.timerAddCallback]
      rw [if_pos below, added, alarmsOf_insert empty rfl, ← tab]
      rfl
    · have full : ¬ t.clock.alarms.card < t.clock.slots := fun below =>
        room (card_alarmsOf_lt.mp below)
      have same : (t.exec (.add period c)).tab = t.tab :=
        List.replaceF_of_forall_none fun s mem => if_neg fun empty => room ⟨s, mem, empty⟩
      dsimp only
      rw [if_neg full, same]
      rfl
  | change period c =>
    have same : (t.exec (.change period c)).tab = t.tab.map fun s =>
        if s.callBack = some c then
          { s with period := period / t.us, cpt := int32 ↑(period / t.us) }
        else s := by
      refine (replaceF_eq_map ((once.pairwise c).imp fun apart hit => ?_)).trans ?_
      · exact if_neg (apart (of_not_not fun other => hit (if_neg other)))
      · refine List.map_congr_left fun s _ => ?_
        split <;> rfl
    rw [same, @alarmsOf_map _ _ fun a => if a.callBack = c then Alarm.set t.us period c else a]
    · rfl
    · rintro ⟨period', cpt, callBack⟩
      by_cases own : callBack = some c
      · subst own
        simp [CallbackTime.alarm, Alarm.set]
      · cases callBack with
        | none => rfl
        | some c' =>
          have other : c' ≠ c := fun eq => own (by rw [eq])
          simp [CallbackTime.alarm, other]
  | remove c =>
    have same : (t.exec (.remove c)).tab = t.tab.map fun s =>
        if s.callBack = some c then { s with cpt := 1000000, callBack := none } else s := by
      refine (replaceF_eq_map ((once.pairwise c).imp fun apart hit => ?_)).trans ?_
      · exact if_neg (apart (of_not_not fun other => hit (if_neg other)))
      · refine List.map_congr_left fun s _ => ?_
        split <;> rfl
    rw [same, alarmsOf_filter (P := fun a => a.callBack ≠ c)]
    · rfl
    · rintro ⟨period', cpt, callBack⟩
      by_cases own : callBack = some c
      · subst own
        simp [CallbackTime.alarm, Option.filter]
      · cases callBack with
        | none => rfl
        | some c' =>
          have other : c' ≠ c := fun eq => own (by rw [eq])
          simp [CallbackTime.alarm, Option.filter, other]

end Domotic
