import Domotic.Library.Exchange
import Domotic.Timer.Clock

/-!
# A pass through the table

A tick walks through the slots while the callbacks change them. A call that writes a slot behind
that of the caller is counted in the same pass, one that writes a slot before it only in the next.
Once it is known which calls are of which kind, a tick is a word: all alarms are counted, and then
the callbacks that are due are called in the order of their slots.
-/
namespace Domotic
open Library

universe u v w

variable {C : Type u} {E : Type v} {V : Type w}

/-- Two scripts that differ in what they keep of the rest of the machine. -/
structure Script.Seen (p : Script C E) (view : E → V) (q : Script C V) : Prop where
  calls : ∀ c e, q.calls c (view e) = p.calls c e
  effect : ∀ c e, q.effect c (view e) = view (p.effect c e)

/-! ## The side of a call -/

namespace TimerCall

/-- The callback that the call concerns. -/
def target : TimerCall C → C
  | .add _ c | .change _ c | .remove c => c

/-- What the slot holds that the call writes. -/
def wanted : TimerCall C → Option C
  | .add _ _ => none
  | .change _ c | .remove c => some c

/-- Made in the round of slot `l`, the call writes a slot behind it. -/
def Behind (owners : List (Option C)) (l : Nat) (op : TimerCall C) : Prop :=
  op.wanted ∉ owners.take (l + 1) ∧ op.wanted ∈ owners.drop (l + 1)

/-- The call gives no second slot to a callback. -/
def Fresh (owners : List (Option C)) : TimerCall C → Prop
  | .add _ c => none ∈ owners → some c ∉ owners
  | .change _ _ | .remove _ => True

end TimerCall

/-- What two placements have in common: the calls of a callback that write a slot behind its own,
and the callbacks that stand before which others. -/
structure Layout (C : Type u) where
  behind : C → TimerCall C → Bool
  before : C → C → Prop

variable [DecidableEq C]

/-- The calls that `c` makes in the round of slot `l` are on the sides that the layout says. -/
def Timers.Keeps (L : Layout C) (l : Nat) (c : C) : Timers C → List (TimerCall C) → Prop
  | _, [] => True
  | t, op :: ops => op.Fresh t.owners ∧ (L.behind c op ↔ op.Behind t.owners l) ∧
      (t.exec op).Keeps L l c ops

/-- The rounds `ls` keep to the layout. -/
def Script.KeepsFrom (p : Script C E) (L : Layout C) : List Nat → Timed C E → Prop
  | [], _ => True
  | l :: ls, m =>
    (∀ c, (m.tickSlot p.call l).2 = some c → m.timers.Keeps L l c (p.calls c m.env) ∧
      ∀ d, some d ∈ m.timers.owners.drop (l + 1) → ¬ L.before d c) ∧
    p.KeepsFrom L ls (m.tickSlot p.call l).1

/-- The next tick keeps to the layout. -/
def Script.Keeps (p : Script C E) (L : Layout C) (m : Timed C E) : Prop :=
  p.KeepsFrom L (List.range m.timers.tab.length) m

/-! ## A tick without slots -/

/-- The alarms of `c` count a tick. -/
def Clock.countedOf (k : Clock C) (c : C) : Clock C :=
  { k with alarms := k.alarms.map fun a => if a.callBack = c then a.counted else a }

/-- The calls that the next tick makes for the alarms of `c`. -/
def Clock.dueOf (k : Clock C) (c : C) : Multiset C :=
  (k.alarms.filter fun a => a.callBack = c).filterMap Alarm.called

/-- A tick under way: the alarms, the callbacks that have still to be called, and what the
callbacks see of the rest of the machine. -/
structure Pass (C : Type u) (V : Type w) where
  clock : Clock C
  pending : Multiset C
  view : V

/-- A call. For the alarm of a slot behind the caller the tick is still to be counted. -/
def Pass.exec (s : Pass C V) (op : TimerCall C) (behind : Bool) : Pass C V :=
  let k := s.clock.exec op
  if behind then
    ⟨k.countedOf op.target, s.pending.filter (· ≠ op.target) + k.dueOf op.target, s.view⟩
  else ⟨k, s.pending, s.view⟩

/-- The calls of `c`. -/
def Pass.execs (L : Layout C) (c : C) (s : Pass C V) (ops : List (TimerCall C)) : Pass C V :=
  ops.foldl (fun (s : Pass C V) op => s.exec op (L.behind c op)) s

/-- A callback is called. -/
def Script.turn (q : Script C V) (L : Layout C) (s : Pass C V) (c : C) : Pass C V :=
  let t := Pass.execs L c ⟨s.clock, s.pending.erase c, s.view⟩ (q.calls c s.view)
  ⟨t.clock, t.pending, q.effect c s.view⟩

/-- The callback may be called next: none that has still to be called stands before it. -/
def Pass.Next (L : Layout C) (s : Pass C V) (c : C) : Prop :=
  c ∈ s.pending ∧ ∀ d ∈ s.pending, d ≠ c → ¬ L.before d c

/-- All alarms are counted. -/
def Clock.begin (k : Clock C) (v : V) : Pass C V := ⟨k.counted, k.due, v⟩

/-- Where two callbacks may be called next, it makes no difference which of them is. -/
def Script.OrderFree (q : Script C V) (L : Layout C) (k : Clock C) (v : V) : Prop :=
  Exchanges (Pass.Next L) (q.turn L) (k.begin v)

/-! ## The calls of a round -/

theorem replaceF_append_front {α : Type*} {f : α → Option α} {xs ys : List α}
    (passed : (∃ y ∈ ys, f y ≠ none) → ∃ x ∈ xs, f x ≠ none) :
    (xs ++ ys).replaceF f = xs.replaceF f ++ ys := by
  induction xs with
  | nil =>
    refine List.replaceF_of_forall_none fun y mem => of_not_not fun hit => ?_
    obtain ⟨x, inside, -⟩ := passed ⟨y, mem, hit⟩
    cases inside
  | cons x xs ih =>
    cases hit : f x with
    | some y => simp [hit]
    | none =>
      have rest := ih fun behind => by
        obtain ⟨x', inside, hit'⟩ := passed behind
        obtain rfl | inside := List.mem_cons.mp inside
        · exact absurd hit hit'
        · exact ⟨x', inside, hit'⟩
      simp [hit, rest]

theorem replaceF_append_behind {α : Type*} {f : α → Option α} {xs ys : List α}
    (miss : ∀ x ∈ xs, f x = none) : (xs ++ ys).replaceF f = xs ++ ys.replaceF f := by
  induction xs with
  | nil => rfl
  | cons x xs ih =>
    rw [List.forall_mem_cons] at miss
    simp [miss.1, ih miss.2]

/-- What the call writes into a slot, if it writes it. -/
def TimerCall.write (us : Nat) : TimerCall C → CallbackTime C → Option (CallbackTime C)
  | .add period c, s =>
    if s.callBack = none then some ⟨period / us, int32 ↑(period / us), some c⟩ else none
  | .change period c, s =>
    if s.callBack = some c then some { s with period := period / us, cpt := int32 ↑(period / us) }
    else none
  | .remove c, s =>
    if s.callBack = some c then some { s with cpt := 1000000, callBack := none } else none

variable {t t' : Timers C} {op : TimerCall C} {l : Nat}

theorem exec_tab (t : Timers C) (op : TimerCall C) :
    t.exec op = ⟨t.us, t.tab.replaceF (op.write t.us)⟩ := by
  cases op <;> rfl

theorem write_ne_none {us : Nat} {s : CallbackTime C} :
    op.write us s ≠ none ↔ s.callBack = op.wanted := by
  cases op <;> simp [TimerCall.write, TimerCall.wanted]

omit [DecidableEq C] in
/-- The slots up to that of the caller, and those behind it. -/
theorem split_owners_take (t : Timers C) {front : List (CallbackTime C)}
    (rest : List (CallbackTime C)) (length : front.length = l + 1) :
    (t.split front rest).owners.take (l + 1) = front.map CallbackTime.callBack ∧
      (t.split front rest).owners.drop (l + 1) = rest.map CallbackTime.callBack := by
  have owners : (t.split front rest).owners =
      front.map CallbackTime.callBack ++ rest.map CallbackTime.callBack := List.map_append
  have length' : (front.map CallbackTime.callBack).length = l + 1 := by simpa using length
  exact ⟨owners ▸ List.take_left' length', owners ▸ List.drop_left' length'⟩

/-- A call writes the slots up to that of the caller, or those behind it. -/
theorem exec_split {front rest : List (CallbackTime C)} (length : front.length = l + 1) :
    (op.Behind (t.split front rest).owners l →
      (t.split front rest).exec op = t.split front (rest.replaceF (op.write t.us))) ∧
    (¬ op.Behind (t.split front rest).owners l →
      (t.split front rest).exec op = t.split (front.replaceF (op.write t.us)) rest) := by
  obtain ⟨take, drop⟩ := split_owners_take t rest length
  rw [TimerCall.Behind, take, drop, exec_tab]
  refine ⟨?_, ?_⟩
  · rintro ⟨miss, -⟩
    refine congrArg (Timers.mk t.us) (replaceF_append_behind fun s mem => of_not_not fun hit => ?_)
    exact miss (write_ne_none.mp hit ▸ List.mem_map_of_mem mem)
  · intro passed
    refine congrArg (Timers.mk t.us) (replaceF_append_front ?_)
    rintro ⟨s, mem, hit⟩
    have inside : op.wanted ∈ front.map CallbackTime.callBack := of_not_not fun miss =>
      passed ⟨miss, write_ne_none.mp hit ▸ List.mem_map_of_mem mem⟩
    obtain ⟨s', mem', same⟩ := List.mem_map.mp inside
    exact ⟨s', mem', write_ne_none.mpr same⟩

/-! ## The alarms of one callback -/

/-- The alarms of other callbacks. -/
def others (c : C) (alarms : Multiset (Alarm C)) : Multiset (Alarm C) :=
  alarms.filter fun a => a.callBack ≠ c

/-- The alarms of a callback, at most one in a table that gives it one slot. -/
def own (c : C) (alarms : Multiset (Alarm C)) : Multiset (Alarm C) :=
  alarms.filter fun a => a.callBack = c

theorem own_add_others (c : C) (alarms : Multiset (Alarm C)) :
    own c alarms + others c alarms = alarms :=
  Multiset.filter_add_not _ alarms

omit [DecidableEq C] in
/-- Counting keeps the names. -/
theorem filter_counted (P : C → Prop) [DecidablePred P] (alarms : Multiset (Alarm C)) :
    (alarms.map Alarm.counted).filter (fun a => P a.callBack) =
      (alarms.filter fun a => P a.callBack).map Alarm.counted := by
  rw [Multiset.filter_map]
  refine congrArg _ (Multiset.filter_congr fun a _ => ?_)
  rw [Function.comp_apply, Alarm.counted_name]

theorem others_counted (c : C) (alarms : Multiset (Alarm C)) :
    others c (alarms.map Alarm.counted) = (others c alarms).map Alarm.counted :=
  filter_counted (· ≠ c) alarms

theorem own_counted (c : C) (alarms : Multiset (Alarm C)) :
    own c (alarms.map Alarm.counted) = (own c alarms).map Alarm.counted :=
  filter_counted (· = c) alarms

theorem others_called (c : C) (alarms : Multiset (Alarm C)) :
    (alarms.filterMap Alarm.called).filter (· ≠ c) = (others c alarms).filterMap Alarm.called := by
  rw [others, Multiset.filter_filterMap, Multiset.filterMap_filter]
  refine congrFun (congrArg _ (funext fun a => ?_)) _
  cases called : a.called with
  | none => simp
  | some d =>
    obtain rfl := Alarm.called_name called
    by_cases same : a.callBack = c <;> simp [Option.filter, same]

theorem countedOf_alarms (k : Clock C) (c : C) :
    (k.countedOf c).alarms = (own c k.alarms).map Alarm.counted + others c k.alarms := by
  conv_lhs => rw [Clock.countedOf, ← own_add_others c k.alarms]
  dsimp only
  rw [Multiset.map_add]
  refine congrArg₂ _ (Multiset.map_congr rfl fun a mem => if_pos (Multiset.mem_filter.mp mem).2) ?_
  refine (Multiset.map_congr rfl fun a mem => ?_).trans (Multiset.map_id _)
  exact if_neg (Multiset.mem_filter.mp mem).2

/-- A call leaves the alarms of other callbacks. -/
theorem exec_others (k : Clock C) (op : TimerCall C) :
    others op.target (k.exec op).alarms = others op.target k.alarms := by
  cases op with
  | add period c =>
    unfold Clock.exec
    dsimp only
    split
    · exact Multiset.filter_cons_of_neg _ fun other => other rfl
    · rfl
  | change period c =>
    have renamed : ∀ a : Alarm C,
        (if a.callBack = c then Alarm.set k.us period c else a).callBack ≠ c ↔ a.callBack ≠ c :=
      fun a => by rw [Alarm.set_name]
    refine (Multiset.filter_map _ _ _).trans ?_
    refine (Multiset.map_congr (Multiset.filter_congr fun a _ => renamed a) fun a mem => ?_).trans
      (Multiset.map_id _)
    exact if_neg (Multiset.mem_filter.mp mem).2
  | remove c =>
    exact (Multiset.filter_filter _ _ _).trans (Multiset.filter_congr fun a _ => and_self_iff)

omit [DecidableEq C] in
/-- Counting changes no owner. -/
theorem split_owners (t : Timers C) (front : List (CallbackTime C))
    {rest rest' : List (CallbackTime C)}
    (same : rest'.map CallbackTime.callBack = rest.map CallbackTime.callBack) :
    (t.split front rest').owners = (t.split front rest).owners := by
  simp only [Timers.owners, Timers.split, List.map_append, same]

omit [DecidableEq C] in
theorem map_counted_callBack (rest : List (CallbackTime C)) :
    (rest.map CallbackTime.counted).map CallbackTime.callBack = rest.map CallbackTime.callBack := by
  rw [List.map_map]
  exact List.map_congr_left fun s _ => counted_callBack s

theorem own_add {k : Clock C} {period : Nat} {c : C} (room : k.alarms.card < k.slots)
    (absent : own c k.alarms = 0) :
    own c (k.exec (.add period c)).alarms = {Alarm.set k.us period c} := by
  have taken : (k.exec (.add period c)).alarms = Alarm.set k.us period c ::ₘ k.alarms := by
    simp [Clock.exec, room]
  rw [own] at absent ⊢
  simp [taken, absent, Alarm.set]

theorem own_change (k : Clock C) (period : Nat) (c : C) :
    own c (k.exec (.change period c)).alarms =
      Multiset.replicate (own c k.alarms).card (Alarm.set k.us period c) := by
  rw [← Multiset.map_const']
  refine (Multiset.filter_map _ _ _).trans ?_
  refine Multiset.map_congr (Multiset.filter_congr fun a _ => ?_) fun a mem => ?_
  · rw [Function.comp_apply, Alarm.set_name]
  · exact if_pos (Multiset.mem_filter.mp mem).2

theorem own_remove (k : Clock C) (c : C) : own c (k.exec (.remove c)).alarms = 0 :=
  Multiset.filter_eq_nil.mpr fun _ mem => (Multiset.mem_filter.mp mem).2

/-- The tick under way when the slots `front` are done. -/
def Timers.pass (t : Timers C) (front rest : List (CallbackTime C)) (v : V) : Pass C V :=
  ⟨(t.split front (rest.map CallbackTime.counted)).clock, ↑(rest.filterMap CallbackTime.called), v⟩

omit [DecidableEq C] in
theorem alarmsOf_append (tab tab' : List (CallbackTime C)) :
    alarmsOf (tab ++ tab') = alarmsOf tab + alarmsOf tab' := by
  rw [alarmsOf, List.filterMap_append, ← Multiset.coe_add]
  rfl

omit [DecidableEq C] in
/-- The rest of a table gives no callback two slots, if the table does not. -/
theorem Clock.Once.rest {front rest : List (CallbackTime C)}
    (once : (t.split front rest).clock.Once) : (t.split [] rest).clock.Once := by
  refine Multiset.nodup_of_le (Multiset.map_le_map ?_) once
  change alarmsOf rest ≤ alarmsOf (front ++ rest)
  rw [alarmsOf_append]
  exact Multiset.le_add_left _ _

theorem pass_front {front rest : List (CallbackTime C)} (length : front.length = l + 1)
    (once : (t.split front rest).clock.Once) (v : V)
    (passed : ¬ op.Behind (t.split front rest).owners l) :
    t.pass (front.replaceF (op.write t.us)) rest v = (t.pass front rest v).exec op false := by
  have owners := split_owners t front (map_counted_callBack rest)
  have once' : (t.split front (rest.map CallbackTime.counted)).clock.Once :=
    once_iff.mpr (owners ▸ once_iff.mp once)
  have written := (exec_split length).2 (owners ▸ passed)
  have clock := exec_clock op once'
  rw [written] at clock
  exact congrArg (Pass.mk · _ v) clock

theorem exec_clock_mk (k : Clock C) (op : TimerCall C) :
    k.exec op = ⟨k.us, k.slots, (k.exec op).alarms⟩ := by
  cases op with
  | add period c =>
    unfold Clock.exec
    dsimp only
    split <;> rfl
  | change period c | remove c => rfl

omit [DecidableEq C] in
/-- Behind the caller there is the slot that the call writes, and no callback with two. -/
theorem behind_absent {front rest : List (CallbackTime C)} (length : front.length = l + 1)
    (fresh : op.Fresh (t.split front rest).owners)
    (behind : op.Behind (t.split front rest).owners l) :
    ∀ a ∈ alarmsOf front, a.callBack ≠ op.target := by
  rintro a mem eq
  have inside : some op.target ∈ front.map CallbackTime.callBack :=
    eq ▸ List.mem_map.mpr ⟨_, mem_alarmsOf.mp mem, rfl⟩
  obtain ⟨take, drop⟩ := split_owners_take t rest length
  rw [TimerCall.Behind, take, drop] at behind
  cases op with
  | add period c =>
    have owners : (t.split front rest).owners =
      front.map CallbackTime.callBack ++ rest.map CallbackTime.callBack := List.map_append
    rw [owners] at fresh
    exact fresh (List.mem_append_right _ behind.2) (List.mem_append_left _ inside)
  | change period c | remove c => exact behind.1 inside

/-- What the call makes of its callback does not depend on the other slots. -/
theorem behind_own {front rest : List (CallbackTime C)} (length : front.length = l + 1)
    (fresh : op.Fresh (t.split front rest).owners)
    (behind : op.Behind (t.split front rest).owners l) :
    own op.target ((t.split front (rest.map CallbackTime.counted)).clock.exec op).alarms =
      own op.target ((t.split [] rest).clock.exec op).alarms := by
  have absent : own op.target (alarmsOf front) = 0 :=
    Multiset.filter_eq_nil.mpr (behind_absent length fresh behind)
  have alarms : own op.target (t.split front (rest.map CallbackTime.counted)).clock.alarms =
      (own op.target (alarmsOf rest)).map Alarm.counted := by
    change own op.target (alarmsOf (front ++ rest.map CallbackTime.counted)) = _
    rw [alarmsOf_append, alarmsOf_counted, ← own_counted, own, Multiset.filter_add]
    exact (congrArg (· + _) absent).trans (zero_add _)
  cases op with
  | add period c =>
    obtain ⟨take, drop⟩ := split_owners_take t rest length
    rw [TimerCall.Behind, take, drop] at behind
    obtain ⟨s, mem, empty⟩ := List.mem_map.mp behind.2
    have owners : (t.split front rest).owners =
      front.map CallbackTime.callBack ++ rest.map CallbackTime.callBack := List.map_append
    have alone : own c (alarmsOf rest) = 0 := by
      refine Multiset.filter_eq_nil.mpr fun a mem' eq => ?_
      refine fresh (owners ▸ List.mem_append_right _ behind.2) (owners ▸ List.mem_append_right _ ?_)
      exact eq ▸ List.mem_map.mpr ⟨_, mem_alarmsOf.mp mem', rfl⟩
    rw [TimerCall.target] at alarms ⊢
    rw [alone, Multiset.map_zero] at alarms
    have room := card_alarmsOf_lt.mpr ⟨s.counted,
      List.mem_append_right front (List.mem_map_of_mem mem), (counted_callBack s).trans empty⟩
    have room' : (t.split [] rest).clock.alarms.card < (t.split [] rest).clock.slots :=
      card_alarmsOf_lt.mpr ⟨s, mem, empty⟩
    exact (own_add room alarms).trans (own_add room' alone).symm
  | change period c =>
    rw [TimerCall.target] at alarms ⊢
    rw [own_change, own_change, alarms, Multiset.card_map]
    rfl
  | remove c =>
    rw [TimerCall.target, own_remove, own_remove]

/-- Alone, the slots behind the caller are written like a table of their own. -/
theorem written_alarms {front rest : List (CallbackTime C)}
    (once : (t.split front rest).clock.Once) :
    alarmsOf (rest.replaceF (op.write t.us)) = ((t.split [] rest).clock.exec op).alarms := by
  have alone := exec_clock op once.rest
  rw [exec_tab] at alone
  exact congrArg Clock.alarms alone

theorem written_others {front rest : List (CallbackTime C)}
    (once : (t.split front rest).clock.Once) :
    others op.target (alarmsOf (rest.replaceF (op.write t.us))) =
      others op.target (alarmsOf rest) := by
  rw [written_alarms once]
  exact exec_others (t.split [] rest).clock op

theorem behind_clock {front rest : List (CallbackTime C)} (length : front.length = l + 1)
    (once : (t.split front rest).clock.Once) (fresh : op.Fresh (t.split front rest).owners)
    (behind : op.Behind (t.split front rest).owners l) :
    (t.split front ((rest.replaceF (op.write t.us)).map CallbackTime.counted)).clock =
      ((t.split front (rest.map CallbackTime.counted)).clock.exec op).countedOf op.target := by
  have made := behind_own length fresh behind
  rw [← written_alarms once] at made
  have front_others : others op.target (alarmsOf front) = alarmsOf front :=
    Multiset.filter_eq_self.mpr (behind_absent length fresh behind)
  have left : others op.target
        ((t.split front (rest.map CallbackTime.counted)).clock.exec op).alarms =
      alarmsOf front + (others op.target (alarmsOf rest)).map Alarm.counted := by
    rw [exec_others]
    change others op.target (alarmsOf (front ++ rest.map CallbackTime.counted)) = _
    rw [alarmsOf_append, alarmsOf_counted, ← others_counted]
    conv_rhs => rw [← front_others]
    exact Multiset.filter_add _ _ _
  have rest_counted : alarmsOf ((rest.replaceF (op.write t.us)).map CallbackTime.counted) =
      (own op.target (alarmsOf (rest.replaceF (op.write t.us)))).map Alarm.counted +
        (others op.target (alarmsOf rest)).map Alarm.counted := by
    rw [alarmsOf_counted]
    conv_lhs => rw [← own_add_others op.target (alarmsOf (rest.replaceF _))]
    rw [written_others once, Multiset.map_add]
  have alarms := countedOf_alarms
    ((t.split front (rest.map CallbackTime.counted)).clock.exec op) op.target
  rw [made, left] at alarms
  have us : ((t.split front (rest.map CallbackTime.counted)).clock.exec op).us = t.us := by
    rw [exec_clock_mk]
    rfl
  have slots : ((t.split front (rest.map CallbackTime.counted)).clock.exec op).slots =
      (front ++ (rest.replaceF (op.write t.us)).map CallbackTime.counted).length := by
    rw [exec_clock_mk]
    simp [Timers.clock, Timers.split]
  change Clock.mk _ _ (alarmsOf (front ++ _)) = Clock.mk _ _ (Clock.countedOf _ _).alarms
  rw [us, slots, alarms, alarmsOf_append, rest_counted, add_left_comm]
  rfl

theorem behind_pending {front rest : List (CallbackTime C)} (length : front.length = l + 1)
    (once : (t.split front rest).clock.Once) (fresh : op.Fresh (t.split front rest).owners)
    (behind : op.Behind (t.split front rest).owners l) :
    (↑((rest.replaceF (op.write t.us)).filterMap CallbackTime.called) : Multiset C) =
      (↑(rest.filterMap CallbackTime.called) : Multiset C).filter (· ≠ op.target) +
        ((t.split front (rest.map CallbackTime.counted)).clock.exec op).dueOf op.target := by
  have made := behind_own length fresh behind
  rw [← written_alarms once] at made
  change _ = _ + (own _ _).filterMap Alarm.called
  rw [called_eq_due, called_eq_due, others_called, made, ← written_others once, add_comm]
  conv_lhs => rw [← own_add_others op.target (alarmsOf (rest.replaceF _))]
  exact Multiset.filterMap_add _ _ _

/-- Behind the caller a call is counted in the same tick. -/
theorem pass_behind {front rest : List (CallbackTime C)} (length : front.length = l + 1)
    (once : (t.split front rest).clock.Once) (v : V) (fresh : op.Fresh (t.split front rest).owners)
    (behind : op.Behind (t.split front rest).owners l) :
    t.pass front (rest.replaceF (op.write t.us)) v = (t.pass front rest v).exec op true :=
  congrArg₂ (Pass.mk · · v) (behind_clock length once fresh behind)
    (behind_pending length once fresh behind)

theorem exec_owners_congr (same : t.owners = t'.owners) :
    (t.exec op).owners = (t'.exec op).owners := by
  cases op with
  | add period c => simp only [Timers.exec, Timers.timerAddCallback_owners, same]
  | change period c => simp only [Timers.exec, Timers.timerChange_owners, same]
  | remove c => simp only [Timers.exec, Timers.timerRemoveCallback_owners, same]

variable {L : Layout C} {c : C}

theorem keeps_congr (same : t.owners = t'.owners) {ops : List (TimerCall C)}
    (keeps : t.Keeps L l c ops) : t'.Keeps L l c ops := by
  induction ops generalizing t t' with
  | nil => trivial
  | cons op ops ih =>
    obtain ⟨fresh, side, later⟩ := keeps
    exact ⟨same ▸ fresh, same ▸ side, ih (exec_owners_congr same) later⟩

theorem once_exec (once : t.clock.Once) (fresh : op.Fresh t.owners) : (t.exec op).clock.Once := by
  rw [exec_clock op once]
  refine once.exec ?_
  cases op with
  | add period c =>
    intro room mem
    obtain ⟨s, inside, empty⟩ := card_alarmsOf_lt.mp room
    exact fresh (List.mem_map.mpr ⟨s, inside, empty⟩) (mem_callBacks.mp mem)
  | change period c | remove c => trivial

/-- The calls that a callback makes in its round are calls of the tick under way. -/
theorem execs_pass {ops : List (TimerCall C)} {front rest : List (CallbackTime C)}
    (length : front.length = l + 1) (once : (t.split front rest).clock.Once)
    (keeps : (t.split front rest).Keeps L l c ops) (v : V) :
    ∃ front' rest', front'.length = l + 1 ∧ rest'.length = rest.length ∧
      (t.split front rest).execs ops = t.split front' rest' ∧
      (t.split front' rest').clock.Once ∧
      t.pass front' rest' v = (t.pass front rest v).execs L c ops := by
  induction ops generalizing front rest with
  | nil => exact ⟨front, rest, length, rfl, rfl, once, rfl⟩
  | cons op ops ih =>
    obtain ⟨fresh, side, later⟩ := keeps
    have once' := once_exec once fresh
    by_cases behind : op.Behind (t.split front rest).owners l
    · have written := (exec_split length).1 behind
      rw [written] at later once'
      obtain ⟨front', rest', length', lengths, reached, once'', pass⟩ := ih length once' later
      refine ⟨front', rest', length', lengths.trans List.length_replaceF, ?_, once'', ?_⟩
      · rw [Timers.execs_cons, written, reached]
      · rw [pass, pass_behind length once v fresh behind, ← side.mpr behind]
        rfl
    · have written := (exec_split length).2 behind
      rw [written] at later once'
      have front_length : (front.replaceF (op.write t.us)).length = l + 1 :=
        List.length_replaceF.trans length
      obtain ⟨front', rest', length', lengths, reached, once'', pass⟩ := ih front_length once' later
      refine ⟨front', rest', length', lengths, ?_, once'', ?_⟩
      · rw [Timers.execs_cons, written, reached]
      · have front_side : L.behind c op = false :=
          Bool.eq_false_iff.mpr fun yes => behind (side.mp yes)
        rw [pass, pass_front length once v behind, ← front_side]
        rfl

/-! ## A tick -/

variable {p : Script C E} {q : Script C V} {view : E → V} {m : Timed C E}

omit [DecidableEq C] in
/-- A slot that calls nothing is done when it is counted. -/
theorem pass_counted {done rest : List (CallbackTime C)} {s : CallbackTime C}
    (quiet : s.called = none) (v : V) :
    t.pass done (s :: rest) v = t.pass (done ++ [s.counted]) rest v := by
  simp [Timers.pass, Timers.split, quiet]

omit [DecidableEq C] in
/-- A callback that is due may be called next, if all those behind it may be called later. -/
theorem next_called (t : Timers C) (done : List (CallbackTime C)) {rest : List (CallbackTime C)}
    {s : CallbackTime C}
    (called : s.called = some c) (v : V)
    (later : ∀ d, some d ∈ rest.map CallbackTime.callBack → ¬ L.before d c) :
    Pass.Next L (t.pass done (s :: rest) v) c := by
  have pending : (t.pass done (s :: rest) v).pending =
      c ::ₘ ↑(rest.filterMap CallbackTime.called) := by
    simp [Timers.pass, called]
  refine ⟨pending ▸ Multiset.mem_cons_self c _, fun d mem other => later d ?_⟩
  rw [pending] at mem
  obtain ⟨s', inside, due⟩ :=
    List.mem_filterMap.mp (Multiset.mem_coe.mp ((Multiset.mem_cons.mp mem).resolve_left other))
  exact List.mem_map.mpr ⟨s', inside, (Option.ite_none_right_eq_some.mp due).2⟩

/-- The callback that is due makes its calls in the tick under way. -/
theorem turn_called (seen : p.Seen view q) {done rest front rest' : List (CallbackTime C)}
    {s : CallbackTime C} (called : s.called = some c) (e : E)
    (calls : t.pass front rest' (view e) =
      (t.pass (done ++ [s.counted]) rest (view e)).execs L c (p.calls c e)) :
    q.turn L (t.pass done (s :: rest) (view e)) c = t.pass front rest' (view (p.effect c e)) := by
  have start : (⟨(t.pass done (s :: rest) (view e)).clock,
      (t.pass done (s :: rest) (view e)).pending.erase c, view e⟩ : Pass C V) =
      t.pass (done ++ [s.counted]) rest (view e) := by
    simp [Timers.pass, Timers.split, called]
  change Pass.mk (Pass.execs L c ⟨_, _, view e⟩ (q.calls c (view e))).clock
    (Pass.execs L c ⟨_, _, view e⟩ (q.calls c (view e))).pending (q.effect c (view e)) = _
  rw [start, seen.calls, ← calls, seen.effect]
  rfl

/-- From the round of a slot on, a tick that keeps to the layout is a complete word of the calls
that are due in the slots that are left. -/
theorem tickSlots_complete (seen : p.Seen view q) {n : Nat} {m : Timed C E}
    {done rest : List (CallbackTime C)} (tab : m.timers.tab = done ++ rest)
    (slots : rest.length = n) (keeps : p.KeepsFrom L (List.range' done.length n) m)
    (once : m.timers.clock.Once) :
    Word (Pass.Next L) (q.turn L) (m.timers.pass done rest (view m.env))
        (m.tickSlots p.call (List.range' done.length n)).2 ∧
      (m.tickSlots p.call (List.range' done.length n)).2.foldl (q.turn L)
          (m.timers.pass done rest (view m.env)) =
        ⟨(m.tickSlots p.call (List.range' done.length n)).1.timers.clock, 0,
          view (m.tickSlots p.call (List.range' done.length n)).1.env⟩ ∧
      (m.tickSlots p.call (List.range' done.length n)).1.timers.clock.Once := by
  induction n generalizing m done rest with
  | zero =>
    obtain rfl := List.length_eq_zero_iff.mp slots
    have whole : m.timers.split done [] = m.timers := by rw [Timers.split, ← tab]
    refine ⟨trivial, ?_, once⟩
    change Pass.mk (m.timers.split done []).clock _ _ = _
    rw [whole]
    rfl
  | succ n ih =>
    obtain ⟨s, rest, rfl⟩ := List.exists_cons_of_length_eq_add_one slots
    rw [List.range'_succ] at keeps ⊢
    obtain ⟨here, later⟩ := keeps
    have round := tickSlot_split p.call tab
    have front : (done ++ [s.counted]).length = done.length + 1 := by simp
    have moved : m.timers.split done (s.counted :: rest) =
        m.timers.split (done ++ [s.counted]) rest := by
      simp [Timers.split]
    have owners : (m.timers.split (done ++ [s.counted]) rest).owners = m.timers.owners := by
      simp [Timers.owners, Timers.split, tab, counted_callBack]
    have once' : (m.timers.split (done ++ [s.counted]) rest).clock.Once :=
      once_iff.mpr (owners ▸ once_iff.mp once)
    have behind : m.timers.owners.drop (done.length + 1) = rest.map CallbackTime.callBack := by
      rw [← owners]
      exact (split_owners_take _ _ front).2
    simp only [Timed.tickSlots]
    rw [round, moved] at here later ⊢
    cases due : s.called with
    | none =>
      simp only [due, Option.elim_none, Option.toList_none, List.nil_append] at later ⊢
      rw [pass_counted due, ← front]
      exact ih (m := ⟨m.timers.split (done ++ [s.counted]) rest, m.env⟩) rfl
        (Nat.succ.inj slots) (front.symm ▸ later) once'
    | some c =>
      simp only [due, Option.elim_some, Option.toList_some, List.cons_append, List.nil_append,
        List.foldl_cons] at later ⊢
      obtain ⟨keeps, after⟩ := here c due
      obtain ⟨front', rest', length, lengths, reached, once'', pass⟩ :=
        execs_pass front once' (keeps_congr owners.symm keeps) (view m.env)
      have next := next_called m.timers done due (view m.env) (behind ▸ after)
      have table : (p.call c ⟨m.timers.split (done ++ [s.counted]) rest, m.env⟩).timers =
          m.timers.split front' rest' := reached
      obtain ⟨word, last, once''⟩ := ih (m := p.call c ⟨_, m.env⟩) (congrArg Timers.tab table)
        (lengths.trans (Nat.succ.inj slots)) (length.symm ▸ later) (table ▸ once'')
      rw [table, length] at word last
      rw [length] at once''
      have turn := turn_called seen due m.env pass
      rw [turn]
      exact ⟨⟨next, turn ▸ word⟩, last, once''⟩

/-- A tick that keeps to the layout counts all alarms, and then calls what is due. -/
theorem tick_complete (seen : p.Seen view q) (keeps : p.Keeps L m) (once : m.timers.clock.Once) :
    Complete (Pass.Next L) (q.turn L) (m.timers.clock.begin (view m.env))
        (m.timerTim1IntrHandler p.call).2 ∧
      (m.timerTim1IntrHandler p.call).2.foldl (q.turn L) (m.timers.clock.begin (view m.env)) =
        ⟨(m.timerTim1IntrHandler p.call).1.timers.clock, 0,
          view (m.timerTim1IntrHandler p.call).1.env⟩ ∧
      (m.timerTim1IntrHandler p.call).1.timers.clock.Once := by
  have begin : m.timers.pass [] m.timers.tab (view m.env) =
      m.timers.clock.begin (view m.env) := by
    simp [Timers.pass, Clock.begin, Timers.clock, Timers.split, Clock.counted, Clock.due,
      alarmsOf_counted, ← called_eq_due]
  rw [Script.Keeps, List.range_eq_range'] at keeps
  obtain ⟨word, last, once'⟩ :=
    @tickSlots_complete _ _ _ _ _ _ _ _ seen m.timers.tab.length m [] _ rfl rfl keeps once
  rw [begin, List.length_nil] at word last
  rw [Timed.timerTim1IntrHandler, List.range_eq_range']
  refine ⟨⟨word, ?_⟩, last, once'⟩
  intro c next
  rw [last] at next
  exact absurd next.1 (Multiset.notMem_zero c)

/-! ## Where the order does not count -/

/-- The callback makes no calls and changes nothing that others see; none concerns it, and none
stands before it or behind it. -/
structure Script.Idle (q : Script C V) (L : Layout C) (d : C) : Prop where
  calls : ∀ v, q.calls d v = []
  effect : ∀ v, q.effect d v = v
  apart : ∀ c, ¬ L.before c d ∧ ¬ L.before d c
  alone : ∀ c v, ∀ op ∈ q.calls c v, op.target ≠ d

/-- Calls that do not concern a callback leave it to be called. -/
theorem execs_cons_pending (ops : List (TimerCall C)) (k : Clock C) (pending : Multiset C) (v : V)
    {d : C} (other : ∀ op ∈ ops, op.target ≠ d) :
    Pass.execs L c ⟨k, d ::ₘ pending, v⟩ ops =
      ⟨(Pass.execs L c ⟨k, pending, v⟩ ops).clock,
        d ::ₘ (Pass.execs L c ⟨k, pending, v⟩ ops).pending,
        (Pass.execs L c ⟨k, pending, v⟩ ops).view⟩ := by
  induction ops generalizing k pending v with
  | nil => rfl
  | cons op ops ih =>
    rw [List.forall_mem_cons] at other
    have step : Pass.exec ⟨k, d ::ₘ pending, v⟩ op (L.behind c op) =
        ⟨(Pass.exec ⟨k, pending, v⟩ op (L.behind c op)).clock,
          d ::ₘ (Pass.exec ⟨k, pending, v⟩ op (L.behind c op)).pending,
          (Pass.exec ⟨k, pending, v⟩ op (L.behind c op)).view⟩ := by
      unfold Pass.exec
      split
      · have stays : (d ::ₘ pending).filter (· ≠ op.target) =
            d ::ₘ pending.filter (· ≠ op.target) :=
          Multiset.filter_cons_of_pos _ (Ne.symm other.1)
        simp only [stays, Multiset.cons_add]
      · rfl
    simp only [Pass.execs, List.foldl_cons] at ih ⊢
    rw [step, ih _ _ _ other.2]

theorem Script.Idle.exchange {d : C} (idle : q.Idle L d) {s : Pass C V} (other : c ≠ d)
    (next : Pass.Next L s c) (next' : Pass.Next L s d) :
    Pass.Next L (q.turn L s c) d ∧ Pass.Next L (q.turn L s d) c ∧
      q.turn L (q.turn L s c) d = q.turn L (q.turn L s d) c := by
  obtain ⟨k, pending, v⟩ := s
  obtain ⟨rest, rfl⟩ := Multiset.exists_cons_of_mem next'.1
  obtain ⟨rest, rfl⟩ :=
    Multiset.exists_cons_of_mem ((Multiset.mem_cons.mp next.1).resolve_left other)
  have turn_idle : ∀ k rest v, q.turn L ⟨k, d ::ₘ rest, v⟩ d = ⟨k, rest, v⟩ := by
    intro k rest v
    simp [Script.turn, idle.calls, idle.effect, Pass.execs]
  have turn_other : q.turn L ⟨k, d ::ₘ c ::ₘ rest, v⟩ c =
      ⟨(q.turn L ⟨k, c ::ₘ rest, v⟩ c).clock, d ::ₘ (q.turn L ⟨k, c ::ₘ rest, v⟩ c).pending,
        (q.turn L ⟨k, c ::ₘ rest, v⟩ c).view⟩ := by
    have left : (d ::ₘ c ::ₘ rest).erase c = d ::ₘ rest := by
      rw [Multiset.cons_swap, Multiset.erase_cons_head]
    simp only [Script.turn, left, Multiset.erase_cons_head,
      execs_cons_pending _ _ _ _ (idle.alone c v)]
  refine ⟨?_, ?_, ?_⟩
  · rw [turn_other]
    exact ⟨Multiset.mem_cons_self _ _, fun e _ _ => (idle.apart e).1⟩
  · rw [turn_idle]
    exact ⟨Multiset.mem_cons_self _ _, fun e mem => next.2 e (Multiset.mem_cons_of_mem mem)⟩
  · rw [turn_other, turn_idle, turn_idle]

/-- Callbacks of which one stands before the other, or one is idle, can be called in any order
that the layout leaves open. -/
theorem orderFree_of_idle (related : ∀ c d, c ≠ d →
      L.before c d ∨ L.before d c ∨ q.Idle L c ∨ q.Idle L d) (k : Clock C) (v : V) :
    q.OrderFree L k v := by
  intro w _ c d other next next'
  obtain before | before | idle | idle := related c d other
  · exact absurd before (next'.2 c next.1 other)
  · exact absurd before (next.2 d next'.1 (Ne.symm other))
  · obtain ⟨later, later', either⟩ := idle.exchange (Ne.symm other) next' next
    exact ⟨later', later, either.symm⟩
  · exact idle.exchange other next next'

end Domotic
