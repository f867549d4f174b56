import Domotic.Timer

/-!
# The schedule that the soft timers keep

Callbacks that leave the table alone, under any history of the timer functions and ticks. A
history says what the table is for: which callbacks are `registered`, and for each the period
and the ticks since it was last set (`planned`). `KeepsPlan` relates this to the slots, which a
history reuses in any order; a tick then calls the registered callbacks whose period divides
the ticks counted.
-/
namespace Domotic
open Library

universe u v

/-- A call of a timer function, or a tick. -/
inductive TimerOp (C : Type u) where
  | add (period : UInt32) (callBack : C)
  | change (period : UInt32) (callBack : C)
  | remove (callBack : C)
  | tick
  deriving DecidableEq

/-- The ticks since the period of a callback was set, and that period in ticks. -/
structure Countdown where
  period : Nat
  elapsed : Nat

/-- The next tick calls the callback: the counter of its slot reaches zero, modulo `2 ^ 32`. -/
def Countdown.Fires (d : Countdown) : Prop :=
  int32 (d.period - ↑(d.elapsed % d.period) - 1) = 0

instance (d : Countdown) : Decidable d.Fires := inferInstanceAs (Decidable (_ = _))

/-- A slot counts down to the next multiple of the period. -/
def CallbackTime.Counts {C : Type u} (s : CallbackTime C) (d : Countdown) : Prop :=
  s.period = d.period ∧ d.period < 4294967296 ∧
    s.cpt = int32 (d.period - ↑(d.elapsed % d.period))

variable {C : Type u} {E : Type v}

namespace TimerOp

/-- The operation sets or ends the countdown of `c`. -/
def Names (c : C) : TimerOp C → Prop
  | .add _ callBack | .change _ callBack | .remove callBack => callBack = c
  | .tick => False

variable [DecidableEq C]

/-- The registered callbacks after the operation. -/
def enrol (r : List C) : TimerOp C → List C
  | .add _ callBack => callBack :: r
  | .remove callBack => r.erase callBack
  | .change _ _ | .tick => r

/-- What the operation does to the machine. -/
def exec (call : C → Timed C E → Timed C E) (m : Timed C E) : TimerOp C → Timed C E
  | .add period callBack =>
    { m with timers := m.timers.timerAddCallback period.toNat callBack }
  | .change period callBack => { m with timers := m.timers.timerChange period.toNat callBack }
  | .remove callBack => { m with timers := m.timers.timerRemoveCallback callBack }
  | .tick => (Timed.timerTim1IntrHandler call m).1

/-- The countdowns after the operation. -/
def plan (us : Nat) (due : C → Countdown) : TimerOp C → C → Countdown
  | .add period callBack | .change period callBack =>
    Function.update due callBack ⟨period.toNat / us, 0⟩
  | .remove _ => due
  | .tick => fun c => { due c with elapsed := (due c).elapsed + 1 }

end TimerOp

/-- The registered callbacks after a history of operations. -/
def registered [DecidableEq C] (h : List (TimerOp C)) : List C := h.foldl TimerOp.enrol []

/-- The countdowns after a history of operations. -/
def planned [DecidableEq C] (us : Nat) (h : List (TimerOp C)) : C → Countdown :=
  h.foldl (TimerOp.plan us) fun _ => ⟨0, 0⟩

/-- The machine after a history of operations. -/
def Timed.after [DecidableEq C] (call : C → Timed C E → Timed C E) (m : Timed C E)
    (h : List (TimerOp C)) : Timed C E := h.foldl (TimerOp.exec call) m

/-- Never more than `slots` callbacks are registered, and each at most once. -/
def Fits [DecidableEq C] (slots : Nat) (h : List (TimerOp C)) : Prop :=
  ∀ pre period c, pre ++ [.add period c] <+: h →
    c ∉ registered pre ∧ (registered pre).length < slots

/-! ## A tick, slot by slot -/

/-- A slot after a tick. -/
def CallbackTime.counted (s : CallbackTime C) : CallbackTime C :=
  if s.callBack = none then s
  else if int32 (s.cpt - 1) = 0 then { s with cpt := int32 s.period }
  else { s with cpt := int32 (s.cpt - 1) }

/-- The callback that a tick calls for a slot. -/
def CallbackTime.called (s : CallbackTime C) : Option C :=
  if int32 (s.cpt - 1) = 0 then s.callBack else none

/-- A table with its slots in two parts. -/
def Timers.split (t : Timers C) (front rest : List (CallbackTime C)) : Timers C :=
  { t with tab := front ++ rest }

/-- A round counts its slot and then makes the call, if one is due. -/
theorem tickSlot_split (call : C → Timed C E → Timed C E) {m : Timed C E}
    {done rest : List (CallbackTime C)} {s : CallbackTime C}
    (tab : m.timers.tab = done ++ s :: rest) : m.tickSlot call done.length =
      (s.called.elim ⟨m.timers.split done (s.counted :: rest), m.env⟩ fun c =>
        call c ⟨m.timers.split done (s.counted :: rest), m.env⟩, s.called) := by
  have slot : m.timers.tab[done.length]? = some s := by simp [tab]
  have write : ∀ s', m.setSlot done.length s' = ⟨m.timers.split done (s' :: rest), m.env⟩ := by
    intro s'
    simp [Timed.setSlot, Timers.split, tab]
  obtain ⟨same, empty⟩ | ⟨s', c, slot', busy, alive, wait⟩ | ⟨s', c, slot', busy, due, fire⟩ :=
    Timed.tickSlot_cases call m done.length
  · have none := empty s slot
    have whole : m.timers.split done (s :: rest) = m.timers := by rw [Timers.split, ← tab]
    rw [same, CallbackTime.counted, CallbackTime.called, if_pos none, none, whole, ite_self]
    rfl
  · obtain rfl := Option.some.inj (slot'.symm.trans slot)
    have counted : s'.counted = { s' with cpt := int32 (s'.cpt - 1) } := by
      rw [CallbackTime.counted, if_neg (by simp [busy]), if_neg alive]
    have quiet : s'.called = none := if_neg alive
    rw [wait, counted, quiet, write]
    rfl
  · obtain rfl := Option.some.inj (slot'.symm.trans slot)
    have counted : s'.counted = { s' with cpt := int32 s'.period } := by
      rw [CallbackTime.counted, if_neg (by simp [busy]), if_pos due]
    have fires : s'.called = some c := (if_pos due).trans busy
    rw [fire, counted, fires, write]
    rfl

section quiet
variable {call : C → Timed C E → Timed C E} (quiet : ∀ c m, (call c m).timers = m.timers)
include quiet

/-- With callbacks that leave the table alone, a round writes its own slot only. -/
theorem tickSlot_quiet {m : Timed C E} {done rest : List (CallbackTime C)} {s : CallbackTime C}
    (tab : m.timers.tab = done ++ s :: rest) :
    (m.tickSlot call done.length).1.timers = { m.timers with tab := done ++ s.counted :: rest } ∧
      (m.tickSlot call done.length).2 = s.called := by
  rw [tickSlot_split call tab]
  cases s.called with
  | none => exact ⟨rfl, rfl⟩
  | some c => exact ⟨quiet c _, rfl⟩

theorem tickSlots_quiet (rest : List (CallbackTime C)) {m : Timed C E}
    {done : List (CallbackTime C)} (tab : m.timers.tab = done ++ rest) :
    (Timed.tickSlots call (List.range' done.length rest.length) m).1.timers =
        { m.timers with tab := done ++ rest.map CallbackTime.counted } ∧
      (Timed.tickSlots call (List.range' done.length rest.length) m).2 =
        rest.filterMap CallbackTime.called := by
  induction rest generalizing m done with
  | nil =>
    refine ⟨?_, rfl⟩
    simp [Timed.tickSlots, ← tab]
  | cons s rest ih =>
    obtain ⟨table, called⟩ := tickSlot_quiet quiet tab
    have next : (m.tickSlot call done.length).1.timers.tab = (done ++ [s.counted]) ++ rest := by
      simp [table]
    obtain ⟨tail, calls⟩ := ih next
    simp only [List.length_append, List.length_singleton] at tail calls
    simp only [List.length_cons, List.range'_succ, Timed.tickSlots, tail, calls, table, called]
    constructor
    · simp
    · cases hs : s.called <;> simp [hs]

theorem tick_quiet (m : Timed C E) :
    (Timed.timerTim1IntrHandler call m).1.timers =
        { m.timers with tab := m.timers.tab.map CallbackTime.counted } ∧
      (Timed.timerTim1IntrHandler call m).2 = m.timers.tab.filterMap CallbackTime.called := by
  have tab : m.timers.tab = [] ++ m.timers.tab := rfl
  have whole := tickSlots_quiet quiet m.timers.tab tab
  simpa only [Timed.timerTim1IntrHandler, List.range_eq_range', List.length_nil,
    List.nil_append] using whole

end quiet

/-! ## The slots follow the plan -/

/-- The table holds the registered callbacks, in some order, and counts down for each. -/
structure KeepsPlan (us slots : Nat) (r : List C) (due : C → Countdown) (t : Timers C) : Prop where
  us_eq : t.us = us
  length_eq : t.tab.length = slots
  owners : (t.tab.filterMap CallbackTime.callBack).Perm r
  counts : ∀ s ∈ t.tab, ∀ c, s.callBack = some c → s.Counts (due c)

theorem int32_sub_one (x : Int) : int32 (int32 x - 1) = int32 (x - 1) := by
  rw [int32_eq, int32_eq, int32_eq]
  omega

/-- Counting the residue of the ticks up to the period. -/
theorem succ_mod {e p : Nat} (positive : 0 < p) :
    (e + 1) % p = if e % p + 1 = p then 0 else e % p + 1 := by
  have below := Nat.mod_lt e positive
  rw [← Nat.mod_add_mod]
  split
  · rename_i last
    rw [last, Nat.mod_self]
  · exact Nat.mod_eq_of_lt (by omega)

/-- A countdown fires every `period` ticks. -/
theorem fires_iff {d : Countdown} (positive : 1 ≤ d.period) (small : d.period < 4294967296) :
    d.Fires ↔ d.period ∣ d.elapsed + 1 := by
  have below := Nat.mod_lt d.elapsed positive
  rw [Nat.dvd_iff_mod_eq_zero, succ_mod positive, Countdown.Fires, int32_eq]
  split <;> omega

/-- The counter of a fresh countdown. -/
theorem counts_fresh {us period : Nat} (small : period < 4294967296) (c : C) :
    CallbackTime.Counts ⟨period / us, int32 ↑(period / us), some c⟩ ⟨period / us, 0⟩ :=
  ⟨rfl, (Nat.div_le_self period us).trans_lt small, by simp⟩

/-- A tick counts one more tick, and calls the callback when its countdown fires. -/
theorem counted_counts {s : CallbackTime C} {d : Countdown} {c : C} (busy : s.callBack = some c)
    (h : s.Counts d) : s.counted.Counts { d with elapsed := d.elapsed + 1 } ∧
      s.called = if d.Fires then some c else none := by
  obtain ⟨period, small, cpt⟩ := h
  have next : int32 (s.cpt - 1) = int32 (d.period - ↑(d.elapsed % d.period) - 1) := by
    rw [cpt, int32_sub_one]
  have called : s.called = if d.Fires then some c else none := by
    rw [CallbackTime.called, next, busy]
    rfl
  refine ⟨?_, called⟩
  rw [CallbackTime.counted, if_neg (by simp [busy]), next]
  obtain zero | positive := Nat.eq_zero_or_pos d.period
  · -- a period of zero ticks: the counter keeps counting down from zero
    have down : (d.period : Int) - ↑(d.elapsed % d.period) - 1 =
        d.period - ↑((d.elapsed + 1) % d.period) := by
      rw [zero, Nat.mod_zero, Nat.mod_zero]
      omega
    rw [down]
    split
    · rename_i due
      refine ⟨period, small, ?_⟩
      rw [due, period, zero]
      rfl
    · exact ⟨period, small, rfl⟩
  · have below := Nat.mod_lt d.elapsed positive
    have residue := succ_mod (e := d.elapsed) positive
    split
    · rename_i due
      have last : d.elapsed % d.period + 1 = d.period := by
        rw [int32_eq] at due
        omega
      rw [if_pos last] at residue
      exact ⟨period, small, by simp [residue, period]⟩
    · rename_i alive
      have more : d.elapsed % d.period + 1 ≠ d.period := by
        intro last
        refine alive ?_
        rw [int32_eq]
        omega
      rw [if_neg more] at residue
      have down : (d.period : Int) - ↑(d.elapsed % d.period) - 1 =
          d.period - ↑((d.elapsed + 1) % d.period) := by omega
      rw [down]
      exact ⟨period, small, rfl⟩

/-- Replacing the first element with `P`, when there is one. -/
theorem replaceF_of_mem {α : Type*} {P : α → Prop} [DecidablePred P] {g : α → α} {xs : List α}
    {x : α} (mem : x ∈ xs) (hit : P x) :
    ∃ before y behind, xs = before ++ y :: behind ∧ P y ∧
      xs.replaceF (fun x => if P x then some (g x) else none) = before ++ g y :: behind := by
  obtain ⟨y, y', before, behind, -, found, whole, replaced⟩ := List.exists_of_replaceF mem
    (p := fun x => if P x then some (g x) else none) (if_pos hit)
  obtain ⟨hy, eq⟩ := Option.ite_none_right_eq_some.mp found
  exact ⟨before, y, behind, whole, hy, Option.some.inj eq ▸ replaced⟩

variable {us slots : Nat} {r : List C} {due : C → Countdown} {t : Timers C}

/-- A slot that is not empty belongs to a registered callback. -/
theorem KeepsPlan.mem_iff (h : KeepsPlan us slots r due t) (c : C) :
    c ∈ r ↔ ∃ s ∈ t.tab, s.callBack = some c := by
  rw [← h.owners.mem_iff, List.mem_filterMap]

/-- The slot of a callback is its only one. -/
theorem KeepsPlan.other (h : KeepsPlan us slots r due t) (nodup : r.Nodup) {c : C}
    {s : CallbackTime C} {before behind : List (CallbackTime C)}
    (tab : t.tab = before ++ s :: behind) (own : s.callBack = some c) :
    ∀ s' ∈ before ++ behind, s'.callBack ≠ some c := by
  intro s' mem own'
  have owners := h.owners.nodup_iff.mpr nodup
  rw [tab, List.filterMap_append, List.filterMap_cons, own] at owners
  have split := List.nodup_middle.mp owners
  rw [← List.filterMap_append] at split
  exact (List.nodup_cons.mp split).1 (List.mem_filterMap.mpr ⟨s', mem, own'⟩)

/-- Fewer callbacks than slots leave an empty one. -/
theorem KeepsPlan.exists_empty (h : KeepsPlan us slots r due t) (room : r.length < slots) :
    ∃ s ∈ t.tab, s.callBack = none := by
  by_contra full
  have busy : ∀ s ∈ t.tab, s.callBack.isSome := fun s mem =>
    Option.isSome_iff_ne_none.mpr fun empty => full ⟨s, mem, empty⟩
  have all := List.filterMap_length_eq_length.mpr busy
  rw [h.owners.length_eq, h.length_eq] at all
  omega

@[simp] theorem counted_callBack (s : CallbackTime C) : s.counted.callBack = s.callBack := by
  unfold CallbackTime.counted
  split_ifs <;> rfl

theorem KeepsPlan.tick (h : KeepsPlan us slots r due t) :
    KeepsPlan us slots r (fun c => { due c with elapsed := (due c).elapsed + 1 })
      { t with tab := t.tab.map CallbackTime.counted } := by
  refine ⟨h.us_eq, (List.length_map _).trans h.length_eq, ?_, ?_⟩
  · rw [List.filterMap_map]
    have same : CallbackTime.callBack ∘ CallbackTime.counted = (CallbackTime.callBack (C := C)) :=
      funext counted_callBack
    rw [same]
    exact h.owners
  · intro s' mem c own
    obtain ⟨s, old, rfl⟩ := List.mem_map.mp mem
    rw [counted_callBack] at own
    exact (counted_counts own (h.counts s old c own)).1

/-- A tick calls the registered callbacks whose countdown fires. -/
theorem KeepsPlan.called_eq (h : KeepsPlan us slots r due t) :
    (t.tab.filterMap CallbackTime.called).Perm (r.filter fun c => (due c).Fires) := by
  have each : ∀ s ∈ t.tab, s.called =
      s.callBack.bind (Option.guard fun c => (due c).Fires) := by
    intro s mem
    cases own : s.callBack with
    | none => simp [CallbackTime.called, own]
    | some c =>
      rw [(counted_counts own (h.counts s mem c own)).2]
      simp [Option.guard]
  rw [List.filterMap_congr each, ← List.filterMap_eq_filter]
  have := h.owners.filterMap (Option.guard fun c => (due c).Fires)
  rwa [List.filterMap_filterMap] at this

variable [DecidableEq C] {c : C} {period : Nat}

/-- The slots of the other callbacks follow a plan that changes for `c` only. -/
theorem KeepsPlan.counts_ne (h : KeepsPlan us slots r due t) (d : Countdown) {s : CallbackTime C}
    (mem : s ∈ t.tab) (other : s.callBack ≠ some c) :
    ∀ c', s.callBack = some c' → s.Counts (Function.update due c d c') := by
  intro c' own
  have ne : c' ≠ c := fun eq => other (eq ▸ own)
  rw [Function.update_of_ne ne]
  exact h.counts s mem c' own

theorem KeepsPlan.add (h : KeepsPlan us slots r due t) (room : r.length < slots) (fresh : c ∉ r)
    (small : period < 4294967296) :
    KeepsPlan us slots (c :: r) (Function.update due c ⟨period / us, 0⟩)
      (t.timerAddCallback period c) := by
  obtain ⟨s, mem, empty⟩ := h.exists_empty room
  obtain ⟨before, s, behind, tab, empty, added⟩ := replaceF_of_mem
    (g := fun _ => ⟨period / t.us, int32 ↑(period / t.us), some c⟩)
    (P := fun s : CallbackTime C => s.callBack = none) mem empty
  rw [Timers.timerAddCallback, added]
  refine ⟨h.us_eq, ?_, ?_, ?_⟩
  · rw [← h.length_eq, tab]
    simp
  · have owners := h.owners
    rw [tab, List.filterMap_append, List.filterMap_cons, empty] at owners
    rw [List.filterMap_append, List.filterMap_cons]
    exact List.perm_middle.trans (owners.cons c)
  · intro s' mem' c' own
    obtain here | old : s' = ⟨period / t.us, int32 ↑(period / t.us), some c⟩ ∨ s' ∈ t.tab := by
      simp only [tab, List.mem_append, List.mem_cons] at mem' ⊢
      tauto
    · subst here
      obtain rfl := Option.some.inj own
      rw [Function.update_self, h.us_eq]
      exact counts_fresh small c
    · exact h.counts_ne _ old (fun own => fresh ((h.mem_iff c).mpr ⟨s', old, own⟩)) c' own

theorem KeepsPlan.change (h : KeepsPlan us slots r due t) (nodup : r.Nodup)
    (small : period < 4294967296) :
    KeepsPlan us slots r (Function.update due c ⟨period / us, 0⟩) (t.timerChange period c) := by
  refine ⟨h.us_eq, List.length_replaceF.trans h.length_eq, ?_, ?_⟩
  · have owners := congrArg (List.filterMap id) (t.timerChange_owners period c)
    simp only [Timers.owners, List.filterMap_map, Function.id_comp] at owners
    exact owners ▸ h.owners
  · by_cases known : ∃ s ∈ t.tab, s.callBack = some c
    · obtain ⟨s, mem, own⟩ := known
      obtain ⟨before, s, behind, tab, own, changed⟩ := replaceF_of_mem
        (g := fun s => { s with period := period / t.us, cpt := int32 ↑(period / t.us) })
        (P := fun s : CallbackTime C => s.callBack = some c) mem own
      rw [Timers.timerChange, changed]
      intro s' mem' c' own'
      obtain here | old : s' = { s with period := period / t.us, cpt := int32 ↑(period / t.us) } ∨
          s' ∈ before ++ behind := by
        simp only [List.mem_append, List.mem_cons] at mem' ⊢
        tauto
      · subst here
        obtain rfl : c = c' := Option.some.inj (own.symm.trans own')
        rw [Function.update_self, h.us_eq]
        exact ⟨rfl, (counts_fresh small c).2⟩
      · have inside : s' ∈ t.tab := by
          simp only [tab, List.mem_append, List.mem_cons] at old ⊢
          tauto
        exact h.counts_ne _ inside (h.other nodup tab own s' old) c' own'
    · have none : ∀ s ∈ t.tab, s.callBack ≠ some c := fun s mem own => known ⟨s, mem, own⟩
      have same : (t.timerChange period c).tab = t.tab :=
        List.replaceF_of_forall_none fun s mem => if_neg (none s mem)
      rw [same]
      exact fun s mem => h.counts_ne _ mem (none s mem)

theorem KeepsPlan.remove (h : KeepsPlan us slots r due t) :
    KeepsPlan us slots (r.erase c) due (t.timerRemoveCallback c) := by
  refine ⟨h.us_eq, List.length_replaceF.trans h.length_eq, ?_, ?_⟩
  all_goals by_cases known : ∃ s ∈ t.tab, s.callBack = some c
  · obtain ⟨s, mem, own⟩ := known
    obtain ⟨before, s, behind, tab, own, removed⟩ := replaceF_of_mem
      (g := fun s => { s with cpt := 1000000, callBack := none })
      (P := fun s : CallbackTime C => s.callBack = some c) mem own
    rw [Timers.timerRemoveCallback, removed, List.filterMap_append, List.filterMap_cons]
    have owners := h.owners
    rw [tab, List.filterMap_append, List.filterMap_cons, own] at owners
    have erased := (List.perm_middle.symm.trans owners).erase c
    rwa [List.erase_cons_head] at erased
  · have same : (t.timerRemoveCallback c).tab = t.tab :=
      List.replaceF_of_forall_none fun s mem => if_neg fun own => known ⟨s, mem, own⟩
    rw [same, List.erase_of_not_mem fun mem => known ((h.mem_iff c).mp mem)]
    exact h.owners
  · obtain ⟨s, mem, own⟩ := known
    obtain ⟨before, s, behind, tab, -, removed⟩ := replaceF_of_mem
      (g := fun s => { s with cpt := 1000000, callBack := none })
      (P := fun s : CallbackTime C => s.callBack = some c) mem own
    rw [Timers.timerRemoveCallback, removed]
    intro s' mem' c' own'
    obtain here | old : s' = { s with cpt := 1000000, callBack := none } ∨ s' ∈ t.tab := by
      simp only [tab, List.mem_append, List.mem_cons] at mem' ⊢
      tauto
    · subst here
      cases own'
    · exact h.counts s' old c' own'
  · have same : (t.timerRemoveCallback c).tab = t.tab :=
      List.replaceF_of_forall_none fun s mem => if_neg fun own => known ⟨s, mem, own⟩
    rw [same]
    exact h.counts

/-! ## The schedule of a history -/

variable {h : List (TimerOp C)} {op : TimerOp C} {pre post : List (TimerOp C)} {c : C}

@[simp] theorem registered_snoc : registered (h ++ [op]) = TimerOp.enrol (registered h) op := by
  simp [registered]

@[simp] theorem planned_snoc : planned us (h ++ [op]) = TimerOp.plan us (planned us h) op := by
  simp [planned]

@[simp] theorem after_snoc (call : C → Timed C E → Timed C E) (m : Timed C E) :
    m.after call (h ++ [op]) = TimerOp.exec call (m.after call h) op := by
  simp [Timed.after]

theorem fits_nil (slots : Nat) : Fits slots ([] : List (TimerOp C)) := by
  intro pre period c before
  simp at before

theorem fits_snoc : Fits slots (h ++ [op]) ↔ Fits slots h ∧ ∀ period c, op = .add period c →
    c ∉ registered h ∧ (registered h).length < slots := by
  constructor
  · refine fun fits => ⟨fun pre period c before => ?_, ?_⟩
    · exact fits pre period c (before.trans (List.prefix_append h [op]))
    · rintro period c rfl
      exact fits h period c List.prefix_rfl
  · rintro ⟨fits, last⟩ pre period c before
    obtain whole | earlier := List.prefix_concat_iff.mp before
    · obtain ⟨rfl, eq⟩ := List.append_inj' whole rfl
      exact last period c (List.cons.inj eq).1.symm
    · exact fits pre period c earlier

/-- After any history the slots follow the plan. -/
theorem keepsPlan_after {call : C → Timed C E → Timed C E} {m : Timed C E}
    (quiet : ∀ c m, (call c m).timers = m.timers) (start : m.timers = Timers.timerInit slots us)
    (fits : Fits slots h) : (registered h).Nodup ∧
      KeepsPlan us slots (registered h) (planned us h) (m.after call h).timers := by
  induction h using List.reverseRecOn with
  | nil =>
    refine ⟨List.nodup_nil, ?_⟩
    have table : (m.after call []).timers = Timers.timerInit slots us := start
    rw [table]
    refine ⟨rfl, List.length_replicate, ?_, ?_⟩
    · simp [Timers.timerInit, registered, List.filterMap_replicate_of_none]
    · intro s mem c own
      obtain rfl := List.eq_of_mem_replicate mem
      cases own
  | append_singleton h op ih =>
    obtain ⟨fits, last⟩ := fits_snoc.mp fits
    obtain ⟨nodup, follows⟩ := ih fits
    rw [registered_snoc, planned_snoc, after_snoc]
    cases op with
    | add period c =>
      obtain ⟨fresh, room⟩ := last period c rfl
      exact ⟨List.nodup_cons.mpr ⟨fresh, nodup⟩, follows.add room fresh period.toNat_lt⟩
    | change period c => exact ⟨nodup, follows.change nodup period.toNat_lt⟩
    | remove c => exact ⟨nodup.erase c, follows.remove⟩
    | tick =>
      have table := (tick_quiet quiet (m.after call h)).1
      refine ⟨nodup, ?_⟩
      simp only [TimerOp.exec, table]
      exact follows.tick

/-- Operations on the other callbacks and ticks keep a callback registered and count the
ticks. -/
theorem planned_since {period : UInt32} (set : planned us (pre ++ [op]) c = ⟨period.toNat / us, 0⟩)
    (own : c ∈ registered (pre ++ [op])) (last : ∀ o ∈ post, ¬ o.Names c) :
    c ∈ registered (pre ++ op :: post) ∧
      planned us (pre ++ op :: post) c = ⟨period.toNat / us, post.count .tick⟩ := by
  induction post using List.reverseRecOn with
  | nil => exact ⟨own, set⟩
  | append_singleton post o ih =>
    obtain ⟨mem, plan⟩ := ih fun o mem => last o (List.mem_append_left _ mem)
    have other := last o (by simp)
    rw [← List.cons_append, ← List.append_assoc, registered_snoc, planned_snoc]
    cases o with
    | add p c' | change p c' =>
      have ne : c ≠ c' := fun eq => other eq.symm
      simp [TimerOp.enrol, TimerOp.plan, ne, mem, plan]
    | remove c' =>
      have ne : c ≠ c' := fun eq => other eq.symm
      simp [TimerOp.enrol, TimerOp.plan, List.mem_erase_of_ne ne, mem, plan]
    | tick => simp [TimerOp.enrol, TimerOp.plan, mem, plan]

/-- A callback that was removed and not added again is not registered. -/
theorem not_registered_since (nodup : (registered pre).Nodup)
    (gone : ∀ period, .add period c ∉ post) : c ∉ registered (pre ++ .remove c :: post) := by
  induction post using List.reverseRecOn with
  | nil =>
    rw [registered_snoc]
    exact nodup.not_mem_erase
  | append_singleton post o ih =>
    have before := ih fun period mem => gone period (List.mem_append_left _ mem)
    rw [← List.cons_append, ← List.append_assoc, registered_snoc]
    cases o with
    | add p c' =>
      have ne : c ≠ c' := by
        rintro rfl
        exact gone p (by simp)
      simp [TimerOp.enrol, ne, before]
    | remove c' => exact fun mem => before (List.mem_of_mem_erase mem)
    | change _ _ | tick => exact before

/-- A tick calls a registered callback exactly when its period divides the ticks since that
period was set, this one included, and never a callback that was removed. -/
theorem tick_calls_on_schedule {call : C → Timed C E → Timed C E} {m : Timed C E}
    (quiet : ∀ c m, (call c m).timers = m.timers) (start : m.timers = Timers.timerInit slots us)
    (fits : Fits slots h) (c : C) :
    (∀ pre op post period, h = pre ++ op :: post →
      (op = .add period c ∨ op = .change period c ∧ c ∈ registered pre) →
      (∀ o ∈ post, ¬ o.Names c) → 1 ≤ period.toNat / us →
      (Timed.timerTim1IntrHandler call (m.after call h)).2.count c =
        if period.toNat / us ∣ post.count .tick + 1 then 1 else 0) ∧
    (∀ pre post, h = pre ++ .remove c :: post → (∀ period, .add period c ∉ post) →
      c ∉ (Timed.timerTim1IntrHandler call (m.after call h)).2) := by
  obtain ⟨nodup, follows⟩ := keepsPlan_after quiet start fits
  rw [(tick_quiet quiet (m.after call h)).2]
  have called := follows.called_eq
  constructor
  · rintro pre op post period rfl set last positive
    have fresh : c ∈ registered (pre ++ [op]) ∧
        planned us (pre ++ [op]) c = ⟨period.toNat / us, 0⟩ := by
      rw [registered_snoc, planned_snoc]
      obtain rfl | ⟨rfl, known⟩ := set
      · simp [TimerOp.enrol, TimerOp.plan]
      · simp [TimerOp.enrol, TimerOp.plan, known]
    obtain ⟨mem, plan⟩ := planned_since fresh.2 fresh.1 last
    have small : period.toNat / us < 4294967296 :=
      (Nat.div_le_self _ us).trans_lt period.toNat_lt
    have fires := fires_iff (d := planned us (pre ++ op :: post) c) (by rw [plan]; exact positive)
      (by rw [plan]; exact small)
    rw [plan] at fires
    rw [called.count_eq]
    split
    · rename_i due
      rw [List.count_filter (by simp [plan, fires.mpr due])]
      exact List.count_eq_one_of_mem nodup mem
    · rename_i idle
      refine List.count_eq_zero.mpr fun mem => idle (fires.mp ?_)
      simpa [plan] using (List.mem_filter.mp mem).2
  · rintro pre post rfl gone mem
    have earlier : (registered pre).Nodup := by
      have fits' : Fits slots pre := fun p period c before =>
        fits p period c (before.trans (List.prefix_append _ _))
      exact (keepsPlan_after quiet start fits').1
    have inside := (List.mem_filter.mp (called.mem_iff.mp mem)).1
    exact not_registered_since earlier gone inside

/-- The first callback is added and removed, and the second one takes its slot. -/
def reuse : List (TimerOp Bool) :=
  [.add 300 false, .tick, .remove false, .add 200 true, .tick]

def doNothing (_ : Bool) (m : Timed Bool Unit) : Timed Bool Unit := m

/-- The second tick after the addition calls the callback in the reused slot. -/
theorem tick_calls_reused : List.count true (Timed.timerTim1IntrHandler doNothing
    (Timed.after doNothing ⟨Timers.timerInit 2 100, ()⟩ reuse)).2 = 1 := by
  have quiet : ∀ c m, (doNothing c m).timers = m.timers := fun _ _ => rfl
  have fits : Fits 2 reuse := by
    have add : Fits 2 [.add 300 false] :=
      (fits_snoc (h := [])).mpr ⟨fits_nil 2, by rintro _ _ ⟨⟩; decide⟩
    have tick : Fits 2 [.add 300 false, .tick] := (fits_snoc (h := [_])).mpr ⟨add, nofun⟩
    have remove : Fits 2 [.add 300 false, .tick, .remove false] :=
      (fits_snoc (h := [_, _])).mpr ⟨tick, nofun⟩
    have again : Fits 2 [.add 300 false, .tick, .remove false, .add 200 true] :=
      (fits_snoc (h := [_, _, _])).mpr ⟨remove, by rintro _ _ ⟨⟩; decide⟩
    exact (fits_snoc (h := [_, _, _, _])).mpr ⟨again, nofun⟩
  have start : (⟨Timers.timerInit 2 100, ()⟩ : Timed Bool Unit).timers = Timers.timerInit 2 100 :=
    rfl
  have run := (tick_calls_on_schedule quiet start fits true).1
    [.add 300 false, .tick, .remove false] (.add 200 true) [.tick] 200 rfl (.inl rfl)
    (by simp [TimerOp.Names]) (by decide)
  exact run.trans (by decide)

end Domotic
