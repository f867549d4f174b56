import Mathlib.Data.List.Basic
import Domotic.Library.Word

/-!
# The soft timers

`timer.c` runs callbacks from one hardware interrupt. A table holds a fixed number of
slots; a slot counts ticks down and calls its callback when it reaches zero, after it has
reloaded its counter. A callback has no argument: it acts on the whole machine, the table
included, while the table is being traversed.

The model is generic in the callbacks and in the rest of the machine. A slot is empty when
its callback is `none` (`NULL`), whatever its two counters hold.
-/
namespace Domotic
open Library

universe u v

/-- `callback_time` -/
structure CallbackTime (C : Type u) where
  period : Nat
  cpt : Int
  callBack : Option C
  deriving DecidableEq, Repr

/-- `tab_callback_time` and the duration `us` of one tick in microseconds. -/
structure Timers (C : Type u) where
  us : Nat
  tab : List (CallbackTime C)
  deriving DecidableEq, Repr

/-- A machine with soft timers. -/
structure Timed (C : Type u) (E : Type v) where
  timers : Timers C
  env : E

variable {C : Type u} {E : Type v}

namespace Timers

/-- `timer_init` -/
def timerInit (slots us : Nat) : Timers C where
  us := us
  tab := List.replicate slots ⟨0, 0, none⟩

/-- `timer_add_callback`: the first empty slot takes the callback; a full table ignores it. -/
def timerAddCallback (t : Timers C) (period : Nat) (callBack : C) : Timers C :=
  { t with tab := t.tab.replaceF fun s =>
      if s.callBack = none then
        some ⟨period / t.us, int32 ↑(period / t.us), some callBack⟩
      else none }

variable [DecidableEq C]

/-- `timer_change`: the first slot of the callback starts a new period. -/
def timerChange (t : Timers C) (period : Nat) (callBack : C) : Timers C :=
  { t with tab := t.tab.replaceF fun s =>
      if s.callBack = some callBack then
        some { s with period := period / t.us, cpt := int32 ↑(period / t.us) }
      else none }

/-- `timer_remove_callback`: the first slot of the callback becomes empty. -/
def timerRemoveCallback (t : Timers C) (callBack : C) : Timers C :=
  { t with tab := t.tab.replaceF fun s =>
      if s.callBack = some callBack then some { s with cpt := 1000000, callBack := none }
      else none }

end Timers

namespace Timed

def setSlot (m : Timed C E) (l : Nat) (s : CallbackTime C) : Timed C E :=
  { m with timers := { m.timers with tab := m.timers.tab.set l s } }

@[simp] theorem setSlot_tab (m : Timed C E) (l : Nat) (s : CallbackTime C) :
    (m.setSlot l s).timers.tab = m.timers.tab.set l s := rfl

/-- One round of the loop of `timer_tim1_intr_handler`, with the callback it calls. -/
def tickSlot (call : C → Timed C E → Timed C E) (m : Timed C E) (l : Nat) :
    Timed C E × Option C :=
  match m.timers.tab[l]? with
  | none => (m, none)
  | some s =>
    match s.callBack with
    | none => (m, none)
    | some callBack =>
      if int32 (s.cpt - 1) = 0 then
        (call callBack (m.setSlot l { s with cpt := int32 s.period }), some callBack)
      else (m.setSlot l { s with cpt := int32 (s.cpt - 1) }, none)

/-- The rounds of the slots `ls`, with the callbacks they call, in order. -/
def tickSlots (call : C → Timed C E → Timed C E) :
    List Nat → Timed C E → Timed C E × List C
  | [], m => (m, [])
  | l :: ls, m =>
    let r := tickSlot call m l
    let t := tickSlots call ls r.1
    (t.1, r.2.toList ++ t.2)

/-- `timer_tim1_intr_handler`, with the callbacks it calls, in order. -/
def timerTim1IntrHandler (call : C → Timed C E → Timed C E) (m : Timed C E) :
    Timed C E × List C :=
  tickSlots call (List.range m.timers.tab.length) m

/-! ## What a round can do -/

variable {call : C → Timed C E → Timed C E} {m : Timed C E} {l : Nat}

theorem tickSlot_empty {s : CallbackTime C} (slot : m.timers.tab[l]? = some s)
    (empty : s.callBack = none) : tickSlot call m l = (m, none) := by
  simp [tickSlot, slot, empty]

theorem tickSlot_wait {s : CallbackTime C} {c : C} (slot : m.timers.tab[l]? = some s)
    (busy : s.callBack = some c) (positive : 2 ≤ s.cpt) (small : s.cpt < 2147483648) :
    tickSlot call m l = (m.setSlot l { s with cpt := s.cpt - 1 }, none) := by
  have next : int32 (s.cpt - 1) = s.cpt - 1 := int32_of_range (by omega) (by omega)
  have alive : s.cpt - 1 ≠ 0 := by omega
  simp [tickSlot, slot, busy, next, alive]

theorem tickSlot_fire {s : CallbackTime C} {c : C} (slot : m.timers.tab[l]? = some s)
    (busy : s.callBack = some c) (due : s.cpt = 1) :
    tickSlot call m l = (call c (m.setSlot l { s with cpt := int32 s.period }), some c) := by
  have zero : int32 (s.cpt - 1) = 0 := by rw [due]; exact int32_of_range (by omega) (by omega)
  simp [tickSlot, slot, busy, zero]

/-- A round leaves the machine alone, or only counts its slot down, or reloads its slot and
calls the callback. -/
theorem tickSlot_cases (call : C → Timed C E → Timed C E) (m : Timed C E) (l : Nat) :
    (tickSlot call m l = (m, none) ∧ ∀ s, m.timers.tab[l]? = some s → s.callBack = none) ∨
    (∃ s c, m.timers.tab[l]? = some s ∧ s.callBack = some c ∧ int32 (s.cpt - 1) ≠ 0 ∧
      tickSlot call m l = (m.setSlot l { s with cpt := int32 (s.cpt - 1) }, none)) ∨
    (∃ s c, m.timers.tab[l]? = some s ∧ s.callBack = some c ∧ int32 (s.cpt - 1) = 0 ∧
      tickSlot call m l = (call c (m.setSlot l { s with cpt := int32 s.period }), some c)) := by
  cases slot : m.timers.tab[l]? with
  | none => exact .inl ⟨by simp [tickSlot, slot], by simp⟩
  | some s =>
    cases busy : s.callBack with
    | none => exact .inl ⟨tickSlot_empty slot busy, by simpa using busy⟩
    | some c =>
      by_cases due : int32 (s.cpt - 1) = 0
      · exact .inr (.inr ⟨s, c, rfl, busy, due, by simp [tickSlot, slot, busy, due]⟩)
      · exact .inr (.inl ⟨s, c, rfl, busy, due, by simp [tickSlot, slot, busy, due]⟩)

/-- What every round keeps that calls only callbacks with `P`, a traversal keeps that calls
only callbacks with `P`. -/
theorem tickSlots_keeps {I : Timed C E → Prop} {P : C → Prop}
    (keep : ∀ m l, I m → (∀ c, (tickSlot call m l).2 = some c → P c) → I (tickSlot call m l).1)
    (ls : List Nat) : ∀ m, (∀ c ∈ (tickSlots call ls m).2, P c) → I m →
      I (tickSlots call ls m).1 := by
  induction ls with
  | nil => exact fun _ _ h => h
  | cons l ls ih =>
    intro m called h
    have here : ∀ c, (tickSlot call m l).2 = some c → P c := fun c hc =>
      called c (List.mem_append_left _ (by simp [hc]))
    exact ih _ (fun c hc => called c (List.mem_append_right _ hc)) (keep m l h here)

/-- What every round keeps, a traversal keeps. -/
theorem tickSlots_invariant {I : Timed C E → Prop}
    (keep : ∀ m l, I m → I (tickSlot call m l).1) (ls : List Nat) (m : Timed C E) (h : I m) :
    I (tickSlots call ls m).1 :=
  tickSlots_keeps (P := fun _ => True) (fun m l h _ => keep m l h) ls m (fun _ _ => trivial) h

/-- A call of `c` somewhere in a traversal establishes what that call establishes and the
rounds after it keep. -/
theorem tickSlots_establishes {I J : Timed C E → Prop} {c : C}
    (keepI : ∀ m l, I m → I (tickSlot call m l).1) (keepJ : ∀ m l, J m → J (tickSlot call m l).1)
    (start : ∀ m l, I m → (tickSlot call m l).2 = some c → J (tickSlot call m l).1)
    (ls : List Nat) : ∀ m, c ∈ (tickSlots call ls m).2 → I m → J (tickSlots call ls m).1 := by
  induction ls with
  | nil => exact fun _ called => absurd called List.not_mem_nil
  | cons l ls ih =>
    intro m called h
    obtain here | later := List.mem_append.mp called
    · exact tickSlots_invariant keepJ ls _ (start m l h (by simpa using here))
    · exact ih _ later (keepI m l h)

theorem tick_invariant {I : Timed C E → Prop} (keep : ∀ m l, I m → I (tickSlot call m l).1)
    (h : I m) : I (timerTim1IntrHandler call m).1 :=
  tickSlots_invariant keep _ m h

end Timed

/-! ## What the table operations can do to a slot -/

/-- Replacing the first match changes a slot only where the slot itself matches. -/
theorem getElem?_replaceF {α : Type u} (f : α → Option α) (xs : List α) (i : Nat) :
    (xs.replaceF f)[i]? = xs[i]? ∨
      ∃ a b, xs[i]? = some a ∧ f a = some b ∧ (xs.replaceF f)[i]? = some b := by
  induction xs generalizing i with
  | nil => exact .inl rfl
  | cons x xs ih =>
    cases hx : f x with
    | some y =>
      cases i with
      | zero => exact .inr ⟨x, y, rfl, hx, by simp [hx]⟩
      | succ i => exact .inl (by simp [hx])
    | none =>
      cases i with
      | zero => exact .inl (by simp [hx])
      | succ i => simpa [hx] using ih i

/-- The first match is replaced. -/
theorem getElem?_replaceF_first {α : Type u} {f : α → Option α} {xs : List α} {i : Nat} {a b : α}
    (at_i : xs[i]? = some a) (hit : f a = some b)
    (first : ∀ j < i, ∀ a', xs[j]? = some a' → f a' = none) : (xs.replaceF f)[i]? = some b := by
  induction xs generalizing i with
  | nil => simp at at_i
  | cons x xs ih =>
    cases i with
    | zero =>
      obtain rfl : x = a := by simpa using at_i
      simp [hit]
    | succ i =>
      have miss : f x = none := first 0 (by omega) x rfl
      have rest := ih (i := i) (by simpa using at_i)
        fun j hj a' ha => first (j + 1) (by omega) a' (by simpa using ha)
      simpa [miss] using rest

theorem map_replaceF {α β : Type*} {f : α → Option α} {g : β → Option β} {h : α → β}
    (match_iff : ∀ a, (f a).map h = g (h a)) (xs : List α) :
    (xs.replaceF f).map h = (xs.map h).replaceF g := by
  induction xs with
  | nil => rfl
  | cons x xs ih =>
    cases hx : f x with
    | some y =>
      have hit : g (h x) = some (h y) := by rw [← match_iff, hx]; rfl
      simp [hx, hit]
    | none =>
      have miss : g (h x) = none := by rw [← match_iff, hx]; rfl
      simp [hx, miss, ih]

namespace Timers

/-- The callback of each slot. -/
def owners (t : Timers C) : List (Option C) := t.tab.map CallbackTime.callBack

theorem owners_of_slot {t : Timers C} {i : Nat} {s : CallbackTime C} (h : t.tab[i]? = some s) :
    t.owners[i]? = some s.callBack := by
  simp [owners, List.getElem?_map, h]

variable (t : Timers C) (period : Nat) (c : C) (i : Nat)

theorem timerAddCallback_owners : (t.timerAddCallback period c).owners =
    t.owners.replaceF fun o => if o = none then some (some c) else none := by
  refine map_replaceF (fun s => ?_) t.tab
  by_cases empty : s.callBack = none <;> simp [empty]

/-- A slot in use is not taken. -/
theorem timerAddCallback_of_busy {s : CallbackTime C} (slot : t.tab[i]? = some s)
    (busy : s.callBack ≠ none) : (t.timerAddCallback period c).tab[i]? = some s := by
  rcases getElem?_replaceF _ t.tab i with same | ⟨s', s'', slot', hs, -⟩
  · exact same.trans slot
  · obtain rfl := Option.some.inj (slot.symm.trans slot')
    exact absurd (Option.ite_none_right_eq_some.mp hs).1 busy

variable [DecidableEq C]

@[simp] theorem timerChange_owners : (t.timerChange period c).owners = t.owners := by
  refine List.ext_getElem? fun i => ?_
  simp only [owners, timerChange, List.getElem?_map]
  rcases getElem?_replaceF _ t.tab i with same | ⟨s, s', slot, hs, changed⟩
  · rw [same]
  · obtain ⟨own, eq⟩ := Option.ite_none_right_eq_some.mp hs
    obtain rfl := Option.some.inj eq
    rw [slot, changed]
    rfl

theorem timerRemoveCallback_owners : (t.timerRemoveCallback c).owners =
    t.owners.replaceF fun o => if o = some c then some none else none := by
  refine map_replaceF (fun s => ?_) t.tab
  by_cases own : s.callBack = some c <;> simp [own]

/-- A slot of another callback keeps its counters. -/
theorem timerChange_of_ne {s : CallbackTime C} (slot : t.tab[i]? = some s)
    (other : s.callBack ≠ some c) : (t.timerChange period c).tab[i]? = some s := by
  rcases getElem?_replaceF _ t.tab i with same | ⟨s', s'', slot', hs, -⟩
  · exact same.trans slot
  · obtain rfl := Option.some.inj (slot.symm.trans slot')
    exact absurd (Option.ite_none_right_eq_some.mp hs).1 other

theorem timerRemoveCallback_of_ne {s : CallbackTime C} (slot : t.tab[i]? = some s)
    (other : s.callBack ≠ some c) : (t.timerRemoveCallback c).tab[i]? = some s := by
  rcases getElem?_replaceF _ t.tab i with same | ⟨s', s'', slot', hs, -⟩
  · exact same.trans slot
  · obtain rfl := Option.some.inj (slot.symm.trans slot')
    exact absurd (Option.ite_none_right_eq_some.mp hs).1 other

/-- The first slot of the callback gets the new period. -/
theorem timerChange_first {s : CallbackTime C} (slot : t.tab[i]? = some s)
    (own : s.callBack = some c) (first : ∀ j < i, t.owners[j]? ≠ some (some c)) :
    (t.timerChange period c).tab[i]? =
      some { s with period := period / t.us, cpt := int32 ↑(period / t.us) } := by
  refine getElem?_replaceF_first slot (by simp [own]) fun j hj s' slot' => ?_
  have other : s'.callBack ≠ some c := fun eq => first j hj (eq ▸ owners_of_slot slot')
  simp [other]

end Timers

namespace Timed
variable {call : C → Timed C E → Timed C E} {m : Timed C E} {l : Nat}

/-- Counting changes no owner. -/
theorem setSlot_owners {s : CallbackTime C} (slot : m.timers.tab[l]? = some s) (cpt : Int) :
    (m.setSlot l { s with cpt := cpt }).timers.owners = m.timers.owners := by
  refine List.ext_getElem? fun i => ?_
  by_cases here : l = i
  · subst here
    obtain ⟨bound, -⟩ := List.getElem?_eq_some_iff.mp slot
    simp only [Timers.owners, setSlot_tab, List.getElem?_map, List.getElem?_set_self bound, slot,
      Option.map_some]
  · simp only [Timers.owners, setSlot_tab, List.getElem?_map, List.getElem?_set_ne here]

theorem tickSlots_append (ls ls' : List Nat) (m : Timed C E) :
    (tickSlots call (ls ++ ls') m).1 = (tickSlots call ls' (tickSlots call ls m).1).1 := by
  induction ls generalizing m with
  | nil => rfl
  | cons l ls ih => exact ih _

theorem tickSlots_append_calls (ls ls' : List Nat) (m : Timed C E) :
    (tickSlots call (ls ++ ls') m).2 =
      (tickSlots call ls m).2 ++ (tickSlots call ls' (tickSlots call ls m).1).2 := by
  induction ls generalizing m with
  | nil => rfl
  | cons l ls ih =>
    rw [List.cons_append, tickSlots, tickSlots, ih]
    exact (List.append_assoc _ _ _).symm

/-- What the rounds of other slots keep. -/
theorem tickSlots_others {I : Timed C E → Prop} {l : Nat}
    (apart : ∀ m j, j ≠ l → I m → I (tickSlot call m j).1) {ls : List Nat} (absent : l ∉ ls)
    {m : Timed C E} (h : I m) : I (tickSlots call ls m).1 := by
  induction ls generalizing m with
  | nil => exact h
  | cons j ls ih =>
    rw [List.mem_cons, not_or] at absent
    exact ih absent.2 (apart m j (Ne.symm absent.1) h)

/-- Rounds of other slots that do not call `c`. -/
theorem tickSlots_apart {I : Timed C E → Prop} {c : C} {l : Nat}
    (apart : ∀ m j, j ≠ l → I m → I (tickSlot call m j).1 ∧ (tickSlot call m j).2 ≠ some c)
    {ls : List Nat} (absent : l ∉ ls) {m : Timed C E} (h : I m) :
    I (tickSlots call ls m).1 ∧ c ∉ (tickSlots call ls m).2 := by
  refine ⟨tickSlots_others (fun m j ne h => (apart m j ne h).1) absent h, ?_⟩
  induction ls generalizing m with
  | nil => exact List.not_mem_nil
  | cons j ls ih =>
    intro called
    rw [List.mem_cons, not_or] at absent
    obtain ⟨kept, other⟩ := apart m j (Ne.symm absent.1) h
    obtain here | later := List.mem_append.mp called
    · exact other (by simpa using here)
    · exact ih absent.2 kept later

/-- The rounds of a tick before the one of a slot, and those after it. -/
theorem range_split {l n : Nat} (inside : l < n) : ∃ front rest,
    List.range n = front ++ l :: rest ∧ l ∉ front ∧ l ∉ rest := by
  obtain ⟨front, rest, split⟩ := List.append_of_mem (List.mem_range.mpr inside)
  have once := @List.nodup_range n
  rw [split, List.nodup_middle, List.nodup_cons, List.mem_append, not_or] at once
  exact ⟨front, rest, split, once.1.1, once.1.2⟩

/-- Where the rounds of other slots change nothing, a tick does what the round of the slot does. -/
theorem tick_round {I J : Timed C E → Prop} {c : C} {l : Nat} {due : Prop}
    (before : ∀ m j, j ≠ l → I m → I (tickSlot call m j).1 ∧ (tickSlot call m j).2 ≠ some c)
    (own : ∀ m, I m → J (tickSlot call m l).1 ∧ ((tickSlot call m l).2 = some c ↔ due))
    (after : ∀ m j, j ≠ l → J m → J (tickSlot call m j).1 ∧ (tickSlot call m j).2 ≠ some c)
    (inside : l < m.timers.tab.length) (h : I m) :
    J (timerTim1IntrHandler call m).1 ∧ (c ∈ (timerTim1IntrHandler call m).2 ↔ due) := by
  obtain ⟨front, rest, split, absent, absent'⟩ := range_split inside
  obtain ⟨reached, others⟩ := tickSlots_apart before absent h
  obtain ⟨done, called⟩ := own _ reached
  obtain ⟨last, others'⟩ := tickSlots_apart after absent' done
  rw [timerTim1IntrHandler, split, tickSlots_append, tickSlots_append_calls]
  refine ⟨last, ?_⟩
  simp only [tickSlots, List.mem_append, others, others', false_or, or_false, Option.mem_toList,
    called]

end Timed

end Domotic
