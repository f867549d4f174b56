import Domotic.Timer

/-!
# The calls a callback makes

A callback reads nothing from the table: it acts on it through three functions. A list of calls
therefore says all that it does there. A table whose slots count keeps counting under calls with
periods of at least one tick.
-/
namespace Domotic
open Library

universe u v

/-- A call of `timer_add_callback`, `timer_change` or `timer_remove_callback`. -/
inductive TimerCall (C : Type u) where
  | add (period : Nat) (callBack : C)
  | change (period : Nat) (callBack : C)
  | remove (callBack : C)
  deriving DecidableEq, Repr

variable {C : Type u} {E : Type v}

/-- What callbacks do: the calls they make and what becomes of the rest of the machine. They read
nothing from the table. -/
structure Script (C : Type u) (E : Type v) where
  calls : C → E → List (TimerCall C)
  effect : C → E → E

/-- The period of the call, if it has one, is at least one tick. -/
def TimerCall.OneTick (us : Nat) : TimerCall C → Prop
  | .add period _ | .change period _ => us ≤ period
  | .remove _ => True

/-- The period of the call, if it has one, fits the signed counter. -/
def TimerCall.Small : TimerCall C → Prop
  | .add period _ | .change period _ => period < 2147483648
  | .remove _ => True

/-- The call puts the callback into the table or takes it out. -/
def TimerCall.Moves (c : C) : TimerCall C → Prop
  | .add _ c' | .remove c' => c' = c
  | .change _ _ => False

/-- A slot in use is between its period and its next call. -/
def CallbackTime.Counting (s : CallbackTime C) : Prop :=
  s.callBack ≠ none → 1 ≤ s.cpt ∧ s.cpt ≤ s.period ∧ s.period < 2147483648

/-- Every slot in use is between its period and its next call. -/
def Timers.Counting (t : Timers C) : Prop := ∀ s ∈ t.tab, s.Counting

theorem mem_replaceF {α : Type u} {f : α → Option α} {xs : List α} {b : α}
    (mem : b ∈ xs.replaceF f) : b ∈ xs ∨ ∃ a ∈ xs, f a = some b := by
  obtain ⟨i, at_i⟩ := List.mem_iff_getElem?.mp mem
  obtain same | ⟨a, b', slot, hit, replaced⟩ := getElem?_replaceF f xs i
  · exact .inl (List.mem_of_getElem? (same ▸ at_i))
  · obtain rfl := Option.some.inj (replaced.symm.trans at_i)
    exact .inr ⟨a, List.mem_of_getElem? slot, hit⟩

/-- A period just set. -/
theorem counting_fresh {us period : Nat} (positive : 0 < us) (tick : us ≤ period)
    (small : period < 2147483648) (o : Option C) :
    (⟨period / us, int32 ↑(period / us), o⟩ : CallbackTime C).Counting := by
  intro _
  have least : 1 ≤ period / us := (Nat.one_le_div_iff positive).mpr tick
  have most : period / us ≤ period := Nat.div_le_self period us
  have exact : int32 ↑(period / us) = ↑(period / us) := int32_of_range (by omega) (by omega)
  refine ⟨?_, ?_, ?_⟩ <;> dsimp only <;> omega

namespace Timers
variable [DecidableEq C] {t : Timers C}

/-- The table after a call. -/
def exec (t : Timers C) : TimerCall C → Timers C
  | .add period c => t.timerAddCallback period c
  | .change period c => t.timerChange period c
  | .remove c => t.timerRemoveCallback c

/-- The table after several calls. -/
def execs (t : Timers C) (calls : List (TimerCall C)) : Timers C := calls.foldl exec t

@[simp] theorem execs_nil (t : Timers C) : t.execs [] = t := rfl

@[simp] theorem execs_cons (t : Timers C) (op : TimerCall C) (ops : List (TimerCall C)) :
    t.execs (op :: ops) = (t.exec op).execs ops := rfl

@[simp] theorem exec_us (t : Timers C) (op : TimerCall C) : (t.exec op).us = t.us := by
  cases op <;> rfl

@[simp] theorem exec_length (t : Timers C) (op : TimerCall C) :
    (t.exec op).tab.length = t.tab.length := by
  cases op <;> exact List.length_replaceF

theorem Counting.exec (h : t.Counting) (positive : 0 < t.us) {op : TimerCall C}
    (tick : op.OneTick t.us) (small : op.Small) : (t.exec op).Counting := by
  intro s mem
  cases op with
  | add period c =>
    obtain old | ⟨s', -, taken⟩ := mem_replaceF mem
    · exact h s old
    · obtain rfl := Option.some.inj (Option.ite_none_right_eq_some.mp taken).2
      exact counting_fresh positive tick small (some c)
  | change period c =>
    obtain old | ⟨s', -, changed⟩ := mem_replaceF mem
    · exact h s old
    · obtain rfl := Option.some.inj (Option.ite_none_right_eq_some.mp changed).2
      exact counting_fresh positive tick small s'.callBack
  | remove c =>
    obtain old | ⟨s', -, removed⟩ := mem_replaceF mem
    · exact h s old
    · obtain rfl := Option.some.inj (Option.ite_none_right_eq_some.mp removed).2
      exact fun busy => absurd rfl busy

theorem Counting.execs {ops : List (TimerCall C)} (h : t.Counting) (positive : 0 < t.us)
    (tick : ∀ op ∈ ops, op.OneTick t.us) (small : ∀ op ∈ ops, op.Small) :
    (t.execs ops).Counting := by
  induction ops generalizing t with
  | nil => exact h
  | cons op ops ih =>
    rw [List.forall_mem_cons] at tick small
    apply ih (h.exec positive tick.1 small.1)
    · rwa [exec_us]
    · rw [exec_us]
      exact tick.2
    · exact small.2

/-- A call brings a callback into the table only by adding it. -/
theorem mem_owners_exec {op : TimerCall C} {c : C} (mem : some c ∈ (t.exec op).owners) :
    some c ∈ t.owners ∨ ∃ period, op = .add period c := by
  obtain ⟨s, inside, own⟩ := List.mem_map.mp mem
  cases op with
  | add period c' =>
    obtain old | ⟨s', -, taken⟩ := mem_replaceF inside
    · exact .inl (List.mem_map.mpr ⟨s, old, own⟩)
    · obtain rfl := Option.some.inj (Option.ite_none_right_eq_some.mp taken).2
      exact .inr ⟨period, by rw [Option.some.inj own]⟩
  | change period c' =>
    obtain old | ⟨s', old, changed⟩ := mem_replaceF inside
    · exact .inl (List.mem_map.mpr ⟨s, old, own⟩)
    · obtain rfl := Option.some.inj (Option.ite_none_right_eq_some.mp changed).2
      exact .inl (List.mem_map.mpr ⟨s', old, own⟩)
  | remove c' =>
    obtain old | ⟨s', -, removed⟩ := mem_replaceF inside
    · exact .inl (List.mem_map.mpr ⟨s, old, own⟩)
    · obtain rfl := Option.some.inj (Option.ite_none_right_eq_some.mp removed).2
      cases own

theorem mem_owners_execs {ops : List (TimerCall C)} {c : C} (mem : some c ∈ (t.execs ops).owners) :
    some c ∈ t.owners ∨ ∃ period, .add period c ∈ ops := by
  induction ops generalizing t with
  | nil => exact .inl mem
  | cons op ops ih =>
    obtain before | ⟨period, later⟩ := ih mem
    · obtain old | ⟨period, rfl⟩ := mem_owners_exec before
      · exact .inl old
      · exact .inr ⟨period, List.mem_cons_self⟩
    · exact .inr ⟨period, List.mem_cons_of_mem op later⟩

/-- Replacing entries by others than `a` leaves the places of `a` where they are. -/
theorem getElem?_replaceF_iff {α : Type u} {f : α → Option α} {a : α} (keep : f a = none)
    (new : ∀ x, f x ≠ some a) (xs : List α) (i : Nat) :
    (xs.replaceF f)[i]? = some a ↔ xs[i]? = some a := by
  obtain same | ⟨x, y, old, hit, replaced⟩ := getElem?_replaceF f xs i
  · rw [same]
  · rw [old, replaced, Option.some.injEq, Option.some.injEq]
    constructor
    · rintro rfl
      exact absurd hit (new x)
    · rintro rfl
      simp [keep] at hit

/-- A callback keeps its slots under calls that neither add nor remove it. -/
theorem owners_exec {op : TimerCall C} {c : C} (still : ¬ op.Moves c) (i : Nat) :
    (t.exec op).owners[i]? = some (some c) ↔ t.owners[i]? = some (some c) := by
  cases op with
  | add period c' =>
    rw [exec, timerAddCallback_owners]
    refine getElem?_replaceF_iff (by simp) (fun o taken => still ?_) _ i
    exact Option.some.inj (Option.some.inj (Option.ite_none_right_eq_some.mp taken).2)
  | change period c' => rw [exec, timerChange_owners]
  | remove c' =>
    rw [exec, timerRemoveCallback_owners]
    have other : some c ≠ some c' := fun eq => still (Option.some.inj eq).symm
    refine getElem?_replaceF_iff (by rw [if_neg other]) (fun o removed => ?_) _ i
    cases (Option.ite_none_right_eq_some.mp removed).2

theorem owners_execs {ops : List (TimerCall C)} {c : C} (still : ∀ op ∈ ops, ¬ op.Moves c)
    (i : Nat) :
    (t.execs ops).owners[i]? = some (some c) ↔ t.owners[i]? = some (some c) := by
  induction ops generalizing t with
  | nil => rfl
  | cons op ops ih =>
    rw [List.forall_mem_cons] at still
    rw [execs_cons, ih still.2]
    exact owners_exec still.1 i

end Timers

/-- A callback of the script. -/
def Script.call [DecidableEq C] (p : Script C E) (c : C) (m : Timed C E) : Timed C E :=
  ⟨m.timers.execs (p.calls c m.env), p.effect c m.env⟩

theorem counting_timerInit (slots us : Nat) : (Timers.timerInit slots us : Timers C).Counting := by
  intro s mem busy
  obtain rfl := List.eq_of_mem_replicate mem
  exact absurd rfl busy

/-- Counting down by one, or starting again from the period, keeps a slot counting. -/
theorem CallbackTime.Counting.next {s : CallbackTime C} (h : s.Counting) {c : C}
    (busy : s.callBack = some c) :
    0 ≤ int32 (s.cpt - 1) ∧
      (int32 (s.cpt - 1) ≠ 0 → ({ s with cpt := int32 (s.cpt - 1) } : CallbackTime C).Counting) ∧
      ({ s with cpt := int32 s.period } : CallbackTime C).Counting := by
  obtain ⟨least, most, small⟩ := h (by simp [busy])
  have exact : int32 (s.cpt - 1) = s.cpt - 1 := int32_of_range (by omega) (by omega)
  have whole : int32 ↑s.period = s.period := int32_of_range (by omega) (by omega)
  rw [exact, whole]
  refine ⟨by omega, fun waits _ => ⟨?_, ?_, small⟩, fun _ => ⟨?_, ?_, small⟩⟩
  all_goals dsimp only
  all_goals omega

namespace Timed
variable {call : C → Timed C E → Timed C E} {m : Timed C E} {l : Nat}

theorem counting_setSlot (h : m.timers.Counting) {s : CallbackTime C} (counting : s.Counting) :
    (m.setSlot l s).timers.Counting := by
  intro s' mem
  obtain old | rfl := List.mem_or_eq_of_mem_set mem
  · exact h s' old
  · exact counting

/-- A round keeps the slots counting, if the callback does. -/
theorem counting_tickSlot (h : m.timers.Counting)
    (keep : ∀ c m', some c ∈ m.timers.owners → m'.env = m.env → m'.timers.us = m.timers.us →
      m'.timers.Counting → (call c m').timers.Counting) :
    (tickSlot call m l).1.timers.Counting := by
  obtain ⟨same, -⟩ | ⟨s, c, slot, busy, waits, counted⟩ | ⟨s, c, slot, busy, due, fired⟩ :=
    tickSlot_cases call m l
  · rw [same]
    exact h
  · rw [counted]
    have counting := (h s (List.mem_of_getElem? slot)).next busy
    exact counting_setSlot h (counting.2.1 waits)
  · rw [fired]
    have counting := (h s (List.mem_of_getElem? slot)).next busy
    have owned := List.mem_of_getElem? (Timers.owners_of_slot slot)
    exact keep c _ (busy ▸ owned) rfl rfl (counting_setSlot h counting.2.2)

end Timed

end Domotic
