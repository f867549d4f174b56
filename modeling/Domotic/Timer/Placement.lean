import Domotic.Timer.Pass
import Domotic.Timer.Periods

/-!
# Where a callback stands in the table

Two placements of the same callbacks have the same alarms. If a call is on the same side of its
caller in both, the ticks of the two are complete words of the same calls, and only the order of
these is left of the placement. A callback armed from inside a tick runs one tick earlier from a
slot behind the caller.
-/
namespace Domotic
open Library

universe u v w

variable {C : Type u} {E : Type v} {V : Type w} [DecidableEq C]

namespace Timed

/-- The machine after `k` ticks. -/
def afterTicks (call : C → Timed C E → Timed C E) (m : Timed C E) (k : Nat) : Timed C E :=
  m.after call (List.replicate k .tick)

/-- The callbacks that the next tick but `k` calls. -/
def calledAt (call : C → Timed C E → Timed C E) (m : Timed C E) (k : Nat) : List C :=
  (timerTim1IntrHandler call (m.afterTicks call k)).2

@[simp] theorem afterTicks_zero (call : C → Timed C E → Timed C E) (m : Timed C E) :
    m.afterTicks call 0 = m := rfl

theorem afterTicks_succ (call : C → Timed C E → Timed C E) (m : Timed C E) (k : Nat) :
    m.afterTicks call (k + 1) = (timerTim1IntrHandler call (m.afterTicks call k)).1 := by
  rw [afterTicks, List.replicate_succ', after_snoc]
  rfl

end Timed

variable {p : Script C E} {q : Script C V} {view : E → V} {m m' : Timed C E}

/-! ## Two placements -/

/-- Two placements of the same callbacks, with the same countdowns and periods. -/
structure SamePlacement (view : E → V) (m m' : Timed C E) : Prop where
  us_eq : m'.timers.us = m.timers.us
  length_eq : m'.timers.tab.length = m.timers.tab.length
  slots : (m'.timers.tab.filter fun s => s.callBack ≠ none).Perm
    (m.timers.tab.filter fun s => s.callBack ≠ none)
  view_eq : view m'.env = view m.env

omit [DecidableEq C] in
/-- The two placements have the same alarms. -/
theorem SamePlacement.clock_eq (h : SamePlacement view m m') :
    m'.timers.clock = m.timers.clock := by
  have busy : ∀ tab : List (CallbackTime C),
      alarmsOf (tab.filter fun s => s.callBack ≠ none) = alarmsOf tab := by
    intro tab
    rw [alarmsOf, alarmsOf, List.filterMap_filter]
    refine congrArg _ (List.filterMap_congr fun s _ => ?_)
    cases own : s.callBack <;> simp [CallbackTime.alarm, own]
  have alarms : alarmsOf m'.timers.tab = alarmsOf m.timers.tab := by
    rw [← busy, ← busy m.timers.tab]
    exact Multiset.coe_eq_coe.mpr (h.slots.filterMap _)
  rw [Timers.clock, Timers.clock, h.us_eq, h.length_eq, alarms]

/-- The two runs keep the same alarms, and the same view of the rest of the machine. -/
theorem afterTicks_clock (seen : p.Seen view q) (same : SamePlacement view m m')
    (once : m.timers.clock.Once) {n : Nat} {L : Nat → Layout C}
    (keeps : ∀ k < n, p.Keeps (L k) (m.afterTicks p.call k))
    (keeps' : ∀ k < n, p.Keeps (L k) (m'.afterTicks p.call k))
    (free : ∀ k < n, q.OrderFree (L k) (m.afterTicks p.call k).timers.clock
      (view (m.afterTicks p.call k).env)) {k : Nat} (within : k ≤ n) :
    (m'.afterTicks p.call k).timers.clock = (m.afterTicks p.call k).timers.clock ∧
      view (m'.afterTicks p.call k).env = view (m.afterTicks p.call k).env ∧
      (m.afterTicks p.call k).timers.clock.Once := by
  induction k with
  | zero => exact ⟨same.clock_eq, same.view_eq, once⟩
  | succ k ih =>
    obtain ⟨clock, sight, once⟩ := ih (Nat.le_of_succ_le within)
    obtain ⟨word, last, once'⟩ := tick_complete seen (keeps k within) once
    obtain ⟨word', last', -⟩ := tick_complete seen (keeps' k within) (clock ▸ once)
    rw [clock, sight] at word' last'
    have ends := (word.unique (free k within) word').2
    rw [last, last', Pass.mk.injEq] at ends
    rw [Timed.afterTicks_succ, Timed.afterTicks_succ]
    exact ⟨ends.1.symm, ends.2.2.symm, once'⟩

/-- The same callbacks are called in every tick. -/
theorem calledAt_perm (seen : p.Seen view q) (same : SamePlacement view m m')
    (once : m.timers.clock.Once) {n : Nat} {L : Nat → Layout C}
    (keeps : ∀ k < n, p.Keeps (L k) (m.afterTicks p.call k))
    (keeps' : ∀ k < n, p.Keeps (L k) (m'.afterTicks p.call k))
    (free : ∀ k < n, q.OrderFree (L k) (m.afterTicks p.call k).timers.clock
      (view (m.afterTicks p.call k).env)) {k : Nat} (within : k < n) :
    (m'.calledAt p.call k).Perm (m.calledAt p.call k) := by
  obtain ⟨clock, sight, once⟩ := afterTicks_clock seen same once keeps keeps' free within.le
  have word := (tick_complete seen (keeps k within) once).1
  have word' := (tick_complete seen (keeps' k within) (clock ▸ once)).1
  rw [clock, sight] at word'
  exact (word.unique (free k within) word').1.symm

/-! ## A callback armed inside a tick -/

/-- The machine before round `l` of the next tick but `k`. -/
def Timed.atRound (call : C → Timed C E → Timed C E) (m : Timed C E) (k l : Nat) : Timed C E :=
  ((m.afterTicks call k).tickSlots call (List.range l)).1

/-- The callback that round `l` of the next tick but `k` calls. -/
def Timed.calledBy (call : C → Timed C E → Timed C E) (m : Timed C E) (k l : Nat) : Option C :=
  ((m.atRound call k l).tickSlot call l).2

theorem atRound_succ (call : C → Timed C E → Timed C E) (m : Timed C E) (k l : Nat) :
    m.atRound call k (l + 1) = ((m.atRound call k l).tickSlot call l).1 := by
  rw [Timed.atRound, List.range_succ, Timed.tickSlots_append]
  rfl

theorem tickSlot_length (m : Timed C E) (l : Nat) :
    (m.tickSlot p.call l).1.timers.tab.length = m.timers.tab.length := by
  have calls : ∀ (t : Timers C) (ops : List (TimerCall C)),
      (t.execs ops).tab.length = t.tab.length := by
    intro t ops
    induction ops generalizing t with
    | nil => rfl
    | cons op ops ih => rw [Timers.execs_cons, ih, Timers.exec_length]
  obtain ⟨eq, -⟩ | ⟨s, c, -, -, -, eq⟩ | ⟨s, c, -, -, -, eq⟩ := Timed.tickSlot_cases p.call m l <;>
    rw [eq]
  · exact List.length_set
  · exact (calls _ _).trans List.length_set

theorem atRound_length (m : Timed C E) (k l : Nat) :
    (m.atRound p.call k l).timers.tab.length = (m.afterTicks p.call k).timers.tab.length :=
  Timed.tickSlots_invariant
    (I := fun m' => m'.timers.tab.length = (m.afterTicks p.call k).timers.tab.length)
    (fun m' l h => (tickSlot_length m' l).trans h) _ _ rfl

theorem afterTicks_length (m : Timed C E) (k : Nat) :
    (m.afterTicks p.call k).timers.tab.length = m.timers.tab.length := by
  induction k with
  | zero => rfl
  | succ k ih =>
    rw [Timed.afterTicks_succ]
    exact (atRound_length m k _).trans ih

/-- After its last round a tick is over. -/
theorem atRound_end (m : Timed C E) (k : Nat) :
    m.atRound p.call k m.timers.tab.length = m.atRound p.call (k + 1) 0 := by
  rw [← afterTicks_length m k, Timed.atRound, Timed.atRound, Timed.afterTicks_succ]
  rfl

variable {n i j : Nat} {d : C}

/-- A slot keeps its value over rounds that leave it alone. -/
theorem atRound_kept {k a b : Nat} (le : a ≤ b) (kept : ∀ l, a ≤ l → l < b →
      (m.atRound p.call k (l + 1)).timers.tab[j]? = (m.atRound p.call k l).timers.tab[j]?) :
    (m.atRound p.call k b).timers.tab[j]? = (m.atRound p.call k a).timers.tab[j]? := by
  induction b, le using Nat.le_induction with
  | base => rfl
  | succ b le ih =>
    rw [kept b le (Nat.lt_succ_self b)]
    exact ih fun l le' lt => kept l le' (Nat.lt_succ_of_lt lt)

/-- The round of a slot with more than one tick to go. -/
theorem calledBy_wait {k : Nat} {v : Int} (slot : (m.atRound p.call k j).timers.tab[j]? =
    some ⟨n, v, some d⟩) (more : 2 ≤ v) (small : v < 2147483648) :
    m.calledBy p.call k j = none ∧
      (m.atRound p.call k (j + 1)).timers.tab[j]? = some ⟨n, v - 1, some d⟩ := by
  have round := @Timed.tickSlot_wait _ _ p.call _ _ _ _ slot rfl more small
  obtain ⟨inside, -⟩ := List.getElem?_eq_some_iff.mp slot
  rw [Timed.calledBy, atRound_succ, round]
  exact ⟨rfl, List.getElem?_set_self inside⟩

/-- Before its own round a slot that was armed in round `i` of this tick, and that nothing else
touches, has as many more rounds to wait as ticks are left. -/
theorem armed_waiting (least : 1 ≤ n) (small : n < 2147483648) (caller : i < m.timers.tab.length)
    (armed : (m.atRound p.call 0 (i + 1)).timers.tab[j]? = some ⟨n, n, some d⟩) {first : Nat}
    (delay : first = if i < j then n - 1 else n)
    (untouched : ∀ k ≤ first, ∀ l < m.timers.tab.length, l ≠ j → (0 < k ∨ i < l) →
      (k < first ∨ l < j) →
      (m.atRound p.call k (l + 1)).timers.tab[j]? = (m.atRound p.call k l).timers.tab[j]?)
    {k : Nat} (later : 0 < k ∨ i < j) (within : k ≤ first) :
    (m.atRound p.call k j).timers.tab[j]? = some ⟨n, ↑(first - k) + 1, some d⟩ := by
  have inside : j < m.timers.tab.length := by
    obtain ⟨inside, -⟩ := List.getElem?_eq_some_iff.mp armed
    rwa [atRound_length] at inside
  induction k with
  | zero =>
    have behind : i < j := later.resolve_left (Nat.lt_irrefl 0)
    rw [if_pos behind] at delay
    rw [atRound_kept behind fun l le lt =>
      untouched 0 (Nat.zero_le _) l (by omega) (by omega) (.inr le) (.inr lt), armed]
    have whole : (↑(first - 0) + 1 : Int) = n := by omega
    rw [whole]
  | succ k ih =>
    have start : (m.atRound p.call (k + 1) j).timers.tab[j]? =
        (m.atRound p.call (k + 1) 0).timers.tab[j]? :=
      atRound_kept (Nat.zero_le j) fun l _ lt =>
        untouched (k + 1) within l (by omega) (by omega) (.inl k.succ_pos) (.inr lt)
    rw [start, ← atRound_end]
    by_cases earlier : 0 < k ∨ i < j
    · have slot := ih earlier (by omega)
      have bound : first - k < n := by split at delay <;> omega
      have next := (calledBy_wait slot (by omega) (by omega)).2
      rw [atRound_kept inside fun l le lt =>
        untouched k (by omega) l lt (by omega) (by omega) (.inl within), next]
      have one_less : (↑(first - k) + 1 - 1 : Int) = ↑(first - (k + 1)) + 1 := by omega
      rw [one_less]
    · -- the rest of the tick in which the slot was armed, after its round
      obtain ⟨rfl, before⟩ : k = 0 ∧ ¬ i < j := by omega
      rw [if_neg before] at delay
      rw [atRound_kept caller fun l le lt =>
        untouched 0 (by omega) l lt (by omega) (.inr le) (.inl within), armed]
      have whole : (↑(first - (0 + 1)) + 1 : Int) = n := by omega
      rw [whole]

/-- It runs in the tick `n - 1` ticks later if it stands behind `i`, else `n` ticks later. -/
theorem armed_calledBy (least : 1 ≤ n) (small : n < 2147483648) (caller : i < m.timers.tab.length)
    (armed : (m.atRound p.call 0 (i + 1)).timers.tab[j]? = some ⟨n, n, some d⟩) {first : Nat}
    (delay : first = if i < j then n - 1 else n)
    (untouched : ∀ k ≤ first, ∀ l < m.timers.tab.length, l ≠ j → (0 < k ∨ i < l) →
      (k < first ∨ l < j) →
      (m.atRound p.call k (l + 1)).timers.tab[j]? = (m.atRound p.call k l).timers.tab[j]?) :
    (∀ k, (0 < k ∨ i < j) → k < first → m.calledBy p.call k j = none) ∧
      m.calledBy p.call first j = some d := by
  have slot : ∀ {k}, (0 < k ∨ i < j) → k ≤ first →
      (m.atRound p.call k j).timers.tab[j]? = some ⟨n, ↑(first - k) + 1, some d⟩ :=
    armed_waiting least small caller armed delay untouched
  constructor
  · intro k later within
    have bound : first - k < n := by split at delay <;> omega
    exact (calledBy_wait (slot later within.le) (by omega) (by omega)).1
  · have reached : 0 < first ∨ i < j := by split at delay <;> omega
    have due : (↑(first - first) + 1 : Int) = 1 := by omega
    have now := slot reached le_rfl
    rw [due] at now
    rw [Timed.calledBy, Timed.tickSlot_fire now rfl rfl]

/-! ## Callbacks that keep their slots -/

/-- The callbacks of this table only start new periods, each on the side that the layout says. -/
structure Script.Still (p : Script C E) (L : Layout C) (owners : List (Option C)) (I : E → Prop) :
    Prop where
  kept : ∀ c e, some c ∈ owners → I e → I (p.effect c e)
  changes : ∀ (l : Nat) c e, owners[l]? = some (some c) → I e → ∀ op ∈ p.calls c e,
    (∃ period d, op = .change period d) ∧ (L.behind c op ↔ op.Behind owners l)
  before : ∀ (l : Nat) c d, owners[l]? = some (some c) → some d ∈ owners.drop (l + 1) →
    ¬ L.before d c

section still
variable {L : Layout C} {owners : List (Option C)} {I : E → Prop}

/-- Changes are on their sides, and move no slot. -/
theorem keeps_changes {l : Nat} {c : C} {ops : List (TimerCall C)}
    (changes : ∀ op ∈ ops, (∃ period d, op = .change period d) ∧
      (L.behind c op ↔ op.Behind owners l)) {t : Timers C} (table : t.owners = owners) :
    t.Keeps L l c ops ∧ (t.execs ops).owners = owners := by
  induction ops generalizing t with
  | nil => exact ⟨trivial, table⟩
  | cons op ops ih =>
    rw [List.forall_mem_cons] at changes
    obtain ⟨⟨⟨period, d, rfl⟩, side⟩, rest⟩ := changes
    have same : (t.exec (.change period d)).owners = owners :=
      (t.timerChange_owners period d).trans table
    obtain ⟨later, table'⟩ := ih rest same
    exact ⟨⟨trivial, table ▸ side, later⟩, table'⟩

theorem Script.Still.round (still : p.Still L owners I) (table : m.timers.owners = owners)
    (inv : I m.env) (l : Nat) :
    (∀ c, (m.tickSlot p.call l).2 = some c → m.timers.Keeps L l c (p.calls c m.env) ∧
      ∀ d, some d ∈ m.timers.owners.drop (l + 1) → ¬ L.before d c) ∧
    (m.tickSlot p.call l).1.timers.owners = owners ∧ I (m.tickSlot p.call l).1.env := by
  obtain ⟨eq, -⟩ | ⟨s, c, slot, -, -, eq⟩ | ⟨s, c, slot, busy, -, eq⟩ :=
    Timed.tickSlot_cases p.call m l <;> rw [eq]
  · exact ⟨fun _ none => (nomatch none), table, inv⟩
  · exact ⟨fun _ none => (nomatch none), (Timed.setSlot_owners slot _).trans table, inv⟩
  · have owner : owners[l]? = some (some c) := by
      rw [← table, Timers.owners_of_slot slot, busy]
    have changes := still.changes l c m.env owner inv
    refine ⟨?_, ?_, still.kept c m.env (List.mem_of_getElem? owner) inv⟩
    · rintro c' called
      obtain rfl := Option.some.inj called
      exact ⟨(keeps_changes changes table).1, fun d mem => still.before l c d owner (table ▸ mem)⟩
    · exact (keeps_changes changes ((Timed.setSlot_owners slot _).trans table)).2

theorem Script.Still.rounds (still : p.Still L owners I) (ls : List Nat) {m : Timed C E}
    (table : m.timers.owners = owners) (inv : I m.env) :
    p.KeepsFrom L ls m ∧ (m.tickSlots p.call ls).1.timers.owners = owners ∧
      I (m.tickSlots p.call ls).1.env := by
  induction ls generalizing m with
  | nil => exact ⟨trivial, table, inv⟩
  | cons l ls ih =>
    obtain ⟨here, table', inv'⟩ := still.round table inv l
    obtain ⟨later, table'', inv''⟩ := ih table' inv'
    exact ⟨⟨here, later⟩, table'', inv''⟩

/-- Every tick keeps to the layout. -/
theorem Script.Still.keeps (still : p.Still L owners I) (table : m.timers.owners = owners)
    (inv : I m.env) (k : Nat) : p.Keeps L (m.afterTicks p.call k) := by
  have reached : (m.afterTicks p.call k).timers.owners = owners ∧
      I (m.afterTicks p.call k).env := by
    induction k with
    | zero => exact ⟨table, inv⟩
    | succ k ih =>
      rw [Timed.afterTicks_succ]
      exact (still.rounds _ ih.1 ih.2).2
  exact (still.rounds _ reached.1 reached.2).1

end still

/-! ## The callbacks of a build -/

/-- What the calls of the callbacks depend on. -/
structure Settings where
  puissancePwm : Nat → Nat
  on : Nat → Bool
  puissanceTriac : Int
  timerTriackOn : Bool

def Env.settings (e : Env) : Settings :=
  ⟨e.puissancePwm, e.on, e.puissanceTriac, e.timerTriackOn⟩

namespace Settings

/-- Variables with these settings. -/
def env (b : Build) (s : Settings) : Env :=
  { Env.boot b 0 [] with
    puissancePwm := s.puissancePwm
    on := s.on
    puissanceTriac := s.puissanceTriac
    timerTriackOn := s.timerTriackOn }

/-- Between full power and off the gate pulse is delayed. -/
def Dimmed (s : Settings) : Prop := 0 < s.puissanceTriac ∧ s.puissanceTriac < Build.puissanceMax

instance (s : Settings) : Decidable s.Dimmed := inferInstanceAs (Decidable (_ ∧ _))

/-- What `timerPwm1` and `timerPwm2` make of the settings. -/
def timerPwm (n : Nat) (s : Settings) : Settings :=
  if s.puissancePwm n < 2 ∨ 98 < s.puissancePwm n then s
  else { s with on := Function.update s.on n !s.on n }

/-- What a callback makes of the settings. -/
def callBack (b : Build) (s : Settings) : CallBack → Settings
  | .timerZeroCross | .zeroCross =>
    if b.halfSin then s else { s with timerTriackOn := s.Dimmed }
  | .timerPwm1 => s.timerPwm 0
  | .timerPwm2 => s.timerPwm 1
  | .timerDisableTriack | .timerEnableTriack | .timerMesureSampleAdc => s

end Settings

/-- The callbacks of a build, as far as the settings show them. -/
def settingsScript (b : Build) : Script CallBack Settings where
  calls c s := callBackCalls b c (s.env b)
  effect c s := s.callBack b c

theorem timerPwm_settings (b : Build) (n : Nat) (c : CallBack) (m : App) :
    (timerPwm b n c m).env.settings = m.env.settings.timerPwm n := by
  change _ = if m.env.puissancePwm n < 2 ∨ 98 < m.env.puissancePwm n then m.env.settings else _
  unfold timerPwm
  dsimp only
  by_cases low : m.env.puissancePwm n < 2
  · rw [if_pos low, if_pos (.inl low)]
    rfl
  by_cases high : 98 < m.env.puissancePwm n
  · rw [if_neg low, if_pos high, if_pos (.inr high)]
    rfl
  rw [if_neg low, if_neg high, if_neg (not_or.mpr ⟨low, high⟩)]
  cases on : m.env.on n with
  | true =>
    rw [if_pos rfl]
    simp only [Env.settings, on]
    rfl
  | false =>
    rw [if_neg Bool.false_ne_true]
    simp only [Env.settings, on]
    rfl

theorem removeEnableTriack_settings (m : App) : (removeEnableTriack m).env.settings =
    { m.env.settings with timerTriackOn := false } := by
  unfold removeEnableTriack
  split
  · rfl
  · rename_i off
    simp only [Env.settings, Bool.not_eq_true] at off ⊢
    rw [off]

theorem delayEnableTriack_settings (m : App) (delay : Nat) :
    (delayEnableTriack m delay).env.settings = { m.env.settings with timerTriackOn := true } := by
  unfold delayEnableTriack
  split
  · rename_i on
    simp only [Env.settings, App.timerChange_env] at on ⊢
    rw [on]
  · rfl

theorem switchTli_settings (b : Build) (e : Env) : (switchTli b e).settings = e.settings := by
  unfold switchTli zeroCrossTli tli4970Enable
  split_ifs <;> rfl

theorem zeroCross_settings (b : Build) (m : App) :
    (zeroCross b m).env.settings = m.env.settings.callBack b .zeroCross := by
  by_cases half : b.halfSin = true
  · rw [zeroCross_half half, Settings.callBack, if_pos half]
    split <;> rfl
  have removed := removeEnableTriack_settings ⟨m.timers, switchTli b m.env⟩
  rw [switchTli_settings] at removed
  rw [zeroCross_whole half, Settings.callBack, if_neg half]
  by_cases full : Build.puissanceMax ≤ m.env.puissanceTriac
  · have off : ¬ m.env.settings.Dimmed := fun dimmed => absurd full (Int.not_le.mpr dimmed.2)
    rw [if_pos full, decide_eq_false off]
    exact removed
  by_cases positive : 0 < m.env.puissanceTriac
  · have dimmed : m.env.settings.Dimmed := ⟨positive, Int.not_le.mp full⟩
    rw [if_neg full, if_pos positive, decide_eq_true dimmed, delayEnableTriack_settings]
    exact congrArg (fun s : Settings => { s with timerTriackOn := true })
      (switchTli_settings b m.env)
  · have off : ¬ m.env.settings.Dimmed := fun dimmed => positive dimmed.1
    rw [if_neg full, if_neg positive, decide_eq_false off]
    exact removed

theorem callBack_settings (b : Build) (c : CallBack) (m : App) :
    (callBack b c m).env.settings = m.env.settings.callBack b c := by
  cases c with
  | timerZeroCross => exact zeroCross_settings b _
  | zeroCross => exact zeroCross_settings b m
  | timerDisableTriack | timerEnableTriack => rfl
  | timerPwm1 | timerPwm2 => exact timerPwm_settings b _ _ m
  | timerMesureSampleAdc =>
    simp only [callBack, timerMesureSampleAdc, mesure, tli4970Disable]
    split_ifs <;> rfl

theorem script_seen (b : Build) : (script b).Seen Env.settings (settingsScript b) where
  calls c e := by cases c <;> rfl
  effect c e := (callBack_settings b c ⟨Timers.timerInit 0 0, e⟩).symm

/-- The callback that the zero crossing gives a new period. -/
def gatePulse (b : Build) : CallBack :=
  if b.halfSin then .timerDisableTriack else .timerEnableTriack

/-- The place of a callback in a table in which the zero crossing stands before the gate pulse. -/
def CallBack.rank : CallBack → Nat
  | .timerZeroCross => 0
  | .zeroCross => 1
  | .timerEnableTriack => 2
  | .timerDisableTriack => 3
  | .timerPwm1 => 4
  | .timerPwm2 => 5
  | .timerMesureSampleAdc => 6

/-- The zero crossing stands before the gate pulse, the sampling anywhere. -/
def crossingFirst (b : Build) : Layout CallBack where
  behind c op := (c = .timerZeroCross ∨ c = .zeroCross) ∧ op.target = gatePulse b
  before c d := c.rank < d.rank ∧ d ≠ .timerMesureSampleAdc

/-- The gate pulse is not needed, or it is delayed in a slot of its own. -/
def Settings.Steady (b : Build) (s : Settings) : Prop :=
  b.halfSin = true ∨ s.Dimmed ∧ s.timerTriackOn = true

variable {b : Build}

theorem Settings.Steady.callBack {s : Settings} (steady : s.Steady b) (c : CallBack) :
    (s.callBack b c).Steady b := by
  have pwm : ∀ n, (s.timerPwm n).Steady b := by
    intro n
    unfold Settings.timerPwm
    split <;> exact steady
  have crossing : (s.callBack b .zeroCross).Steady b := by
    rw [Settings.callBack]
    by_cases half : b.halfSin = true
    · rwa [if_pos half]
    · obtain ⟨dimmed, -⟩ := steady.resolve_left half
      rw [if_neg half]
      exact .inr ⟨dimmed, decide_eq_true dimmed⟩
  cases c with
  | timerZeroCross | zeroCross => exact crossing
  | timerPwm1 | timerPwm2 => exact pwm _
  | timerDisableTriack | timerEnableTriack | timerMesureSampleAdc => exact steady

/-- A callback calls for the slots that it may touch. -/
theorem callBackCalls_touches (c : CallBack) (e : Env) :
    ∀ op ∈ callBackCalls b c e, op.target ∈ c.touches := by
  have crossing : ∀ op ∈ zeroCrossCalls b e, op.target ∈ CallBack.zeroCross.touches := by
    unfold zeroCrossCalls removeEnableTriackCalls delayEnableTriackCalls
    split_ifs <;> simp [CallBack.touches, TimerCall.target]
  have pwm : ∀ n self, ∀ op ∈ timerPwmCalls b n self e, op.target = self := by
    intro n self
    unfold timerPwmCalls
    dsimp only
    split_ifs <;> simp [TimerCall.target]
  intro op mem
  cases c with
  | timerZeroCross =>
    obtain rfl | mem := List.mem_cons.mp mem
    · exact List.mem_cons_self
    · exact List.mem_cons_of_mem _ (crossing op mem)
  | zeroCross => exact crossing op mem
  | timerPwm1 | timerPwm2 => exact List.mem_singleton.mpr (pwm _ _ op mem)
  | timerDisableTriack =>
    obtain rfl := List.mem_singleton.mp mem
    exact List.mem_cons_self
  | timerEnableTriack | timerMesureSampleAdc => cases mem

/-- In the steady state every call starts a period. -/
theorem steady_changes {e : Env} (steady : e.settings.Steady b) (c : CallBack) :
    ∀ op ∈ callBackCalls b c e, ∃ period, op = .change period op.target := by
  have crossing : ∀ op ∈ zeroCrossCalls b e, ∃ period, op = .change period op.target := by
    unfold zeroCrossCalls
    by_cases half : b.halfSin = true
    · rw [if_pos half]
      simp [TimerCall.target]
    · obtain ⟨⟨positive, below⟩, on⟩ := steady.resolve_left half
      have dimmed : ¬ Build.puissanceMax ≤ e.puissanceTriac := Int.not_le.mpr below
      have positive : 0 < e.puissanceTriac := positive
      have on' : e.timerTriackOn = true := on
      rw [if_neg half, if_neg dimmed, if_pos positive, delayEnableTriackCalls, if_pos on']
      simp [TimerCall.target]
  have pwm : ∀ n self, ∀ op ∈ timerPwmCalls b n self e,
      ∃ period, op = .change period op.target := by
    intro n self
    unfold timerPwmCalls
    dsimp only
    split_ifs <;> simp [TimerCall.target]
  intro op mem
  cases c with
  | timerZeroCross =>
    obtain rfl | mem := List.mem_cons.mp mem
    · exact ⟨10000, rfl⟩
    · exact crossing op mem
  | zeroCross => exact crossing op mem
  | timerDisableTriack =>
    obtain rfl := List.mem_singleton.mp mem
    exact ⟨1000000, rfl⟩
  | timerPwm1 | timerPwm2 => exact pwm _ _ op mem
  | timerEnableTriack | timerMesureSampleAdc => cases mem

theorem sampling_idle (b : Build) :
    (settingsScript b).Idle (crossingFirst b) .timerMesureSampleAdc where
  calls _ := rfl
  effect _ := rfl
  apart c := by cases c <;> simp [crossingFirst, CallBack.rank]
  alone c s op mem eq := by
    have touched := callBackCalls_touches c (s.env b) op mem
    rw [eq] at touched
    cases c <;> simp [CallBack.touches] at touched

theorem crossingFirst_free (k : Clock CallBack) (s : Settings) :
    (settingsScript b).OrderFree (crossingFirst b) k s := by
  apply orderFree_of_idle
  intro c d other
  by_cases sampling : c = .timerMesureSampleAdc ∨ d = .timerMesureSampleAdc
  · obtain rfl | rfl := sampling
    · exact .inr (.inr (.inl (sampling_idle b)))
    · exact .inr (.inr (.inr (sampling_idle b)))
  · rw [not_or] at sampling
    have ranks : c.rank < d.rank ∨ d.rank < c.rank := by
      revert other
      cases c <;> cases d <;> decide
    obtain before | before := ranks
    · exact .inl ⟨before, sampling.2⟩
    · exact .inr (.inl ⟨before, sampling.1⟩)

/-- The slots are in the order of the layout. -/
def CrossingFirst (b : Build) (owners : List (Option CallBack)) : Prop :=
  ∀ l < owners.length, ∀ c ∈ owners[l]?.join,
    (∀ d ∈ c.touches, (crossingFirst b).behind c (.change 0 d) ↔
      some d ∉ owners.take (l + 1) ∧ some d ∈ owners.drop (l + 1)) ∧
    ∀ o ∈ owners.drop (l + 1), ∀ d ∈ o, ¬ (crossingFirst b).before d c

/-- In the steady state every tick keeps to the order of the slots. -/
theorem CrossingFirst.still {owners : List (Option CallBack)} (h : CrossingFirst b owners) :
    (script b).Still (crossingFirst b) owners fun e => e.settings.Steady b where
  kept c e _ steady := by
    have after := (script_seen b).effect c e
    exact after ▸ steady.callBack c
  changes l c e slot steady op mem := by
    have touched := callBackCalls_touches c e op mem
    obtain ⟨period, eq⟩ := steady_changes steady c op mem
    obtain ⟨inside, -⟩ := List.getElem?_eq_some_iff.mp slot
    have side := (h l inside c (by rw [slot]; rfl)).1 op.target touched
    exact ⟨⟨period, op.target, eq⟩, by rw [eq]; exact side⟩
  before l c d slot mem := by
    obtain ⟨inside, -⟩ := List.getElem?_eq_some_iff.mp slot
    exact (h l inside c (by rw [slot]; rfl)).2 (some d) mem d rfl

/-! ## What is left of the placement -/

/-- If in every tick the calls of a callback are on the same sides of it in both placements, and
it makes no difference which of two callbacks is called first that the placements have in
different orders, the same callbacks are called in every tick. A callback armed inside a tick with
a period of `n` ticks, and left alone, first runs `n` ticks later from a slot that the tick has
passed, and one tick earlier from a slot behind the caller. -/
theorem placement_free (seen : p.Seen view q) :
    (∀ m m' n, SamePlacement view m m' → (m.timers.owners.filterMap id).Nodup →
      ∀ L : Nat → Layout C, (∀ k < n, p.Keeps (L k) (m.afterTicks p.call k)) →
      (∀ k < n, p.Keeps (L k) (m'.afterTicks p.call k)) →
      (∀ k < n, q.OrderFree (L k) (m.afterTicks p.call k).timers.clock
        (view (m.afterTicks p.call k).env)) →
      ∀ k < n, (m'.calledAt p.call k).Perm (m.calledAt p.call k)) ∧
    ∀ (m : Timed C E) (i j period first : Nat) (d : C), i < m.timers.tab.length →
      1 ≤ period / m.timers.us → period / m.timers.us < 2147483648 →
      (m.atRound p.call 0 (i + 1)).timers.tab[j]? =
        some ⟨period / m.timers.us, int32 ↑(period / m.timers.us), some d⟩ →
      (first = if i < j then period / m.timers.us - 1 else period / m.timers.us) →
      (∀ k ≤ first, ∀ l < m.timers.tab.length, l ≠ j → (0 < k ∨ i < l) → (k < first ∨ l < j) →
        (m.atRound p.call k (l + 1)).timers.tab[j]? = (m.atRound p.call k l).timers.tab[j]?) →
      (∀ k, (0 < k ∨ i < j) → k < first → m.calledBy p.call k j = none) ∧
        m.calledBy p.call first j = some d := by
  refine ⟨?_, ?_⟩
  · intro m m' n same once L keeps keeps' free k within
    exact calledAt_perm seen same (once_iff.mpr once) keeps keeps' free within
  · intro m i j period first d caller least small armed delay untouched
    rw [int32_of_range (by omega) (by omega)] at armed
    exact armed_calledBy least small caller armed delay untouched

/-- A machine whose gate pulse has a slot, with this power and this table. -/
def dimmedAt (b : Build) (power : Int) (tab : List (CallbackTime CallBack)) : App where
  timers := ⟨b.precisionTimer, tab⟩
  env := { Env.boot b 100 [65] with puissanceTriac := power, timerTriackOn := true }

/-- A socket whose zero crossing is due, with its callbacks in this order. -/
def socket (power : Int) (order : List CallBack) : App :=
  dimmedAt .prise power <| order.map fun
    | .timerZeroCross => ⟨476, 1, some .timerZeroCross⟩
    | .timerEnableTriack => ⟨238, 100, some .timerEnableTriack⟩
    | c => ⟨23, 5, some c⟩

/-- The sampling behind the zero crossing, where `user_init` puts it. -/
def socketOrder : List CallBack := [.timerZeroCross, .timerMesureSampleAdc, .timerEnableTriack]

/-- A radiator whose zero crossing is due, with the empty slot in front or behind. -/
def radiator (behind : Bool) : App :=
  let crossing : CallbackTime CallBack := ⟨1000, 1, some .zeroCross⟩
  let pulse : CallbackTime CallBack := ⟨90, 50, some .timerDisableTriack⟩
  let empty : CallbackTime CallBack := ⟨0, 0, none⟩
  dimmedAt .radiator 9000
    (if behind then [crossing, pulse, empty] else [empty, crossing, pulse])

theorem placement_free_callBack :
    (∀ k, ((socket 5000 socketOrder).calledAt (callBack .prise) k).Perm
        ((socket 5000 [.timerMesureSampleAdc, .timerZeroCross, .timerEnableTriack]).calledAt
          (callBack .prise) k)) ∧
      (∀ k, ((radiator true).calledAt (callBack .radiator) k).Perm
        ((radiator false).calledAt (callBack .radiator) k)) ∧
      (∀ k < 41, (socket 9117 socketOrder).calledBy (callBack .prise) k 2 = none) ∧
        (socket 9117 socketOrder).calledBy (callBack .prise) 41 2 = some .timerEnableTriack := by
  rw [callBack_script, callBack_script]
  obtain ⟨socket_free, delay⟩ := placement_free (script_seen .prise)
  have radiator_free := (placement_free (script_seen .radiator)).1
  refine ⟨?_, ?_, ?_⟩
  · intro k
    have steady : ∀ order, (socket 5000 order).env.settings.Steady .prise :=
      fun _ => .inr ⟨(by decide : (0 : Int) < 5000 ∧ 5000 < Build.puissanceMax), rfl⟩
    have order : CrossingFirst .prise (socket 5000 socketOrder).timers.owners := by
      unfold CrossingFirst crossingFirst
      decide
    have order' : CrossingFirst .prise (socket 5000
        [.timerMesureSampleAdc, .timerZeroCross, .timerEnableTriack]).timers.owners := by
      unfold CrossingFirst crossingFirst
      decide
    exact socket_free (socket 5000 [.timerMesureSampleAdc, .timerZeroCross, .timerEnableTriack])
      (socket 5000 socketOrder) (k + 1) ⟨rfl, rfl, by decide, rfl⟩ (by decide)
      (fun _ => crossingFirst .prise)
      (fun k _ => order'.still.keeps rfl (steady _) k)
      (fun k _ => order.still.keeps rfl (steady _) k)
      (fun k _ => crossingFirst_free _ _) k (Nat.lt_succ_self k)
  · intro k
    have half : ∀ behind, (radiator behind).env.settings.Steady .radiator := fun _ => .inl rfl
    have order : ∀ behind, CrossingFirst .radiator (radiator behind).timers.owners := by
      unfold CrossingFirst crossingFirst
      decide
    exact radiator_free (radiator false) (radiator true) (k + 1) ⟨rfl, rfl, by decide, rfl⟩
      (by decide) (fun _ => crossingFirst .radiator)
      (fun k _ => (order false).still.keeps rfl (half false) k)
      (fun k _ => (order true).still.keeps rfl (half true) k)
      (fun k _ => crossingFirst_free _ _) k (Nat.lt_succ_self k)
  · have untouched : ∀ k < 42, ∀ l < 3, (l = 2 ∨ k = 0 ∧ l = 0) ∨
        ((socket 9117 socketOrder).atRound (script .prise).call k (l + 1)).timers.tab[2]? =
          ((socket 9117 socketOrder).atRound (script .prise).call k l).timers.tab[2]? := by
      decide +kernel
    obtain ⟨waits, runs⟩ := delay (socket 9117 socketOrder) 0 2 883 41 .timerEnableTriack
      (by decide) (by decide) (by decide) (by decide +kernel) rfl
      fun k within l inside other later _ =>
        (untouched k (Nat.lt_succ_of_le within) l inside).resolve_left (by omega)
    exact ⟨fun k => waits k (.inr (by decide)), runs⟩

/-- One callback takes its period from what the other one writes. -/
def sharing : Script Bool Bool where
  calls c e := if c then [] else [.change (if e then 300 else 200) false]
  effect c e := c || e

/-- One callback that does nothing, and one that gives it a period of five ticks. -/
def restarting : Script Bool Unit where
  calls c _ := if c then [.change 500 false] else []
  effect _ _ := ()

/-- The zero crossing arms the gate pulse with 5000 microseconds, 238 ticks: behind the crossing
the pulse comes in the tick 237 ticks later, in front of it one tick after that. The order of two
callbacks that are due together counts as well, and so does that of two slots of one callback. -/
theorem not_placement_free :
    (SamePlacement id (socket 5000 socketOrder.reverse) (socket 5000 socketOrder) ∧
      5000 / (socket 5000 socketOrder).timers.us = 238 ∧
      .timerEnableTriack ∈ (socket 5000 socketOrder).calledAt (callBack .prise) 237 ∧
      .timerEnableTriack ∉ (socket 5000 socketOrder.reverse).calledAt (callBack .prise) 237 ∧
      .timerEnableTriack ∈ (socket 5000 socketOrder.reverse).calledAt (callBack .prise) 238) ∧
    (false ∈ Timed.calledAt sharing.call
        ⟨⟨100, [⟨9, 1, some false⟩, ⟨9, 1, some true⟩]⟩, false⟩ 2 ∧
      false ∉ Timed.calledAt sharing.call
        ⟨⟨100, [⟨9, 1, some true⟩, ⟨9, 1, some false⟩]⟩, false⟩ 2) ∧
    (false ∈ Timed.calledAt restarting.call
        ⟨⟨100, [⟨5, 9, some false⟩, ⟨5, 7, some false⟩, ⟨99, 1, some true⟩]⟩, ()⟩ 6 ∧
      false ∉ Timed.calledAt restarting.call
        ⟨⟨100, [⟨5, 7, some false⟩, ⟨5, 9, some false⟩, ⟨99, 1, some true⟩]⟩, ()⟩ 6) := by
  refine ⟨⟨⟨rfl, rfl, by decide, rfl⟩, rfl, ?_, ?_, ?_⟩, ?_, ?_⟩ <;> decide +kernel

end Domotic
