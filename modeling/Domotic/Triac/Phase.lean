import Domotic.Timer.Periods
import Domotic.Triac.Gate

/-!
# The phase of the gate

How a socket dims: `ZeroCross` takes the gate down and puts `timerEnableTriack` into the table, and
the gate goes up when its countdown is over. Its slot stands behind the one of `timerZeroCross`, so
the countdown starts in the tick of the zero crossing itself. The level of the gate is therefore a
function of the power at the last zero crossing and of the ticks since then, whatever interrupts
and messages come in between.
-/
namespace Domotic
open Library

variable {b : Build} {m m' : App} {w : Int} {k l : Nat}

/-- The ticks between a zero crossing and the gate pulse. -/
def gateDelay (w : Int) : Nat := ((10000 - w) / 21).toNat

/-- The level of the gate `k` ticks after a zero crossing with power `w`. -/
def gateLevel (w : Int) (k : Nat) : Bool :=
  if Build.puissanceMax ≤ w then true
  else if 0 < w then decide (gateDelay w ≤ k + 1)
  else false

/-! ## The commanded power -/

/-- Off, full, or a value of the scale. -/
def Level (w : Int) : Prop := w = 0 ∨ w = Build.puissanceMax ∨ 983 ≤ w ∧ w ≤ 9117

theorem triackCommand_level (data : Nat → UInt8) {e : Env} (h : Level e.puissanceTriac) :
    (triackCommand b data e).Ensures fun e' => Level e'.puissanceTriac := by
  have off : Level (e.setPower 0).puissanceTriac := .inl rfl
  have preset : Level (e.setPower b.triackOnOffPuissance).puissanceTriac := by
    cases b <;> simp [Level, Build.puissanceMax]
  refine Reads.ensures_bind fun _ => Reads.ensures_ite (Reads.ensures_ite ?_ ?_)
    (Reads.ensures_pure h)
  · exact Reads.ensures_bind fun _ =>
      Reads.ensures_ite (Reads.ensures_pure off) (Reads.ensures_pure preset)
  · refine Reads.ensures_read ?_
    by_cases positive : 0 < data 1
    · rw [if_pos positive]
      refine Reads.ensures_ite (Reads.ensures_pure preset) (Reads.ensures_read ?_)
      by_cases full : 100 ≤ data 1
      · rw [if_pos full]
        exact Reads.ensures_pure (.inr (.inl rfl))
      · rw [if_neg full]
        refine Reads.ensures_read (Reads.ensures_pure (.inr (.inr ?_)))
        have below : (data 1).toNat < 100 := UInt8.lt_iff_toNat_lt.mp (UInt8.not_le.mp full)
        have above : 0 < (data 1).toNat := UInt8.lt_iff_toNat_lt.mp positive
        simp only [Env.setPower_puissanceTriac, triacScall, triacMin]
        omega
    · rw [if_neg positive]
      exact Reads.ensures_pure off

theorem mqttDataTriack_level (data : Nat → UInt8) {e : Env} (h : Level e.puissanceTriac) :
    (mqttDataTriack b data e).Ensures fun e' => Level e'.puissanceTriac := by
  refine Reads.ensures_seq (triackCommand_level data h) fun e' h' =>
    Reads.ensures_bind fun _ => Reads.ensures_ite (Reads.ensures_ite ?_ ?_) (Reads.ensures_pure h')
  · exact Reads.ensures_pure (.inl rfl)
  · exact Reads.ensures_pure (.inr (.inl rfl))

theorem step_level (prise : b.IsPrise) {ev : Event} (h : step b m ev = some m')
    (level : Level m.env.puissanceTriac) : Level m'.env.puissanceTriac := by
  cases ev with
  | tick io =>
    obtain rfl := Option.some.inj h
    have same : (tick b io m).1.env.puissanceTriac = m.env.puissanceTriac :=
      congrArg Control.puissanceTriac (tick_control b io m)
    rwa [same]
  | irq status =>
    obtain ⟨-, rfl⟩ | ⟨store, -⟩ := irq_cases h
    · unfold afterCrossing
      split
      · refine (congrArg Level ?_).mpr level
        exact congrArg Control.puissanceTriac
          (zeroCrossIRQ_control b { m with env := { m.env with zeroCrossIntr := false } })
      · exact level
    · obtain rfl | rfl := prise <;> simp at store
  | mqttData data dataLen =>
    obtain rfl := Option.some.inj h
    obtain rfl | rfl := prise
    · exact mqttDataTriack_level (b := .prise) data level []
    · exact mqttDataTriack_level (b := .priseV2) data level []
  | timeoutStore => obtain rfl | rfl := prise <;> cases h

/-! ## What happens between two crossings -/

/-- The part of a socket that decides the level of the gate. -/
structure Same (m m' : App) : Prop where
  table : GateTable m'
  us : m'.timers.us = m.timers.us
  flag : m'.env.timerTriackOn = m.env.timerTriackOn
  gate : m'.env.gpioOut bitTriac = m.env.gpioOut bitTriac
  slot : m'.timers.tab[2]? = m.timers.tab[2]?

theorem GateTable.owner (h : GateTable m) {s : CallbackTime CallBack}
    (slot : m.timers.tab[l]? = some s) :
    l = 0 ∧ s.callBack = some .timerZeroCross ∨ l = 1 ∧ s.callBack = some .timerMesureSampleAdc ∨
      l = 2 ∧ s.callBack = if m.env.timerTriackOn then some .timerEnableTriack else none := by
  have owner := Timers.owners_of_slot slot
  rw [show m.timers.owners = gateTable m.env.timerTriackOn from h] at owner
  match l, owner with
  | 0, owner => exact .inl ⟨rfl, (Option.some.inj owner).symm⟩
  | 1, owner => exact .inr (.inl ⟨rfl, (Option.some.inj owner).symm⟩)
  | 2, owner => exact .inr (.inr ⟨rfl, (Option.some.inj owner).symm⟩)
  | l + 3, owner => cases owner

/-- Only the first slot belongs to the zero crossing. -/
theorem GateTable.first (h : GateTable m) {s : CallbackTime CallBack}
    (slot : m.timers.tab[l]? = some s) (own : s.callBack = some .timerZeroCross) : l = 0 := by
  obtain ⟨zero, -⟩ | ⟨-, other⟩ | ⟨-, other⟩ := h.owner slot
  · exact zero
  · rw [own] at other
    cases other
  · rw [own] at other
    split at other
    · cases other
    · cases other

/-- A round of another slot that is no zero crossing. -/
theorem tickSlot_same (h : GateTable m) (other : l ≠ 2)
    (quiet : (m.tickSlot (callBack b) l).2 ≠ some .timerZeroCross) :
    Same m (m.tickSlot (callBack b) l).1 := by
  obtain ⟨eq, -⟩ | ⟨s, c, slot, own, -, eq⟩ | ⟨s, c, slot, own, -, eq⟩ :=
    Timed.tickSlot_cases (callBack b) m l
  · rw [eq]
    exact ⟨h, rfl, rfl, rfl, rfl⟩
  · rw [eq]
    exact ⟨(Timed.setSlot_owners slot _).trans h, rfl, rfl, rfl, List.getElem?_set_ne other⟩
  · have kept : (m.setSlot l { s with cpt := int32 s.period }).timers.tab[2]? =
        m.timers.tab[2]? := List.getElem?_set_ne other
    rw [eq] at quiet ⊢
    obtain rfl : c = .timerMesureSampleAdc := by
      obtain ⟨-, zero⟩ | ⟨-, sample⟩ | ⟨two, -⟩ := h.owner slot
      · rw [own] at zero
        exact absurd zero quiet
      · rw [own] at sample
        exact Option.some.inj sample
      · exact absurd two other
    obtain ⟨flag, gate⟩ := timerMesureSampleAdc_gate (m.setSlot l { s with cpt := int32 s.period })
    have timers := timerMesureSampleAdc_timers (m.setSlot l { s with cpt := int32 s.period })
    refine ⟨?_, (congrArg Timers.us timers).trans rfl, flag, gate, ?_⟩
    · rw [GateTable]
      exact ((congrArg Timers.owners timers).trans
        ((Timed.setSlot_owners slot _).trans h)).trans (congrArg gateTable flag.symm)
    · exact (congrArg (fun t : Timers CallBack => t.tab[2]?) timers).trans kept

/-- The countdown of the gate has run for `j` ticks. -/
structure GateCounts (w : Int) (j : Nat) (m : App) : Prop where
  table : GateTable m
  us : m.timers.us = 21
  full : Build.puissanceMax ≤ w → m.env.timerTriackOn = false ∧ m.env.gpioOut bitTriac = true
  off : w ≤ 0 → m.env.timerTriackOn = false ∧ m.env.gpioOut bitTriac = false
  dimmed : 0 < w → w < Build.puissanceMax → m.env.timerTriackOn = true ∧
    m.env.gpioOut bitTriac = decide (gateDelay w ≤ j) ∧
    (j < gateDelay w → ∃ s, m.timers.tab[2]? = some s ∧ s.cpt = (gateDelay w : Int) - j)

theorem GateCounts.same {j : Nat} (h : GateCounts w j m) (same : Same m m') :
    GateCounts w j m' := by
  refine ⟨same.table, same.us.trans h.us, fun above => ?_, fun below => ?_, fun positive less => ?_⟩
  · rw [same.flag, same.gate]
    exact h.full above
  · rw [same.flag, same.gate]
    exact h.off below
  · rw [same.flag, same.gate, same.slot]
    exact h.dimmed positive less

theorem gateDelay_le (positive : 0 < w) : gateDelay w ≤ 476 := by
  unfold gateDelay
  omega

/-- A round of the slot of the gate. -/
theorem GateCounts.round {j : Nat} (h : GateCounts w j m) :
    GateCounts w (j + 1) (m.tickSlot (callBack b) 2).1 := by
  obtain ⟨eq, empty⟩ | ⟨s, c, slot, own, alive, eq⟩ | ⟨s, c, slot, own, due, eq⟩ :=
    Timed.tickSlot_cases (callBack b) m 2
  · -- nobody waits: the gate is off or fully on
    rw [eq]
    refine ⟨h.table, h.us, h.full, h.off, fun positive less => ?_⟩
    obtain ⟨flag, -, -⟩ := h.dimmed positive less
    have owner : m.timers.owners[2]? = some (some .timerEnableTriack) := by
      rw [show m.timers.owners = gateTable m.env.timerTriackOn from h.table, flag]
      rfl
    unfold Timers.owners at owner
    rw [List.getElem?_map] at owner
    obtain ⟨s, slot, own⟩ := Option.map_eq_some_iff.mp owner
    rw [empty s slot] at own
    cases own
  · rw [eq]
    refine ⟨(Timed.setSlot_owners slot _).trans h.table, h.us, h.full, h.off,
      fun positive less => ?_⟩
    obtain ⟨flag, gate, counting⟩ := h.dimmed positive less
    have short := gateDelay_le positive
    have later : j < gateDelay w →
        j + 1 < gateDelay w ∧ int32 (s.cpt - 1) = gateDelay w - (j + 1) := by
      intro before
      obtain ⟨s', slot', cpt⟩ := counting before
      obtain rfl := Option.some.inj (slot.symm.trans slot')
      have next : int32 (s.cpt - 1) = gateDelay w - (j + 1) := by
        rw [int32_of_range (by omega) (by omega), cpt]
        omega
      refine ⟨?_, next⟩
      rw [next] at alive
      omega
    have inside : 2 < m.timers.tab.length := (List.getElem?_eq_some_iff.mp slot).1
    refine ⟨flag, ?_, fun before => ?_⟩
    · refine gate.trans (decide_eq_decide.mpr ⟨fun le => Nat.le_succ_of_le le, fun le => ?_⟩)
      by_contra more
      have := (later (Nat.lt_of_not_le more)).1
      omega
    · exact ⟨{ s with cpt := int32 (s.cpt - 1) }, List.getElem?_set_self inside,
        (later (by omega)).2.trans (by push_cast; ring)⟩
  · have waits : s.callBack = if m.env.timerTriackOn then some .timerEnableTriack else none := by
      obtain ⟨zero, -⟩ | ⟨one, -⟩ | ⟨-, waits⟩ := h.table.owner slot
      · cases zero
      · cases one
      · exact waits
    rw [own] at waits
    have flag : m.env.timerTriackOn = true := by
      cases on : m.env.timerTriackOn with
      | true => rfl
      | false =>
        rw [on] at waits
        cases waits
    rw [flag] at waits
    obtain rfl : c = .timerEnableTriack := Option.some.inj waits
    rw [eq]
    refine ⟨(Timed.setSlot_owners slot _).trans h.table, h.us, fun above => ?_, fun below => ?_,
      fun positive less => ⟨flag, ?_, fun before => ?_⟩⟩
    · rw [(h.full above).1] at flag
      cases flag
    · rw [(h.off below).1] at flag
      cases flag
    all_goals
      obtain ⟨-, -, counting⟩ := h.dimmed positive less
      have short := gateDelay_le positive
      have last : gateDelay w ≤ j + 1 := by
        by_contra more
        obtain ⟨s', slot', cpt⟩ := counting (by omega)
        obtain rfl := Option.some.inj (slot.symm.trans slot')
        rw [int32_of_range (by omega) (by omega), cpt] at due
        omega
    · have raised : (timerEnableTriack (m.setSlot 2
          { s with cpt := int32 s.period })).env.gpioOut bitTriac = true := by
        simp [timerEnableTriack]
      exact raised.trans (decide_eq_true last).symm
    · omega

/-! ## A zero crossing -/

/-- The slot of the gate gets the delay as a number of ticks. -/
theorem delayEnableTriack_slot_two (h : GateTable m) (us : m.timers.us = 21) (delay : Nat)
    (small : delay < 2147483648) :
    (delayEnableTriack m delay).env.timerTriackOn = true ∧
      ∃ s, (delayEnableTriack m delay).timers.tab[2]? = some s ∧
        s.cpt = ((delay / 21 : Nat) : Int) := by
  have cpt : int32 ↑(delay / m.timers.us) = ↑(delay / 21) := by
    rw [us]
    exact int32_of_range (by omega) (by omega)
  have owners : m.timers.owners = gateTable m.env.timerTriackOn := h
  unfold delayEnableTriack
  cases flag : m.env.timerTriackOn with
  | true =>
    rw [flag] at owners
    obtain ⟨s, slot, own⟩ : ∃ s, m.timers.tab[2]? = some s ∧
        s.callBack = some .timerEnableTriack := by
      refine Option.map_eq_some_iff.mp ?_
      rw [← List.getElem?_map]
      exact congrArg (·[2]?) owners
    refine ⟨flag, _, Timers.timerChange_first m.timers delay .timerEnableTriack 2 slot own ?_, cpt⟩
    intro j before
    rw [owners]
    interval_cases j <;> simp [gateTable]
  | false =>
    rw [flag] at owners
    obtain ⟨s, slot, own⟩ : ∃ s, m.timers.tab[2]? = some s ∧ s.callBack = none := by
      refine Option.map_eq_some_iff.mp ?_
      rw [← List.getElem?_map]
      exact congrArg (·[2]?) owners
    refine ⟨rfl, _, getElem?_replaceF_first slot (if_pos own) ?_, cpt⟩
    intro j before s' slot'
    have owner := Timers.owners_of_slot slot'
    rw [owners] at owner
    refine if_neg fun empty => ?_
    rw [empty] at owner
    interval_cases j <;> cases owner

theorem timerZeroCross_counts (prise : b.IsPrise) (table : GateTable m) (us : m.timers.us = 21)
    (dimmed : m.env.Dimmed) :
    GateCounts m.env.puissanceTriac 0 (timerZeroCross b m) := by
  let z : App := { m.timerChange 10000 .timerZeroCross with
    env := { m.env with zeroCrossIntr := true } }
  obtain ⟨flag, -, eq⟩ := zeroCross_prise prise z
  have table' : GateTable { z with env := zeroCrossTli z.env } := by
    rw [GateTable, flag]
    exact (Timers.timerChange_owners _ _ _).trans table
  obtain ⟨removed, off⟩ := removeEnableTriack_table table'
  have removed_us : (removeEnableTriack { z with env := zeroCrossTli z.env }).timers.us = 21 := by
    unfold removeEnableTriack
    split <;> exact us
  have eq : timerZeroCross b m = _ := eq
  have power : z.env.puissanceTriac = m.env.puissanceTriac := rfl
  rw [eq, power]
  split_ifs with full partly
  · refine ⟨removed, removed_us, fun _ => ⟨off, by simp⟩, fun below => ?_, fun _ less => ?_⟩
    · simp only [Build.puissanceMax] at full
      omega
    · omega
  · have most := dimmed (by omega)
    have delay : uint32 (10000 - m.env.puissanceTriac) / 21 = gateDelay m.env.puissanceTriac := by
      rw [uint32_eq, gateDelay]
      omega
    have small : uint32 (10000 - m.env.puissanceTriac) < 2147483648 := by
      rw [uint32_eq]
      omega
    have lowered : GateTable (App.setOut { z with env := zeroCrossTli z.env } bitTriac false) :=
      table'
    obtain ⟨on, s, slot, cpt⟩ := delayEnableTriack_slot_two lowered us _ small
    have gate : (delayEnableTriack (App.setOut { z with env := zeroCrossTli z.env } bitTriac false)
        (uint32 (10000 - m.env.puissanceTriac))).env.gpioOut bitTriac = false := by
      unfold delayEnableTriack
      split <;> simp
    refine ⟨delayEnableTriack_table lowered _, ?_, fun above => absurd above full,
      fun below => ?_, fun _ _ => ⟨on, ?_, fun _ => ⟨s, slot, ?_⟩⟩⟩
    · unfold delayEnableTriack
      split <;> exact us
    · omega
    · have late : ¬ gateDelay m.env.puissanceTriac ≤ 0 := by
        unfold gateDelay
        omega
      rw [gate, decide_eq_false late]
    · rw [cpt, delay]
      simp
  · exact ⟨removed, removed_us, fun above => absurd above full, fun _ => ⟨off, by simp⟩,
      fun positive => absurd positive partly⟩

/-! ## One tick -/

/-- Only the round of the first slot can be a zero crossing. -/
theorem GateTable.crossing_first (h : GateTable m)
    (called : (m.tickSlot (callBack b) l).2 = some .timerZeroCross) : l = 0 := by
  obtain ⟨eq, -⟩ | ⟨s, c, slot, own, -, eq⟩ | ⟨s, c, slot, own, -, eq⟩ :=
    Timed.tickSlot_cases (callBack b) m l
  · rw [eq] at called
    cases called
  · rw [eq] at called
    cases called
  · rw [eq] at called
    obtain rfl := Option.some.inj called
    exact h.first slot own

/-- The rounds of a tick: the first one tells whether the tick is a zero crossing, and the second
one leaves the gate alone. -/
theorem tick_rounds (prise : b.IsPrise) (io : Inputs) (table : GateTable m) :
    let m₀ : App := { m with env := { m.env with inputs := io } }
    let m₁ := (m₀.tickSlot (callBack b) 0).1
    let m₂ := (m₁.tickSlot (callBack b) 1).1
    (tick b io m).1 = (m₂.tickSlot (callBack b) 2).1 ∧ GateTable m₁ ∧ Same m₁ m₂ ∧
      (.timerZeroCross ∈ (tick b io m).2 ↔
        (m₀.tickSlot (callBack b) 0).2 = some .timerZeroCross) := by
  intro m₀ m₁ m₂
  have length : m.timers.tab.length = 3 := by
    have owners := congrArg List.length
      (show m.timers.owners = gateTable m.env.timerTriackOn from table)
    unfold Timers.owners at owners
    rwa [List.length_map] at owners
  have rounds : tick b io m =
      Timed.tickSlots (callBack b) (List.range m.timers.tab.length) m₀ := rfl
  have table₁ : GateTable m₁ := (tickSlot_table prise 0 (show GateTable m₀ from table)).1
  have quiet₁ : (m₁.tickSlot (callBack b) 1).2 ≠ some .timerZeroCross := fun called =>
    absurd (table₁.crossing_first called) one_ne_zero
  have same := tickSlot_same table₁ (by decide : 1 ≠ 2) quiet₁
  have quiet₂ : (m₂.tickSlot (callBack b) 2).2 ≠ some .timerZeroCross := fun called =>
    absurd (same.table.crossing_first called) two_ne_zero
  rw [rounds, length]
  refine ⟨rfl, table₁, same, ?_⟩
  have calls : (Timed.tickSlots (callBack b) (List.range 3) m₀).2 =
      (m₀.tickSlot (callBack b) 0).2.toList ++ ((m₁.tickSlot (callBack b) 1).2.toList ++
        ((m₂.tickSlot (callBack b) 2).2.toList ++ [])) := rfl
  rw [calls]
  simp only [List.mem_append, Option.mem_toList, List.not_mem_nil, or_false, quiet₁, quiet₂]

/-- The round of a zero crossing. -/
theorem crossing_round (crossing : (m.tickSlot (callBack b) 0).2 = some .timerZeroCross) :
    ∃ s, m.timers.tab[0]? = some s ∧ (m.tickSlot (callBack b) 0).1 =
      timerZeroCross b (m.setSlot 0 { s with cpt := int32 s.period }) := by
  obtain ⟨eq, -⟩ | ⟨s, c, slot, -, -, eq⟩ | ⟨s, c, slot, -, -, eq⟩ :=
    Timed.tickSlot_cases (callBack b) m 0
  · rw [eq] at crossing
    cases crossing
  · rw [eq] at crossing
    cases crossing
  · rw [eq] at crossing
    obtain rfl := Option.some.inj crossing
    exact ⟨s, slot, congrArg Prod.fst eq⟩

/-- A tick counts on, or is a zero crossing from which the countdown starts. -/
theorem tick_counts (prise : b.IsPrise) (io : Inputs) (table : GateTable m)
    (us : m.timers.us = 21) (dimmed : m.env.Dimmed) :
    (.timerZeroCross ∉ (tick b io m).2 →
        ∀ j, GateCounts w j m → GateCounts w (j + 1) (tick b io m).1) ∧
      (.timerZeroCross ∈ (tick b io m).2 → GateCounts m.env.puissanceTriac 1 (tick b io m).1) := by
  obtain ⟨rounds, -, same₁, first⟩ := tick_rounds prise io table
  have table₀ : GateTable { m with env := { m.env with inputs := io } } := table
  rw [rounds, first]
  refine ⟨fun quiet j counts => ?_, fun crossing => ?_⟩
  · have same₀ := tickSlot_same table₀ (by decide : 0 ≠ 2) quiet
    have counts₀ : GateCounts w j { m with env := { m.env with inputs := io } } :=
      ⟨counts.table, counts.us, counts.full, counts.off, counts.dimmed⟩
    exact ((counts₀.same same₀).same same₁).round
  · obtain ⟨s, slot, eq⟩ := crossing_round crossing
    have start := timerZeroCross_counts prise
      (m := Timed.setSlot { m with env := { m.env with inputs := io } } 0
        { s with cpt := int32 s.period })
      ((Timed.setSlot_owners slot _).trans table₀) us dimmed
    rw [← eq] at start
    exact (start.same same₁).round

/-! ## Whole runs -/

/-- Every other step leaves the countdown alone. -/
theorem step_same (prise : b.IsPrise) {ev : Event} (h : step b m ev = some m')
    (table : GateTable m) : (∃ io, ev = .tick io ∧ m' = (tick b io m).1) ∨
      (∀ io, ev ≠ .tick io) ∧ Same m m' := by
  have norelay : b.relay = false := by obtain rfl | rfl := prise <;> rfl
  obtain tick | ⟨status, rfl, -, timers, outputs⟩ | ⟨-, quiet, timers, outputs⟩ :=
    step_cases norelay h
  · exact .inl tick
  · have flag : m'.env.timerTriackOn = m.env.timerTriackOn :=
      congrArg Outputs.timerTriackOn outputs
    have gate := congrFun (congrArg Outputs.gpioOut outputs) bitTriac
    have whole : m'.timers = m.timers.timerChange 9800 .timerZeroCross := by
      rw [timers]
      obtain rfl | rfl := prise <;> rfl
    refine .inr ⟨by simp, ?_, by rw [whole]; rfl, flag, gate, ?_⟩
    · rw [GateTable, flag, whole]
      exact (Timers.timerChange_owners _ _ _).trans table
    · rw [whole]
      cases slot : m.timers.tab[2]? with
      | none =>
        have missing := congrArg (·[2]?) (show m.timers.owners = gateTable m.env.timerTriackOn from
          table)
        unfold Timers.owners at missing
        simp [slot, gateTable] at missing
      | some s =>
        exact Timers.timerChange_of_ne m.timers _ _ 2 slot fun own =>
          absurd (table.first slot own) two_ne_zero
  · have flag : m'.env.timerTriackOn = m.env.timerTriackOn :=
      congrArg Outputs.timerTriackOn outputs
    refine .inr ⟨quiet, ?_, by rw [timers], flag,
      congrFun (congrArg Outputs.gpioOut outputs) bitTriac, by rw [timers]⟩
    rw [GateTable, flag, timers]
    exact table

/-- The event is not a tick in which `ZeroCross` runs. -/
def NoCrossing (b : Build) (m : App) (ev : Event) : Prop :=
  ∀ io, ev = .tick io → .timerZeroCross ∉ (tick b io m).2

instance (b : Build) (m : App) (ev : Event) : Decidable (NoCrossing b m ev) :=
  match ev with
  | .tick io => decidable_of_iff (.timerZeroCross ∉ (tick b io m).2)
      ⟨fun quiet _ same => Event.tick.inj same ▸ quiet, fun quiet => quiet io rfl⟩
  | .irq _ => isTrue fun _ same => by cases same
  | .mqttData _ _ => isTrue fun _ same => by cases same
  | .timeoutStore => isTrue fun _ same => by cases same

abbrev QuietRun (b : Build) (m : App) (es : List Event) (m' : App) : Prop :=
  Run (Guarded (NoCrossing b) fun m ev m' => step b m ev = some m') m es m'

theorem reachable_prise {t : Nat} {name : List UInt8} {pre : List Event} (prise : b.IsPrise)
    (run : AppRun b (userInit b t name) pre m) :
    GateTable m ∧ m.timers.us = 21 ∧ m.env.Dimmed ∧ Level m.env.puissanceTriac := by
  have table : GateTable m := run.invariant (I := GateTable) (fun _ _ _ => step_table prise)
    (userInit_table prise t name)
  have course : OnCourse b m := run.invariant (I := OnCourse b) (fun _ _ _ => onCourse_step)
    (onCourse_userInit b t name)
  have level : Level m.env.puissanceTriac := run.invariant
    (I := fun m => Level m.env.puissanceTriac) (fun _ _ _ => step_level prise)
    (.inl (by cases b <;> rfl))
  refine ⟨table, course.us_eq.trans ?_, course.dimmed, level⟩
  obtain rfl | rfl := prise <;> rfl

theorem QuietRun.counts {post : List Event} {j : Nat} (prise : b.IsPrise)
    (rest : QuietRun b m post m') (course : OnCourse b m) (h : GateCounts w j m) :
    GateCounts w (j + ticks post) m' ∧ OnCourse b m' := by
  induction rest with
  | nil => exact ⟨h, course⟩
  | @snoc es ev v v' _ step ih =>
    obtain ⟨counts, course'⟩ := ih
    refine ⟨?_, onCourse_step step.2 course'⟩
    obtain ⟨io, rfl, rfl⟩ | ⟨quiet, same⟩ := step_same prise step.2 counts.table
    · rw [ticks_snoc_tick]
      exact (tick_counts prise io counts.table counts.us course'.dimmed).1 (step.1 io rfl) _ counts
    · rw [ticks_snoc_quiet es quiet]
      exact counts.same same

theorem GateCounts.level (h : GateCounts w (k + 1) m) : m.env.gpioOut bitTriac = gateLevel w k := by
  unfold gateLevel
  split_ifs with full partly
  · exact (h.full full).2
  · exact (h.dimmed partly (not_le.mp full)).2.1
  · exact (h.off (not_lt.mp partly)).2

theorem onCourse_tick (io : Inputs) (course : OnCourse b m) : OnCourse b (tick b io m).1 :=
  @onCourse_step b m _ (.tick io) rfl course

/-- The countdown of the last zero crossing. -/
theorem AppRun.gateCounts {t : Nat} {name : List UInt8} {pre post : List Event} (prise : b.IsPrise)
    (run : AppRun b (userInit b t name) pre m) {io : Inputs}
    (crossing : .timerZeroCross ∈ (tick b io m).2) (rest : QuietRun b (tick b io m).1 post m') :
    GateCounts m.env.puissanceTriac (ticks post + 1) m' := by
  obtain ⟨table, us, dimmed, -⟩ := reachable_prise prise run
  have course : OnCourse b m := run.invariant (I := OnCourse b) (fun _ _ _ => onCourse_step)
    (onCourse_userInit b t name)
  have start := (tick_counts (w := 0) prise io table us dimmed).2 crossing
  have counts := (QuietRun.counts prise rest (onCourse_tick io course) start).1
  rwa [Nat.add_comm] at counts

/-- In every run, the level of the gate is a function of the power at the last zero crossing and of
the ticks since then. -/
theorem gate_phase {t : Nat} {name : List UInt8} {pre post : List Event} (prise : b.IsPrise)
    (run : AppRun b (userInit b t name) pre m) {io : Inputs}
    (crossing : .timerZeroCross ∈ (tick b io m).2) (rest : QuietRun b (tick b io m).1 post m') :
    m'.env.gpioOut bitTriac = gateLevel m.env.puissanceTriac (ticks post) :=
  (AppRun.gateCounts prise run crossing rest).level

/-! Half power is asked for, the mains crosses zero, and the gate goes up in the half wave. -/

def dimmedPre : List Event :=
  .message [83, 50] :: .irq ⟨true, false, false, false⟩ :: List.replicate 465 (.tick ⟨0, false⟩)

def halfWave : List Event := List.replicate 475 (.tick ⟨0, false⟩)

set_option maxRecDepth 2000 in
theorem dimmed_crossings :
    ((dimmedPre.foldlM (step .prise) (userInit .prise 100 [65])).bind fun m =>
      (halfWave.foldlM (fun m ev => if NoCrossing .prise m ev then step .prise m ev else none)
        (tick .prise ⟨0, false⟩ m).1).map fun m' => (m.env.puissanceTriac,
          (tick .prise ⟨0, false⟩ m).2, (tick .prise ⟨0, false⟩ m').2)) =
      some (5050, [.timerZeroCross], [.timerZeroCross]) := by
  decide +kernel

theorem dimmed_runs : ∃ m m', AppRun .prise (userInit .prise 100 [65]) dimmedPre m ∧
    QuietRun .prise (tick .prise ⟨0, false⟩ m).1 halfWave m' ∧ m.env.puissanceTriac = 5050 ∧
    .timerZeroCross ∈ (tick .prise ⟨0, false⟩ m).2 ∧
    .timerZeroCross ∈ (tick .prise ⟨0, false⟩ m').2 := by
  obtain ⟨m, run, rest⟩ := Option.bind_eq_some_iff.mp dimmed_crossings
  obtain ⟨m', quiet, eq⟩ := Option.map_eq_some_iff.mp rest
  simp only [Prod.mk.injEq] at eq
  exact ⟨m, m', run_iff_foldlM.mpr run, run_guarded_iff.mpr quiet, eq.1, by simp [eq.2.1],
    by simp [eq.2.2]⟩

theorem gate_phase_half_power : ∃ m m', QuietRun .prise (tick .prise ⟨0, false⟩ m).1 halfWave m' ∧
    m'.env.gpioOut bitTriac = gateLevel 5050 (ticks halfWave) := by
  obtain ⟨m, m', run, rest, power, crossing, -⟩ := dimmed_runs
  exact ⟨m, m', rest, power ▸ gate_phase (.inl rfl) run crossing rest⟩

/-! ## Every half wave -/

/-- The next zero crossing is at least 466 ticks behind the last one, `k` of which are over. -/
def Spaced (k : Nat) (m : App) : Prop :=
  ∃ s, m.timers.tab[0]? = some s ∧ s.callBack = some .timerZeroCross ∧
    (466 : Int) ≤ s.cpt + k ∧ 1 ≤ s.cpt ∧ s.cpt ≤ 476

/-- The rounds of the other slots leave the one of the zero crossing alone. -/
theorem Spaced.round (h : Spaced k m) (table : GateTable m) (other : l ≠ 0) :
    Spaced k (m.tickSlot (callBack b) l).1 := by
  obtain ⟨s, slot, own, spaced⟩ := h
  refine ⟨s, tickSlot_slot slot own other fun c owner => ?_, own, spaced⟩
  unfold Timers.owners at owner
  rw [List.getElem?_map] at owner
  obtain ⟨s', slot', own'⟩ := Option.map_eq_some_iff.mp owner
  obtain ⟨zero, -⟩ | ⟨-, sample⟩ | ⟨-, waits⟩ := table.owner slot'
  · exact absurd zero other
  · obtain rfl : CallBack.timerMesureSampleAdc = c := Option.some.inj (sample.symm.trans own')
    simp [CallBack.touches]
  · rw [own'] at waits
    split at waits
    · obtain rfl := Option.some.inj waits
      simp [CallBack.touches]
    · cases waits

theorem Spaced.same (h : Spaced k m) {m₀ : App} (same : m₀.timers = m.timers) : Spaced k m₀ := by
  unfold Spaced
  rw [same]
  exact h

/-- The round of the zero crossing counts on, or starts a half wave when its slot is due. -/
theorem Spaced.crossing (h : Spaced k m) :
    ((m.tickSlot (callBack b) 0).2 ≠ some .timerZeroCross →
        Spaced (k + 1) (m.tickSlot (callBack b) 0).1) ∧
      ((m.tickSlot (callBack b) 0).2 = some .timerZeroCross → 465 ≤ k) := by
  obtain ⟨s, slot, own, spaced, positive, small⟩ := h
  have inside : 0 < m.timers.tab.length := (List.getElem?_eq_some_iff.mp slot).1
  have next : int32 (s.cpt - 1) = s.cpt - 1 := int32_of_range (by omega) (by omega)
  obtain ⟨-, empty⟩ | ⟨s', c, slot', -, alive, eq⟩ | ⟨s', c, slot', own', due, eq⟩ :=
    Timed.tickSlot_cases (callBack b) m 0
  · rw [empty s slot] at own
    cases own
  · obtain rfl := Option.some.inj (slot.symm.trans slot')
    rw [next] at alive
    rw [eq, next]
    refine ⟨fun _ => ⟨{ s with cpt := s.cpt - 1 }, List.getElem?_set_self inside, own, ?_, ?_, ?_⟩,
      fun called => by cases called⟩
    · push_cast
      omega
    · exact Int.add_one_le_iff.mpr (lt_of_le_of_ne (by omega) (Ne.symm alive))
    · exact (sub_le_self s.cpt one_pos.le).trans small
  · obtain rfl := Option.some.inj (slot.symm.trans slot')
    obtain rfl : CallBack.timerZeroCross = c := Option.some.inj (own.symm.trans own')
    rw [next] at due
    rw [eq]
    exact ⟨fun other => absurd rfl other, fun _ => by omega⟩

/-- A half wave starts with the crossing. -/
theorem timerZeroCross_spaced (table : GateTable m) (us : m.timers.us = 21) :
    Spaced 0 (timerZeroCross b m) := by
  have owners : m.timers.owners = gateTable m.env.timerTriackOn := table
  obtain ⟨s, slot, own⟩ : ∃ s, m.timers.tab[0]? = some s ∧
      s.callBack = some .timerZeroCross := by
    refine Option.map_eq_some_iff.mp ?_
    rw [← List.getElem?_map]
    exact congrArg (·[0]?) owners
  have changed := Timers.timerChange_first m.timers 10000 .timerZeroCross 0 slot own
    (fun j none => absurd none (Nat.not_lt_zero j))
  have cpt : int32 ↑(10000 / m.timers.us) = 476 := by
    rw [us]
    decide
  rw [cpt] at changed
  refine ⟨⟨10000 / m.timers.us, 476, s.callBack⟩, ?_, own, by simp, by simp, le_rfl⟩
  exact zeroCross_slot (m := { m.timerChange 10000 .timerZeroCross with
    env := { m.env with zeroCrossIntr := true } }) changed own (by simp [CallBack.touches])

theorem tick_spaced (prise : b.IsPrise) (io : Inputs) (table : GateTable m)
    (us : m.timers.us = 21) :
    (.timerZeroCross ∉ (tick b io m).2 → Spaced k m → Spaced (k + 1) (tick b io m).1) ∧
      (.timerZeroCross ∈ (tick b io m).2 → Spaced 0 (tick b io m).1 ∧ (Spaced k m → 465 ≤ k)) := by
  obtain ⟨rounds, table₁, same₁, first⟩ := tick_rounds prise io table
  have table₀ : GateTable { m with env := { m.env with inputs := io } } := table
  have spaced₀ : Spaced k m → Spaced k { m with env := { m.env with inputs := io } } := fun h =>
    h.same rfl
  rw [rounds, first]
  refine ⟨fun quiet spaced => ?_, fun crossing => ⟨?_, fun spaced => ?_⟩⟩
  · have next := (Spaced.crossing (spaced₀ spaced)).1 quiet
    exact (next.round table₁ one_ne_zero).round same₁.table two_ne_zero
  · obtain ⟨s, slot, eq⟩ := crossing_round crossing
    have start := timerZeroCross_spaced (b := b)
      (m := Timed.setSlot { m with env := { m.env with inputs := io } } 0
        { s with cpt := int32 s.period })
      ((Timed.setSlot_owners slot _).trans table₀) us
    rw [← eq] at start
    exact (start.round table₁ one_ne_zero).round same₁.table two_ne_zero
  · exact (Spaced.crossing (spaced₀ spaced)).2 crossing

/-- An interrupt starts the half wave anew. -/
theorem step_spaced (prise : b.IsPrise) {ev : Event} (h : step b m ev = some m')
    (quiet : ∀ io, ev ≠ .tick io) (us : m.timers.us = 21) (spaced : Spaced k m) : Spaced k m' := by
  have norelay : b.relay = false := by obtain rfl | rfl := prise <;> rfl
  obtain ⟨io, rfl, -⟩ | ⟨status, rfl, -, timers, -⟩ | ⟨-, -, timers, -⟩ := step_cases norelay h
  · exact absurd rfl (quiet io)
  · obtain ⟨s, slot, own, -⟩ := spaced
    have whole : m'.timers = m.timers.timerChange 9800 .timerZeroCross := by
      rw [timers]
      obtain rfl | rfl := prise <;> rfl
    have changed := Timers.timerChange_first m.timers 9800 .timerZeroCross 0 slot own
      (fun j none => absurd none (Nat.not_lt_zero j))
    have cpt : int32 ↑(9800 / m.timers.us) = 466 := by
      rw [us]
      decide
    rw [cpt, ← whole] at changed
    exact ⟨⟨9800 / m.timers.us, 466, s.callBack⟩, changed, own, by simp, by simp, by simp⟩
  · exact spaced.same timers

theorem QuietRun.spaced {post : List Event} (prise : b.IsPrise) (rest : QuietRun b m post m')
    (course : OnCourse b m) (counts : GateCounts w 1 m) (h : Spaced 0 m) :
    Spaced (ticks post) m' := by
  induction rest with
  | nil => exact h
  | @snoc es ev v v' rest step ih =>
    obtain ⟨counts', -⟩ := QuietRun.counts prise rest course counts
    obtain ⟨io, rfl, rfl⟩ | ⟨quiet, -⟩ := step_same prise step.2 counts'.table
    · rw [ticks_snoc_tick]
      exact (tick_spaced prise io counts'.table counts'.us).1 (step.1 io rfl) ih
    · rw [ticks_snoc_quiet es quiet]
      exact step_spaced prise step.2 quiet counts'.us ih

/-- A value of the scale raises the gate well before the next crossing. -/
theorem gateLevel_late (level : Level w) (late : 465 ≤ k) : gateLevel w k = decide (0 < w) := by
  unfold gateLevel Level at *
  obtain rfl | rfl | ⟨least, most⟩ := level
  · rfl
  · rfl
  · have delay : gateDelay w ≤ k + 1 := by
      unfold gateDelay
      omega
    have less : ¬ Build.puissanceMax ≤ w := by
      unfold Build.puissanceMax
      omega
    have positive : 0 < w := by omega
    rw [if_neg less, if_pos positive, decide_eq_true delay, decide_eq_true positive]

/-- Between two zero crossings there are at least 465 ticks, and in every half wave that starts
with power the gate goes up before the next one, whatever interrupts come in between. -/
theorem half_wave {t : Nat} {name : List UInt8} {pre post : List Event} (prise : b.IsPrise)
    (run : AppRun b (userInit b t name) pre m) {io io' : Inputs}
    (crossing : .timerZeroCross ∈ (tick b io m).2) (rest : QuietRun b (tick b io m).1 post m')
    (next : .timerZeroCross ∈ (tick b io' m').2) :
    465 ≤ ticks post ∧ m'.env.gpioOut bitTriac = decide (0 < m.env.puissanceTriac) := by
  obtain ⟨table, us, dimmed, level⟩ := reachable_prise prise run
  have course : OnCourse b m := run.invariant (I := OnCourse b) (fun _ _ _ => onCourse_step)
    (onCourse_userInit b t name)
  have start := (tick_counts (w := 0) prise io table us dimmed).2 crossing
  have spaced := (tick_spaced (k := 0) prise io table us).2 crossing
  have spaced' := QuietRun.spaced prise rest (onCourse_tick io course) start
    spaced.1
  have counts := AppRun.gateCounts prise run crossing rest
  have late := ((tick_spaced prise io' counts.table counts.us).2 next).2 spaced'
  exact ⟨late, counts.level.trans (gateLevel_late level late)⟩

theorem half_wave_half_power : ∃ m m',
    QuietRun .prise (tick .prise ⟨0, false⟩ m).1 halfWave m' ∧ 465 ≤ ticks halfWave ∧
      m'.env.gpioOut bitTriac = decide (0 < m.env.puissanceTriac) := by
  obtain ⟨m, m', run, rest, -, crossing, next⟩ := dimmed_runs
  exact ⟨m, m', rest, half_wave (.inl rfl) run crossing rest next⟩

end Domotic
