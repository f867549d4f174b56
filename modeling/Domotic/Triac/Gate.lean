import Domotic.App.Slots

/-!
# The gate of a phase-controlled triac

A socket drives its triac at any power: `ZeroCross` delays the gate pulse by adding
`timerEnableTriack` to the table, and `timer_triack_on` remembers that it is there. The flag
has to mirror the table in every round of the tick, because `ZeroCross` runs inside one.
Once it does, a zero crossing without power leaves nobody behind to raise the gate.
-/
namespace Domotic
open Library

variable {b : Build} {m m' : App}

/-- The sockets. -/
def Build.IsPrise (b : Build) : Prop := b = .prise ∨ b = .priseV2

/-- The flag tells whether `timerEnableTriack` has a slot; it never has two, and there is
room for it while it has none. -/
structure MirrorsFlag (m : App) : Prop where
  flag : m.env.timerTriackOn = true ↔ m.timers.owners.count (some .timerEnableTriack) = 1
  single : m.timers.owners.count (some .timerEnableTriack) ≤ 1
  room : m.env.timerTriackOn = false → none ∈ m.timers.owners

/-- The table of a socket. -/
def gateTable (triackOn : Bool) : List (Option CallBack) :=
  [some .timerZeroCross, some .timerMesureSampleAdc,
    if triackOn then some .timerEnableTriack else none]

def GateTable (m : App) : Prop := m.timers.owners = gateTable m.env.timerTriackOn

theorem GateTable.mirrorsFlag (h : GateTable m) : MirrorsFlag m := by
  constructor <;> rw [h] <;> cases m.env.timerTriackOn <;> decide

/-! ## One callback -/

theorem removeEnableTriack_table (h : GateTable m) :
    GateTable (removeEnableTriack m) ∧ (removeEnableTriack m).env.timerTriackOn = false := by
  unfold removeEnableTriack
  split
  · rename_i on
    refine ⟨?_, rfl⟩
    rw [GateTable, on] at h
    exact (Timers.timerRemoveCallback_owners _ _).trans (h ▸ rfl)
  · rename_i off
    exact ⟨h, by simpa using off⟩

theorem delayEnableTriack_table (h : GateTable m) (delay : Nat) :
    GateTable (delayEnableTriack m delay) := by
  unfold delayEnableTriack
  split
  · simpa [GateTable] using h
  · rename_i off
    have off : m.env.timerTriackOn = false := by simpa using off
    rw [GateTable, off] at h
    exact (Timers.timerAddCallback_owners _ _ _).trans (h ▸ rfl)

/-- The measuring callback switches the current sensor only. -/
theorem mesure_gate (e : Env) : (mesure e).2.timerTriackOn = e.timerTriackOn ∧
    (mesure e).2.gpioOut bitTriac = e.gpioOut bitTriac := by
  unfold mesure tli4970Disable
  split_ifs <;> simp [bitTriac, bitTli, gpio16]

theorem timerMesureSampleAdc_gate (m : App) :
    (timerMesureSampleAdc m).env.timerTriackOn = m.env.timerTriackOn ∧
      (timerMesureSampleAdc m).env.gpioOut bitTriac = m.env.gpioOut bitTriac := by
  have kept := mesure_gate m.env
  unfold timerMesureSampleAdc
  split
  · dsimp only
    split <;> exact kept
  · exact ⟨rfl, rfl⟩

/-- `ZeroCross` in a socket. -/
theorem zeroCross_prise (prise : b.IsPrise) (m : App) :
    let m' : App := { m with env := zeroCrossTli m.env }
    m'.env.timerTriackOn = m.env.timerTriackOn ∧ m'.env.puissanceTriac = m.env.puissanceTriac ∧
      zeroCross b m =
        if Build.puissanceMax ≤ m.env.puissanceTriac then
          (removeEnableTriack m').setOut bitTriac true
        else if 0 < m.env.puissanceTriac then
          delayEnableTriack (m'.setOut bitTriac false) (uint32 (10000 - m.env.puissanceTriac))
        else (removeEnableTriack m').setOut bitTriac false := by
  have switched : switchTli b m.env = zeroCrossTli m.env := by
    obtain rfl | rfl := prise <;> rfl
  have whole : ¬ b.halfSin = true := by
    obtain rfl | rfl := prise <;> decide
  refine ⟨?_, ?_, ?_⟩
  · exact switched ▸ switchTli_timerTriackOn b m.env
  · exact congrArg Control.puissanceTriac (zeroCrossTli_control m.env)
  · rw [zeroCross_whole whole, switched]

/-! ## One round -/

/-- Off and staying off: no gate pulse is pending and the gate is low. -/
structure Off (m : App) : Prop where
  table : GateTable m
  removed : m.env.timerTriackOn = false
  low : m.env.gpioOut bitTriac = false

theorem timerZeroCross_table (prise : b.IsPrise) (h : GateTable m) :
    GateTable (timerZeroCross b m) ∧
      (m.env.puissanceTriac ≤ 0 → Off (timerZeroCross b m)) := by
  let z : App := { m.timerChange 10000 .timerZeroCross with
    env := { m.env with zeroCrossIntr := true } }
  obtain ⟨flag, -, eq⟩ := zeroCross_prise prise z
  have table : GateTable { z with env := zeroCrossTli z.env } := by
    rw [GateTable, flag]
    exact (Timers.timerChange_owners _ _ _).trans h
  obtain ⟨removed, off⟩ := removeEnableTriack_table table
  have eq : timerZeroCross b m = _ := eq
  rw [eq]
  split_ifs with full partly
  · exact ⟨removed, fun none => absurd full (by
      have := show z.env.puissanceTriac ≤ 0 from none
      simp only [Build.puissanceMax]
      omega)⟩
  · exact ⟨delayEnableTriack_table
      (m := App.setOut { z with env := zeroCrossTli z.env } bitTriac false) table _,
      fun none => absurd none (not_le.mpr partly)⟩
  · exact ⟨removed, fun _ => ⟨removed, off, by simp⟩⟩

theorem callBack_table (prise : b.IsPrise) {c : CallBack}
    (registered : some c ∈ gateTable m.env.timerTriackOn) (h : GateTable m) :
    GateTable (callBack b c m) ∧ (c = .timerZeroCross → m.env.puissanceTriac ≤ 0 →
      Off (callBack b c m)) ∧ (c ≠ .timerZeroCross → Off m → Off (callBack b c m)) := by
  have own : c = .timerZeroCross ∨ c = .timerMesureSampleAdc ∨
      c = .timerEnableTriack ∧ m.env.timerTriackOn = true := by
    cases on : m.env.timerTriackOn <;> simpa [gateTable, on] using registered
  obtain rfl | rfl | ⟨rfl, on⟩ := own
  · obtain ⟨table, off⟩ := timerZeroCross_table prise h
    exact ⟨table, fun _ => off, fun ne => absurd rfl ne⟩
  · obtain ⟨flag, gate⟩ := timerMesureSampleAdc_gate m
    have table : GateTable (timerMesureSampleAdc m) := by
      rw [GateTable, flag, timerMesureSampleAdc_timers]
      exact h
    exact ⟨table, by simp, fun _ off => ⟨table, flag.trans off.removed, gate.trans off.low⟩⟩
  · exact ⟨h, by simp, fun _ off => absurd off.removed (by simp [on])⟩

theorem tickSlot_table (prise : b.IsPrise) (l : Nat) (h : GateTable m) :
    GateTable (m.tickSlot (callBack b) l).1 ∧
      ((m.tickSlot (callBack b) l).2 = some .timerZeroCross → m.env.puissanceTriac ≤ 0 →
        Off (m.tickSlot (callBack b) l).1) ∧
      (((m.tickSlot (callBack b) l).2 = some .timerZeroCross → m.env.puissanceTriac ≤ 0) →
        Off m → Off (m.tickSlot (callBack b) l).1) := by
  have counted : ∀ {s : CallbackTime CallBack}, m.timers.tab[l]? = some s → ∀ cpt : Int,
      GateTable (m.setSlot l { s with cpt := cpt }) := fun slot cpt =>
    (Timed.setSlot_owners slot cpt).trans h
  obtain ⟨eq, -⟩ | ⟨s, c, slot, own, -, eq⟩ | ⟨s, c, slot, own, -, eq⟩ :=
    Timed.tickSlot_cases (callBack b) m l <;> rw [eq]
  · exact ⟨h, by simp, fun _ off => off⟩
  · exact ⟨counted slot _, by simp, fun _ off => ⟨counted slot _, off.removed, off.low⟩⟩
  · have registered : some c ∈ gateTable m.env.timerTriackOn := by
      rw [← (show m.timers.owners = _ from h), ← own]
      exact List.mem_of_getElem? (Timers.owners_of_slot slot)
    obtain ⟨table, start, stay⟩ := callBack_table prise (m := m.setSlot l { s with
      cpt := int32 s.period }) registered (counted slot _)
    refine ⟨table, fun crossing => start (Option.some.inj crossing), fun guard off => ?_⟩
    by_cases crossing : c = .timerZeroCross
    · exact start crossing (guard (congrArg some crossing))
    · exact stay crossing ⟨counted slot _, off.removed, off.low⟩

theorem tickSlot_power (m : App) (l : Nat) :
    (m.tickSlot (callBack b) l).1.env.puissanceTriac = m.env.puissanceTriac :=
  congrArg Control.puissanceTriac (tickSlot_control b m l)

/-! ## One tick -/

/-- The flag mirrors the table between any two rounds of a tick. -/
theorem tickSlots_table (prise : b.IsPrise) (ls : List Nat) (h : GateTable m) :
    GateTable (m.tickSlots (callBack b) ls).1 :=
  Timed.tickSlots_invariant (I := GateTable) (fun _ l h => (tickSlot_table prise l h).1) ls m h

/-- A zero crossing without power switches the gate off. -/
theorem tick_off (prise : b.IsPrise) (io : Inputs) (h : GateTable m)
    (crossing : .timerZeroCross ∈ (tick b io m).2) (power : m.env.puissanceTriac ≤ 0) :
    Off (tick b io m).1 := by
  refine (Timed.tickSlots_establishes (c := .timerZeroCross)
    (I := fun m' => GateTable m' ∧ m'.env.puissanceTriac ≤ 0)
    (J := fun m' => Off m' ∧ m'.env.puissanceTriac ≤ 0) ?_ ?_ ?_ _
    { m with env := { m.env with inputs := io } } crossing ⟨h, power⟩).1
  · exact fun m' l h => ⟨(tickSlot_table prise l h.1).1, (tickSlot_power m' l).trans_le h.2⟩
  · exact fun m' l h => ⟨(tickSlot_table prise l h.1.table).2.2 (fun _ => h.2) h.1,
      (tickSlot_power m' l).trans_le h.2⟩
  · exact fun m' l h call => ⟨(tickSlot_table prise l h.1).2.1 call h.2,
      (tickSlot_power m' l).trans_le h.2⟩

/-- Without a zero crossing that has power, the gate stays off. -/
theorem tick_stays_off (prise : b.IsPrise) (io : Inputs) (off : Off m)
    (quiet : .timerZeroCross ∈ (tick b io m).2 → m.env.puissanceTriac ≤ 0) :
    Off (tick b io m).1 := by
  refine (Timed.tickSlots_keeps
    (I := fun m' => Off m' ∧ m'.env.puissanceTriac = m.env.puissanceTriac)
    (P := fun c => c = .timerZeroCross → m.env.puissanceTriac ≤ 0) ?_ _
    { m with env := { m.env with inputs := io } } ?_ ⟨⟨off.table, off.removed, off.low⟩, rfl⟩).1
  · intro m' l h called
    refine ⟨(tickSlot_table prise l h.1.table).2.2 (fun call => ?_) h.1,
      (tickSlot_power m' l).trans h.2⟩
    exact h.2 ▸ called _ call rfl
  · rintro c called rfl
    exact quiet called

/-! ## Whole runs -/

theorem zeroCrossIRQ_table (prise : b.IsPrise) (h : GateTable m) :
    (zeroCrossIRQ b m).timers.owners = gateTable m.env.timerTriackOn := by
  have owners : m.timers.owners = gateTable m.env.timerTriackOn := h
  obtain rfl | rfl := prise <;> simpa [zeroCrossIRQ] using owners

/-- Every step but a tick leaves the owners of the table and the gate as they are. -/
theorem step_gate (prise : b.IsPrise) {ev : Event} (h : step b m ev = some m')
    (table : GateTable m) :
    (∃ io, ev = .tick io ∧ m' = (tick b io m).1) ∨
      (GateTable m' ∧ m'.env.timerTriackOn = m.env.timerTriackOn ∧
        m'.env.gpioOut = m.env.gpioOut) := by
  have norelay : b.relay = false := by obtain rfl | rfl := prise <;> rfl
  obtain tick | ⟨status, -, -, timers, outputs⟩ | ⟨-, -, timers, outputs⟩ := step_cases norelay h
  · exact .inl tick
  · have flag : m'.env.timerTriackOn = m.env.timerTriackOn :=
      congrArg Outputs.timerTriackOn outputs
    refine .inr ⟨?_, flag, congrArg Outputs.gpioOut outputs⟩
    rw [GateTable, timers, flag]
    exact zeroCrossIRQ_table prise table
  · have flag : m'.env.timerTriackOn = m.env.timerTriackOn :=
      congrArg Outputs.timerTriackOn outputs
    refine .inr ⟨?_, flag, congrArg Outputs.gpioOut outputs⟩
    rw [GateTable, timers, flag]
    exact table

theorem step_table (prise : b.IsPrise) {ev : Event} (h : step b m ev = some m')
    (table : GateTable m) : GateTable m' := by
  obtain ⟨io, -, rfl⟩ | ⟨table', -, -⟩ := step_gate prise h table
  · exact tickSlots_table prise _ table
  · exact table'

theorem userInit_table (prise : b.IsPrise) (t : Nat) (name : List UInt8) :
    GateTable (userInit b t name) := by
  obtain rfl | rfl := prise <;> rfl

/-- The event is not a tick in which `ZeroCross` runs with power. -/
def NoPowerCrossing (b : Build) (m : App) (ev : Event) : Prop :=
  ∀ io, ev = .tick io → .timerZeroCross ∈ (tick b io m).2 → m.env.puissanceTriac ≤ 0

theorem step_stays_off (prise : b.IsPrise) {ev : Event} (quiet : NoPowerCrossing b m ev)
    (h : step b m ev = some m') (off : Off m) : Off m' := by
  obtain ⟨io, rfl, rfl⟩ | ⟨table, flag, gate⟩ := step_gate prise h off.table
  · exact tick_stays_off prise io off (quiet io rfl)
  · exact ⟨table, flag.trans off.removed, (congrFun gate bitTriac).trans off.low⟩

/-- In every reachable state, and between any two rounds of any tick, the flag mirrors the
table; and once `ZeroCross` has run without power, the gate is low until it runs with power. -/
theorem off_means_off {t : Nat} {name : List UInt8} {pre : List Event} (prise : b.IsPrise)
    (run : AppRun b (userInit b t name) pre m) :
    MirrorsFlag m ∧
    (∀ io k, MirrorsFlag (Timed.tickSlots (callBack b) (List.range k)
      { m with env := { m.env with inputs := io } }).1) ∧
    ∀ io, .timerZeroCross ∈ (tick b io m).2 → m.env.puissanceTriac ≤ 0 →
      ∀ post m', Run (Guarded (NoPowerCrossing b) fun m ev m' => step b m ev = some m')
        (tick b io m).1 post m' → m'.env.gpioOut bitTriac = false := by
  have table : GateTable m := run.invariant (I := GateTable) (fun _ _ _ => step_table prise)
    (userInit_table prise t name)
  refine ⟨table.mirrorsFlag, fun io k => ?_, fun io crossing power post m' run' => ?_⟩
  · exact (tickSlots_table prise (List.range k) (m := { m with env := { m.env with inputs := io } })
      table).mirrorsFlag
  · have off : Off m' := run'.invariant (I := Off)
      (fun _ _ _ h => step_stays_off prise h.1 h.2) (tick_off prise io table crossing power)
    exact off.low

set_option maxRecDepth 1000 in
/-- The first zero crossing of a socket that has not been switched on. -/
theorem off_means_off_first_crossing :
    ∃ m, AppRun .prise (userInit .prise 100 [65])
        (.irq ⟨true, false, false, false⟩ :: List.replicate 465 (.tick ⟨0, false⟩)) m ∧
      .timerZeroCross ∈ (tick .prise ⟨0, false⟩ m).2 ∧ MirrorsFlag m ∧
      (tick .prise ⟨0, false⟩ m).1.env.gpioOut bitTriac = false := by
  have run : (((.irq ⟨true, false, false, false⟩ :: List.replicate 465 (.tick ⟨0, false⟩) :
      List Event).foldlM (step .prise) (userInit .prise 100 [65])).map fun m =>
        ((tick .prise ⟨0, false⟩ m).2, decide (m.env.puissanceTriac ≤ 0))) =
        some ([.timerZeroCross], true) := by
    decide +kernel
  obtain ⟨m, run, eq⟩ := Option.map_eq_some_iff.mp run
  simp only [Prod.mk.injEq, decide_eq_true_eq] at eq
  have crossing : .timerZeroCross ∈ (tick .prise ⟨0, false⟩ m).2 := by simp [eq.1]
  obtain ⟨mirrors, -, off⟩ := off_means_off (.inl rfl) (run_iff_foldlM.mpr run)
  exact ⟨m, run_iff_foldlM.mpr run, crossing, mirrors, off ⟨0, false⟩ crossing eq.2 [] _ .nil⟩

end Domotic
