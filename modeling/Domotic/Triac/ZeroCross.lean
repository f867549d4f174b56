import Domotic.App.Slots

/-!
# Synchronisation on the zero crossing

A zero crossing disables the interrupt of its own pin; only the callback `timerZeroCross`
enables it again. The builds that drive whole waves keep that callback in the first slot of
the table with its counter running, so the interrupt always comes back. The half-wave build
registers `ZeroCross` instead, in which the line that enables the interrupt is commented
out: its first zero crossing is its last.
-/
namespace Domotic
open Library

variable {b : Build} {m m' : App}

/-- The callback enables the zero-cross interrupt, on whatever machine it runs. -/
def ReEnables (b : Build) (c : CallBack) : Prop :=
  ∀ m, (callBack b c m).env.zeroCrossIntr = true

/-- While the interrupt is disabled, a callback that enables it is counting down. -/
def Synchronised (b : Build) (m : App) : Prop :=
  m.env.zeroCrossIntr = false →
    ∃ s ∈ m.timers.tab, ∃ c, s.callBack = some c ∧ 1 ≤ s.cpt ∧ ReEnables b c

@[simp] theorem zeroCrossTli_intr (e : Env) : (zeroCrossTli e).zeroCrossIntr = e.zeroCrossIntr := by
  unfold zeroCrossTli tli4970Enable
  split_ifs <;> rfl

theorem zeroCross_intr (b : Build) (m : App) :
    (zeroCross b m).env.zeroCrossIntr = m.env.zeroCrossIntr := by
  simp only [zeroCross, removeEnableTriack, delayEnableTriack]
  split_ifs <;> simp

theorem timerZeroCross_reEnables (b : Build) : ReEnables b .timerZeroCross := fun m => by
  simp only [callBack, timerZeroCross, zeroCross_intr]
  rfl

/-! ## Whole waves -/

/-- The first slot is the one of `timerZeroCross` and will come due. -/
structure Live (b : Build) (t : Timers CallBack) : Prop where
  us : t.us = b.precisionTimer
  slot : ∃ s, t.tab[0]? = some s ∧ s.callBack = some .timerZeroCross ∧ 1 ≤ s.cpt ∧
    s.cpt < 2147483648 ∧ 1 ≤ int32 s.period

theorem Live.synchronised (h : Live b m.timers) : Synchronised b m := fun _ => by
  obtain ⟨s, slot, own, running, -, -⟩ := h.slot
  exact ⟨s, List.mem_of_getElem? slot, .timerZeroCross, own, running, timerZeroCross_reEnables b⟩

/-- Restarting the first slot with a period of at least one tick keeps it live. -/
theorem Live.timerChange {t : Timers CallBack} (h : Live b t) {period : Nat}
    (long : 100 ≤ period) (small : period < 20000) :
    Live b (t.timerChange period .timerZeroCross) := by
  obtain ⟨s, slot, own, -, -, -⟩ := h.slot
  have restart := t.timerChange_first period .timerZeroCross 0 slot own (by omega)
  have ticks : 1 ≤ period / t.us ∧ period / t.us < 20000 := by
    rw [h.us]
    cases b <;> simp only [Build.precisionTimer] <;> omega
  have exact : int32 ↑(period / t.us) = ↑(period / t.us) :=
    int32_of_range (by omega) (by omega)
  exact ⟨h.us, _, restart, own, by simp only [exact]; omega, by simp only [exact]; omega,
    by simp only [exact]; omega⟩

theorem callBack_live (c : CallBack) (h : Live b m.timers) :
    Live b (callBack b c m).timers := by
  have keep : ∀ c : CallBack, CallBack.timerZeroCross ∉ c.touches → ∀ m : App,
      Live b m.timers → Live b (callBack b c m).timers := fun c other m h => by
    obtain ⟨s, slot, own, rest⟩ := h.slot
    exact ⟨(callBack_us c m).trans h.us, s, callBack_slot slot own other, own, rest⟩
  cases c with
  | timerZeroCross =>
    exact keep .zeroCross (by decide) (m := { m.timerChange 10000 .timerZeroCross with
      env := { m.env with zeroCrossIntr := true } }) (h.timerChange (by omega) (by omega))
  | _ => exact keep _ (by decide) m h

theorem tickSlot_live (l : Nat) (h : Live b m.timers) :
    Live b (m.tickSlot (callBack b) l).1.timers := by
  obtain ⟨s, slot, own, running, small, reload⟩ := h.slot
  have bound : 0 < m.timers.tab.length := (List.getElem?_eq_some_iff.mp slot).1
  -- a round writes its own slot back: the first one counts down or is reloaded
  have counted : ∀ s', (l = 0 → s'.callBack = some .timerZeroCross ∧ 1 ≤ s'.cpt ∧
      s'.cpt < 2147483648 ∧ 1 ≤ int32 s'.period) → Live b (m.setSlot l s').timers := by
    intro s' first
    refine ⟨h.us, ?_⟩
    by_cases here : l = 0
    · subst here
      exact ⟨s', by simp [bound], first rfl⟩
    · exact ⟨s, by simp [List.getElem?_set_ne here, slot], own, running, small, reload⟩
  obtain ⟨eq, -⟩ | ⟨s', c, slot', own', wait, eq⟩ | ⟨s', c, slot', own', due, eq⟩ :=
    Timed.tickSlot_cases (callBack b) m l <;> rw [eq]
  · exact h
  · refine counted _ ?_
    rintro rfl
    obtain rfl := Option.some.inj (slot.symm.trans slot')
    have down : int32 (s.cpt - 1) = s.cpt - 1 := int32_of_range (by omega) (by omega)
    rw [down] at wait ⊢
    exact ⟨own, by dsimp only; omega, by dsimp only; omega, reload⟩
  · refine callBack_live c (counted _ ?_)
    rintro rfl
    obtain rfl := Option.some.inj (slot.symm.trans slot')
    exact ⟨own, reload, (int32_bounds _).2, reload⟩

theorem zeroCrossIRQ_live (whole : b.halfSin = false) (h : Live b m.timers) :
    Live b (zeroCrossIRQ b m).timers := by
  simp only [Build.halfSin, Bool.or_eq_false_iff] at whole
  simp only [zeroCrossIRQ, whole.1, whole.2, Bool.false_eq_true, ↓reduceIte]
  split <;> exact h.timerChange (by omega) (by omega)

theorem userInit_live (triack : b.triack = true) (whole : b.halfSin = false) (t : Nat)
    (name : List UInt8) : Live b (userInit b t name).timers := by
  have first : (userInit b t name).timers.us = b.precisionTimer ∧
      (userInit b t name).timers.tab[0]? = some ⟨20001 / b.precisionTimer,
        int32 ↑(20001 / b.precisionTimer), some .timerZeroCross⟩ := by
    cases b <;> simp at triack whole <;> exact ⟨rfl, rfl⟩
  have ticks : 1 ≤ 20001 / b.precisionTimer ∧ 20001 / b.precisionTimer ≤ 20001 := by
    cases b <;> decide
  have exact : int32 ↑(20001 / b.precisionTimer) = ↑(20001 / b.precisionTimer) :=
    int32_of_range (by omega) (by omega)
  exact ⟨first.1, _, first.2, rfl, by simp only [exact]; omega, by simp only [exact]; omega,
    by simp only [exact]; omega⟩

theorem step_live (triack : b.triack = true) (whole : b.halfSin = false) {ev : Event}
    (h : step b m ev = some m') (live : Live b m.timers) : Live b m'.timers := by
  have norelay : b.relay = false := by cases b <;> simp_all
  obtain ⟨io, -, rfl⟩ | ⟨status, -, -, timers, -⟩ | ⟨-, -, timers, -⟩ := step_cases norelay h
  · exact tick_keeps b io (I := fun m => Live b m.timers) (fun _ l => tickSlot_live l) m live
  · exact timers ▸ zeroCrossIRQ_live whole live
  · exact timers ▸ live

/-! ## Half waves -/

/-- The table of the half-wave build. -/
def halfTable : List (Option CallBack) := [some .zeroCross, some .timerDisableTriack, none]

theorem callBack_half {c : CallBack} (registered : some c ∈ halfTable)
    (h : m.timers.owners = halfTable) :
    (callBack .radiator c m).timers.owners = halfTable ∧
      (callBack .radiator c m).env.zeroCrossIntr = m.env.zeroCrossIntr := by
  obtain rfl | rfl : c = .zeroCross ∨ c = .timerDisableTriack :=
      by simpa [halfTable] using registered
  · refine ⟨?_, zeroCross_intr .radiator m⟩
    simp only [callBack, zeroCross, Build.halfSin, Build.halfSinNeg, Bool.or_true, ↓reduceIte,
      App.timerChange_timers, Timers.timerChange_owners]
    split <;> exact h
  · exact ⟨by simpa [callBack, timerDisableTriack] using h, rfl⟩

theorem tickSlot_half (l : Nat) (intr : Bool)
    (h : m.timers.owners = halfTable ∧ m.env.zeroCrossIntr = intr) :
    (m.tickSlot (callBack .radiator) l).1.timers.owners = halfTable ∧
      (m.tickSlot (callBack .radiator) l).1.env.zeroCrossIntr = intr := by
  obtain ⟨eq, -⟩ | ⟨s, c, slot, own, -, eq⟩ | ⟨s, c, slot, own, -, eq⟩ :=
    Timed.tickSlot_cases (callBack .radiator) m l <;> rw [eq]
  · exact h
  · exact ⟨(Timed.setSlot_owners slot _).trans h.1, h.2⟩
  · have registered : some c ∈ halfTable := by
      rw [← h.1, ← own]
      exact List.mem_of_getElem? (Timers.owners_of_slot slot)
    obtain ⟨owners, same⟩ := callBack_half (m := m.setSlot l { s with cpt := int32 s.period })
      registered ((Timed.setSlot_owners slot _).trans h.1)
    exact ⟨owners, same.trans h.2⟩

/-- In the half-wave build only a zero crossing changes the interrupt, and disables it. -/
theorem step_half {ev : Event} (h : step .radiator m ev = some m')
    (table : m.timers.owners = halfTable) :
    m'.timers.owners = halfTable ∧
      ((∀ status, ev = .irq status → status.zeroCross = false) ∧
          m'.env.zeroCrossIntr = m.env.zeroCrossIntr ∨
        (∃ status, ev = .irq status ∧ status.zeroCross = true) ∧
          m'.env.zeroCrossIntr = false) := by
  obtain ⟨io, rfl, rfl⟩ | ⟨status, rfl, zero, timers, outputs⟩ | ⟨other, -, timers, outputs⟩ :=
    step_cases rfl h
  · have kept := tick_keeps .radiator io
      (I := fun m' => m'.timers.owners = halfTable ∧ m'.env.zeroCrossIntr = m.env.zeroCrossIntr)
      (fun _ l => tickSlot_half l _) m ⟨table, rfl⟩
    exact ⟨kept.1, .inl ⟨by simp, kept.2⟩⟩
  · refine ⟨?_, .inr ⟨⟨status, rfl, zero⟩, congrArg Outputs.zeroCrossIntr outputs⟩⟩
    rw [timers]
    simpa [zeroCrossIRQ] using table
  · refine ⟨timers ▸ table, .inl ⟨fun status eq => ?_, congrArg Outputs.zeroCrossIntr outputs⟩⟩
    simpa using other status eq

/-- Nothing in the half-wave table enables the interrupt. -/
theorem not_synchronised_half (table : m.timers.owners = halfTable) :
    Synchronised .radiator m ↔ m.env.zeroCrossIntr = true := by
  constructor
  · intro h
    by_contra off
    obtain ⟨s, mem, c, own, -, enables⟩ := h (by simpa using off)
    have registered : some c ∈ halfTable := by
      rw [← table, ← own]
      exact List.mem_map_of_mem mem
    have same := (callBack_half registered table).2
    rw [enables m] at same
    exact off same.symm
  · exact fun on off => absurd on (by simp [off])

theorem run_half {t : Nat} {name : List UInt8} {es : List Event}
    (run : AppRun .radiator (userInit .radiator t name) es m) :
    m.timers.owners = halfTable ∧
      (m.env.zeroCrossIntr = true ↔ ∀ status, .irq status ∈ es → status.zeroCross = false) := by
  induction run with
  | nil => exact ⟨rfl, iff_of_true rfl (by simp)⟩
  | @snoc es ev s s' _ step ih =>
    obtain ⟨owners, quiet | zero⟩ := step_half step ih.1
    · refine ⟨owners, ?_⟩
      rw [quiet.2, ih.2]
      constructor
      · intro before status mem
        obtain earlier | last := List.mem_append.mp mem
        · exact before status earlier
        · exact quiet.1 status (List.mem_singleton.mp last).symm
      · exact fun h status mem => h status (List.mem_append_left _ mem)
    · obtain ⟨⟨status, rfl, crossing⟩, off⟩ := zero
      refine ⟨owners, iff_of_false (by simp [off]) fun h => ?_⟩
      simp [h status (by simp)] at crossing

/-! ## All builds -/

/-- The interrupt comes back in every state that a run goes through, exactly when the build
drives whole waves or the run has no zero crossing. -/
theorem synchronised_iff_wholeWave {t : Nat} {name : List UInt8} {es : List Event}
    (triack : b.triack = true) (run : AppRun b (userInit b t name) es m) :
    (∀ pre s, pre <+: es → AppRun b (userInit b t name) pre s → Synchronised b s) ↔
      (b.halfSin = false ∨ ∀ status, .irq status ∈ es → status.zeroCross = false) := by
  by_cases whole : b.halfSin = false
  · refine iff_of_true (fun pre s _ run => ?_) (.inl whole)
    have live : Live b s.timers := run.invariant (I := fun m => Live b m.timers)
      (fun _ _ _ => step_live triack whole) (userInit_live triack whole t name)
    exact live.synchronised
  · obtain rfl : b = .radiator := by cases b <;> simp_all
    constructor
    · intro h
      have table := run_half run
      refine .inr ?_
      exact table.2.mp ((not_synchronised_half table.1).mp (h es m List.prefix_rfl run))
    · intro h pre s before run
      have quiet := h.resolve_left whole
      have table := run_half run
      exact (not_synchronised_half table.1).mpr
        (table.2.mpr fun status mem => quiet status (before.subset mem))

/-- One zero crossing after boot disables the interrupt of the radiator for good. -/
theorem unsynchronised_radiator :
    ∃ m, AppRun .radiator (userInit .radiator 100 [65]) [.irq ⟨true, false, false, false⟩] m ∧
      ¬ Synchronised .radiator m := by
  have some : (([.irq ⟨true, false, false, false⟩] : List Event).foldlM (step .radiator)
      (userInit .radiator 100 [65])).isSome := by decide
  obtain ⟨m, run⟩ := Option.isSome_iff_exists.mp some
  have table := run_half (run_iff_foldlM.mpr run)
  refine ⟨m, run_iff_foldlM.mpr run, fun synchronised => ?_⟩
  have quiet := table.2.mp ((not_synchronised_half table.1).mp synchronised)
  simpa using quiet ⟨true, false, false, false⟩ (by simp)

/-- A zero crossing of a socket. -/
theorem synchronised_prise :
    ∃ m, AppRun .prise (userInit .prise 100 [65]) [.irq ⟨true, false, false, false⟩] m ∧
      ∀ pre s, pre <+: [Event.irq ⟨true, false, false, false⟩] →
        AppRun .prise (userInit .prise 100 [65]) pre s → Synchronised .prise s := by
  have some : (([.irq ⟨true, false, false, false⟩] : List Event).foldlM (step .prise)
      (userInit .prise 100 [65])).isSome := by decide
  obtain ⟨m, run⟩ := Option.isSome_iff_exists.mp some
  have run := run_iff_foldlM.mpr run
  exact ⟨m, run, (synchronised_iff_wholeWave rfl run).mpr (.inl rfl)⟩

end Domotic
