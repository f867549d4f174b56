import Domotic.App.Handlers
import Domotic.Library.Batch

/-!
# The power measurement

`timerMesureSampleAdc` multiplies each sample of the current by the mains voltage at its phase,
and after two thousand of them divides their sum by their number. The sum is a 32-bit `long`.
The terms are described here by the replies and the phases alone, as integers with no width; the
accumulator holds their sum modulo 2^32, so an average is exact when its batch has a sum that
fits, and only then.
-/
namespace Domotic
open Library

/-- What happens to the measurement: a sample, with the state of the sensor and its reply, or a
zero crossing. -/
inductive MeasureOp where
  | sample (enable : Nat) (reply : UInt16)
  | zeroCross
  deriving DecidableEq, Repr

/-- The machine before a sample of a connected station. -/
def sampled (enable : Nat) (reply : UInt16) (m : App) : App :=
  { m with env := { m.env with tli4970IsEnable := enable, inputs := ⟨reply, true⟩ } }

def measureStep (b : Build) (m : App) : MeasureOp → App
  | .sample enable reply => timerMesureSampleAdc (sampled enable reply m)
  | .zeroCross => zeroCrossIRQ b m

def measureRun (b : Build) (m : App) (ops : List MeasureOp) : App := ops.foldl (measureStep b) m

/-- The index into `tab_sin` that a sample uses, after one at phase `t`. -/
def nextPhase (t : Nat) : Nat := if 40 ≤ t + 1 then 0 else t + 1

/-- The current of a sample: zero unless the sensor has been on for a while. -/
def current (enable : Nat) (reply : UInt16) : Int :=
  if enable = 2 then tli4970GetCurent reply else 0

/-- The exact terms `val * tab_sin[phase]` of the samples, from phase `t` on. -/
def terms : Nat → List MeasureOp → List Int
  | _, [] => []
  | t, .sample enable reply :: ops =>
    current enable reply * tabSin.toList.getD (nextPhase t) 0 :: terms (nextPhase t) ops
  | _, .zeroCross :: ops => terms 0 ops

def phaseStep (t : Nat) : MeasureOp → Nat
  | .sample _ _ => nextPhase t
  | .zeroCross => 0

/-- The phase after these operations. -/
def phase (t : Nat) (ops : List MeasureOp) : Nat := ops.foldl phaseStep t

/-- A sum that an `int` holds. -/
def SumFits (xs : List Int) : Prop := -2147483648 ≤ xs.sum ∧ xs.sum < 2147483648

/-- The variables of the measurement. -/
structure Tally where
  tempFromZeroCross : Nat
  numMesure : Nat
  sum : Int
  moyenPower : Int

def Env.tally (e : Env) : Tally := ⟨e.tempFromZeroCross, e.numMesure, e.sum, e.moyenPower⟩

/-- What a sample of this value does to them. -/
def Tally.add (r : Tally) (val : Int) : Tally :=
  let t := if 40 ≤ (r.tempFromZeroCross + 1) % 4294967296 then 0
    else (r.tempFromZeroCross + 1) % 4294967296
  let sum := int32 (r.sum + int32 (val * tabSin.toList.getD t 0))
  if nbMesureAdcBeforSend ≤ r.numMesure + 1 then
    ⟨t, 0, 0, Int.tdiv sum nbMesureAdcBeforSend⟩
  else ⟨t, r.numMesure + 1, sum, r.moyenPower⟩

/-- The measurement after the terms `xs`. -/
structure Measured (xs : List Int) (r : Tally) : Prop where
  phase : r.tempFromZeroCross < 40
  count : r.numMesure = xs.length % nbMesureAdcBeforSend
  sum : r.sum = int32 (openBatch nbMesureAdcBeforSend xs).sum
  average : nbMesureAdcBeforSend ≤ xs.length → r.moyenPower =
    Int.tdiv (int32 (lastBatch nbMesureAdcBeforSend xs).sum) nbMesureAdcBeforSend

/-- A station with a name, at the start of a batch. -/
structure BatchStart (e : Env) : Prop where
  named : stationNameSet e = true
  phase : e.tempFromZeroCross < 40
  count : e.numMesure = 0
  sum : e.sum = 0

/-! ## The phase -/

theorem nextPhase_lt (t : Nat) : nextPhase t < 40 := by
  unfold nextPhase
  split <;> omega

theorem phase_snoc (t : Nat) (ops : List MeasureOp) (op : MeasureOp) :
    phase t (ops ++ [op]) = phaseStep (phase t ops) op := by
  rw [phase, List.foldl_append]
  rfl

theorem terms_append (t : Nat) (ops ops' : List MeasureOp) :
    terms t (ops ++ ops') = terms t ops ++ terms (phase t ops) ops' := by
  induction ops generalizing t with
  | nil => rfl
  | cons op ops ih =>
    cases op with
    | sample enable reply => exact congrArg _ (ih (nextPhase t))
    | zeroCross => exact ih 0

/-! ## One sample -/

theorem mesure_value (e : Env) : (mesure e).1 = current e.tli4970IsEnable e.inputs.reply := by
  unfold mesure current
  split_ifs <;> first | rfl | omega

/-- Reading the sensor changes no variable of the measurement. -/
theorem mesure_tally (e : Env) :
    (mesure e).2.tally = e.tally ∧ (mesure e).2.stationName = e.stationName := by
  unfold mesure
  split_ifs <;> exact ⟨rfl, rfl⟩

theorem current_bound (enable : Nat) (reply : UInt16) : (current enable reply).natAbs ≤ 51200 := by
  unfold current tli4970GetCurent
  split_ifs
  · decide
  · have half : ∀ x : Int, (Int.tdiv x 2).natAbs = x.natAbs / 2 := fun x => Int.natAbs_tdiv x 2
    rw [half]
    omega
  · decide

theorem tabSin_bound (t : Nat) : (tabSin.toList.getD t 0).natAbs ≤ 325 := by
  have all : ∀ x ∈ tabSin.toList, x.natAbs ≤ 325 := by decide
  rw [List.getD_eq_getElem?_getD]
  cases h : tabSin.toList[t]? with
  | none => decide
  | some x => exact all x (List.mem_of_getElem? h)

/-- The product of a sample is an `int`. -/
theorem product_int32 (enable : Nat) (reply : UInt16) (t : Nat) :
    int32 (current enable reply * tabSin.toList.getD t 0) =
      current enable reply * tabSin.toList.getD t 0 := by
  have bound := Nat.mul_le_mul (current_bound enable reply) (tabSin_bound t)
  rw [← Int.natAbs_mul] at bound
  exact int32_of_range (by omega) (by omega)

/-- What the callback does while the station has a name and is connected. -/
theorem timerMesureSampleAdc_tally {m : App} (named : stationNameSet m.env = true)
    (connected : m.env.inputs.mqttIsConected = true) :
    (timerMesureSampleAdc m).env.tally =
        m.env.tally.add (current m.env.tli4970IsEnable m.env.inputs.reply) ∧
      (timerMesureSampleAdc m).env.stationName = m.env.stationName := by
  obtain ⟨tally, name⟩ := mesure_tally m.env
  rw [← mesure_value, ← tally, ← name]
  unfold timerMesureSampleAdc
  rw [named, connected, Bool.and_self, if_pos rfl]
  generalize mesure m.env = r
  obtain ⟨val, e⟩ := r
  unfold Tally.add
  by_cases full : nbMesureAdcBeforSend ≤ e.numMesure + 1
  · have full' : nbMesureAdcBeforSend ≤ e.tally.numMesure + 1 := full
    simp only [full, full', ↓reduceIte]
    exact ⟨rfl, trivial⟩
  · have room : ¬ nbMesureAdcBeforSend ≤ e.tally.numMesure + 1 := full
    simp only [full, room, ↓reduceIte]
    exact ⟨rfl, trivial⟩

/-- A sample from a phase inside the table. -/
theorem Tally.add_eq {r : Tally} (start : r.tempFromZeroCross < 40) (val : Int) :
    r.add val =
      if nbMesureAdcBeforSend ≤ r.numMesure + 1 then
        ⟨nextPhase r.tempFromZeroCross, 0, 0, Int.tdiv (int32 (r.sum + int32 (val *
          tabSin.toList.getD (nextPhase r.tempFromZeroCross) 0))) nbMesureAdcBeforSend⟩
      else ⟨nextPhase r.tempFromZeroCross, r.numMesure + 1, int32 (r.sum + int32 (val *
          tabSin.toList.getD (nextPhase r.tempFromZeroCross) 0)), r.moyenPower⟩ := by
  have small : (r.tempFromZeroCross + 1) % 4294967296 = r.tempFromZeroCross + 1 :=
    Nat.mod_eq_of_lt (by omega)
  unfold Tally.add
  rw [small]
  rfl

/-- One more term. -/
theorem Measured.add {xs : List Int} {r : Tally} (h : Measured xs r) {enable : Nat}
    {reply : UInt16} : Measured (xs ++ [current enable reply *
      tabSin.toList.getD (nextPhase r.tempFromZeroCross) 0]) (r.add (current enable reply)) ∧
      (r.add (current enable reply)).tempFromZeroCross = nextPhase r.tempFromZeroCross := by
  have index := nextPhase_lt r.tempFromZeroCross
  rw [Tally.add_eq h.phase, product_int32, h.sum]
  generalize current enable reply * tabSin.toList.getD (nextPhase r.tempFromZeroCross) 0 = x
  have total : int32 (int32 (openBatch nbMesureAdcBeforSend xs).sum + x) =
      int32 (openBatch nbMesureAdcBeforSend xs ++ [x]).sum := by
    rw [List.sum_append, List.sum_singleton]
    simp only [int32_eq]
    omega
  have count := h.count
  have range := Nat.mod_lt xs.length (show 0 < nbMesureAdcBeforSend by decide)
  split
  · rename_i full
    have full : xs.length % nbMesureAdcBeforSend + 1 = nbMesureAdcBeforSend := by omega
    have empty : (xs ++ [x]).length % nbMesureAdcBeforSend = 0 := by
      rw [List.length_append, List.length_singleton]
      simp only [nbMesureAdcBeforSend] at full ⊢
      omega
    refine ⟨⟨index, empty.symm, ?_, fun _ => ?_⟩, rfl⟩
    · rw [openBatch_empty empty]
      rfl
    · rw [lastBatch_snoc_of_eq x full, total]
  · rename_i room
    have room : xs.length % nbMesureAdcBeforSend + 1 < nbMesureAdcBeforSend := by omega
    refine ⟨⟨index, ?_, ?_, fun long => ?_⟩, rfl⟩
    · rw [List.length_append, List.length_singleton]
      simp only [nbMesureAdcBeforSend] at count room ⊢
      omega
    · rw [openBatch_snoc_of_lt x room, total]
    · rw [lastBatch_snoc_of_lt x room]
      refine h.average ?_
      rw [List.length_append, List.length_singleton] at long
      simp only [nbMesureAdcBeforSend] at long room ⊢
      omega

/-! ## Whole runs -/

theorem measureRun_snoc (b : Build) (m : App) (ops : List MeasureOp) (op : MeasureOp) :
    measureRun b m (ops ++ [op]) = measureStep b (measureRun b m ops) op := List.foldl_append

theorem zeroCrossIRQ_tally (b : Build) (m : App) :
    (zeroCrossIRQ b m).env.tally = { m.env.tally with tempFromZeroCross := 0 } ∧
      (zeroCrossIRQ b m).env.stationName = m.env.stationName := by
  unfold zeroCrossIRQ
  dsimp only
  split_ifs <;> exact ⟨rfl, rfl⟩

theorem measured_start {e : Env} (start : BatchStart e) : Measured [] e.tally := by
  refine ⟨start.phase, start.count, start.sum.trans (by decide), fun long => ?_⟩
  exact absurd long (by decide)

/-- What a run leaves: the sums of the terms, and the phase. -/
theorem measured_run (b : Build) {m : App} (start : BatchStart m.env) (ops : List MeasureOp) :
    Measured (terms m.env.tempFromZeroCross ops) (measureRun b m ops).env.tally ∧
      (measureRun b m ops).env.tempFromZeroCross = phase m.env.tempFromZeroCross ops ∧
      (measureRun b m ops).env.stationName = m.env.stationName := by
  induction ops using List.reverseRecOn with
  | nil => exact ⟨measured_start start, rfl, rfl⟩
  | append_singleton ops op ih =>
    obtain ⟨measured, temp, name⟩ := ih
    rw [measureRun_snoc, terms_append, phase_snoc, ← temp]
    generalize measureRun b m ops = s at *
    cases op with
    | sample enable reply =>
      have named : stationNameSet (sampled enable reply s).env = true := by
        have same : stationNameSet s.env = stationNameSet m.env := by
          unfold stationNameSet
          rw [name]
        exact same.trans start.named
      obtain ⟨tally, kept⟩ := timerMesureSampleAdc_tally named rfl
      have more := @Measured.add _ s.env.tally measured enable reply
      refine ⟨tally ▸ more.1, ?_, kept.trans name⟩
      exact (congrArg Tally.tempFromZeroCross tally).trans more.2
    | zeroCross =>
      obtain ⟨tally, kept⟩ := zeroCrossIRQ_tally b s
      have same : Measured (terms m.env.tempFromZeroCross ops ++ [])
          { s.env.tally with tempFromZeroCross := 0 } := by
        rw [List.append_nil]
        exact ⟨Nat.zero_lt_succ 39, measured.count, measured.sum, measured.average⟩
      exact ⟨tally ▸ same, congrArg Tally.tempFromZeroCross tally, kept.trans name⟩

/-- At the end of a batch the average is the quotient of the wrapped sum. -/
theorem average_wrapped (b : Build) {m : App} (start : BatchStart m.env) (ops : List MeasureOp)
    {xs : List Int} (terms_eq : terms m.env.tempFromZeroCross ops = xs) (some : xs ≠ [])
    (whole : xs.length % nbMesureAdcBeforSend = 0) :
    (measureRun b m ops).env.moyenPower =
      Int.tdiv (int32 (xs.drop (xs.length - nbMesureAdcBeforSend)).sum) nbMesureAdcBeforSend := by
  obtain ⟨measured, -, -⟩ := measured_run b start ops
  rw [terms_eq] at measured
  have positive := List.length_pos_of_ne_nil some
  rw [← lastBatch_of_mod whole]
  refine measured.average ?_
  simp only [nbMesureAdcBeforSend] at whole ⊢
  omega

/-- The index into the table is always inside it, and the average of a complete batch is exact
exactly when the sum of its terms is an `int`. -/
theorem average_exact_iff (b : Build) {m : App} (start : BatchStart m.env) (ops : List MeasureOp) :
    let xs := terms m.env.tempFromZeroCross ops
    let batch := xs.drop (xs.length - nbMesureAdcBeforSend)
    (measureRun b m ops).env.tempFromZeroCross < 40 ∧
      (xs ≠ [] → xs.length % nbMesureAdcBeforSend = 0 →
        ((measureRun b m ops).env.moyenPower = Int.tdiv batch.sum nbMesureAdcBeforSend ↔
          SumFits batch)) := by
  refine ⟨(measured_run b start ops).1.phase, fun some whole => ?_⟩
  rw [average_wrapped b start ops rfl some whole]
  exact tdiv_int32_iff (by decide) (by decide)

/-! ## A load in phase with the mains -/

theorem boot_batchStart (b : Build) (t : Nat) {name : List UInt8} (named : name.headD 0 ≠ 0) :
    BatchStart (userInit b t name).env := by
  cases b <;> exact ⟨decide_eq_true named, Nat.zero_lt_succ 39, rfl, rfl⟩

/-- One period of the mains with a square current: a reply for each half. -/
def period (positive negative : UInt16) : List MeasureOp :=
  .zeroCross :: List.replicate 20 (.sample 2 positive) ++ List.replicate 20 (.sample 2 negative)

/-- Equal periods have equal sums. -/
theorem terms_periods {ops : List MeasureOp} {s : Int} {k : Nat}
    (one : ∀ t, (terms t ops).sum = s ∧ (terms t ops).length = k) (n t : Nat) :
    (terms t (List.replicate n ops).flatten).sum = n * s ∧
      (terms t (List.replicate n ops).flatten).length = n * k := by
  induction n generalizing t with
  | zero => exact ⟨by simp [terms], by simp [terms]⟩
  | succ n ih =>
    obtain ⟨sum, length⟩ := one t
    obtain ⟨sum', length'⟩ := ih (phase t ops)
    rw [List.replicate_succ, List.flatten_cons, terms_append, List.sum_append, List.length_append,
      sum, sum', length, length']
    constructor
    · push_cast
      ring
    · ring

/-- A period starts with a zero crossing, so the phase before it does not matter. -/
theorem terms_period (t : Nat) (positive negative : UInt16) :
    terms t (period positive negative) = terms 0 (period positive negative) := rfl

/-- A second of one ampere, or of ten. -/
def ampere : List MeasureOp := (List.replicate 50 (period 4176 4016)).flatten
def tenAmpere : List MeasureOp := (List.replicate 50 (period 4896 3296)).flatten

theorem ampere_terms : (terms 0 ampere).sum = 412300000 ∧ (terms 0 ampere).length = 2000 := by
  have one : ∀ t, (terms t (period 4176 4016)).sum = 8246000 ∧
      (terms t (period 4176 4016)).length = 40 := fun t => by
    rw [terms_period]
    decide +kernel
  exact terms_periods one 50 0

theorem tenAmpere_terms :
    (terms 0 tenAmpere).sum = 4123000000 ∧ (terms 0 tenAmpere).length = 2000 := by
  have one : ∀ t, (terms t (period 4896 3296)).sum = 82460000 ∧
      (terms t (period 4896 3296)).length = 40 := fun t => by
    rw [terms_period]
    decide +kernel
  exact terms_periods one 50 0

theorem boot_prise : BatchStart (userInit .prise 0 [65]).env := boot_batchStart .prise 0 (by decide)

theorem average_exact_ampere :
    (measureRun .prise (userInit .prise 0 [65]) ampere).env.moyenPower = 206150 := by
  obtain ⟨sum, length⟩ := ampere_terms
  obtain ⟨-, average⟩ := average_exact_iff .prise boot_prise ampere
  have temp : (userInit .prise 0 [65]).env.tempFromZeroCross = 0 := rfl
  have whole : (terms 0 ampere).drop (2000 - nbMesureAdcBeforSend) =
      terms 0 ampere := List.drop_zero
  rw [temp, length, whole, SumFits, sum] at average
  refine (average (fun none => ?_) rfl).mpr (by decide)
  rw [none] at length
  cases length

/-- With ten amperes the sum is 4123000000, and the average is negative. -/
theorem average_wraps_tenAmpere : Int.tdiv (terms 0 tenAmpere).sum nbMesureAdcBeforSend = 2061500 ∧
    (measureRun .prise (userInit .prise 0 [65]) tenAmpere).env.moyenPower = -85983 := by
  obtain ⟨sum, length⟩ := tenAmpere_terms
  have some : terms 0 tenAmpere ≠ [] := fun none => by
    rw [none] at length
    cases length
  have whole : (terms 0 tenAmpere).drop (2000 - nbMesureAdcBeforSend) = terms 0 tenAmpere :=
    List.drop_zero
  have multiple : (terms 0 tenAmpere).length % nbMesureAdcBeforSend = 0 := by
    rw [length]
    rfl
  have temp : (userInit .prise 0 [65]).env.tempFromZeroCross = 0 := rfl
  have average := @average_wrapped .prise _ boot_prise tenAmpere (terms 0 tenAmpere)
    (by rw [temp]) some multiple
  rw [length, whole, sum] at average
  rw [sum, average]
  decide +kernel

end Domotic
