import Domotic.Store.Watchdog

/-!
# The reported position

`storeIRQ` reports the percentage of the position when it differs from `niveau_100`, the one
it reported last, and then the two agree. `timeout_store` rewrites the position and reports
`niveau_100` as it is: the percentage that it computes is not used. The report is therefore
right exactly when a pulse was counted before and the position keeps its percentage.
-/
namespace Domotic
open Library

variable {m m' : App} {e e' : Env}

/-- `niveau*100/echelle`, clamped to 0..100. -/
def percent (niveau : Int) (echelle : Nat) : Int :=
  let p := Int.tdiv (niveau * 100) echelle
  if 100 < p then 100 else if p < 0 then 0 else p

/-- The variables of the report. -/
structure Meter where
  niveau : Int
  niveau100 : Int
  tSleep : Nat
  stationName : List UInt8
  sent : List SensorReport

def Env.meter (e : Env) : Meter := ⟨e.niveau, e.niveau100, e.tSleep, e.stationName, e.sent⟩

namespace Meter

/-- The last report of the position. -/
def last (r : Meter) : Option SensorReport :=
  (r.sent.filter fun s => s.name = some "_MsenS_").getLast?

/-- The last value sent is the position. -/
def ReportsPosition (r : Meter) : Prop :=
  ∀ s, r.last = some s → s.val = percent r.niveau r.tSleep

/-- The last value sent is the cached one. -/
def Cached (r : Meter) : Prop := ∀ s, r.last = some s → s.val = r.niveau100

def Named (r : Meter) : Prop := r.stationName.headD 0 ≠ 0

/-- The computations on the position do not overflow. -/
def Fits (r : Meter) : Prop :=
  0 < r.tSleep ∧ r.tSleep < 2147483648 ∧ -2147483648 ≤ r.niveau * 100 ∧
    r.niveau * 100 < 2147483648

instance (r : Meter) : Decidable r.Fits :=
  inferInstanceAs (Decidable (_ ∧ _ ∧ _ ∧ _))

end Meter

/-! ## The parts of the handlers -/

section meter
variable (e : Env)

@[simp] theorem setPwm_meter (l p : Nat) : (e.setPwm l p).meter = e.meter := rfl
@[simp] theorem setPower_meter (p : Int) : (e.setPower p).meter = e.meter := rfl
@[simp] theorem setConsinge_meter (target : Int) : (e.setConsinge target).meter = e.meter := rfl
@[simp] theorem report_meter (n : Int) (sent : List SensorReport) :
    (e.report n sent).meter = { e.meter with niveau100 := n, sent := sent } := rfl

@[simp] theorem regulateDown_meter (delta : Int) : (regulateDown delta e).meter = e.meter := by
  unfold regulateDown
  split_ifs <;> simp

@[simp] theorem regulateUp_meter (delta : Int) : (regulateUp delta e).meter = e.meter := by
  unfold regulateUp
  split_ifs <;> simp

theorem countPulse_meter (up : Bool) :
    ∃ n, (countPulse up e).meter = { e.meter with niveau := n } := by
  unfold countPulse
  dsimp only
  split_ifs <;> exact ⟨_, rfl⟩

theorem storeCommand_meter (value : UInt8) : (storeCommand value e).meter = e.meter := by
  have start : (startTimeout (e.setConsinge (consingeOf value e))).meter = e.meter := rfl
  obtain ⟨-, eq⟩ | ⟨-, eq⟩ | ⟨-, eq⟩ := storeCommand_cases value e <;> rw [eq] <;> simp [start]

end meter

/-- A station with a name sends what it is asked to. -/
theorem sendPaquetSensor_named (named : e.meter.Named) (topic : String) (type : SensorType)
    (val : Int) (retain : Bool) (name : Option String) :
    e.sendPaquetSensor topic type val retain name =
      e.report e.niveau100 (e.sent ++ [⟨topic, type, val, retain, name⟩]) := by
  have named : e.stationName.headD 0 ≠ 0 := named
  unfold Env.sendPaquetSensor
  split
  · rename_i empty
    simp [empty] at named
  · rename_i c cs name
    rw [if_neg (by simpa [name] using named)]
    rfl

theorem sendPaquetSensor_sent (named : e.meter.Named) (topic : String)
    (type : SensorType) (val : Int) (retain : Bool) (name : Option String) :
    (e.sendPaquetSensor topic type val retain name).meter.Named ∧
      (e.sendPaquetSensor topic type val retain name).sent =
        e.sent ++ [⟨topic, type, val, retain, name⟩] := by
  rw [sendPaquetSensor_named named]
  exact ⟨named, rfl⟩

/-- Without overflow the code computes the percentage. -/
theorem pourcentage_exact (fits : e.meter.Fits) :
    pourcentage e = some (Int.tdiv (e.niveau * 100) e.tSleep) := by
  obtain ⟨positive, small, low, high⟩ := fits
  simp only [Env.meter] at positive small low high
  have echelle : int32 e.tSleep = e.tSleep := int32_of_range (by omega) (by omega)
  have product : int32 (e.niveau * 100) = e.niveau * 100 := int32_of_range low high
  have bound : (Int.tdiv (e.niveau * 100) e.tSleep).natAbs ≤ (e.niveau * 100).natAbs := by
    rw [Int.natAbs_tdiv]
    exact Nat.div_le_self _ _
  have quotient : int32 (Int.tdiv (e.niveau * 100) e.tSleep) = Int.tdiv (e.niveau * 100) e.tSleep :=
    int32_of_range (by omega) (by omega)
  have nonzero : e.tSleep ≠ 0 := by omega
  simp [pourcentage, echelle, product, quotient, nonzero]

/-- What a report of the position does. -/
theorem reportNiveau_meter (named : e.meter.Named) (fits : e.meter.Fits)
    (h : reportNiveau e = some e') :
    e'.meter.niveau100 = percent e'.meter.niveau e'.meter.tSleep ∧
      e'.meter.niveau = e.meter.niveau ∧ e'.meter.tSleep = e.meter.tSleep ∧
      e'.meter.stationName = e.meter.stationName ∧ (e.meter.Cached → e'.meter.Cached) := by
  simp only [reportNiveau, pourcentage_exact fits, Option.bind_eq_bind, Option.bind_some] at h
  have value : percent e.niveau e.tSleep = (if 100 < Int.tdiv (e.niveau * 100) e.tSleep then 100
      else if Int.tdiv (e.niveau * 100) e.tSleep < 0 then 0
      else Int.tdiv (e.niveau * 100) e.tSleep) := rfl
  rw [← value] at h
  generalize known : percent e.niveau e.tSleep = p at h
  split at h
  · obtain rfl := Option.some.inj h
    rw [sendPaquetSensor_named (e := e.report p e.sent) named]
    refine ⟨known.symm, rfl, rfl, rfl, fun _ s last => ?_⟩
    have only : s = ⟨"/sensors/switch/", .switch, p, false, some "_MsenS_"⟩ := by
      simpa [Meter.last, Env.meter, Env.report] using last.symm
    exact congrArg SensorReport.val only
  · rename_i same
    obtain rfl := Option.some.inj h
    exact ⟨(known.trans (not_not.mp same)).symm, rfl, rfl, rfl, id⟩

/-! ## One step -/

/-- The position that the watchdog leaves. -/
def timeoutNiveau (e : Env) : Int :=
  if e.puissancePwm 0 ≠ 0 ∨ e.puissancePwm 1 ≠ 0 then
    if e.niveau < e.consinge then e.consinge + ↑(e.tSleep / 500)
    else e.consinge - ↑(e.tSleep / 500)
  else e.niveau

/-- The percentage of the position that the watchdog leaves is the cached one. -/
def CachedTimeout (e : Env) : Prop := percent (timeoutNiveau e) e.tSleep = e.niveau100

/-- The watchdog leaves the percentage of the position as it is. -/
def FreshTimeout (e : Env) : Prop :=
  percent (timeoutNiveau e) e.tSleep = percent e.niveau e.tSleep

instance (e : Env) : Decidable (FreshTimeout e) := inferInstanceAs (Decidable (_ = _))

/-- The interrupt counts a pulse: its input is low. -/
def Event.Pulse : Event → Prop
  | .irq status => status.store = true ∧ status.pulse = false
  | _ => False

/-- The target comes from a percentage of the scale. -/
def TargetBounded (e : Env) : Prop := 0 ≤ e.consinge ∧ e.consinge ≤ 42949672

theorem consingeOf_bounds (value : UInt8) (e : Env) :
    0 ≤ consingeOf value e ∧ consingeOf value e ≤ 42949672 := by
  unfold consingeOf
  have small := uint32_lt (↑(min value.toNat 100) * ↑e.tSleep)
  generalize uint32 (↑(min value.toNat 100) * ↑e.tSleep) = p at *
  rw [int32_of_range (by omega) (by omega)]
  omega

theorem stopMotor_meter (e : Env) (target : TargetBounded e) (small : e.tSleep < 2147483648) :
    (stopMotor e).meter = { e.meter with niveau := timeoutNiveau e } := by
  obtain ⟨low, high⟩ := target
  have above : int32 (e.consinge + ↑(e.tSleep / 500)) = e.consinge + ↑(e.tSleep / 500) :=
    int32_of_range (by omega) (by omega)
  have below : int32 (e.consinge - ↑(e.tSleep / 500)) = e.consinge - ↑(e.tSleep / 500) :=
    int32_of_range (by omega) (by omega)
  unfold stopMotor timeoutNiveau
  by_cases moving : e.puissancePwm 0 ≠ 0 ∨ e.puissancePwm 1 ≠ 0
  · by_cases under : e.niveau < e.consinge
    · have under' : ((e.setPwm 0 0).setPwm 1 0).niveau <
        ((e.setPwm 0 0).setPwm 1 0).consinge := under
      simp only [moving, under, under', ↓reduceIte]
      exact congrArg (fun n => { e.meter with niveau := n }) above
    · have under' : ¬ ((e.setPwm 0 0).setPwm 1 0).niveau < ((e.setPwm 0 0).setPwm 1 0).consinge :=
        under
      simp only [moving, under, under', ↓reduceIte]
      exact congrArg (fun n => { e.meter with niveau := n }) below
  · simp only [moving, ↓reduceIte]
    rfl

theorem storeIRQ_consinge {pulse direction : Bool} (h : storeIRQ pulse direction e = some e') :
    e'.consinge = e.consinge := by
  obtain ⟨r, n, sent, hr, out⟩ := storeIRQ_eq h
  have regulated : r.consinge = e.consinge := by
    rw [hr]
    simp
  have counted : (countPulse (!direction) r).consinge = r.consinge := by
    unfold countPulse
    dsimp only
    split_ifs <;> rfl
  obtain ⟨-, rfl⟩ | ⟨-, rfl⟩ := out
  · exact regulated
  · exact counted.trans regulated

theorem step_target {ev : Event} (h : step .store m ev = some m')
    (target : TargetBounded m.env) : TargetBounded m'.env := by
  have of_consinge : m'.env.consinge = m.env.consinge → TargetBounded m'.env := fun same => by
    rw [TargetBounded, same]
    exact target
  obtain ⟨-, same⟩ | ⟨status, e, -, -, same, run⟩ | ⟨data, dataLen, -, -, rfl⟩ | ⟨-, run⟩ :=
    store_step_cases h
  · exact of_consinge (congrArg Control.consinge same)
  · exact of_consinge ((storeIRQ_consinge run).trans (congrArg Control.consinge same))
  · have bounds := consingeOf_bounds (data 1) m.env
    obtain ⟨-, eq⟩ | ⟨-, eq⟩ | ⟨-, eq⟩ := storeCommand_cases (data 1) m.env <;>
      exact (congrArg TargetBounded eq).mpr bounds
  · obtain ⟨n, sent, eq⟩ := timeoutStore_eq run
    refine of_consinge ?_
    rw [eq]
    unfold stopMotor
    dsimp only
    split_ifs <;> rfl

theorem meter_of_control (same : e'.control = e.control) : e'.meter = e.meter := by
  have niveau : e'.niveau = e.niveau := congrArg Control.niveau same
  have niveau100 : e'.niveau100 = e.niveau100 := congrArg Control.niveau100 same
  have tSleep : e'.tSleep = e.tSleep := congrArg Control.tSleep same
  have name : e'.stationName = e.stationName := congrArg Control.stationName same
  have sent : e'.sent = e.sent := congrArg Control.sent same
  simp [Env.meter, niveau, niveau100, tSleep, name, sent]

/-- A run of `storeIRQ` leaves the report alone, or counts a pulse and brings it up to date. -/
theorem storeIRQ_meter {pulse direction : Bool} (named : e.meter.Named)
    (fits' : e'.meter.Fits) (run : storeIRQ pulse direction e = some e') :
    (pulse = true ∧ e'.meter = e.meter) ∨
    (pulse = false ∧ e'.meter.tSleep = e.meter.tSleep ∧ e'.meter.stationName = e.meter.stationName ∧
      (e.meter.Cached → e'.meter.Cached) ∧
      e'.meter.niveau100 = percent e'.meter.niveau e'.meter.tSleep) := by
  unfold storeIRQ at run
  dsimp only at run
  generalize regulated : regulateUp (int32 (e.consinge - e.niveau))
    (regulateDown (int32 (e.consinge - e.niveau)) e) = r at run
  have kept : r.meter = e.meter := by
    rw [← regulated]
    simp
  split at run
  · rename_i low
    obtain ⟨n, counted⟩ := countPulse_meter r (!direction)
    rw [kept] at counted
    generalize countPulse (!direction) r = c at run counted
    obtain ⟨k, sent, eq⟩ := reportNiveau_eq run
    have place : e'.meter.niveau = c.meter.niveau ∧ e'.meter.tSleep = c.meter.tSleep := by
      rw [eq]
      exact ⟨rfl, rfl⟩
    have fits : c.meter.Fits := by
      obtain ⟨positive, small, low, high⟩ := fits'
      rw [place.1] at low high
      rw [place.2] at positive small
      exact ⟨positive, small, low, high⟩
    have named' : c.meter.Named := by
      rw [counted]
      exact named
    obtain ⟨fresh, -, scale, name, cached⟩ := reportNiveau_meter named' fits run
    rw [counted] at scale name cached
    exact .inr ⟨low, scale, name, cached, fresh⟩
  · rename_i high
    obtain rfl := Option.some.inj run
    exact .inl ⟨Bool.eq_true_of_not_eq_false high, kept⟩

/-- No step renames the station. -/
theorem step_stationName {ev : Event} (h : step .store m ev = some m') :
    m'.env.meter.stationName = m.env.meter.stationName := by
  obtain ⟨-, same⟩ | ⟨status, e, -, -, same, run⟩ | ⟨data, dataLen, -, -, rfl⟩ | ⟨-, run⟩ :=
    store_step_cases h
  · exact congrArg Meter.stationName (meter_of_control same)
  · have before := congrArg Meter.stationName (meter_of_control same)
    obtain ⟨r, n, sent, hr, out⟩ := storeIRQ_eq run
    have kept : r.meter = e.meter := by
      rw [hr]
      simp
    obtain ⟨k, counted⟩ := countPulse_meter r (!status.direction)
    obtain ⟨-, eq⟩ | ⟨-, eq⟩ := out <;> rw [eq, ← before]
    · exact congrArg Meter.stationName kept
    · rw [report_meter, counted, kept]
  · exact congrArg Meter.stationName (storeCommand_meter m.env (data 1))
  · obtain ⟨n, sent, eq⟩ := timeoutStore_eq run
    rw [eq]
    unfold stopMotor
    dsimp only
    split_ifs <;> rfl

/-- The watchdog rewrites the position and reports the cached percentage. -/
theorem timeoutStore_meter (named : e.meter.Named) (target : TargetBounded e)
    (small : e.tSleep < 2147483648) (run : timeoutStore e = some e') :
    e'.meter = { e.meter with
      niveau := timeoutNiveau e
      sent := e.sent ++ [⟨"/sensors/switch/", .switch, e.niveau100, false, some "_MsenS_"⟩] } := by
  unfold timeoutStore at run
  obtain ⟨p, -, run⟩ := Option.bind_eq_some_iff.mp run
  have eq := Option.some.inj run
  let d := e.setTimerTimoutStore e.timerTimoutStore.disarm
  have stopped : (stopMotor d).meter = { e.meter with niveau := timeoutNiveau e } :=
    stopMotor_meter d target small
  have named' : ((stopMotor d).setPower 0).meter.Named := by
    rw [setPower_meter, stopped]
    exact named
  rw [sendPaquetSensor_named named'] at eq
  have cache : ((stopMotor d).setPower 0).niveau100 = e.niveau100 :=
    congrArg Meter.niveau100 stopped
  have sent : ((stopMotor d).setPower 0).sent = e.sent := congrArg Meter.sent stopped
  rw [← eq, report_meter, setPower_meter, stopped, cache, sent]
  rfl

/-- What a step does to the report. -/
theorem step_report {ev : Event} (h : step .store m ev = some m') (named : m.env.meter.Named)
    (target : TargetBounded m.env) (cached : m.env.meter.Cached)
    (reports : m.env.meter.ReportsPosition) (fits : m.env.meter.Fits)
    (fits' : m'.env.meter.Fits) :
    m'.env.meter.tSleep = m.env.meter.tSleep ∧
      m'.env.meter.stationName = m.env.meter.stationName ∧ m'.env.meter.Cached ∧
      (m'.env.meter.ReportsPosition ↔ (ev = .timeoutStore → CachedTimeout m.env)) := by
  have of_meter : m'.env.meter = m.env.meter → ev ≠ .timeoutStore →
      m'.env.meter.tSleep = m.env.meter.tSleep ∧
      m'.env.meter.stationName = m.env.meter.stationName ∧ m'.env.meter.Cached ∧
      (m'.env.meter.ReportsPosition ↔ (ev = .timeoutStore → CachedTimeout m.env)) := by
    intro same other
    rw [same]
    exact ⟨rfl, rfl, cached, iff_of_true reports fun eq => absurd eq other⟩
  obtain ⟨quiet, same⟩ | ⟨status, e, rfl, -, same, run⟩ | ⟨data, dataLen, rfl, -, rfl⟩ |
    ⟨rfl, run⟩ := store_step_cases h
  · exact of_meter (meter_of_control same) fun eq => quiet (eq ▸ trivial)
  · have before := meter_of_control same
    rw [← before] at named cached
    obtain ⟨-, kept⟩ | ⟨-, scale, name, cached', fresh⟩ := storeIRQ_meter named fits' run
    · exact of_meter (kept.trans before) (by simp)
    · refine ⟨scale.trans (congrArg _ before), name.trans (congrArg _ before), cached' cached, ?_⟩
      exact iff_of_true (fun s last => (cached' cached s last).trans fresh) (by simp)
  · exact of_meter (storeCommand_meter m.env (data 1)) (by simp)
  · have meter := timeoutStore_meter named target fits.2.1 run
    have last : m'.env.meter.last = some ⟨"/sensors/switch/", .switch, m.env.niveau100, false,
        some "_MsenS_"⟩ := by
      rw [meter]
      simp [Meter.last]
    rw [Meter.Cached, Meter.ReportsPosition, last, meter]
    refine ⟨rfl, rfl, ?_, ?_⟩
    · rintro s eq
      obtain rfl := Option.some.inj eq
      rfl
    · constructor
      · intro reported _
        exact (reported _ rfl).symm
      · rintro fresh s eq
        obtain rfl := Option.some.inj eq
        exact (fresh rfl).symm

/-- The cached percentage is that of the position once a pulse was counted, and -1 before. -/
structure Meter.Counts (es : List Event) (r : Meter) : Prop where
  pulsed : (∃ ev ∈ es, ev.Pulse) → r.niveau100 = percent r.niveau r.tSleep
  unpulsed : (∀ ev ∈ es, ¬ ev.Pulse) → r.niveau100 = -1

theorem Meter.Counts.snoc {es : List Event} {ev : Event} {r : Meter} (counts : r.Counts es)
    (other : ¬ ev.Pulse) : r.Counts (es ++ [ev]) := by
  constructor
  · rintro ⟨e, mem, pulse⟩
    rcases List.mem_append.mp mem with before | last
    · exact counts.pulsed ⟨e, before, pulse⟩
    · obtain rfl := List.mem_singleton.mp last
      exact absurd pulse other
  · exact fun none => counts.unpulsed fun e mem => none e (List.mem_append_left _ mem)

/-- A pulse brings the cached percentage up to date. -/
theorem Meter.Counts.fresh {es : List Event} {ev : Event} {r : Meter} (pulse : ev.Pulse)
    (fresh : r.niveau100 = percent r.niveau r.tSleep) : r.Counts (es ++ [ev]) :=
  ⟨fun _ => fresh, fun none => absurd pulse (none ev (by simp))⟩

theorem percent_nonneg (niveau : Int) (echelle : Nat) : 0 ≤ percent niveau echelle := by
  unfold percent
  dsimp only
  split_ifs <;> omega

/-- The watchdog reports the right value if a pulse was counted and the percentage stays. -/
theorem cachedTimeout_iff {es : List Event} (counts : e.meter.Counts es) :
    CachedTimeout e ↔ (∃ ev ∈ es, ev.Pulse) ∧ FreshTimeout e := by
  unfold CachedTimeout FreshTimeout
  by_cases pulsed : ∃ ev ∈ es, ev.Pulse
  · have fresh : e.niveau100 = percent e.niveau e.tSleep := counts.pulsed pulsed
    rw [fresh]
    exact (and_iff_right pulsed).symm
  · have before : e.niveau100 = -1 := counts.unpulsed fun ev mem pulse => pulsed ⟨ev, mem, pulse⟩
    have positive := percent_nonneg (timeoutNiveau e) e.tSleep
    refine iff_of_false (fun same => ?_) fun both => pulsed both.1
    omega

/-- A step that leaves a right report keeps the account of the cached percentage. -/
theorem step_counts {es : List Event} {ev : Event} (h : step .store m ev = some m')
    (named : m.env.meter.Named) (target : TargetBounded m.env) (counts : m.env.meter.Counts es)
    (small : m.env.tSleep < 2147483648) (fits' : m'.env.meter.Fits)
    (right : ev = .timeoutStore → CachedTimeout m.env) : m'.env.meter.Counts (es ++ [ev]) := by
  obtain ⟨quiet, same⟩ | ⟨status, e, rfl, store, same, run⟩ | ⟨data, dataLen, rfl, -, rfl⟩ |
    ⟨rfl, run⟩ := store_step_cases h
  · rw [meter_of_control same]
    refine counts.snoc fun pulse => quiet ?_
    cases ev with
    | irq status => exact pulse.1
    | tick | mqttData | timeoutStore => exact pulse.elim
  · have before := meter_of_control same
    rw [← before] at named counts
    obtain ⟨high, kept⟩ | ⟨low, -, -, -, fresh⟩ := storeIRQ_meter named fits' run
    · rw [kept]
      exact counts.snoc fun pulse => Bool.false_ne_true (pulse.2.symm.trans high)
    · exact .fresh ⟨store, low⟩ fresh
  · rw [storeCommand_meter]
    exact counts.snoc id
  · have cached := right rfl
    rw [timeoutStore_meter named target small run]
    refine Meter.Counts.snoc ⟨fun _ => cached.symm, fun none => ?_⟩ id
    exact counts.unpulsed none

/-! ## Whole runs -/

/-- Every state that the run goes through computes without overflow. -/
def RunFits (m : App) (es : List Event) : Prop :=
  ∀ pre s, pre <+: es → AppRun .store m pre s → s.env.meter.Fits

/-- Every firing of the watchdog in the run comes behind a pulse and leaves the percentage of the
position as it is. -/
def FreshTimeouts (m : App) (es : List Event) : Prop :=
  ∀ pre ev s, pre ++ [ev] <+: es → AppRun .store m pre s → ev = .timeoutStore →
    (∃ e ∈ pre, e.Pulse) ∧ FreshTimeout s.env

theorem freshTimeouts_snoc {m s : App} {es : List Event} {ev : Event}
    (run : AppRun .store m es s) : FreshTimeouts m (es ++ [ev]) ↔ FreshTimeouts m es ∧
      (ev = .timeoutStore → (∃ e ∈ es, e.Pulse) ∧ FreshTimeout s.env) :=
  Run.forall_steps_snoc (P := fun pre (ev : Event) (s : App) => ev = .timeoutStore →
    (∃ e ∈ pre, e.Pulse) ∧ FreshTimeout s.env) run

/-- Nothing is asked of a run in which the watchdog does not fire. -/
theorem freshTimeouts_of_none {m : App} {es : List Event} (none : .timeoutStore ∉ es) :
    FreshTimeouts m es := by
  rintro pre _ s before - rfl
  exact absurd (before.subset (by simp)) none

theorem boot_meter (t : Nat) (name : List UInt8) :
    (userInit .store t name).env.meter = ⟨0, -1, t, name, []⟩ :=
  meter_of_control (userInit_store_control t name)

theorem boot_target (t : Nat) (name : List UInt8) : TargetBounded (userInit .store t name).env := by
  have consinge : (userInit .store t name).env.consinge = 0 :=
    congrArg Control.consinge (userInit_store_control t name)
  simp [TargetBounded, consinge]

/-- Along a run the last value reported is the position in every state, exactly when every
firing of the watchdog comes behind a pulse and leaves the percentage of the position. -/
theorem reported_iff_freshTimeouts {t : Nat} {name : List UInt8} {es : List Event}
    (named : name.headD 0 ≠ 0) (run : AppRun .store (userInit .store t name) es m)
    (fits : RunFits (userInit .store t name) es) :
    (∀ pre s, pre <+: es → AppRun .store (userInit .store t name) pre s →
        s.env.meter.ReportsPosition) ↔ FreshTimeouts (userInit .store t name) es := by
  suffices both : m.env.meter.stationName = name ∧ TargetBounded m.env ∧
      ((∀ pre s, pre <+: es → AppRun .store (userInit .store t name) pre s →
          s.env.meter.ReportsPosition) → m.env.meter.Cached ∧ m.env.meter.Counts es) ∧
      ((∀ pre s, pre <+: es → AppRun .store (userInit .store t name) pre s →
          s.env.meter.ReportsPosition) ↔ FreshTimeouts (userInit .store t name) es) from both.2.2.2
  induction run with
  | nil =>
    refine ⟨congrArg Meter.stationName (boot_meter t name), boot_target t name, fun _ => ?_,
      iff_of_true (fun pre s before run => ?_) fun pre ev s before => ?_⟩
    · rw [boot_meter]
      refine ⟨by simp [Meter.Cached, Meter.last], fun ⟨ev, mem, _⟩ => ?_, fun _ => rfl⟩
      cases mem
    · obtain rfl := List.prefix_nil.mp before
      obtain rfl := run.unique .nil
      rw [boot_meter]
      simp [Meter.ReportsPosition, Meter.last]
    · simp at before
  | @snoc es ev s s' run step ih =>
    have fitsBefore : RunFits (userInit .store t name) es := fun pre u before =>
      fits pre u (before.trans (List.prefix_append es [ev]))
    obtain ⟨name', target, account, reported⟩ := ih fitsBefore
    have states := Run.forall_states_snoc (P := fun _ (m : App) => m.env.meter.ReportsPosition)
      (run.snoc step)
    have named' : s.env.meter.Named := by
      rw [Meter.Named, name']
      exact named
    have fits₀ := fitsBefore es s List.prefix_rfl run
    have fits₁ := fits _ _ List.prefix_rfl (run.snoc step)
    have after : (∀ pre u, pre <+: es → AppRun .store (userInit .store t name) pre u →
        u.env.meter.ReportsPosition) → _ := fun right =>
      step_report step named' target (account right).1 (right es s List.prefix_rfl run) fits₀ fits₁
    refine ⟨(step_stationName step).trans name', step_target step target, ?_, ?_⟩
    · intro right
      obtain ⟨before, last⟩ := states.mp right
      obtain ⟨-, -, cached, fresh⟩ := after before
      exact ⟨cached, step_counts step named' target (account before).2 fits₀.2.1 fits₁
        (fresh.mp last)⟩
    · rw [states, freshTimeouts_snoc run, ← reported]
      apply and_congr_right
      intro right
      rw [← cachedTimeout_iff (account right).2]
      exact (after right).2.2.2

/-- The motor goes up, moves by one pulse and is then blocked. -/
def blocked : List Event :=
  [.message [83, 100], .irq ⟨false, true, false, false⟩, .timeoutStore]

/-- A run fits when every prefix of its events leads to a state that fits. -/
theorem runFits_of_prefixes {es : List Event}
    (each : ∀ k ≤ es.length, ((es.take k).foldlM (step .store) m).map
      (fun m => decide m.env.meter.Fits) = some true) : RunFits m es := by
  intro pre s before run
  have fits := each pre.length before.length_le
  rw [← List.prefix_iff_eq_take.mp before, run_iff_foldlM.mp run] at fits
  simpa using fits

theorem blocked_fits : RunFits (userInit .store 1000 [65]) blocked :=
  runFits_of_prefixes (by decide +kernel)

/-- The watchdog reports 0 while it writes a position of 100 percent. -/
theorem blocked_reports_stale : ¬ ∀ (t : Nat) (name : List UInt8) (es : List Event) (m : App),
    name.headD 0 ≠ 0 → AppRun .store (userInit .store t name) es m →
      RunFits (userInit .store t name) es → m.env.meter.ReportsPosition := by
  intro h
  have sent : ((blocked.foldlM (step .store) (userInit .store 1000 [65])).map fun m =>
      (m.env.meter.last.map SensorReport.val, percent m.env.niveau m.env.tSleep)) =
        some (some 0, 100) := by
    decide +kernel
  obtain ⟨m, run, eq⟩ := Option.map_eq_some_iff.mp sent
  obtain ⟨last, place⟩ := Prod.mk.inj eq
  obtain ⟨r, reported, value⟩ := Option.map_eq_some_iff.mp last
  have right := h 1000 [65] blocked m (by decide) (run_iff_foldlM.mpr run) blocked_fits r reported
  have wrong : (0 : Int) = 100 := value.symm.trans (right.trans place)
  omega

/-- The motor reaches one percent and is stopped before the watchdog fires. -/
def moved : List Event :=
  [.message [83, 1], .irq ⟨false, true, false, false⟩, .irq ⟨false, true, true, false⟩]

theorem moved_fits : RunFits (userInit .store 100 [65]) (moved ++ [.timeoutStore]) :=
  runFits_of_prefixes (by decide +kernel)

/-- Its position is reported all the way. -/
theorem reported_in_moved : ∃ m,
    AppRun .store (userInit .store 100 [65]) (moved ++ [.timeoutStore]) m ∧
      ∀ pre s, pre <+: moved ++ [.timeoutStore] → AppRun .store (userInit .store 100 [65]) pre s →
        s.env.meter.ReportsPosition := by
  have fresh : (moved.foldlM (step .store) (userInit .store 100 [65])).map (fun s =>
      (decide (FreshTimeout s.env), (step .store s .timeoutStore).isSome)) =
        some (true, true) := by
    decide +kernel
  obtain ⟨s, run, eq⟩ := Option.map_eq_some_iff.mp fresh
  obtain ⟨same, fires⟩ := Prod.mk.inj eq
  obtain ⟨m, step⟩ := Option.isSome_iff_exists.mp fires
  have run' := run_iff_foldlM.mpr run
  refine ⟨m, run'.snoc step, (reported_iff_freshTimeouts (by decide) (run'.snoc step)
    moved_fits).mpr ?_⟩
  rw [freshTimeouts_snoc run']
  refine ⟨freshTimeouts_of_none (by simp [moved, Event.message]), fun _ =>
    ⟨?_, of_decide_eq_true same⟩⟩
  exact ⟨.irq ⟨false, true, false, false⟩, by simp [moved], rfl, rfl⟩

end Domotic
