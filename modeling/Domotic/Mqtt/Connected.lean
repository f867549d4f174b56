import Domotic.Mqtt.Session

/-!
# The connection flag and the retry timer

Both are changed by two callbacks of the client. `mqtt_tcpclient_discon_cb` reports a lost
connection, `mqtt_tcpclient_recon_cb` does not: behind it the flag is out of date. The retry
timer is only armed when there is no session, so it never interrupts one.
-/
namespace Domotic
open Library

variable {st : Station} {s s' : Session} {es : List SessionEvent} {ev : SessionEvent}

theorem mqttInit_inUse : mqttInit.client.InUse := ⟨rfl, nofun, nofun⟩

theorem SessionRun.inUse (run : SessionRun st mqttInit es s) : s.client.InUse :=
  Run.invariant (I := fun s => s.client.InUse) (fun _ _ _ step inUse =>
    (Session.step_outcome inUse step).1) run mqttInit_inUse

/-! ## The retry timer -/

/-- A step keeps the timer disarmed while there is a session. -/
theorem step_disarmed (inUse : s.client.InUse) (step : s.step st ev = some s')
    (disarmed : s.client.Established → s.timerTryConnect = false) :
    s'.client.Established → s'.timerTryConnect = false := by
  intro established
  cases (Session.step_outcome inUse step).2 with
  | quiet quiet => exact quiet.timerTryConnect.trans (disarmed (quiet.established established))
  | accepted pdata stack accepts connected timer => exact timer
  | lost reported connected outside => exact absurd established outside

theorem run_disarmed (run : SessionRun st mqttInit es s) :
    s.client.Established → s.timerTryConnect = false := by
  induction run with
  | nil => exact fun h => h.elim nofun nofun
  | snoc before step ih => exact step_disarmed (SessionRun.inUse before) step ih

/-- In an established session the timer is disarmed, and `tryConnect` cannot fire. -/
theorem established_not_retried (run : SessionRun st mqttInit es s)
    (established : s.client.Established) :
    s.timerTryConnect = false ∧ s.step st .tryConnect = none := by
  have disarmed := run_disarmed run established
  refine ⟨disarmed, ?_⟩
  unfold Session.step
  rw [disarmed]
  rfl

/-- A station of the build `PRISE`. -/
def Station.prise : Station := ⟨.prise, [97], by decide, 49, 0⟩

/-- The broker accepts the first connection. -/
def firstSession : List SessionEvent :=
  [.tryConnect, .connectCb, .recv [0x20, 2, 0, 0] fun _ _ => 0]

theorem firstSession_runs : ∃ s, SessionRun .prise mqttInit firstSession s ∧
    s.client.connState = .mqttData ∧ s.connected = true := by
  have state : (firstSession.foldlM (Session.step .prise) mqttInit).map
      (fun s => (s.client.connState, s.connected)) = some (.mqttData, true) := by decide +kernel
  obtain ⟨s, run, eq⟩ := Option.map_eq_some_iff.mp state
  exact ⟨s, run_iff_foldlM.mpr run, congrArg Prod.fst eq, congrArg Prod.snd eq⟩

theorem first_session_not_retried : ∃ s, SessionRun .prise mqttInit firstSession s ∧
    s.timerTryConnect = false ∧ s.step .prise .tryConnect = none := by
  obtain ⟨s, run, data, -⟩ := firstSession_runs
  exact ⟨s, run, established_not_retried run (.inl data)⟩

/-! ## The flag -/

/-- A `CONNACK` with return code zero was processed after the last connection was lost. -/
def Answered (st : Station) (es : List SessionEvent) : Prop :=
  ∃ pre pdata stack post t, es = pre ++ .recv pdata stack :: post ∧
    SessionRun st mqttInit pre t ∧ Accepts t.client pdata ∧ pdata[3]? = some 0 ∧
    .disconCb ∉ post ∧ .reconCb ∉ post

/-- No failure is reported to a client whose flag is set, nor a disconnection that
`mqttDisconnectedCb` does not hear of, and no `CONNACK` without its fourth byte, whose return code
is then an old byte of the buffer, sets the flag. -/
def TruthfulStep (s : Session) : SessionEvent → Prop
  | .reconCb => s.connected = false
  | .disconCb => s.disconnectedCb = .diconnectedCB → s.connected = false
  | .recv pdata _ => Accepts s.client pdata → s.connected = false → 4 ≤ pdata.length
  | _ => True

theorem Accepts.fourth {c : Client} {pdata : List UInt8} (accepts : Accepts c pdata)
    (long : 4 ≤ pdata.length) : pdata[3]? = some 0 := by
  have accepted := accepts.accepted
  simp only [Client.store, show 3 < pdata.length from long, ↓reduceIte,
    List.getD_eq_getElem?_getD, List.getElem?_eq_getElem long, Option.getD_some] at accepted
  rw [List.getElem?_eq_getElem long, accepted]

/-- The last event answers, or it loses nothing and there was an answer before. -/
theorem Answered.snoc (answered : Answered st (es ++ [ev])) :
    (∃ pdata stack t, ev = .recv pdata stack ∧ SessionRun st mqttInit es t ∧
        Accepts t.client pdata ∧ pdata[3]? = some 0) ∨
      Answered st es ∧ ev ≠ .disconCb ∧ ev ≠ .reconCb := by
  obtain ⟨pre, pdata, stack, post, t, eq, run, accepts, zero, discon, recon⟩ := answered
  rcases List.eq_nil_or_concat post with rfl | ⟨post, last, rfl⟩
  · obtain ⟨rfl, heq⟩ := List.append_inj' eq rfl
    obtain rfl : ev = .recv pdata stack := by simpa using heq
    exact .inl ⟨pdata, stack, t, rfl, run, accepts, zero⟩
  · rw [List.concat_eq_append] at eq discon recon
    rw [← List.cons_append, ← List.append_assoc] at eq
    obtain ⟨rfl, heq⟩ := List.append_inj' eq rfl
    obtain rfl : ev = last := by simpa using heq
    simp only [List.mem_append, List.mem_singleton, not_or] at discon recon
    exact .inr ⟨⟨pre, pdata, stack, post, t, rfl, run, accepts, zero, discon.1, recon.1⟩,
      Ne.symm discon.2, Ne.symm recon.2⟩

theorem Answered.append (answered : Answered st es) (discon : ev ≠ .disconCb)
    (recon : ev ≠ .reconCb) : Answered st (es ++ [ev]) := by
  obtain ⟨pre, pdata, stack, post, t, rfl, run, accepts, zero, discon', recon'⟩ := answered
  refine ⟨pre, pdata, stack, post ++ [ev], t, by simp, run, accepts, zero, ?_, ?_⟩
  · simp [discon', Ne.symm discon]
  · simp [recon', Ne.symm recon]

/-- An accepted connection sets the flag. -/
theorem step_accepts {pdata : List UInt8} {stack : Nat → Nat → UInt8} (inUse : s.client.InUse)
    (step : s.step st (.recv pdata stack) = some s') (accepts : Accepts s.client pdata) :
    s'.connected = true := by
  obtain ⟨-, eq⟩ := Option.ite_none_right_eq_some.mp step
  obtain ⟨⟨c', effects⟩, recv, rfl⟩ := Option.map_eq_some_iff.mp eq
  obtain ⟨-, ⟨-, -, rfl⟩ | ⟨refused, -⟩⟩ := recv_cases inUse.callbacks recv
  · rfl
  · exact absurd accepts refused

/-- Behind an answer the flag is set. -/
theorem Answered.connected (answered : Answered st es) (run : SessionRun st mqttInit es s) :
    s.connected = true := by
  induction run with
  | nil =>
    obtain ⟨pre, _, _, _, _, eq, -⟩ := answered
    cases pre <;> cases eq
  | @snoc es ev s s' before step ih =>
    have inUse := SessionRun.inUse before
    rcases answered.snoc with ⟨pdata, stack, t, rfl, run', accepts, -⟩ | ⟨answered, discon, -⟩
    · exact step_accepts inUse step (before.unique run' ▸ accepts)
    · cases (Session.step_outcome inUse step).2 with
      | quiet quiet => exact quiet.connected.trans (ih answered)
      | accepted pdata stack accepts connected timer => exact connected
      | lost => exact absurd rfl discon

/-- A step from a state whose flag tells the truth. -/
theorem truthful_step (run : SessionRun st mqttInit es s) (step : s.step st ev = some s')
    (truth : s.connected = true → Answered st es) :
    (s'.connected = true → Answered st (es ++ [ev])) ↔ TruthfulStep s ev := by
  have inUse := SessionRun.inUse run
  cases (Session.step_outcome inUse step).2 with
  | quiet quiet =>
    by_cases loss : ev = .reconCb ∨ ev = .disconCb
    · have unreported : TruthfulStep s ev ↔ s.connected = false := by
        rcases loss with rfl | rfl
        · exact Iff.rfl
        · exact ⟨fun truthful => truthful (quiet.other rfl), fun off _ => off⟩
      rw [unreported]
      constructor
      · intro h
        refine Bool.eq_false_iff.mpr fun on => ?_
        rcases (h (quiet.connected.trans on)).snoc with ⟨_, _, _, event, -⟩ | ⟨-, discon, recon⟩
        · subst event
          rcases loss with event | event <;> cases event
        · exact loss.elim recon discon
      · intro off on
        exact absurd (off.symm.trans (quiet.connected.symm.trans on)) Bool.false_ne_true
    · obtain ⟨recon, discon⟩ := not_or.mp loss
      refine iff_of_true (fun on => (truth (quiet.connected.symm.trans on)).append discon
        recon) ?_
      cases ev with
      | recv pdata stack =>
        intro accepts off
        have on := quiet.connected.symm.trans (step_accepts inUse step accepts)
        exact absurd (off.symm.trans on) Bool.false_ne_true
      | reconCb => exact absurd rfl recon
      | disconCb => exact absurd rfl discon
      | _ => trivial
  | accepted pdata stack accepts connected timer =>
    constructor
    · intro h _ off
      rcases (h connected).snoc with ⟨pdata, stack, t, event, -, -, zero⟩ | ⟨answered, -⟩
      · obtain ⟨rfl, -⟩ := SessionEvent.recv.inj event
        by_contra short
        rw [List.getElem?_eq_none (by omega)] at zero
        cases zero
      · exact absurd (off.symm.trans (answered.connected run)) Bool.false_ne_true
    · intro whole _
      by_cases on : s.connected = true
      · exact (truth on).append nofun nofun
      · have off : s.connected = false := by simpa using on
        exact ⟨es, pdata, stack, [], s, rfl, run, accepts,
          accepts.fourth (whole accepts off), nofun, nofun⟩
  | lost reported connected outside =>
    refine iff_of_true (fun on => absurd (connected.symm.trans on) Bool.false_ne_true) ?_
    exact fun replaced => nomatch reported.symm.trans replaced

/-- `mqttIsConected` tells the truth in every state of a run exactly when every step of the run
is truthful. -/
theorem flag_truthful_iff (run : SessionRun st mqttInit es s) :
    (∀ pre u, pre <+: es → SessionRun st mqttInit pre u → u.mqttIsConected = true →
        Answered st pre) ↔
      ∀ pre ev u, pre ++ [ev] <+: es → SessionRun st mqttInit pre u → TruthfulStep u ev := by
  induction run with
  | nil =>
    constructor
    · intro _ pre ev u before
      simp at before
    · intro _ pre u before run on
      obtain rfl := List.prefix_nil.mp before
      obtain rfl := run.unique .nil
      cases on
  | @snoc es ev s s' before step ih =>
    rw [Run.forall_states_snoc (P := fun pre (u : Session) => u.mqttIsConected = true →
      Answered st pre) (before.snoc step), Run.forall_steps_snoc
      (P := fun _ (ev : SessionEvent) (u : Session) => TruthfulStep u ev) before, ih]
    refine and_congr_right fun steps => ?_
    exact truthful_step before step (ih.mpr steps es s List.prefix_rfl before)

/-- The flag tells the truth in the first session. -/
theorem first_session_truthful : ∃ s, SessionRun .prise mqttInit firstSession s ∧
    ∀ pre u, pre <+: firstSession → SessionRun .prise mqttInit pre u →
      u.mqttIsConected = true → Answered .prise pre := by
  obtain ⟨s, run, -⟩ := firstSession_runs
  refine ⟨s, run, (flag_truthful_iff run).mpr fun pre ev u before _ => ?_⟩
  have mem : ev ∈ firstSession := before.subset (by simp)
  simp only [firstSession, List.mem_cons, List.not_mem_nil, or_false] at mem
  rcases mem with rfl | rfl | rfl
  · trivial
  · trivial
  · exact fun _ _ => by decide

/-- A failure of the connection in the first session leaves the flag set. -/
theorem failure_not_reported : ∃ u, SessionRun .prise mqttInit (firstSession ++ [.reconCb]) u ∧
    u.mqttIsConected = true ∧ ¬ Answered .prise (firstSession ++ [.reconCb]) := by
  have state : ((firstSession ++ [SessionEvent.reconCb]).foldlM (Session.step .prise) mqttInit).map
      Session.mqttIsConected = some true := by decide +kernel
  obtain ⟨u, run, on⟩ := Option.map_eq_some_iff.mp state
  refine ⟨u, run_iff_foldlM.mpr run, on, fun answered => ?_⟩
  rcases answered.snoc with ⟨_, _, _, event, -⟩ | ⟨-, -, recon⟩
  · cases event
  · exact recon rfl

end Domotic
