import Domotic.Mqtt.Ledger

/-!
# The timers of the client

What the client does by itself depends on its state, on the two timers and on three counters that
`mqtt_timer` moves once a second. `Times` is this part of the client, and a step of a session is a
step of it. Three results follow for every run: sends are paced, a silent session is
pinged, and a lost connection is renewed.
-/
namespace Domotic
open Library

/-- The part of the client that decides when it acts. -/
structure Times where
  pCon : Bool
  connState : ConnState
  mqttTimer : Bool
  keepAliveTick : Nat
  reconnectTick : Nat
  sendTimeout : Nat

def Client.times (c : Client) : Times :=
  ⟨c.pCon, c.connState, c.mqttTimer, c.keepAliveTick, c.reconnectTick, c.sendTimeout⟩

namespace Times

/-- `MQTT_Connect` -/
def connect (t : Times) : Times := ⟨true, .tcpConnecting, true, 0, 0, t.sendTimeout⟩

/-- A second in the state `MQTT_DATA` or `TCP_RECONNECT_REQ`, or in another one. -/
inductive Tick (t : Times) : Times → Prop where
  | data (state : t.connState = .mqttData) (early : t.keepAliveTick < 60) :
    Tick t { t with keepAliveTick := t.keepAliveTick + 1, sendTimeout := t.sendTimeout - 1 }
  | keepalive (state : t.connState = .mqttData) (late : 60 ≤ t.keepAliveTick) :
    Tick t { t with
      connState := .mqttKeepaliveSend, keepAliveTick := t.keepAliveTick + 1,
      sendTimeout := t.sendTimeout - 1 }
  | wait (state : t.connState = .tcpReconnectReq) (early : t.reconnectTick < 5) :
    Tick t { t with reconnectTick := t.reconnectTick + 1, sendTimeout := t.sendTimeout - 1 }
  | renew (state : t.connState = .tcpReconnectReq) (late : 5 ≤ t.reconnectTick) :
    Tick t { t with
      connState := .tcpReconnect, reconnectTick := 0, sendTimeout := t.sendTimeout - 1 }
  | other (data : t.connState ≠ .mqttData) (lost : t.connState ≠ .tcpReconnectReq) :
    Tick t { t with sendTimeout := t.sendTimeout - 1 }

/-- A run of `MQTT_Task`, by what it finds to do. -/
inductive Task (t : Times) (sent : Bool) : Times → Prop where
  | reconnect (state : t.connState = .tcpReconnect) : Task t sent t.connect
  | release (state : t.connState = .tcpDisconnected) : Task t sent { t with pCon := false }
  | keepalive (state : t.connState = .mqttKeepaliveSend) :
    Task t sent { t with
      connState := if sent then .mqttData else .tcpReconnectDisconnecting,
      keepAliveTick := if sent then 0 else t.keepAliveTick, sendTimeout := mqttSendTimout }
  | send (state : t.connState = .mqttData) (idle : t.sendTimeout = 0) :
    Task t sent { t with sendTimeout := mqttSendTimout }
  | nothing (reconnect : t.connState ≠ .tcpReconnect)
      (keepalive : t.connState ≠ .mqttKeepaliveSend) : Task t sent t

/-- What an event does to the timers. -/
inductive Step (t : Times) : SessionEvent → Times → Prop where
  | tryConnect : Step t .tryConnect t.connect
  | connectCb (pCon : t.pCon = true) :
    Step t .connectCb { t with connState := .mqttConnectSending, sendTimeout := mqttSendTimout }
  | disconCb (state : ConnState) (pCon : t.pCon = true)
      (lost : t.connState = .tcpDisconnecting ∧ state = .tcpDisconnected ∨
        t.connState ≠ .tcpDisconnecting ∧ state = .tcpReconnectReq) :
    Step t .disconCb { t with connState := state }
  | reconCb (pCon : t.pCon = true) : Step t .reconCb { t with connState := .tcpReconnectReq }
  | sentCb : Step t .sentCb { t with keepAliveTick := 0, sendTimeout := 0 }
  | recv (pdata : List UInt8) (stack : Nat → Nat → UInt8) (state : ConnState)
      (accepted : state = t.connState ∨
        t.connState = .mqttConnectSending ∧ state = .mqttData) :
    Step t (.recv pdata stack) { t with connState := state, keepAliveTick := 0 }
  | mqttTimer {t' : Times} (armed : t.mqttTimer = true) (tick : Tick t t') : Step t .mqttTimer t'
  | task {t' : Times} (stack : Nat → UInt8) (sent : Bool) (task : Task t sent t') :
    Step t (.task stack sent) t'
  | publish (stack : Nat → UInt8) (topic : Option (List UInt8)) (data : List UInt8)
      (qos retain : Int) : Step t (.publish stack topic data qos retain) t
  | subscribe (stack : Nat → UInt8) (topic : Option (List UInt8)) (qos : UInt8) :
    Step t (.subscribe stack topic qos) t
  | unSubscribe (stack : Nat → UInt8) (topic : Option (List UInt8)) :
    Step t (.unSubscribe stack topic) t
  | ping (stack : Nat → UInt8) : Step t (.ping stack) t
  | onDisconnected : Step t .onDisconnected t
  | disconnect : Step t .disconnect { t with connState := .tcpDisconnecting, mqttTimer := false }

end Times

/-! ## A step of a session is a step of its timers -/

variable {st : Station} {c c' : Client} {s s' t : Session} {ev : SessionEvent}
  {es pre : List SessionEvent}

theorem mqttTimer_tick : c.times.Tick (mqttTimer c).times := by
  by_cases data : c.connState = .mqttData
  · by_cases late : 60 ≤ c.keepAliveTick
    · have times : (mqttTimer c).times = { c.times with
          connState := .mqttKeepaliveSend, keepAliveTick := c.keepAliveTick + 1,
          sendTimeout := c.sendTimeout - 1 } := by
        have passed : mqttKeepalive / 2 < c.keepAliveTick + 1 := Nat.lt_succ_of_le late
        simp [mqttTimer, data, passed, Client.times]
      rw [times]
      exact .keepalive data late
    · have times : (mqttTimer c).times = { c.times with
          keepAliveTick := c.keepAliveTick + 1, sendTimeout := c.sendTimeout - 1 } := by
        have under : ¬ mqttKeepalive / 2 < c.keepAliveTick + 1 := by
          unfold mqttKeepalive
          omega
        simp [mqttTimer, data, under, Client.times]
      rw [times]
      exact .data data (Nat.lt_of_not_le late)
  · by_cases lost : c.connState = .tcpReconnectReq
    · by_cases late : 5 ≤ c.reconnectTick
      · have times : (mqttTimer c).times = { c.times with
            connState := .tcpReconnect, reconnectTick := 0,
            sendTimeout := c.sendTimeout - 1 } := by
          have passed : mqttReconnectTimeout < c.reconnectTick + 1 := Nat.lt_succ_of_le late
          simp [mqttTimer, lost, passed, Client.times]
        rw [times]
        exact .renew lost late
      · have times : (mqttTimer c).times = { c.times with
            reconnectTick := c.reconnectTick + 1, sendTimeout := c.sendTimeout - 1 } := by
          have under : ¬ mqttReconnectTimeout < c.reconnectTick + 1 := by
            unfold mqttReconnectTimeout
            omega
          simp [mqttTimer, lost, under, Client.times]
        rw [times]
        exact .wait lost (Nat.lt_of_not_le late)
    · have times : (mqttTimer c).times = { c.times with sendTimeout := c.sendTimeout - 1 } := by
        simp [mqttTimer, data, lost, Client.times]
      rw [times]
      exact .other data lost

theorem mqttPublish_times (stack : Nat → UInt8) (topic : Option (List UInt8))
    (data : List UInt8) (qos retain : Int) :
    (mqttPublish stack c topic data qos retain).1.times = c.times := by
  unfold mqttPublish
  dsimp only
  split_ifs <;> rfl

theorem mqttPing_times (stack : Nat → UInt8) : (mqttPing stack c).1.times = c.times := by
  unfold mqttPing
  split <;> rfl

theorem mqttConnectedCb_times (stack : Nat → Nat → UInt8) :
    (mqttConnectedCb st stack s).client.times = s.client.times := by
  unfold mqttConnectedCb
  dsimp only
  split
  · exact mqttPublish_times _ _ _ _ _
  · exact mqttPublish_times _ _ _ _ _

theorem effects_times (stack : Nat → Nat → UInt8) (effects : List RecvEffect) :
    (effects.foldl (recvEffect st stack) s).client.times = s.client.times := by
  induction effects generalizing s with
  | nil => rfl
  | cons o effects ih =>
    refine ih.trans ?_
    cases o with
    | connectedCb => exact mqttConnectedCb_times stack
    | dataCb d => rfl
    | espconnDisconnect => rfl

/-- A round changes the timers only by accepting the connection. -/
def Accepted (u v : Times) : Prop :=
  ∃ state, v = { u with connState := state } ∧
    (state = u.connState ∨ u.connState = .mqttConnectSending ∧ state = .mqttData)

theorem recvPacket_times (pdata : List UInt8) : (recvPacket c pdata).1.times = c.times := by
  unfold recvPacket
  dsimp only
  split_ifs <;> rfl

theorem recvRound_times (r : Client × List UInt8) :
    Accepted r.1.times (recvRound r).state.1.times := by
  obtain ⟨c, pdata⟩ := r
  by_cases receiving : Receiving (c, pdata)
  · refine ⟨c.connState, ?_, .inl rfl⟩
    rw [recvRound_eq receiving]
    split
    · exact recvPacket_times pdata
    · exact recvPacket_times pdata
  · by_cases accepts : Accepts c pdata
    · rw [recvRound_accepts accepts]
      exact ⟨.mqttData, rfl, .inr ⟨accepts.connecting, rfl⟩⟩
    · refine ⟨c.connState, ?_, .inl rfl⟩
      unfold recvRound
      dsimp only
      split
      · rename_i length
        split
        · rename_i connecting
          split
          · rename_i connack
            unfold recvConnack
            split
            · rfl
            · rename_i pending
              split
              · rename_i zero
                exact absurd ⟨connecting, length.1, length.2, connack, not_not.mp pending, zero⟩
                  accepts
              · rfl
          · rfl
        · rename_i data
          exact absurd ⟨.inl data, length.1, length.2⟩ receiving
        · rename_i keepalive
          exact absurd ⟨.inr keepalive, length.1, length.2⟩ receiving
        · rfl
      · rfl

theorem Accepted.trans {u v w : Times} (h : Accepted u v) (g : Accepted v w) : Accepted u w := by
  obtain ⟨x, rfl, first⟩ := h
  obtain ⟨y, rfl, second⟩ := g
  refine ⟨y, rfl, ?_⟩
  rcases first with same | ⟨connecting, data⟩
  · subst same
    exact second
  · subst data
    rcases second with same | ⟨connecting', -⟩
    · exact .inr ⟨connecting, same⟩
    · cases connecting'

theorem loop_times (n : Nat) (r : Client × List UInt8) :
    Accepted r.1.times (loop recvRound n r).state.1.times := by
  induction n generalizing r with
  | zero => exact ⟨_, rfl, .inl rfl⟩
  | succ n ih =>
    by_cases more : (recvRound r).again = true
    · rw [loop_next more]
      exact (recvRound_times r).trans (ih _)
    · rw [loop_last (by simpa using more)]
      exact recvRound_times r

theorem recv_times {pdata : List UInt8} {effects : List RecvEffect}
    (recv : mqttTcpclientRecv c pdata = some (c', effects)) :
    ∃ state, c'.times = { c.times with connState := state, keepAliveTick := 0 } ∧
      (state = c.connState ∨ c.connState = .mqttConnectSending ∧ state = .mqttData) := by
  unfold mqttTcpclientRecv recvLoop at recv
  dsimp only at recv
  split at recv
  · cases recv
  obtain ⟨rfl, -⟩ := Prod.mk.inj (Option.some.inj recv)
  exact loop_times (pdata.length + 1) ({ c with keepAliveTick := 0 }, pdata)

theorem sendQueued_times (reach : SessionRun st mqttInit pre s) (stack : Nat → UInt8)
    (dequeues : s.client.Dequeues) :
    (sendQueued stack s.client).times = { s.client.times with sendTimeout := mqttSendTimout } := by
  unfold sendQueued
  dsimp only
  rw [if_neg dequeues.2]
  obtain ⟨msgs, carries⟩ := run_carries reach
  cases msgs with
  | nil =>
    have none : s.client.msgQueue.fillCnt = 0 := carries.holds.fillCnt_eq
    exact absurd (.inl (by simp [queueIsEmpty, none])) dequeues.2
  | cons msg msgs =>
    rw [(carries.holds.gets (stack 0) mqttBufSize).1]
    rfl

theorem mqttTask_task (reach : SessionRun st mqttInit pre s) (stack : Nat → UInt8) (sent : Bool) :
    s.client.times.Task sent (mqttTask stack sent s).client.times := by
  have inUse := reach.inUse
  unfold mqttTask
  split
  · rename_i state
    exact .reconnect state
  · rename_i state
    exact .release state
  · rename_i deleted
    exact absurd deleted inUse.deleted
  · rename_i state
    unfold mqttSendKeepalive
    cases sent with
    | true => exact .keepalive state
    | false => exact .keepalive state
  · rename_i data
    by_cases dequeues : s.client.Dequeues
    · rw [show (sendQueued stack s.client).times = _ from sendQueued_times reach stack dequeues]
      have idle : s.client.sendTimeout = 0 := by
        by_contra busy
        exact dequeues.2 (.inr busy)
      exact .send data idle
    · have waits : queueIsEmpty s.client.msgQueue = true ∨ s.client.sendTimeout ≠ 0 := by
        by_contra free
        exact dequeues ⟨data, free⟩
      unfold sendQueued
      dsimp only
      rw [if_pos waits]
      refine .nothing ?_ ?_
      · rw [show s.client.times.connState = _ from data]
        decide
      · rw [show s.client.times.connState = _ from data]
        decide
  · rename_i reconnect _ _ keepalive _
    exact .nothing reconnect keepalive

/-- A connection that has its callbacks exists. -/
theorem step_registered (step : s.step st ev = some s')
    (exists' : s.registered = true → s.client.pCon = true) :
    s'.registered = true → s'.client.pCon = true := by
  cases ev with
  | tryConnect =>
    obtain ⟨-, eq⟩ := Option.ite_none_right_eq_some.mp step
    obtain rfl := Option.some.inj eq
    exact fun registered => absurd registered Bool.false_ne_true
  | connectCb =>
    obtain ⟨pCon, eq⟩ := Option.ite_none_right_eq_some.mp step
    obtain rfl := Option.some.inj eq
    exact fun _ => pCon
  | disconCb =>
    obtain ⟨registered, eq⟩ := Option.ite_none_right_eq_some.mp step
    obtain rfl := Option.some.inj eq
    have same : (mqttTcpclientDisconCb s).registered = s.registered := by
      unfold mqttTcpclientDisconCb
      dsimp only
      split <;> rfl
    rw [disconCb_client, same]
    exact exists'
  | reconCb =>
    obtain ⟨-, eq⟩ := Option.ite_none_right_eq_some.mp step
    obtain rfl := Option.some.inj eq
    exact exists'
  | sentCb =>
    obtain ⟨-, eq⟩ := Option.ite_none_right_eq_some.mp step
    obtain rfl := Option.some.inj eq
    exact exists'
  | recv pdata stack =>
    obtain ⟨registered, eq⟩ := Option.ite_none_right_eq_some.mp step
    obtain ⟨⟨c', effects⟩, recv, rfl⟩ := Option.map_eq_some_iff.mp eq
    obtain ⟨state, times, -⟩ := recv_times recv
    intro _
    have kept : c'.pCon = s.client.pCon := congrArg Times.pCon times
    have same := congrArg Times.pCon
      (@effects_times st { s with client := c' } stack effects)
    exact (same.trans kept).trans (exists' registered)
  | mqttTimer =>
    obtain ⟨-, eq⟩ := Option.ite_none_right_eq_some.mp step
    obtain rfl := Option.some.inj eq
    have kept : (mqttTimer s.client).pCon = s.client.pCon := by
      unfold mqttTimer
      dsimp only
      split_ifs <;> rfl
    exact fun registered => kept.trans (exists' registered)
  | task stack sent =>
    obtain rfl := Option.some.inj step
    unfold mqttTask
    split
    · exact fun _ => rfl
    · exact fun registered => absurd registered Bool.false_ne_true
    · exact fun registered => absurd registered Bool.false_ne_true
    · unfold mqttSendKeepalive
      cases sent with
      | true => exact exists'
      | false => exact exists'
    · have kept : (sendQueued stack s.client).pCon = s.client.pCon := by
        unfold sendQueued
        dsimp only
        split
        · rfl
        · split <;> rfl
      exact fun registered => kept.trans (exists' registered)
    · exact exists'
  | publish stack topic data qos retain =>
    obtain rfl := Option.some.inj step
    exact fun registered => (congrArg Times.pCon (mqttPublish_times _ _ _ _ _)).trans
      (exists' registered)
  | subscribe stack topic qos =>
    obtain rfl := Option.some.inj step
    exact exists'
  | unSubscribe stack topic =>
    obtain rfl := Option.some.inj step
    exact exists'
  | ping stack =>
    obtain rfl := Option.some.inj step
    exact fun registered => (congrArg Times.pCon (mqttPing_times stack)).trans (exists' registered)
  | onDisconnected =>
    obtain rfl := Option.some.inj step
    exact exists'
  | disconnect =>
    obtain rfl := Option.some.inj step
    exact exists'

theorem run_registered (reach : SessionRun st mqttInit pre s) :
    s.registered = true → s.client.pCon = true := by
  induction reach with
  | nil => exact fun registered => absurd registered Bool.false_ne_true
  | snoc before step ih => exact step_registered step ih

/-- The timers of a session that is reached take the steps of `Times`. -/
theorem step_times (reach : SessionRun st mqttInit pre s) (step : s.step st ev = some s') :
    s.client.times.Step ev s'.client.times := by
  cases ev with
  | tryConnect =>
    obtain ⟨-, eq⟩ := Option.ite_none_right_eq_some.mp step
    obtain rfl := Option.some.inj eq
    exact .tryConnect
  | connectCb =>
    obtain ⟨pCon, eq⟩ := Option.ite_none_right_eq_some.mp step
    obtain rfl := Option.some.inj eq
    exact .connectCb pCon
  | disconCb =>
    obtain ⟨registered, eq⟩ := Option.ite_none_right_eq_some.mp step
    obtain rfl := Option.some.inj eq
    rw [disconCb_client, if_neg (SessionRun.inUse reach).deleting]
    by_cases wanted : s.client.connState = .tcpDisconnecting
    · rw [if_pos wanted]
      exact .disconCb _ (run_registered reach registered) (.inl ⟨wanted, rfl⟩)
    · rw [if_neg wanted]
      exact .disconCb _ (run_registered reach registered) (.inr ⟨wanted, rfl⟩)
  | reconCb =>
    obtain ⟨pCon, eq⟩ := Option.ite_none_right_eq_some.mp step
    obtain rfl := Option.some.inj eq
    exact .reconCb pCon
  | sentCb =>
    obtain ⟨-, eq⟩ := Option.ite_none_right_eq_some.mp step
    obtain rfl := Option.some.inj eq
    exact .sentCb
  | recv pdata stack =>
    obtain ⟨-, eq⟩ := Option.ite_none_right_eq_some.mp step
    obtain ⟨⟨c', effects⟩, recv, rfl⟩ := Option.map_eq_some_iff.mp eq
    obtain ⟨state, times, accepted⟩ := recv_times recv
    rw [effects_times]
    dsimp only
    rw [times]
    exact .recv pdata stack state accepted
  | mqttTimer =>
    obtain ⟨armed, eq⟩ := Option.ite_none_right_eq_some.mp step
    obtain rfl := Option.some.inj eq
    exact .mqttTimer armed mqttTimer_tick
  | task stack sent =>
    obtain rfl := Option.some.inj step
    exact .task stack sent (mqttTask_task reach stack sent)
  | publish stack topic data qos retain =>
    obtain rfl := Option.some.inj step
    dsimp only
    rw [mqttPublish_times]
    exact .publish stack topic data qos retain
  | subscribe stack topic qos =>
    obtain rfl := Option.some.inj step
    exact .subscribe stack topic qos
  | unSubscribe stack topic =>
    obtain rfl := Option.some.inj step
    exact .unSubscribe stack topic
  | ping stack =>
    obtain rfl := Option.some.inj step
    dsimp only
    rw [mqttPing_times]
    exact .ping stack
  | onDisconnected =>
    obtain rfl := Option.some.inj step
    exact .onDisconnected
  | disconnect =>
    obtain rfl := Option.some.inj step
    exact .disconnect

/-! ## Sends are paced -/

/-- The seconds that pass with an event. -/
def SessionEvent.seconds : SessionEvent → Nat
  | .mqttTimer => 1
  | _ => 0

/-- The seconds that pass. -/
def seconds (es : List SessionEvent) : Nat := (es.map SessionEvent.seconds).sum

theorem seconds_snoc (es : List SessionEvent) (e : SessionEvent) :
    seconds (es ++ [e]) = seconds es + e.seconds := by
  simp [seconds]

/-- Only a sent callback or a second lowers the timeout. -/
theorem Times.Step.sendTimeout {t t' : Times} {n : Nat} (step : t.Step ev t')
    (other : ev ≠ .sentCb) (timeout : 5 ≤ t.sendTimeout + n) :
    5 ≤ t'.sendTimeout + (n + ev.seconds) := by
  cases step with
  | sentCb => exact absurd rfl other
  | connectCb => exact Nat.le_add_right 5 _
  | mqttTimer armed tick =>
    cases tick with
    | _ =>
      dsimp only [SessionEvent.seconds]
      omega
  | task stack sent task =>
    cases task with
    | keepalive => exact Nat.le_add_right 5 _
    | send => exact Nat.le_add_right 5 _
    | _ => exact timeout
  | _ => exact timeout

/-- A message that is given to `espconn_send` starts the timeout. -/
theorem sends_start (reach : SessionRun st mqttInit pre s) (sends : s.sends st ev ≠ [])
    (step : s.step st ev = some t) : t.client.times.sendTimeout = mqttSendTimout := by
  cases ev with
  | connectCb =>
    obtain ⟨-, eq⟩ := Option.ite_none_right_eq_some.mp step
    obtain rfl := Option.some.inj eq
    rfl
  | task stack sent =>
    obtain rfl := Option.some.inj step
    unfold Session.sends at sends
    dsimp only at sends
    split at sends
    · rename_i keepalive
      unfold mqttTask mqttSendKeepalive
      rw [keepalive]
      cases sent with
      | true => rfl
      | false => rfl
    · rename_i data
      have dequeues : s.client.Dequeues := by
        refine ⟨data, fun waits => sends ?_⟩
        rw [dequeued, if_pos waits]
        rfl
      rw [mqttTask_data data, sendQueued_times reach stack dequeues]
    · exact absurd rfl sends
  | _ => exact absurd rfl sends

/-- Between a message that is given to `espconn_send` and one that `MQTT_Task` takes from the
queue, the first one was reported as sent, or five seconds passed. -/
theorem sends_paced (reach : SessionRun st mqttInit pre s) (first : s.sends st ev ≠ [])
    (step : s.step st ev = some t) (run : SessionRun st t es s') {ev' : SessionEvent}
    {msg : List UInt8} (again : .queued msg ∈ s'.sends st ev') :
    .sentCb ∈ es ∨ 5 ≤ seconds es := by
  have start := sends_start reach first step
  have reach' := reach.snoc step
  have paced : .sentCb ∈ es ∨ 5 ≤ s'.client.times.sendTimeout + seconds es := by
    clear again
    induction run with
    | nil => exact .inr (start ▸ Nat.le_refl 5)
    | @snoc es e u v before step ih =>
      rcases ih with sent | timeout
      · exact .inl (List.mem_append_left _ sent)
      · by_cases other : e = .sentCb
        · exact .inl (by simp [other])
        · rw [seconds_snoc]
          exact .inr ((step_times (reach'.append before) step).sendTimeout other timeout)
  have idle : s'.client.times.sendTimeout = 0 := by
    by_contra busy
    exact (Session.dequeues_of_queued again).2 (.inr busy)
  rw [idle, Nat.zero_add] at paced
  exact paced

/-- The first session sends its second message five seconds after the first. -/
theorem first_session_paced : ∃ s t s' msg,
    SessionRun .prise mqttInit (firstSession ++ [.sentCb]) s ∧
    s.sends .prise (.task (fun _ => 0) true) ≠ [] ∧
    s.step .prise (.task (fun _ => 0) true) = some t ∧
    SessionRun .prise t (List.replicate 5 .mqttTimer) s' ∧
    .queued msg ∈ s'.sends .prise (.task (fun _ => 0) true) ∧
    5 ≤ seconds (List.replicate 5 .mqttTimer) := by
  let task : SessionEvent := .task (fun _ => 0) true
  have state : ((firstSession ++ [SessionEvent.sentCb]).foldlM (Session.step .prise)
      mqttInit).bind (fun s => (s.step .prise task).bind fun t =>
        ((List.replicate 5 SessionEvent.mqttTimer).foldlM (Session.step .prise) t).map fun s' =>
          (s.sends .prise task, s'.sends .prise task)) =
      some ([.queued (mqttMsgSubscribe ⟨0, mqttBufSize⟩ (some Station.prise.topicLight) 0).2],
        [.queued (mqttMsgPublish ⟨1, mqttBufSize⟩ (some deviceTopic) [49] 1 1).2]) := by
    decide +kernel
  obtain ⟨s, reach, rest⟩ := Option.bind_eq_some_iff.mp state
  obtain ⟨t, step, rest⟩ := Option.bind_eq_some_iff.mp rest
  obtain ⟨s', run, eq⟩ := Option.map_eq_some_iff.mp rest
  obtain ⟨first, again⟩ := Prod.mk.inj eq
  have reach := run_iff_foldlM.mpr reach
  have run := run_iff_foldlM.mpr run
  have first : s.sends .prise task ≠ [] := by
    rw [first]
    exact List.cons_ne_nil _ _
  have again := again ▸ List.mem_singleton_self _
  have paced := sends_paced reach first step run again
  exact ⟨s, t, s', _, reach, first, step, run, again, paced.resolve_left (by simp)⟩

/-! ## A silent session is pinged -/

theorem Times.Step.keepAliveTick {t t' : Times} (step : t.Step ev t')
    (bound : t.connState = .mqttData → t.keepAliveTick ≤ 60) :
    t'.connState = .mqttData → t'.keepAliveTick ≤ 60 := by
  cases step with
  | sentCb => exact fun _ => Nat.zero_le 60
  | recv => exact fun _ => Nat.zero_le 60
  | mqttTimer armed tick =>
    cases tick with
    | data state early => exact fun _ => early
    | other => exact bound
    | wait => exact bound
    | _ => simp
  | task stack sent task =>
    cases task with
    | keepalive => cases sent <;> simp
    | reconnect => simp [Times.connect]
    | _ => exact bound
  | disconCb state pCon lost => rcases lost with ⟨-, rfl⟩ | ⟨-, rfl⟩ <;> simp
  | tryConnect => simp [Times.connect]
  | connectCb => simp
  | reconCb => simp
  | disconnect => simp
  | _ => exact bound

/-- Nothing is received, reported as sent or done with the connection. -/
def SessionEvent.Silent : SessionEvent → Prop
  | .mqttTimer | .task _ _ | .publish .. | .subscribe .. | .unSubscribe .. | .ping _
  | .onDisconnected => True
  | _ => False

/-- `MQTT_Task` runs somewhere in these events, in the given state. -/
def TaskIn (st : Station) (s : Session) (es : List SessionEvent) (state : ConnState) : Prop :=
  ∃ pre stack sent u, pre ++ [.task stack sent] <+: es ∧ SessionRun st s pre u ∧
    u.client.connState = state

theorem TaskIn.snoc {state : ConnState} (h : TaskIn st s es state) (e : SessionEvent) :
    TaskIn st s (es ++ [e]) state := by
  obtain ⟨pre, stack, sent, u, before, run, at'⟩ := h
  exact ⟨pre, stack, sent, u, before.trans (List.prefix_append es [e]), run, at'⟩

/-- A silent step counts a second, asks for a ping, or sends one. -/
theorem Times.Step.silent {t t' : Times} (step : t.Step ev t') (silent : ev.Silent)
    (data : t.connState = .mqttData) :
    t'.connState = .mqttKeepaliveSend ∨
      t'.connState = .mqttData ∧ t'.keepAliveTick = t.keepAliveTick + ev.seconds := by
  cases step with
  | mqttTimer armed tick =>
    cases tick with
    | data state early => exact .inr ⟨state, rfl⟩
    | keepalive => exact .inl rfl
    | wait state => simp [data] at state
    | renew state => simp [data] at state
    | other state => exact absurd data state
  | task stack sent task =>
    cases task with
    | reconnect state => simp [data] at state
    | release state => simp [data] at state
    | keepalive state => simp [data] at state
    | send => exact .inr ⟨data, rfl⟩
    | nothing => exact .inr ⟨data, rfl⟩
  | publish => exact .inr ⟨data, rfl⟩
  | subscribe => exact .inr ⟨data, rfl⟩
  | unSubscribe => exact .inr ⟨data, rfl⟩
  | ping => exact .inr ⟨data, rfl⟩
  | onDisconnected => exact .inr ⟨data, rfl⟩
  | _ => exact silent.elim

/-- The timer is armed whenever it has to count. -/
structure Times.Armed (t : Times) : Prop where
  connected : t.pCon = true → t.mqttTimer = true
  lost : t.connState = .tcpReconnectReq → t.mqttTimer = true

theorem Times.Step.armed {t t' : Times} (step : t.Step ev t') (wanted : ev ≠ .disconnect)
    (armed : t.Armed) : t'.Armed := by
  cases step with
  | disconnect => exact absurd rfl wanted
  | tryConnect => exact ⟨fun _ => rfl, fun _ => rfl⟩
  | connectCb pCon => exact ⟨armed.connected, fun _ => armed.connected pCon⟩
  | disconCb state pCon => exact ⟨armed.connected, fun _ => armed.connected pCon⟩
  | reconCb pCon => exact ⟨armed.connected, fun _ => armed.connected pCon⟩
  | recv pdata stack state accepted =>
    refine ⟨armed.connected, ?_⟩
    intro lost
    rcases accepted with same | ⟨-, data⟩
    · exact armed.lost (same ▸ lost)
    · rw [data] at lost
      cases lost
  | mqttTimer timer tick =>
    have kept : t'.mqttTimer = true := by
      cases tick with
      | _ => exact timer
    exact ⟨fun _ => kept, fun _ => kept⟩
  | task stack sent task =>
    cases task with
    | reconnect => exact ⟨fun _ => rfl, fun _ => rfl⟩
    | release => exact ⟨fun pCon => absurd pCon Bool.false_ne_true, armed.lost⟩
    | keepalive =>
      refine ⟨armed.connected, ?_⟩
      intro lost
      cases sent
      · cases lost
      · cases lost
    | send => exact ⟨armed.connected, armed.lost⟩
    | nothing => exact armed
  | sentCb => exact ⟨armed.connected, armed.lost⟩
  | publish => exact armed
  | subscribe => exact armed
  | unSubscribe => exact armed
  | ping => exact armed
  | onDisconnected => exact armed

/-- Nothing is done with the connection. -/
def SessionEvent.Quiet : SessionEvent → Prop
  | .tryConnect | .connectCb | .disconCb | .reconCb | .disconnect => False
  | _ => True

theorem Times.Step.waits {t t' : Times} (step : t.Step ev t') (quiet : ev.Quiet)
    (lost : t.connState = .tcpReconnectReq) :
    t'.connState = .tcpReconnect ∨ t'.connState = .tcpReconnectReq ∧
      t'.reconnectTick = t.reconnectTick + ev.seconds ∧
      (0 < ev.seconds → t'.reconnectTick ≤ 5) := by
  have same : ∀ {n}, n = 0 → 0 < n → t.reconnectTick ≤ 5 := by
    intro n zero positive
    omega
  cases step with
  | recv pdata stack state accepted =>
    rcases accepted with rfl | ⟨connecting, -⟩
    · exact .inr ⟨lost, rfl, same rfl⟩
    · simp [lost] at connecting
  | mqttTimer armed tick =>
    cases tick with
    | data state => simp [lost] at state
    | keepalive state => simp [lost] at state
    | wait state early => exact .inr ⟨state, rfl, fun _ => early⟩
    | renew => exact .inl rfl
    | other data state => exact absurd lost state
  | task stack sent task =>
    cases task with
    | reconnect state => simp [lost] at state
    | release state => simp [lost] at state
    | keepalive state => simp [lost] at state
    | send state => simp [lost] at state
    | nothing => exact .inr ⟨lost, rfl, same rfl⟩
  | sentCb => exact .inr ⟨lost, rfl, same rfl⟩
  | publish => exact .inr ⟨lost, rfl, same rfl⟩
  | subscribe => exact .inr ⟨lost, rfl, same rfl⟩
  | unSubscribe => exact .inr ⟨lost, rfl, same rfl⟩
  | ping => exact .inr ⟨lost, rfl, same rfl⟩
  | onDisconnected => exact .inr ⟨lost, rfl, same rfl⟩
  | _ => exact quiet.elim

end Domotic
