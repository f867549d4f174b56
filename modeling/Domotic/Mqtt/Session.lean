import Domotic.Library.Run
import Domotic.Mqtt.Receive
import Domotic.Uart.Identifier

/-!
# Sessions with the broker

The client and the application that keeps it connected. `mqttInit` arms a timer that calls
`MQTT_Connect` until a session is established; the client has its own states for losing and
renewing a connection. Events come in any order that the SDK may deliver them for a connection
that exists, and each is handled to its end. The broker is given by its address, without `security`.
-/
namespace Domotic
open Library

/-! ## The client -/

/-- `MQTT_Connect`. A connection that exists is deleted; the new one has no callbacks but those
for its success and its failure. -/
def mqttConnect (c : Client) : Client :=
  { c with
    pCon := true, keepAliveTick := 0, reconnectTick := 0, mqttTimer := true,
    connState := .tcpConnecting }

/-- `MQTT_Disconnect` -/
def mqttDisconnect (c : Client) : Client :=
  { c with connState := .tcpDisconnecting, mqttTimer := false }

/-- `MQTT_SEND_TIMOUT` -/
def mqttSendTimout : Nat := 5
/-- `MQTT_KEEPALIVE`, in seconds. -/
def mqttKeepalive : Nat := 120
/-- `MQTT_RECONNECT_TIMEOUT`, in seconds. -/
def mqttReconnectTimeout : Nat := 5

/-- `mqtt_timer` -/
def mqttTimer (c : Client) : Client :=
  let c :=
    if c.connState = .mqttData then
      let c := { c with keepAliveTick := c.keepAliveTick + 1 }
      if mqttKeepalive / 2 < c.keepAliveTick then { c with connState := .mqttKeepaliveSend } else c
    else if c.connState = .tcpReconnectReq then
      let c := { c with reconnectTick := c.reconnectTick + 1 }
      if mqttReconnectTimeout < c.reconnectTick then
        { c with reconnectTick := 0, connState := .tcpReconnect }
      else c
    else c
  { c with sendTimeout := c.sendTimeout - 1 }

/-- `mqtt_tcpclient_sent_cb` -/
def mqttTcpclientSentCb (c : Client) : Client := { c with sendTimeout := 0, keepAliveTick := 0 }

/-- `mqtt_tcpclient_connect_cb`, and the message that it gives to `espconn_send`. The one of a
station is never empty (`station_connect`). -/
def mqttTcpclientConnectCb (info : ConnectInfo) (c : Client) : Client × List UInt8 :=
  let connection : MqttConnection := ⟨0, mqttBufSize⟩
  let msg := mqttMsgConnect connection info
  ({ c with
    connection, pendingMsgType := mqttGetType (msg.headD 0),
    sendTimeout := mqttSendTimout, connState := .mqttConnectSending }, msg)

/-- `mqtt_tcpclient_recon_cb` -/
def mqttTcpclientReconCb (c : Client) : Client := { c with connState := .tcpReconnectReq }

/-- `mqtt_send_keepalive`; `sent` says whether `espconn_send` succeeds with the `PINGREQ`. -/
def mqttSendKeepalive (sent : Bool) (c : Client) : Client :=
  let c := { c with pendingMsgType := MsgType.pingreq.code, sendTimeout := mqttSendTimout }
  if sent then { c with keepAliveTick := 0, connState := .mqttData }
  else { c with connState := .tcpReconnectDisconnecting }

/-- `mqtt_client_delete`, as far as it is read afterwards. -/
def mqttClientDelete (c : Client) : Client :=
  { c with pCon := false, connState := .wifiInit, callbacks := false }

/-- The bytes that the case `MQTT_DATA` of `MQTT_Task` gives to `espconn_send`. -/
def dequeued (stack : Nat → UInt8) (c : Client) : Option (List UInt8) :=
  if queueIsEmpty c.msgQueue ∨ c.sendTimeout ≠ 0 then none
  else (queueGets (stack 0) mqttBufSize c.msgQueue).2

/-- The case `MQTT_DATA` of `MQTT_Task`: send the oldest message. The parser finds its first
byte of garbage on the stack; a message without bytes leaves another one in the buffer. -/
def sendQueued (stack : Nat → UInt8) (c : Client) : Client :=
  if queueIsEmpty c.msgQueue ∨ c.sendTimeout ≠ 0 then c
  else
    let r := queueGets (stack 0) mqttBufSize c.msgQueue
    match r.2 with
    | some msg =>
      { c with
        msgQueue := r.1, pendingMsgType := mqttGetType (msg.headD (stack 1)),
        sendTimeout := mqttSendTimout }
    | none => { c with msgQueue := r.1 }

/-! ## The application -/

/-- What the application brings to a session. -/
structure Station where
  build : Build
  /-- `StationName`, terminated inside its buffer. -/
  name : List UInt8
  fits : name.length < maxLengthStationName
  /-- The first byte of `MYID`. -/
  myid : UInt8
  /-- `system_get_chip_id` -/
  chipId : BitVec 32

/-- `MQTT_InitClient` and `MQTT_InitLWT`, as `mqttInit` calls them: the client id is `DVES_` and the
chip id in hexadecimal, the user `DVES_USER`, the password `DVES_PASS`, and the will says `offline`
on the topic `/lwt`. -/
def stationInfo (chipId : BitVec 32) : ConnectInfo where
  clientId := some ([68, 86, 69, 83, 95] ++ hexadecimal.numeral 8 chipId.toNat)
  username := some [68, 86, 69, 83, 95, 85, 83, 69, 82]
  password := some [68, 86, 69, 83, 95, 80, 65, 83, 83]
  willTopic := some [47, 108, 119, 116]
  willMessage := [111, 102, 102, 108, 105, 110, 101]
  keepalive := mqttKeepalive
  willQos := 0
  willRetain := 0
  cleanSession := 1

/-- `ad_name(topicLight)`: `actuators/` and the name. -/
def Station.topicLight (st : Station) : List UInt8 :=
  [97, 99, 116, 117, 97, 116, 111, 114, 115, 47] ++ st.name

/-- The topic `/device`. -/
def deviceTopic : List UInt8 := [47, 100, 101, 118, 105, 99, 101]

/-- What the client calls when it is disconnected. -/
inductive DisconnectedCb where
  | mqttDisconnectedCb | diconnectedCB
  deriving DecidableEq

structure Session where
  client : Client
  /-- `mqttClient.disconnectedCb` -/
  disconnectedCb : DisconnectedCb
  /-- `pCon` has its callbacks for a disconnection and for received and sent data. -/
  registered : Bool
  /-- `connected` of `user_mqtt.c`. -/
  connected : Bool
  /-- `timer_try_connect` is armed. -/
  timerTryConnect : Bool

/-- `mqttIsConected` -/
def Session.mqttIsConected (s : Session) : Bool := s.connected

/-- `mqttInit` -/
def mqttInit : Session where
  client := Client.init
  disconnectedCb := .mqttDisconnectedCb
  registered := false
  connected := false
  timerTryConnect := true

/-- `mqttConnectedCb`. Its two calls find different garbage on the stack. -/
def mqttConnectedCb (st : Station) (stack : Nat → Nat → UInt8) (s : Session) : Session :=
  let c :=
    if st.build.triack || st.build.pwm || st.build.relay then
      (mqttSubscribe (stack 0) s.client (some st.topicLight) 0).1
    else s.client
  { s with
    client := (mqttPublish (stack 1) c (some deviceTopic) [st.myid] 1 1).1,
    connected := true, timerTryConnect := false }

/-- `mqttDisconnectedCb` -/
def mqttDisconnectedCb (s : Session) : Session :=
  { s with connected := false, timerTryConnect := true }

/-- `mqtt_tcpclient_discon_cb` -/
def mqttTcpclientDisconCb (s : Session) : Session :=
  let state : ConnState :=
    if s.client.connState = .tcpDisconnecting then .tcpDisconnected
    else if s.client.connState = .mqttDeleting then .mqttDeleted
    else .tcpReconnectReq
  let s := { s with client := { s.client with connState := state } }
  if s.client.callbacks ∧ s.disconnectedCb = .mqttDisconnectedCb then mqttDisconnectedCb s else s

/-- What the application does when the client calls it; the SDK reports a disconnection later. -/
def recvEffect (st : Station) (stack : Nat → Nat → UInt8) (s : Session) : RecvEffect → Session
  | .connectedCb => mqttConnectedCb st stack s
  | .dataCb _ | .espconnDisconnect => s

/-- `MQTT_Task` -/
def mqttTask (stack : Nat → UInt8) (sent : Bool) (s : Session) : Session :=
  match s.client.connState with
  | .tcpReconnect => { s with client := mqttConnect s.client, registered := false }
  | .tcpDisconnected =>
    { s with client := { s.client with pCon := false }, registered := false }
  | .mqttDeleted => { s with client := mqttClientDelete s.client, registered := false }
  | .mqttKeepaliveSend => { s with client := mqttSendKeepalive sent s.client }
  | .mqttData => { s with client := sendQueued stack s.client }
  | _ => s

/-! ## The transition system -/

inductive SessionEvent where
  | tryConnect
  | connectCb
  | disconCb
  | reconCb
  | sentCb
  | recv (pdata : List UInt8) (stack : Nat → Nat → UInt8)
  | mqttTimer
  | task (stack : Nat → UInt8) (sent : Bool)
  | publish (stack : Nat → UInt8) (topic : Option (List UInt8)) (data : List UInt8)
      (qos retain : Int)
  | subscribe (stack : Nat → UInt8) (topic : Option (List UInt8)) (qos : UInt8)
  | unSubscribe (stack : Nat → UInt8) (topic : Option (List UInt8))
  | ping (stack : Nat → UInt8)
  | onDisconnected
  | disconnect

/-- One event, unless it cannot happen or its handler does not return. `onDisconnected` and
`disconnect` are the two calls of `DisconnectMQTT`, which comes before the deep sleep. -/
def Session.step (st : Station) (s : Session) : SessionEvent → Option Session
  | .tryConnect =>
    if s.timerTryConnect then some { s with client := mqttConnect s.client, registered := false }
    else none
  | .connectCb =>
    if s.client.pCon then
      some { s with
        client := (mqttTcpclientConnectCb (stationInfo st.chipId) s.client).1, registered := true }
    else none
  | .disconCb => if s.registered then some (mqttTcpclientDisconCb s) else none
  | .reconCb =>
    if s.client.pCon then some { s with client := mqttTcpclientReconCb s.client } else none
  | .sentCb =>
    if s.registered then some { s with client := mqttTcpclientSentCb s.client } else none
  | .recv pdata stack =>
    if s.registered then
      (mqttTcpclientRecv s.client pdata).map fun r =>
        r.2.foldl (recvEffect st stack) { s with client := r.1 }
    else none
  | .mqttTimer =>
    if s.client.mqttTimer then some { s with client := Domotic.mqttTimer s.client } else none
  | .task stack sent => some (mqttTask stack sent s)
  | .publish stack topic data qos retain =>
    some { s with client := (mqttPublish stack s.client topic data qos retain).1 }
  | .subscribe stack topic qos =>
    some { s with client := (mqttSubscribe stack s.client topic qos).1 }
  | .unSubscribe stack topic =>
    some { s with client := (mqttUnSubscribe stack s.client topic).1 }
  | .ping stack => some { s with client := (mqttPing stack s.client).1 }
  | .onDisconnected => some { s with disconnectedCb := .diconnectedCB }
  | .disconnect => some { s with client := mqttDisconnect s.client }

/-- The runs of a session. -/
abbrev SessionRun (st : Station) (s : Session) (es : List SessionEvent) (s' : Session) : Prop :=
  Run (fun s e s' => s.step st e = some s') s es s'

/-! ## What a received segment does -/

variable {st : Station} {c c' : Client} {pdata : List UInt8} {effects : List RecvEffect}
  {s s' : Session} {e : SessionEvent}

/-- The client takes the segment for a `CONNACK` that accepts the connection. -/
structure Accepts (c : Client) (pdata : List UInt8) : Prop where
  connecting : c.connState = .mqttConnectSending
  short : pdata.length < mqttBufSize
  nonempty : 0 < pdata.length
  connack : packetType pdata = MsgType.connack.code
  pending : c.pendingMsgType = MsgType.connect.code
  accepted : (c.store pdata).inBuffer 3 = 0

/-- A round leaves a client that is not connecting in its state and does not report a
connection. -/
theorem recvRound_quiet {t : Client × List UInt8} (state : t.1.connState ≠ .mqttConnectSending) :
    ((recvRound t).state.1.connState = t.1.connState ∧
      (recvRound t).state.1.callbacks = t.1.callbacks) ∧
      ∀ o ∈ (recvRound t).out, o ≠ .connectedCb := by
  by_cases receiving : Receiving t
  · rw [recvRound_eq receiving]
    have keeps := @recvPacket_keeps (t.1.store t.2) t.2
    have quiet : ∀ o ∈ (recvPacket (t.1.store t.2) t.2).2, o ≠ .connectedCb := by
      rw [recvPacket_out]
      split
      · rintro o mem rfl
        cases List.mem_singleton.mp mem
      · exact nofun
    split
    · exact ⟨keeps, quiet⟩
    · exact ⟨keeps, quiet⟩
  · obtain ⟨c, pdata⟩ := t
    unfold recvRound
    dsimp only
    split
    · rename_i length
      split
      · rename_i connecting
        exact absurd connecting state
      · rename_i data
        exact absurd ⟨.inl data, length.1, length.2⟩ receiving
      · rename_i keepalive
        exact absurd ⟨.inr keepalive, length.1, length.2⟩ receiving
      · exact ⟨⟨rfl, rfl⟩, nofun⟩
    · exact ⟨⟨rfl, rfl⟩, nofun⟩

theorem recvRound_accepts (h : Accepts c pdata) :
    recvRound (c, pdata) =
      ⟨({ c.store pdata with connState := .mqttData }, pdata),
        if c.callbacks then [.connectedCb] else [], false⟩ := by
  have length : pdata.length < mqttBufSize ∧ 0 < pdata.length := ⟨h.short, h.nonempty⟩
  have state : (c.store pdata).connState = .mqttConnectSending := h.connecting
  have pending : (c.store pdata).pendingMsgType = MsgType.connect.code := h.pending
  unfold recvRound
  simp only [length, and_self, ↓reduceIte, state, h.connack, recvConnack, pending, ne_eq,
    not_true_eq_false, h.accepted]
  rfl

/-- A client that is connecting ignores or refuses every other segment. -/
theorem recvRound_refuses (connecting : c.connState = .mqttConnectSending)
    (h : ¬ Accepts c pdata) :
    (recvRound (c, pdata)).again = false ∧
      ((recvRound (c, pdata)).state.1.connState = c.connState ∧
        (recvRound (c, pdata)).state.1.callbacks = c.callbacks) ∧
      ∀ o ∈ (recvRound (c, pdata)).out, o ≠ .connectedCb := by
  have state : (c.store pdata).connState = .mqttConnectSending := connecting
  have alone : ∀ o ∈ [RecvEffect.espconnDisconnect], o ≠ .connectedCb := by
    rintro o mem rfl
    cases List.mem_singleton.mp mem
  unfold recvRound
  dsimp only
  split
  · rename_i length
    simp only [state]
    split
    · rename_i connack
      unfold recvConnack
      split
      · exact ⟨rfl, ⟨rfl, rfl⟩, alone⟩
      · rename_i pending
        split
        · rename_i accepted
          exact absurd ⟨connecting, length.1, length.2, connack, not_not.mp pending, accepted⟩ h
        · exact ⟨rfl, ⟨rfl, rfl⟩, alone⟩
    · exact ⟨rfl, ⟨rfl, rfl⟩, nofun⟩
  · exact ⟨rfl, ⟨rfl, rfl⟩, nofun⟩

/-- A segment establishes the session and is reported, or changes neither. -/
theorem recv_cases (callbacks : c.callbacks = true)
    (h : mqttTcpclientRecv c pdata = some (c', effects)) :
    c'.callbacks = true ∧
      ((Accepts c pdata ∧ c'.connState = .mqttData ∧ effects = [.connectedCb]) ∨
        ¬ Accepts c pdata ∧ c'.connState = c.connState ∧ ∀ o ∈ effects, o ≠ .connectedCb) := by
  unfold mqttTcpclientRecv recvLoop at h
  dsimp only at h
  split at h
  · cases h
  obtain ⟨rfl, rfl⟩ := Prod.mk.inj (Option.some.inj h)
  have same : Accepts { c with keepAliveTick := 0 } pdata ↔ Accepts c pdata :=
    ⟨fun a => ⟨a.1, a.2, a.3, a.4, a.5, a.6⟩, fun a => ⟨a.1, a.2, a.3, a.4, a.5, a.6⟩⟩
  by_cases connecting : c.connState = .mqttConnectSending
  · by_cases accepts : Accepts c pdata
    · have round := recvRound_accepts (same.mpr accepts)
      rw [loop_last (by rw [round]), round]
      exact ⟨callbacks, .inl ⟨accepts, rfl, if_pos callbacks⟩⟩
    · obtain ⟨last, keeps, quiet⟩ :=
        @recvRound_refuses { c with keepAliveTick := 0 } pdata connecting (mt same.mp accepts)
      rw [loop_last last]
      exact ⟨keeps.2.trans callbacks, .inr ⟨accepts, keeps.1, quiet⟩⟩
  · have rounds := @loop_safe _ _ recvRound ({ c with keepAliveTick := 0 }, pdata)
      (pdata.length + 1) (fun t => t.1.connState = c.connState ∧ t.1.callbacks = c.callbacks)
      (fun o => o ≠ .connectedCb) (fun t keeps => by
        obtain ⟨keeps', quiet⟩ := @recvRound_quiet t (by rw [keeps.1]; exact connecting)
        exact ⟨⟨keeps'.1.trans keeps.1, keeps'.2.trans keeps.2⟩, quiet⟩) ⟨rfl, rfl⟩
    exact ⟨rounds.1.2.trans callbacks, .inr
      ⟨fun a => connecting a.connecting, rounds.1.1, rounds.2⟩⟩

/-! ## What a step does -/

theorem mqttTask_data {stack : Nat → UInt8} {sent : Bool}
    (data : s.client.connState = .mqttData) :
    (mqttTask stack sent s).client = sendQueued stack s.client := by
  unfold mqttTask
  rw [data]

/-- The client has its callbacks and is not being deleted. -/
structure Client.InUse (c : Client) : Prop where
  callbacks : c.callbacks = true
  deleting : c.connState ≠ .mqttDeleting
  deleted : c.connState ≠ .mqttDeleted

/-- The calls that queue a message leave the connection alone. -/
def SameLink (c c' : Client) : Prop := c'.connState = c.connState ∧ c'.callbacks = c.callbacks

theorem mqttPublish_sameLink (stack : Nat → UInt8) (topic : Option (List UInt8))
    (data : List UInt8) (qos retain : Int) :
    SameLink c (mqttPublish stack c topic data qos retain).1 := by
  unfold mqttPublish
  dsimp only
  split_ifs <;> exact ⟨rfl, rfl⟩

theorem mqttSubscribe_sameLink (stack : Nat → UInt8) (topic : Option (List UInt8)) (qos : UInt8) :
    SameLink c (mqttSubscribe stack c topic qos).1 := ⟨rfl, rfl⟩

theorem mqttUnSubscribe_sameLink (stack : Nat → UInt8) (topic : Option (List UInt8)) :
    SameLink c (mqttUnSubscribe stack c topic).1 := ⟨rfl, rfl⟩

theorem mqttPing_sameLink (stack : Nat → UInt8) : SameLink c (mqttPing stack c).1 := by
  unfold mqttPing
  split <;> exact ⟨rfl, rfl⟩

theorem sendQueued_sameLink (stack : Nat → UInt8) : SameLink c (sendQueued stack c) := by
  unfold sendQueued
  dsimp only
  split
  · exact ⟨rfl, rfl⟩
  · split <;> exact ⟨rfl, rfl⟩

theorem mqttConnectedCb_sameLink (stack : Nat → Nat → UInt8) :
    SameLink s.client (mqttConnectedCb st stack s).client := by
  unfold mqttConnectedCb
  dsimp only
  split
  · exact mqttPublish_sameLink _ _ _ _ _
  · exact mqttPublish_sameLink _ _ _ _ _

/-- A state of a connection without a session. -/
def ConnState.Outside (x : ConnState) : Prop :=
  x ≠ .mqttData ∧ x ≠ .mqttKeepaliveSend ∧ x ≠ .mqttDeleting ∧ x ≠ .mqttDeleted

instance (x : ConnState) : Decidable x.Outside := inferInstanceAs (Decidable (_ ∧ _))

/-- A step that leaves the flag and the retry timer alone. -/
structure Quiet (s : Session) (e : SessionEvent) (s' : Session) : Prop where
  other : e = .disconCb → s.disconnectedCb = .diconnectedCB
  connected : s'.connected = s.connected
  timerTryConnect : s'.timerTryConnect = s.timerTryConnect
  established : s'.client.Established → s.client.Established

/-- What a step does to the flag, to the retry timer and to the session. -/
inductive Outcome (s : Session) : SessionEvent → Session → Prop where
  | quiet {e : SessionEvent} {s' : Session} (quiet : Quiet s e s') : Outcome s e s'
  | accepted {s' : Session} (pdata : List UInt8) (stack : Nat → Nat → UInt8)
      (accepts : Accepts s.client pdata) (connected : s'.connected = true)
      (timerTryConnect : s'.timerTryConnect = false) : Outcome s (.recv pdata stack) s'
  | lost {s' : Session} (reported : s.disconnectedCb = .mqttDisconnectedCb)
      (connected : s'.connected = false) (outside : ¬ s'.client.Established) :
      Outcome s .disconCb s'

/-- The client stays in its state, in its session, or goes to a state outside. -/
theorem quiet_step (inUse : s.client.InUse)
    (other : e = .disconCb → s.disconnectedCb = .diconnectedCB)
    (callbacks : c'.callbacks = s.client.callbacks)
    (state : c'.connState = s.client.connState ∨ s.client.Established ∧ c'.Established ∨
      c'.connState.Outside)
    (r : Bool) :
    c'.InUse ∧ Outcome s e { s with client := c', registered := r } := by
  have called := callbacks.trans inUse.callbacks
  rcases state with same | both | outside
  · refine ⟨⟨called, same ▸ inUse.deleting, same ▸ inUse.deleted⟩,
      .quiet ⟨other, rfl, rfl, fun h => ?_⟩⟩
    unfold Client.Established at h ⊢
    rwa [same] at h
  · obtain ⟨before, after⟩ := both
    refine ⟨⟨called, ?_, ?_⟩, .quiet ⟨other, rfl, rfl, fun _ => before⟩⟩
    · rcases after with data | keepalive
      · rw [data]; decide
      · rw [keepalive]; decide
    · rcases after with data | keepalive
      · rw [data]; decide
      · rw [keepalive]; decide
  · refine ⟨⟨called, outside.2.2.1, outside.2.2.2⟩, .quiet ⟨other, rfl, rfl, fun h => ?_⟩⟩
    exact (h.elim outside.1 outside.2.1).elim

theorem mqttTimer_state :
    (mqttTimer c).callbacks = c.callbacks ∧ ((mqttTimer c).connState = c.connState ∨
      c.Established ∧ (mqttTimer c).Established ∨ (mqttTimer c).connState.Outside) := by
  unfold mqttTimer
  dsimp only
  split
  · rename_i data
    split
    · exact ⟨rfl, .inr (.inl ⟨.inl data, .inr rfl⟩)⟩
    · exact ⟨rfl, .inl rfl⟩
  · split
    · split
      · exact ⟨rfl, .inr (.inr (show ConnState.tcpReconnect.Outside by decide))⟩
      · exact ⟨rfl, .inl rfl⟩
    · exact ⟨rfl, .inl rfl⟩

theorem mqttTask_cases (inUse : s.client.InUse) (stack : Nat → UInt8) (sent : Bool) :
    ∃ c' r, mqttTask stack sent s = { s with client := c', registered := r } ∧
      c'.callbacks = s.client.callbacks ∧ (c'.connState = s.client.connState ∨
        s.client.Established ∧ c'.Established ∨ c'.connState.Outside) := by
  unfold mqttTask
  split
  · exact ⟨_, _, rfl, rfl, .inr (.inr (show ConnState.tcpConnecting.Outside by decide))⟩
  · exact ⟨_, _, rfl, rfl, .inl rfl⟩
  · rename_i deleted
    exact absurd deleted inUse.deleted
  · rename_i keepalive
    refine ⟨_, s.registered, rfl, ?_⟩
    unfold mqttSendKeepalive
    dsimp only
    split
    · exact ⟨rfl, .inr (.inl ⟨.inr keepalive, .inl rfl⟩)⟩
    · exact ⟨rfl, .inr (.inr (show ConnState.tcpReconnectDisconnecting.Outside by decide))⟩
  · have same := @sendQueued_sameLink s.client stack
    exact ⟨_, s.registered, rfl, same.2, .inl same.1⟩
  · exact ⟨s.client, s.registered, rfl, rfl, .inl rfl⟩

/-- The application does nothing unless the connection is reported. -/
theorem foldl_recvEffect (stack : Nat → Nat → UInt8) (quiet : ∀ o ∈ effects, o ≠ .connectedCb) :
    effects.foldl (recvEffect st stack) s = s := by
  induction effects with
  | nil => rfl
  | cons o effects ih =>
    obtain ⟨first, rest⟩ := List.forall_mem_cons.mp quiet
    cases o with
    | connectedCb => exact absurd rfl first
    | dataCb d => exact ih rest
    | espconnDisconnect => exact ih rest

/-- Whatever the application is told, the client only changes its state. -/
theorem disconCb_client : (mqttTcpclientDisconCb s).client = { s.client with
    connState :=
      if s.client.connState = .tcpDisconnecting then .tcpDisconnected
      else if s.client.connState = .mqttDeleting then .mqttDeleted
      else .tcpReconnectReq } := by
  unfold mqttTcpclientDisconCb
  dsimp only
  split <;> rfl

theorem disconCb_cases (inUse : s.client.InUse) :
    (mqttTcpclientDisconCb s).client.InUse ∧ Outcome s .disconCb (mqttTcpclientDisconCb s) := by
  have outside : (mqttTcpclientDisconCb s).client.connState.Outside := by
    rw [disconCb_client, if_neg inUse.deleting]
    show ConnState.Outside (if _ then _ else _)
    split
    · decide
    · decide
  have called : (mqttTcpclientDisconCb s).client.callbacks = true := by
    rw [disconCb_client]
    exact inUse.callbacks
  have lost : ¬ (mqttTcpclientDisconCb s).client.Established :=
    fun h => h.elim outside.1 outside.2.1
  refine ⟨⟨called, outside.2.2.1, outside.2.2.2⟩, ?_⟩
  by_cases reported : s.disconnectedCb = .mqttDisconnectedCb
  · refine .lost reported ?_ lost
    unfold mqttTcpclientDisconCb
    dsimp only
    rw [if_pos ⟨inUse.callbacks, reported⟩]
    rfl
  · have silent : (mqttTcpclientDisconCb s).connected = s.connected ∧
        (mqttTcpclientDisconCb s).timerTryConnect = s.timerTryConnect := by
      unfold mqttTcpclientDisconCb
      dsimp only
      rw [if_neg fun both => reported both.2]
      exact ⟨rfl, rfl⟩
    have replaced : s.disconnectedCb = .diconnectedCB := by
      cases cb : s.disconnectedCb with
      | mqttDisconnectedCb => exact absurd cb reported
      | diconnectedCB => rfl
    exact .quiet ⟨fun _ => replaced, silent.1, silent.2, fun h => absurd h lost⟩

theorem connectedCb_cases (stack : Nat → Nat → UInt8) (accepts : Accepts s.client pdata)
    (called : c'.callbacks = true) (state : c'.connState = .mqttData) :
    (mqttConnectedCb st stack { s with client := c' }).client.InUse ∧
      Outcome s (.recv pdata stack) (mqttConnectedCb st stack { s with client := c' }) := by
  obtain ⟨same, callbacks⟩ := @mqttConnectedCb_sameLink st { s with client := c' } stack
  have data := same.trans state
  refine ⟨⟨callbacks.trans called, ?_, ?_⟩, .accepted pdata stack accepts rfl rfl⟩
  · rw [data]; decide
  · rw [data]; decide

/-- Every step of a client in use has one of the three outcomes. -/
theorem Session.step_outcome (inUse : s.client.InUse) (h : s.step st e = some s') :
    s'.client.InUse ∧ Outcome s e s' := by
  have quiet : ∀ {c'} {r}, (e = .disconCb → s.disconnectedCb = .diconnectedCB) →
      some { s with client := c', registered := r } = some s' →
      c'.callbacks = s.client.callbacks → (c'.connState = s.client.connState ∨
        s.client.Established ∧ c'.Established ∨ c'.connState.Outside) →
      s'.client.InUse ∧ Outcome s e s' := fun other eq callbacks state => by
    obtain rfl := Option.some.inj eq
    exact quiet_step inUse other callbacks state _
  have sends : ∀ {c'}, (e = .disconCb → s.disconnectedCb = .diconnectedCB) →
      some { s with client := c' } = some s' →
      SameLink s.client c' → s'.client.InUse ∧ Outcome s e s' := fun other eq same =>
    quiet other eq same.2 (.inl same.1)
  cases e with
  | tryConnect =>
    obtain ⟨-, eq⟩ := Option.ite_none_right_eq_some.mp h
    exact quiet nofun eq rfl (.inr (.inr (show ConnState.tcpConnecting.Outside by decide)))
  | connectCb =>
    obtain ⟨-, eq⟩ := Option.ite_none_right_eq_some.mp h
    exact quiet nofun eq rfl (.inr (.inr (show ConnState.mqttConnectSending.Outside by decide)))
  | disconCb =>
    obtain ⟨-, eq⟩ := Option.ite_none_right_eq_some.mp h
    obtain rfl := Option.some.inj eq
    exact disconCb_cases inUse
  | reconCb =>
    obtain ⟨-, eq⟩ := Option.ite_none_right_eq_some.mp h
    exact quiet nofun eq rfl (.inr (.inr (show ConnState.tcpReconnectReq.Outside by decide)))
  | sentCb =>
    obtain ⟨-, eq⟩ := Option.ite_none_right_eq_some.mp h
    exact quiet nofun eq rfl (.inl rfl)
  | recv pdata stack =>
    obtain ⟨-, eq⟩ := Option.ite_none_right_eq_some.mp h
    obtain ⟨⟨c', effects⟩, recv, after⟩ := Option.map_eq_some_iff.mp eq
    obtain ⟨called, ⟨accepts, state, report⟩ | ⟨-, state, silent⟩⟩ :=
      recv_cases inUse.callbacks recv
    · subst report
      obtain rfl := after
      exact connectedCb_cases stack accepts called state
    · rw [foldl_recvEffect stack silent] at after
      exact quiet nofun (congrArg some after) (called.trans inUse.callbacks.symm) (.inl state)
  | mqttTimer =>
    obtain ⟨-, eq⟩ := Option.ite_none_right_eq_some.mp h
    exact quiet nofun eq mqttTimer_state.1 mqttTimer_state.2
  | task stack sent =>
    obtain ⟨c', r, task, callbacks, state⟩ := mqttTask_cases inUse stack sent
    exact quiet nofun ((congrArg some task).symm.trans h) callbacks state
  | publish stack topic data qos retain => exact sends nofun h (mqttPublish_sameLink _ _ _ _ _)
  | subscribe stack topic qos => exact sends nofun h (mqttSubscribe_sameLink _ _ _)
  | unSubscribe stack topic => exact sends nofun h (mqttUnSubscribe_sameLink _ _)
  | ping stack => exact sends nofun h (mqttPing_sameLink _)
  | onDisconnected =>
    obtain rfl := Option.some.inj h
    exact ⟨inUse, .quiet ⟨nofun, rfl, rfl, id⟩⟩
  | disconnect =>
    exact quiet nofun h rfl (.inr (.inr (show ConnState.tcpDisconnecting.Outside by decide)))

end Domotic
