import Domotic.Library.Outbox
import Domotic.Mqtt.Outgoing

/-!
# What becomes of a message

The calls of a session on its queue, as operations of an outbox: `MQTT_Publish`,
`MQTT_Subscribe`, `MQTT_UnSubscribe` and `MQTT_Ping` drop old messages to make room, the
responses to received packets are lost when there is none, and `MQTT_Task` takes a message to
send it. The queue of a session mirrors this outbox along every run.
-/
namespace Domotic
open Library

/-! ## The calls of a session -/

/-- A call on the queue of messages. -/
abbrev Call := Outbox.Op (List UInt8)

/-- The call of `MQTT_Publish`, which makes room for the message without its escapes. -/
def publishCalls (c : Client) (topic : Option (List UInt8)) (data : List UInt8)
    (qos retain : Int) : List Call :=
  let msg := (mqttMsgPublish c.connection topic data qos retain).2
  if msg.length = 0 then [] else [.put (msg.length + 2) msg]

/-- The call of a function that drops messages until its own is put. -/
def queueCalls (msg : List UInt8) : List Call := [.put (room msg) msg]

/-- The calls of `mqttConnectedCb`. -/
def connectedCalls (st : Station) (stack : Nat → Nat → UInt8) (c : Client) : List Call :=
  if st.build.triack || st.build.pwm || st.build.relay then
    queueCalls (mqttMsgSubscribe c.connection (some st.topicLight) 0).2 ++
      publishCalls (mqttSubscribe (stack 0) c (some st.topicLight) 0).1 (some deviceTopic)
        [st.myid] 1 1
  else publishCalls c (some deviceTopic) [st.myid] 1 1

/-- The response to a packet. -/
def reply (c : Client) (pdata : List UInt8) : List (List UInt8) :=
  let type := packetType pdata
  let qos := mqttGetQos (pdata.getD 0 0)
  let msgId := mqttGetId c.inBuffer mqttBufSize
  if type = MsgType.publish.code then
    if qos = 1 then [(mqttMsgPuback c.connection msgId).2]
    else if qos = 2 then [(mqttMsgPubrec c.connection msgId).2]
    else []
  else if type = MsgType.pubrec.code then [(mqttMsgPubrel c.connection msgId).2]
  else if type = MsgType.pubrel.code then [(mqttMsgPubcomp c.connection msgId).2]
  else if type = MsgType.pingreq.code then [mqttMsgPingresp]
  else []

/-- The response of one round of `mqtt_tcpclient_recv`. -/
def roundReply : Client × List UInt8 → List (List UInt8)
  | (c, pdata) =>
    if (c.connState = .mqttData ∨ c.connState = .mqttKeepaliveSend) ∧
        pdata.length < mqttBufSize ∧ 0 < pdata.length then
      reply (c.store pdata) pdata
    else []

/-- The responses of at most `n` rounds. -/
def replies : Nat → Client × List UInt8 → List (List UInt8)
  | 0, _ => []
  | n + 1, t =>
    roundReply t ++ if (recvRound t).again then replies n (recvRound t).state else []

/-- Responses are put without making room. -/
def replyCalls (msgs : List (List UInt8)) : List Call := msgs.map (.put 0)

/-- The calls of the application when the client calls it. -/
def effectCall (st : Station) (stack : Nat → Nat → UInt8) (s : Session) :
    RecvEffect → List Call
  | .connectedCb => connectedCalls st stack s.client
  | .dataCb _ | .espconnDisconnect => []

def effectCalls (st : Station) (stack : Nat → Nat → UInt8) :
    Session → List RecvEffect → List Call
  | _, [] => []
  | s, o :: effects =>
    effectCall st stack s o ++ effectCalls st stack (recvEffect st stack s o) effects

/-- `MQTT_Task` takes a message from the queue. -/
def Client.Dequeues (c : Client) : Prop :=
  c.connState = .mqttData ∧ ¬ (queueIsEmpty c.msgQueue = true ∨ c.sendTimeout ≠ 0)

instance (c : Client) : Decidable c.Dequeues := inferInstanceAs (Decidable (_ ∧ _))

/-- A message that is given to `espconn_send`: taken from the queue, or built for this call. -/
inductive Sent where
  | queued (msg : List UInt8)
  | direct (msg : List UInt8)
  deriving DecidableEq

/-- The message, if it was taken from the queue. -/
def Sent.fromQueue : Sent → Option (List UInt8)
  | .queued msg => some msg
  | .direct _ => none

namespace Session

/-- The calls of a step on the queue. -/
def calls (st : Station) (s : Session) : SessionEvent → List Call
  | .recv pdata stack =>
    if s.registered then
      replyCalls (replies (pdata.length + 1) ({ s.client with keepAliveTick := 0 }, pdata)) ++
        match mqttTcpclientRecv s.client pdata with
        | some r => effectCalls st stack { s with client := r.1 } r.2
        | none => []
    else []
  | .task _ _ => if s.client.Dequeues then [.take] else []
  | .publish _ topic data qos retain => publishCalls s.client topic data qos retain
  | .subscribe _ topic qos => queueCalls (mqttMsgSubscribe s.client.connection topic qos).2
  | .unSubscribe _ topic => queueCalls (mqttMsgUnsubscribe s.client.connection topic).2
  | .ping _ => queueCalls mqttMsgPingreq
  | _ => []

/-- The messages that a step builds for the queue. -/
def built (st : Station) (s : Session) (e : SessionEvent) : List (List UInt8) :=
  (s.calls st e).flatMap Outbox.Op.brings

/-- What a step gives to `espconn_send`: the `CONNECT` of a new connection, the `PINGREQ` of
`mqtt_send_keepalive`, or the message that `MQTT_Task` takes from the queue. -/
def sends (st : Station) (s : Session) : SessionEvent → List Sent
  | .connectCb => [.direct (mqttTcpclientConnectCb (stationInfo st.chipId) s.client).2]
  | .task stack _ =>
    match s.client.connState with
    | .mqttKeepaliveSend => [.direct mqttMsgPingreq]
    | .mqttData => (dequeued stack s.client).toList.map .queued
    | _ => []
  | _ => []

/-- The messages that a step takes from the queue. -/
def takes (st : Station) (s : Session) (e : SessionEvent) : List (List UInt8) :=
  (s.sends st e).filterMap Sent.fromQueue

theorem takes_task {st : Station} {s : Session} (stack : Nat → UInt8) (sent : Bool) :
    s.takes st (.task stack sent) =
      if s.client.Dequeues then (queueGets (stack 0) mqttBufSize s.client.msgQueue).2.toList
      else [] := by
  by_cases data : s.client.connState = .mqttData
  · have queued : s.takes st (.task stack sent) = (dequeued stack s.client).toList := by
      unfold takes sends
      dsimp only
      rw [data]
      cases dequeued stack s.client with
      | none => rfl
      | some msg => rfl
    rw [queued, dequeued]
    by_cases waits : queueIsEmpty s.client.msgQueue = true ∨ s.client.sendTimeout ≠ 0
    · rw [if_pos waits, if_neg fun dequeues => dequeues.2 waits]
      rfl
    · rw [if_neg waits, if_pos ⟨data, waits⟩]
  · rw [if_neg fun dequeues => data dequeues.1]
    unfold takes sends
    dsimp only
    split
    · rfl
    · rename_i data'
      exact absurd data' data
    · rfl

/-- The message that `dequeued` reads is the one that `MQTT_Task` sends: it leaves the queue, and
its type is the one that an answer is expected to. -/
theorem mqttTask_dequeued {st : Station} {s : Session} {stack : Nat → UInt8} {msg : List UInt8}
    (data : s.client.connState = .mqttData) (got : dequeued stack s.client = some msg)
    (sent : Bool) : s.sends st (.task stack sent) = [.queued msg] ∧
      (mqttTask stack sent s).client = { s.client with
        msgQueue := (queueGets (stack 0) mqttBufSize s.client.msgQueue).1
        pendingMsgType := mqttGetType (msg.headD (stack 1))
        sendTimeout := mqttSendTimout } := by
  obtain ⟨waits, got'⟩ := Option.ite_none_left_eq_some.mp got
  constructor
  · unfold sends
    dsimp only
    rw [data]
    dsimp only
    rw [got]
    rfl
  · rw [mqttTask_data data]
    unfold sendQueued
    dsimp only
    rw [if_neg waits, got']

/-- Only a run of `MQTT_Task` that dequeues sends a message of the queue. -/
theorem dequeues_of_queued {st : Station} {s : Session} {ev : SessionEvent} {msg : List UInt8}
    (queued : .queued msg ∈ s.sends st ev) : s.client.Dequeues := by
  have taken : msg ∈ s.takes st ev := List.mem_filterMap.mpr ⟨_, queued, rfl⟩
  cases ev with
  | task stack sent =>
    rw [takes_task] at taken
    by_contra idle
    rw [if_neg idle] at taken
    cases taken
  | connectCb => cases List.mem_singleton.mp queued
  | _ => cases queued

end Session

/-! ## The queue mirrors an outbox -/

/-- The outbox of a session: the messages of the queue weigh what they take in the ring. -/
def sessionBox (b : Outbox (List UInt8)) (calls : List Call) : Outbox (List UInt8) :=
  b.execAll room queueBufferSize calls

/-- The queue holds what waits in the outbox, and no message is longer than the buffer that
`MQTT_Task` copies it to. -/
structure Mirrors (c : Client) (b : Outbox (List UInt8)) : Prop where
  carries : Carries c b.waiting
  short : ∀ msg ∈ b.waiting, msg.length ≤ mqttBufSize

variable {c c' : Client} {b : Outbox (List UInt8)} {r : MqttConnection}
  {topic : Option (List UInt8)} {st : Station} {s s' : Session} {ev : SessionEvent}
  {es : List SessionEvent} {calls : List Call}

/-! ### The messages are short -/

theorem finiMessage_short (type : MsgType) (qos retain : Int) {body : List UInt8}
    (short : maxFixedHeaderSize + body.length ≤ mqttBufSize) :
    (finiMessage type 0 qos retain body).length ≤ mqttBufSize := by
  rw [finiMessage_length]
  unfold maxFixedHeaderSize at short
  split <;> omega

theorem mqttMsgPublish_short (buffer : r.bufferLength = mqttBufSize) (data : List UInt8)
    (qos retain : Int) : (mqttMsgPublish r topic data qos retain).2.length ≤ mqttBufSize := by
  obtain ⟨-, id, length, eq⟩ := mqttMsgPublish_eq buffer topic data qos retain
  rw [eq]
  split
  · exact Nat.zero_le _
  · rename_i fits
    rw [not_or] at fits
    have small := fits.2
    unfold publishLength at small
    refine finiMessage_short _ _ _ ?_
    simp only [msbLsb, List.length_append, List.length_cons, List.length_nil, length,
      maxFixedHeaderSize, mqttBufSize]
    omega

theorem mqttMsgAck_short (buffer : r.bufferLength = mqttBufSize) (type : MsgType) (qos : Int)
    (id : UInt16) : (mqttMsgAck type qos r id).2.length ≤ mqttBufSize := by
  obtain ⟨-, appended⟩ := appendMessageId_spec r [] id
  rw [buffer, if_neg (by decide)] at appended
  obtain ⟨body, length, eq⟩ := appended
  unfold mqttMsgAck
  dsimp only
  rw [eq, List.nil_append]
  refine finiMessage_short _ _ _ ?_
  rw [length]
  decide

theorem mqttMsgSubscribe_short (buffer : r.bufferLength = mqttBufSize) (qos : UInt8) :
    (mqttMsgSubscribe r topic qos).2.length ≤ mqttBufSize := by
  unfold mqttMsgSubscribe
  dsimp only
  split
  · exact Nat.zero_le _
  · split
    · exact Nat.zero_le _
    · split
      · exact Nat.zero_le _
      · rename_i body _ fits
        refine finiMessage_short _ _ _ ?_
        rw [List.length_append, List.length_singleton]
        omega

theorem mqttMsgUnsubscribe_short (buffer : r.bufferLength = mqttBufSize) :
    (mqttMsgUnsubscribe r topic).2.length ≤ mqttBufSize := by
  unfold mqttMsgUnsubscribe
  dsimp only
  split
  · exact Nat.zero_le _
  · have appended := appendTopic_spec buffer (topic.getD [])
    split at appended
    · rw [appended]
      exact Nat.zero_le _
    · obtain ⟨body, eq, length⟩ := appended
      rw [eq]
      refine finiMessage_short _ _ _ ?_
      unfold maxFixedHeaderSize mqttBufSize
      omega

/-! ### One call -/

/-- The outbox after one call that puts a message, given the room that is made first. -/
theorem Mirrors.put {need : Nat} {msg : List UInt8} (h : Mirrors c b)
    (short : msg.length ≤ mqttBufSize) (buffer : c'.connection.bufferLength = mqttBufSize)
    (size : c'.msgQueue.size = queueBufferSize)
    (holds : Holds c'.msgQueue (b.exec room queueBufferSize (.put need msg)).waiting) :
    Mirrors c' (b.exec room queueBufferSize (.put need msg)) := by
  refine ⟨⟨buffer, size, holds⟩, ?_⟩
  intro m mem
  have known : m ∈ b.waiting ∨ m = msg := by
    have old := (@Outbox.kept_suffix _ room queueBufferSize b.waiting need).subset
    unfold Outbox.exec at mem
    dsimp only at mem
    split at mem
    · rcases List.mem_append.mp mem with before | new
      · exact .inl (old before)
      · exact .inr (List.mem_singleton.mp new)
    · exact .inl (old mem)
  rcases known with before | rfl
  · exact h.short m before
  · exact short

/-- `QUEUE_Puts` behind some dropping. -/
theorem holds_puts {q : RingBuf} {msgs : List (List UInt8)} (holds : Holds q msgs)
    (size : q.size = queueBufferSize) (msg : List UInt8) :
    Holds (queuePuts q msg).1
        (if (msgs.map room).sum + room msg ≤ queueBufferSize then msgs ++ [msg] else msgs) ∧
      (queuePuts q msg).1.size = queueBufferSize := by
  have used := holds.fillCnt_eq
  split
  · obtain ⟨-, holds', size'⟩ := @Holds.puts q msgs holds (by rw [size]; decide) msg (by omega)
    exact ⟨holds', size'.trans size⟩
  · obtain ⟨-, holds', size'⟩ := @Holds.puts_full q msgs holds msg (by omega)
    exact ⟨holds', size'.trans size⟩

theorem exec_put_waiting (need : Nat) (msg : List UInt8) :
    (b.exec room queueBufferSize (.put need msg)).waiting =
      if ((Outbox.kept room queueBufferSize need b.waiting).map room).sum + room msg ≤
          queueBufferSize then
        Outbox.kept room queueBufferSize need b.waiting ++ [msg]
      else Outbox.kept room queueBufferSize need b.waiting := by
  unfold Outbox.exec
  dsimp only
  split <;> rfl

/-- A client with the same queue and the same connection. -/
theorem Mirrors.same (h : Mirrors c b) (connection : c'.connection = c.connection)
    (queue : c'.msgQueue = c.msgQueue) : Mirrors c' b :=
  ⟨⟨connection ▸ h.carries.buffer, queue ▸ h.carries.size, queue ▸ h.carries.holds⟩, h.short⟩

/-- A response. -/
theorem Mirrors.respond (h : Mirrors c b) {m : MqttConnection × List UInt8}
    (buffer : m.1.bufferLength = mqttBufSize) (short : m.2.length ≤ mqttBufSize) :
    Mirrors (c.respond m) (sessionBox b (replyCalls [m.2])) := by
  have all : Outbox.kept room queueBufferSize 0 b.waiting = b.waiting :=
    Outbox.kept_of_room (by rw [← h.carries.holds.fillCnt_eq, ← h.carries.size]
                            exact h.carries.holds.valid.fillCnt_le)
  obtain ⟨holds, size⟩ := holds_puts h.carries.holds h.carries.size m.2
  refine h.put short buffer size ?_
  rw [exec_put_waiting, all]
  exact holds

/-- The functions that drop messages until their own is put. -/
theorem Mirrors.queue (h : Mirrors c b) (stack : Nat → UInt8) {msg : List UInt8}
    (short : msg.length ≤ mqttBufSize) :
    Mirrors (c.queue stack msg).1 (sessionBox b (queueCalls msg)) := by
  have fuel : b.waiting.length < c.msgQueue.fillCnt + 1 :=
    Nat.lt_succ_of_le h.carries.holds.length_le
  obtain ⟨put, size⟩ := putsDropping_spec stack msg h.carries.holds
    (by rw [h.carries.size]; decide) fuel
  rw [h.carries.size] at put
  refine h.put short h.carries.buffer (size.trans h.carries.size) ?_
  have weight : 2 ≤ room msg := Nat.le_add_left 2 _
  have made := @Outbox.kept_room _ room queueBufferSize b.waiting (room msg)
  rw [exec_put_waiting]
  rcases put with ⟨fits, -, holds⟩ | ⟨large, -, holds⟩
  · rw [if_pos]
    · exact holds
    · rcases made with none | free
      · rwa [none, List.map_nil, List.sum_nil, Nat.zero_add]
      · omega
  · have none := made.resolve_right (by omega)
    rw [none, if_neg]
    · exact holds
    · rw [List.map_nil, List.sum_nil]
      omega

/-- `MQTT_Publish` -/
theorem Mirrors.publish (h : Mirrors c b) (stack : Nat → UInt8) (data : List UInt8)
    (qos retain : Int) : Mirrors (mqttPublish stack c topic data qos retain).1
      (sessionBox b (publishCalls c topic data qos retain)) := by
  have short := @mqttMsgPublish_short c.connection topic h.carries.buffer data qos retain
  have buffer := (mqttMsgPublish_eq h.carries.buffer topic data qos retain).1
  unfold mqttPublish publishCalls
  generalize mqttMsgPublish c.connection topic data qos retain = r at buffer short ⊢
  dsimp only
  split
  · exact ⟨⟨buffer, h.carries.size, h.carries.holds⟩, h.short⟩
  have fuel : b.waiting.length < c.msgQueue.fillCnt + 1 :=
    Nat.lt_succ_of_le h.carries.holds.length_le
  obtain ⟨done, holds, size⟩ := dropUntilRoom_spec stack r.2.length h.carries.holds fuel
  rw [h.carries.size] at done
  rw [h.carries.size] at holds
  have size := size.trans h.carries.size
  have heavier : r.2.length + 2 ≤ room r.2 := by
    unfold room
    omega
  split
  · obtain ⟨holds', size'⟩ := holds_puts holds size r.2
    refine h.put short buffer size' ?_
    rw [exec_put_waiting]
    exact holds'
  · rename_i failed
    have large : queueBufferSize < r.2.length + 2 := Nat.lt_of_not_le (mt done.mpr failed)
    refine h.put short buffer size ?_
    rw [exec_put_waiting, if_neg (by omega)]
    exact holds

theorem Mirrors.subscribe (h : Mirrors c b) (stack : Nat → UInt8) (qos : UInt8) :
    Mirrors (mqttSubscribe stack c topic qos).1
      (sessionBox b (queueCalls (mqttMsgSubscribe c.connection topic qos).2)) := by
  have buffer := (@mqttMsgSubscribe_spec c.connection topic h.carries.buffer qos).1
  have next : Mirrors { c with connection := (mqttMsgSubscribe c.connection topic qos).1 } b :=
    ⟨⟨buffer, h.carries.size, h.carries.holds⟩, h.short⟩
  exact next.queue stack (mqttMsgSubscribe_short h.carries.buffer qos)

theorem Mirrors.unSubscribe (h : Mirrors c b) (stack : Nat → UInt8) :
    Mirrors (mqttUnSubscribe stack c topic).1
      (sessionBox b (queueCalls (mqttMsgUnsubscribe c.connection topic).2)) := by
  have buffer := (@mqttMsgUnsubscribe_spec c.connection topic h.carries.buffer).1
  have next : Mirrors { c with connection := (mqttMsgUnsubscribe c.connection topic).1 } b :=
    ⟨⟨buffer, h.carries.size, h.carries.holds⟩, h.short⟩
  exact next.queue stack (mqttMsgUnsubscribe_short h.carries.buffer)

theorem Mirrors.ping (h : Mirrors c b) (stack : Nat → UInt8) :
    Mirrors (mqttPing stack c).1 (sessionBox b (queueCalls mqttMsgPingreq)) := by
  unfold mqttPing
  rw [if_neg (by decide)]
  exact h.queue stack (by decide)

theorem sessionBox_append (more : List Call) :
    sessionBox b (calls ++ more) = sessionBox (sessionBox b calls) more :=
  Outbox.execAll_append more

/-- The device tells the broker that it is there. -/
theorem Mirrors.connectedCb (h : Mirrors s.client b) (stack : Nat → Nat → UInt8) :
    Mirrors (mqttConnectedCb st stack s).client
      (sessionBox b (connectedCalls st stack s.client)) := by
  unfold mqttConnectedCb connectedCalls
  dsimp only
  split
  · rw [sessionBox_append]
    exact (h.subscribe (stack 0) 0).publish _ _ _ _
  · exact h.publish _ _ _ _

/-! ### A received segment -/

theorem Mirrors.reply (h : Mirrors c b) (pdata : List UInt8) :
    Mirrors (recvPacket c pdata).1 (sessionBox b (replyCalls (Domotic.reply c pdata))) := by
  have ack : ∀ (type : MsgType) (qos : Int) (id : UInt16),
      Mirrors (c.respond (mqttMsgAck type qos c.connection id))
        (sessionBox b (replyCalls [(mqttMsgAck type qos c.connection id).2])) := by
    intro type qos id
    exact h.respond (mqttMsgAck_spec h.carries.buffer type qos id).1
      (mqttMsgAck_short h.carries.buffer type qos id)
  unfold recvPacket Domotic.reply
  dsimp only
  split
  · split
    · exact ack .puback 0 _
    · split
      · exact ack .pubrec 0 _
      · exact h
  · split
    · exact ack .pubrel 1 _
    · split
      · exact ack .pubcomp 0 _
      · split
        · have short : mqttMsgPingresp.length ≤ mqttBufSize := by decide
          exact @Mirrors.respond c b h (c.connection, mqttMsgPingresp) h.carries.buffer short
        · exact h

/-- A round outside of an established session queues nothing. -/
theorem recvRound_idle {t : Client × List UInt8} (h : ¬ Receiving t) :
    (recvRound t).state.1.connection = t.1.connection ∧
      (recvRound t).state.1.msgQueue = t.1.msgQueue := by
  obtain ⟨c, pdata⟩ := t
  unfold recvRound
  dsimp only
  split
  · rename_i length
    split
    · unfold recvConnack
      split_ifs <;> exact ⟨rfl, rfl⟩
    · rename_i data
      exact absurd ⟨.inl data, length.1, length.2⟩ h
    · rename_i keepalive
      exact absurd ⟨.inr keepalive, length.1, length.2⟩ h
    · exact ⟨rfl, rfl⟩
  · exact ⟨rfl, rfl⟩

theorem Mirrors.round {t : Client × List UInt8} (h : Mirrors t.1 b) :
    Mirrors (recvRound t).state.1 (sessionBox b (replyCalls (roundReply t))) := by
  unfold roundReply
  dsimp only
  by_cases receiving : Receiving t
  · have stored : Mirrors (t.1.store t.2) b := h.same rfl rfl
    rw [if_pos ⟨receiving.established, receiving.short, receiving.nonempty⟩,
      recvRound_eq receiving]
    split
    · exact stored.reply t.2
    · exact stored.reply t.2
  · obtain ⟨connection, queue⟩ := recvRound_idle receiving
    rw [if_neg fun inside => receiving ⟨inside.1, inside.2.1, inside.2.2⟩]
    exact h.same connection queue

theorem Mirrors.rounds {t : Client × List UInt8} (h : Mirrors t.1 b) (n : Nat) :
    Mirrors (loop recvRound n t).state.1 (sessionBox b (replyCalls (replies n t))) := by
  induction n generalizing t b with
  | zero => exact h
  | succ n ih =>
    have first := h.round
    unfold replies
    by_cases more : (recvRound t).again = true
    · rw [loop_next more, if_pos more]
      unfold replyCalls
      rw [List.map_append, sessionBox_append]
      exact ih first
    · rw [loop_last (by simpa using more), if_neg more, List.append_nil]
      exact first

theorem Mirrors.effects (stack : Nat → Nat → UInt8) (effects : List RecvEffect)
    (h : Mirrors s.client b) :
    Mirrors (effects.foldl (recvEffect st stack) s).client
      (sessionBox b (effectCalls st stack s effects)) := by
  induction effects generalizing s b with
  | nil => exact h
  | cons o effects ih =>
    rw [effectCalls, sessionBox_append]
    cases o with
    | connectedCb => exact ih (h.connectedCb stack)
    | dataCb d => exact ih h
    | espconnDisconnect => exact ih h

/-! ### A step -/

theorem mqttTimer_keeps : (mqttTimer c).connection = c.connection ∧
    (mqttTimer c).msgQueue = c.msgQueue := by
  unfold mqttTimer
  dsimp only
  split_ifs <;> exact ⟨rfl, rfl⟩

/-- Only in the state `MQTT_DATA` does `MQTT_Task` look at the queue. -/
theorem mqttTask_keeps {stack : Nat → UInt8} {sent : Bool}
    (other : s.client.connState ≠ .mqttData) :
    (mqttTask stack sent s).client.connection = s.client.connection ∧
      (mqttTask stack sent s).client.msgQueue = s.client.msgQueue := by
  unfold mqttTask mqttSendKeepalive
  split
  · exact ⟨rfl, rfl⟩
  · exact ⟨rfl, rfl⟩
  · exact ⟨rfl, rfl⟩
  · dsimp only
    split <;> exact ⟨rfl, rfl⟩
  · rename_i data
    exact absurd data other
  · exact ⟨rfl, rfl⟩

theorem Mirrors.recv {pdata : List UInt8} {effects : List RecvEffect} (h : Mirrors c b)
    (recv : mqttTcpclientRecv c pdata = some (c', effects)) :
    Mirrors c' (sessionBox b
      (replyCalls (replies (pdata.length + 1) ({ c with keepAliveTick := 0 }, pdata)))) := by
  unfold mqttTcpclientRecv recvLoop at recv
  dsimp only at recv
  split at recv
  · cases recv
  obtain ⟨rfl, -⟩ := Prod.mk.inj (Option.some.inj recv)
  have start : Mirrors { c with keepAliveTick := 0 } b := h.same rfl rfl
  exact @Mirrors.rounds b ({ c with keepAliveTick := 0 }, pdata) start (pdata.length + 1)

/-- `MQTT_Task` sends the oldest message, whole. -/
theorem Mirrors.sendQueued (h : Mirrors c b) (stack : Nat → UInt8)
    (data : c.connState = .mqttData) :
    Mirrors (Domotic.sendQueued stack c) (sessionBox b (if c.Dequeues then [.take] else [])) ∧
      (sessionBox b (if c.Dequeues then [.take] else [])).taken = b.taken ++
        if c.Dequeues then (queueGets (stack 0) mqttBufSize c.msgQueue).2.toList else [] := by
  unfold Domotic.sendQueued
  dsimp only
  by_cases waits : queueIsEmpty c.msgQueue = true ∨ c.sendTimeout ≠ 0
  · have idle : ¬ c.Dequeues := fun dequeues => dequeues.2 waits
    rw [if_pos waits, if_neg idle, if_neg idle]
    exact ⟨h, (List.append_nil _).symm⟩
  · have dequeues : c.Dequeues := ⟨data, waits⟩
    rw [if_neg waits, if_pos dequeues, if_pos dequeues]
    obtain ⟨taken, waiting⟩ := b
    cases waiting with
    | nil =>
      have none : c.msgQueue.fillCnt = 0 := h.carries.holds.fillCnt_eq
      exact absurd (.inl (by simp [queueIsEmpty, none])) waits
    | cons msg msgs =>
      obtain ⟨got, holds, size⟩ := h.carries.holds.gets (stack 0) mqttBufSize
      rw [List.take_of_length_le (h.short msg List.mem_cons_self)] at got
      rw [got]
      exact ⟨⟨⟨h.carries.buffer, size.trans h.carries.size, holds⟩,
        fun m mem => h.short m (List.mem_cons_of_mem msg mem)⟩, rfl⟩

/-- A call that puts a message, and makes no more room than the message takes. -/
def Puts (call : Call) : Prop := ∃ need msg, call = .put need msg ∧ need ≤ room msg

/-- Calls that only put leave what was taken. -/
theorem sessionBox_taken (puts : ∀ call ∈ calls, Puts call) :
    (sessionBox b calls).taken = b.taken := by
  induction calls generalizing b with
  | nil => rfl
  | cons call calls ih =>
    obtain ⟨⟨need, msg, rfl, -⟩, rest⟩ := List.forall_mem_cons.mp puts
    exact (ih rest).trans (Outbox.exec_put_taken need msg)

theorem queueCalls_puts (msg : List UInt8) : ∀ call ∈ queueCalls msg, Puts call := by
  intro call mem
  rw [List.mem_singleton.mp mem]
  exact ⟨_, _, rfl, le_rfl⟩

theorem publishCalls_puts (data : List UInt8) (qos retain : Int) :
    ∀ call ∈ publishCalls c topic data qos retain, Puts call := by
  unfold publishCalls
  dsimp only
  split
  · simp
  · intro call mem
    rw [List.mem_singleton.mp mem]
    refine ⟨_, _, rfl, ?_⟩
    unfold room
    omega

theorem connectedCalls_puts (stack : Nat → Nat → UInt8) :
    ∀ call ∈ connectedCalls st stack c, Puts call := by
  unfold connectedCalls
  split
  · intro call mem
    rcases List.mem_append.mp mem with first | second
    · exact queueCalls_puts _ call first
    · exact publishCalls_puts _ _ _ call second
  · exact publishCalls_puts _ _ _

theorem replyCalls_puts (msgs : List (List UInt8)) : ∀ call ∈ replyCalls msgs, Puts call := by
  intro call mem
  obtain ⟨msg, -, rfl⟩ := List.mem_map.mp mem
  exact ⟨_, _, rfl, Nat.zero_le _⟩

theorem effectCalls_puts (stack : Nat → Nat → UInt8) (effects : List RecvEffect) :
    ∀ call ∈ effectCalls st stack s effects, Puts call := by
  induction effects generalizing s with
  | nil => simp [effectCalls]
  | cons o effects ih =>
    intro call mem
    rcases List.mem_append.mp mem with first | later
    · cases o with
      | connectedCb => exact connectedCalls_puts stack call first
      | dataCb d => cases first
      | espconnDisconnect => cases first
    · exact ih call later

/-- Every call of a step takes or puts. -/
theorem calls_puts : ∀ call ∈ s.calls st ev, call = .take ∨ Puts call := by
  intro call mem
  cases ev with
  | recv pdata stack =>
    unfold Session.calls at mem
    dsimp only at mem
    split at mem
    · rcases List.mem_append.mp mem with first | later
      · exact .inr (replyCalls_puts _ call first)
      · split at later
        · exact .inr (effectCalls_puts _ _ call later)
        · cases later
    · cases mem
  | task stack sent =>
    unfold Session.calls at mem
    dsimp only at mem
    split at mem
    · exact .inl (List.mem_singleton.mp mem)
    · cases mem
  | publish stack topic data qos retain => exact .inr (publishCalls_puts _ _ _ call mem)
  | subscribe stack topic qos => exact .inr (queueCalls_puts _ call mem)
  | unSubscribe stack topic => exact .inr (queueCalls_puts _ call mem)
  | ping stack => exact .inr (queueCalls_puts _ call mem)
  | _ => cases mem

/-- A step does its calls, and takes what they take. -/
theorem step_mirrors (h : Mirrors s.client b) (step : s.step st ev = some s') :
    Mirrors s'.client (sessionBox b (s.calls st ev)) ∧
      (sessionBox b (s.calls st ev)).taken = b.taken ++ s.takes st ev := by
  have none : ∀ {c'}, some c' = some s' → c'.client.connection = s.client.connection →
      c'.client.msgQueue = s.client.msgQueue → s.calls st ev = [] → s.takes st ev = [] →
      Mirrors s'.client (sessionBox b (s.calls st ev)) ∧
        (sessionBox b (s.calls st ev)).taken = b.taken ++ s.takes st ev := by
    intro c' eq connection queue calls takes
    obtain rfl := Option.some.inj eq
    rw [calls, takes, List.append_nil]
    exact ⟨h.same connection queue, rfl⟩
  have puts : ∀ {c'}, some c' = some s' → Mirrors c'.client (sessionBox b (s.calls st ev)) →
      (∀ call ∈ s.calls st ev, Puts call) → s.takes st ev = [] →
      Mirrors s'.client (sessionBox b (s.calls st ev)) ∧
        (sessionBox b (s.calls st ev)).taken = b.taken ++ s.takes st ev := by
    intro c' eq mirrors puts takes
    obtain rfl := Option.some.inj eq
    rw [takes, List.append_nil]
    exact ⟨mirrors, sessionBox_taken puts⟩
  cases ev with
  | tryConnect =>
    obtain ⟨-, eq⟩ := Option.ite_none_right_eq_some.mp step
    exact none eq rfl rfl rfl rfl
  | connectCb =>
    obtain ⟨-, eq⟩ := Option.ite_none_right_eq_some.mp step
    obtain rfl := Option.some.inj eq
    exact ⟨⟨⟨rfl, h.carries.size, h.carries.holds⟩, h.short⟩, (List.append_nil _).symm⟩
  | disconCb =>
    obtain ⟨-, eq⟩ := Option.ite_none_right_eq_some.mp step
    refine none eq ?_ ?_ rfl rfl
    · rw [disconCb_client]
    · rw [disconCb_client]
  | reconCb =>
    obtain ⟨-, eq⟩ := Option.ite_none_right_eq_some.mp step
    exact none eq rfl rfl rfl rfl
  | sentCb =>
    obtain ⟨-, eq⟩ := Option.ite_none_right_eq_some.mp step
    exact none eq rfl rfl rfl rfl
  | recv pdata stack =>
    obtain ⟨registered, eq⟩ := Option.ite_none_right_eq_some.mp step
    obtain ⟨⟨c', effects⟩, recv, after⟩ := Option.map_eq_some_iff.mp eq
    have calls : s.calls st (.recv pdata stack) =
        replyCalls (replies (pdata.length + 1) ({ s.client with keepAliveTick := 0 }, pdata)) ++
          effectCalls st stack { s with client := c' } effects := by
      unfold Session.calls
      dsimp only
      rw [if_pos registered, recv]
    refine puts (congrArg some after) ?_ ?_ rfl
    · rw [calls, sessionBox_append]
      exact Mirrors.effects stack effects (h.recv recv)
    · rw [calls]
      intro call mem
      rcases List.mem_append.mp mem with first | later
      · exact replyCalls_puts _ call first
      · exact effectCalls_puts stack effects call later
  | mqttTimer =>
    obtain ⟨-, eq⟩ := Option.ite_none_right_eq_some.mp step
    refine none eq ?_ ?_ rfl rfl
    · exact mqttTimer_keeps.1
    · exact mqttTimer_keeps.2
  | task stack sent =>
    by_cases data : s.client.connState = .mqttData
    · obtain rfl := Option.some.inj step
      rw [mqttTask_data data, Session.takes_task]
      exact h.sendQueued stack data
    · have idle : ¬ s.client.Dequeues := fun dequeues => data dequeues.1
      exact none step (mqttTask_keeps data).1 (mqttTask_keeps data).2 (if_neg idle)
        ((Session.takes_task stack sent).trans (if_neg idle))
  | publish stack topic data qos retain =>
    exact puts step (h.publish stack data qos retain) (publishCalls_puts data qos retain) rfl
  | subscribe stack topic qos =>
    exact puts step (h.subscribe stack qos) (queueCalls_puts _) rfl
  | unSubscribe stack topic =>
    exact puts step (h.unSubscribe stack) (queueCalls_puts _) rfl
  | ping stack => exact puts step (h.ping stack) (queueCalls_puts _) rfl
  | onDisconnected => exact none step rfl rfl rfl rfl
  | disconnect => exact none step rfl rfl rfl rfl

/-! ## A run -/

/-- The outbox after some events of a session. -/
def boxAfter (st : Station) (es : List SessionEvent) : Outbox (List UInt8) :=
  sessionBox ⟨[], []⟩ (observed (Session.step st) (Session.calls st) mqttInit es)

/-- The session is an outbox with the calls of its steps. -/
theorem run_mirrors (run : SessionRun st mqttInit es s) :
    Mirrors s.client (boxAfter st es) ∧
      (boxAfter st es).taken = observed (Session.step st) (Session.takes st) mqttInit es := by
  induction run with
  | nil => exact ⟨⟨⟨rfl, rfl, RingBuf.init_valid (by decide), rfl⟩,
      fun _ mem => (List.not_mem_nil mem).elim⟩, rfl⟩
  | @snoc es ev s s' before step ih =>
    obtain ⟨mirrors, taken⟩ := step_mirrors ih.1 step
    rw [boxAfter, observed_snoc before, observed_snoc before, sessionBox_append, ← ih.2]
    exact ⟨mirrors, taken⟩

theorem observed_built :
    (observed (Session.step st) (Session.calls st) s es).flatMap Outbox.Op.brings =
      observed (Session.step st) (Session.built st) s es := by
  induction es generalizing s with
  | nil => rfl
  | cons e es ih =>
    unfold observed Session.built
    rw [List.flatMap_append]
    refine congrArg _ ?_
    split
    · exact ih
    · rfl

/-- What was sent from the queue and what still waits there are messages that the session built for
it, each at most once and in the order in which they were built. -/
theorem sent_in_order (run : SessionRun st mqttInit es s) :
    ∃ waiting, Carries s.client waiting ∧
      ((observed (Session.step st) (Session.sends st) mqttInit es).filterMap Sent.fromQueue ++
        waiting).Sublist (observed (Session.step st) (Session.built st) mqttInit es) := by
  obtain ⟨mirrors, taken⟩ := run_mirrors run
  refine ⟨_, mirrors.carries, ?_⟩
  rw [observed_filterMap]
  change (observed _ (Session.takes st) mqttInit es ++ _).Sublist _
  rw [← taken, ← observed_built]
  exact Outbox.execAll_sublist

/-- The first session, in which `MQTT_Task` runs twice once the `CONNECT` message was sent. -/
def busySession : List SessionEvent :=
  firstSession ++ [.sentCb, .task (fun _ => 0) true, .task (fun _ => 0) true]

/-- It sends its subscription; its publication waits. -/
theorem busySession_sends : ∃ s waiting, SessionRun .prise mqttInit busySession s ∧
    Carries s.client waiting ∧
    observed (Session.step .prise) (Session.sends .prise) mqttInit busySession =
      [.direct (mqttMsgConnect ⟨0, mqttBufSize⟩ (stationInfo 0)),
        .queued (mqttMsgSubscribe ⟨0, mqttBufSize⟩ (some Station.prise.topicLight) 0).2] ∧
    ((observed (Session.step .prise) (Session.sends .prise) mqttInit busySession).filterMap
      Sent.fromQueue ++ waiting).Sublist
        (observed (Session.step .prise) (Session.built .prise) mqttInit busySession) := by
  have runs : (busySession.foldlM (Session.step .prise) mqttInit).isSome = true := by
    decide +kernel
  obtain ⟨s, run⟩ := Option.isSome_iff_exists.mp runs
  obtain ⟨waiting, carries, order⟩ := sent_in_order (run_iff_foldlM.mpr run)
  exact ⟨s, waiting, run_iff_foldlM.mpr run, carries, by decide +kernel, order⟩

/-- The queue has room for what a step builds. -/
def FitsStep (st : Station) (s : Session) (e : SessionEvent) : Prop :=
  s.client.msgQueue.fillCnt + ((s.built st e).map room).sum ≤ queueBufferSize

instance (st : Station) (s : Session) (e : SessionEvent) : Decidable (FitsStep st s e) :=
  inferInstanceAs (Decidable (_ ≤ _))

/-- While the queue has room, no message built for it is lost: each was sent or waits. -/
theorem sent_or_waiting
    (run : Run (Guarded (FitsStep st) fun s e s' => s.step st e = some s') mqttInit es s) :
    ∃ waiting, Carries s.client waiting ∧
      (observed (Session.step st) (Session.sends st) mqttInit es).filterMap Sent.fromQueue ++
        waiting = observed (Session.step st) (Session.built st) mqttInit es := by
  rw [observed_filterMap]
  change ∃ waiting, _ ∧ observed _ (Session.takes st) mqttInit es ++ waiting = _
  induction run with
  | nil => exact ⟨[], ⟨rfl, rfl, RingBuf.init_valid (by decide), rfl⟩, rfl⟩
  | @snoc es ev s s' before step ih =>
    obtain ⟨waiting, carries, whole⟩ := ih
    obtain ⟨mirrors, sent⟩ := run_mirrors before.unguarded
    obtain ⟨mirrors', sent'⟩ := step_mirrors mirrors step.2
    have same := carries.holds.unique mirrors.carries.holds
    have roomy : Outbox.Roomy room queueBufferSize
        (boxAfter st es) (s.calls st ev) := by
      refine ⟨mirrors.carries.holds.fillCnt_eq ▸ step.1, ?_⟩
      intro need msg mem
      rcases calls_puts _ mem with take | ⟨need', msg', eq, small⟩
      · cases take
      · obtain ⟨rfl, rfl⟩ := Outbox.Op.put.inj eq
        exact small
    have exact := Outbox.execAll_exact roomy
    refine ⟨_, mirrors'.carries, ?_⟩
    rw [observed_snoc before.unguarded, observed_snoc before.unguarded, ← whole, ← sent,
      ← sent', same]
    exact exact

/-- The queue has room in this session, and its publication waits. -/
theorem busySession_waits : ∃ s waiting,
    Run (Guarded (FitsStep .prise) fun s e s' => s.step .prise e = some s') mqttInit
      busySession s ∧
    Carries s.client waiting ∧
    (observed (Session.step .prise) (Session.sends .prise) mqttInit busySession).filterMap
        Sent.fromQueue ++ waiting =
      observed (Session.step .prise) (Session.built .prise) mqttInit busySession := by
  have runs : (busySession.foldlM
      (fun s e => if FitsStep .prise s e then s.step .prise e else none) mqttInit).isSome =
        true := by decide +kernel
  obtain ⟨s, run⟩ := Option.isSome_iff_exists.mp runs
  obtain ⟨waiting, carries, whole⟩ := sent_or_waiting (run_guarded_iff.mpr run)
  exact ⟨s, waiting, run_guarded_iff.mpr run, carries, whole⟩

end Domotic
