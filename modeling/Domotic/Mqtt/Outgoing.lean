import Domotic.Mqtt.Connected
import Domotic.Uart.Isolation

/-!
# The messages that wait to be sent

A builder that fails gives a message of length zero. `MQTT_Publish` and `MQTT_Ping` look at the
length before they queue the message; `MQTT_Subscribe` and `MQTT_UnSubscribe` do not, so a topic
that is empty or too long for the output buffer puts an empty message into the queue.
-/
namespace Domotic
open Library

/-- A control packet whose encoded length is the number of bytes behind its fixed header. -/
def WellFormed : List UInt8 → Prop
  | [] => False
  | header :: rest =>
    (1 ≤ mqttGetType header ∧ mqttGetType header ≤ 14) ∧
      ∃ n body, decodeLength 4 rest = some (n, body) ∧ body.length = n

/-! ## What the builders build -/

variable {c c' : Client} {r : MqttConnection} {topic : Option (List UInt8)}

theorem headerByte_type (type : MsgType) (dup qos retain : Int) :
    mqttGetType (headerByte type dup qos retain) = type.code := by
  have code : 1 ≤ type.code ∧ type.code ≤ 14 := by cases type <;> decide
  unfold mqttGetType headerByte
  rw [UInt8.toNat_ofNat']
  omega

theorem headerByte_qos (type : MsgType) (dup qos retain : Int) :
    mqttGetQos (headerByte type dup qos retain) = (qos % 4).toNat := by
  have code : 1 ≤ type.code ∧ type.code ≤ 14 := by cases type <;> decide
  unfold mqttGetQos headerByte
  rw [UInt8.toNat_ofNat']
  omega

/-- The length bytes that `fini_message` writes, one or two. -/
def lengthBytes (n : Nat) : List UInt8 :=
  if 127 < n then [UInt8.ofNat (128 + n % 128), UInt8.ofNat (n / 128)] else [UInt8.ofNat n]

theorem finiMessage_eq (type : MsgType) (dup qos retain : Int) (body : List UInt8) :
    finiMessage type dup qos retain body =
      headerByte type dup qos retain :: (lengthBytes body.length ++ body) := by
  unfold finiMessage lengthBytes
  split <;> rfl

/-- Both layouts encode the length. -/
theorem decode_lengthBytes {n : Nat} (short : n < 16384) :
    decodeLength 4 (lengthBytes n) = some (n, []) := by
  unfold lengthBytes
  split
  · have low : (UInt8.ofNat (128 + n % 128)).toNat = 128 + n % 128 := by
      rw [UInt8.toNat_ofNat']
      omega
    have high : (UInt8.ofNat (n / 128)).toNat = n / 128 := by
      rw [UInt8.toNat_ofNat']
      omega
    have value : (128 + n % 128) % 128 + 128 * (n / 128) = n := by omega
    simp only [decodeLength, low, high, show ¬ 128 + n % 128 < 128 by omega,
      show n / 128 < 128 by omega, ↓reduceIte, Option.map_some, value]
  · have byte : (UInt8.ofNat n).toNat = n := by
      rw [UInt8.toNat_ofNat']
      omega
    simp only [decodeLength, byte, show n < 128 by omega, ↓reduceIte]

theorem finiMessage_wellFormed (type : MsgType) (dup qos retain : Int) {body : List UInt8}
    (short : body.length < 16384) : WellFormed (finiMessage type dup qos retain body) := by
  have code : 1 ≤ type.code ∧ type.code ≤ 14 := by cases type <;> decide
  rw [finiMessage_eq]
  refine ⟨by rwa [headerByte_type], body.length, body, ?_, rfl⟩
  exact decodeLength_append (decode_lengthBytes short) body

theorem mqttMsgPublish_spec (buffer : r.bufferLength = mqttBufSize) (data : List UInt8)
    (qos retain : Int) :
    (mqttMsgPublish r topic data qos retain).1.bufferLength = mqttBufSize ∧
      ((mqttMsgPublish r topic data qos retain).2.length ≠ 0 →
        WellFormed (mqttMsgPublish r topic data qos retain).2) := by
  obtain ⟨kept, id, length, eq⟩ := mqttMsgPublish_eq buffer topic data qos retain
  refine ⟨kept, ?_⟩
  rw [eq]
  split
  · exact absurd rfl
  · rename_i inside
    refine fun _ => finiMessage_wellFormed _ _ _ _ ?_
    rw [not_or] at inside
    have short := inside.2
    unfold publishLength at short
    simp only [List.length_append, length, msbLsb, List.length_cons, List.length_nil]
    omega

/-- The acknowledgements always fit. -/
theorem mqttMsgAck_spec (buffer : r.bufferLength = mqttBufSize) (type : MsgType) (qos : Int)
    (id : UInt16) :
    (mqttMsgAck type qos r id).1.bufferLength = mqttBufSize ∧
      WellFormed (mqttMsgAck type qos r id).2 := by
  obtain ⟨kept, appended⟩ := appendMessageId_spec r [] id
  rw [buffer, if_neg (by decide)] at appended
  obtain ⟨body, length, eq⟩ := appended
  refine ⟨kept.trans buffer, ?_⟩
  unfold mqttMsgAck
  dsimp only
  rw [eq]
  exact finiMessage_wellFormed _ _ _ _ (by simp [length])

/-- A topic of at most `n` bytes that is not empty. -/
def TopicFits (n : Nat) (topic : Option (List UInt8)) : Prop :=
  ∃ t, topic = some t ∧ t ≠ [] ∧ t.length ≤ n

/-- The identifier and the topic of a subscription. -/
theorem appendTopic_spec (buffer : r.bufferLength = mqttBufSize) (t : List UInt8) :
    if 1273 < t.length then
      ((appendMessageId r [] 0).2.bind fun body => appendString r body t) = none
    else ∃ body, ((appendMessageId r [] 0).2.bind fun body => appendString r body t) = some body ∧
      body.length = t.length + 4 := by
  obtain ⟨-, appended⟩ := appendMessageId_spec r [] 0
  rw [buffer, if_neg (by decide)] at appended
  obtain ⟨id, length, eq⟩ := appended
  rw [eq, Option.bind_some, List.nil_append, appendString, buffer, length]
  unfold mqttBufSize maxFixedHeaderSize
  split
  · rw [if_pos (by omega)]
  · rw [if_neg (by omega)]
    refine ⟨_, rfl, ?_⟩
    simp only [List.length_append, length, msbLsb, List.length_cons, List.length_nil]
    omega

theorem mqttMsgSubscribe_spec (buffer : r.bufferLength = mqttBufSize) (qos : UInt8) :
    (mqttMsgSubscribe r topic qos).1.bufferLength = mqttBufSize ∧
      (TopicFits 1272 topic → WellFormed (mqttMsgSubscribe r topic qos).2) ∧
      (¬ TopicFits 1272 topic → (mqttMsgSubscribe r topic qos).2 = failMessage) := by
  have kept := (appendMessageId_spec r [] 0).1.trans buffer
  unfold mqttMsgSubscribe
  rcases topic with _ | t
  · exact ⟨buffer, nofun, fun _ => rfl⟩
  by_cases empty : t = []
  · subst empty
    exact ⟨buffer, nofun, fun _ => rfl⟩
  rw [if_neg (by simpa using empty)]
  dsimp only [Option.getD_some]
  have appended := appendTopic_spec buffer t
  split at appended
  · rename_i long
    rw [appended]
    refine ⟨kept, ?_, fun _ => rfl⟩
    rintro ⟨t', eq, -, fits⟩
    obtain rfl := Option.some.inj eq
    omega
  · obtain ⟨body, eq, length⟩ := appended
    rw [eq]
    dsimp only
    rw [buffer, length]
    unfold mqttBufSize maxFixedHeaderSize
    split
    · refine ⟨kept, ?_, fun _ => rfl⟩
      rintro ⟨t', eq, -, fits⟩
      obtain rfl := Option.some.inj eq
      omega
    · refine ⟨kept, fun _ => finiMessage_wellFormed _ _ _ _ ?_, fun no => ?_⟩
      · rw [List.length_append, length, List.length_singleton]
        omega
      · exact absurd ⟨t, rfl, empty, by omega⟩ no

theorem mqttMsgUnsubscribe_spec (buffer : r.bufferLength = mqttBufSize) :
    (mqttMsgUnsubscribe r topic).1.bufferLength = mqttBufSize ∧
      (TopicFits 1273 topic → WellFormed (mqttMsgUnsubscribe r topic).2) ∧
      (¬ TopicFits 1273 topic → (mqttMsgUnsubscribe r topic).2 = failMessage) := by
  have kept := (appendMessageId_spec r [] 0).1.trans buffer
  unfold mqttMsgUnsubscribe
  rcases topic with _ | t
  · exact ⟨buffer, nofun, fun _ => rfl⟩
  by_cases empty : t = []
  · subst empty
    exact ⟨buffer, nofun, fun _ => rfl⟩
  rw [if_neg (by simpa using empty)]
  dsimp only [Option.getD_some]
  have appended := appendTopic_spec buffer t
  split at appended
  · rw [appended]
    refine ⟨kept, ?_, fun _ => rfl⟩
    rintro ⟨t', eq, -, fits⟩
    obtain rfl := Option.some.inj eq
    omega
  · obtain ⟨body, eq, length⟩ := appended
    rw [eq]
    refine ⟨kept, fun _ => finiMessage_wellFormed _ _ _ _ (by omega), fun no => ?_⟩
    exact absurd ⟨t, rfl, empty, by omega⟩ no

/-! ## What the client carries -/

/-- The output buffer has its size, and the queue holds these messages. -/
structure Carries (c : Client) (msgs : List (List UInt8)) : Prop where
  buffer : c.connection.bufferLength = mqttBufSize
  size : c.msgQueue.size = queueBufferSize
  holds : Holds c.msgQueue msgs

/-- The client carries some of these messages, and new ones that are well-formed. -/
def Adds (msgs : List (List UInt8)) (c : Client) : Prop :=
  ∃ msgs', Carries c msgs' ∧ ∀ msg ∈ msgs', msg ∈ msgs ∨ WellFormed msg

variable {msgs msgs' : List (List UInt8)}

theorem Carries.adds (h : Carries c msgs') (sub : msgs' ⊆ msgs) : Adds msgs c :=
  ⟨msgs', h, fun _ mem => .inl (sub mem)⟩

/-- A client with the same queue carries the same messages. -/
theorem Carries.same (h : Carries c msgs) (buffer : c'.connection.bufferLength = mqttBufSize)
    (queue : c'.msgQueue = c.msgQueue) : Adds msgs c' :=
  ⟨msgs, ⟨buffer, queue ▸ h.size, queue ▸ h.holds⟩, fun _ => .inl⟩

theorem Adds.trans (h : Adds msgs c) (next : ∀ {msgs'}, Carries c msgs' → Adds msgs' c') :
    Adds msgs c' := by
  obtain ⟨msgs', carries, added⟩ := h
  obtain ⟨msgs'', carries', added'⟩ := next carries
  refine ⟨msgs'', carries', fun msg mem => ?_⟩
  rcases added' msg mem with before | good
  · exact added msg before
  · exact .inr good

/-- A call on the queue only adds the message that it puts. -/
theorem Carries.exec (h : Carries c msgs) {r : MqttConnection}
    (buffer : r.bufferLength = mqttBufSize) (op : QueueOp)
    (good : ∀ msg, op = .puts msg → WellFormed msg) :
    Adds msgs { c with connection := r, msgQueue := (op.exec c.msgQueue).1 } := by
  obtain ⟨holds, size, -⟩ := exec_holds h.holds (by rw [h.size]; decide) op
  refine ⟨_, ⟨buffer, size.trans h.size, holds⟩, fun msg mem => ?_⟩
  exact (mem_fifo mem).imp id (good msg)

theorem Carries.queue (h : Carries c msgs) (stack : Nat → UInt8) (msg : List UInt8) :
    (WellFormed msg → Adds msgs (c.queue stack msg).1) ∧
      (msg = failMessage → ∃ msgs', Carries (c.queue stack msg).1 msgs' ∧ failMessage ∈ msgs') := by
  have fuel : msgs.length < c.msgQueue.fillCnt + 1 := Nat.lt_succ_of_le h.holds.length_le
  obtain ⟨put, size⟩ := putsDropping_spec stack msg h.holds (by rw [h.size]; decide) fuel
  have size := size.trans h.size
  unfold Client.queue
  dsimp only
  constructor
  · intro good
    rcases put with ⟨-, -, holds⟩ | ⟨-, -, holds⟩
    · refine ⟨_, ⟨h.buffer, size, holds⟩, fun m mem => ?_⟩
      rcases List.mem_append.mp mem with old | new
      · exact .inl ((Outbox.kept_suffix _).subset old)
      · exact .inr (List.mem_singleton.mp new ▸ good)
    · exact ⟨[], ⟨h.buffer, size, holds⟩, nofun⟩
  · rintro rfl
    rcases put with ⟨-, -, holds⟩ | ⟨full, -⟩
    · exact ⟨_, ⟨h.buffer, size, holds⟩, by simp⟩
    · rw [h.size] at full
      exact absurd full (by decide)

theorem Carries.publish (h : Carries c msgs) (stack : Nat → UInt8) (data : List UInt8)
    (qos retain : Int) : Adds msgs (mqttPublish stack c topic data qos retain).1 := by
  obtain ⟨buffer, built⟩ := @mqttMsgPublish_spec c.connection topic h.buffer data qos retain
  unfold mqttPublish
  generalize mqttMsgPublish c.connection topic data qos retain = r at buffer built ⊢
  dsimp only
  split
  · exact h.same buffer rfl
  rename_i some
  have fuel : msgs.length < c.msgQueue.fillCnt + 1 := Nat.lt_succ_of_le h.holds.length_le
  obtain ⟨-, holds, size⟩ := dropUntilRoom_spec stack r.2.length h.holds fuel
  have kept : Carries { c with
      connection := r.1
      msgQueue := (dropUntilRoom stack r.2.length (c.msgQueue.fillCnt + 1) c.msgQueue).1 }
      (Outbox.kept room c.msgQueue.size (r.2.length + 2) msgs) := ⟨buffer, size.trans h.size, holds⟩
  have adds := kept.adds (Outbox.kept_suffix _).subset
  split
  · exact adds.trans fun carries => carries.exec buffer (.puts r.2) fun msg eq =>
      (QueueOp.puts.inj eq) ▸ built some
  · exact adds

theorem Carries.ping (h : Carries c msgs) (stack : Nat → UInt8) :
    Adds msgs (mqttPing stack c).1 := by
  unfold mqttPing
  split
  · exact h.adds (List.Subset.refl msgs)
  · exact (h.queue stack _).1 (finiMessage_wellFormed _ _ _ _ (by decide))

theorem Carries.subscribe (h : Carries c msgs) (stack : Nat → UInt8) (qos : UInt8) :
    (TopicFits 1272 topic → Adds msgs (mqttSubscribe stack c topic qos).1) ∧
      (¬ TopicFits 1272 topic →
        ∃ msgs', Carries (mqttSubscribe stack c topic qos).1 msgs' ∧ failMessage ∈ msgs') := by
  obtain ⟨buffer, built, failed⟩ := @mqttMsgSubscribe_spec c.connection topic h.buffer qos
  have carries :
      Carries { c with connection := (mqttMsgSubscribe c.connection topic qos).1 } msgs :=
    ⟨buffer, h.size, h.holds⟩
  obtain ⟨adds, fails⟩ := carries.queue stack (mqttMsgSubscribe c.connection topic qos).2
  exact ⟨fun fits => adds (built fits), fun not => fails (failed not)⟩

theorem Carries.unSubscribe (h : Carries c msgs) (stack : Nat → UInt8) :
    (TopicFits 1273 topic → Adds msgs (mqttUnSubscribe stack c topic).1) ∧
      (¬ TopicFits 1273 topic →
        ∃ msgs', Carries (mqttUnSubscribe stack c topic).1 msgs' ∧ failMessage ∈ msgs') := by
  obtain ⟨buffer, built, failed⟩ := @mqttMsgUnsubscribe_spec c.connection topic h.buffer
  have carries : Carries { c with connection := (mqttMsgUnsubscribe c.connection topic).1 } msgs :=
    ⟨buffer, h.size, h.holds⟩
  obtain ⟨adds, fails⟩ := carries.queue stack (mqttMsgUnsubscribe c.connection topic).2
  exact ⟨fun fits => adds (built fits), fun not => fails (failed not)⟩

/-! ## What a received packet adds -/

theorem Carries.respond (h : Carries c msgs) {m : MqttConnection × List UInt8}
    (buffer : m.1.bufferLength = mqttBufSize) (good : WellFormed m.2) :
    Adds msgs (c.respond m) :=
  h.exec buffer (.puts m.2) fun _ eq => (QueueOp.puts.inj eq) ▸ good

theorem Carries.ack (h : Carries c msgs) (type : MsgType) (qos : Int) (id : UInt16) :
    Adds msgs (c.respond (mqttMsgAck type qos c.connection id)) := by
  obtain ⟨buffer, good⟩ := mqttMsgAck_spec h.buffer type qos id
  exact h.respond buffer good

theorem Carries.recvPacket (h : Carries c msgs) (pdata : List UInt8) :
    Adds msgs (Domotic.recvPacket c pdata).1 := by
  have same := h.adds (List.Subset.refl msgs)
  unfold Domotic.recvPacket
  dsimp only
  split
  · split
    · exact h.ack .puback 0 _
    · split
      · exact h.ack .pubrec 0 _
      · exact same
  · split
    · exact h.ack .pubrel 1 _
    · split
      · exact h.ack .pubcomp 0 _
      · split
        · exact h.respond h.buffer (@finiMessage_wellFormed .pingresp 0 0 0 [] (by decide))
        · exact same

variable {t : Client × List UInt8} {st : Station} {s s' : Session} {ev : SessionEvent}
  {es : List SessionEvent}

theorem Carries.recvRound (h : Carries t.1 msgs) : Adds msgs (Domotic.recvRound t).state.1 := by
  obtain ⟨c, pdata⟩ := t
  have stored : Carries (c.store pdata) msgs := ⟨h.buffer, h.size, h.holds⟩
  have same := stored.adds (List.Subset.refl msgs)
  unfold Domotic.recvRound
  dsimp only
  split
  · split
    · split
      · unfold recvConnack
        split
        · exact same
        · split
          · exact stored.same h.buffer rfl
          · exact same
      · exact same
    · split
      · exact stored.recvPacket pdata
      · exact stored.recvPacket pdata
    · split
      · exact stored.recvPacket pdata
      · exact stored.recvPacket pdata
    · exact same
  · exact h.adds (List.Subset.refl msgs)

theorem Carries.recv {pdata : List UInt8} {effects : List RecvEffect} (h : Carries c msgs)
    (recv : mqttTcpclientRecv c pdata = some (c', effects)) : Adds msgs c' := by
  unfold mqttTcpclientRecv recvLoop at recv
  dsimp only at recv
  split at recv
  · cases recv
  obtain ⟨rfl, -⟩ := Prod.mk.inj (Option.some.inj recv)
  have start : Carries { c with keepAliveTick := 0 } msgs := ⟨h.buffer, h.size, h.holds⟩
  exact (@loop_safe _ _ Domotic.recvRound ({ c with keepAliveTick := 0 }, pdata) _
    (fun t => Adds msgs t.1) (fun _ => True)
    (fun t adds => ⟨adds.trans fun carries => carries.recvRound, fun _ _ => trivial⟩)
    (start.adds (List.Subset.refl msgs))).1

/-- The topic of the station fits, and so does its message. -/
theorem Carries.connectedCb (h : Carries s.client msgs) (stack : Nat → Nat → UInt8) :
    Adds msgs (mqttConnectedCb st stack s).client := by
  have fits : TopicFits 1272 (some st.topicLight) := by
    refine ⟨st.topicLight, rfl, List.cons_ne_nil _ _, ?_⟩
    have name := st.fits
    unfold maxLengthStationName at name
    simp only [Station.topicLight, List.length_append, List.length_cons, List.length_nil]
    omega
  unfold mqttConnectedCb
  dsimp only
  split
  · exact ((h.subscribe (stack 0) 0).1 fits).trans fun carries => carries.publish _ _ _ _
  · exact h.publish _ _ _ _

theorem Adds.effects (stack : Nat → Nat → UInt8) (effects : List RecvEffect)
    (adds : Adds msgs s.client) :
    Adds msgs (effects.foldl (recvEffect st stack) s).client := by
  induction effects generalizing s with
  | nil => exact adds
  | cons o effects ih =>
    cases o with
    | connectedCb => exact ih (adds.trans fun carries => carries.connectedCb stack)
    | dataCb d => exact ih adds
    | espconnDisconnect => exact ih adds

/-! ## What a step adds -/

/-- A call that the builder of its message does not refuse. -/
def GoodCall : SessionEvent → Prop
  | .subscribe _ topic _ => TopicFits 1272 topic
  | .unSubscribe _ topic => TopicFits 1273 topic
  | _ => True

theorem Carries.sendQueued (h : Carries c msgs) (stack : Nat → UInt8) :
    Adds msgs (Domotic.sendQueued stack c) := by
  unfold Domotic.sendQueued
  dsimp only
  split
  · exact h.adds (List.Subset.refl msgs)
  · have taken := h.exec h.buffer (.gets (stack 0) mqttBufSize) nofun
    obtain ⟨msgs', ⟨buffer, size, holds⟩, added⟩ := taken
    split
    · exact ⟨msgs', ⟨buffer, size, holds⟩, added⟩
    · exact ⟨msgs', ⟨buffer, size, holds⟩, added⟩

theorem Carries.task (h : Carries s.client msgs) (stack : Nat → UInt8) (sent : Bool) :
    Adds msgs (mqttTask stack sent s).client := by
  unfold mqttTask
  split
  · exact h.same h.buffer rfl
  · exact h.same h.buffer rfl
  · exact h.same h.buffer rfl
  · cases sent
    · exact h.same h.buffer rfl
    · exact h.same h.buffer rfl
  · exact h.sendQueued stack
  · exact h.same h.buffer rfl

theorem Carries.timer (h : Carries c msgs) : Adds msgs (mqttTimer c) := by
  unfold mqttTimer
  dsimp only
  split
  · split
    · exact h.same h.buffer rfl
    · exact h.same h.buffer rfl
  · split
    · split
      · exact h.same h.buffer rfl
      · exact h.same h.buffer rfl
    · exact h.same h.buffer rfl

/-- A step only adds well-formed messages, unless it is a call with a topic that is refused. -/
theorem step_adds (h : Carries s.client msgs) (step : s.step st ev = some s')
    (good : GoodCall ev) : Adds msgs s'.client := by
  cases ev with
  | tryConnect =>
    obtain ⟨-, eq⟩ := Option.ite_none_right_eq_some.mp step
    obtain rfl := Option.some.inj eq
    exact h.same h.buffer rfl
  | connectCb =>
    obtain ⟨-, eq⟩ := Option.ite_none_right_eq_some.mp step
    obtain rfl := Option.some.inj eq
    exact h.same rfl rfl
  | disconCb =>
    obtain ⟨-, eq⟩ := Option.ite_none_right_eq_some.mp step
    obtain rfl := Option.some.inj eq
    rw [disconCb_client]
    exact h.same h.buffer rfl
  | reconCb =>
    obtain ⟨-, eq⟩ := Option.ite_none_right_eq_some.mp step
    obtain rfl := Option.some.inj eq
    exact h.same h.buffer rfl
  | sentCb =>
    obtain ⟨-, eq⟩ := Option.ite_none_right_eq_some.mp step
    obtain rfl := Option.some.inj eq
    exact h.same h.buffer rfl
  | recv pdata stack =>
    obtain ⟨-, eq⟩ := Option.ite_none_right_eq_some.mp step
    obtain ⟨⟨c', effects⟩, recv, rfl⟩ := Option.map_eq_some_iff.mp eq
    exact Adds.effects stack effects (h.recv recv)
  | mqttTimer =>
    obtain ⟨-, eq⟩ := Option.ite_none_right_eq_some.mp step
    obtain rfl := Option.some.inj eq
    exact h.timer
  | task stack sent =>
    obtain rfl := Option.some.inj step
    exact h.task stack sent
  | publish stack topic data qos retain =>
    obtain rfl := Option.some.inj step
    exact h.publish stack data qos retain
  | subscribe stack topic qos =>
    obtain rfl := Option.some.inj step
    exact (h.subscribe stack qos).1 good
  | unSubscribe stack topic =>
    obtain rfl := Option.some.inj step
    exact (h.unSubscribe stack).1 good
  | ping stack =>
    obtain rfl := Option.some.inj step
    exact h.ping stack
  | onDisconnected =>
    obtain rfl := Option.some.inj step
    exact h.same h.buffer rfl
  | disconnect =>
    obtain rfl := Option.some.inj step
    exact h.same h.buffer rfl

/-- Such a call leaves an empty message in the queue. -/
theorem step_fails (h : Carries s.client msgs) (step : s.step st ev = some s')
    (bad : ¬ GoodCall ev) : ∃ msgs', Carries s'.client msgs' ∧ failMessage ∈ msgs' := by
  cases ev with
  | subscribe stack topic qos =>
    obtain rfl := Option.some.inj step
    exact (h.subscribe stack qos).2 bad
  | unSubscribe stack topic =>
    obtain rfl := Option.some.inj step
    exact (h.unSubscribe stack).2 bad
  | _ => exact absurd trivial bad

theorem run_carries (run : SessionRun st mqttInit es s) : ∃ msgs, Carries s.client msgs := by
  induction run with
  | nil => exact ⟨[], rfl, rfl, RingBuf.init_valid (by decide), rfl⟩
  | @snoc es ev s s' _ step ih =>
    obtain ⟨msgs, carries⟩ := ih
    by_cases good : GoodCall ev
    · obtain ⟨msgs', carries', -⟩ := step_adds carries step good
      exact ⟨msgs', carries'⟩
    · obtain ⟨msgs', carries', -⟩ := step_fails carries step good
      exact ⟨msgs', carries'⟩

/-! ## Only well-formed packets are queued -/

/-- The ring holds well-formed packets and nothing else. -/
def OnlyWellFormed (q : RingBuf) : Prop := ∃ msgs, Holds q msgs ∧ ∀ msg ∈ msgs, WellFormed msg

/-- A step from a client with well-formed packets keeps them so when its call is good. -/
theorem step_onlyWellFormed (h : Carries s.client msgs) (step : s.step st ev = some s')
    (before : OnlyWellFormed s.client.msgQueue) :
    OnlyWellFormed s'.client.msgQueue ↔ GoodCall ev := by
  constructor
  · rintro ⟨msgs', holds, good⟩
    by_contra bad
    obtain ⟨msgs'', carries, empty⟩ := step_fails h step bad
    rw [carries.holds.unique holds] at empty
    exact good _ empty
  · intro good
    obtain ⟨msgs', holds, all⟩ := before
    obtain ⟨msgs'', carries, added⟩ := step_adds h step good
    rw [h.holds.unique holds] at added
    exact ⟨msgs'', carries.holds, fun msg mem => (added msg mem).elim (all msg) id⟩

/-- In every state of a run the queue holds only well-formed packets exactly when no call of
`MQTT_Subscribe` or `MQTT_UnSubscribe` in the run has a topic that is empty or too long. -/
theorem onlyWellFormed_iff (run : SessionRun st mqttInit es s) :
    (∀ pre u, pre <+: es → SessionRun st mqttInit pre u → OnlyWellFormed u.client.msgQueue) ↔
      ∀ ev ∈ es, GoodCall ev := by
  induction run with
  | nil =>
    refine iff_of_true ?_ nofun
    intro pre u before run
    obtain rfl := List.prefix_nil.mp before
    obtain rfl := run.unique .nil
    exact ⟨[], ⟨RingBuf.init_valid (by decide), rfl⟩, nofun⟩
  | @snoc es ev s s' before step ih =>
    obtain ⟨msgs, carries⟩ := run_carries before
    rw [Run.forall_states_snoc (P := fun _ (u : Session) => OnlyWellFormed u.client.msgQueue)
      (before.snoc step), List.forall_mem_append, ← ih]
    refine and_congr_right fun states => ?_
    rw [step_onlyWellFormed carries step (states es s List.prefix_rfl before)]
    simp

/-- The first session queues well-formed packets. -/
theorem first_session_wellFormed : ∃ s, SessionRun .prise mqttInit firstSession s ∧
    ∀ pre u, pre <+: firstSession → SessionRun .prise mqttInit pre u →
      OnlyWellFormed u.client.msgQueue := by
  obtain ⟨s, run, -⟩ := firstSession_runs
  refine ⟨s, run, (onlyWellFormed_iff run).mpr ?_⟩
  simp [firstSession, GoodCall]

/-- An empty line subscribes to the empty topic. -/
theorem empty_line_subscribes (b : Build) {u : RxUart} {c : UInt8}
    (editing : u.state = .configTopic) (start : u.pointeur = 0) (newline : isNewline c = true) :
    .mqttSubscribe [] ∈ (rxUart0 b u c).effects := by
  have empty : cString (u.topic.toList.set 0 0) = [] := by
    cases list : u.topic.toList with
    | nil => simpa [list] using u.topic.length_toList
    | cons => rfl
  simp [rxUart0, rxState, editing, rxConfigTopic, newline, endLine, RxUart.put, start, empty]

/-- The line `t` and its end, typed after boot, leave an empty message in the queue. -/
theorem empty_topic_queued :
    .mqttSubscribe [] ∈ (rxUart0 .prise (rxBytes .prise (.boot .blank) [116]) 10).effects ∧
      ∃ u, SessionRun .prise mqttInit [.subscribe (fun _ => 0) (some []) 0] u ∧
        ¬ OnlyWellFormed u.client.msgQueue := by
  have typed : RxEffect.mqttSubscribe [] ∈
      (rxUart0 .prise (rxBytes .prise (.boot .blank) [116]) 10).effects :=
    empty_line_subscribes .prise rfl rfl rfl
  have step : mqttInit.step .prise (.subscribe (fun _ => 0) (some []) 0) =
      some { mqttInit with client := (mqttSubscribe (fun _ => 0) Client.init (some []) 0).1 } := rfl
  refine ⟨typed, _, Run.single step, ?_⟩
  rintro ⟨msgs, holds, good⟩
  obtain ⟨before, carries⟩ := @run_carries .prise mqttInit [] .nil
  obtain ⟨after, carries', empty⟩ := step_fails carries step (by
    rintro ⟨topic, eq, some, -⟩
    exact some (Option.some.inj eq).symm)
  rw [carries'.holds.unique holds] at empty
  exact good _ empty

end Domotic
