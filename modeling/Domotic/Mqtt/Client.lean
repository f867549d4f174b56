import Domotic.Library.Outbox
import Domotic.Mqtt.Message
import Domotic.Mqtt.Queue

/-!
# The MQTT client

The variables of `MQTT_Client` that decide what it does, and the functions that queue a
message. A queue that is too full gives up its oldest messages, one at a time; the parser that
takes them out finds an arbitrary byte on its `stack` each time.
-/
namespace Domotic
open Library

/-- `tConnState` -/
inductive ConnState where
  | wifiInit | wifiConnecting | wifiConnectingError | wifiConnected | dnsResolve
  | tcpDisconnecting | tcpDisconnected | tcpReconnectDisconnecting | tcpReconnectReq
  | tcpReconnect | tcpConnecting | tcpConnectingError | tcpConnected
  | mqttConnectSend | mqttConnectSending | mqttSubscibeSend | mqttSubscibeSending
  | mqttData | mqttKeepaliveSend | mqttPublishRecv | mqttPublishing
  | mqttDeleting | mqttDeleted
  deriving DecidableEq, Repr

/-- `MQTT_Client` -/
structure Client where
  /-- `pCon` is not `NULL`. -/
  pCon : Bool
  connState : ConnState
  connection : MqttConnection
  pendingMsgType : Nat
  /-- `in_buffer`, which keeps the bytes of earlier segments behind the current one. -/
  inBuffer : Nat → UInt8
  msgQueue : RingBuf
  /-- The callbacks are installed. -/
  callbacks : Bool
  /-- `mqttTimer` is armed. -/
  mqttTimer : Bool
  keepAliveTick : Nat
  reconnectTick : Nat
  sendTimeout : Nat

/-- The client after `mqttInit`. -/
def Client.init : Client where
  pCon := false
  connState := .wifiInit
  connection := ⟨0, mqttBufSize⟩
  pendingMsgType := 0
  inBuffer _ := 0
  msgQueue := queueInit queueBufferSize
  callbacks := true
  mqttTimer := false
  keepAliveTick := 0
  reconnectTick := 0
  sendTimeout := 0

/-- The loop of `MQTT_Publish`, on a ring with at most `n - 1` messages: drop messages until
`length + 2` bytes are free. -/
def dropUntilRoom (stack : Nat → UInt8) (length : Nat) : Nat → RingBuf → RingBuf × Bool
  | 0, q => (q, false)
  | n + 1, q =>
    if (q.size : Int) - q.fillCnt < length + 2 then
      let g := queueGets (stack n) mqttBufSize q
      if g.2 = none then (g.1, false) else dropUntilRoom stack length n g.1
    else (q, true)

/-- The loop of the other functions: drop messages until the new one is put. -/
def putsDropping (stack : Nat → UInt8) (msg : List UInt8) : Nat → RingBuf → RingBuf × Bool
  | 0, q => (q, false)
  | n + 1, q =>
    let r := queuePuts q msg
    if r.2 = -1 then
      let g := queueGets (stack n) mqttBufSize r.1
      if g.2 = none then (g.1, false) else putsDropping stack msg n g.1
    else (r.1, true)

section queuing
variable (stack : Nat → UInt8) (c : Client)

/-- `MQTT_Publish`. The room that the loop makes is for the message without its escapes, and
the result of `QUEUE_Puts` is not looked at. -/
def mqttPublish (topic : Option (List UInt8)) (data : List UInt8) (qos retain : Int) :
    Client × Bool :=
  let r := mqttMsgPublish c.connection topic data qos retain
  let c := { c with connection := r.1 }
  if r.2.length = 0 then (c, false)
  else
    let d := dropUntilRoom stack r.2.length (c.msgQueue.fillCnt + 1) c.msgQueue
    if d.2 then ({ c with msgQueue := (queuePuts d.1 r.2).1 }, true)
    else ({ c with msgQueue := d.1 }, false)

/-- Queue a message that was built. -/
def Client.queue (msg : List UInt8) : Client × Bool :=
  let r := putsDropping stack msg (c.msgQueue.fillCnt + 1) c.msgQueue
  ({ c with msgQueue := r.1 }, r.2)

/-- `MQTT_Subscribe`, which does not look at the length of the message. -/
def mqttSubscribe (topic : Option (List UInt8)) (qos : UInt8) : Client × Bool :=
  let r := mqttMsgSubscribe c.connection topic qos
  { c with connection := r.1 }.queue stack r.2

/-- `MQTT_UnSubscribe`, likewise. -/
def mqttUnSubscribe (topic : Option (List UInt8)) : Client × Bool :=
  let r := mqttMsgUnsubscribe c.connection topic
  { c with connection := r.1 }.queue stack r.2

/-- `MQTT_Ping` -/
def mqttPing : Client × Bool :=
  if mqttMsgPingreq.length = 0 then (c, false) else c.queue stack mqttMsgPingreq

end queuing

/-! ## What the loops leave in the queue -/

variable {q : RingBuf} {msgs : List (List UInt8)}

/-- Dropping ends with the messages kept; it fails when the empty ring is too small. -/
theorem dropUntilRoom_spec (stack : Nat → UInt8) {n : Nat} (length : Nat) (h : Holds q msgs)
    (fuel : msgs.length < n) :
    ((dropUntilRoom stack length n q).2 = true ↔ length + 2 ≤ q.size) ∧
      Holds (dropUntilRoom stack length n q).1 (Outbox.kept room q.size (length + 2) msgs) ∧
      (dropUntilRoom stack length n q).1.size = q.size := by
  induction n generalizing q msgs with
  | zero => omega
  | succ n ih =>
    have used := h.fillCnt_eq
    have filled := h.valid.fillCnt_le
    cases msgs with
    | nil =>
      have empty : q.fillCnt = 0 := used
      by_cases low : q.size < length + 2
      · obtain ⟨ret, holds, size⟩ := h.gets_nil (stack n) mqttBufSize
        have test : (q.size : Int) - q.fillCnt < length + 2 := by omega
        simp only [dropUntilRoom, test, ↓reduceIte, ret]
        exact ⟨by simpa using low, holds, size⟩
      · have test : ¬ (q.size : Int) - q.fillCnt < length + 2 := by omega
        simp only [dropUntilRoom, test, ↓reduceIte]
        exact ⟨by simpa using low, h, trivial⟩
    | cons msg msgs =>
      by_cases low : q.size - ((msg :: msgs).map room).sum < length + 2
      · obtain ⟨ret, holds, size⟩ := h.gets (stack n) mqttBufSize
        have test : (q.size : Int) - q.fillCnt < length + 2 := by omega
        obtain ⟨done, holds', size'⟩ := ih holds (by simpa using fuel)
        rw [size] at done holds' size'
        simp only [dropUntilRoom, test, ↓reduceIte, ret, Outbox.kept, low, reduceCtorEq]
        exact ⟨done, holds', size'⟩
      · have test : ¬ (q.size : Int) - q.fillCnt < length + 2 := by omega
        simp only [dropUntilRoom, test, ↓reduceIte, Outbox.kept, low]
        exact ⟨by simp; omega, h, trivial⟩

/-- Putting a message drops the fewest old ones, and fails when it never fits. -/
theorem putsDropping_spec (stack : Nat → UInt8) {n : Nat} (msg : List UInt8) (h : Holds q msgs)
    (small : q.size ≤ 32767) (fuel : msgs.length < n) :
    (room msg ≤ q.size ∧ (putsDropping stack msg n q).2 = true ∧
        Holds (putsDropping stack msg n q).1 (Outbox.kept room q.size (room msg) msgs ++ [msg]) ∨
      q.size < room msg ∧ (putsDropping stack msg n q).2 = false ∧
        Holds (putsDropping stack msg n q).1 []) ∧
      (putsDropping stack msg n q).1.size = q.size := by
  induction n generalizing q msgs with
  | zero => omega
  | succ n ih =>
    have used := h.fillCnt_eq
    have filled := h.valid.fillCnt_le
    by_cases fits : q.fillCnt + room msg ≤ q.size
    · obtain ⟨ret, holds, size⟩ := h.puts small fits
      have put : ((room msg : Nat) : Int) ≠ -1 := by omega
      have all : Outbox.kept room q.size (room msg) msgs = msgs :=
        Outbox.kept_of_room (by omega)
      simp only [putsDropping, ret, put, ↓reduceIte, all]
      exact ⟨.inl ⟨by omega, trivial, holds⟩, size⟩
    · obtain ⟨ret, holds, size⟩ := h.puts_full (Nat.lt_of_not_le fits)
      simp only [putsDropping, ret, ↓reduceIte]
      cases msgs with
      | nil =>
        have empty : q.fillCnt = 0 := used
        obtain ⟨none, holds', size'⟩ := holds.gets_nil (stack n) mqttBufSize
        simp only [none, ↓reduceIte]
        exact ⟨.inr ⟨by omega, trivial, holds'⟩, size'.trans size⟩
      | cons first msgs =>
        have low : q.size - ((first :: msgs).map room).sum < room msg := by
          unfold room at *
          omega
        obtain ⟨taken, holds', size'⟩ := holds.gets (stack n) mqttBufSize
        have rest := ih holds' ((size'.trans size) ▸ small) (by simpa using fuel)
        rw [size', size] at rest
        simp only [taken, reduceCtorEq, ↓reduceIte, Outbox.kept, low]
        exact rest

end Domotic
