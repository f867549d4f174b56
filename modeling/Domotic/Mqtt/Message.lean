import Domotic.Config
import Domotic.Library.Varint
import Domotic.Library.Word

/-!
# MQTT messages

`mqtt_msg.c`. A builder writes the body of a message behind three free bytes of the output
buffer and then the fixed header into two or all three of them; it signals a failure with a
message of length zero. The functions that take a message apart work on the received bytes.
-/
namespace Domotic
open Library

/-- `mqtt_message_type` -/
inductive MsgType where
  | connect | connack | publish | puback | pubrec | pubrel | pubcomp
  | subscribe | suback | unsubscribe | unsuback | pingreq | pingresp | disconnect
  deriving DecidableEq, Repr

namespace MsgType

def code : MsgType → Nat
  | .connect => 1 | .connack => 2 | .publish => 3 | .puback => 4 | .pubrec => 5
  | .pubrel => 6 | .pubcomp => 7 | .subscribe => 8 | .suback => 9 | .unsubscribe => 10
  | .unsuback => 11 | .pingreq => 12 | .pingresp => 13 | .disconnect => 14

end MsgType

/-- `mqtt_connection_t`: the last identifier given out and the size of the output buffer. -/
structure MqttConnection where
  messageId : UInt16
  bufferLength : Nat
  deriving DecidableEq, Repr

/-- `MQTT_MAX_FIXED_HEADER_SIZE` -/
def maxFixedHeaderSize : Nat := 3

/-! ## Builders

The body is what stands in the buffer behind the fixed header, so that `message.length` is
`maxFixedHeaderSize` more than its length. A C string is the list of its bytes. -/

/-- Two bytes, the high one first. -/
def msbLsb (n : Nat) : List UInt8 := [UInt8.ofNat (n / 256), UInt8.ofNat n]

/-- `append_string` -/
def appendString (c : MqttConnection) (body string : List UInt8) : Option (List UInt8) :=
  if c.bufferLength < maxFixedHeaderSize + body.length + string.length + 2 then none
  else some (body ++ msbLsb string.length ++ string)

/-- The loop of `append_message_id`, whose second round ends it: zero is passed over. -/
def MqttConnection.nextId (c : MqttConnection) : UInt16 :=
  if c.messageId + 1 = 0 then 1 else c.messageId + 1

/-- `append_message_id` -/
def appendMessageId (c : MqttConnection) (body : List UInt8) (messageId : UInt16) :
    MqttConnection × Option (List UInt8) :=
  let id := if messageId = 0 then c.nextId else messageId
  let c := if messageId = 0 then { c with messageId := c.nextId } else c
  if c.bufferLength < maxFixedHeaderSize + body.length + 2 then (c, none)
  else (c, some (body ++ msbLsb id.toNat))

/-- The first byte of the fixed header. -/
def headerByte (type : MsgType) (dup qos retain : Int) : UInt8 :=
  UInt8.ofNat (type.code % 16 * 16 + (dup % 2).toNat * 8 + (qos % 4).toNat * 2 + (retain % 2).toNat)

/-- `fini_message`: the bytes of the message. -/
def finiMessage (type : MsgType) (dup qos retain : Int) (body : List UInt8) : List UInt8 :=
  if 127 < body.length then
    [headerByte type dup qos retain, UInt8.ofNat (128 + body.length % 128),
      UInt8.ofNat (body.length / 128)] ++ body
  else [headerByte type dup qos retain, UInt8.ofNat body.length] ++ body

/-- `fail_message` -/
def failMessage : List UInt8 := []

/-- The message of a body, or the failure. -/
def finish (type : MsgType) (qos retain : Int) : Option (List UInt8) → List UInt8
  | none => failMessage
  | some body => finiMessage type 0 qos retain body

/-- `mqtt_msg_publish` -/
def mqttMsgPublish (c : MqttConnection) (topic : Option (List UInt8)) (data : List UInt8)
    (qos retain : Int) : MqttConnection × List UInt8 :=
  if topic = none ∨ topic = some [] then (c, failMessage)
  else
    match appendString c [] (topic.getD []) with
    | none => (c, failMessage)
    | some body =>
      let r := if 0 < qos then appendMessageId c body 0 else (c, some body)
      match r.2 with
      | none => (r.1, failMessage)
      | some body =>
        if c.bufferLength < maxFixedHeaderSize + body.length + data.length then (r.1, failMessage)
        else (r.1, finiMessage .publish 0 qos retain (body ++ data))

/-- The builders of a message with an identifier only. -/
def mqttMsgAck (type : MsgType) (qos : Int) (c : MqttConnection) (messageId : UInt16) :
    MqttConnection × List UInt8 :=
  let r := appendMessageId c [] messageId
  (r.1, finish type qos 0 r.2)

/-- `mqtt_msg_puback` -/
def mqttMsgPuback := mqttMsgAck .puback 0
/-- `mqtt_msg_pubrec` -/
def mqttMsgPubrec := mqttMsgAck .pubrec 0
/-- `mqtt_msg_pubrel` -/
def mqttMsgPubrel := mqttMsgAck .pubrel 1
/-- `mqtt_msg_pubcomp` -/
def mqttMsgPubcomp := mqttMsgAck .pubcomp 0

/-- `mqtt_msg_subscribe` -/
def mqttMsgSubscribe (c : MqttConnection) (topic : Option (List UInt8)) (qos : UInt8) :
    MqttConnection × List UInt8 :=
  if topic = none ∨ topic = some [] then (c, failMessage)
  else
    let r := appendMessageId c [] 0
    match r.2.bind fun body => appendString c body (topic.getD []) with
    | none => (r.1, failMessage)
    | some body =>
      if c.bufferLength < maxFixedHeaderSize + body.length + 1 then (r.1, failMessage)
      else (r.1, finiMessage .subscribe 0 1 0 (body ++ [qos]))

/-- `mqtt_msg_unsubscribe` -/
def mqttMsgUnsubscribe (c : MqttConnection) (topic : Option (List UInt8)) :
    MqttConnection × List UInt8 :=
  if topic = none ∨ topic = some [] then (c, failMessage)
  else
    let r := appendMessageId c [] 0
    (r.1, finish .unsubscribe 1 0 (r.2.bind fun body => appendString c body (topic.getD [])))

/-- `mqtt_msg_pingreq` -/
def mqttMsgPingreq : List UInt8 := finiMessage .pingreq 0 0 0 []
/-- `mqtt_msg_pingresp` -/
def mqttMsgPingresp : List UInt8 := finiMessage .pingresp 0 0 0 []

/-! ## What is built -/

theorem finiMessage_length (type : MsgType) (dup qos retain : Int) (body : List UInt8) :
    (finiMessage type dup qos retain body).length =
      if 127 < body.length then body.length + 3 else body.length + 2 := by
  unfold finiMessage
  split
  · simp only [List.length_append, List.length_cons, List.length_nil]
    omega
  · simp only [List.length_append, List.length_cons, List.length_nil]
    omega

theorem appendMessageId_spec (r : MqttConnection) (body : List UInt8) (id : UInt16) :
    (appendMessageId r body id).1.bufferLength = r.bufferLength ∧
      if r.bufferLength < maxFixedHeaderSize + body.length + 2 then
        (appendMessageId r body id).2 = none
      else ∃ b, b.length = 2 ∧ (appendMessageId r body id).2 = some (body ++ b) := by
  unfold appendMessageId
  dsimp only
  have buffer : (if id = 0 then { r with messageId := r.nextId } else r).bufferLength =
      r.bufferLength := by split <;> rfl
  rw [buffer]
  split
  · exact ⟨buffer, rfl⟩
  · exact ⟨buffer, _, rfl, rfl⟩

/-- The bytes of a publication behind its fixed header. -/
def publishLength (topic : Option (List UInt8)) (data : List UInt8) (qos : Int) : Nat :=
  2 + (topic.getD []).length + (if 0 < qos then 2 else 0) + data.length

/-- The identifier of an acknowledged publication is appended if there is room for it. -/
theorem publishId_spec {r : MqttConnection} (buffer : r.bufferLength = mqttBufSize)
    (body : List UInt8) (qos : Int) :
    let s := if 0 < qos then appendMessageId r body 0 else (r, some body)
    s.1.bufferLength = mqttBufSize ∧
      (s.2 = none ∧ 1277 < body.length + (if 0 < qos then 2 else 0) ∨
        ∃ id : List UInt8, id.length = (if 0 < qos then 2 else 0) ∧ s.2 = some (body ++ id)) := by
  by_cases acknowledged : 0 < qos
  · obtain ⟨kept, appended⟩ := appendMessageId_spec r body 0
    rw [buffer] at appended
    simp only [if_pos acknowledged]
    refine ⟨kept.trans buffer, ?_⟩
    unfold mqttBufSize maxFixedHeaderSize at appended
    split at appended
    · exact .inl ⟨appended, by omega⟩
    · exact .inr appended
  · simp only [if_neg acknowledged]
    exact ⟨buffer, .inr ⟨[], rfl, by simp⟩⟩

/-- A publication holds its topic, an identifier if it is acknowledged, and its data; none is
built without a topic or when it is longer than the output buffer. -/
theorem mqttMsgPublish_eq {r : MqttConnection} (buffer : r.bufferLength = mqttBufSize)
    (topic : Option (List UInt8)) (data : List UInt8) (qos retain : Int) :
    (mqttMsgPublish r topic data qos retain).1.bufferLength = mqttBufSize ∧
      ∃ id, id.length = (if 0 < qos then 2 else 0) ∧
        (mqttMsgPublish r topic data qos retain).2 =
          if topic.getD [] = [] ∨ 1277 < publishLength topic data qos then failMessage
          else finiMessage .publish 0 qos retain
            (msbLsb (topic.getD []).length ++ topic.getD [] ++ id ++ data) := by
  have some : ∃ id : List UInt8, id.length = if 0 < qos then 2 else 0 :=
    ⟨List.replicate (if 0 < qos then 2 else 0) 0, List.length_replicate⟩
  obtain ⟨id, length⟩ := some
  unfold mqttMsgPublish publishLength
  rcases topic with _ | t
  · exact ⟨buffer, id, length, rfl⟩
  by_cases empty : t = []
  · subst empty
    exact ⟨buffer, id, length, rfl⟩
  simp only [reduceCtorEq, Option.some.injEq, empty, or_self, Option.getD_some, false_or,
    ↓reduceIte]
  rw [appendString, buffer]
  unfold mqttBufSize maxFixedHeaderSize
  rw [List.length_nil]
  by_cases long : 1280 < 3 + 0 + t.length + 2
  · rw [if_pos long]
    exact ⟨buffer, id, length, by rw [if_pos (by omega)]⟩
  rw [if_neg long]
  have head : (msbLsb t.length ++ t).length = t.length + 2 := by
    simp only [msbLsb, List.length_append, List.length_cons, List.length_nil]
    omega
  have stored := publishId_spec buffer (msbLsb t.length ++ t) qos
  rw [List.nil_append]
  dsimp only at stored ⊢
  generalize (if 0 < qos then appendMessageId r (msbLsb t.length ++ t) 0
    else (r, some (msbLsb t.length ++ t))) = s at stored ⊢
  rw [head] at stored
  obtain ⟨size, ⟨full, large⟩ | ⟨id, length, eq⟩⟩ := stored
  · rw [full]
    exact ⟨size, id, length, by rw [if_pos (by omega)]⟩
  · rw [eq]
    have total : (msbLsb t.length ++ t ++ id).length =
        t.length + 2 + (if 0 < qos then 2 else 0) := by
      rw [List.length_append, head, length]
    dsimp only
    rw [total]
    generalize (if 0 < qos then 2 else 0) = n at length
    by_cases large : 1280 < 3 + (t.length + 2 + n) + data.length
    · rw [if_pos large]
      exact ⟨size, id, length, by rw [if_pos (by omega)]⟩
    · rw [if_neg large]
      exact ⟨size, id, length, by rw [if_neg (by omega)]⟩

/-! ## The `CONNECT` message -/

/-- `mqtt_connect_info_t`; a pointer that is `NULL` is `none`. A topic for the will comes with a
message. -/
structure ConnectInfo where
  clientId : Option (List UInt8)
  username : Option (List UInt8)
  password : Option (List UInt8)
  willTopic : Option (List UInt8)
  willMessage : List UInt8
  keepalive : Nat
  willQos : Int
  willRetain : Int
  cleanSession : Int

/-- `MQIsdp` -/
def protocolName : List UInt8 := [77, 81, 73, 115, 100, 112]

/-- `mqtt_connect_variable_header` -/
def connectHeader (flags : UInt8) (keepalive : Nat) : List UInt8 :=
  [0, 6] ++ protocolName ++ [3, flags] ++ msbLsb keepalive

/-- `variable_header->flags |= bits` -/
def flag (body : List UInt8) (bits : UInt8) : List UInt8 := body.modify 9 (· ||| bits)

/-- A string that is neither `NULL` nor empty. -/
def given : Option (List UInt8) → Option (List UInt8)
  | none | some [] => none
  | some s => some s

/-- The will, if it has a topic. -/
def appendWill (c : MqttConnection) (info : ConnectInfo) (body : List UInt8) :
    Option (List UInt8) :=
  match given info.willTopic with
  | none => some body
  | some topic =>
    (appendString c body topic).bind fun body =>
      (appendString c body info.willMessage).map fun body =>
        let body := flag body 4
        let body := if info.willRetain ≠ 0 then flag body 32 else body
        flag body (UInt8.ofNat ((info.willQos % 4).toNat * 8))

/-- The user name and the password. -/
def appendGiven (c : MqttConnection) (string : Option (List UInt8)) (bits : UInt8)
    (body : List UInt8) : Option (List UInt8) :=
  match given string with
  | none => some body
  | some s => (appendString c body s).map fun body => flag body bits

/-- `mqtt_msg_connect`, up to the fixed header. -/
def connectBody (c : MqttConnection) (info : ConnectInfo) : Option (List UInt8) :=
  if c.bufferLength < maxFixedHeaderSize + 12 then none
  else
    let header := flag (connectHeader 0 info.keepalive) (if info.cleanSession ≠ 0 then 2 else 0)
    match given info.clientId with
    | none => none
    | some id =>
      (((appendString c header id).bind (appendWill c info)).bind
        (appendGiven c info.username 128)).bind (appendGiven c info.password 64)

/-- `mqtt_msg_connect` -/
def mqttMsgConnect (c : MqttConnection) (info : ConnectInfo) : List UInt8 :=
  finish .connect 0 0 (connectBody c info)

/-! ## Taking a message apart -/

/-- `mqtt_get_type`: the code in the upper four bits. -/
def mqttGetType (b : UInt8) : Nat := b.toNat / 16

/-- `mqtt_get_qos` -/
def mqttGetQos (b : UInt8) : Nat := b.toNat / 2 % 4

/-- `x << n`; the shift instruction uses the low five bits of the amount. -/
def shiftLeft (x n : Nat) : Int := int32 ↑(x * 2 ^ (n % 32))

/-- The loop over the length bytes, from index `i` on: `totlen` and `i` behind it. -/
def lengthLoop : List UInt8 → Nat → Int → Int × Nat
  | [], i, totlen => (totlen, i)
  | b :: bs, i, totlen =>
    let totlen := int32 (totlen + shiftLeft (b.toNat % 128) (7 * (i - 1)))
    if b.toNat < 128 then (totlen, i + 1) else lengthLoop bs (i + 1) totlen

/-- The loop on a message: the remaining length, and the index behind the fixed header. -/
def fixedHeader (buffer : List UInt8) : Int × Nat := lengthLoop (buffer.drop 1) 1 0

/-- `mqtt_get_total_length` -/
def mqttGetTotalLength (buffer : List UInt8) : Int :=
  let (totlen, i) := fixedHeader buffer
  int32 (totlen + i)

/-- The length in front of the topic. -/
def topicLength (buffer : List UInt8) (i : Nat) : Nat :=
  (buffer.getD i 0).toNat * 256 + (buffer.getD (i + 1) 0).toNat

/-- `mqtt_get_publish_topic`: the offset of the topic, unless it is `NULL`, and `*length`. -/
def mqttGetPublishTopic (buffer : List UInt8) : Option Nat × Nat :=
  let (_, i) := fixedHeader buffer
  if buffer.length ≤ i + 2 then (none, buffer.length)
  else if buffer.length < i + 2 + topicLength buffer i then (none, buffer.length)
  else (some (i + 2), topicLength buffer i)

/-- `mqtt_get_publish_data`: the offset of the payload, unless it is `NULL`, and `*length`. -/
def mqttGetPublishData (buffer : List UInt8) : Option Nat × Nat :=
  let (totlen, i) := fixedHeader buffer
  let totlen := int32 (totlen + i)
  if buffer.length ≤ i + 2 then (none, 0)
  else
    let topiclen := topicLength buffer i
    if buffer.length ≤ i + 2 + topiclen then (none, 0)
    else
      let i := i + 2 + topiclen
      if 0 < mqttGetQos (buffer.getD 0 0) ∧ buffer.length ≤ i + 2 then (none, 0)
      else
        let i := if 0 < mqttGetQos (buffer.getD 0 0) then i + 2 else i
        if totlen < i then (none, 0)
        else if totlen ≤ buffer.length then (some i, (totlen - i).toNat)
        else (some i, buffer.length - i)

/-- The loop of `mqtt_get_id` over the length bytes, with `n` bytes left in the buffer. -/
def idLoop (buffer : Nat → UInt8) : Nat → Nat → Nat
  | 0, i => i
  | n + 1, i => if (buffer i).toNat < 128 then i + 1 else idLoop buffer n (i + 1)

/-- `mqtt_get_id`, on the whole input buffer. -/
def mqttGetId (buffer : Nat → UInt8) (length : Nat) : UInt16 :=
  let word (i : Nat) : UInt16 := (buffer i).toUInt16 * 256 + (buffer (i + 1)).toUInt16
  let type := mqttGetType (buffer 0)
  if length < 1 then 0
  else if type = MsgType.publish.code then
    let i := idLoop buffer (length - 1) 1
    if length ≤ i + 2 then 0
    else
      let topiclen := (buffer i).toNat * 256 + (buffer (i + 1)).toNat
      let i := i + 2 + topiclen
      if length ≤ i then 0
      else if mqttGetQos (buffer 0) = 0 then 0
      else if length ≤ i + 2 then 0
      else word i
  else if type ∈ [MsgType.puback.code, MsgType.pubrec.code, MsgType.pubrel.code,
      MsgType.pubcomp.code, MsgType.suback.code, MsgType.unsuback.code,
      MsgType.subscribe.code] then
    if 4 ≤ length ∧ (buffer 1).toNat < 128 then word 2 else 0
  else 0

end Domotic
