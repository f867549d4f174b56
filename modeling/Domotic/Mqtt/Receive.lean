import Domotic.Library.Loop
import Domotic.Mqtt.Client

/-!
# Receiving a segment

`mqtt_tcpclient_recv` handles the packet at the front of a TCP segment. Only behind a
`PUBLISH` does it look for another one: it jumps back to `READPACKET` with what is left of the
segment. The length of the packet is a number that the peer wrote, cut to sixteen bits, so a
jump need not shorten the segment.
-/
namespace Domotic
open Library

/-! ## The code -/

/-- The arguments that `deliver_publish` passes to `dataCb`. The two pointers are offsets into
`in_buffer`, or `NULL`. -/
structure Delivery where
  inBuffer : Nat → UInt8
  topic : Option Nat
  topicLength : Nat
  data : Option Nat
  dataLength : Nat

/-- What the client calls while it handles a segment. -/
inductive RecvEffect where
  | dataCb (d : Delivery)
  | connectedCb
  | espconnDisconnect

/-- `deliver_publish` -/
def deliverPublish (inBuffer : Nat → UInt8) (message : List UInt8) : Delivery where
  inBuffer := inBuffer
  topic := (mqttGetPublishTopic message).1
  topicLength := (mqttGetPublishTopic message).2
  data := (mqttGetPublishData message).1
  dataLength := (mqttGetPublishData message).2

namespace Client

/-- `os_memcpy(in_buffer, pdata, len)` -/
def store (c : Client) (pdata : List UInt8) : Client :=
  { c with inBuffer := fun i => if i < pdata.length then pdata.getD i 0 else c.inBuffer i }

/-- Queue a response; when the queue is full it is lost. -/
def respond (c : Client) (r : MqttConnection × List UInt8) : Client :=
  { c with connection := r.1, msgQueue := (queuePuts c.msgQueue r.2).1 }

/-- The states in which packets are exchanged. -/
def Established (c : Client) : Prop :=
  c.connState = .mqttData ∨ c.connState = .mqttKeepaliveSend

end Client

/-- `mqtt_get_type` of the packet at the front. -/
def packetType (pdata : List UInt8) : Nat := mqttGetType (pdata.getD 0 0)

/-- The field `message_length`, of sixteen bits. -/
def messageLength (pdata : List UInt8) : Nat := (mqttGetTotalLength pdata % 65536).toNat

/-- A `CONNACK` in state `MQTT_CONNECT_SENDING`. -/
def recvConnack (c : Client) : Client × List RecvEffect :=
  if c.pendingMsgType ≠ MsgType.connect.code then (c, [.espconnDisconnect])
  else if c.inBuffer 3 = 0 then
    ({ c with connState := .mqttData }, if c.callbacks then [.connectedCb] else [])
  else (c, [.espconnDisconnect])

/-- The switch over the packet type in the states `MQTT_DATA` and `MQTT_KEEPALIVE_SEND`. -/
def recvPacket (c : Client) (pdata : List UInt8) : Client × List RecvEffect :=
  let type := packetType pdata
  let qos := mqttGetQos (pdata.getD 0 0)
  let msgId := mqttGetId c.inBuffer mqttBufSize
  if type = MsgType.publish.code then
    let c :=
      if qos = 1 then c.respond (mqttMsgPuback c.connection msgId)
      else if qos = 2 then c.respond (mqttMsgPubrec c.connection msgId)
      else c
    (c, if c.callbacks then [.dataCb (deliverPublish c.inBuffer pdata)] else [])
  else if type = MsgType.pubrec.code then (c.respond (mqttMsgPubrel c.connection msgId), [])
  else if type = MsgType.pubrel.code then (c.respond (mqttMsgPubcomp c.connection msgId), [])
  else if type = MsgType.pingreq.code then (c.respond (c.connection, mqttMsgPingresp), [])
  else (c, [])

/-- From `READPACKET` to the jump back or to the end. -/
def recvRound : Client × List UInt8 → Round (Client × List UInt8) RecvEffect
  | (c, pdata) =>
    if pdata.length < mqttBufSize ∧ 0 < pdata.length then
      let c := c.store pdata
      match c.connState with
      | .mqttConnectSending =>
        if packetType pdata = MsgType.connack.code then
          let r := recvConnack c
          ⟨(r.1, pdata), r.2, false⟩
        else ⟨(c, pdata), [], false⟩
      | .mqttData | .mqttKeepaliveSend =>
        let r := recvPacket c pdata
        if packetType pdata = MsgType.publish.code ∧ messageLength pdata < pdata.length then
          ⟨(r.1, pdata.drop (messageLength pdata)), r.2, true⟩
        else ⟨(r.1, pdata), r.2, false⟩
      | _ => ⟨(c, pdata), [], false⟩
    else ⟨(c, pdata), [], false⟩

/-- At most `n` rounds of `mqtt_tcpclient_recv`. -/
def recvLoop (c : Client) (pdata : List UInt8) (n : Nat) :
    Round (Client × List UInt8) RecvEffect :=
  loop recvRound n ({ c with keepAliveTick := 0 }, pdata)

/-- `mqtt_tcpclient_recv`, unless its loop does not return. -/
def mqttTcpclientRecv (c : Client) (pdata : List UInt8) : Option (Client × List RecvEffect) :=
  let r := recvLoop c pdata (pdata.length + 1)
  if r.again then none else some (r.state.1, r.out)

/-! ## One round -/

/-- The segment is handled as packets of an established session. -/
structure Receiving (s : Client × List UInt8) : Prop where
  established : s.1.Established
  short : s.2.length < mqttBufSize
  nonempty : 0 < s.2.length

/-- The jump back to `READPACKET`: the segment in front of it and behind it. -/
def Jump (pdata rest : List UInt8) : Prop :=
  packetType pdata = MsgType.publish.code ∧ messageLength pdata < pdata.length ∧
    rest = pdata.drop (messageLength pdata)

variable {c : Client} {pdata rest : List UInt8} {s t : Client × List UInt8}

@[simp] theorem Client.respond_callbacks (r : MqttConnection × List UInt8) :
    (c.respond r).callbacks = c.callbacks := rfl
@[simp] theorem Client.respond_inBuffer (r : MqttConnection × List UInt8) :
    (c.respond r).inBuffer = c.inBuffer := rfl

/-- A packet changes neither the state of the connection nor the callbacks. -/
theorem recvPacket_keeps :
    (recvPacket c pdata).1.connState = c.connState ∧
      (recvPacket c pdata).1.callbacks = c.callbacks := by
  unfold recvPacket
  dsimp only
  split_ifs <;> exact ⟨rfl, rfl⟩

/-- Only a `PUBLISH` calls the application. -/
theorem recvPacket_out :
    (recvPacket c pdata).2 =
      if packetType pdata = MsgType.publish.code ∧ c.callbacks = true then
        [.dataCb (deliverPublish c.inBuffer pdata)]
      else [] := by
  unfold recvPacket
  dsimp only
  by_cases publish : packetType pdata = MsgType.publish.code
  · rw [if_pos publish]
    split_ifs <;> simp_all
  · have other : ¬ (packetType pdata = MsgType.publish.code ∧ c.callbacks = true) :=
      fun both => publish both.1
    rw [if_neg publish, if_neg other]
    split_ifs <;> rfl

/-- What a round does in an established session. -/
theorem recvRound_eq (h : Receiving s) :
    recvRound s =
      if packetType s.2 = MsgType.publish.code ∧ messageLength s.2 < s.2.length then
        ⟨((recvPacket (s.1.store s.2) s.2).1, s.2.drop (messageLength s.2)),
          (recvPacket (s.1.store s.2) s.2).2, true⟩
      else ⟨((recvPacket (s.1.store s.2) s.2).1, s.2),
        (recvPacket (s.1.store s.2) s.2).2, false⟩ := by
  obtain ⟨c, pdata⟩ := s
  obtain ⟨established, short, nonempty⟩ := h
  have length : pdata.length < mqttBufSize ∧ 0 < pdata.length := ⟨short, nonempty⟩
  unfold recvRound
  rcases established with data | keepalive
  · have state : (c.store pdata).connState = .mqttData := data
    simp only [length, and_self, ↓reduceIte, state]
  · have state : (c.store pdata).connState = .mqttKeepaliveSend := keepalive
    simp only [length, and_self, ↓reduceIte, state]

theorem recvRound_out (h : Receiving s) :
    (recvRound s).out = (recvPacket (s.1.store s.2) s.2).2 := by
  rw [recvRound_eq h]
  split <;> rfl

/-- The loop goes on with a jump. -/
theorem recvRound_goesOn (h : Receiving s) :
    GoesOn recvRound s t ↔ Jump s.2 t.2 ∧ t.1 = (recvPacket (s.1.store s.2) s.2).1 := by
  obtain ⟨c', rest⟩ := t
  unfold GoesOn Jump
  rw [recvRound_eq h]
  split
  · rename_i jump
    simp only [Prod.mk.injEq, jump, true_and]
    exact ⟨fun eq => ⟨eq.2.symm, eq.1.symm⟩, fun eq => ⟨eq.2.symm, eq.1.symm⟩⟩
  · rename_i last
    constructor
    · rintro ⟨again, -⟩
      cases again
    · rintro ⟨⟨publish, inside, -⟩, -⟩
      exact absurd ⟨publish, inside⟩ last

/-- A jump stays in the segment and in the session. -/
theorem Receiving.goesOn (h : Receiving s) (step : GoesOn recvRound s t) : Receiving t := by
  obtain ⟨⟨-, inside, rest⟩, client⟩ := (recvRound_goesOn h).mp step
  have state := (@recvPacket_keeps (s.1.store s.2) s.2).1
  have short := h.short
  refine ⟨?_, ?_, ?_⟩
  · unfold Client.Established
    rw [client, state]
    exact h.established
  · rw [rest, List.length_drop]
    omega
  · rw [rest, List.length_drop]
    omega

theorem Receiving.reached (h : Receiving s) (reached : Reached recvRound s t) : Receiving t := by
  induction reached with
  | refl => exact h
  | tail _ step ih => exact ih.goesOn step

theorem Receiving.callbacks_reached (h : Receiving s) (reached : Reached recvRound s t) :
    t.1.callbacks = s.1.callbacks := by
  induction reached with
  | refl => rfl
  | @tail u _ before step ih =>
    rw [((recvRound_goesOn (h.reached before)).mp step).2]
    exact recvPacket_keeps.2.trans ih

/-- The segments that the loop comes to are those that the jumps lead to. -/
theorem reached_iff (h : Receiving s) :
    (∃ c', Reached recvRound s (c', rest)) ↔ Relation.ReflTransGen Jump s.2 rest := by
  constructor
  · rintro ⟨c', reached⟩
    induction reached using Relation.ReflTransGen.head_induction_on with
    | refl => exact .refl
    | head step _ ih => exact .head ((recvRound_goesOn h).mp step).1 (ih (h.goesOn step))
  · intro jumps
    generalize start : s.2 = pdata at jumps
    induction jumps using Relation.ReflTransGen.head_induction_on generalizing s with
    | refl => exact ⟨s.1, start ▸ .refl⟩
    | @head _ next jump _ ih =>
      subst start
      have step : GoesOn recvRound s ((recvPacket (s.1.store s.2) s.2).1, next) :=
        (recvRound_goesOn h).mpr ⟨jump, rfl⟩
      obtain ⟨c', reached⟩ := ih (h.goesOn step) rfl
      exact ⟨c', .head step reached⟩

/-! ## When the loop returns -/

/-- A packet that the code takes for a `PUBLISH` of zero bytes. -/
def EmptyPublish (pdata : List UInt8) : Prop :=
  packetType pdata = MsgType.publish.code ∧ messageLength pdata = 0

/-- A segment outside of an established session, or of a forbidden length, is left at once. -/
theorem recvRound_once (h : ¬ Receiving (c, pdata)) : (recvRound (c, pdata)).again = false := by
  unfold recvRound
  dsimp only
  split
  · rename_i length
    have other : ¬ c.Established := fun established => h ⟨established, length.1, length.2⟩
    unfold Client.Established at other
    rw [not_or] at other
    split
    · split <;> rfl
    · rename_i data
      exact absurd data other.1
    · rename_i keepalive
      exact absurd keepalive other.2
    · rfl
  · rfl

/-- Behind a `PUBLISH` of zero bytes the loop finds the same segment again. -/
theorem recv_forever (h : Receiving s) (jumps : Relation.ReflTransGen Jump s.2 pdata)
    (empty : EmptyPublish pdata) (n : Nat) : (loop recvRound n s).again = true := by
  obtain ⟨c', reached⟩ := (reached_iff h).mpr jumps
  refine @loop_forever _ _ _ _ _ (fun t => Receiving t ∧ EmptyPublish t.2) ?_ _ reached
    ⟨h.reached reached, empty⟩
  rintro t ⟨receiving, publish, zero⟩
  have jump : Jump t.2 t.2 := ⟨publish, zero ▸ receiving.nonempty, by rw [zero]; rfl⟩
  have step : GoesOn recvRound t ((recvPacket (t.1.store t.2) t.2).1, t.2) :=
    (recvRound_goesOn receiving).mpr ⟨jump, rfl⟩
  obtain ⟨more, next⟩ := step
  refine ⟨more, receiving.goesOn ⟨more, rfl⟩, ?_⟩
  rw [next]
  exact ⟨publish, zero⟩

/-- Without such a packet every jump shortens the segment. -/
theorem recv_returns (nonempty : ∀ seg, Relation.ReflTransGen Jump s.2 seg → ¬ EmptyPublish seg)
    {n : Nat} (enough : s.2.length < n) : (loop recvRound n s).again = false := by
  by_cases h : Receiving s
  · refine loop_returns (fun t => t.2.length) ?_ enough
    intro t u reached step
    have receiving := h.reached reached
    obtain ⟨publish, inside, rest⟩ := ((recvRound_goesOn receiving).mp step).1
    have jumps := (reached_iff h).mp ⟨t.1, reached⟩
    have positive : messageLength t.2 ≠ 0 := fun zero => nonempty t.2 jumps ⟨publish, zero⟩
    rw [rest, List.length_drop]
    omega
  · obtain ⟨n, rfl⟩ := Nat.exists_eq_succ_of_ne_zero (Nat.ne_zero_of_lt enough)
    have last := recvRound_once h
    rw [loop_last last]
    exact last

/-- If the loop returns, then within as many rounds as the segment has bytes and one more. -/
theorem mqttTcpclientRecv_isSome_iff :
    (mqttTcpclientRecv c pdata).isSome = true ↔ ∃ n, (recvLoop c pdata n).again = false := by
  have result : (mqttTcpclientRecv c pdata).isSome = true ↔
      (recvLoop c pdata (pdata.length + 1)).again = false := by
    unfold mqttTcpclientRecv
    dsimp only
    split <;> simp_all
  rw [result]
  refine ⟨fun returned => ⟨_, returned⟩, ?_⟩
  rintro ⟨n, returned⟩
  by_cases receiving : Receiving ({ c with keepAliveTick := 0 }, pdata)
  · refine recv_returns (fun seg jumps empty => ?_) (Nat.lt_succ_self pdata.length)
    have forever := recv_forever receiving jumps empty n
    exact Bool.false_ne_true (returned.symm.trans forever)
  · have last := recvRound_once receiving
    exact (congrArg Round.again (loop_last last)).trans last

/-- A jump starts from a nonempty segment. -/
theorem Jump.pos (jump : Jump pdata rest) : 0 < pdata.length := Nat.zero_lt_of_lt jump.2.1

/-- No jump starts from the empty segment, which is itself no `PUBLISH`. -/
theorem EmptyPublish.pos {seg : List UInt8} (empty : EmptyPublish seg)
    (jumps : Relation.ReflTransGen Jump pdata seg) : 0 < pdata.length := by
  cases jumps.cases_head with
  | inl same =>
    subst same
    cases pdata with
    | nil => exact absurd empty.1 (by decide)
    | cons => exact Nat.succ_pos _
  | inr next =>
    obtain ⟨_, jump, -⟩ := next
    exact jump.pos

/-- The loop of `mqtt_tcpclient_recv` comes to an end unless, in an established session, it is
led to a `PUBLISH` whose length is a multiple of 65536. -/
theorem recvLoop_returns_iff (c : Client) (pdata : List UInt8) :
    (∃ n, (recvLoop c pdata n).again = false) ↔
      ¬ c.Established ∨ mqttBufSize ≤ pdata.length ∨
        ∀ seg, Relation.ReflTransGen Jump pdata seg → ¬ EmptyPublish seg := by
  constructor
  · rintro ⟨n, returned⟩
    by_contra hne
    push Not at hne
    obtain ⟨established, short, seg, jumps, empty⟩ := hne
    have receiving : Receiving ({ c with keepAliveTick := 0 }, pdata) :=
      ⟨established, short, empty.pos jumps⟩
    have forever := recv_forever receiving jumps empty n
    rw [recvLoop, forever] at returned
    cases returned
  · intro h
    by_cases receiving : Receiving ({ c with keepAliveTick := 0 }, pdata)
    · rcases h with other | long | nonempty
      · exact absurd receiving.established other
      · exact absurd receiving.short (Nat.not_lt_of_le long)
      · exact ⟨pdata.length + 1, recv_returns nonempty (Nat.lt_succ_self _)⟩
    · have last := recvRound_once receiving
      exact ⟨1, (congrArg Round.again (loop_last last)).trans last⟩

/-- A `PUBLISH` header with the length 65532, whose total is 65536. -/
theorem recvLoop_never_returns :
    ¬ ∃ n, (recvLoop { Client.init with connState := .mqttData }
      [0x30, 0xFC, 0xFF, 0x03] n).again = false := by
  rintro ⟨n, returned⟩
  have receiving : Receiving ({ Client.init with connState := .mqttData, keepAliveTick := 0 },
      [0x30, 0xFC, 0xFF, 0x03]) := ⟨.inl rfl, by decide, by decide⟩
  have forever := recv_forever receiving .refl ⟨by decide, by decide⟩ n
  exact Bool.false_ne_true (returned.symm.trans forever)

end Domotic
