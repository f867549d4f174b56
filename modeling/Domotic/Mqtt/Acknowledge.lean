import Domotic.Mqtt.Ledger
import Domotic.Mqtt.Segment

/-!
# The responses to a segment

A `PUBLISH` of level one is answered by a `PUBACK` and one of level two by a `PUBREC`; a `PUBREC`
is answered by a `PUBREL`, a `PUBREL` by a `PUBCOMP` and a `PINGREQ` by a `PINGRESP`. The answer
repeats the identifier, which `mqtt_get_id` looks for in the whole input buffer.
-/
namespace Domotic
open Library

/-- The packets that `mqtt_tcpclient_recv` comes to: those behind a `PUBLISH`, and the first. -/
def handled : List Packet → List Packet
  | [] => []
  | p :: ps => p :: if p.publication.isSome then handled ps else []

namespace Packet

/-- The answer that the protocol asks for. -/
def answer (p : Packet) : Option (List UInt8) :=
  match p.body with
  | .publish _ id _ =>
    if mqttGetQos p.header = 1 then some ([0x40, 2] ++ id)
    else if mqttGetQos p.header = 2 then some ([0x50, 2] ++ id)
    else none
  | .other bytes =>
    if mqttGetType p.header = MsgType.pubrec.code then some ([0x62, 2] ++ bytes)
    else if mqttGetType p.header = MsgType.pubrel.code then some ([0x70, 2] ++ bytes)
    else if mqttGetType p.header = MsgType.pingreq.code then some [0xD0, 0]
    else none

/-- The identifier of a packet that is answered is not zero, and nothing else stands beside the
one of a `PUBREC` or a `PUBREL`. -/
def Numbered (p : Packet) : Prop :=
  match p.body with
  | .publish _ id _ => id ≠ [0, 0]
  | .other bytes =>
    mqttGetType p.header = MsgType.pubrec.code ∨ mqttGetType p.header = MsgType.pubrel.code →
      p.size = [2] ∧ bytes ≠ [0, 0]

instance (p : Packet) : Decidable p.Numbered := by
  unfold Numbered
  cases p.body with
  | publish topic id payload => exact inferInstanceAs (Decidable (_ ≠ _))
  | other bytes => exact inferInstanceAs (Decidable (_ → _))

end Packet

variable {p : Packet} {tail topic id payload : List UInt8} {c : Client} {r : MqttConnection}
  {buffer : Nat → UInt8}

/-! ## The identifier -/

/-- The loop over the length bytes stops behind the last of them. -/
theorem idLoop_decode {k m n i : Nat} {bs rest : List UInt8}
    (h : decodeLength k bs = some (n, rest))
    (stored : ∀ j < bs.length, buffer (i + j) = bs.getD j 0) (enough : k ≤ m) :
    idLoop buffer m i = i + (bs.length - rest.length) := by
  induction k generalizing bs n i m with
  | zero => cases h
  | succ k ih =>
    obtain ⟨m, rfl⟩ := Nat.exists_eq_succ_of_ne_zero (show m ≠ 0 by omega)
    cases bs with
    | nil => cases h
    | cons b bs =>
      have first : buffer i = b := stored 0 (Nat.succ_pos _)
      unfold decodeLength at h
      unfold idLoop
      rw [first, List.length_cons]
      split at h
      · rename_i last
        obtain ⟨-, rfl⟩ := Prod.mk.inj (Option.some.inj h)
        rw [if_pos last]
        omega
      · rename_i more
        obtain ⟨r, back, eq⟩ := Option.map_eq_some_iff.mp h
        obtain ⟨-, rfl⟩ := Prod.mk.inj eq
        have shorter := (decodeLength_length back).1
        have next : ∀ j < bs.length, buffer (i + 1 + j) = bs.getD j 0 := by
          intro j inside
          rw [Nat.add_assoc, Nat.add_comm 1 j, stored (j + 1) (Nat.succ_lt_succ inside)]
          rfl
        rw [if_neg more, ih back next (by omega)]
        omega

theorem msbLsb_word (high low : UInt8) :
    msbLsb (high.toUInt16 * 256 + low.toUInt16).toNat = [high, low] := by
  have value : (high.toUInt16 * 256 + low.toUInt16).toNat = high.toNat * 256 + low.toNat := by
    have := high.toNat_lt
    have := low.toNat_lt
    simp only [UInt16.toNat_add, UInt16.toNat_mul, UInt8.toNat_toUInt16, UInt16.reduceToNat]
    omega
  have first : UInt8.ofNat ((high.toNat * 256 + low.toNat) / 256) = high := by
    apply UInt8.toNat_inj.mp
    have := high.toNat_lt
    have := low.toNat_lt
    rw [UInt8.toNat_ofNat']
    omega
  have second : UInt8.ofNat (high.toNat * 256 + low.toNat) = low := by
    apply UInt8.toNat_inj.mp
    have := low.toNat_lt
    rw [UInt8.toNat_ofNat']
    omega
  rw [value, msbLsb, first, second]

theorem word_ne_zero {high low : UInt8} (h : [high, low] ≠ [0, 0]) :
    high.toUInt16 * 256 + low.toUInt16 ≠ 0 := by
  intro zero
  have bytes := msbLsb_word high low
  rw [zero] at bytes
  exact h bytes.symm

/-- An acknowledgement repeats an identifier that is not zero. -/
theorem mqttMsgAck_eq (length : r.bufferLength = mqttBufSize) (type : MsgType) (qos : Int)
    {high low : UInt8} (h : [high, low] ≠ [0, 0]) :
    (mqttMsgAck type qos r (high.toUInt16 * 256 + low.toUInt16)).2 =
      [headerByte type 0 qos 0, 2, high, low] := by
  have given := word_ne_zero h
  unfold mqttMsgAck appendMessageId
  simp only [if_neg given, length]
  rw [if_neg (by decide), msbLsb_word]
  rfl

/-- The buffer starts with these bytes. -/
def StartsWith (buffer : Nat → UInt8) (bytes : List UInt8) : Prop :=
  ∀ i < bytes.length, buffer i = bytes.getD i 0

theorem StartsWith.part {front middle rest : List UInt8}
    (h : StartsWith buffer (front ++ (middle ++ rest))) :
    ∀ j < middle.length, buffer (front.length + j) = middle.getD j 0 := by
  intro j inside
  rw [h _ (by simp only [List.length_append]; omega)]
  simp [List.getElem?_append_right, List.getElem?_append_left inside]

/-- The identifier of a `PUBLISH` at the front of the input buffer. -/
theorem mqttGetId_publish {high low : UInt8} (body : p.body = .publish topic [high, low] payload)
    (short : p.bytes.length < mqttBufSize) (starts : StartsWith buffer p.bytes) :
    mqttGetId buffer mqttBufSize = high.toUInt16 * 256 + low.toUInt16 := by
  have fits := p.fits
  have encoded := p.encoded
  rw [body] at fits encoded
  obtain ⟨type, -, -, topicSmall, idLength⟩ := fits
  have acknowledged : 0 < mqttGetQos p.header := by
    by_contra none
    rw [if_neg none] at idLength
    cases idLength
  have bytes : p.bytes = [p.header] ++ (p.size ++ (msbLsb topic.length ++ (topic ++
      ([high, low] ++ payload)))) := by simp [Packet.bytes, body, Body.bytes]
  have length : p.bytes.length = 1 + p.size.length + 2 + topic.length + 2 + payload.length := by
    rw [bytes]
    simp only [msbLsb, List.length_append, List.length_cons, List.length_nil]
    omega
  rw [length] at short
  rw [bytes] at starts
  have header : buffer 0 = p.header := starts 0 (by simp)
  have sizeLength := (decodeLength_length encoded).2
  -- the three parts of the packet that the function looks at
  have size : idLoop buffer (mqttBufSize - 1) 1 = 1 + p.size.length := by
    have loop := @idLoop_decode buffer 4 (mqttBufSize - 1) _ 1 _ _ encoded starts.part (by decide)
    simpa using loop
  have lengthPart := @StartsWith.part buffer ([p.header] ++ p.size) (msbLsb topic.length)
    (topic ++ ([high, low] ++ payload)) (by simpa using starts)
  have idPart := @StartsWith.part buffer ([p.header] ++ p.size ++ msbLsb topic.length ++ topic)
    [high, low] payload (by simpa using starts)
  have frontLength : ([p.header] ++ p.size).length = 1 + p.size.length := by simp [Nat.add_comm]
  have idFront : ([p.header] ++ p.size ++ msbLsb topic.length ++ topic).length =
      1 + p.size.length + 2 + topic.length := by
    simp only [msbLsb, List.length_append, List.length_cons, List.length_nil]
  rw [frontLength] at lengthPart
  rw [idFront] at idPart
  have topicHigh : buffer (1 + p.size.length) = UInt8.ofNat (topic.length / 256) :=
    lengthPart 0 (by simp [msbLsb])
  have topicLow : buffer (1 + p.size.length + 1) = UInt8.ofNat topic.length :=
    lengthPart 1 (by simp [msbLsb])
  have field : (buffer (1 + p.size.length)).toNat * 256 +
      (buffer (1 + p.size.length + 1)).toNat = topic.length := by
    rw [topicHigh, topicLow, UInt8.toNat_ofNat', UInt8.toNat_ofNat']
    omega
  have idHigh : buffer (1 + p.size.length + 2 + topic.length) = high := idPart 0 (by simp)
  have idLow : buffer (1 + p.size.length + 2 + topic.length + 1) = low := idPart 1 (by simp)
  unfold mqttGetId
  dsimp only
  rw [size, header, if_neg (by decide), if_pos type, field, if_neg (by omega), if_neg (by omega),
    if_neg (by omega), if_neg (by omega), idHigh, idLow]

/-- The identifier of a `PUBREC` or a `PUBREL`. -/
theorem mqttGetId_other {high low : UInt8} (body : p.body = .other [high, low])
    (size : p.size = [2]) (type : mqttGetType p.header = MsgType.pubrec.code ∨
      mqttGetType p.header = MsgType.pubrel.code) (starts : StartsWith buffer p.bytes) :
    mqttGetId buffer mqttBufSize = high.toUInt16 * 256 + low.toUInt16 := by
  have bytes : p.bytes = [p.header, 2, high, low] := by
    simp [Packet.bytes, body, Body.bytes, size]
  rw [bytes] at starts
  have header : buffer 0 = p.header := starts 0 (by simp)
  have length : buffer 1 = 2 := starts 1 (by simp)
  have idHigh : buffer 2 = high := starts 2 (by simp)
  have idLow : buffer 3 = low := starts 3 (by simp)
  unfold mqttGetId
  dsimp only
  rw [header, length, idHigh, idLow]
  rcases type with pubrec | pubrel
  · rw [pubrec]
    rfl
  · rw [pubrel]
    rfl

/-! ## The answer to a packet -/

/-- The code answers a packet as the protocol asks for. -/
theorem reply_eq (length : c.connection.bufferLength = mqttBufSize)
    (short : p.bytes.length < mqttBufSize) (numbered : p.Numbered) :
    reply (c.store (p.bytes ++ tail)) (p.bytes ++ tail) = p.answer.toList := by
  have starts : StartsWith (c.store (p.bytes ++ tail)).inBuffer p.bytes := by
    intro i inside
    have whole : i < (p.bytes ++ tail).length := by
      rw [List.length_append]
      omega
    refine (if_pos whole).trans ?_
    simp [List.getElem?_append_left inside]
  have type : packetType (p.bytes ++ tail) = mqttGetType p.header := rfl
  have qos : mqttGetQos ((p.bytes ++ tail).getD 0 0) = mqttGetQos p.header := rfl
  have length : (c.store (p.bytes ++ tail)).connection.bufferLength = mqttBufSize := length
  have fits := p.fits
  unfold Packet.Numbered at numbered
  unfold reply Packet.answer
  dsimp only
  rw [type, qos]
  cases body : p.body with
  | publish topic id payload =>
    rw [body] at fits numbered
    dsimp only at numbered ⊢
    obtain ⟨publish, -, -, -, idLength⟩ := fits
    rw [if_pos publish]
    by_cases acknowledged : 0 < mqttGetQos p.header
    · rw [if_pos acknowledged] at idLength
      obtain ⟨high, low, rfl⟩ := List.length_eq_two.mp idLength
      have id := mqttGetId_publish body short starts
      rw [id]
      split
      · exact congrArg (fun x => [x]) (mqttMsgAck_eq length .puback 0 numbered)
      · split
        · exact congrArg (fun x => [x]) (mqttMsgAck_eq length .pubrec 0 numbered)
        · rfl
    · rw [if_neg (by omega), if_neg (by omega), if_neg (by omega), if_neg (by omega)]
      rfl
  | other bytes =>
    rw [body] at fits numbered
    dsimp only at numbered ⊢
    rw [if_neg fits]
    have encoded := p.encoded
    rw [body] at encoded
    have id : mqttGetType p.header = MsgType.pubrec.code ∨
        mqttGetType p.header = MsgType.pubrel.code →
        ∃ high low, bytes = [high, low] ∧ [high, low] ≠ [0, 0] ∧
          mqttGetId (c.store (p.bytes ++ tail)).inBuffer mqttBufSize =
            high.toUInt16 * 256 + low.toUInt16 := by
      intro answered
      obtain ⟨size, given⟩ := numbered answered
      rw [size] at encoded
      have two : bytes.length = 2 := (congrArg Prod.fst (Option.some.inj encoded)).symm
      obtain ⟨high, low, rfl⟩ := List.length_eq_two.mp two
      exact ⟨high, low, rfl, given, mqttGetId_other body size answered starts⟩
    split
    · rename_i pubrec
      obtain ⟨high, low, rfl, given, eq⟩ := id (.inl pubrec)
      rw [eq]
      exact congrArg (fun x => [x]) (mqttMsgAck_eq length .pubrel 1 given)
    · split
      · rename_i pubrel
        obtain ⟨high, low, rfl, given, eq⟩ := id (.inr pubrel)
        rw [eq]
        exact congrArg (fun x => [x]) (mqttMsgAck_eq length .pubcomp 0 given)
      · split
        · rfl
        · rfl

/-! ## The answers to a segment -/

variable {ps : List Packet} {st : Station} {s : Session} {es : List SessionEvent}
  {waiting : List (List UInt8)}

theorem recvPacket_buffer (length : c.connection.bufferLength = mqttBufSize)
    {pdata : List UInt8} : (recvPacket c pdata).1.connection.bufferLength = mqttBufSize := by
  have ack := fun type qos id => (mqttMsgAck_spec length type qos id).1
  unfold recvPacket
  dsimp only
  split
  · split
    · exact ack .puback 0 _
    · split
      · exact ack .pubrec 0 _
      · exact length
  · split
    · exact ack .pubrel 1 _
    · split
      · exact ack .pubcomp 0 _
      · split
        · exact length
        · exact length

theorem answers_cons : (p :: ps).filterMap Packet.answer =
    p.answer.toList ++ ps.filterMap Packet.answer := by
  cases answer : p.answer with
  | none => simp [answer]
  | some msg => simp [answer]

/-- The responses to a segment are the answers to the packets that are handled, in order. -/
theorem replies_segment (length : c.connection.bufferLength = mqttBufSize)
    (established : c.Established) (short : (segment ps).length < mqttBufSize)
    (numbered : ∀ p ∈ handled ps, p.Numbered) {n : Nat} (enough : ps.length < n) :
    replies n (c, segment ps) = (handled ps).filterMap Packet.answer := by
  induction ps generalizing c n with
  | nil =>
    obtain ⟨n, rfl⟩ := Nat.exists_eq_succ_of_ne_zero (Nat.ne_zero_of_lt enough)
    have round : recvRound (c, []) = ⟨(c, []), [], false⟩ := by simp [recvRound]
    simp [replies, roundReply, round, handled]
  | cons p ps ih =>
    obtain ⟨n, rfl⟩ := Nat.exists_eq_succ_of_ne_zero (Nat.ne_zero_of_lt enough)
    rw [segment_cons] at short ⊢
    have both := @List.length_append _ p.bytes (segment ps)
    have packet : p.bytes.length < mqttBufSize := by omega
    obtain ⟨first, rest⟩ := List.forall_mem_cons.mp numbered
    have receiving : Receiving (c, p.bytes ++ segment ps) :=
      ⟨established, short, Nat.succ_pos _⟩
    have answer := @reply_eq p (segment ps) c length packet first
    have size := @Packet.messageLength_eq p (segment ps) packet
    have round := recvRound_eq receiving
    dsimp only at round
    rw [size, List.drop_left] at round
    have here : roundReply (c, p.bytes ++ segment ps) = p.answer.toList :=
      (if_pos ⟨established, short, Nat.succ_pos _⟩).trans answer
    unfold replies
    rw [here, handled, answers_cons]
    refine congrArg _ ?_
    -- the loop goes on behind a `PUBLISH` that is not the last packet
    by_cases more : p.publication.isSome = true ∧ ps ≠ []
    · have type := Packet.publication_isSome.mp more.1
      have behind : 0 < (segment ps).length := by
        cases ps with
        | nil => exact absurd rfl more.2
        | cons q qs => rw [segment_cons]; exact Nat.succ_pos _
      rw [if_pos ⟨type, by omega⟩] at round
      rw [if_pos more.1] at rest
      have keeps := @recvPacket_keeps (c.store (p.bytes ++ segment ps)) (p.bytes ++ segment ps)
      rw [round, if_pos rfl, if_pos more.1]
      have stored : (c.store (p.bytes ++ segment ps)).connection.bufferLength = mqttBufSize :=
        length
      refine ih (recvPacket_buffer stored) ?_ (by omega) rest (by simpa using enough)
      unfold Client.Established
      rw [keeps.1]
      exact established
    · have last : (recvRound (c, p.bytes ++ segment ps)).again = false := by
        rw [round, if_neg]
        rintro ⟨type, inside⟩
        refine more ⟨Packet.publication_isSome.mpr type, ?_⟩
        rintro rfl
        rw [segment_nil] at both inside
        simp at inside
      rw [last, if_neg Bool.false_ne_true]
      by_cases published : p.publication.isSome = true
      · have none : ps = [] := by
          by_contra some
          exact more ⟨published, some⟩
        rw [if_pos published, none]
        rfl
      · rw [if_neg published]
        rfl

theorem length_le_segment (ps : List Packet) : ps.length ≤ (segment ps).length := by
  rw [segment, List.length_flatMap]
  exact (List.length_map _).symm.trans_le (List.length_le_sum_of_one_le _ (by
    simp [Packet.bytes]))

theorem effectCalls_quiet (stack : Nat → Nat → UInt8) {effects : List RecvEffect}
    (quiet : ∀ o ∈ effects, o ≠ .connectedCb) : effectCalls st stack s effects = [] := by
  induction effects generalizing s with
  | nil => rfl
  | cons o effects ih =>
    obtain ⟨first, rest⟩ := List.forall_mem_cons.mp quiet
    cases o with
    | connectedCb => exact absurd rfl first
    | dataCb d => exact ih rest
    | espconnDisconnect => exact ih rest

theorem replyCalls_brings (msgs : List (List UInt8)) :
    (replyCalls msgs).flatMap Outbox.Op.brings = msgs := by
  unfold replyCalls
  rw [List.flatMap_map]
  exact List.flatMap_singleton' msgs

/-- In every state of an established session, a segment puts the answers to its packets behind
the messages that wait, if there is room for them. -/
theorem segment_answered (run : SessionRun st mqttInit es s) (registered : s.registered = true)
    (established : s.client.Established) (waits : Holds s.client.msgQueue waiting)
    (short : (segment ps).length < mqttBufSize) (numbered : ∀ p ∈ handled ps, p.Numbered)
    (fits : s.client.msgQueue.fillCnt + (((handled ps).filterMap Packet.answer).map room).sum ≤
      queueBufferSize) (stack : Nat → Nat → UInt8) :
    ∃ s', s.step st (.recv (segment ps) stack) = some s' ∧
      Holds s'.client.msgQueue (waiting ++ (handled ps).filterMap Packet.answer) := by
  obtain ⟨mirrors, -⟩ := run_mirrors run
  obtain rfl := waits.unique mirrors.carries.holds
  have inUse := run.inUse
  have enough : ps.length < (segment ps).length + 1 := Nat.lt_succ_of_le (length_le_segment ps)
  have returns := (@recvLoop_segment { s.client with keepAliveTick := 0 } ps established
    inUse.callbacks short _ enough).1
  obtain ⟨⟨c', effects⟩, recv⟩ :=
    Option.isSome_iff_exists.mp (mqttTcpclientRecv_isSome_iff.mpr ⟨_, returns⟩)
  have quiet : ∀ o ∈ effects, o ≠ .connectedCb := by
    obtain ⟨-, ⟨accepts, -⟩ | ⟨-, -, quiet⟩⟩ := recv_cases inUse.callbacks recv
    · unfold Client.Established at established
      rw [accepts.connecting] at established
      rcases established with data | keepalive
      · cases data
      · cases keepalive
    · exact quiet
  have step : s.step st (.recv (segment ps) stack) = some { s with client := c' } := by
    unfold Session.step
    dsimp only
    rw [if_pos registered, recv, Option.map_some, foldl_recvEffect stack quiet]
  have calls : s.calls st (.recv (segment ps) stack) =
      replyCalls ((handled ps).filterMap Packet.answer) := by
    have responses := @replies_segment { s.client with keepAliveTick := 0 } ps
      mirrors.carries.buffer established short numbered _ enough
    unfold Session.calls
    dsimp only
    rw [if_pos registered, recv, responses]
    dsimp only
    rw [effectCalls_quiet stack quiet, List.append_nil]
  refine ⟨_, step, ?_⟩
  obtain ⟨mirrors', -⟩ := step_mirrors mirrors step
  rw [calls] at mirrors'
  have brings := replyCalls_brings ((handled ps).filterMap Packet.answer)
  have roomy : Outbox.Roomy room queueBufferSize (boxAfter st es)
      (replyCalls ((handled ps).filterMap Packet.answer)) := by
    refine ⟨?_, fun need msg mem => ?_⟩
    · rw [brings, ← waits.fillCnt_eq]
      exact fits
    · obtain ⟨_, _, eq, small⟩ := replyCalls_puts _ _ mem
      obtain ⟨rfl, rfl⟩ := Outbox.Op.put.inj eq
      exact small
  have exact := Outbox.execAll_exact roomy
  have taken : (sessionBox (boxAfter st es)
      (replyCalls ((handled ps).filterMap Packet.answer))).taken = (boxAfter st es).taken :=
    sessionBox_taken (replyCalls_puts _)
  rw [brings] at exact
  have whole : (sessionBox (boxAfter st es)
      (replyCalls ((handled ps).filterMap Packet.answer))).waiting =
      (boxAfter st es).waiting ++ (handled ps).filterMap Packet.answer := by
    refine @List.append_cancel_left _ (boxAfter st es).taken _ _ ?_
    rw [← List.append_assoc, ← exact, ← taken]
    rfl
  exact whole ▸ mirrors'.carries.holds

/-- Two publications, with the identifiers 7 and 8, and the release of the second one. -/
def exchange : List Packet :=
  [⟨0x32, [5], .publish [97] [0, 7] [], by decide, by decide⟩,
    ⟨0x34, [6], .publish [97] [0, 8] [1], by decide, by decide⟩,
    ⟨0x62, [2], .other [0, 8], by decide, by decide⟩]

/-- The first session acknowledges them. -/
theorem exchange_answered : ∃ s waiting s', SessionRun .prise mqttInit firstSession s ∧
    Holds s.client.msgQueue waiting ∧
    s.step .prise (.recv (segment exchange) fun _ _ => 0) = some s' ∧
    Holds s'.client.msgQueue
      (waiting ++ [[0x40, 2, 0, 7], [0x50, 2, 0, 8], [0x70, 2, 0, 8]]) := by
  have state : (firstSession.foldlM (Session.step .prise) mqttInit).map
      (fun s => (s.registered, s.client.connState, s.client.msgQueue.fillCnt)) =
        some (true, .mqttData, 36) := by decide +kernel
  obtain ⟨s, run, eq⟩ := Option.map_eq_some_iff.mp state
  obtain ⟨registered, connState, used⟩ : s.registered = true ∧
      s.client.connState = .mqttData ∧ s.client.msgQueue.fillCnt = 36 := by simpa using eq
  obtain ⟨waiting, carries⟩ := run_carries (run_iff_foldlM.mpr run)
  obtain ⟨s', step, holds⟩ := @segment_answered exchange _ _ _ _ (run_iff_foldlM.mpr run)
    registered (.inl connState) carries.holds (by decide) (by decide) (by rw [used]; decide)
    fun _ _ => 0
  exact ⟨s, waiting, s', run_iff_foldlM.mpr run, carries.holds, step, holds⟩

end Domotic
