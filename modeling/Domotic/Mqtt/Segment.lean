import Domotic.Mqtt.Receive

/-!
# Segments of several packets

A segment is a concatenation of complete packets. The code comes to the next packet only behind
a `PUBLISH`: the publications behind any other packet of the segment are not delivered.
-/
namespace Domotic
open Library

/-! ## Packets on the wire -/

/-- What stands behind the fixed header. -/
inductive Body where
  | publish (topic id payload : List UInt8)
  | other (bytes : List UInt8)

def Body.bytes : Body → List UInt8
  | .publish topic id payload => msbLsb topic.length ++ topic ++ id ++ payload
  | .other bytes => bytes

/-- The body is one for the type and the flags in the first byte. -/
def Body.Fits (header : UInt8) : Body → Prop
  | .publish topic id _ =>
    mqttGetType header = MsgType.publish.code ∧ mqttGetQos header < 3 ∧
      0 < topic.length ∧ topic.length < 65536 ∧
      id.length = if 0 < mqttGetQos header then 2 else 0
  | .other _ => mqttGetType header ≠ MsgType.publish.code

instance (header : UInt8) : (body : Body) → Decidable (body.Fits header)
  | .publish .. => inferInstanceAs (Decidable (_ ∧ _))
  | .other _ => inferInstanceAs (Decidable (_ ≠ _))

/-- A complete packet, with the bytes that encode its length. -/
structure Packet where
  header : UInt8
  size : List UInt8
  body : Body
  encoded : decodeLength 4 size = some (body.bytes.length, [])
  fits : body.Fits header

namespace Packet

def bytes (p : Packet) : List UInt8 := p.header :: (p.size ++ p.body.bytes)

/-- The topic and the payload of a `PUBLISH`. -/
def publication (p : Packet) : Option (List UInt8 × List UInt8) :=
  match p.body with
  | .publish topic _ payload => some (topic, payload)
  | .other _ => none

end Packet

/-- The bytes of packets one behind the other. -/
def segment (ps : List Packet) : List UInt8 := ps.flatMap Packet.bytes

/-! ## What `dataCb` is called with -/

namespace Delivery

/-- The `n` bytes at a pointer. -/
def bytesAt (d : Delivery) (n : Nat) : Option Nat → List UInt8
  | none => []
  | some i => (List.range n).map fun k => d.inBuffer (i + k)

/-- The topic and the payload that the callback receives. -/
def publication (d : Delivery) : List UInt8 × List UInt8 :=
  (d.bytesAt d.topicLength d.topic, d.bytesAt d.dataLength d.data)

end Delivery

/-- The publications of the calls of `dataCb`, in order. -/
def deliveries (effects : List RecvEffect) : List (List UInt8 × List UInt8) :=
  effects.filterMap fun
    | .dataCb d => some d.publication
    | _ => none

/-! ## The fixed header -/

/-- The loop over the length bytes decodes the length while it fits a signed word. -/
theorem lengthLoop_decode {k n i totlen : Nat} {bs rest : List UInt8}
    (h : decodeLength k bs = some (n, rest)) (first : 1 ≤ i) (few : i + k ≤ 5)
    (small : totlen + n * 2 ^ (7 * (i - 1)) < 2147483648) :
    lengthLoop bs i totlen =
      (((totlen + n * 2 ^ (7 * (i - 1)) : Nat) : Int), i + (bs.length - rest.length)) := by
  induction k generalizing bs n i totlen with
  | zero => cases h
  | succ k ih =>
    cases bs with
    | nil => cases h
    | cons b bs =>
      have low : b.toNat % 128 * 2 ^ (7 * (i - 1)) ≤ n * 2 ^ (7 * (i - 1)) := by
        refine Nat.mul_le_mul_right _ ?_
        unfold decodeLength at h
        split at h
        · obtain ⟨rfl, -⟩ := Prod.mk.inj (Option.some.inj h)
          exact Nat.mod_le _ _
        · obtain ⟨r, -, eq⟩ := Option.map_eq_some_iff.mp h
          obtain ⟨rfl, -⟩ := Prod.mk.inj eq
          omega
      have amount : 7 * (i - 1) % 32 = 7 * (i - 1) := Nat.mod_eq_of_lt (by omega)
      have shifted : shiftLeft (b.toNat % 128) (7 * (i - 1)) =
          ((b.toNat % 128 * 2 ^ (7 * (i - 1)) : Nat) : Int) := by
        unfold shiftLeft
        rw [amount]
        exact int32_of_range (by omega) (by omega)
      have sum : int32 ((totlen : Int) + shiftLeft (b.toNat % 128) (7 * (i - 1))) =
          ((totlen + b.toNat % 128 * 2 ^ (7 * (i - 1)) : Nat) : Int) := by
        rw [shifted, ← Nat.cast_add]
        exact int32_of_range (by omega) (by omega)
      unfold decodeLength at h
      unfold lengthLoop
      dsimp only
      rw [sum]
      split at h
      · rename_i last
        obtain ⟨rfl, rfl⟩ := Prod.mk.inj (Option.some.inj h)
        rw [if_pos last, Nat.mod_eq_of_lt last, List.length_cons, Nat.add_sub_cancel_left]
      · rename_i more
        obtain ⟨r, back, eq⟩ := Option.map_eq_some_iff.mp h
        obtain ⟨rfl, rfl⟩ := Prod.mk.inj eq
        have weight : 2 ^ (7 * (i + 1 - 1)) = 128 * 2 ^ (7 * (i - 1)) := by
          rw [show 7 * (i + 1 - 1) = 7 + 7 * (i - 1) by omega, pow_add]
          norm_num
        have value : totlen + b.toNat % 128 * 2 ^ (7 * (i - 1)) + r.1 * 2 ^ (7 * (i + 1 - 1)) =
            totlen + (b.toNat % 128 + 128 * r.1) * 2 ^ (7 * (i - 1)) := by
          rw [weight]
          ring
        have shorter := (decodeLength_length back).1
        rw [if_neg more, ih back (by omega) (by omega) (by omega), value, List.length_cons]
        exact congrArg _ (by omega)

/-! ## A packet in front of others -/

variable {p : Packet} {tail topic id payload : List UInt8}

theorem Packet.fixedHeader_eq (short : p.bytes.length < mqttBufSize) :
    fixedHeader (p.bytes ++ tail) = ((p.body.bytes.length : Int), 1 + p.size.length) := by
  have front := decodeLength_append p.encoded (p.body.bytes ++ tail)
  have size : p.body.bytes.length < 1280 := by
    simp only [Packet.bytes, List.length_cons, List.length_append, mqttBufSize] at short
    omega
  have loop := @lengthLoop_decode 4 _ 1 0 _ _ front le_rfl le_rfl (by norm_num; omega)
  have bytes : (p.bytes ++ tail).drop 1 = p.size ++ (p.body.bytes ++ tail) := by
    simp [Packet.bytes]
  rw [fixedHeader, bytes]
  simpa using loop

/-- The code and the packet agree on its length. -/
theorem Packet.messageLength_eq (short : p.bytes.length < mqttBufSize) :
    messageLength (p.bytes ++ tail) = p.bytes.length := by
  have total : mqttGetTotalLength (p.bytes ++ tail) = (p.bytes.length : Int) := by
    unfold mqttGetTotalLength
    rw [p.fixedHeader_eq short]
    dsimp only
    simp only [Packet.bytes, List.length_cons, List.length_append, mqttBufSize] at short ⊢
    rw [int32_of_range (by omega) (by omega)]
    push_cast
    ring
  unfold messageLength
  rw [total]
  unfold mqttBufSize at short
  omega

/-- The bytes at the offset of a part of the buffer. -/
theorem bytesAt_part {d : Delivery} {buffer front middle rest : List UInt8}
    (stored : ∀ i < buffer.length, d.inBuffer i = buffer.getD i 0)
    (parts : buffer = front ++ (middle ++ rest)) :
    d.bytesAt middle.length (some front.length) = middle := by
  subst parts
  refine List.ext_getElem (by simp [Delivery.bytesAt]) ?_
  intro k _ inside
  have here : front.length + k < (front ++ (middle ++ rest)).length := by
    simp only [List.length_append]
    omega
  simp only [Delivery.bytesAt, List.getElem_map, List.getElem_range, stored _ here]
  simp [List.getElem?_append_right, List.getElem?_append_left inside,
    List.getElem?_eq_getElem inside]

theorem topicLength_part {front rest : List UInt8} {n : Nat} (small : n < 65536) :
    topicLength (front ++ (msbLsb n ++ rest)) front.length = n := by
  have high : (front ++ (msbLsb n ++ rest)).getD front.length 0 = UInt8.ofNat (n / 256) := by
    simp [msbLsb]
  have low : (front ++ (msbLsb n ++ rest)).getD (front.length + 1) 0 = UInt8.ofNat n := by
    simp [msbLsb]
  rw [topicLength, high, low, UInt8.toNat_ofNat', UInt8.toNat_ofNat']
  omega

/-- The topic and the payload that the code finds. -/
theorem Packet.publish_parts (body : p.body = .publish topic id payload)
    (short : p.bytes.length < mqttBufSize) :
    mqttGetPublishTopic (p.bytes ++ tail) = (some (1 + p.size.length + 2), topic.length) ∧
      (mqttGetPublishData (p.bytes ++ tail) =
          (some (1 + p.size.length + 2 + topic.length + id.length), payload.length) ∨
        mqttGetPublishData (p.bytes ++ tail) = (none, 0) ∧ payload = []) := by
  have fits := p.fits
  rw [body] at fits
  obtain ⟨-, qos, filled, topicSmall, idLength⟩ := fits
  have header : fixedHeader (p.bytes ++ tail) =
      ((p.body.bytes.length : Int), 1 + p.size.length) := p.fixedHeader_eq short
  have bodyLength : p.body.bytes.length = 2 + topic.length + id.length + payload.length := by
    simp only [body, Body.bytes, msbLsb, List.length_append, List.length_cons, List.length_nil]
  have length : (p.bytes ++ tail).length =
      1 + p.size.length + (2 + topic.length + id.length + payload.length) + tail.length := by
    simp only [Packet.bytes, List.length_append, List.length_cons, bodyLength]
    omega
  have field : topicLength (p.bytes ++ tail) (1 + p.size.length) = topic.length := by
    have parts : p.bytes ++ tail =
        (p.header :: p.size) ++ (msbLsb topic.length ++ (topic ++ id ++ payload ++ tail)) := by
      simp [Packet.bytes, body, Body.bytes]
    rw [parts, show 1 + p.size.length = (p.header :: p.size).length by simp [Nat.add_comm]]
    exact topicLength_part topicSmall
  have first : (p.bytes ++ tail).getD 0 0 = p.header := rfl
  have total : int32 ((p.body.bytes.length : Int) + (1 + p.size.length : Nat)) =
      ((1 + p.size.length + 2 + topic.length + id.length + payload.length : Nat) : Int) := by
    simp only [Packet.bytes, List.length_cons, List.length_append, mqttBufSize] at short
    rw [int32_of_range (by omega) (by omega), bodyLength]
    push_cast
    ring
  constructor
  · unfold mqttGetPublishTopic
    rw [header]
    dsimp only
    rw [field, if_neg (by omega), if_neg (by omega)]
  · unfold mqttGetPublishData
    rw [header]
    dsimp only
    rw [total, field, first, if_neg (by omega)]
    -- the callback gets `NULL` when the packet without a payload is the last one
    by_cases noMore : (p.bytes ++ tail).length ≤ 1 + p.size.length + 2 + topic.length
    · rw [if_pos noMore]
      exact .inr ⟨rfl, List.length_eq_zero_iff.mp (by omega)⟩
    · rw [if_neg noMore]
      by_cases acknowledged : 0 < mqttGetQos p.header
      · rw [if_pos acknowledged] at idLength
        by_cases onlyId : (p.bytes ++ tail).length ≤ 1 + p.size.length + 2 + topic.length + 2
        · rw [if_pos ⟨acknowledged, onlyId⟩]
          exact .inr ⟨rfl, List.length_eq_zero_iff.mp (by omega)⟩
        · rw [if_neg (fun both => onlyId both.2), if_pos acknowledged, if_neg (by omega),
            if_pos (by omega), idLength]
          exact .inl (by simp)
      · rw [if_neg acknowledged] at idLength
        rw [if_neg (fun both => acknowledged both.1), if_neg acknowledged, if_neg (by omega),
          if_pos (by omega), idLength]
        exact .inl (by simp)

/-- `deliver_publish` on a packet in the input buffer gives its topic and its payload. -/
theorem Packet.deliver_publication {c : Client} (body : p.body = .publish topic id payload)
    (short : p.bytes.length < mqttBufSize) :
    (deliverPublish (c.store (p.bytes ++ tail)).inBuffer (p.bytes ++ tail)).publication =
      (topic, payload) := by
  obtain ⟨topicPart, dataPart⟩ := @Packet.publish_parts p tail topic id payload body short
  have stored : ∀ i < (p.bytes ++ tail).length,
      (c.store (p.bytes ++ tail)).inBuffer i = (p.bytes ++ tail).getD i 0 := fun i inside =>
    if_pos inside
  have bytes : p.bytes ++ tail =
      (p.header :: p.size ++ msbLsb topic.length) ++ (topic ++ (id ++ payload ++ tail)) := by
    simp [Packet.bytes, body, Body.bytes]
  have front : (p.header :: p.size ++ msbLsb topic.length).length = 1 + p.size.length + 2 := by
    simp only [List.length_append, List.length_cons, msbLsb, List.length_nil]
    omega
  have bytes' : p.bytes ++ tail =
      (p.header :: p.size ++ msbLsb topic.length ++ topic ++ id) ++ (payload ++ tail) := by
    simp [Packet.bytes, body, Body.bytes]
  have front' : (p.header :: p.size ++ msbLsb topic.length ++ topic ++ id).length =
      1 + p.size.length + 2 + topic.length + id.length := by
    simp only [List.length_append, List.length_cons, msbLsb, List.length_nil]
    omega
  unfold Delivery.publication deliverPublish
  rw [topicPart]
  refine Prod.ext ?_ ?_
  · have part := bytesAt_part (d := deliverPublish (c.store (p.bytes ++ tail)).inBuffer
      (p.bytes ++ tail)) stored bytes
    rwa [front] at part
  · have part := bytesAt_part (d := deliverPublish (c.store (p.bytes ++ tail)).inBuffer
      (p.bytes ++ tail)) stored bytes'
    rw [front'] at part
    rcases dataPart with found | ⟨missing, empty⟩
    · rw [found]
      exact part
    · rw [missing, empty]
      rfl

/-! ## The packets that are delivered -/

variable {c : Client} {ps : List Packet}

@[simp] theorem segment_nil : segment [] = [] := rfl

@[simp] theorem segment_cons : segment (p :: ps) = p.bytes ++ segment ps := by
  simp [segment]

theorem deliveries_append (effects effects' : List RecvEffect) :
    deliveries (effects ++ effects') = deliveries effects ++ deliveries effects' :=
  List.filterMap_append

/-- A packet is delivered when it is a `PUBLISH`. -/
theorem Packet.deliveries_eq (callbacks : c.callbacks = true)
    (short : p.bytes.length < mqttBufSize) :
    deliveries (recvPacket (c.store (p.bytes ++ tail)) (p.bytes ++ tail)).2 =
      p.publication.toList := by
  have fits := p.fits
  rw [recvPacket_out]
  cases body : p.body with
  | publish topic id payload =>
    rw [body] at fits
    have type : packetType (p.bytes ++ tail) = MsgType.publish.code := fits.1
    have delivered := @Packet.deliver_publication p tail topic id payload c body short
    have published : p.publication = some (topic, payload) := by simp [Packet.publication, body]
    rw [if_pos ⟨type, callbacks⟩, published]
    exact congrArg (fun x => [x]) delivered
  | other bytes =>
    rw [body] at fits
    have type : packetType (p.bytes ++ tail) ≠ MsgType.publish.code := fits
    have unpublished : p.publication = none := by simp [Packet.publication, body]
    rw [if_neg (fun (both : _ ∧ _) => type both.1), unpublished]
    rfl

theorem Packet.publication_isSome :
    p.publication.isSome = true ↔ mqttGetType p.header = MsgType.publish.code := by
  have fits := p.fits
  unfold Packet.publication
  cases body : p.body with
  | publish topic id payload =>
    rw [body] at fits
    exact iff_of_true rfl fits.1
  | other bytes =>
    rw [body] at fits
    exact iff_of_false Bool.false_ne_true fits

/-- The loop delivers the publications in front of the first other packet. -/
theorem recvLoop_segment (established : c.Established) (callbacks : c.callbacks = true)
    (short : (segment ps).length < mqttBufSize) {n : Nat} (enough : ps.length < n) :
    (loop recvRound n (c, segment ps)).again = false ∧
      deliveries (loop recvRound n (c, segment ps)).out =
        (ps.takeWhile fun p => p.publication.isSome).filterMap Packet.publication := by
  induction ps generalizing c n with
  | nil =>
    obtain ⟨n, rfl⟩ := Nat.exists_eq_succ_of_ne_zero (Nat.ne_zero_of_lt enough)
    have round : recvRound (c, []) = ⟨(c, []), [], false⟩ := by simp [recvRound]
    rw [segment_nil, loop_last (by rw [round]), round]
    exact ⟨rfl, rfl⟩
  | cons p ps ih =>
    obtain ⟨n, rfl⟩ := Nat.exists_eq_succ_of_ne_zero (Nat.ne_zero_of_lt enough)
    rw [segment_cons] at short ⊢
    have both := @List.length_append _ p.bytes (segment ps)
    have packet : p.bytes.length < mqttBufSize := by omega
    have receiving : Receiving (c, p.bytes ++ segment ps) :=
      ⟨established, short, Nat.succ_pos _⟩
    have out := recvRound_out receiving
    have delivered := @Packet.deliveries_eq p (segment ps) c callbacks packet
    have length := @Packet.messageLength_eq p (segment ps) packet
    have round := recvRound_eq receiving
    dsimp only at round out
    rw [length, List.drop_left] at round
    rw [← out] at delivered
    -- the loop goes on behind a `PUBLISH` that is not the last packet
    by_cases more : p.publication.isSome = true ∧ ps ≠ []
    · have type := Packet.publication_isSome.mp more.1
      have behind : 0 < (segment ps).length := by
        cases ps with
        | nil => exact absurd rfl more.2
        | cons q qs => rw [segment_cons]; exact Nat.succ_pos _
      rw [if_pos ⟨type, by omega⟩] at round
      have keeps := @recvPacket_keeps (c.store (p.bytes ++ segment ps)) (p.bytes ++ segment ps)
      obtain ⟨returned, rest⟩ := @ih (recvPacket (c.store (p.bytes ++ segment ps))
        (p.bytes ++ segment ps)).1 (by unfold Client.Established; rw [keeps.1]; exact established)
        (keeps.2.trans callbacks) (by omega) n (by simpa using enough)
      obtain ⟨publication, some⟩ := Option.isSome_iff_exists.mp more.1
      rw [loop_next (by rw [round])]
      dsimp only
      rw [deliveries_append, delivered, round]
      dsimp only
      rw [rest, List.takeWhile_cons, if_pos more.1, List.filterMap_cons, some]
      exact ⟨returned, rfl⟩
    · have last : (recvRound (c, p.bytes ++ segment ps)).again = false := by
        rw [round, if_neg]
        rintro ⟨type, inside⟩
        refine more ⟨Packet.publication_isSome.mpr type, ?_⟩
        rintro rfl
        simp at inside
      rw [loop_last last, delivered]
      refine ⟨last, ?_⟩
      rw [List.takeWhile_cons]
      by_cases published : p.publication.isSome = true
      · have single : ps = [] := by simpa [published] using more
        obtain ⟨publication, some⟩ := Option.isSome_iff_exists.mp published
        rw [if_pos published, single, List.filterMap_cons, some]
        rfl
      · rw [if_neg published, Option.not_isSome_iff_eq_none.mp published]
        rfl

/-- Filtering the longest published front gives all of a list when nothing published follows
something else. -/
theorem filterMap_takeWhile_iff {α β : Type*} (f : α → Option β) (l : List α) :
    (l.takeWhile fun x => (f x).isSome).filterMap f = l.filterMap f ↔
      l.Pairwise fun x y => (f y).isSome = true → (f x).isSome = true := by
  induction l with
  | nil => simp
  | cons x l ih =>
    cases here : f x with
    | some y =>
      rw [List.takeWhile_cons, if_pos (by rw [here]; rfl), List.filterMap_cons,
        List.filterMap_cons, here, List.pairwise_cons]
      simpa [here] using ih
    | none =>
      have stops : ∀ l : List α, (∀ y ∈ l, f y = none) →
          l.Pairwise fun x y => (f y).isSome = true → (f x).isSome = true := fun l none =>
        List.pairwise_of_forall_mem_list fun _ _ y mem => by simp [none y mem]
      rw [List.takeWhile_cons, if_neg (by rw [here]; simp), List.filterMap_cons, here,
        List.pairwise_cons, List.filterMap_nil, eq_comm, List.filterMap_eq_nil_iff]
      constructor
      · exact fun none => ⟨fun y mem => by simp [none y mem], stops l none⟩
      · rintro ⟨later, -⟩ y mem
        simpa [here] using later y mem

/-- `dataCb` is called for every `PUBLISH` of a segment of complete packets, in order and with
its topic and payload, exactly when no `PUBLISH` stands behind another packet. -/
theorem publications_delivered_iff (established : c.Established) (callbacks : c.callbacks = true)
    (ps : List Packet) (short : (segment ps).length < mqttBufSize) :
    (∃ r, mqttTcpclientRecv c (segment ps) = some r ∧
        deliveries r.2 = ps.filterMap Packet.publication) ↔
      ps.Pairwise fun p q => q.publication.isSome = true → p.publication.isSome = true := by
  have enough : ps.length < (segment ps).length + 1 := by
    refine Nat.lt_succ_of_le ?_
    rw [segment, List.length_flatMap]
    exact (List.length_map _).symm.trans_le (List.length_le_sum_of_one_le _ (by
      simp [Packet.bytes]))
  have run := @recvLoop_segment { c with keepAliveTick := 0 } ps established callbacks short _
      enough
  have result : mqttTcpclientRecv c (segment ps) =
      some ((recvLoop c (segment ps) ((segment ps).length + 1)).state.1,
        (recvLoop c (segment ps) ((segment ps).length + 1)).out) := by
    unfold mqttTcpclientRecv
    exact if_neg (by rw [recvLoop, run.1]; exact Bool.false_ne_true)
  rw [← filterMap_takeWhile_iff, ← run.2, result]
  constructor
  · rintro ⟨r, eq, all⟩
    obtain rfl := Option.some.inj eq
    exact all
  · exact fun all => ⟨_, rfl, all⟩

/-- Two `PUBLISH` in front of a `PINGRESP` are delivered. -/
theorem publication_delivered :
    ∃ r, mqttTcpclientRecv { Client.init with connState := .mqttData }
        (segment [⟨0x30, [5], .publish [97] [] [83, 1], by decide, by decide⟩,
          ⟨0x30, [4], .publish [98] [] [84], by decide, by decide⟩,
          ⟨0xD0, [0], .other [], by decide, by decide⟩]) = some r ∧
      deliveries r.2 = [([97], [83, 1]), ([98], [84])] := by
  refine (publications_delivered_iff (.inl rfl) rfl
    [⟨0x30, [5], .publish [97] [] [83, 1], by decide, by decide⟩,
      ⟨0x30, [4], .publish [98] [] [84], by decide, by decide⟩,
      ⟨0xD0, [0], .other [], by decide, by decide⟩] (by decide)).mpr ?_
  simp [Packet.publication]

/-- A `PUBLISH` behind a `PINGRESP` is not. -/
theorem publication_not_delivered :
    ¬ ∃ r, mqttTcpclientRecv { Client.init with connState := .mqttData }
        (segment [⟨0xD0, [0], .other [], by decide, by decide⟩,
          ⟨0x30, [5], .publish [97] [] [83, 1], by decide, by decide⟩]) = some r ∧
      deliveries r.2 = [([97], [83, 1])] := by
  rintro ⟨r, result, delivered⟩
  have nothing : (mqttTcpclientRecv { Client.init with connState := .mqttData }
      (segment [⟨0xD0, [0], .other [], by decide, by decide⟩,
        ⟨0x30, [5], .publish [97] [] [83, 1], by decide, by decide⟩])).map
      (fun r => deliveries r.2) = some [] := by decide +kernel
  rw [result, Option.map_some, delivered] at nothing
  exact absurd nothing (by decide)

end Domotic
