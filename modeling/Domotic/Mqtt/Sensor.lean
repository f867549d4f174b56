import Domotic.Mqtt.Outgoing
import Domotic.Mqtt.Publish
import Domotic.Mqtt.Segment
import Domotic.Uart.StationName
import Mathlib.Tactic.DeriveFintype

/-!
# Sensor packets

`send_paquet_sensor` lays a value and a name out in a buffer of forty bytes and publishes it.
Behind it stand three more encodings: the message, the escapes and the ring. The peer undoes them
with decoders of its own. The name is cut at thirty-two bytes, the suffix of a channel first: a
station with a long name cannot tell its channels apart.
-/
namespace Domotic
open Library

/-- The size of `buffer` in `send_paquet_sensor`. -/
def paquetSize : Nat := 8 + maxLengthStationName

/-- A sensor packet as its reader sees it: the type, the value and the name. -/
def decodeSensor : List UInt8 → Option (UInt8 × Int × List UInt8)
  | 83 :: type :: b₃ :: b₂ :: b₁ :: b₀ :: name =>
    if 0 ∈ name then
      some (type, int32 ↑(((b₃.toNat * 256 + b₂.toNat) * 256 + b₁.toNat) * 256 + b₀.toNat),
        cString name)
    else none
  | _ => none

/-! ## The payload -/

theorem ofInt_toNat (x : Int) : (UInt8.ofInt x).toNat = (x % 256).toNat := by
  rw [UInt8.ofInt, UInt8.toNat_ofNat']
  omega

/-- The four bytes of a value give it back. -/
theorem value_bytes {val : Int} (lo : -2147483648 ≤ val) (hi : val < 2147483648) :
    int32 ↑((((UInt8.ofInt (val / 16777216)).toNat * 256 +
      (UInt8.ofInt (val / 65536)).toNat) * 256 + (UInt8.ofInt (val / 256)).toNat) * 256 +
      (UInt8.ofInt val).toNat) = val := by
  simp only [ofInt_toNat, int32_eq]
  omega

theorem nameLoop_name {name : List UInt8} (nonzero : 0 ∉ name) {i : Nat}
    (short : i + name.length < maxLengthStationName) (after : List UInt8) :
    nameLoop (name ++ 0 :: after) i = some (name, name.length + 1) := by
  induction name generalizing i with
  | nil => simp [nameLoop]
  | cons c name ih =>
    rw [List.mem_cons, not_or] at nonzero
    rw [List.length_cons] at short
    have more : c ≠ 0 ∧ i < maxLengthStationName := ⟨Ne.symm nonzero.1, by omega⟩
    rw [List.cons_append, nameLoop, if_pos more, ih nonzero.2 (by omega)]
    rfl

theorem suffixLoop_eq (suffix : List UInt8) (l : Nat) :
    suffixLoop suffix l = suffix.take (maxLengthStationName - l) := by
  induction suffix generalizing l with
  | nil => simp [suffixLoop]
  | cons c suffix ih =>
    unfold suffixLoop
    split
    · rename_i room
      obtain ⟨k, rest⟩ := Nat.exists_eq_add_of_lt room
      rw [ih, show maxLengthStationName - l = maxLengthStationName - (l + 1) + 1 by omega,
        List.take_succ_cons]
    · rename_i full
      rw [Nat.sub_eq_zero_of_le (Nat.le_of_not_lt full), List.take_zero]

/-- What a station with a name puts into the packet. -/
theorem paquetSensor_eq {name : List UInt8} (named : name ≠ []) (nonzero : 0 ∉ name)
    (short : name.length < maxLengthStationName) (after : List UInt8) (type : UInt8) (val : Int)
    (suffix : List UInt8) :
    paquetSensor (name ++ 0 :: after) type val suffix =
      some (some (paquet type val name suffix), name.length + 1) := by
  have loop := nameLoop_name nonzero (i := 0) (by omega) after
  obtain ⟨c, cs, rfl⟩ := List.exists_cons_of_ne_nil named
  have first : c ≠ 0 := fun zero => nonzero (zero ▸ List.mem_cons_self)
  simp only [List.cons_append] at loop
  simp [paquetSensor, first, loop]

theorem paquet_name {name suffix : List UInt8} (short : name.length < maxLengthStationName) :
    name ++ suffixLoop suffix name.length = (name ++ suffix).take maxLengthStationName := by
  rw [suffixLoop_eq, List.take_append, List.take_of_length_le (Nat.le_of_lt short)]

/-- The packet stays inside its buffer. -/
theorem paquet_length {type : UInt8} {val : Int} {name suffix : List UInt8}
    (short : name.length < maxLengthStationName) :
    (paquet type val name suffix).length ≤ paquetSize := by
  have text : (name ++ suffixLoop suffix name.length).length ≤ maxLengthStationName := by
    rw [paquet_name short]
    exact List.length_take_le _ _
  rw [List.length_append] at text
  simp only [paquet, paquetSize, List.length_append, List.length_map, List.length_range,
    List.length_cons, List.length_nil]
  omega

/-- The reader gets the type and the name back, and the value as its four bytes have it. -/
theorem decodeSensor_paquet {type : UInt8} {val : Int} {name suffix : List UInt8}
    (nonzero : 0 ∉ name) (nonzero' : 0 ∉ suffix) (short : name.length < maxLengthStationName) :
    ∃ val', decodeSensor (paquet type val name suffix) =
        some (type, val', (name ++ suffix).take maxLengthStationName) ∧
      (-2147483648 ≤ val → val < 2147483648 → val' = val) := by
  have text : 0 ∉ (name ++ suffix).take maxLengthStationName := fun mem =>
    (List.mem_append.mp (List.mem_of_mem_take mem)).elim nonzero nonzero'
  have bytes : paquet type val name suffix = 83 :: type :: UInt8.ofInt (val / 16777216) ::
      UInt8.ofInt (val / 65536) :: UInt8.ofInt (val / 256) :: UInt8.ofInt val ::
      ((name ++ suffix).take maxLengthStationName ++ [0]) := by
    rw [← paquet_name short]
    simp [paquet, List.range_succ]
  rw [bytes, decodeSensor, if_pos (by simp), cString_nonzero text]
  exact ⟨_, rfl, value_bytes⟩

/-! ## The message -/

variable {c c' : Client} {topic payload : List UInt8} {retain : Int}

/-- The message of a publication that is not acknowledged. -/
def publishMessage (topic payload : List UInt8) (retain : Int) : List UInt8 :=
  finiMessage .publish 0 0 retain (msbLsb topic.length ++ topic ++ payload)

theorem publishMessage_length (topic payload : List UInt8) (retain : Int) :
    topic.length + payload.length + 4 ≤ (publishMessage topic payload retain).length := by
  rw [publishMessage, finiMessage_length]
  simp only [msbLsb, List.length_append, List.length_cons, List.length_nil]
  split <;> omega

/-- A publication that fits the empty queue is what the task sends next. -/
theorem dequeued_publish (carries : Carries c []) (idle : c.sendTimeout = 0) (filled : topic ≠ [])
    (fits : room (publishMessage topic payload retain) ≤ queueBufferSize)
    (stack stack' : Nat → UInt8) :
    dequeued stack' (mqttPublish stack c (some topic) payload 0 retain).1 =
      some (publishMessage topic payload retain) := by
  have long := publishMessage_length topic payload retain
  unfold room queueBufferSize at fits
  obtain ⟨-, id, none, built⟩ := mqttMsgPublish_eq carries.buffer (some topic) payload 0 retain
  obtain rfl : id = [] := List.eq_nil_of_length_eq_zero none
  rw [List.append_nil, if_neg (by simp [filled, publishLength]; omega)] at built
  have built : (mqttMsgPublish c.connection (some topic) payload 0 retain).2 =
    publishMessage topic payload retain := built
  have size : c.msgQueue.size = 512 := carries.size
  have queued : (mqttPublish stack c (some topic) payload 0 retain).2 = true := by
    rw [← Bool.not_eq_false, (publish_refused carries.holds).1, built]
    omega
  have holds := publish_queue carries.holds (by omega) queued
  rw [built] at holds
  simp only [Outbox.kept, List.map_nil, List.sum_nil, Nat.sub_zero, List.nil_append] at holds
  rw [if_pos (by unfold room; omega)] at holds
  have busy :
      queueIsEmpty (mqttPublish stack c (some topic) payload 0 retain).1.msgQueue = false := by
    have used := holds.fillCnt_eq
    simp only [List.map_cons, List.map_nil, List.sum_cons, List.sum_nil, room] at used
    simp only [queueIsEmpty, decide_eq_false_iff_not]
    omega
  have waiting : (mqttPublish stack c (some topic) payload 0 retain).1.sendTimeout = 0 := by
    unfold mqttPublish
    dsimp only
    split_ifs <;> exact idle
  obtain ⟨got, -⟩ := holds.gets (stack' 0) mqttBufSize
  rw [List.take_of_length_le (by unfold mqttBufSize; omega)] at got
  rw [dequeued, if_neg (by simp [busy, waiting]), got]

/-- The receiver decodes the length that `mqtt_msg_publish` writes. -/
theorem publish_encoded (short : topic.length + payload.length < 16382) :
    decodeLength 4 (lengthBytes (Body.publish topic [] payload).bytes.length) =
      some ((Body.publish topic [] payload).bytes.length, []) := by
  refine decode_lengthBytes ?_
  simp only [Body.bytes, msbLsb, List.length_append, List.length_cons, List.length_nil]
  omega

theorem publish_fits (filled : topic ≠ []) (short : topic.length + payload.length < 16382) :
    (Body.publish topic [] payload).Fits (headerByte .publish 0 0 retain) := by
  have positive := List.length_pos_of_ne_nil filled
  refine ⟨headerByte_type _ _ _ _, ?_, positive, by omega, ?_⟩ <;> rw [headerByte_qos] <;> decide

/-- The message as a packet of the peer. -/
def publishPacket (topic payload : List UInt8) (retain : Int) (filled : topic ≠ [])
    (short : topic.length + payload.length < 16382) : Packet where
  header := headerByte .publish 0 0 retain
  size := lengthBytes (Body.publish topic [] payload).bytes.length
  body := .publish topic [] payload
  encoded := publish_encoded short
  fits := publish_fits filled short

theorem publishPacket_bytes (filled : topic ≠ [])
    (short : topic.length + payload.length < 16382) :
    (publishPacket topic payload retain filled short).bytes =
      publishMessage topic payload retain := by
  rw [publishMessage, finiMessage_eq]
  simp [Packet.bytes, publishPacket, Body.bytes]

/-- The receiver finds the topic and the payload. -/
theorem deliver_publishMessage (filled : topic ≠ [])
    (fits : room (publishMessage topic payload retain) ≤ queueBufferSize) :
    (deliverPublish (c'.store (publishMessage topic payload retain)).inBuffer
      (publishMessage topic payload retain)).publication = (topic, payload) := by
  have long := publishMessage_length topic payload retain
  unfold room queueBufferSize at fits
  have short : topic.length + payload.length < 16382 := by omega
  have bytes := @publishPacket_bytes topic payload retain filled short
  have delivered := @Packet.deliver_publication (publishPacket topic payload retain filled short)
    [] topic [] payload c' rfl (by rw [bytes]; unfold mqttBufSize; omega)
  rwa [List.append_nil, bytes] at delivered

/-- A sensor packet that fits the empty queue comes back out of the message that the task sends,
with its type, its value and the name cut at thirty-two bytes; it never leaves its buffer. -/
theorem sensor_round_trip (carries : Carries c []) (idle : c.sendTimeout = 0) (filled : topic ≠ [])
    {name suffix : List UInt8} (named : name ≠ []) (nonzero : 0 ∉ name)
    (short : name.length < maxLengthStationName) (nonzero' : 0 ∉ suffix) (after : List UInt8)
    (type : UInt8) {val : Int} (lo : -2147483648 ≤ val) (hi : val < 2147483648) (retain : Int) :
    ∃ payload reads, paquetSensor (name ++ 0 :: after) type val suffix =
      some (some payload, reads) ∧
      payload.length ≤ paquetSize ∧
      decodeSensor payload = some (type, val, (name ++ suffix).take maxLengthStationName) ∧
      (room (publishMessage topic payload retain) ≤ queueBufferSize → ∀ stack stack', ∃ msg,
        dequeued stack' (mqttPublish stack c (some topic) payload 0 retain).1 = some msg ∧
        (deliverPublish (c'.store msg).inBuffer msg).publication = (topic, payload)) := by
  obtain ⟨_, decoded, value⟩ := @decodeSensor_paquet type val name suffix nonzero nonzero' short
  obtain rfl := value lo hi
  refine ⟨paquet type _ name suffix, name.length + 1,
    paquetSensor_eq named nonzero short after type _ suffix, paquet_length short, decoded,
    fun fits stack stack' => ?_⟩
  exact ⟨_, dequeued_publish carries idle filled fits stack stack',
    deliver_publishMessage filled fits⟩

/-- The first channel of the station `A` reports the value −1 over a fresh session. -/
theorem sensor_round_trip_channel :
    ∃ payload, paquetSensor [65, 0] 13 (-1) [95, 49] = some (some payload, 2) ∧
      decodeSensor payload = some (13, -1, [65, 95, 49]) ∧ ∃ msg,
        dequeued (fun _ => 0) (mqttPublish (fun _ => 0)
          { Client.init with connState := .mqttData } (some [97]) payload 0 0).1 = some msg ∧
        (deliverPublish (Client.init.store msg).inBuffer msg).publication = ([97], payload) := by
  have carries : Carries { Client.init with connState := .mqttData } [] :=
    ⟨rfl, rfl, RingBuf.init_valid (by decide), rfl⟩
  have sent : paquetSensor [65, 0] 13 (-1) [95, 49] =
      some (some [83, 13, 255, 255, 255, 255, 65, 95, 49, 0], 2) := by decide
  obtain ⟨payload, reads, packet, -, decoded, delivered⟩ :=
    @sensor_round_trip { Client.init with connState := .mqttData } Client.init [97] carries rfl
      (by decide) [65] [95, 49] (by decide) (by decide) (by decide) (by decide) [] 13 (-1)
      (by decide) (by decide) 0
  have same := packet.symm.trans sent
  simp only [Option.some.injEq, Prod.mk.injEq] at same
  obtain ⟨rfl, rfl⟩ := same
  exact ⟨_, sent, decoded, delivered (by decide) _ _⟩

/-! ## The names of the channels -/

/-- The suffixes that `send_paquet_sensor` is called with. -/
inductive Suffix
  /-- `NULL` -/
  | none
  /-- `_1` to `_8`: in `send_PCF8885`, `name[1]='1'+l`. -/
  | channel (l : Fin 8)
  | sol
  | mSenS
  | sensor
  deriving DecidableEq, Fintype

def Suffix.bytes : Suffix → List UInt8
  | none => []
  | channel l => [95, 49 + UInt8.ofNat l]
  | sol => [95, 115, 111, 108]
  | mSenS => [95, 77, 115, 101, 110, 83, 95]
  | sensor => [95, 115, 101, 110, 115, 111, 114]

/-- The name that the peer finds in the packet, if one is sent. -/
def packetName (mem : List UInt8) (type : UInt8) (val : Int) (s : Suffix) :
    Option (List UInt8) := do
  let (payload, _) ← paquetSensor mem type val s.bytes
  let (_, _, name) ← decodeSensor (← payload)
  some name

/-- The rest of the thirty-two bytes still tells the two suffixes apart. -/
def Suffix.Apart (length : Nat) (s s' : Suffix) : Prop :=
  length ≤ 29 ∨ (length = 30 ∧ ¬ (s ∈ [sol, sensor] ∧ s' ∈ [sol, sensor])) ∨
    (length = 31 ∧ (s = none ∨ s' = none))

theorem Suffix.nonzero : ∀ s : Suffix, 0 ∉ s.bytes := by
  decide

/-- Two suffixes differ in their first three bytes. -/
theorem Suffix.take_three : ∀ s s' : Suffix, s.bytes.take 3 = s'.bytes.take 3 → s = s' := by
  decide

theorem Suffix.take_two :
    ∀ s s' : Suffix, s ≠ s' → (s.bytes.take 2 ≠ s'.bytes.take 2 ↔
      ¬ (s ∈ [sol, sensor] ∧ s' ∈ [sol, sensor])) := by
  decide

theorem Suffix.take_one :
    ∀ s s' : Suffix, s ≠ s' → (s.bytes.take 1 ≠ s'.bytes.take 1 ↔ s = none ∨ s' = none) := by
  decide

theorem Suffix.apart_iff {s s' : Suffix} (other : s ≠ s') {length : Nat}
    (short : length < maxLengthStationName) :
    s.bytes.take (maxLengthStationName - length) ≠ s'.bytes.take (maxLengthStationName - length) ↔
      Apart length s s' := by
  unfold maxLengthStationName at *
  obtain roomy | rfl | rfl : length ≤ 29 ∨ length = 30 ∨ length = 31 := by omega
  · refine iff_of_true (fun same => other (take_three s s' ?_)) (.inl roomy)
    have cut := congrArg (List.take 3) same
    rwa [List.take_take, List.take_take, Nat.min_eq_left (by omega)] at cut
  · simpa [Apart] using take_two s s' other
  · simpa [Apart] using take_one s s' other

theorem packetName_eq {v : Vector UInt8 32} (ends : 0 ∈ v.toList) (named : cString v.toList ≠ [])
    (after : List UInt8) (type : UInt8) (val : Int) (s : Suffix) :
    packetName (v.toList ++ after) type val s =
        some ((cString v.toList ++ s.bytes).take maxLengthStationName) ∧
      (cString v.toList).length < maxLengthStationName := by
  obtain ⟨rest, split⟩ := terminated_eq ends
  have length := congrArg List.length split
  rw [Vector.length_toList, List.length_append, List.length_cons] at length
  have short : (cString v.toList).length < maxLengthStationName := by
    unfold maxLengthStationName
    omega
  have nonzero := not_mem_cString v.toList
  have sent := paquetSensor_eq named nonzero short (rest ++ after) type val s.bytes
  obtain ⟨val', decoded, -⟩ := @decodeSensor_paquet type val _ _ nonzero s.nonzero short
  have mem : v.toList ++ after = cString v.toList ++ 0 :: (rest ++ after) := by
    conv_lhs => rw [split]
    simp
  refine ⟨?_, short⟩
  simp [packetName, mem, sent, decoded]

/-- Whatever was typed on the UART, the names in the packets of two channels differ exactly when
the suffixes still differ in the bytes that the station name leaves free. -/
theorem channels_apart_iff (b : Build) (f : Flash) (bytes : List UInt8)
    (typed : ∀ typed, lineOf bytes = some (.stationName, typed) →
      typed.length < maxLengthStationName)
    (named : cString (rxBytes b (.boot (.boot f)) bytes).stationName.toList ≠ [])
    {s s' : Suffix} (other : s ≠ s') (after : List UInt8) (type type' : UInt8) (val val' : Int) :
    ∃ name name',
      packetName ((rxBytes b (.boot (.boot f)) bytes).stationName.toList ++ after) type val s =
        some name ∧
      packetName ((rxBytes b (.boot (.boot f)) bytes).stationName.toList ++ after) type' val' s' =
        some name' ∧
      (name ≠ name' ↔
        s.Apart (cString (rxBytes b (.boot (.boot f)) bytes).stationName.toList).length s') := by
  have ends := (terminated_iff (nameOf_bytes b f bytes)).mpr fun line open' =>
    .inl (typed line open')
  obtain ⟨name, short⟩ := packetName_eq ends named after type val s
  obtain ⟨name', -⟩ := packetName_eq ends named after type' val' s'
  refine ⟨_, _, name, name', ?_⟩
  rw [← Suffix.apart_iff other short, List.take_append, List.take_append, ne_eq, ne_eq,
    List.append_right_inj]

/-- The station `A` tells its first two channels apart. -/
theorem channels_apart_short : ∃ name name',
    packetName (rxBytes .prise (.boot (.boot fun _ => 0xFF)) [105, 65, 10]).stationName.toList
      13 100 (.channel 0) = some name ∧
    packetName (rxBytes .prise (.boot (.boot fun _ => 0xFF)) [105, 65, 10]).stationName.toList
      13 0 (.channel 1) = some name' ∧ name ≠ name' := by
  obtain ⟨name, name', sent, sent', apart⟩ :=
    @channels_apart_iff .prise (fun _ => 0xFF) [105, 65, 10] (fun typed line => nomatch line)
      (by decide +kernel) (.channel 0) (.channel 1) (by decide) [] 13 13 100 0
  rw [List.append_nil] at sent sent'
  exact ⟨name, name', sent, sent', apart.mpr (.inl (by decide +kernel))⟩

/-- A name of thirty-one letters leaves one byte, and every suffix but the empty one starts
alike. -/
theorem not_channels_apart_long :
    packetName (rxBytes .prise (.boot (.boot fun _ => 0xFF)) (105 :: List.replicate 31 65 ++ [10])
      ).stationName.toList 13 100 (.channel 0) = some (List.replicate 31 65 ++ [95]) ∧
    packetName (rxBytes .prise (.boot (.boot fun _ => 0xFF)) (105 :: List.replicate 31 65 ++ [10])
      ).stationName.toList 13 100 (.channel 1) = some (List.replicate 31 65 ++ [95]) := by
  decide +kernel

end Domotic
