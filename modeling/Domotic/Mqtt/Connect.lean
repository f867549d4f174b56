import Domotic.Mqtt.Outgoing

/-!
# What a `CONNECT` message says

`mqtt_msg_connect` writes the variable header with its flags still empty, appends the strings that
are given, and sets a flag in the header behind each of them. What the message means is what a
broker for version 3.1 reads from it (`decodeConnect`).
-/
namespace Domotic
open Library

/-! ## What a broker reads -/

structure Will where
  topic : List UInt8
  message : List UInt8
  qos : Int
  retain : Bool
  deriving DecidableEq

/-- A request for a connection. -/
structure Connect where
  clientId : List UInt8
  username : Option (List UInt8)
  password : Option (List UInt8)
  will : Option Will
  keepalive : Nat
  cleanSession : Bool
  deriving DecidableEq

/-- A string behind its length. -/
def takeString : List UInt8 → Option (List UInt8 × List UInt8)
  | high :: low :: rest =>
    let n := high.toNat * 256 + low.toNat
    if n ≤ rest.length then some (rest.take n, rest.drop n) else none
  | _ => none

/-- A string that a flag announces. -/
def takeIf (present : Bool) (bs : List UInt8) : Option (Option (List UInt8) × List UInt8) :=
  if present then (takeString bs).map fun r => (some r.1, r.2) else some (none, bs)

/-- The strings of the payload, all of it. -/
def decodePayload (flags : Nat) (keepalive : Nat) (bs : List UInt8) : Option Connect := do
  let (clientId, bs) ← takeString bs
  let (topic, bs) ← takeIf (flags.testBit 2) bs
  let (message, bs) ← takeIf (flags.testBit 2) bs
  let (username, bs) ← takeIf (flags.testBit 7) bs
  let (password, bs) ← takeIf (flags.testBit 6) bs
  if bs = [] then
    some {
      clientId, username, password, keepalive
      will := topic.bind fun t => message.map fun m =>
        ⟨t, m, ↑(flags / 8 % 4), flags.testBit 5⟩
      cleanSession := flags.testBit 1 }
  else none

/-- A whole `CONNECT` packet of version 3.1. -/
def decodeConnect : List UInt8 → Option Connect
  | [] => none
  | header :: rest =>
    if header ≠ 0x10 then none
    else
      (decodeLength 4 rest).bind fun r =>
        match r.2 with
        | l₁ :: l₂ :: n₁ :: n₂ :: n₃ :: n₄ :: n₅ :: n₆ :: version :: flags :: k₁ :: k₂ :: bs =>
          if r.2.length = r.1 ∧ [l₁, l₂, n₁, n₂, n₃, n₄, n₅, n₆] = [0, 6] ++ protocolName ∧
              version = 3 then
            decodePayload flags.toNat (k₁.toNat * 256 + k₂.toNat) bs
          else none
        | _ => none

/-- What the application asks for. -/
def ConnectInfo.meaning (info : ConnectInfo) : Connect where
  clientId := (given info.clientId).getD []
  username := given info.username
  password := given info.password
  will := (given info.willTopic).map fun topic =>
    ⟨topic, info.willMessage, info.willQos, info.willRetain ≠ 0⟩
  keepalive := info.keepalive
  cleanSession := info.cleanSession ≠ 0

/-- The header has two bytes for the keepalive, and two bits for the QoS of a will. -/
def ConnectInfo.truncated (info : ConnectInfo) : ConnectInfo :=
  { info with keepalive := info.keepalive % 65536, willQos := info.willQos % 4 }

/-- The header has room for what is asked for. -/
def ConnectInfo.Representable (info : ConnectInfo) : Prop :=
  info.keepalive < 65536 ∧ (given info.willTopic ≠ none → 0 ≤ info.willQos ∧ info.willQos < 4)

theorem ConnectInfo.truncated_meaning (info : ConnectInfo) :
    info.truncated.meaning = info.meaning ↔ info.Representable := by
  unfold ConnectInfo.meaning ConnectInfo.truncated ConnectInfo.Representable
  rw [Connect.mk.injEq]
  cases given info.willTopic with
  | none => simp
  | some topic =>
    have bits : info.willQos % 4 = info.willQos ↔ 0 ≤ info.willQos ∧ info.willQos < 4 := by omega
    simp [bits, and_comm]

/-! ## Fields -/

/-- A string behind its length. -/
def field (s : List UInt8) : List UInt8 := msbLsb s.length ++ s

theorem field_length (s : List UInt8) : (field s).length = s.length + 2 := by
  simp only [field, msbLsb, List.length_append, List.length_cons, List.length_nil]
  omega

variable {c : MqttConnection} {info : ConnectInfo} {body : List UInt8}

theorem takeString_field {s : List UInt8} (short : s.length < 65536) (rest : List UInt8) :
    takeString (field s ++ rest) = some (s, rest) := by
  have high : (UInt8.ofNat (s.length / 256)).toNat = s.length / 256 := by
    rw [UInt8.toNat_ofNat']
    omega
  have low : (UInt8.ofNat s.length).toNat = s.length % 256 := UInt8.toNat_ofNat'
  have length : s.length / 256 * 256 + s.length % 256 = s.length := Nat.div_add_mod' _ _
  simp [field, msbLsb, takeString, high, low, length]

/-- A string that is given as a flag says. -/
theorem takeIf_field {s : Option (List UInt8)} (short : (s.getD []).length < 65536)
    (rest : List UInt8) :
    takeIf s.isSome ((s.map field).getD [] ++ rest) = some (s, rest) := by
  cases s with
  | none => rfl
  | some s =>
    have whole := takeString_field short rest
    simp only [Option.getD_some] at whole
    simp [takeIf, whole]

theorem appendString_eq (buffer : c.bufferLength = mqttBufSize) (s : List UInt8) :
    appendString c body s =
      if 1277 < body.length + (field s).length then none else some (body ++ field s) := by
  rw [appendString, buffer, field_length]
  unfold maxFixedHeaderSize mqttBufSize field
  by_cases long : 1277 < body.length + (s.length + 2)
  · rw [if_pos long, if_pos (by omega)]
  · rw [if_neg long, if_neg (by omega), List.append_assoc]

theorem flag_header (flags bits : UInt8) (keepalive : Nat) (rest : List UInt8) :
    flag (connectHeader flags keepalive ++ rest) bits =
      connectHeader (flags ||| bits) keepalive ++ rest := rfl

/-! ## What is built -/

/-- The header and these fields, unless they are longer than the output buffer. -/
def Builds (flags : UInt8) (keepalive : Nat) (rest : List UInt8) (r : Option (List UInt8)) :
    Prop :=
  r = if 1277 < 12 + rest.length then none else some (connectHeader flags keepalive ++ rest)

/-- The fields of some strings. -/
def fields (ss : List (List UInt8)) : List UInt8 := ss.flatMap field

theorem fields_append (ss ss' : List (List UInt8)) : fields (ss ++ ss') = fields ss ++ fields ss' :=
  List.flatMap_append

section builds
variable {flags : UInt8} {keepalive : Nat} {rest : List UInt8} {r : Option (List UInt8)}

theorem Builds.string (h : Builds flags keepalive rest r) (buffer : c.bufferLength = mqttBufSize)
    (s : List UInt8) : Builds flags keepalive (rest ++ field s) (r.bind (appendString c · s)) := by
  unfold Builds at h ⊢
  have length : (connectHeader flags keepalive ++ rest).length = 12 + rest.length := by
    rw [List.length_append]
    rfl
  rw [h, List.length_append]
  by_cases long : 1277 < 12 + rest.length
  · rw [if_pos long, if_pos (by omega)]
    rfl
  · rw [if_neg long, Option.bind_some, appendString_eq buffer, length, List.append_assoc,
      Nat.add_assoc]

theorem Builds.flag (h : Builds flags keepalive rest r) (bits : UInt8) :
    Builds (flags ||| bits) keepalive rest (r.map (Domotic.flag · bits)) := by
  unfold Builds at h ⊢
  rw [h]
  by_cases long : 1277 < 12 + rest.length
  · rw [if_pos long, if_pos long]
    rfl
  · rw [if_neg long, if_neg long, Option.map_some, flag_header]

/-- The flag of something that is given. -/
def flagIf (present : Bool) (bits : UInt8) : UInt8 := if present then bits else 0

theorem Builds.given (h : Builds flags keepalive rest r) (buffer : c.bufferLength = mqttBufSize)
    (string : Option (List UInt8)) (bits : UInt8) :
    Builds (flags ||| flagIf (Domotic.given string).isSome bits) keepalive
      (rest ++ fields (Domotic.given string).toList) (r.bind (appendGiven c string bits)) := by
  unfold appendGiven
  cases Domotic.given string with
  | none =>
    simpa [flagIf, fields] using h
  | some s =>
    have next := (h.string buffer s).flag bits
    rw [Option.map_bind] at next
    simpa [flagIf, fields] using next

end builds

namespace ConnectInfo

/-- The flags of the will. -/
def willFlags (info : ConnectInfo) : UInt8 :=
  flagIf (given info.willTopic).isSome
    (4 ||| flagIf (info.willRetain ≠ 0) 32 ||| UInt8.ofNat ((info.willQos % 4).toNat * 8))

def flags (info : ConnectInfo) : UInt8 :=
  flagIf (info.cleanSession ≠ 0) 2 ||| info.willFlags |||
    flagIf (given info.username).isSome 128 ||| flagIf (given info.password).isSome 64

/-- The strings of the will. -/
def willStrings (info : ConnectInfo) : List (List UInt8) :=
  match given info.willTopic with
  | none => []
  | some topic => [topic, info.willMessage]

/-- The strings that are given, in their order. -/
def strings (info : ConnectInfo) : List (List UInt8) :=
  (given info.clientId).toList ++ info.willStrings ++ (given info.username).toList ++
    (given info.password).toList

/-- The bytes behind the fixed header. -/
def length (info : ConnectInfo) : Nat := 12 + (fields info.strings).length

end ConnectInfo

theorem Builds.will {flags : UInt8} {keepalive : Nat} {rest : List UInt8}
    {r : Option (List UInt8)} (h : Builds flags keepalive rest r)
    (buffer : c.bufferLength = mqttBufSize) :
    Builds (flags ||| info.willFlags) keepalive (rest ++ fields info.willStrings)
      (r.bind (appendWill c info)) := by
  unfold appendWill ConnectInfo.willFlags ConnectInfo.willStrings
  cases Domotic.given info.willTopic with
  | none => simpa [flagIf, fields] using h
  | some topic =>
    have strings := ((h.string buffer topic).string buffer info.willMessage).flag 4
    by_cases retain : info.willRetain = 0
    · have next := strings.flag (UInt8.ofNat ((info.willQos % 4).toNat * 8))
      simpa [flagIf, fields, retain, Option.map_bind, Option.bind_assoc, Function.comp_def,
        UInt8.or_assoc] using next
    · have next := (strings.flag 32).flag (UInt8.ofNat ((info.willQos % 4).toNat * 8))
      simpa [flagIf, fields, retain, Option.map_bind, Option.bind_assoc, Function.comp_def,
        UInt8.or_assoc] using next

/-- `mqtt_msg_connect` fails without a client id and when the output buffer is too short. -/
theorem connectBody_eq (buffer : c.bufferLength = mqttBufSize) :
    connectBody c info =
      if given info.clientId = none ∨ 1277 < info.length then none
      else some (connectHeader info.flags info.keepalive ++ fields info.strings) := by
  unfold connectBody
  rw [if_neg (by rw [buffer]; decide)]
  dsimp only
  cases id : given info.clientId with
  | none => exact (if_pos (.inl rfl)).symm
  | some s =>
    have header : Builds (flagIf (info.cleanSession ≠ 0) 2) info.keepalive []
        (some (flag (connectHeader 0 info.keepalive)
          (if info.cleanSession ≠ 0 then 2 else 0))) := by
      by_cases clean : info.cleanSession = 0
      · simp [Builds, clean, flagIf, flag, connectHeader, protocolName]
      · simp [Builds, clean, flagIf, flag, connectHeader, protocolName]
    have will := @Builds.will _ info _ _ _ _ (header.string buffer s) buffer
    have whole := (will.given buffer info.username 128).given buffer info.password 64
    have strings : [] ++ field s ++ fields info.willStrings ++
        fields (given info.username).toList ++ fields (given info.password).toList =
        fields info.strings := by
      simp [ConnectInfo.strings, id, fields]
    rw [strings] at whole
    unfold Builds at whole
    rw [Option.bind_some] at whole
    refine whole.trans (if_congr ?_ rfl rfl)
    simp [ConnectInfo.length]

/-! ## What is read back -/

/-- Every flag stands in a bit of its own. -/
theorem flag_bits (clean will retain username password : Bool) (qos : Fin 4) :
    let flags := flagIf clean 2 |||
      flagIf will (4 ||| flagIf retain 32 ||| UInt8.ofNat (qos.val * 8)) |||
      flagIf username 128 ||| flagIf password 64
    flags.toNat.testBit 1 = clean ∧ flags.toNat.testBit 2 = will ∧
      flags.toNat.testBit 7 = username ∧ flags.toNat.testBit 6 = password ∧
      (will = true → flags.toNat / 8 % 4 = qos.val ∧ flags.toNat.testBit 5 = retain) := by
  decide +revert

theorem ConnectInfo.flags_bits (info : ConnectInfo) :
    info.flags.toNat.testBit 1 = decide (info.cleanSession ≠ 0) ∧
      info.flags.toNat.testBit 2 = (given info.willTopic).isSome ∧
      info.flags.toNat.testBit 7 = (given info.username).isSome ∧
      info.flags.toNat.testBit 6 = (given info.password).isSome ∧
      ((given info.willTopic).isSome = true → info.flags.toNat / 8 % 4 = (info.willQos % 4).toNat ∧
        info.flags.toNat.testBit 5 = decide (info.willRetain ≠ 0)) :=
  flag_bits _ _ _ _ _ ⟨(info.willQos % 4).toNat, by omega⟩

theorem fields_toList (s : Option (List UInt8)) : fields s.toList = (s.map field).getD [] := by
  cases s with
  | none => rfl
  | some s => simp [fields]

/-- The payload holds the strings that the flags announce. -/
theorem decodePayload_fields {id : List UInt8} (known : given info.clientId = some id)
    (short : info.length ≤ 1277) :
    decodePayload info.flags.toNat (info.keepalive % 65536) (fields info.strings) =
      some info.truncated.meaning := by
  obtain ⟨clean, will, username, password, details⟩ := info.flags_bits
  -- the message of the will is given when its topic is
  let message : Option (List UInt8) := (given info.willTopic).map fun _ => info.willMessage
  have announced : message.isSome = (given info.willTopic).isSome := Option.isSome_map
  have willFields : fields info.willStrings =
      ((given info.willTopic).map field).getD [] ++ (message.map field).getD [] := by
    unfold ConnectInfo.willStrings message
    cases given info.willTopic with
    | none => rfl
    | some topic => simp [fields]
  have payload : fields info.strings = field id ++ (((given info.willTopic).map field).getD [] ++
      ((message.map field).getD [] ++ (((given info.username).map field).getD [] ++
        (((given info.password).map field).getD [] ++ [])))) := by
    simp only [ConnectInfo.strings, known, fields_append, fields_toList, willFields,
      Option.map_some, Option.getD_some, List.append_assoc, List.append_nil]
  have total : 12 + (fields info.strings).length ≤ 1277 := short
  rw [payload] at total
  simp only [List.length_append, field_length] at total
  have idShort : id.length < 65536 := by omega
  have part : ∀ {s : Option (List UInt8)}, ((s.map field).getD []).length ≤ 1277 →
      (s.getD []).length < 65536 := by
    intro s small
    cases s with
    | none => exact Nat.succ_pos _
    | some s =>
      simp only [Option.map_some, Option.getD_some, field_length] at small ⊢
      omega
  have topicShort := @part (given info.willTopic) (by omega)
  have messageShort := @part message (by omega)
  have usernameShort := @part (given info.username) (by omega)
  have passwordShort := @part (given info.password) (by omega)
  unfold decodePayload
  simp only [payload, clean, will, username, password, Option.bind_eq_bind,
    takeString_field idShort, takeIf_field topicShort, Option.bind_some]
  rw [← announced, takeIf_field messageShort]
  simp only [Option.bind_some, takeIf_field usernameShort, takeIf_field passwordShort, ↓reduceIte]
  unfold ConnectInfo.meaning ConnectInfo.truncated
  dsimp only
  rw [known]
  refine congrArg some ?_
  congr 1
  cases topic : given info.willTopic with
  | none => rfl
  | some t =>
    obtain ⟨qos, retain⟩ := details (by rw [topic]; rfl)
    have bits : 0 ≤ info.willQos % 4 := Int.emod_nonneg _ (by decide)
    simp [message, topic, qos, retain, bits]

/-- The message of a request with a client id, whose strings fit the output buffer. -/
theorem decodeConnect_built (buffer : c.bufferLength = mqttBufSize) {id : List UInt8}
    (known : given info.clientId = some id) (short : info.length ≤ 1277) :
    decodeConnect (mqttMsgConnect c info) = some info.truncated.meaning := by
  unfold mqttMsgConnect
  rw [connectBody_eq buffer, if_neg (by simp [known, short])]
  have length : (connectHeader info.flags info.keepalive ++ fields info.strings).length =
      info.length := by
    rw [List.length_append]
    rfl
  have decoded := decodeLength_append
    (decode_lengthBytes (show info.length < 16384 by omega))
    (connectHeader info.flags info.keepalive ++ fields info.strings)
  have payload := decodePayload_fields known short
  have keepalive : (UInt8.ofNat (info.keepalive / 256)).toNat * 256 +
      (UInt8.ofNat info.keepalive).toNat = info.keepalive % 65536 := by
    rw [UInt8.toNat_ofNat', UInt8.toNat_ofNat']
    omega
  unfold finish decodeConnect
  dsimp only
  rw [finiMessage_eq, length]
  dsimp only
  rw [if_neg (by decide), decoded, Option.bind_some]
  refine (if_pos ⟨?_, rfl, rfl⟩).trans ?_
  · rw [keepalive]
    exact payload
  · exact length

/-- A broker reads what the application asked for exactly where the header has room for it, and
else its truncation. Without a client id, or with strings that do not fit the output buffer, no
message is built. -/
theorem connect_read (buffer : c.bufferLength = mqttBufSize) (info : ConnectInfo) :
    if (given info.clientId).isSome = true ∧ info.length ≤ 1277 then
      decodeConnect (mqttMsgConnect c info) = some info.truncated.meaning ∧
        (decodeConnect (mqttMsgConnect c info) = some info.meaning ↔ info.Representable)
    else mqttMsgConnect c info = failMessage := by
  by_cases built : (given info.clientId).isSome = true ∧ info.length ≤ 1277
  · obtain ⟨id, known⟩ := Option.isSome_iff_exists.mp built.1
    have read := decodeConnect_built buffer known built.2
    rw [if_pos built]
    refine ⟨read, ?_⟩
    rw [read, Option.some_inj]
    exact info.truncated_meaning
  · have refused : given info.clientId = none ∨ 1277 < info.length := by
      rw [not_and_or, Option.not_isSome_iff_eq_none, Nat.not_le] at built
      exact built
    rw [if_neg built, mqttMsgConnect, connectBody_eq buffer, if_pos refused]
    rfl

/-- A request with a client id only. -/
theorem connect_read_anonymous :
    decodeConnect (mqttMsgConnect ⟨0, mqttBufSize⟩
        ⟨some [97], none, none, none, [], 120, 0, 0, 1⟩) =
      some ⟨[97], none, none, none, 120, true⟩ := by
  have read := @connect_read ⟨0, mqttBufSize⟩ rfl ⟨some [97], none, none, none, [], 120, 0, 0, 1⟩
  rw [if_pos (by decide)] at read
  exact read.2.mpr ⟨by decide, fun topic => absurd rfl topic⟩

/-! ## The message of a station -/

theorem connectCb_type (info : ConnectInfo) (client : Client) :
    (mqttTcpclientConnectCb info client).1.pendingMsgType =
      mqttGetType ((mqttTcpclientConnectCb info client).2.headD 0) := rfl

theorem connectCb_message (info : ConnectInfo) (client : Client) :
    (mqttTcpclientConnectCb info client).2 = mqttMsgConnect ⟨0, mqttBufSize⟩ info := rfl

/-- `mqtt_tcpclient_connect_cb` sends a message that says what `mqttInit` configured, expects the
answer to it, and names the station in it as no other one. -/
theorem station_connect (chipId : BitVec 32) (client : Client) :
    let r := mqttTcpclientConnectCb (stationInfo chipId) client
    decodeConnect r.2 = some (stationInfo chipId).meaning ∧
      (r.1.pendingMsgType = mqttGetType (r.2.headD 0) ∧
        r.1.pendingMsgType = MsgType.connect.code) ∧
      Function.Injective fun chipId => (stationInfo chipId).meaning.clientId := by
  have digits : (hexadecimal.numeral 8 chipId.toNat).length = 8 := hexadecimal.numeral_length _ _
  have length : (stationInfo chipId).length ≤ 1277 := by
    simp only [ConnectInfo.length, ConnectInfo.strings, ConnectInfo.willStrings, stationInfo, given,
      fields, Option.toList_some, List.flatMap_cons, List.flatMap_nil,
      List.cons_append, List.nil_append, List.length_append, List.length_cons, List.length_nil,
      field_length, digits]
    omega
  have read := @decodeConnect_built ⟨0, mqttBufSize⟩ (stationInfo chipId) rfl _ rfl length
  have whole : (stationInfo chipId).Representable :=
    ⟨show mqttKeepalive < 65536 by decide, fun _ => show (0 : Int) ≤ 0 ∧ 0 < 4 by decide⟩
  rw [(stationInfo chipId).truncated_meaning.mpr whole,
    ← connectCb_message (stationInfo chipId) client] at read
  refine ⟨read, ⟨connectCb_type _ client, ?_⟩, ?_⟩
  · have built := @connectBody_eq ⟨0, mqttBufSize⟩ (stationInfo chipId) rfl
    rw [if_neg (not_or.mpr ⟨nofun, by omega⟩)] at built
    rw [connectCb_type, connectCb_message, mqttMsgConnect, built]
    unfold finish
    dsimp only
    rw [finiMessage_eq]
    exact headerByte_type .connect 0 0 0
  · intro chipId chipId' same
    have digits : hexadecimal.numeral 8 chipId.toNat = hexadecimal.numeral 8 chipId'.toNat :=
      List.append_cancel_left same
    have wide : ∀ id : BitVec 32, id.toNat < hexadecimal.base ^ 8 := fun id => id.isLt
    have number := congrArg hexadecimal.read digits
    rw [hexadecimal.read_numeral (by decide) (wide chipId),
      hexadecimal.read_numeral (by decide) (wide chipId')] at number
    exact BitVec.eq_of_toNat_eq (Option.some.inj number)

end Domotic
