import Domotic.App.Frame
import Domotic.Mqtt.Receive

/-!
# Where the message handlers read

`mqttDataCb` gets a pointer and a length. Only the `PWM` part compares its indices with the
length; the `TRIACK` and `STORE` parts read the command, and its value behind `S`, whatever the
length is, and the `RELAY` part always reads the second byte.
-/
namespace Domotic
open Library

namespace Reads

/-- The indices that the computation reads are below `n` exactly when `C` holds. -/
def Needs {α : Type} (r : Reads α) (n : Nat) (C : Prop) : Prop :=
  ∀ log, (∀ i ∈ (r log).2, i < n) ↔ (∀ i ∈ log, i < n) ∧ C

variable {α β : Type} {n : Nat} {C D : Prop} {r r' : Reads α} {f : α → Reads β}

theorem needs_congr (h : r.Needs n C) (same : C ↔ D) : r.Needs n D := fun log =>
  (h log).trans (and_congr_right fun _ => same)

theorem needs_pure (a : α) : Reads.Needs (Pure.pure a) n True := fun _ =>
  (and_iff_left trivial).symm

theorem needs_bind (first : r.Needs n C) (next : ∀ a, (f a).Needs n D) :
    Reads.Needs (r >>= f) n (C ∧ D) := fun log => by
  refine (next (r log).1 (r log).2).trans ?_
  rw [first log, and_assoc]

theorem needs_ite {c : Prop} [Decidable c] (h : c → r.Needs n C) (h' : ¬ c → r'.Needs n D) :
    Reads.Needs (if c then r else r') n ((c → C) ∧ (¬ c → D)) := by
  split
  · rename_i yes
    exact needs_congr (h yes) (by simp [yes])
  · rename_i no
    exact needs_congr (h' no) (by simp [no])

variable {data : Nat → UInt8} {f : UInt8 → Reads β}

theorem needs_read {i : Nat} (next : (f (data i)).Needs n C) :
    Reads.Needs (readData data i >>= f) n (i < n ∧ C) := fun log => by
  refine (next (log ++ [i])).trans ?_
  simp only [List.mem_append, List.mem_singleton, or_imp, forall_and, forall_eq, and_assoc]

/-- What follows reads nothing beyond this index. -/
theorem needs_only {i : Nat} (next : (f (data i)).Needs n C) (free : i < n → C) :
    Reads.Needs (readData data i >>= f) n (i < n) :=
  needs_congr (needs_read next) (and_iff_left_of_imp free)

end Reads

open Reads

variable {b : Build} {data : Nat → UInt8} {dataLen : Nat} {e : Env}

/-- The command, and its value behind `S`. -/
def CommandFits (data : Nat → UInt8) (dataLen : Nat) : Prop :=
  0 < dataLen ∧ (data 0 = 83 → 1 < dataLen)

/-- Only `S` has a value. -/
theorem needs_command {α : Type} {r r' : Reads α} (value : r.Needs dataLen (1 < dataLen))
    (other : r'.Needs dataLen True) :
    Reads.Needs (readData data 0 >>= fun command => if command = 83 then r else r') dataLen
      (CommandFits data dataLen) :=
  needs_read (needs_congr (needs_ite (fun _ => value) fun _ => other)
    (and_iff_left fun _ => trivial))

theorem triackCommand_needs :
    (triackCommand b data e).Needs dataLen (CommandFits data dataLen) := by
  refine needs_command ?_ (needs_pure e)
  split
  · refine needs_only (C := True) ?_ fun _ => trivial
    split
    · exact needs_pure _
    · exact needs_pure _
  · refine needs_only (needs_ite (C := ¬ b.triackOnOff = true → 1 < dataLen) (fun _ => ?_)
      fun _ => needs_pure _) fun fits => ⟨fun _ _ => fits, fun _ => trivial⟩
    refine needs_congr (needs_ite (fun _ => needs_pure _) fun _ => ?_)
      (and_iff_right fun _ => trivial)
    refine needs_only (needs_ite (fun _ => needs_pure _) fun _ =>
      needs_only (needs_pure _) fun _ => trivial) fun fits => ⟨fun _ => trivial, fun _ => fits⟩

theorem triackToggle_needs : (triackToggle data e).Needs dataLen (0 < dataLen) := by
  refine needs_only (C := True) ?_ fun _ => trivial
  split
  · split
    · exact needs_pure _
    · exact needs_pure _
  · exact needs_pure _

theorem mqttDataTriack_needs :
    (mqttDataTriack b data e).Needs dataLen (CommandFits data dataLen) :=
  needs_congr (needs_bind triackCommand_needs fun _ => triackToggle_needs)
    (and_iff_left_of_imp fun fits => fits.1)

theorem mqttDataStore_needs :
    (mqttDataStore data e).Needs dataLen (CommandFits data dataLen) :=
  needs_command (needs_only (needs_pure _) fun _ => trivial) (needs_pure e)

/-- A channel that has a byte is inside, and so is the command in front of it. -/
theorem mqttDataPwm_needs (ls : List Nat) :
    (mqttDataPwm data dataLen ls e).Needs dataLen True := by
  induction ls generalizing e with
  | nil => exact needs_pure e
  | cons l ls ih =>
    unfold mqttDataPwm
    split
    · rename_i inside
      have command : (pwmCommand data l e).Needs dataLen True := by
        refine needs_congr (needs_read (C := data 0 = 83 → 1 + l < dataLen) ?_) ?_
        · refine needs_congr (needs_ite (C := 1 + l < dataLen) (fun _ => ?_) fun _ => needs_pure e)
            (and_iff_left fun _ => trivial)
          exact needs_only (needs_ite (fun _ => needs_pure _) fun _ =>
            needs_only (needs_pure _) fun _ => trivial)
            fun fits => ⟨fun _ => trivial, fun _ => fits⟩
        · exact iff_true_intro ⟨by omega, fun _ => by omega⟩
      have toggle : ∀ e', (pwmToggle data l e').Needs dataLen True := fun e' => by
        refine needs_congr (needs_only (C := True) ?_ fun _ => trivial)
          (iff_true_intro (by omega))
        split
        · exact needs_pure _
        · exact needs_pure _
      exact needs_congr (needs_bind command fun e' => needs_bind (toggle e') fun _ => ih) (by simp)
    · exact needs_pure e

theorem mqttDataRelay_needs : (mqttDataRelay data e).Needs dataLen (1 < dataLen) := by
  refine needs_only (C := True) ?_ fun _ => trivial
  split
  · exact needs_pure _
  · exact needs_pure _

/-- What a message must have for its handler to stay inside it. -/
def MessageFits (b : Build) (data : Nat → UInt8) (dataLen : Nat) : Prop :=
  (b.triack = true → CommandFits data dataLen) ∧ (b.relay = true → 1 < dataLen)

/-- The `PWM` part stays inside every message. -/
theorem mqttDataCb_needs :
    (mqttDataCb b data dataLen e).Needs dataLen (MessageFits b data dataLen) := by
  have triack : ∀ e', Reads.Needs (if b.triack && !b.isStore then mqttDataTriack b data e'
      else pure e') dataLen (b.triack = true → b.isStore = false → CommandFits data dataLen) :=
    fun e' => needs_congr (needs_ite (fun _ => mqttDataTriack_needs) fun _ => needs_pure e')
      (by simp)
  have pwm : ∀ e', Reads.Needs (if b.pwm then
      if b.isStore then mqttDataStore data e' else mqttDataPwm data dataLen (List.range b.nbPwm) e'
      else pure e') dataLen (b.isStore = true → CommandFits data dataLen) := fun e' => by
    cases b <;> exact needs_congr (by first
      | exact mqttDataStore_needs
      | exact mqttDataPwm_needs _
      | exact needs_pure e') (by simp)
  have relay : ∀ e', Reads.Needs (if b.relay then mqttDataRelay data e' else pure e') dataLen
      (b.relay = true → 1 < dataLen) := fun e' =>
    needs_congr (needs_ite (fun _ => mqttDataRelay_needs) fun _ => needs_pure e') (by simp)
  have all := needs_bind (triack (restartDisconnect b e)) fun e' => needs_bind (pwm e') relay
  refine needs_congr all ?_
  cases b <;> simp [MessageFits]

/-! ## The payload of a packet -/

/-- The bytes that the data pointer of a callback points to. -/
def Delivery.memory (null : Nat → UInt8) (d : Delivery) : Nat → UInt8 :=
  match d.data with
  | none => null
  | some i => fun k => d.inBuffer (i + k)

/-- The payload of the packet at the front. -/
def publishPayload (pdata : List UInt8) : List UInt8 :=
  match mqttGetPublishData pdata with
  | (none, _) => []
  | (some i, n) => (pdata.drop i).take n

variable {pdata seg : List UInt8} {c : Client}

/-- A payload lies inside the segment; a missing one has no length. -/
theorem publishData_inside :
    mqttGetPublishData pdata = (none, 0) ∨
      ∃ i n, mqttGetPublishData pdata = (some i, n) ∧ i + n ≤ pdata.length := by
  unfold mqttGetPublishData
  generalize fixedHeader pdata = h
  dsimp only
  generalize int32 (h.1 + h.2) = totlen
  generalize h.2 + 2 + topicLength pdata h.2 = i
  split
  · exact .inl rfl
  · split
    · exact .inl rfl
    · rename_i topicEnds
      split
      · exact .inl rfl
      · rename_i idEnds
        have start : (if 0 < mqttGetQos (pdata.getD 0 0) then i + 2 else i) ≤ pdata.length := by
          split
          · rename_i acknowledged
            have := fun short => idEnds ⟨acknowledged, short⟩
            omega
          · omega
        generalize (if 0 < mqttGetQos (pdata.getD 0 0) then i + 2 else i) = i at start ⊢
        split
        · exact .inl rfl
        · split
          · exact .inr ⟨i, _, rfl, by omega⟩
          · exact .inr ⟨i, _, rfl, by omega⟩

theorem publishPayload_length :
    (publishPayload pdata).length = (mqttGetPublishData pdata).2 := by
  unfold publishPayload
  rcases @publishData_inside pdata with missing | ⟨i, n, found, inside⟩
  · rw [missing]
    rfl
  · rw [found]
    dsimp only
    rw [List.length_take, List.length_drop]
    omega

/-- The callback sees the payload at the pointer that it gets. -/
theorem deliverPublish_memory (null : Nat → UInt8) {k : Nat}
    (inside : k < (publishPayload pdata).length) :
    (deliverPublish (c.store pdata).inBuffer pdata).memory null k =
      (publishPayload pdata).getD k 0 := by
  rw [publishPayload_length] at inside
  unfold Delivery.memory deliverPublish publishPayload
  rcases @publishData_inside pdata with missing | ⟨i, n, found, bounds⟩
  · rw [missing] at inside
    cases inside
  · rw [found] at inside ⊢
    dsimp only at inside ⊢
    have here : i + k < pdata.length := by omega
    simp [Client.store, here, inside]

/-- A handler stays inside a payload that has a command, a value behind `S` and, with a relay, a
second byte. -/
def PayloadFits (b : Build) (payload : List UInt8) : Prop :=
  (b.triack = true → payload ≠ [] ∧ (payload.head? = some 83 → 2 ≤ payload.length)) ∧
    (b.relay = true → 2 ≤ payload.length)

theorem messageFits_iff (b : Build) (null : Nat → UInt8) :
    MessageFits b ((deliverPublish (c.store pdata).inBuffer pdata).memory null)
        (mqttGetPublishData pdata).2 ↔ PayloadFits b (publishPayload pdata) := by
  rw [← publishPayload_length]
  have first := @deliverPublish_memory pdata c null 0
  generalize (deliverPublish (c.store pdata).inBuffer pdata).memory null = data at first ⊢
  unfold MessageFits CommandFits PayloadFits
  cases payload : publishPayload pdata with
  | nil => simp
  | cons x xs =>
    have command : data 0 = x := by simpa [payload] using first (by simp [payload])
    rw [command]
    simp [Nat.succ_le_iff]

/-! ## A whole segment -/

/-- `dataCb` is called for every `PUBLISH` that the jumps lead to. -/
theorem dataCb_iff {s : Client × List UInt8} (h : Receiving s) (callbacks : s.1.callbacks = true)
    {d : Delivery} :
    (∃ n, .dataCb d ∈ (loop recvRound n s).out) ↔
      ∃ c' seg, Reached recvRound s (c', seg) ∧ packetType seg = MsgType.publish.code ∧
        d = deliverPublish (Client.store c' seg).inBuffer seg := by
  have emits : ∀ t, Reached recvRound s t →
      (.dataCb d ∈ (recvRound t).out ↔ packetType t.2 = MsgType.publish.code ∧
        d = deliverPublish (t.1.store t.2).inBuffer t.2) := fun t reached => by
    have called : (t.1.store t.2).callbacks = true := (h.callbacks_reached reached).trans callbacks
    rw [recvRound_out (h.reached reached), recvPacket_out]
    simp only [called, and_true]
    split
    · rename_i publish
      simp [publish]
    · rename_i other
      simp [other]
  rw [mem_loop_out]
  constructor
  · rintro ⟨t, reached, mem⟩
    exact ⟨t.1, t.2, reached, (emits t reached).mp mem⟩
  · rintro ⟨c', seg, reached, mem⟩
    exact ⟨(c', seg), reached, (emits _ reached).mpr mem⟩

/-- In an established session every index that `mqttDataCb` reads is inside the payload, for
every packet of the segment that the code handles, exactly when each payload has the bytes that
its handler looks at. -/
theorem commands_read_inside_iff (b : Build) (null : Nat → UInt8) (established : c.Established)
    (callbacks : c.callbacks = true) (short : pdata.length < mqttBufSize)
    (nonempty : 0 < pdata.length) :
    (∀ n d e, .dataCb d ∈ (recvLoop c pdata n).out →
        ∀ i ∈ (mqttDataCb b (d.memory null) d.dataLength e []).2, i < d.dataLength) ↔
      ∀ seg, Relation.ReflTransGen Jump pdata seg → packetType seg = MsgType.publish.code →
        PayloadFits b (publishPayload seg) := by
  have receiving : Receiving ({ c with keepAliveTick := 0 }, pdata) :=
    ⟨established, short, nonempty⟩
  have inside : ∀ (c' : Client) seg e, (∀ i ∈ (mqttDataCb b
      ((deliverPublish (c'.store seg).inBuffer seg).memory null)
      (deliverPublish (c'.store seg).inBuffer seg).dataLength e []).2,
      i < (deliverPublish (c'.store seg).inBuffer seg).dataLength) ↔
        PayloadFits b (publishPayload seg) := fun c' seg e => by
    rw [← @messageFits_iff seg c' b null]
    exact (mqttDataCb_needs []).trans (and_iff_right (by simp))
  constructor
  · intro h seg jumps publish
    obtain ⟨c', reached⟩ := (reached_iff receiving).mpr jumps
    obtain ⟨n, delivered⟩ := (dataCb_iff receiving callbacks).mpr ⟨c', seg, reached, publish, rfl⟩
    exact (inside c' seg (Env.boot b 0 [])).mp (h n _ _ delivered)
  · intro h n d e delivered
    obtain ⟨c', seg, reached, publish, rfl⟩ := (dataCb_iff receiving callbacks).mp ⟨n, delivered⟩
    exact (inside c' seg e).mpr (h seg ((reached_iff receiving).mp ⟨c', reached⟩) publish)

/-- The dimmer of two channels stays inside an empty message. -/
theorem empty_command_read_inside :
    Receiving ({ Client.init with connState := .mqttData }, [0x30, 3, 0, 1, 97]) ∧
      ∀ n d e, .dataCb d ∈ (recvLoop { Client.init with connState := .mqttData }
          [0x30, 3, 0, 1, 97] n).out →
        ∀ i ∈ (mqttDataCb .pwm12V (d.memory fun _ => 0) d.dataLength e []).2, i < d.dataLength :=
  ⟨⟨.inl rfl, by decide, by decide⟩,
    (commands_read_inside_iff .pwm12V (fun _ => 0) (.inl rfl) rfl (by decide) (by decide)).mpr
      fun _ _ _ => ⟨nofun, nofun⟩⟩

/-- The triac build reads the command of an empty message, at `NULL`. -/
theorem empty_command_read_outside :
    ¬ ∀ n d e, .dataCb d ∈ (recvLoop { Client.init with connState := .mqttData }
        [0x30, 3, 0, 1, 97] n).out →
      ∀ i ∈ (mqttDataCb .prise (d.memory fun _ => 0) d.dataLength e []).2, i < d.dataLength := by
  intro h
  have receiving : Receiving ({ Client.init with connState := .mqttData, keepAliveTick := 0 },
      [0x30, 3, 0, 1, 97]) := ⟨.inl rfl, by decide, by decide⟩
  obtain ⟨n, delivered⟩ := (dataCb_iff receiving rfl).mpr ⟨_, _, .refl, by decide, rfl⟩
  have inside := h n _ (Env.boot .prise 0 []) delivered
  have fits := ((mqttDataCb_needs []).mp inside).2.1 rfl
  exact absurd fits.1 (by decide)

end Domotic
