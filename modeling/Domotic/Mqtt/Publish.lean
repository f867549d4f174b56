import Domotic.Mqtt.Client

/-!
# What a successful publication leaves in the queue

`MQTT_Publish` returns `TRUE` when it has made room for the message as it is, not as the queue
stores it. A message with bytes to escape can then be dropped without a sign.
-/
namespace Domotic
open Library

variable {stack : Nat → UInt8} {c : Client} {topic : Option (List UInt8)} {data : List UInt8}
  {qos retain : Int}

/-- When `MQTT_Publish` returns `TRUE` the queue holds the messages kept, and behind them the
message if there is room for its escapes. -/
theorem publish_queue {msgs : List (List UInt8)} (h : Holds c.msgQueue msgs)
    (small : c.msgQueue.size ≤ 32767)
    (queued : (mqttPublish stack c topic data qos retain).2 = true) :
    let msg := (mqttMsgPublish c.connection topic data qos retain).2
    let kept := Outbox.kept room c.msgQueue.size (msg.length + 2) msgs
    Holds (mqttPublish stack c topic data qos retain).1.msgQueue
      (if room msg ≤ c.msgQueue.size - (kept.map room).sum then kept ++ [msg] else kept) := by
  unfold mqttPublish at queued ⊢
  generalize mqttMsgPublish c.connection topic data qos retain = r at queued ⊢
  dsimp only at queued ⊢
  split at queued
  · cases queued
  rename_i built
  rw [if_neg built]
  have fuel : msgs.length < c.msgQueue.fillCnt + 1 := Nat.lt_succ_of_le h.length_le
  obtain ⟨-, holds, size⟩ := dropUntilRoom_spec stack r.2.length h fuel
  split at queued
  · rename_i done
    rw [if_pos done]
    have put := (exec_holds holds (size.trans_le small) (.puts r.2)).1
    rw [size] at put
    simp only [QueueOp.exec, QueueOp.fifo] at put
    split
    · rename_i fits
      rwa [if_pos fits] at put
    · rename_i full
      rwa [if_neg full] at put
  · cases queued

/-- A list that is itself behind its first element repeats that element. -/
theorem eq_of_append_eq_cons {α : Type*} {x a : α} {l : List α} (h : l ++ [a] = x :: l) :
    x = a ∧ ∀ k ∈ l, k = a := by
  induction l generalizing x with
  | nil => simpa [eq_comm] using h
  | cons y l ih =>
    obtain ⟨rfl, rest⟩ := List.cons.inj h
    obtain ⟨rfl, all⟩ := ih rest
    exact ⟨rfl, by simpa using all⟩

/-- A suffix ends in a copy of `a` behind a shorter suffix only when it repeats `a`. -/
theorem suffix_append_iff {α : Type*} {a : α} {kept l : List α} (suffix : kept <:+ l) :
    (∃ old, old <:+ l ∧ kept = old ++ [a]) ↔ kept ≠ [] ∧ ∀ k ∈ kept, k = a := by
  constructor
  · rintro ⟨old, before, rfl⟩
    refine ⟨by simp, ?_⟩
    have inside : old <:+ old ++ [a] :=
      List.suffix_of_suffix_length_le before suffix (by simp)
    obtain ⟨front, eq⟩ := inside
    obtain ⟨x, rfl⟩ : ∃ x, front = [x] := by
      have := congrArg List.length eq
      exact List.length_eq_one_iff.mp (by simpa [Nat.add_comm] using this)
    have all := (eq_of_append_eq_cons eq.symm).2
    exact fun k mem => (List.mem_append.mp mem).elim (all k) List.mem_singleton.mp
  · rintro ⟨busy, all⟩
    have copies := List.eq_replicate_of_mem all
    obtain ⟨n, length⟩ := Nat.exists_eq_succ_of_ne_zero (mt List.length_eq_zero_iff.mp busy)
    rw [length] at copies
    refine ⟨List.replicate n a, ?_, copies.trans List.replicate_succ'⟩
    have tail : List.replicate n a <:+ kept := by
      rw [copies, List.replicate_succ]
      exact List.suffix_cons a _
    exact tail.trans suffix

/-- The promise of `TRUE`, that only whole oldest messages are dropped and the new one comes
last, is kept when the message fits with its escapes, or when nothing but copies of it is left
in the queue. -/
theorem publish_keeps_promise_iff {ops : List QueueOp}
    (queue : c.msgQueue = ringAfter queueBufferSize ops)
    (queued : (mqttPublish stack c topic data qos retain).2 = true) :
    let msgs := messagesAfter queueBufferSize ops
    let msg := (mqttMsgPublish c.connection topic data qos retain).2
    let kept := Outbox.kept room queueBufferSize (msg.length + 2) msgs
    (∃ old, old <:+ msgs ∧
        Holds (mqttPublish stack c topic data qos retain).1.msgQueue (old ++ [msg])) ↔
      room msg ≤ queueBufferSize - (kept.map room).sum ∨ (kept ≠ [] ∧ ∀ k ∈ kept, k = msg) := by
  obtain ⟨holds, size⟩ := @holds_after queueBufferSize (by decide) (by decide) ops
  rw [← queue] at holds size
  have after := publish_queue holds (by rw [size]; decide) queued
  rw [size] at after
  intro msgs msg kept
  have after : Holds (mqttPublish stack c topic data qos retain).1.msgQueue
      (if room msg ≤ queueBufferSize - (kept.map room).sum then kept ++ [msg] else kept) := after
  have suffix : kept <:+ msgs := Outbox.kept_suffix _
  by_cases fits : room msg ≤ queueBufferSize - (kept.map room).sum
  · rw [if_pos fits] at after
    exact iff_of_true ⟨kept, suffix, after⟩ (.inl fits)
  · rw [if_neg fits] at after
    rw [or_iff_right fits, ← suffix_append_iff suffix]
    constructor
    · rintro ⟨old, before, holds'⟩
      exact ⟨old, before, after.unique holds'⟩
    · rintro ⟨old, before, eq⟩
      exact ⟨old, before, eq ▸ after⟩

/-- Two messages wait; for 250 bytes the older one is dropped. -/
def fullQueue : List QueueOp := [.puts (List.replicate 300 1), .puts [1, 2]]

def fullClient : Client := { Client.init with msgQueue := ringAfter queueBufferSize fullQueue }

theorem publish_drops_oldest :
    ∃ old, old <:+ messagesAfter queueBufferSize fullQueue ∧
      Holds (mqttPublish (fun _ => 0) fullClient (some [97]) (List.replicate 250 2) 0 0).1.msgQueue
        (old ++
          [(mqttMsgPublish fullClient.connection (some [97]) (List.replicate 250 2) 0 0).2]) := by
  have queued :
      (mqttPublish (fun _ => 0) fullClient (some [97]) (List.replicate 250 2) 0 0).2 = true := by
    decide +kernel
  have promise := @publish_keeps_promise_iff _ fullClient _ _ _ _ fullQueue
    (by dsimp only [fullClient]) queued
  exact promise.mpr (.inl (by decide +kernel))

/-- A message too large for an empty queue with its escapes leaves it empty. -/
theorem publish_too_large (h : Holds c.msgQueue []) (small : c.msgQueue.size ≤ 32767)
    (queued : (mqttPublish stack c topic data qos retain).2 = true)
    (large : ¬ room (mqttMsgPublish c.connection topic data qos retain).2 ≤ c.msgQueue.size) :
    Holds (mqttPublish stack c topic data qos retain).1.msgQueue [] := by
  have after := publish_queue h small queued
  simp only [Outbox.kept, List.map_nil, List.sum_nil, Nat.sub_zero, if_neg large] at after
  exact after

/-- The topic `a` and 504 bytes of data, one of them to escape: `TRUE`, and an empty queue. -/
theorem publish_lost :
    (mqttPublish (fun _ => 0) Client.init (some [97]) (0x7E :: List.replicate 503 0) 0 0).2 = true ∧
    ¬ ∃ old, old <:+ messagesAfter queueBufferSize [] ∧ Holds
      (mqttPublish (fun _ => 0) Client.init (some [97]) (0x7E :: List.replicate 503 0)
        0 0).1.msgQueue
      (old ++ [(mqttMsgPublish Client.init.connection (some [97]) (0x7E :: List.replicate 503 0)
        0 0).2]) := by
  have holds : Holds Client.init.msgQueue [] := ⟨RingBuf.init_valid (by decide), rfl⟩
  have queued : (mqttPublish (fun _ => 0) Client.init (some [97]) (0x7E :: List.replicate 503 0)
      0 0).2 = true := by decide +kernel
  have full : ¬ room (mqttMsgPublish Client.init.connection (some [97])
      (0x7E :: List.replicate 503 0) 0 0).2 ≤ 512 := by decide +kernel
  have empty := publish_too_large holds (by decide) queued full
  refine ⟨queued, ?_⟩
  rintro ⟨old, -, holds'⟩
  exact List.append_ne_nil_of_right_ne_nil old (List.cons_ne_nil _ []) (empty.unique holds').symm

/-! ## A refused publication -/

/-- `MQTT_Publish` returns `FALSE` when no message is built, which leaves the queue as it was, and
when the message is larger than the queue, which empties it. -/
theorem publish_refused {msgs : List (List UInt8)} (h : Holds c.msgQueue msgs) :
    let length := (mqttMsgPublish c.connection topic data qos retain).2.length
    ((mqttPublish stack c topic data qos retain).2 = false ↔
        length = 0 ∨ c.msgQueue.size < length + 2) ∧
      (length = 0 → Holds (mqttPublish stack c topic data qos retain).1.msgQueue msgs) ∧
      (length ≠ 0 → c.msgQueue.size < length + 2 →
        Holds (mqttPublish stack c topic data qos retain).1.msgQueue []) := by
  have fuel : msgs.length < c.msgQueue.fillCnt + 1 := Nat.lt_succ_of_le h.length_le
  unfold mqttPublish
  generalize mqttMsgPublish c.connection topic data qos retain = r
  obtain ⟨made, holds, -⟩ := dropUntilRoom_spec stack r.2.length h fuel
  dsimp only
  by_cases failed : r.2.length = 0
  · rw [if_pos failed]
    exact ⟨by simp [failed], fun _ => h, fun built => absurd failed built⟩
  rw [if_neg failed]
  by_cases large : c.msgQueue.size < r.2.length + 2
  · rw [if_neg (by rw [made]; omega)]
    rw [Outbox.kept_eq_nil large] at holds
    exact ⟨by simp [large], fun none => absurd none failed, fun _ _ => holds⟩
  · rw [if_pos (made.mpr (by omega))]
    exact ⟨by simp [failed, large], fun none => absurd none failed, fun _ fits => absurd fits large⟩

theorem mqttMsgPublish_length (buffer : c.connection.bufferLength = mqttBufSize) :
    (mqttMsgPublish c.connection topic data qos retain).2.length =
      if topic.getD [] = [] ∨ 1277 < publishLength topic data qos then 0
      else if 127 < publishLength topic data qos then publishLength topic data qos + 3
      else publishLength topic data qos + 2 := by
  obtain ⟨-, id, length, eq⟩ := mqttMsgPublish_eq buffer topic data qos retain
  have body : (msbLsb (topic.getD []).length ++ topic.getD [] ++ id ++ data).length =
      publishLength topic data qos := by
    simp only [publishLength, List.length_append, length, msbLsb, List.length_cons,
      List.length_nil]
  rw [eq]
  split
  · rfl
  · rw [finiMessage_length, body]

/-- A refused publication leaves the messages in the queue, unless the queue holds some and the
message has between 508 bytes behind its fixed header and as many as the output buffer takes. -/
theorem publish_refused_keeps_iff {ops : List QueueOp}
    (queue : c.msgQueue = ringAfter queueBufferSize ops)
    (buffer : c.connection.bufferLength = mqttBufSize) :
    ((mqttPublish stack c topic data qos retain).2 = false →
        Holds (mqttPublish stack c topic data qos retain).1.msgQueue
          (messagesAfter queueBufferSize ops)) ↔
      topic.getD [] = [] ∨ publishLength topic data qos ≤ 507 ∨
        1277 < publishLength topic data qos ∨ messagesAfter queueBufferSize ops = [] := by
  obtain ⟨holds, size⟩ := @holds_after queueBufferSize (by decide) (by decide) ops
  rw [← queue] at holds size
  obtain ⟨refused, failed, emptied⟩ := @publish_refused stack c topic data qos retain _ holds
  have length := @mqttMsgPublish_length c topic data qos retain buffer
  rw [size, queueBufferSize] at refused emptied
  generalize messagesAfter queueBufferSize ops = msgs at *
  generalize (mqttMsgPublish c.connection topic data qos retain).2.length = n at *
  by_cases none : topic.getD [] = [] ∨ 1277 < publishLength topic data qos
  · rw [if_pos none] at length
    exact iff_of_true (fun _ => failed length) (none.imp id fun long => .inr (.inl long))
  rw [if_neg none] at length
  have built : n ≠ 0 := by split at length <;> omega
  have large : 512 < n + 2 ↔ 507 < publishLength topic data qos := by split at length <;> omega
  rw [not_or] at none
  by_cases short : publishLength topic data qos ≤ 507
  · refine iff_of_true (fun no => ?_) (.inr (.inl short))
    obtain zero | full := refused.mp no
    · exact absurd zero built
    · omega
  · have full : 512 < n + 2 := large.mpr (by omega)
    constructor
    · intro keeps
      have same := (keeps (refused.mpr (.inr full))).unique (emptied built full)
      exact .inr (.inr (.inr same))
    · rintro (no | small | long | rfl)
      · exact absurd no none.1
      · exact absurd small short
      · exact absurd long none.2
      · exact fun _ => emptied built full

/-- A client with a `PINGREQ` in its queue. -/
def pinging : Client := { Client.init with
  msgQueue := ringAfter queueBufferSize [.puts [0xC0, 0]] }

/-- Without a topic nothing is lost. -/
theorem publish_refused_keeps : Holds (mqttPublish (fun _ => 0) pinging none [1] 0 0).1.msgQueue
    (messagesAfter queueBufferSize [.puts [0xC0, 0]]) :=
  (@publish_refused_keeps_iff (fun _ => 0) pinging none [1] 0 0 [.puts [0xC0, 0]] rfl rfl).mpr
    (.inl rfl) rfl

/-- The topic `a` and 505 bytes of data: `FALSE`, and the `PINGREQ` is gone. -/
theorem publish_refused_drops :
    (mqttPublish (fun _ => 0) pinging (some [97]) (List.replicate 505 0) 0 0).2 = false ∧
    ¬ Holds (mqttPublish (fun _ => 0) pinging (some [97]) (List.replicate 505 0) 0 0).1.msgQueue
      (messagesAfter queueBufferSize [.puts [0xC0, 0]]) := by
  obtain ⟨holds, size⟩ := @holds_after queueBufferSize (by decide) (by decide) [.puts [0xC0, 0]]
  obtain ⟨refused, -, emptied⟩ := @publish_refused (fun _ => 0) pinging (some [97])
    (List.replicate 505 0) 0 0 _ holds
  have length : (mqttMsgPublish pinging.connection (some [97]) (List.replicate 505 0) 0
      0).2.length = 511 := by
    have body : publishLength (some [97]) (List.replicate 505 0) 0 = 508 := by
      rw [publishLength, List.length_replicate]
      rfl
    rw [mqttMsgPublish_length rfl, body]
    rfl
  rw [length] at refused emptied
  have full : pinging.msgQueue.size < 511 + 2 := size.trans_lt (by decide)
  refine ⟨refused.mpr (.inr full), fun keeps => ?_⟩
  have same := (emptied (by decide) full).unique keeps
  exact absurd same (by decide)

end Domotic
