import Domotic.Mqtt.Proto

/-!
# The outgoing queue

`queue.c`: a failing `QUEUE_Puts` puts the pointers of the ring back. What the queue is for is
a list of whole messages (`QueueOp.fifo`); `Holds` relates the ring to that list, and
`queue_refines_fifo` says that the calls on the ring return what the list would.
-/
namespace Domotic
open Library

/-- `QUEUE_Init` -/
def queueInit (bufferSize : Nat) : RingBuf := .init bufferSize

/-- `QUEUE_Puts` -/
def queuePuts (q : RingBuf) (buffer : List UInt8) : RingBuf × Int :=
  let r := protoAddRb q buffer
  if r.2 = -1 then ({ r.1 with pR := q.pR, pW := q.pW, fillCnt := q.fillCnt }, r.2) else r

/-- `QUEUE_Gets` -/
def queueGets (isBegin : UInt8) (maxLen : Nat) (q : RingBuf) : RingBuf × Option (List UInt8) :=
  protoParseRb isBegin maxLen q

/-- `QUEUE_IsEmpty` -/
def queueIsEmpty (q : RingBuf) : Bool := q.fillCnt = 0

/-- The ring holds these messages, the oldest one first. -/
structure Holds (q : RingBuf) (msgs : List (List UInt8)) : Prop where
  valid : q.Valid
  contents : q.contents = proto.frames msgs

/-- The bytes a message takes in the ring. -/
def room (msg : List UInt8) : Nat := msg.length + proto.specials msg + 2

namespace Holds
variable {q : RingBuf} {msgs : List (List UInt8)}

theorem unique {msgs' : List (List UInt8)} (h : Holds q msgs) (h' : Holds q msgs') :
    msgs = msgs' := proto.frames_injective (h.contents.symm.trans h'.contents)

theorem fillCnt_eq (h : Holds q msgs) : q.fillCnt = (msgs.map room).sum := by
  have length := congrArg List.length h.contents
  rw [RingBuf.contents_length] at length
  rw [length]
  clear h length
  induction msgs with
  | nil => rfl
  | cons msg msgs ih =>
    rw [Stuffing.frames_cons, List.length_append, ih, Stuffing.frame_length, List.map_cons,
      List.sum_cons, room]

/-- Every message takes at least two bytes. -/
theorem length_le (h : Holds q msgs) : msgs.length ≤ q.fillCnt := by
  rw [h.fillCnt_eq]
  clear h
  induction msgs with
  | nil => exact Nat.le_refl 0
  | cons msg msgs ih =>
    rw [List.map_cons, List.sum_cons, List.length_cons, room]
    omega

/-- A put with enough room appends the message. -/
theorem puts (h : Holds q msgs) (small : q.size ≤ 32767) {msg : List UInt8}
    (fits : q.fillCnt + room msg ≤ q.size) :
    (queuePuts q msg).2 = room msg ∧ Holds (queuePuts q msg).1 (msgs ++ [msg]) ∧
      (queuePuts q msg).1.size = q.size := by
  have length : (proto.frame msg).length = room msg := proto.frame_length msg
  obtain ⟨-, all, appended⟩ | ⟨full, -⟩ := putAll_spec h.valid (proto.frame msg)
  · have ret : int16 ↑(room msg) = room msg := int16_of_range (by omega) (by omega)
    have kept : (room msg : Int) ≠ -1 := by omega
    have whole : queuePuts q msg = ((q.putAll (proto.frame msg)).1, ↑(room msg)) := by
      simp [queuePuts, protoAddRb_eq, all, length, ret, kept]
    rw [whole]
    refine ⟨rfl, ⟨appended.valid, ?_⟩, appended.size⟩
    rw [appended.contents, h.contents, Stuffing.frames_append]
    simp
  · omega

/-- A put without enough room fails and changes nothing. -/
theorem puts_full (h : Holds q msgs) {msg : List UInt8} (full : q.size < q.fillCnt + room msg) :
    (queuePuts q msg).2 = -1 ∧ Holds (queuePuts q msg).1 msgs ∧
      (queuePuts q msg).1.size = q.size := by
  have length : (proto.frame msg).length = room msg := proto.frame_length msg
  obtain ⟨fits, -⟩ | ⟨-, stop, written, appended⟩ := putAll_spec h.valid (proto.frame msg)
  · omega
  · have whole : queuePuts q msg =
        ({ (q.putAll (proto.frame msg)).1 with pR := q.pR, pW := q.pW, fillCnt := q.fillCnt },
          -1) := by
      simp [queuePuts, protoAddRb_eq, stop]
    rw [whole]
    obtain ⟨-, contents, pR, size⟩ := appended
    refine ⟨rfl, ⟨⟨?_, ?_, ?_⟩, ?_⟩, size⟩
    · exact size ▸ h.valid.pR_lt
    · exact size ▸ h.valid.pW_eq
    · exact size ▸ h.valid.fillCnt_le
    · -- the old bytes are the first ones of what the ring held when it was full
      have longer : q.fillCnt ≤ (q.putAll (proto.frame msg)).1.fillCnt := by
        have := congrArg List.length contents
        simp only [RingBuf.contents_length, List.length_append] at this
        omega
      have old := congrArg (List.take q.fillCnt) contents
      rw [RingBuf.contents, window_take longer, pR,
        List.take_left' RingBuf.contents_length] at old
      rw [← h.contents, ← old]
      rfl

/-- A get takes the oldest message, and returns as much of it as its buffer holds. -/
theorem gets {msg : List UInt8} (h : Holds q (msg :: msgs)) (isBegin : UInt8) (maxLen : Nat) :
    (queueGets isBegin maxLen q).2 = some (msg.take maxLen) ∧
      Holds (queueGets isBegin maxLen q).1 msgs ∧
      (queueGets isBegin maxLen q).1.size = q.size := by
  obtain ⟨q', valid, size, run, rest⟩ :=
    protoParseRbLoop_spec h.valid (protoInit isBegin maxLen)
  have parse := parseBytes_frame (protoInit isBegin maxLen) msg (proto.frames msgs)
  rw [h.contents, Stuffing.frames_cons, parse] at run rest
  rw [queueGets, protoParseRb, run]
  exact ⟨rfl, ⟨valid, rest⟩, size⟩

/-- A get from an empty queue fails and leaves it empty. -/
theorem gets_nil (h : Holds q []) (isBegin : UInt8) (maxLen : Nat) :
    (queueGets isBegin maxLen q).2 = none ∧ Holds (queueGets isBegin maxLen q).1 [] ∧
      (queueGets isBegin maxLen q).1.size = q.size := by
  obtain ⟨q', valid, size, run, rest⟩ :=
    protoParseRbLoop_spec h.valid (protoInit isBegin maxLen)
  rw [h.contents] at run rest
  rw [queueGets, protoParseRb, run]
  exact ⟨rfl, ⟨valid, rest⟩, size⟩

end Holds

/-! ## The queue as a list -/

inductive QueueOp where
  | puts (buffer : List UInt8)
  /-- The parser finds `isBegin` on its stack. -/
  | gets (isBegin : UInt8) (maxLen : Nat)

/-- What a call returns: a status, or a message unless it is -1. -/
inductive QueueResult where
  | status (ret : Int)
  | message (msg : Option (List UInt8))
  deriving DecidableEq

/-- A call on the ring. -/
def QueueOp.exec (q : RingBuf) : QueueOp → RingBuf × QueueResult
  | .puts buffer => ((queuePuts q buffer).1, .status (queuePuts q buffer).2)
  | .gets isBegin maxLen =>
    ((queueGets isBegin maxLen q).1, .message (queueGets isBegin maxLen q).2)

/-- The same call on the list of messages of a queue of `size` bytes. -/
def QueueOp.fifo (size : Nat) (msgs : List (List UInt8)) : QueueOp → List (List UInt8) × QueueResult
  | .puts buffer =>
    if room buffer ≤ size - (msgs.map room).sum then (msgs ++ [buffer], .status (room buffer))
    else (msgs, .status (-1))
  | .gets _ _ =>
    match msgs with
    | [] => ([], .message none)
    | msg :: msgs => (msgs, .message (some msg))

/-- The results of a sequence of calls. -/
def results {S : Type} (call : S → QueueOp → S × QueueResult) : S → List QueueOp → List QueueResult
  | _, [] => []
  | s, op :: ops => (call s op).2 :: results call (call s op).1 ops

/-- A call on the ring follows the call on the list. -/
theorem exec_holds {q : RingBuf} {msgs : List (List UInt8)} (h : Holds q msgs)
    (small : q.size ≤ 32767) (op : QueueOp) :
    Holds (op.exec q).1 (op.fifo q.size msgs).1 ∧ (op.exec q).1.size = q.size ∧
      ((∀ isBegin maxLen, op = .gets isBegin maxLen → ∀ msg ∈ msgs, msg.length ≤ maxLen) →
        (op.exec q).2 = (op.fifo q.size msgs).2) := by
  cases op with
  | puts buffer =>
    have used := h.fillCnt_eq
    have filled := h.valid.fillCnt_le
    by_cases free : room buffer ≤ q.size - (msgs.map room).sum
    · have fits : q.fillCnt + room buffer ≤ q.size := by
        unfold room at *
        omega
      obtain ⟨ret, holds, size⟩ := h.puts small fits
      simp only [QueueOp.exec, QueueOp.fifo, free, ↓reduceIte, ret]
      exact ⟨holds, size, fun _ => trivial⟩
    · have full : q.size < q.fillCnt + room buffer := by omega
      obtain ⟨ret, holds, size⟩ := h.puts_full full
      simp only [QueueOp.exec, QueueOp.fifo, free, ↓reduceIte, ret]
      exact ⟨holds, size, fun _ => trivial⟩
  | gets isBegin maxLen =>
    cases msgs with
    | nil =>
      obtain ⟨ret, holds, size⟩ := h.gets_nil isBegin maxLen
      simp only [QueueOp.exec, QueueOp.fifo, ret]
      exact ⟨holds, size, fun _ => trivial⟩
    | cons msg msgs =>
      obtain ⟨ret, holds, size⟩ := h.gets isBegin maxLen
      simp only [QueueOp.exec, QueueOp.fifo, ret]
      refine ⟨holds, size, fun fits => ?_⟩
      rw [List.take_of_length_le (fits isBegin maxLen rfl msg List.mem_cons_self)]

/-- The ring after a sequence of calls, from `QUEUE_Init` on. -/
def ringAfter (size : Nat) (ops : List QueueOp) : RingBuf :=
  ops.foldl (fun q op => (op.exec q).1) (queueInit size)

/-- The messages in the queue after a sequence of calls. -/
def messagesAfter (size : Nat) (ops : List QueueOp) : List (List UInt8) :=
  ops.foldl (fun msgs op => (op.fifo size msgs).1) []

/-- After any calls the ring holds whole messages. -/
theorem holds_after {size : Nat} (two : 2 ≤ size) (small : size ≤ 32767) (ops : List QueueOp) :
    Holds (ringAfter size ops) (messagesAfter size ops) ∧ (ringAfter size ops).size = size := by
  induction ops using List.reverseRecOn with
  | nil => exact ⟨⟨RingBuf.init_valid (by omega), rfl⟩, rfl⟩
  | append_singleton ops op ih =>
    obtain ⟨holds, bound⟩ := ih
    obtain ⟨holds', bound', -⟩ := exec_holds holds (bound.trans_le small) op
    rw [bound] at holds' bound'
    simpa [ringAfter, messagesAfter] using And.intro holds' bound'

/-- A message of the list was there or was just put. -/
theorem mem_fifo {size : Nat} {msgs : List (List UInt8)} {op : QueueOp} {msg : List UInt8}
    (mem : msg ∈ (op.fifo size msgs).1) : msg ∈ msgs ∨ op = .puts msg := by
  cases op with
  | puts buffer =>
    by_cases free : room buffer ≤ size - (msgs.map room).sum
    · simp only [QueueOp.fifo, free, ↓reduceIte, List.mem_append, List.mem_singleton] at mem
      exact mem.imp id fun eq => by rw [eq]
    · simp only [QueueOp.fifo, free, ↓reduceIte] at mem
      exact .inl mem
  | gets isBegin maxLen =>
    cases msgs with
    | nil => simp [QueueOp.fifo] at mem
    | cons first msgs =>
      simp only [QueueOp.fifo] at mem
      exact .inl (List.mem_cons_of_mem first mem)

theorem results_eq {q : RingBuf} {msgs : List (List UInt8)} (h : Holds q msgs)
    (small : q.size ≤ 32767) (ops : List QueueOp)
    (fits : ∀ msg isBegin maxLen, (msg ∈ msgs ∨ .puts msg ∈ ops) → .gets isBegin maxLen ∈ ops →
      msg.length ≤ maxLen) :
    results QueueOp.exec q ops = results (QueueOp.fifo q.size) msgs ops := by
  induction ops generalizing q msgs with
  | nil => rfl
  | cons op ops ih =>
    obtain ⟨holds, size, same⟩ := exec_holds h small op
    have ret := same fun isBegin maxLen eq msg mem =>
      fits msg isBegin maxLen (.inl mem) (eq ▸ List.mem_cons_self)
    have rest := ih holds (size ▸ small) fun msg isBegin maxLen mem later => by
      refine fits msg isBegin maxLen ?_ (List.mem_cons_of_mem op later)
      obtain old | put := mem
      · obtain before | now := mem_fifo old
        · exact .inl before
        · exact .inr (now ▸ List.mem_cons_self)
      · exact .inr (List.mem_cons_of_mem op put)
    rw [size] at rest
    simp only [results, ret, rest]

/-- The queue is a FIFO of whole messages. -/
theorem queue_refines_fifo {size : Nat} (two : 2 ≤ size) (small : size ≤ 32767)
    {ops : List QueueOp} (fits : ∀ msg isBegin maxLen, .puts msg ∈ ops →
      .gets isBegin maxLen ∈ ops → msg.length ≤ maxLen) :
    results QueueOp.exec (queueInit size) ops = results (QueueOp.fifo size) [] ops := by
  have empty : Holds (queueInit size) [] := ⟨RingBuf.init_valid (by omega), rfl⟩
  exact results_eq empty small ops fun msg isBegin maxLen mem later =>
    fits msg isBegin maxLen (mem.resolve_left List.not_mem_nil) later

/-- A ring of eight bytes: the second message does not fit and leaves the first one alone. -/
theorem queue_refines_fifo_full :
    results QueueOp.exec (queueInit 8) [.puts [0x7E, 5], .puts [1, 2, 3], .gets 7 3, .gets 0 3] =
      [.status 5, .status (-1), .message (some [0x7E, 5]), .message none] := by
  rw [queue_refines_fifo (by decide) (by decide)]
  · decide
  · intro msg isBegin maxLen put get
    simp only [List.mem_cons, QueueOp.puts.injEq, QueueOp.gets.injEq, reduceCtorEq, false_or,
      or_false, List.not_mem_nil] at put get
    obtain rfl | rfl := put <;> obtain ⟨-, rfl⟩ | ⟨-, rfl⟩ := get <;> decide

end Domotic
