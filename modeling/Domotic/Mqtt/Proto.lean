import Domotic.Library.Stuffing
import Domotic.Library.Word
import Domotic.Mqtt.Ringbuf

/-!
# Framing in the ring

`proto.c`. `PROTO_AddRb` writes a message between two marks and escapes the marks inside it;
`PROTO_ParseRb` reads the ring byte by byte until a message ends. The parser that it declares
on its stack has an uninitialised `isBegin`.
-/
namespace Domotic
open Library

/-- The marks and the escape of `proto.c`. -/
def proto : Stuffing UInt8 where
  esc := 0x7D
  first := 0x7E
  last := 0x7F
  mask c := c ^^^ 0x20
  mask_mask c := by rw [UInt8.xor_assoc, UInt8.xor_self, UInt8.xor_zero]
  esc_ne_first := by decide
  esc_ne_last := by decide
  first_ne_last := by decide
  mask_plain c reserved := by obtain rfl | rfl | rfl := reserved <;> decide

/-- `PROTO_PARSER`; the first `dataLen` bytes of `buf`. -/
structure ProtoParser where
  data : List UInt8
  bufSize : Nat
  isEsc : UInt8
  isBegin : UInt8

/-- `PROTO_Init`, which does not write `isBegin`. -/
def protoInit (isBegin : UInt8) (bufSize : Nat) : ProtoParser := ⟨[], bufSize, 0, isBegin⟩

/-- `PROTO_ParseByte` without a callback, and whether it returned 0. -/
def ProtoParser.parseByte (p : ProtoParser) (value : UInt8) : ProtoParser × Bool :=
  if value = 0x7D then ({ p with isEsc := 1 }, false)
  else if value = 0x7E then ({ p with data := [], isEsc := 0, isBegin := 1 }, false)
  else if value = 0x7F then ({ p with isBegin := 0 }, true)
  else if p.isBegin = 0 then (p, false)
  else
    let c := if p.isEsc ≠ 0 then value ^^^ 0x20 else value
    ({ p with
      isEsc := 0
      data := if p.data.length < p.bufSize then p.data ++ [c] else p.data }, false)

/-- The loop of `PROTO_ParseRb`, which ends because every round takes a byte: `n` is the
number of bytes in the ring. -/
def protoParseRbLoop : Nat → RingBuf → ProtoParser → RingBuf × Option (List UInt8)
  | 0, q, _ => (q, none)
  | n + 1, q, p =>
    match q.get with
    | none => (q, none)
    | some (c, q) =>
      let r := p.parseByte c
      if r.2 then (q, some r.1.data) else protoParseRbLoop n q r.1

/-- `PROTO_ParseRb`, with the message it returns unless it returns -1. -/
def protoParseRb (isBegin : UInt8) (maxBufLen : Nat) (q : RingBuf) :
    RingBuf × Option (List UInt8) :=
  protoParseRbLoop q.fillCnt q (protoInit isBegin maxBufLen)

/-- `PROTO_AddRb` from its loop on, with its counter `i`. -/
def protoAddBytes : List UInt8 → Nat → RingBuf → RingBuf × Int
  | [], i, q =>
    match q.put 0x7F with
    | none => (q, -1)
    | some q => (q, int16 i)
  | c :: packet, i, q =>
    if c = 0x7D ∨ c = 0x7E ∨ c = 0x7F then
      match q.put 0x7D with
      | none => (q, -1)
      | some q =>
        match q.put (c ^^^ 0x20) with
        | none => (q, -1)
        | some q => protoAddBytes packet (i + 2) q
    else
      match q.put c with
      | none => (q, -1)
      | some q => protoAddBytes packet (i + 1) q

/-- `PROTO_AddRb` -/
def protoAddRb (q : RingBuf) (packet : List UInt8) : RingBuf × Int :=
  match q.put 0x7E with
  | none => (q, -1)
  | some q => protoAddBytes packet 2 q

/-! ## Writing -/

/-- The ring holds what it held and `bs`; it was written behind its old contents only. -/
structure RingBuf.Appended (q : RingBuf) (bs : List UInt8) (q' : RingBuf) : Prop where
  valid : q'.Valid
  contents : q'.contents = q.contents ++ bs
  pR : q'.pR = q.pR
  size : q'.size = q.size

/-- Put bytes as long as there is room, and say whether all were put. -/
def RingBuf.putAll : List UInt8 → RingBuf → RingBuf × Bool
  | [], q => (q, true)
  | c :: bs, q =>
    match q.put c with
    | none => (q, false)
    | some q => putAll bs q

theorem putAll_spec {q : RingBuf} (h : q.Valid) (bs : List UInt8) :
    (q.fillCnt + bs.length ≤ q.size ∧ (q.putAll bs).2 = true ∧
        q.Appended bs (q.putAll bs).1) ∨
      (q.size < q.fillCnt + bs.length ∧ (q.putAll bs).2 = false ∧
        ∃ written, q.Appended written (q.putAll bs).1) := by
  induction bs generalizing q with
  | nil => exact .inl ⟨h.fillCnt_le, rfl, h, (List.append_nil _).symm, rfl, rfl⟩
  | cons c bs ih =>
    cases step : q.put c with
    | none =>
      have full := RingBuf.put_eq_none.mp step
      simp only [RingBuf.putAll, step, List.length_cons]
      exact .inr ⟨by omega, trivial, [], h, (List.append_nil _).symm, rfl, rfl⟩
    | some q₁ =>
      obtain ⟨contents, pR, size⟩ := RingBuf.put_contents h step
      have count : q₁.fillCnt = q.fillCnt + 1 := by
        have := congrArg List.length contents
        simpa using this
      simp only [RingBuf.putAll, step, List.length_cons]
      have behind : ∀ {as q₂}, q₁.Appended as q₂ → q.Appended (c :: as) q₂ := fun a =>
        ⟨a.valid, by rw [a.contents, contents, List.append_assoc]; rfl, a.pR.trans pR,
          a.size.trans size⟩
      obtain ⟨room, all, appended⟩ | ⟨full, stop, written, appended⟩ :=
        ih (RingBuf.put_valid h step)
      · exact .inl ⟨by omega, all, behind appended⟩
      · exact .inr ⟨by omega, stop, c :: written, behind appended⟩

theorem putAll_append (as bs : List UInt8) (q : RingBuf) :
    q.putAll (as ++ bs) =
      if (q.putAll as).2 then (q.putAll as).1.putAll bs else q.putAll as := by
  induction as generalizing q with
  | nil => rfl
  | cons c as ih =>
    cases step : q.put c with
    | none => simp [RingBuf.putAll, step]
    | some q₁ => simpa [RingBuf.putAll, step] using ih q₁

/-- The loop of `PROTO_AddRb` puts the stuffed message and the end mark. -/
theorem protoAddBytes_eq (packet : List UInt8) (i : Nat) (q : RingBuf) :
    protoAddBytes packet i q =
      let r := q.putAll (proto.stuff packet ++ [0x7F])
      (r.1, if r.2 then int16 ↑(i + (proto.stuff packet).length) else -1) := by
  induction packet generalizing i q with
  | nil => cases step : q.put 0x7F <;> simp [protoAddBytes, RingBuf.putAll, step]
  | cons c packet ih =>
    rw [Stuffing.stuff_cons, List.append_assoc, putAll_append]
    by_cases special : c = 0x7D ∨ c = 0x7E ∨ c = 0x7F
    · have escape : proto.escape c = [0x7D, c ^^^ 0x20] := if_pos special
      cases step : q.put 0x7D with
      | none => simp [protoAddBytes, special, escape, RingBuf.putAll, step]
      | some q₁ =>
        cases step' : q₁.put (c ^^^ 0x20) with
        | none => simp [protoAddBytes, special, escape, RingBuf.putAll, step, step']
        | some q₂ =>
          simp only [protoAddBytes, special, ↓reduceIte, escape, RingBuf.putAll, step, step', ih,
            List.length_append, List.length_cons, List.length_nil]
          rw [Nat.add_assoc]
    · have escape : proto.escape c = [c] := if_neg special
      cases step : q.put c with
      | none => simp [protoAddBytes, special, escape, RingBuf.putAll, step]
      | some q₁ =>
        simp only [protoAddBytes, special, ↓reduceIte, escape, RingBuf.putAll, step, ih,
          List.length_append, List.length_cons, List.length_nil]
        rw [Nat.add_assoc]

/-- `PROTO_AddRb` puts the frame of the message. -/
theorem protoAddRb_eq (packet : List UInt8) (q : RingBuf) :
    protoAddRb q packet =
      let r := q.putAll (proto.frame packet)
      (r.1, if r.2 then int16 ↑(proto.frame packet).length else -1) := by
  have count : (proto.frame packet).length = 2 + (proto.stuff packet).length := by
    rw [Stuffing.frame_length, Stuffing.stuff_length]
    omega
  rw [count]
  unfold protoAddRb Stuffing.frame
  cases step : q.put 0x7E with
  | none => simp [RingBuf.putAll, proto, step]
  | some q₁ =>
    have start : q.putAll (proto.first :: (proto.stuff packet ++ [proto.last])) =
        q₁.putAll (proto.stuff packet ++ [0x7F]) := by simp [RingBuf.putAll, proto, step]
    rw [start]
    exact protoAddBytes_eq packet 2 q₁

/-! ## Reading -/

/-- The parser on a list of bytes: the message, and the bytes behind it. -/
def parseBytes (p : ProtoParser) : List UInt8 → Option (List UInt8 × List UInt8)
  | [] => none
  | c :: cs =>
    let r := p.parseByte c
    if r.2 then some (r.1.data, cs) else parseBytes r.1 cs

/-- The loop of `PROTO_ParseRb` parses the contents of the ring. -/
theorem protoParseRbLoop_spec {q : RingBuf} (h : q.Valid) (p : ProtoParser) :
    ∃ q', q'.Valid ∧ q'.size = q.size ∧
      protoParseRbLoop q.fillCnt q p = (q', (parseBytes p q.contents).map (·.1)) ∧
      q'.contents = ((parseBytes p q.contents).map (·.2)).getD [] := by
  generalize count : q.fillCnt = n
  induction n generalizing q p with
  | zero =>
    have empty : q.contents = [] := List.eq_nil_of_length_eq_zero (by simp [count])
    exact ⟨q, h, rfl, by simp [protoParseRbLoop, parseBytes, empty], by simp [parseBytes, empty]⟩
  | succ n ih =>
    obtain ⟨-, empty⟩ | ⟨c, q₁, step, contents, size⟩ := RingBuf.get_contents h
    · have := congrArg List.length empty
      simp [count] at this
    · have less : q₁.fillCnt = n := by
        have := congrArg List.length contents
        simp only [RingBuf.contents_length, List.length_cons, count] at this
        omega
      have valid := RingBuf.get_valid h step
      simp only [protoParseRbLoop, step, contents, parseBytes]
      split
      · exact ⟨q₁, valid, size, rfl, rfl⟩
      · obtain ⟨q', valid', size', run, rest⟩ := ih valid (p.parseByte c).1 less
        exact ⟨q', valid', size'.trans size, run, rest⟩

/-- A byte of a message is stored while there is room for it. -/
theorem parseBytes_escape {p : ProtoParser} (begun : p.isBegin ≠ 0) (plain : p.isEsc = 0)
    (short : p.data.length ≤ p.bufSize) (c : UInt8) (cs : List UInt8) :
    parseBytes p (proto.escape c ++ cs) =
      parseBytes { p with data := (p.data ++ [c]).take p.bufSize } cs := by
  have stored : (p.data ++ [c]).take p.bufSize =
      if p.data.length < p.bufSize then p.data ++ [c] else p.data := by
    split
    · exact List.take_of_length_le (by simpa using by omega)
    · exact List.take_left' (by omega)
  rw [stored]
  unfold Stuffing.escape
  split
  · rename_i special
    obtain ⟨not_esc, not_first, not_last⟩ := proto.mask_plain c special
    have back := proto.mask_mask c
    simp only [proto] at not_esc not_first not_last back
    simp [proto, parseBytes, ProtoParser.parseByte, not_esc, not_first, not_last, begun, back,
      plain]
  · rename_i special
    obtain ⟨not_esc, not_first, not_last⟩ := by simpa [Stuffing.Special, proto] using special
    simp [parseBytes, ProtoParser.parseByte, not_esc, not_first, not_last, begun, plain]

theorem parseBytes_stuff {p : ProtoParser} (begun : p.isBegin ≠ 0) (plain : p.isEsc = 0)
    (short : p.data.length ≤ p.bufSize) (msg cs : List UInt8) :
    parseBytes p (proto.stuff msg ++ cs) =
      parseBytes { p with data := (p.data ++ msg).take p.bufSize } cs := by
  induction msg generalizing p with
  | nil =>
    have whole : p.data.take p.bufSize = p.data := List.take_of_length_le short
    simp [whole]
  | cons c msg ih =>
    have next := ih (p := { p with data := (p.data ++ [c]).take p.bufSize }) begun plain
      (List.length_take_le _ _)
    rw [Stuffing.stuff_cons, List.append_assoc, parseBytes_escape begun plain short, next]
    congr 2
    obtain room | full := Nat.lt_or_ge p.data.length p.bufSize
    · rw [List.take_of_length_le (l := p.data ++ [c]) (by simpa using room), List.append_assoc]
      rfl
    · have all : p.data.length = p.bufSize := by omega
      rw [List.take_left' all, List.take_left' all, List.take_left' all]

/-- A frame is parsed from any state of the parser, as far as its buffer goes. -/
theorem parseBytes_frame (p : ProtoParser) (msg cs : List UInt8) :
    parseBytes p (proto.frame msg ++ cs) = some (msg.take p.bufSize, cs) := by
  have start : parseBytes p (proto.frame msg ++ cs) =
      parseBytes { p with data := [], isEsc := 0, isBegin := 1 }
        (proto.stuff msg ++ (0x7F :: cs)) := by
    simp [Stuffing.frame, proto, parseBytes, ProtoParser.parseByte]
  have begun : (1 : UInt8) ≠ 0 := by decide
  rw [start, parseBytes_stuff begun rfl (Nat.zero_le _)]
  simp [parseBytes, ProtoParser.parseByte]

end Domotic
