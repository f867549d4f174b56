import Mathlib.Tactic

/-!
# Registers behind a serial interface

A device with registers of one byte. The master selects it and exchanges bytes with it, a frame:
the first byte names a register and, by its highest bit, whether the registers from there on are
read, or one of them is written by the byte that follows. The registers have the addresses from
128 on, so that their highest bit is free for that.

A `Field` is some neighbouring bits of a register.
-/
namespace Library
namespace SerialRegisters

/-- A device, by what its registers show and what a write does. `pass` is what it does by itself
between two frames, `wait` what it does in a time that the master waits for, and `idle` what it
sends while it has nothing to send. -/
structure Device (σ : Type) where
  reg : σ → UInt8 → UInt8
  store : σ → UInt8 → UInt8 → σ
  pass : σ → σ
  wait : Nat → σ → σ
  idle : σ → UInt8

inductive Phase where
  | control
  | reading (a : UInt8)
  | writing (a : UInt8)

section transfers
variable {σ : Type} (dev : Device σ)

/-- One byte to the device, and the byte that it sends meanwhile. -/
def exchange (s : σ) : Phase → UInt8 → (σ × Phase) × UInt8
  | .control, b =>
    if b &&& 0x80 = 0 then ((s, .writing (b ||| 0x80)), dev.idle s)
    else ((s, .reading b), dev.idle s)
  | .reading a, _ => ((s, .reading (a + 1)), dev.reg s a)
  | .writing a, b => ((dev.store s a b, .control), dev.idle s)

def exchangeAll : σ → Phase → List UInt8 → σ × List UInt8
  | s, _, [] => (s, [])
  | s, p, b :: bs =>
    let r := exchange dev s p b
    let rest := exchangeAll r.1.1 r.1.2 bs
    (rest.1, r.2 :: rest.2)

/-- The device is selected, takes the bytes, and is released. -/
def transfer (s : σ) (bs : List UInt8) : σ × List UInt8 := exchangeAll dev (dev.pass s) .control bs

/-- The registers from `a` on. -/
def registers (s : σ) (a : UInt8) (n : Nat) : List UInt8 :=
  (List.range n).map fun i => dev.reg s (a + UInt8.ofNat i)

variable {dev} {s : σ} {a b : UInt8}

theorem registers_succ (n : Nat) :
    registers dev s a (n + 1) = dev.reg s a :: registers dev s (a + 1) n := by
  simp only [registers, List.range_succ_eq_map, List.map_cons, List.map_map, List.cons.injEq]
  refine ⟨by simp, List.map_congr_left fun i _ => ?_⟩
  have next : a + UInt8.ofNat (i + 1) = a + 1 + UInt8.ofNat i := by
    rw [UInt8.ofNat_add, UInt8.add_assoc, UInt8.add_comm 1]
    rfl
  exact congrArg _ next

theorem exchangeAll_reading (bs : List UInt8) (a : UInt8) :
    exchangeAll dev s (.reading a) bs = (s, registers dev s a bs.length) := by
  induction bs generalizing a with
  | nil => rfl
  | cons b bs ih =>
    rw [List.length_cons, registers_succ]
    simp only [exchangeAll, exchange, ih]

theorem read_bit (a : UInt8) : (a ||| 0x80) &&& 0x80 ≠ 0 := by
  cases a with
  | ofBitVec a => revert a; decide

theorem write_bit (a : UInt8) : a &&& 0x7F &&& 0x80 = 0 := by
  cases a with
  | ofBitVec a => revert a; decide

theorem or_of_high {a : UInt8} (high : 0x80 ≤ a) : a ||| 0x80 = a ∧ a &&& 0x7F ||| 0x80 = a := by
  cases a with
  | ofBitVec a => revert a; decide

/-- A frame that begins with a register to read returns the registers from there on, and leaves
the device as it is. -/
theorem transfer_read (bs : List UInt8) :
    transfer dev s ((a ||| 0x80) :: bs) =
      (dev.pass s, dev.idle (dev.pass s) :: registers dev (dev.pass s) (a ||| 0x80) bs.length) := by
  simp only [transfer, exchangeAll, exchange, if_neg (read_bit a), exchangeAll_reading]

/-- A frame that begins with a register to write stores one byte there. -/
theorem transfer_write (v : UInt8) :
    (transfer dev s [a &&& 0x7F, v]).1 = dev.store (dev.pass s) (a &&& 0x7F ||| 0x80) v := by
  simp only [transfer, exchangeAll, exchange, if_pos (write_bit a)]

end transfers

/-! ## Fields -/

/-- The bits `mask` of a byte, the lowest of them at `pos`. -/
structure Field where
  mask : UInt8
  pos : UInt8

namespace Field
variable (f : Field)

def get (b : UInt8) : UInt8 := (b &&& f.mask) >>> f.pos

def set (b v : UInt8) : UInt8 := (b &&& ~~~f.mask) ||| ((v <<< f.pos) &&& f.mask)

/-- What the field keeps of a value. -/
def clip (v : UInt8) : UInt8 := ((v <<< f.pos) &&& f.mask) >>> f.pos

variable {f} {m b v : UInt8}

theorem set_and_mask : f.set b v &&& f.mask = (v <<< f.pos) &&& f.mask := by
  apply UInt8.eq_iff_toBitVec_eq.mpr
  ext i small
  simp only [set, UInt8.toBitVec_and, UInt8.toBitVec_or, UInt8.toBitVec_not, BitVec.getElem_and,
    BitVec.getElem_or, BitVec.getElem_not]
  grind

theorem set_and_other (apart : f.mask &&& m = 0) : f.set b v &&& m = b &&& m := by
  have bits := congrArg UInt8.toBitVec apart
  apply UInt8.eq_iff_toBitVec_eq.mpr
  ext i small
  have bit : (f.mask.toBitVec[i] && m.toBitVec[i]) = false := by
    simpa using congrArg (·[i]) bits
  simp only [set, UInt8.toBitVec_and, UInt8.toBitVec_or, UInt8.toBitVec_not, BitVec.getElem_and,
    BitVec.getElem_or, BitVec.getElem_not]
  grind

theorem get_set : f.get (f.set b v) = f.clip v := by rw [get, set_and_mask, clip]

theorem get_set_other {g : Field} (apart : f.mask &&& g.mask = 0) :
    g.get (f.set b v) = g.get b := by
  rw [get, set_and_other apart, get]

/-- A field is read from its own bits only. -/
theorem get_and (inside : f.mask &&& m = f.mask) : f.get (b &&& m) = f.get b := by
  rw [get, get, UInt8.and_assoc, UInt8.and_comm m, inside]

end Field

end SerialRegisters
end Library
