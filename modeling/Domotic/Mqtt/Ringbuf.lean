import Domotic.Library.Circular

/-!
# The ring buffer

`ringbuf.c`. The three pointers are offsets from `p_o`. `RingBuf.contents` is what the ring
holds, oldest byte first; `put` and `get` are the two ends of that list.
-/
namespace Domotic
open Library

/-- `RINGBUF`, with the memory behind `p_o`. -/
structure RingBuf where
  buf : Nat → UInt8
  size : Nat
  pR : Nat
  pW : Nat
  fillCnt : Nat

namespace RingBuf

/-- `RINGBUF_Init` over a zeroed memory. -/
def init (size : Nat) : RingBuf := ⟨fun _ => 0, size, 0, 0, 0⟩

/-- `RINGBUF_Put` -/
def put (q : RingBuf) (c : UInt8) : Option RingBuf :=
  if q.size ≤ q.fillCnt then none
  else some { q with
    fillCnt := q.fillCnt + 1
    buf := Function.update q.buf q.pW c
    pW := next q.size q.pW }

/-- `RINGBUF_Get` -/
def get (q : RingBuf) : Option (UInt8 × RingBuf) :=
  if q.fillCnt = 0 then none
  else some (q.buf q.pR, { q with fillCnt := q.fillCnt - 1, pR := next q.size q.pR })

/-- The bytes in the ring, the oldest one first. -/
def contents (q : RingBuf) : List UInt8 := window q.buf q.size q.pR q.fillCnt

structure Valid (q : RingBuf) : Prop where
  pR_lt : q.pR < q.size
  pW_eq : q.pW = (q.pR + q.fillCnt) % q.size
  fillCnt_le : q.fillCnt ≤ q.size

variable {q q' : RingBuf} {c : UInt8}

@[simp] theorem contents_length : q.contents.length = q.fillCnt := window_length

theorem init_valid {size : Nat} (positive : 0 < size) : (init size).Valid :=
  ⟨positive, (Nat.zero_mod size).symm, Nat.zero_le size⟩

theorem put_eq_none : q.put c = none ↔ q.size ≤ q.fillCnt := by
  unfold put
  split <;> simp_all

theorem put_valid (h : q.Valid) (step : q.put c = some q') : q'.Valid := by
  unfold put at step
  split at step
  · cases step
  · obtain rfl := Option.some.inj step
    obtain ⟨inside, write, fits⟩ := h
    have below : q.pW < q.size := by
      rw [write]
      exact Nat.mod_lt _ (by omega)
    refine ⟨inside, ?_, by dsimp only; omega⟩
    dsimp only
    rw [next_eq below, write, Nat.mod_add_mod, Nat.add_assoc]

/-- A put appends, and moves neither the read pointer nor the memory. -/
theorem put_contents (h : q.Valid) (step : q.put c = some q') :
    q'.contents = q.contents ++ [c] ∧ q'.pR = q.pR ∧ q'.size = q.size := by
  unfold put at step
  split at step
  · cases step
  · obtain rfl := Option.some.inj step
    refine ⟨?_, rfl, rfl⟩
    simp only [contents, window_succ, h.pW_eq, Function.update_self]
    rw [window_update (by omega)]

theorem get_valid {x : UInt8} (h : q.Valid) (step : q.get = some (x, q')) : q'.Valid := by
  unfold get at step
  split at step
  · cases step
  · obtain ⟨-, rfl⟩ := Prod.mk.inj (Option.some.inj step)
    obtain ⟨inside, write, fits⟩ := h
    refine ⟨next_lt inside, ?_, by dsimp only; omega⟩
    dsimp only
    rw [next_eq inside, write, Nat.mod_add_mod]
    congr 1
    omega

/-- A get takes the first byte. -/
theorem get_contents (h : q.Valid) :
    (q.get = none ∧ q.contents = []) ∨
      ∃ c q', q.get = some (c, q') ∧ q.contents = c :: q'.contents ∧ q'.size = q.size := by
  unfold get
  split
  · rename_i empty
    exact .inl ⟨rfl, by simp [contents, window, empty]⟩
  · rename_i busy
    obtain ⟨n, count⟩ := Nat.exists_eq_succ_of_ne_zero busy
    refine .inr ⟨_, _, rfl, ?_, rfl⟩
    simp only [contents, count, Nat.succ_eq_add_one, window_cons h.pR_lt, Nat.add_sub_cancel]

end RingBuf

end Domotic
