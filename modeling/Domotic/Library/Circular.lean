import Mathlib.Tactic

/-!
# Circular memories

A window of a circular memory is read from a position on, past the last cell to the first.
-/
namespace Library

universe u
variable {α : Type u} {cell : Nat → α} {size r n i : Nat}

/-- The position after `i`. -/
def next (size i : Nat) : Nat := if size ≤ i + 1 then 0 else i + 1

/-- The `n` symbols from position `r` on. -/
def window (cell : Nat → α) (size r n : Nat) : List α :=
  (List.range n).map fun i => cell ((r + i) % size)

theorem next_lt (inside : i < size) : next size i < size := by
  unfold next
  split <;> omega

theorem next_eq (inside : i < size) : next size i = (i + 1) % size := by
  unfold next
  split
  · have wrap : i + 1 = size := by omega
    rw [wrap, Nat.mod_self]
  · exact (Nat.mod_eq_of_lt (by omega)).symm

@[simp] theorem window_length : (window cell size r n).length = n := by simp [window]

theorem window_succ :
    window cell size r (n + 1) = window cell size r n ++ [cell ((r + n) % size)] := by
  simp [window, List.range_succ]

theorem window_cons (inside : r < size) :
    window cell size r (n + 1) = cell r :: window cell size (next size r) n := by
  have shift : ∀ i, (r + (i + 1)) % size = (next size r + i) % size := by
    intro i
    rw [next_eq inside, Nat.mod_add_mod]
    congr 1
    omega
  simp [window, List.range_succ_eq_map, Nat.mod_eq_of_lt inside, Function.comp_def, shift]

/-- Two positions less than one turn apart are different cells. -/
theorem position_ne {j : Nat} (apart : i < j) (turn : j < size) :
    (r + i) % size ≠ (r + j) % size := by
  intro same
  have cancel : (j - i) % size = 0 := by
    have : (r + i) + (j - i) = r + j := by omega
    rw [← this] at same
    have := (Nat.ModEq.add_left_cancel' (r + i) (a := 0) (b := j - i) (n := size)
      (by rwa [Nat.ModEq, Nat.add_zero]))
    simpa [Nat.ModEq] using this.symm
  rw [Nat.mod_eq_of_lt (by omega)] at cancel
  omega

/-- The cell behind a window that is not full is not in it. -/
theorem window_update (room : n < size) (a : α) :
    window (Function.update cell ((r + n) % size) a) size r n = window cell size r n := by
  refine List.map_congr_left fun i hi => ?_
  exact Function.update_of_ne (position_ne (List.mem_range.mp hi) room) a cell

theorem window_take {m : Nat} (short : m ≤ n) :
    (window cell size r n).take m = window cell size r m := by
  simp [window, ← List.map_take, List.take_range, short]

end Library
