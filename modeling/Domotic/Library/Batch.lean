import Mathlib.Tactic

/-!
# Batches

A stream cut into batches of `n` terms: the terms since the last complete batch, and that batch.
One more term either lengthens the open batch or completes it.
-/
namespace Library

universe u

variable {α : Type u} {n : Nat} {xs : List α}

/-- The terms behind the last complete batch. -/
def openBatch (n : Nat) (xs : List α) : List α := xs.drop (xs.length / n * n)

/-- The last complete batch. -/
def lastBatch (n : Nat) (xs : List α) : List α :=
  (xs.take (xs.length / n * n)).drop ((xs.length / n - 1) * n)

theorem openBatch_length (n : Nat) (xs : List α) : (openBatch n xs).length = xs.length % n := by
  have split := Nat.div_add_mod' xs.length n
  rw [openBatch, List.length_drop]
  omega

theorem openBatch_empty (h : xs.length % n = 0) : openBatch n xs = [] :=
  List.eq_nil_of_length_eq_zero ((openBatch_length n xs).trans h)

section snoc
variable (x : α)

theorem batches_snoc_of_lt (room : xs.length % n + 1 < n) :
    (xs ++ [x]).length / n = xs.length / n := by
  have split := Nat.div_add_mod' xs.length n
  rw [List.length_append, List.length_singleton, Nat.div_eq_iff (by omega)]
  omega

theorem batches_snoc_of_eq (full : xs.length % n + 1 = n) :
    (xs ++ [x]).length / n = xs.length / n + 1 := by
  have split := Nat.div_add_mod' xs.length n
  rw [List.length_append, List.length_singleton, Nat.div_eq_iff (by omega)]
  rw [Nat.add_mul]
  omega

theorem openBatch_snoc_of_lt (room : xs.length % n + 1 < n) :
    openBatch n (xs ++ [x]) = openBatch n xs ++ [x] := by
  rw [openBatch, batches_snoc_of_lt x room, List.drop_append_of_le_length, openBatch]
  exact Nat.div_mul_le_self _ _

theorem lastBatch_snoc_of_lt (room : xs.length % n + 1 < n) :
    lastBatch n (xs ++ [x]) = lastBatch n xs := by
  rw [lastBatch, batches_snoc_of_lt x room, List.take_append_of_le_length, lastBatch]
  exact Nat.div_mul_le_self _ _

/-- The term that completes the open batch. -/
theorem lastBatch_snoc_of_eq (full : xs.length % n + 1 = n) :
    lastBatch n (xs ++ [x]) = openBatch n xs ++ [x] := by
  have split := Nat.div_add_mod' xs.length n
  have whole : (xs ++ [x]).length ≤ (xs.length / n + 1) * n := by
    rw [List.length_append, List.length_singleton, Nat.add_mul]
    omega
  rw [lastBatch, batches_snoc_of_eq x full, List.take_of_length_le whole, Nat.add_sub_cancel,
    List.drop_append_of_le_length (Nat.div_mul_le_self _ _), openBatch]

end snoc

/-- The last batch of a stream that ends with one. -/
theorem lastBatch_of_mod (h : xs.length % n = 0) : lastBatch n xs = xs.drop (xs.length - n) := by
  have whole : xs.length / n * n = xs.length := Nat.div_mul_cancel (Nat.dvd_of_mod_eq_zero h)
  rw [lastBatch, Nat.sub_mul, whole, List.take_length, Nat.one_mul]

end Library
