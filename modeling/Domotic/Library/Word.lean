import Mathlib.Tactic

/-!
# Machine integers as integers

`int32`, `int16` and `uint32` reduce an exact result to the value a register of that width
holds, read as a signed or as an unsigned number. Inside the range of the type they are the
identity.
-/
namespace Library

/-- The signed 32-bit value congruent to `x`. -/
def int32 (x : Int) : Int := (BitVec.ofInt 32 x).toInt

/-- The signed 16-bit value congruent to `x`. -/
def int16 (x : Int) : Int := (BitVec.ofInt 16 x).toInt

/-- The unsigned 32-bit value congruent to `x`. -/
def uint32 (x : Int) : Nat := (BitVec.ofInt 32 x).toNat

theorem int32_eq (x : Int) : int32 x = (x + 2147483648) % 4294967296 - 2147483648 := by
  have bmod : int32 x = x.bmod 4294967296 := BitVec.toInt_ofInt x
  rw [bmod, Int.bmod_def]
  split <;> omega

theorem uint32_eq (x : Int) : uint32 x = (x % 4294967296).toNat := BitVec.toNat_ofInt x

theorem int32_of_range {x : Int} (lo : -2147483648 ≤ x) (hi : x < 2147483648) :
    int32 x = x := by
  rw [int32_eq]
  omega

theorem int32_bounds (x : Int) : -2147483648 ≤ int32 x ∧ int32 x < 2147483648 := by
  rw [int32_eq]
  omega

theorem int16_of_range {x : Int} (lo : -32768 ≤ x) (hi : x < 32768) : int16 x = x := by
  have bmod : int16 x = x.bmod 65536 := BitVec.toInt_ofInt x
  rw [bmod, Int.bmod_def]
  split <;> omega

theorem uint32_lt (x : Int) : uint32 x < 4294967296 := by
  rw [uint32_eq]
  omega

theorem int32_eq_self_iff {x : Int} : int32 x = x ↔ -2147483648 ≤ x ∧ x < 2147483648 := by
  rw [int32_eq]
  omega

/-- The quotient of a wrapped dividend is the exact one only if the dividend did not wrap. -/
theorem tdiv_int32_iff {x d : Int} (positive : 0 < d) (small : d < 2147483648) :
    Int.tdiv (int32 x) d = Int.tdiv x d ↔ -2147483648 ≤ x ∧ x < 2147483648 := by
  refine ⟨fun same => ?_, fun ⟨lo, hi⟩ => by rw [int32_of_range lo hi]⟩
  have wrapped := Int.mul_tdiv_add_tmod (int32 x) d
  have whole := Int.mul_tdiv_add_tmod x d
  have low := Int.lt_tmod_of_pos (int32 x) positive
  have high := Int.tmod_lt_of_pos (int32 x) positive
  have low' := Int.lt_tmod_of_pos x positive
  have high' := Int.tmod_lt_of_pos x positive
  -- with one quotient the two dividends are closer than a wrap
  rw [same] at wrapped
  have near : -4294967296 < x - int32 x ∧ x - int32 x < 4294967296 := by omega
  rw [← int32_eq_self_iff]
  rw [int32_eq] at near ⊢
  omega

theorem uint32_natCast (n : Nat) : uint32 ↑n = n % 4294967296 := by
  rw [uint32_eq]
  omega

end Library
