import Mathlib.Tactic

/-!
# Base-128 lengths

A number is written seven bits a byte, the low ones first, with the top bit on every byte but
the last. `decodeLength` reads such a number from the front of a list, in at most `k` bytes.
-/
namespace Library

/-- The number at the front of the list and what follows it. -/
def decodeLength : Nat → List UInt8 → Option (Nat × List UInt8)
  | 0, _ | _ + 1, [] => none
  | k + 1, b :: bs =>
    if b.toNat < 128 then some (b.toNat, bs)
    else (decodeLength k bs).map fun r => (b.toNat % 128 + 128 * r.1, r.2)

theorem decodeLength_append {k n : Nat} {bs rest : List UInt8}
    (h : decodeLength k bs = some (n, rest))
    (cs : List UInt8) : decodeLength k (bs ++ cs) = some (n, rest ++ cs) := by
  induction k generalizing bs n with
  | zero => cases h
  | succ k ih =>
    cases bs with
    | nil => cases h
    | cons b bs =>
      unfold decodeLength at h
      rw [List.cons_append]
      unfold decodeLength
      split at h
      · rename_i last
        obtain ⟨rfl, rfl⟩ := Prod.mk.inj (Option.some.inj h)
        rw [if_pos last]
      · rename_i more
        obtain ⟨r, back, eq⟩ := Option.map_eq_some_iff.mp h
        obtain ⟨rfl, rfl⟩ := Prod.mk.inj eq
        rw [if_neg more, ih back]
        rfl

/-- The bytes of a number: at least one, at most `k`. -/
theorem decodeLength_length {k n : Nat} {bs rest : List UInt8}
    (h : decodeLength k bs = some (n, rest)) :
    rest.length < bs.length ∧ bs.length ≤ rest.length + k := by
  induction k generalizing bs n with
  | zero => cases h
  | succ k ih =>
    cases bs with
    | nil => cases h
    | cons b bs =>
      unfold decodeLength at h
      rw [List.length_cons]
      split at h
      · obtain ⟨-, rfl⟩ := Prod.mk.inj (Option.some.inj h)
        omega
      · obtain ⟨r, back, eq⟩ := Option.map_eq_some_iff.mp h
        obtain ⟨-, rfl⟩ := Prod.mk.inj eq
        have := ih back
        omega

end Library
