import Mathlib.Tactic

/-!
# Decimal numbers

A string of ASCII digits denotes a number. `decimalPrefix` reads the digits at the front of a
string and ignores what follows them.
-/
namespace Library

def isDigit (c : UInt8) : Bool := 48 ≤ c && c ≤ 57

/-- The number of a digit string behind the digits of `v`. -/
def ofDigits (v : Nat) (ds : List UInt8) : Nat := ds.foldl (fun v c => v * 10 + (c.toNat - 48)) v

/-- The number that the digits at the front denote. -/
def decimalPrefix (str : List UInt8) : Nat := ofDigits 0 (str.takeWhile isDigit)

theorem ofDigits_cons (v : Nat) (c : UInt8) (ds : List UInt8) :
    ofDigits v (c :: ds) = ofDigits (v * 10 + (c.toNat - 48)) ds := by
  rw [ofDigits, List.foldl_cons, ofDigits]

theorem isDigit_range {c : UInt8} (h : isDigit c = true) : 48 ≤ c.toNat ∧ c.toNat ≤ 57 := by
  simp only [isDigit, Bool.and_eq_true, decide_eq_true_eq] at h
  exact ⟨UInt8.le_iff_toNat_le.mp h.1, UInt8.le_iff_toNat_le.mp h.2⟩

theorem ofDigits_le (v : Nat) (ds : List UInt8) : v ≤ ofDigits v ds := by
  induction ds generalizing v with
  | nil => exact Nat.le_refl v
  | cons c ds ih =>
    rw [ofDigits_cons]
    exact le_trans (by omega) (ih _)

/-- Each digit multiplies the bound by ten. -/
theorem ofDigits_lt {ds : List UInt8} (digits : ∀ c ∈ ds, isDigit c = true) (v : Nat) :
    ofDigits v ds < (v + 1) * 10 ^ ds.length := by
  induction ds generalizing v with
  | nil => simp [ofDigits]
  | cons c ds ih =>
    have range := isDigit_range (digits c List.mem_cons_self)
    have rest := ih (fun d mem => digits d (List.mem_cons_of_mem c mem)) (v * 10 + (c.toNat - 48))
    rw [ofDigits_cons, List.length_cons, pow_succ']
    calc ofDigits (v * 10 + (c.toNat - 48)) ds
        < (v * 10 + (c.toNat - 48) + 1) * 10 ^ ds.length := rest
      _ ≤ (v + 1) * 10 * 10 ^ ds.length := Nat.mul_le_mul_right _ (by omega)
      _ = (v + 1) * (10 * 10 ^ ds.length) := Nat.mul_assoc _ _ _

theorem decimalPrefix_lt (str : List UInt8) : decimalPrefix str < 10 ^ str.length := by
  have bound := @ofDigits_lt (str.takeWhile isDigit) (List.all_eq_true.mp List.all_takeWhile) 0
  rw [Nat.zero_add, Nat.one_mul] at bound
  exact bound.trans_le (Nat.pow_le_pow_right (by decide) (List.takeWhile_prefix isDigit).length_le)

theorem decimalPrefix_lt_pow (str : List UInt8) {n : Nat} (short : str.length ≤ n) :
    decimalPrefix str < 10 ^ n :=
  (decimalPrefix_lt str).trans_le (Nat.pow_le_pow_right (by decide) short)

/-- A byte that is not a digit ends the number. -/
theorem decimalPrefix_append {c : UInt8} (stop : isDigit c = false) (str rest : List UInt8) :
    decimalPrefix (str ++ c :: rest) = decimalPrefix str := by
  have front : (str ++ c :: rest).takeWhile isDigit = str.takeWhile isDigit := by
    induction str with
    | nil => simp [stop]
    | cons d str ih =>
      by_cases digit : isDigit d = true
      · simp [digit, ih]
      · simp [digit]
  rw [decimalPrefix, front, decimalPrefix]

end Library
