import Mathlib.Tactic

/-!
# Numerals

A string of digits, the most significant one first, denotes a number in the base of its alphabet.
The shortest numeral of a number is the one without leading zeros, except that zero itself keeps
one digit.
-/
namespace Library

universe u

/-- The digits of a base: the value of a digit and the digit of a value. -/
structure Alphabet (α : Type u) where
  base : Nat
  value : α → Option Nat
  digit : Nat → α
  two_le : 2 ≤ base
  value_digit : ∀ d < base, value (digit d) = some d
  value_lt : ∀ {c d}, value c = some d → d < base
  digit_value : ∀ {c d}, value c = some d → digit d = c

namespace Alphabet

variable {α : Type u} (a : Alphabet α)

/-- The number of a string behind the digits of `v`, if it has digits only. -/
def readFrom (v : Nat) (cs : List α) : Option Nat :=
  cs.foldlM (fun v c => (a.value c).map (v * a.base + ·)) v

/-- The number of a string of digits. -/
def read : List α → Option Nat
  | [] => none
  | c :: cs => a.readFrom 0 (c :: cs)

/-- The last `w` digits of `n`. -/
def numeral : Nat → Nat → List α
  | 0, _ => []
  | w + 1, n => a.digit (n / a.base ^ w % a.base) :: numeral w n

/-- The string denotes the number, and no shorter one does. -/
def IsShortest (n : Nat) (cs : List α) : Prop :=
  a.read cs = some n ∧ ∀ cs', a.read cs' = some n → cs.length ≤ cs'.length

/-- Leave out leading zeros, but not the last digit. -/
def trim [DecidableEq α] : List α → List α
  | [] => []
  | c :: cs => if c = a.digit 0 ∧ cs ≠ [] then trim cs else c :: cs

/-! ## Reading -/

theorem readFrom_nil (v : Nat) : a.readFrom v [] = some v := rfl

theorem readFrom_cons (v : Nat) (c : α) (cs : List α) :
    a.readFrom v (c :: cs) = (a.value c).bind fun d => a.readFrom (v * a.base + d) cs := by
  simp only [readFrom, List.foldlM_cons, Option.bind_eq_bind, Option.bind_map]
  rfl

@[simp] theorem numeral_length (w n : Nat) : (a.numeral w n).length = w := by
  induction w with
  | zero => rfl
  | succ w ih => simp [numeral, ih]

/-- What is read are digits. -/
theorem value_of_readFrom {v n : Nat} {cs : List α} (h : a.readFrom v cs = some n) :
    ∀ c ∈ cs, (a.value c).isSome := by
  induction cs generalizing v with
  | nil => exact List.forall_mem_nil _
  | cons c cs ih =>
    rw [readFrom_cons] at h
    obtain ⟨d, value, rest⟩ := Option.bind_eq_some_iff.mp h
    exact List.forall_mem_cons.mpr ⟨by simp [value], ih rest⟩

/-- The digits behind `v` add less than one to it. -/
theorem readFrom_bounds {v n : Nat} {cs : List α} (h : a.readFrom v cs = some n) :
    v * a.base ^ cs.length ≤ n ∧ n < (v + 1) * a.base ^ cs.length := by
  induction cs generalizing v with
  | nil =>
    obtain rfl : v = n := Option.some.inj h
    simp
  | cons c cs ih =>
    rw [readFrom_cons] at h
    obtain ⟨d, value, rest⟩ := Option.bind_eq_some_iff.mp h
    obtain ⟨low, high⟩ := ih rest
    have small : v * a.base + d + 1 ≤ (v + 1) * a.base := by
      have digit := a.value_lt value
      rw [Nat.succ_mul]
      omega
    rw [List.length_cons, pow_succ']
    constructor
    · calc v * (a.base * a.base ^ cs.length)
          = v * a.base * a.base ^ cs.length := (Nat.mul_assoc _ _ _).symm
        _ ≤ (v * a.base + d) * a.base ^ cs.length := Nat.mul_le_mul_right _ (Nat.le_add_right _ d)
        _ ≤ n := low
    · calc n < (v * a.base + d + 1) * a.base ^ cs.length := high
        _ ≤ (v + 1) * a.base * a.base ^ cs.length := Nat.mul_le_mul_right _ small
        _ = (v + 1) * (a.base * a.base ^ cs.length) := Nat.mul_assoc _ _ _

/-- The last `w` digits of a number, read behind others. -/
theorem readFrom_numeral (v w n : Nat) :
    a.readFrom v (a.numeral w n) = some (v * a.base ^ w + n % a.base ^ w) := by
  induction w generalizing v with
  | zero => simp [numeral, readFrom_nil, Nat.mod_one]
  | succ w ih =>
    have two := a.two_le
    have digit : n / a.base ^ w % a.base < a.base := Nat.mod_lt _ (by omega)
    rw [numeral, readFrom_cons, a.value_digit _ digit, Option.bind_some, ih, Nat.mod_pow_succ]
    congr 1
    ring

theorem read_of_ne_nil {cs : List α} (h : cs ≠ []) : a.read cs = a.readFrom 0 cs := by
  cases cs with
  | nil => exact absurd rfl h
  | cons c cs => rfl

/-- A number with at most `w` digits is the value of its last `w`. -/
theorem read_numeral {w n : Nat} (wide : w ≠ 0) (small : n < a.base ^ w) :
    a.read (a.numeral w n) = some n := by
  have some_digit : a.numeral w n ≠ [] := by
    rw [← List.length_pos_iff, numeral_length]
    omega
  rw [read_of_ne_nil a some_digit, readFrom_numeral, Nat.mod_eq_of_lt small]
  simp

/-! ## The shortest numeral -/

/-- Two numbers have no shortest numeral in common. -/
theorem IsShortest.unique {a : Alphabet α} {m n : Nat} {cs : List α} (h : a.IsShortest m cs)
    (h' : a.IsShortest n cs) : m = n :=
  Option.some.inj (h.1.symm.trans h'.1)

theorem read_zero_cons {cs : List α} (more : cs ≠ []) : a.read (a.digit 0 :: cs) = a.read cs := by
  have two := a.two_le
  rw [read, readFrom_cons, a.value_digit 0 (by omega), read_of_ne_nil a more, Option.bind_some,
    Nat.zero_mul]

/-- A numeral with a first digit other than zero, or with one digit, is the shortest. -/
theorem isShortest_of_first {n : Nat} {c : α} {cs : List α} (h : a.read (c :: cs) = some n)
    (first : c = a.digit 0 → cs = []) : a.IsShortest n (c :: cs) := by
  refine ⟨h, fun cs' h' => ?_⟩
  have two := a.two_le
  match cs', h' with
  | c' :: cs', h' =>
    by_cases single : cs = []
    · simp [single]
    · rw [read, readFrom_cons] at h
      obtain ⟨d, value, rest⟩ := Option.bind_eq_some_iff.mp h
      have positive : d ≠ 0 := by
        rintro rfl
        exact single (first (a.digit_value value).symm)
      -- the first digit alone exceeds every numeral that is shorter
      have low : a.base ^ cs.length ≤ n := calc
        a.base ^ cs.length ≤ (0 * a.base + d) * a.base ^ cs.length :=
          Nat.le_mul_of_pos_left _ (by omega)
        _ ≤ n := (a.readFrom_bounds rest).1
      have high : n < a.base ^ (c' :: cs').length := by
        simpa using (a.readFrom_bounds h').2
      have longer := (Nat.pow_lt_pow_iff_right (by omega : 1 < a.base)).mp (low.trans_lt high)
      rw [List.length_cons]
      omega

variable [DecidableEq α]

/-- Leading zeros are all that makes a numeral longer than needed. -/
theorem isShortest_trim {n : Nat} {cs : List α} (h : a.read cs = some n) :
    a.IsShortest n (a.trim cs) := by
  induction cs with
  | nil => cases h
  | cons c cs ih =>
    by_cases zero : c = a.digit 0 ∧ cs ≠ []
    · obtain ⟨rfl, more⟩ := zero
      rw [trim, if_pos ⟨rfl, more⟩]
      exact ih ((a.read_zero_cons more).symm.trans h)
    · rw [trim, if_neg zero]
      apply a.isShortest_of_first h
      intro first
      by_contra more
      exact zero ⟨first, more⟩

end Alphabet

end Library
