import Mathlib.Data.Fintype.Defs

/-!
# Deadlines

A timer that calls a function when its time is over, once or again and again. Time is counted in
units, and it does not pass while one of a bank is due: a due deadline is served in its unit.
-/
namespace Library

universe u v

structure Deadline (φ : Type u) where
  func : Option φ := none
  /-- The time to go, while it is armed. -/
  left : Option Nat := none
  /-- The time between two calls, if it repeats. -/
  period : Option Nat := none

namespace Deadline

variable {φ : Type u}

def disarm (a : Deadline φ) : Deadline φ := { a with left := none, period := none }

def setfn (a : Deadline φ) (f : φ) : Deadline φ := { a with func := some f }

def arm (a : Deadline φ) (time : Nat) (again : Bool) : Deadline φ :=
  { a with left := some time, period := if again then some time else none }

/-- A unit of time passes. -/
def pass (a : Deadline φ) : Deadline φ := { a with left := a.left.map (· - 1) }

/-- The deadline when its function is called. -/
def serve (a : Deadline φ) : Deadline φ := { a with left := a.period }

@[simp] theorem arm_func (a : Deadline φ) (time : Nat) (again : Bool) :
    (a.arm time again).func = a.func := rfl
@[simp] theorem arm_left (a : Deadline φ) (time : Nat) (again : Bool) :
    (a.arm time again).left = some time := rfl
@[simp] theorem arm_period (a : Deadline φ) (time : Nat) (again : Bool) :
    (a.arm time again).period = if again then some time else none := rfl
@[simp] theorem setfn_func (a : Deadline φ) (f : φ) : (a.setfn f).func = some f := rfl
@[simp] theorem pass_func (a : Deadline φ) : a.pass.func = a.func := rfl
@[simp] theorem pass_period (a : Deadline φ) : a.pass.period = a.period := rfl
@[simp] theorem serve_func (a : Deadline φ) : a.serve.func = a.func := rfl
@[simp] theorem serve_left (a : Deadline φ) : a.serve.left = a.period := rfl
@[simp] theorem serve_period (a : Deadline φ) : a.serve.period = a.period := rfl

/-- Time that passes moves a deadline that is not due one unit nearer. -/
theorem pass_left {a : Deadline φ} (notDue : a.left ≠ some 0) {n : Nat} :
    a.pass.left = some n ↔ a.left = some (n + 1) := by
  unfold pass
  cases left : a.left with
  | none => simp
  | some m =>
    have positive : m ≠ 0 := fun zero => notDue (by rw [left, zero])
    simp only [Option.map_some, Option.some.injEq]
    omega

/-- A deadline that is not due has a unit to go. -/
theorem exists_pass_left {a : Deadline φ} (notDue : a.left ≠ some 0) {n : Nat}
    (left : a.left = some n) : ∃ k, n = k + 1 ∧ a.pass.left = some k := by
  cases n with
  | zero => exact absurd left notDue
  | succ k => exact ⟨k, rfl, (pass_left notDue).mpr left⟩

/-- `P` holds of the time to go, while it is armed. -/
def Armed (a : Deadline φ) (P : Nat → Prop) : Prop := ∀ n, a.left = some n → P n

/-- A bound on the time to go that moves with the time. -/
theorem Armed.pass {a : Deadline φ} {P Q : Nat → Prop} (h : a.Armed P) (notDue : a.left ≠ some 0)
    (next : ∀ n, P (n + 1) → Q n) : a.pass.Armed Q := fun n left =>
  next n (h (n + 1) ((pass_left notDue).mp left))

end Deadline

/-! ## A bank of deadlines -/

section bank
variable {φ : Type u} {τ : Type v} {a a' : τ → Deadline φ}

/-- A unit of time passes, unless one is due. -/
def passAll [Fintype τ] (a : τ → Deadline φ) : Option (τ → Deadline φ) :=
  if ∀ t, (a t).left ≠ some 0 then some fun t => (a t).pass else none

theorem passAll_eq [Fintype τ] (h : passAll a = some a') :
    (∀ t, (a t).left ≠ some 0) ∧ a' = fun t => (a t).pass := by
  unfold passAll at h
  split at h
  · rename_i none
    exact ⟨none, (Option.some.inj h).symm⟩
  · cases h

/-- The function of a due deadline is called. -/
def serveOne [DecidableEq τ] (a : τ → Deadline φ) (t : τ) : Option ((τ → Deadline φ) × φ) :=
  if (a t).left = some 0 then
    (a t).func.map fun f => (Function.update a t (a t).serve, f)
  else none

theorem serveOne_eq [DecidableEq τ] {t : τ} {f : φ} (h : serveOne a t = some (a', f)) :
    (a t).left = some 0 ∧ (a t).func = some f ∧ a' = Function.update a t (a t).serve := by
  unfold serveOne at h
  split at h
  · rename_i due
    obtain ⟨g, func, eq⟩ := Option.map_eq_some_iff.mp h
    obtain ⟨rfl, rfl⟩ := Prod.mk.inj eq
    exact ⟨due, func, rfl⟩
  · cases h

end bank
end Library
