import Mathlib.Data.List.Basic
import Mathlib.Data.List.Perm.Basic

/-!
# Steps in any order

A system takes steps of which some may be next; a word is a sequence of such steps, and it is
complete where nothing may be next any more. If wherever two steps may be next either one leaves
the other as it was, all complete words have the same steps and lead to the same state.
-/
namespace Library

universe u v

variable {S : Type u} {C : Type v} (next : S → C → Prop) (step : S → C → S)

/-- Every step of the word may be next in its turn. -/
def Word : S → List C → Prop
  | _, [] => True
  | s, c :: w => next s c ∧ Word (step s c) w

/-- The word leaves nothing to be done. -/
def Complete (s : S) (w : List C) : Prop :=
  Word next step s w ∧ ∀ c, ¬ next (w.foldl step s) c

/-- Of two steps that may be next, either one leaves the other, and their order does not count. -/
def Exchange (s : S) : Prop :=
  ∀ c d, c ≠ d → next s c → next s d →
    next (step s c) d ∧ next (step s d) c ∧ step (step s c) d = step (step s d) c

/-- So it is in every state that a word leads to. -/
def Exchanges (s : S) : Prop := ∀ w, Word next step s w → Exchange next step (w.foldl step s)

variable {next step} {s : S} {c : C} {w w' : List C}

theorem Exchanges.here (h : Exchanges next step s) : Exchange next step s := h [] trivial

theorem Exchanges.after (h : Exchanges next step s) (first : next s c) :
    Exchanges next step (step s c) :=
  fun w word => h (c :: w) ⟨first, word⟩

theorem complete_cons : Complete next step s (c :: w) ↔
    next s c ∧ Complete next step (step s c) w :=
  and_assoc

/-- A step that may be next can be taken first. -/
theorem Complete.first (complete : Complete next step s w) (h : Exchanges next step s)
    (first : next s c) : ∃ w', Complete next step (step s c) w' ∧ w.Perm (c :: w') ∧
      w'.foldl step (step s c) = w.foldl step s := by
  classical
  induction w generalizing s with
  | nil => exact absurd first (complete.2 c)
  | cons d w ih =>
    obtain ⟨here, rest⟩ := complete_cons.mp complete
    by_cases same : c = d
    · subst same
      exact ⟨w, rest, .refl _, rfl⟩
    · obtain ⟨later, later', either⟩ := h.here c d same first here
      obtain ⟨w', rest', perm, last⟩ := ih rest (h.after here) later'
      refine ⟨d :: w', complete_cons.mpr ⟨later, either ▸ rest'⟩, ?_, ?_⟩
      · exact (perm.cons d).trans (.swap c d w')
      · rw [List.foldl_cons, either, last, List.foldl_cons]

/-- All complete words have the same steps and lead to the same state. -/
theorem Complete.unique (complete : Complete next step s w) (h : Exchanges next step s)
    (complete' : Complete next step s w') :
    w.Perm w' ∧ w.foldl step s = w'.foldl step s := by
  induction w' generalizing s w with
  | nil =>
    cases w with
    | nil => exact ⟨.refl _, rfl⟩
    | cons c w => exact absurd complete.1.1 (complete'.2 c)
  | cons c w' ih =>
    obtain ⟨here, rest⟩ := complete_cons.mp complete'
    obtain ⟨u, complete, perm, last⟩ := complete.first h here
    obtain ⟨perm', last'⟩ := ih complete (h.after here) rest
    exact ⟨perm.trans (perm'.cons c), last.symm.trans last'⟩

end Library
