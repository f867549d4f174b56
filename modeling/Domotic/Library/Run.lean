import Mathlib.Data.List.Basic

/-!
# Runs of a labelled transition relation

`Run R s es t` says that taking the labels `es` in order can lead from `s` to `t`. The
relation may be partial, deterministic or neither. Labels are appended at the end, so an
induction on a run removes its last step, which is what an invariant argument needs.

`Guarded C R` is the part of `R` whose steps satisfy `C`: a run of it is a run all of
whose steps meet a condition on the state before the step and on its label.
-/
namespace Library

universe u v w

variable {σ : Type u} {ε : Type v} {R : σ → ε → σ → Prop}

inductive Run (R : σ → ε → σ → Prop) (s : σ) : List ε → σ → Prop where
  | nil : Run R s [] s
  | snoc {es : List ε} {e : ε} {t u : σ} : Run R s es t → R t e u → Run R s (es ++ [e]) u

theorem Run.append {s t u : σ} {es fs : List ε} (h : Run R s es t) (g : Run R t fs u) :
    Run R s (es ++ fs) u := by
  induction g with
  | nil => simpa using h
  | snoc _ step ih => simpa [← List.append_assoc] using ih.snoc step

theorem Run.single {s t : σ} {e : ε} (h : R s e t) : Run R s [e] t := by
  simpa using Run.nil.snoc h

theorem Run.cons {s t u : σ} {e : ε} {es : List ε} (h : R s e t) (g : Run R t es u) :
    Run R s (e :: es) u := by
  simpa using (Run.single h).append g

/-- The last step of a run. -/
theorem Run.last {s u : σ} {e : ε} {es : List ε} (h : Run R s (es ++ [e]) u) :
    ∃ t, Run R s es t ∧ R t e u := by
  generalize whole : es ++ [e] = fs at h
  cases h with
  | nil => simp at whole
  | @snoc es' e' t _ run step =>
    obtain ⟨rfl, last⟩ := List.append_inj' whole rfl
    obtain rfl : e = e' := by simpa using last
    exact ⟨t, run, step⟩

section partialFunction
variable {f : σ → ε → Option σ} {s t : σ} {es : List ε} {ev : ε}

/-- The runs of a partial function are its iteration. -/
theorem run_iff_foldlM : Run (fun s e t => f s e = some t) s es t ↔ es.foldlM f s = some t := by
  constructor
  · intro h
    induction h with
    | nil => rfl
    | snoc _ step ih => simpa [List.foldlM_append, ih] using step
  · intro h
    induction es generalizing s with
    | nil =>
      obtain rfl : s = t := by simpa using h
      exact .nil
    | cons e es ih =>
      rw [List.foldlM_cons] at h
      obtain ⟨u, step, rest⟩ := Option.bind_eq_some_iff.mp h
      exact Run.cons step (ih rest)

theorem Run.unique {t' : σ} (h : Run (fun s e t => f s e = some t) s es t)
    (g : Run (fun s e t => f s e = some t) s es t') : t = t' :=
  Option.some.inj ((run_iff_foldlM.mp h).symm.trans (run_iff_foldlM.mp g))

/-- The states that a run goes through are those before its last step and the last one. -/
theorem Run.forall_states_snoc {P : List ε → σ → Prop}
    (run : Run (fun s e t => f s e = some t) s (es ++ [ev]) t) :
    (∀ pre u, pre <+: es ++ [ev] → Run (fun s e t => f s e = some t) s pre u → P pre u) ↔
      (∀ pre u, pre <+: es → Run (fun s e t => f s e = some t) s pre u → P pre u) ∧
        P (es ++ [ev]) t := by
  constructor
  · exact fun h => ⟨fun pre u before => h pre u (before.trans (List.prefix_append es [ev])),
      h _ _ List.prefix_rfl run⟩
  · rintro ⟨h, last⟩ pre u before run'
    obtain rfl | earlier := List.prefix_concat_iff.mp before
    · exact run.unique run' ▸ last
    · exact h pre u earlier run'

/-- The steps that a run takes are those before its last step and the last one. -/
theorem Run.forall_steps_snoc {P : List ε → ε → σ → Prop}
    (run : Run (fun s e t => f s e = some t) s es t) :
    (∀ pre e u, pre ++ [e] <+: es ++ [ev] → Run (fun s e t => f s e = some t) s pre u → P pre e u) ↔
      (∀ pre e u, pre ++ [e] <+: es → Run (fun s e t => f s e = some t) s pre u → P pre e u) ∧
        P es ev t := by
  constructor
  · exact fun h => ⟨fun pre e u before => h pre e u (before.trans (List.prefix_append es [ev])),
      h es ev t List.prefix_rfl run⟩
  · rintro ⟨h, last⟩ pre e u before run'
    obtain whole | earlier := List.prefix_concat_iff.mp before
    · obtain ⟨rfl, heq⟩ := List.append_inj' whole rfl
      obtain rfl : e = ev := by simpa using heq
      exact run.unique run' ▸ last
    · exact h pre e u earlier run'

/-- A step of the extended run is one of the run or the last one. -/
theorem Run.exists_step_snoc {P : List ε → ε → σ → Prop}
    (run : Run (fun s e t => f s e = some t) s es t) :
    (∃ pre e u, pre ++ [e] <+: es ++ [ev] ∧ Run (fun s e t => f s e = some t) s pre u ∧ P pre e u) ↔
      (∃ pre e u, pre ++ [e] <+: es ∧ Run (fun s e t => f s e = some t) s pre u ∧ P pre e u) ∨
        P es ev t := by
  have all := @Run.forall_steps_snoc σ ε f s t es ev (fun pre e u => ¬ P pre e u) run
  constructor
  · intro some
    by_contra none
    rw [not_or] at none
    obtain ⟨pre, e, u, before, run', h⟩ := some
    exact all.mpr ⟨fun pre e u before run' h => none.1 ⟨pre, e, u, before, run', h⟩, none.2⟩
      pre e u before run' h
  · rintro (⟨pre, e, u, before, run', h⟩ | h)
    · exact ⟨pre, e, u, before.trans (List.prefix_append es [ev]), run', h⟩
    · exact ⟨es, ev, t, List.prefix_rfl, run, h⟩

section observed
variable {α : Type w} {obs : σ → ε → List α}

/-- What the steps of a run show, in order. -/
def observed (f : σ → ε → Option σ) (obs : σ → ε → List α) : σ → List ε → List α
  | _, [] => []
  | s, e :: es =>
    obs s e ++ match f s e with
      | some t => observed f obs t es
      | none => []

/-- The last step shows its part at the end. -/
theorem observed_snoc (run : Run (fun s e t => f s e = some t) s es t) :
    observed f obs s (es ++ [ev]) = observed f obs s es ++ obs t ev := by
  rw [run_iff_foldlM] at run
  induction es generalizing s with
  | nil =>
    obtain rfl : s = t := by simpa using run
    simp only [List.nil_append, observed]
    split
    · simp
    · simp
  | cons e es ih =>
    rw [List.foldlM_cons] at run
    obtain ⟨u, step, rest⟩ := Option.bind_eq_some_iff.mp run
    simp only [List.cons_append, observed, step, ih rest, List.append_assoc]

/-- Part of what the steps show. -/
theorem observed_filterMap {β : Type*} (g : α → Option β) (f : σ → ε → Option σ) (s : σ)
    (es : List ε) : (observed f obs s es).filterMap g =
      observed f (fun s e => (obs s e).filterMap g) s es := by
  induction es generalizing s with
  | nil => rfl
  | cons e es ih =>
    simp only [observed, List.filterMap_append]
    cases f s e with
    | none => rfl
    | some t => rw [ih]

end observed

end partialFunction

/-- Two conditions on steps that agree wherever the earlier steps meet the second one agree along
any sequence of labels, whether or not it has a run. -/
theorem Run.forall_steps_congr {P Q : σ → ε → Prop} {s : σ}
    (agree : ∀ pre u, Run R s pre u →
      (∀ pre' e v, pre' ++ [e] <+: pre → Run R s pre' v → Q v e) → ∀ e, (P u e ↔ Q u e))
    (es : List ε) :
    (∀ pre e u, pre ++ [e] <+: es → Run R s pre u → P u e) ↔
      ∀ pre e u, pre ++ [e] <+: es → Run R s pre u → Q u e := by
  have earlier : ∀ {pre pre' : List ε} {e e' : ε}, pre' ++ [e'] <+: pre → pre ++ [e] <+: es →
      pre' ++ [e'] <+: es := fun before whole =>
    before.trans ((List.prefix_append _ _).trans whole)
  constructor
  · intro h pre
    induction length : pre.length using Nat.strongRecOn generalizing pre with
    | ind n ih =>
      intro e u before run
      refine (agree pre u run (fun pre' e' v inside run' => ?_) e).mp (h pre e u before run)
      have shorter := inside.length_le
      rw [List.length_append, List.length_singleton] at shorter
      exact ih pre'.length (by omega) pre' rfl e' v (earlier inside before) run'
  · intro h pre e u before run
    refine (agree pre u run (fun pre' e' v inside run' => ?_) e).mpr (h pre e u before run)
    exact h pre' e' v (earlier inside before) run'

/-- A property that every step keeps is kept by every run. -/
theorem Run.invariant {I : σ → Prop} (keep : ∀ s e t, R s e t → I s → I t)
    {s t : σ} {es : List ε} (h : Run R s es t) (hs : I s) : I t := by
  induction h with
  | nil => exact hs
  | snoc _ step ih => exact keep _ _ _ step ih

/-- The steps of `R` that satisfy `C`. -/
def Guarded (C : σ → ε → Prop) (R : σ → ε → σ → Prop) : σ → ε → σ → Prop :=
  fun s e t => C s e ∧ R s e t

theorem Run.unguarded {C : σ → ε → Prop} {s t : σ} {es : List ε} (h : Run (Guarded C R) s es t) :
    Run R s es t := by
  induction h with
  | nil => exact .nil
  | snoc _ step ih => exact ih.snoc step.2

/-- Every step of a guarded run meets the guard. -/
theorem Run.guarded_steps {f : σ → ε → Option σ} {C : σ → ε → Prop} {s t : σ} {es : List ε}
    (h : Run (Guarded C fun s e t => f s e = some t) s es t) :
    ∀ pre e u, pre ++ [e] <+: es → Run (fun s e t => f s e = some t) s pre u → C u e := by
  induction h with
  | nil =>
    intro pre e u before
    simp at before
  | snoc run step ih =>
    exact (Run.forall_steps_snoc (P := fun _ e u => C u e) run.unguarded).mpr ⟨ih, step.1⟩

/-- The guarded runs of a partial function are the iteration of its guarded calls. -/
theorem run_guarded_iff {f : σ → ε → Option σ} {C : σ → ε → Prop} [∀ s e, Decidable (C s e)]
    {s t : σ} {es : List ε} :
    Run (Guarded C fun s e t => f s e = some t) s es t ↔
      es.foldlM (fun s e => if C s e then f s e else none) s = some t := by
  have same : Guarded C (fun s e t => f s e = some t) =
      fun s e t => (if C s e then f s e else none) = some t := by
    funext s e t
    exact propext Option.ite_none_right_eq_some.symm
  rw [same]
  exact run_iff_foldlM

end Library
