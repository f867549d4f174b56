import Mathlib.Tactic

/-!
# Loops that emit

The body of a loop takes a state, emits some outputs and says whether the loop goes on. The
loop is run for a number of rounds: it has returned when the last round it made did not ask for
another one. `Reached` are the states that the body is entered in, whether or not the loop
returns.
-/
namespace Library

universe u v

/-- What one round, or several, did. -/
structure Round (σ : Type u) (ε : Type v) where
  state : σ
  out : List ε
  again : Bool

variable {σ : Type u} {ε : Type v}

/-- At most `n` rounds. -/
def loop (body : σ → Round σ ε) : Nat → σ → Round σ ε
  | 0, s => ⟨s, [], true⟩
  | n + 1, s =>
    let r := body s
    if r.again then
      let t := loop body n r.state
      ⟨t.state, r.out ++ t.out, t.again⟩
    else r

/-- The loop goes on from `s` in `t`. -/
def GoesOn (body : σ → Round σ ε) (s t : σ) : Prop := (body s).again = true ∧ (body s).state = t

/-- The states in which the loop started in `s` enters its body. -/
abbrev Reached (body : σ → Round σ ε) : σ → σ → Prop := Relation.ReflTransGen (GoesOn body)

variable {body : σ → Round σ ε} {s : σ} {n : Nat}

theorem loop_last (last : (body s).again = false) : loop body (n + 1) s = body s := by
  simp [loop, last]

theorem loop_next (more : (body s).again = true) :
    loop body (n + 1) s = ⟨(loop body n (body s).state).state,
      (body s).out ++ (loop body n (body s).state).out, (loop body n (body s).state).again⟩ := by
  simp [loop, more]

/-- What the loop emits in any number of rounds is what the body emits in the states reached. -/
theorem mem_loop_out {o : ε} :
    (∃ n, o ∈ (loop body n s).out) ↔ ∃ t, Reached body s t ∧ o ∈ (body t).out := by
  constructor
  · rintro ⟨n, mem⟩
    induction n generalizing s with
    | zero => cases mem
    | succ n ih =>
      by_cases more : (body s).again = true
      · rw [loop_next more] at mem
        rcases List.mem_append.mp mem with here | later
        · exact ⟨s, .refl, here⟩
        · obtain ⟨t, reached, emits⟩ := ih later
          exact ⟨t, .head ⟨more, rfl⟩ reached, emits⟩
      · rw [loop_last (by simpa using more)] at mem
        exact ⟨s, .refl, mem⟩
  · rintro ⟨t, reached, emits⟩
    induction reached using Relation.ReflTransGen.head_induction_on with
    | refl =>
      refine ⟨1, ?_⟩
      by_cases more : (body t).again = true
      · rw [loop_next more]
        exact List.mem_append_left _ emits
      · rwa [loop_last (by simpa using more)]
    | head step _ ih =>
      obtain ⟨more, rfl⟩ := step
      obtain ⟨n, mem⟩ := ih
      refine ⟨n + 1, ?_⟩
      rw [loop_next more]
      exact List.mem_append_right _ mem

/-- A measure that every round from a reached state lowers bounds the number of rounds. -/
theorem loop_returns (measure : σ → Nat)
    (lower : ∀ t u, Reached body s t → GoesOn body t u → measure u < measure t)
    (enough : measure s < n) : (loop body n s).again = false := by
  induction n generalizing s with
  | zero => omega
  | succ n ih =>
    by_cases more : (body s).again = true
    · rw [loop_next more]
      have down := lower s _ .refl ⟨more, rfl⟩
      exact ih (fun t u reached => lower t u (.head ⟨more, rfl⟩ reached)) (by omega)
    · rw [loop_last (by simpa using more)]
      simpa using more

/-- A loop that reaches a property which every round keeps, and which asks for another round,
does not return. -/
theorem loop_forever {P : σ → Prop} (keep : ∀ t, P t → (body t).again = true ∧ P (body t).state)
    {t : σ} (reached : Reached body s t) (stuck : P t) : (loop body n s).again = true := by
  induction n generalizing s t with
  | zero => rfl
  | succ n ih =>
    cases reached.cases_head with
    | inl same =>
      subst same
      obtain ⟨more, stuck⟩ := keep s stuck
      rw [loop_next more]
      exact ih .refl stuck
    | inr next =>
      obtain ⟨u, ⟨more, rfl⟩, reached⟩ := next
      rw [loop_next more]
      exact ih reached stuck

/-- What every round keeps and emits, the loop keeps and emits. -/
theorem loop_safe {P : σ → Prop} {Q : ε → Prop}
    (round : ∀ t, P t → P (body t).state ∧ ∀ o ∈ (body t).out, Q o) (start : P s) :
    P (loop body n s).state ∧ ∀ o ∈ (loop body n s).out, Q o := by
  induction n generalizing s with
  | zero => exact ⟨start, nofun⟩
  | succ n ih =>
    obtain ⟨keeps, emits⟩ := round s start
    by_cases more : (body s).again = true
    · rw [loop_next more]
      obtain ⟨keeps', emits'⟩ := ih keeps
      refine ⟨keeps', fun o mem => ?_⟩
      rcases List.mem_append.mp mem with here | later
      · exact emits o here
      · exact emits' o later
    · rw [loop_last (by simpa using more)]
      exact ⟨keeps, emits⟩

end Library
