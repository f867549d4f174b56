import Mathlib.Tactic

/-!
# Square waves

A square wave is high for a number of ticks, then low for another, and so on. A counter that is
loaded with the length of the phase at every edge, and counted down in between, follows it.
-/
namespace Library

/-- The level at tick `t` of a wave that starts with an edge to high. -/
def squareWave (high low t : Nat) : Bool := t % (high + low) < high

/-- The ticks until the next edge. -/
def untilEdge (high low t : Nat) : Nat :=
  if squareWave high low t then high - t % (high + low) else high + low - t % (high + low)

example : (List.range 10).map (squareWave 2 3) =
    [true, true, false, false, false, true, true, false, false, false] := by decide

variable {high low t : Nat}

/-- The next tick is the next place in the period, or the start of a new one. -/
theorem mod_succ_cases {n : Nat} (positive : 0 < n) (t : Nat) :
    (t % n + 1 < n ∧ (t + 1) % n = t % n + 1) ∨ (t % n + 1 = n ∧ (t + 1) % n = 0) := by
  have small : t % n + 1 ≤ n := Nat.mod_lt t positive
  rw [← Nat.mod_add_mod]
  obtain inside | complete := Nat.lt_or_eq_of_le small
  · exact .inl ⟨inside, Nat.mod_eq_of_lt inside⟩
  · exact .inr ⟨complete, by rw [complete, Nat.mod_self]⟩

theorem squareWave_of_lt (inside : t % (high + low) < high) :
    squareWave high low t = true ∧ untilEdge high low t = high - t % (high + low) := by
  have level : squareWave high low t = true := decide_eq_true inside
  exact ⟨level, if_pos level⟩

theorem squareWave_of_ge (outside : high ≤ t % (high + low)) :
    squareWave high low t = false ∧ untilEdge high low t = high + low - t % (high + low) := by
  have level : squareWave high low t = false := decide_eq_false (Nat.not_lt.mpr outside)
  exact ⟨level, if_neg (by simp [level])⟩

/-- The wave starts with an edge to high. -/
theorem squareWave_zero (wide : 1 ≤ high) :
    squareWave high low 0 = true ∧ untilEdge high low 0 = high := by
  simpa using @squareWave_of_lt high low 0 (by rwa [Nat.zero_mod])

/-- The first edge to low comes when the high phase is over. -/
theorem squareWave_high (wide : 1 ≤ low) :
    squareWave high low high = false ∧ untilEdge high low high = low := by
  have place : high % (high + low) = high := Nat.mod_eq_of_lt (by omega)
  simpa [place] using @squareWave_of_ge high low high place.ge

/-- Between two edges the level stays and the counter goes down. -/
theorem squareWave_wait (long : 2 ≤ untilEdge high low t) :
    squareWave high low (t + 1) = squareWave high low t ∧
      untilEdge high low (t + 1) + 1 = untilEdge high low t := by
  obtain inside | outside := Nat.lt_or_ge (t % (high + low)) high
  · obtain ⟨level, left⟩ := squareWave_of_lt inside
    obtain ⟨-, next⟩ | ⟨last, -⟩ := mod_succ_cases (by omega : 0 < high + low) t
    · obtain ⟨level', left'⟩ := @squareWave_of_lt high low (t + 1) (by omega)
      rw [level, level', left, left']
      exact ⟨rfl, by omega⟩
    · omega
  · obtain ⟨level, left⟩ := squareWave_of_ge outside
    obtain ⟨-, next⟩ | ⟨last, -⟩ := mod_succ_cases (by omega : 0 < high + low) t
    · obtain ⟨level', left'⟩ := @squareWave_of_ge high low (t + 1) (by omega)
      rw [level, level', left, left']
      exact ⟨rfl, by omega⟩
    · omega

/-- At an edge the level changes and the counter gets the length of the new phase. -/
theorem squareWave_edge (wide : 1 ≤ high) (wide' : 1 ≤ low) (due : untilEdge high low t = 1) :
    squareWave high low (t + 1) = !squareWave high low t ∧
      untilEdge high low (t + 1) = if squareWave high low t then low else high := by
  obtain inside | outside := Nat.lt_or_ge (t % (high + low)) high
  · obtain ⟨level, left⟩ := squareWave_of_lt inside
    obtain ⟨-, next⟩ | ⟨last, -⟩ := mod_succ_cases (by omega : 0 < high + low) t
    · obtain ⟨level', left'⟩ := @squareWave_of_ge high low (t + 1) (by omega)
      rw [level, level', left', if_pos rfl]
      exact ⟨rfl, by omega⟩
    · omega
  · obtain ⟨level, left⟩ := squareWave_of_ge outside
    obtain ⟨more, -⟩ | ⟨-, first⟩ := mod_succ_cases (by omega : 0 < high + low) t
    · omega
    · obtain ⟨level', left'⟩ := @squareWave_of_lt high low (t + 1) (by omega)
      rw [level, level', left', if_neg Bool.false_ne_true]
      exact ⟨rfl, by omega⟩

theorem untilEdge_pos (wide : 1 ≤ high) : 1 ≤ untilEdge high low t := by
  have small := Nat.mod_lt t (by omega : 0 < high + low)
  obtain inside | outside := Nat.lt_or_ge (t % (high + low)) high
  · rw [(squareWave_of_lt inside).2]
    omega
  · rw [(squareWave_of_ge outside).2]
    omega

end Library
