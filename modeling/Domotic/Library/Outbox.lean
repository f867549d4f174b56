import Mathlib.Data.List.Basic
import Mathlib.Tactic.Ring

/-!
# A bounded outbox

Messages wait in a box until they are taken, the oldest one first. Each has a weight, and the
box has a capacity. To put a message is first to drop old ones until some room is free, and then
to append it if it fits; else it is lost. The outbox keeps what was taken, so the three fates of
a message can be compared: taken, waiting or lost.
-/
namespace Library

universe u
variable {α : Type u}

/-- The messages that were taken and those that wait, the oldest one first. -/
structure Outbox (α : Type u) where
  taken : List α
  waiting : List α

namespace Outbox

inductive Op (α : Type u) where
  /-- Free `need` units of room, and append the message if it fits. -/
  | put (need : Nat) (msg : α)
  | take

/-- The message that an operation brings. -/
def Op.brings : Op α → List α
  | .put _ msg => [msg]
  | .take => []

section box
variable (weight : α → Nat) (capacity : Nat)

/-- The messages left when the oldest ones are dropped until `need` units are free. -/
def kept (need : Nat) : List α → List α
  | [] => []
  | msg :: msgs =>
    if capacity - ((msg :: msgs).map weight).sum < need then kept need msgs else msg :: msgs

def exec (b : Outbox α) : Op α → Outbox α
  | .put need msg =>
    let msgs := kept weight capacity need b.waiting
    if (msgs.map weight).sum + weight msg ≤ capacity then { b with waiting := msgs ++ [msg] }
    else { b with waiting := msgs }
  | .take =>
    match b.waiting with
    | [] => b
    | msg :: msgs => ⟨b.taken ++ [msg], msgs⟩

/-- The outbox after some operations. -/
def execAll (b : Outbox α) (ops : List (Op α)) : Outbox α := ops.foldl (exec weight capacity) b

/-- Nothing needs to be dropped for these operations. -/
def Roomy (b : Outbox α) (ops : List (Op α)) : Prop :=
  (b.waiting.map weight).sum + ((ops.flatMap Op.brings).map weight).sum ≤ capacity ∧
    ∀ need msg, .put need msg ∈ ops → need ≤ weight msg

variable {weight capacity} {b : Outbox α} {ops : List (Op α)} {msgs : List α}

theorem kept_suffix (need : Nat) : kept weight capacity need msgs <:+ msgs := by
  induction msgs with
  | nil => exact List.suffix_rfl
  | cons msg msgs ih =>
    unfold kept
    split
    · exact ih.trans (List.suffix_cons msg msgs)
    · exact List.suffix_rfl

theorem kept_of_room {need : Nat} (room : (msgs.map weight).sum + need ≤ capacity) :
    kept weight capacity need msgs = msgs := by
  cases msgs with
  | nil => rfl
  | cons msg msgs => exact if_neg (by omega)

/-- Nothing is kept when the empty box is too small. -/
theorem kept_eq_nil {need : Nat} (large : capacity < need) :
    kept weight capacity need msgs = [] := by
  induction msgs with
  | nil => rfl
  | cons msg msgs ih => exact (if_pos (by omega)).trans ih

/-- Dropping stops only when the room is free, or when nothing is left. -/
theorem kept_room (need : Nat) : kept weight capacity need msgs = [] ∨
    need ≤ capacity - ((kept weight capacity need msgs).map weight).sum := by
  induction msgs with
  | nil => exact .inl rfl
  | cons msg msgs ih =>
    unfold kept
    split
    · exact ih
    · rename_i room
      exact .inr (Nat.le_of_not_lt room)

/-- An operation loses messages and moves some, but neither invents nor reorders any. -/
theorem exec_sublist (op : Op α) :
    ((exec weight capacity b op).taken ++ (exec weight capacity b op).waiting).Sublist
      (b.taken ++ b.waiting ++ op.brings) := by
  cases op with
  | put need msg =>
    have old := (@kept_suffix α weight capacity b.waiting need).sublist.append_left b.taken
    unfold exec Op.brings
    dsimp only
    split
    · rw [← List.append_assoc]
      exact old.append (List.Sublist.refl [msg])
    · exact old.trans (List.sublist_append_left _ _)
  | take =>
    unfold exec Op.brings
    dsimp only
    split
    · exact List.sublist_append_left _ _
    · rename_i first
      rw [first]
      simp

theorem execAll_sublist :
    ((execAll weight capacity b ops).taken ++ (execAll weight capacity b ops).waiting).Sublist
      (b.taken ++ b.waiting ++ ops.flatMap Op.brings) := by
  induction ops generalizing b with
  | nil => simp [execAll]
  | cons op ops ih =>
    rw [List.flatMap_cons, ← List.append_assoc]
    exact ih.trans ((exec_sublist op).append (List.Sublist.refl _))

/-- With enough room an operation loses nothing. -/
theorem exec_exact {op : Op α} (roomy : Roomy weight capacity b (op :: ops)) :
    (exec weight capacity b op).taken ++ (exec weight capacity b op).waiting =
        b.taken ++ b.waiting ++ op.brings ∧
      Roomy weight capacity (exec weight capacity b op) ops := by
  obtain ⟨total, needs⟩ := roomy
  have later := fun need msg mem => needs need msg (List.mem_cons_of_mem op mem)
  cases op with
  | put need msg =>
    have small := needs need msg List.mem_cons_self
    simp only [List.flatMap_cons, Op.brings, List.map_append, List.map_cons, List.map_nil,
      List.sum_append, List.sum_cons, List.sum_nil] at total
    have all : kept weight capacity need b.waiting = b.waiting := kept_of_room (by omega)
    have fits : (b.waiting.map weight).sum + weight msg ≤ capacity := by omega
    have put : exec weight capacity b (.put need msg) =
        { b with waiting := b.waiting ++ [msg] } := by
      unfold exec
      dsimp only
      rw [all, if_pos fits]
    rw [put]
    refine ⟨(List.append_assoc _ _ _).symm, ?_, later⟩
    simp only [List.map_append, List.map_cons, List.map_nil, List.sum_append, List.sum_cons,
      List.sum_nil]
    omega
  | take =>
    simp only [List.flatMap_cons, Op.brings, List.nil_append] at total
    unfold exec Op.brings
    dsimp only
    split
    · exact ⟨by simp, total, later⟩
    · rename_i msg msgs first
      rw [first, List.map_cons, List.sum_cons] at total
      rw [first]
      refine ⟨by simp, ?_, later⟩
      dsimp only
      omega

theorem execAll_exact (roomy : Roomy weight capacity b ops) :
    (execAll weight capacity b ops).taken ++ (execAll weight capacity b ops).waiting =
      b.taken ++ b.waiting ++ ops.flatMap Op.brings := by
  induction ops generalizing b with
  | nil => simp [execAll]
  | cons op ops ih =>
    obtain ⟨exact, rest⟩ := exec_exact roomy
    rw [List.flatMap_cons, ← List.append_assoc, ← exact]
    exact ih rest

theorem execAll_append (ops' : List (Op α)) :
    execAll weight capacity b (ops ++ ops') =
      execAll weight capacity (execAll weight capacity b ops) ops' := List.foldl_append

/-- Only an operation that takes changes what was taken. -/
theorem exec_put_taken (need : Nat) (msg : α) :
    (exec weight capacity b (.put need msg)).taken = b.taken := by
  unfold exec
  dsimp only
  split
  · rfl
  · rfl

end box
end Outbox
end Library
