import Mathlib.Data.List.Basic

/-!
# Byte stuffing

A message travels between two marks; a mark or the escape inside it is replaced by the escape
and a masked symbol. `read` undoes this from a stream, whatever it held before the first mark.
-/
namespace Library

universe u

/-- The three reserved symbols and the masking of a reserved symbol behind an escape. -/
structure Stuffing (α : Type u) where
  esc : α
  first : α
  last : α
  mask : α → α
  mask_mask (a : α) : mask (mask a) = a
  esc_ne_first : esc ≠ first
  esc_ne_last : esc ≠ last
  first_ne_last : first ≠ last
  /-- A masked reserved symbol is not reserved. -/
  mask_plain (a : α) : a = esc ∨ a = first ∨ a = last →
    mask a ≠ esc ∧ mask a ≠ first ∧ mask a ≠ last

namespace Stuffing
variable {α : Type u} [DecidableEq α] (s : Stuffing α)

def Special (a : α) : Prop := a = s.esc ∨ a = s.first ∨ a = s.last

instance (a : α) : Decidable (s.Special a) := inferInstanceAs (Decidable (_ ∨ _ ∨ _))

def escape (a : α) : List α := if s.Special a then [s.esc, s.mask a] else [a]

def stuff (msg : List α) : List α := msg.flatMap s.escape

def frame (msg : List α) : List α := s.first :: (s.stuff msg ++ [s.last])

def frames (msgs : List (List α)) : List α := msgs.flatMap s.frame

/-- The number of symbols to be escaped. -/
def specials (msg : List α) : Nat := msg.countP fun a => s.Special a

/-- Read to the end of the current frame; a first mark starts again. -/
def read (data : List α) (escaped : Bool) : List α → Option (List α × List α)
  | [] => none
  | a :: as =>
    if a = s.esc then read data true as
    else if a = s.first then read [] false as
    else if a = s.last then some (data, as)
    else read (data ++ [if escaped then s.mask a else a]) false as

@[simp] theorem stuff_nil : s.stuff [] = [] := rfl
@[simp] theorem stuff_cons (a : α) (msg : List α) :
    s.stuff (a :: msg) = s.escape a ++ s.stuff msg := rfl
@[simp] theorem frames_nil : s.frames [] = [] := rfl
@[simp] theorem frames_cons (msg : List α) (msgs : List (List α)) :
    s.frames (msg :: msgs) = s.frame msg ++ s.frames msgs := rfl

theorem frames_append (msgs msgs' : List (List α)) :
    s.frames (msgs ++ msgs') = s.frames msgs ++ s.frames msgs' := List.flatMap_append

theorem stuff_length (msg : List α) : (s.stuff msg).length = msg.length + s.specials msg := by
  induction msg with
  | nil => rfl
  | cons a msg ih =>
    simp only [stuff_cons, List.length_append, ih, specials, List.countP_cons, List.length_cons,
      escape]
    by_cases special : s.Special a
    · simp only [special, decide_true, ↓reduceIte, List.length_cons, List.length_nil]
      omega
    · simp only [special, decide_false, ↓reduceIte, List.length_cons, List.length_nil,
        Bool.false_eq_true]
      omega

theorem frame_length (msg : List α) :
    (s.frame msg).length = msg.length + s.specials msg + 2 := by
  simp only [frame, List.length_cons, List.length_append, stuff_length, List.length_nil]

/-! ## Reading what was framed -/

theorem read_escape (data : List α) (a : α) (as : List α) :
    s.read data false (s.escape a ++ as) = s.read (data ++ [a]) false as := by
  unfold escape
  split
  · rename_i special
    obtain ⟨not_esc, not_first, not_last⟩ := s.mask_plain a special
    simp [read, not_esc, not_first, not_last, s.mask_mask]
  · rename_i plain
    obtain ⟨not_esc, not_first, not_last⟩ := by simpa [Special] using plain
    simp [read, not_esc, not_first, not_last]

theorem read_stuff (data msg as : List α) :
    s.read data false (s.stuff msg ++ as) = s.read (data ++ msg) false as := by
  induction msg generalizing data with
  | nil => simp
  | cons a msg ih => simp [List.append_assoc, read_escape, ih]

/-- A frame is read back, whatever was read before it. -/
theorem read_frame (data : List α) (escaped : Bool) (msg as : List α) :
    s.read data escaped (s.frame msg ++ as) = some (msg, as) := by
  have start : s.read data escaped (s.frame msg ++ as) =
      s.read [] false (s.stuff msg ++ (s.last :: as)) := by
    simp [frame, read, s.esc_ne_first.symm]
  have finish : s.read ([] ++ msg) false (s.last :: as) = some (msg, as) := by
    simp [read, s.esc_ne_last.symm, s.first_ne_last.symm]
  rw [start, read_stuff, finish]

/-- A stream of frames is the stream of one list of messages only. -/
theorem frames_injective : Function.Injective s.frames := by
  intro msgs
  induction msgs with
  | nil =>
    intro msgs' same
    cases msgs' with
    | nil => rfl
    | cons msg msgs' => simp [frame] at same
  | cons msg msgs ih =>
    intro msgs' same
    cases msgs' with
    | nil => simp [frame] at same
    | cons msg' msgs' =>
      have back := s.read_frame [] false msg (s.frames msgs)
      have back' := s.read_frame [] false msg' (s.frames msgs')
      rw [← frames_cons, same, frames_cons, back'] at back
      obtain ⟨rfl, rest⟩ := Prod.mk.inj (Option.some.inj back)
      rw [ih rest.symm]

end Stuffing

end Library
