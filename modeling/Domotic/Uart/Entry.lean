import Domotic.Uart.SleepTime

/-!
# A whole line

A command, a line and its end bring the editor back to `WAIT`. The field then holds as much of the
line as there is room for in front of the terminator; `t_sleep` holds the number it starts with.
-/
namespace Domotic
open Library

/-- The bytes of a field. -/
def RxUart.field (s : RxUart) (f : Field) : List UInt8 :=
  ((s.bytes f.buffer).drop f.base).take f.size

@[simp] theorem RxUart.field_adresse (s : RxUart) (n : Fin 4) :
    s.field (.adresse n) = s.row n := rfl

/-- An address line of fifteen bytes still fits its row. -/
def LineFits (f : Field) (line : List UInt8) : Prop :=
  ∀ n, f = .adresse n → line.length ≤ maxAdresseLength - 1

variable {b : Build} {s : RxUart} {f : Field} {x nl : UInt8} {line : List UInt8}

/-- The room in front of the terminator. -/
theorem take_bound (fits : LineFits f line) :
    line.take f.bound = line.take (f.size - 1) ∧ (line.take f.bound).length < f.size := by
  cases f with
  | adresse n =>
    have short : line.length ≤ 15 := fits n rfl
    have bounded : line.take 63 = line := List.take_of_length_le (by omega)
    have sized : line.take 15 = line := List.take_of_length_le short
    refine ⟨bounded.trans sized.symm, ?_⟩
    exact (congrArg List.length bounded).trans_lt (Nat.lt_succ_of_le short)
  | _ => exact ⟨rfl, (List.length_take_le _ _).trans_lt (by decide)⟩

/-- The cursor stays inside the buffer of the field. -/
theorem cursor_inside {s : RxUart} (follows : Follows (some (f, line)) s) (fits : LineFits f line) :
    f.base + s.pointeur < f.buffer.size := by
  have short : s.pointeur < f.size := follows.cursor ▸ (take_bound fits).2
  have whole : f.base + f.size ≤ f.buffer.size := by
    cases f with
    | adresse n =>
      simp only [Field.base, Field.size, Field.buffer, Buffer.size, maxAdresseLength, nbAdresse]
      omega
    | _ => decide
  omega

/-- The field at the end of its line, as a C string. -/
theorem field_line {s : RxUart} (follows : Follows (some (f, line)) s)
    (typed : Typed (some (f, line)) s) (fits : LineFits f line) (other : f ≠ .tSleep)
    (newline : isNewline nl = true) :
    cString ((rxUart0 b s nl).next.field f) = cString (line.take (f.size - 1)) := by
  obtain ⟨same, short⟩ := take_bound fits
  obtain ⟨rest, bytes⟩ := bytes_line follows typed (cursor_inside follows fits)
  obtain ⟨effects, step⟩ := rxState_newline b follows.1 other newline
  have stored : (rxUart0 b s nl).next.bytes f.buffer =
      (s.bytes f.buffer).set (f.base + s.pointeur) 0 := by
    rw [rxUart0_next, step, ← RxUart.put_bytes]
    cases f <;> rfl
  have room : f.size - (line.take f.bound).length =
      f.size - (line.take f.bound).length - 1 + 1 := by
    omega
  rw [RxUart.field, stored, bytes, List.take_append, List.take_of_length_le short.le, room,
    List.take_succ_cons, cString_append, same]

/-- From `WAIT` a command, a line and its end lead back to `WAIT`. The field holds the bytes of the
line that have room in front of its last place, as a C string, and `t_sleep` the number that the
first nine bytes start with. -/
theorem line_stored (b : Build) (waiting : s.state = .wait) (opens : command x = some f)
    (typing : ∀ c ∈ line, isNewline c = false) (fits : LineFits f line)
    (newline : isNewline nl = true) :
    (rxBytes b s (x :: line ++ [nl])).state = .wait ∧
    (f ≠ .tSleep → cString ((rxBytes b s (x :: line ++ [nl])).field f) =
      cString (line.take (f.size - 1))) ∧
    (f = .tSleep → (rxBytes b s (x :: line ++ [nl])).tSleep = decimalPrefix (line.take 9)) := by
  have idle : s.editing = none := editing_eq_none.mpr waiting
  obtain ⟨follows, typed⟩ := typed_line b idle opens typing
  refine ⟨?_, fun other => ?_, ?_⟩
  · have closed : (rxUart0 b (rxBytes b s (x :: line)) nl).next.editing = none := by
      simpa [lineStep, newline] using (follows_step b nl follows).1
    rw [rxBytes_snoc]
    exact editing_eq_none.mp closed
  · rw [rxBytes_snoc]
    exact field_line follows typed fits other newline
  · rintro rfl
    exact tSleep_line b idle opens typing newline

/-- The address `10.0.0.12345678` of fifteen bytes, ended by CR. -/
theorem line_stored_address :
    (rxBytes .prise (.boot .blank)
      (97 :: [49, 48, 46, 48, 46, 48, 46, 49, 50, 51, 52, 53, 54, 55, 56] ++ [13])).state = .wait ∧
    cString ((rxBytes .prise (.boot .blank)
      (97 :: [49, 48, 46, 48, 46, 48, 46, 49, 50, 51, 52, 53, 54, 55, 56] ++ [13])).field
        (.adresse 0)) =
      [49, 48, 46, 48, 46, 48, 46, 49, 50, 51, 52, 53, 54, 55, 56] := by
  obtain ⟨state, field, -⟩ := @line_stored (.boot .blank) (.adresse 0) 97 13
    [49, 48, 46, 48, 46, 48, 46, 49, 50, 51, 52, 53, 54, 55, 56] .prise rfl (by decide)
    (by simp [isNewline]) (fun _ _ => by decide) (by decide)
  exact ⟨state, (field (by decide)).trans (by decide)⟩

end Domotic
