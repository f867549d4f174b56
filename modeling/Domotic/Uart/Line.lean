import Domotic.Uart.Isolation

/-!
# What a line leaves in its buffer

While a line is open, the bytes typed so far stand in the buffer of its field in order, as far
as the cursor goes. Bytes past the bound overwrite the last place and no other.
-/
namespace Domotic
open Library

def Buffer.size : Buffer → Nat
  | .strNumber => 10
  | .topic => maxTopicLength
  | .ssid => maxSsidLength
  | .stationName => maxLengthStationName
  | .password => maxPasswordLength
  | .adresse32bit => maxAdresseLength * nbAdresse

/-- The bytes of a buffer. -/
def RxUart.bytes (s : RxUart) : Buffer → List UInt8
  | .strNumber => s.strNumber.toList
  | .topic => s.topic.toList
  | .ssid => s.ssid.toList
  | .stationName => s.stationName.toList
  | .password => s.password.toList
  | .adresse32bit => s.adresse32bit.toList

theorem RxUart.bytes_length (s : RxUart) (b : Buffer) : (s.bytes b).length = b.size := by
  cases b <;> exact Vector.length_toList

theorem RxUart.put_bytes (s : RxUart) (b : Buffer) (i : Nat) (c : UInt8) :
    (s.put b i c).bytes b = (s.bytes b).set i c := by
  cases b <;> exact Vector.toList_setIfInBounds

/-- The bytes typed stand in the buffer, up to the place where the cursor stops. -/
def Typed (l : Line) (s : RxUart) : Prop :=
  ∀ f typed, l = some (f, typed) → ∀ i < f.bound, f.base + i < f.buffer.size →
    ∀ c, typed[i]? = some c → (s.bytes f.buffer)[f.base + i]? = some c

theorem typed_none (s : RxUart) : Typed none s := nofun

/-- A byte is stored behind the ones typed before, or over the last place. -/
theorem typed_byte {s : RxUart} {f : Field} {typed : List UInt8} (c : UInt8)
    (cursor : s.pointeur = min typed.length f.bound) (h : Typed (some (f, typed)) s) :
    Typed (some (f, typed ++ [c])) (s.put f.buffer (f.base + s.pointeur) c) := by
  intro g typed' eq i before inside d at_i
  obtain ⟨rfl, rfl⟩ : f = g ∧ typed ++ [c] = typed' := by simpa using eq
  rw [RxUart.put_bytes]
  obtain old | here | beyond := Nat.lt_trichotomy i typed.length
  · rw [List.getElem?_set_ne (by omega)]
    rw [List.getElem?_append_left old] at at_i
    exact h f typed rfl i before inside d at_i
  · obtain rfl : c = d := by simpa [here] using at_i
    have place : s.pointeur = i := by omega
    rw [place, List.getElem?_set_self (by rwa [RxUart.bytes_length])]
  · rw [List.getElem?_eq_none (by simpa using beyond)] at at_i
    cases at_i

theorem typed_step (b : Build) {l : Line} {s : RxUart} (c : UInt8) (follows : Follows l s)
    (h : Typed l s) : Typed (lineStep l c) (rxUart0 b s c).next := by
  obtain ⟨field, cursor⟩ := follows
  match l with
  | none =>
    intro f typed opened i _ _ d at_i
    cases hc : command c with
    | none => simp [lineStep, hc] at opened
    | some g =>
      obtain ⟨-, rfl⟩ : g = f ∧ typed = [] := by simpa [lineStep, hc] using opened
      cases at_i
  | some (f, typed) =>
    by_cases newline : isNewline c = true
    · have closed : lineStep (some (f, typed)) c = none := if_pos newline
      rw [closed]
      exact typed_none _
    · have typing : isNewline c = false := Bool.eq_false_iff.mpr newline
      have longer : lineStep (some (f, typed)) c = some (f, typed ++ [c]) := if_neg newline
      obtain ⟨tooLong, step⟩ := rxState_default b field typing
      rw [longer, rxUart0_next, step]
      have stored := typed_byte c (cursor f typed rfl) h
      intro g typed' eq
      have cells := stored g typed' eq
      cases hg : g.buffer <;> rw [hg] at cells <;> exact cells

theorem typed_bytes (b : Build) {l : Line} {s : RxUart} (follows : Follows l s) (h : Typed l s)
    (bytes : List UInt8) : Follows (bytes.foldl lineStep l) (rxBytes b s bytes) ∧
      Typed (bytes.foldl lineStep l) (rxBytes b s bytes) := by
  induction bytes generalizing l s with
  | nil => exact ⟨follows, h⟩
  | cons c bytes ih => exact ih (follows_step b c follows) (typed_step b c follows h)

theorem lineStep_typing {f : Field} {line : List UInt8} (typing : ∀ c ∈ line, isNewline c = false)
    (before : List UInt8) : line.foldl lineStep (some (f, before)) = some (f, before ++ line) := by
  induction line generalizing before with
  | nil => simp
  | cons c line ih =>
    have longer : lineStep (some (f, before)) c = some (f, before ++ [c]) := by
      simp [lineStep, typing c List.mem_cons_self]
    rw [List.foldl_cons, longer, ih fun d mem => typing d (List.mem_cons_of_mem c mem)]
    simp

theorem rxBytes_snoc (b : Build) (s : RxUart) (bytes : List UInt8) (c : UInt8) :
    rxBytes b s (bytes ++ [c]) = (rxUart0 b (rxBytes b s bytes) c).next := by
  rw [rxBytes, List.foldl_append, List.foldl_cons, List.foldl_nil, rxBytes]

/-- A command and a line, typed to a waiting editor: the line is open, and its bytes are in the
buffer of its field. -/
theorem typed_line (b : Build) {s : RxUart} {f : Field} {x : UInt8} {line : List UInt8}
    (waiting : s.editing = none) (opens : command x = some f)
    (typing : ∀ c ∈ line, isNewline c = false) :
    Follows (some (f, line)) (rxBytes b s (x :: line)) ∧
      Typed (some (f, line)) (rxBytes b s (x :: line)) := by
  have open_line : (x :: line).foldl lineStep none = some (f, line) := by
    have first : lineStep none x = some (f, []) := by simp [lineStep, opens]
    rw [List.foldl_cons, first, lineStep_typing typing]
    rfl
  have run := typed_bytes b (l := none) ⟨waiting, by simp⟩ (typed_none s) (x :: line)
  rwa [open_line] at run

/-- The cursor is behind the bytes of the line that have a place in the field. -/
theorem Follows.cursor {s : RxUart} {f : Field} {line : List UInt8}
    (follows : Follows (some (f, line)) s) : s.pointeur = (line.take f.bound).length := by
  rw [List.length_take, Nat.min_comm]
  exact follows.2 f line rfl

/-- A terminator at the cursor stands behind the bytes of the line that the cursor went past. -/
theorem bytes_line {s : RxUart} {f : Field} {line : List UInt8}
    (follows : Follows (some (f, line)) s) (typed : Typed (some (f, line)) s)
    (inside : f.base + s.pointeur < f.buffer.size) : ∃ rest,
      ((s.bytes f.buffer).set (f.base + s.pointeur) 0).drop f.base =
        line.take f.bound ++ 0 :: rest := by
  have cursor := follows.cursor
  have length := s.bytes_length f.buffer
  have room : s.pointeur < ((s.bytes f.buffer).drop f.base).length := by
    rw [List.length_drop]
    omega
  have front : ((s.bytes f.buffer).drop f.base).take s.pointeur = line.take f.bound := by
    have length := (List.length_take_of_le (Nat.le_of_lt room)).trans cursor
    refine List.ext_getElem length fun i hi hi' => ?_
    have before : i < line.length ∧ i < f.bound := by simpa [and_comm] using hi'
    have at_i : i < s.pointeur := cursor ▸ hi'
    have cell := typed f line rfl i before.2 (by omega) _ (List.getElem?_eq_getElem before.1)
    rw [List.getElem_take, List.getElem_take, List.getElem_drop]
    exact (List.getElem?_eq_some_iff.mp cell).2
  refine ⟨((s.bytes f.buffer).drop f.base).drop (s.pointeur + 1), ?_⟩
  rw [List.drop_set, if_neg (by omega), Nat.add_sub_cancel_left, List.set_eq_take_append_cons_drop,
    if_pos room, front]

end Domotic
