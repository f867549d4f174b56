import Domotic.Library.Decimal
import Domotic.Uart.Line
import Domotic.Uart.Storage

/-!
# The sleep time

`rx_uart0` reads at most nine digits, so that the parser cannot overflow. The clamp of the
value stands under `#ifdef sleep`, which no build defines (the switch is `SLEEP`), and
`go_sleep` multiplies by a million in 32 bits before the argument is widened to 64.
-/
namespace Domotic
open Library

/-- `go_sleep`: the microseconds that `system_deep_sleep` gets. -/
def goSleep (tSleep : Nat) : Nat := uint32 ↑(uint32 ↑(tSleep * 1000) * 1000)

/-- The configuration that `save_and_restart` writes. -/
def RxUart.config (s : RxUart) : Configuration :=
  ⟨s.ssid, s.password, s.adresse32bit, s.stationName, s.tSleep⟩

/-- The configuration after a number of saves, each over a flash, and the restarts they end in. -/
def restarts (cfg : Configuration) (flashes : List Flash) : Configuration :=
  flashes.foldl (fun cfg f => .boot (saveAndRestart cfg f)) cfg

/-- The device sleeps as long as configured, now and after any saves and restarts. -/
def SleepsAsStored (s : RxUart) : Prop :=
  ∀ flashes, goSleep (restarts s.config flashes).tSleep = s.tSleep * 1000000

/-- A line typed to the waiting editor stores `t` in `t_sleep`. -/
def StoredByLine (b : Build) (t : Nat) : Prop :=
  ∃ (s : RxUart) (x : UInt8) (line : List UInt8) (nl : UInt8), s.editing = none ∧
    command x = some .tSleep ∧ (∀ c ∈ line, isNewline c = false) ∧ isNewline nl = true ∧
    (rxBytes b s (x :: line ++ [nl])).tSleep = t

/-! ## The parser -/

/-- The parser reads the digits at the front, as long as their number fits in an `int`. -/
theorem stringToUintLoop_eq {str : List UInt8} {v : Nat}
    (small : ofDigits v (str.takeWhile isDigit) < 2147483648) :
    stringToUintLoop str v = ofDigits v (str.takeWhile isDigit) := by
  induction str generalizing v with
  | nil => rfl
  | cons c str ih =>
    by_cases digit : isDigit c = true
    · have range : 48 ≤ c ∧ c ≤ 57 := by
        simpa only [isDigit, Bool.and_eq_true, decide_eq_true_eq] using digit
      have low := (isDigit_range digit).1
      rw [List.takeWhile_cons_of_pos digit, ofDigits_cons] at small ⊢
      have next : (v * 10 + (c.toNat - 48) : Int) = ↑(v * 10 + (c.toNat - 48) : Nat) := by
        push_cast [low]
        ring
      have bound := ofDigits_le (v * 10 + (c.toNat - 48)) (str.takeWhile isDigit)
      rw [stringToUintLoop, if_pos range, next, int32_of_range (by omega) (by omega)]
      exact ih small
    · have other : ¬ (48 ≤ c ∧ c ≤ 57) := by
        simpa only [isDigit, Bool.and_eq_true, decide_eq_true_eq] using digit
      rw [stringToUintLoop, if_neg other, List.takeWhile_cons_of_neg digit]
      rfl

theorem stringToUint_eq {str : List UInt8} (small : decimalPrefix str < 2147483648) :
    stringToUint str = decimalPrefix str := by
  have value : stringToUintLoop str 0 = decimalPrefix str := stringToUintLoop_eq (v := 0) small
  rw [stringToUint, value, uint32_eq]
  omega

/-! ## The value stored -/

theorem rxConfigTSleep_tSleep (b : Build) {s : RxUart} {nl : UInt8}
    (field : s.editing = some .tSleep) (newline : isNewline nl = true) :
    (rxUart0 b s nl).next.tSleep =
      stringToUint (s.strNumber.setIfInBounds s.pointeur 0).toList := by
  have state : s.state = .configTSleep := editing_eq_tSleep.mp field
  simp [rxState, state, rxConfigTSleep, newline, endLine, RxUart.put]

/-- The digit buffer at the end of a line: its first nine bytes, and a terminator. -/
theorem strNumber_line {s : RxUart} {line : List UInt8} (follows : Follows (some (.tSleep, line)) s)
    (typed : Typed (some (.tSleep, line)) s) : ∃ rest,
      (s.strNumber.setIfInBounds s.pointeur 0).toList = line.take 9 ++ 0 :: rest := by
  have cursor : s.pointeur = min line.length 9 := follows.2 .tSleep line rfl
  have inside : Field.tSleep.base + s.pointeur < Field.tSleep.buffer.size := by
    simp only [Field.base, Field.buffer, Buffer.size]
    omega
  simpa [Field.base, Field.buffer, Field.bound, Field.size, RxUart.bytes] using
    bytes_line follows typed inside

/-- `t_sleep` after a line: the digits at the front of its first nine bytes. -/
theorem tSleep_line (b : Build) {s : RxUart} {x nl : UInt8} {line : List UInt8}
    (waiting : s.editing = none) (opens : command x = some .tSleep)
    (typing : ∀ c ∈ line, isNewline c = false) (newline : isNewline nl = true) :
    (rxBytes b s (x :: line ++ [nl])).tSleep = decimalPrefix (line.take 9) := by
  obtain ⟨follows, typed⟩ := typed_line b waiting opens typing
  obtain ⟨rest, number⟩ := strNumber_line follows typed
  have value : decimalPrefix (line.take 9 ++ 0 :: rest) = decimalPrefix (line.take 9) :=
    decimalPrefix_append (by decide) _ _
  have small := decimalPrefix_lt_pow (line.take 9) (List.length_take_le 9 line)
  rw [rxBytes_snoc, rxConfigTSleep_tSleep b follows.1 newline, number,
    stringToUint_eq (by omega), value]

/-- Nine digits are below a thousand million. -/
theorem StoredByLine.lt {b : Build} {t : Nat} (h : StoredByLine b t) : t < 1000000000 := by
  obtain ⟨s, x, line, nl, waiting, opens, typing, newline, rfl⟩ := h
  rw [tSleep_line b waiting opens typing newline]
  exact decimalPrefix_lt_pow (line.take 9) (List.length_take_le 9 line)

/-- The scale 100, typed after boot. -/
theorem storedByLine_hundred : StoredByLine .store 100 :=
  ⟨.boot .blank, 120, [49, 48, 48], 10, rfl, by decide, by simp [isNewline],
    by decide, by decide +kernel⟩

/-! ## The duration -/

theorem goSleep_eq (t : Nat) : goSleep t = t * 1000000 % 4294967296 := by
  rw [goSleep, uint32_natCast, uint32_natCast, Nat.mod_mul_mod, Nat.mul_assoc]

theorem goSleep_eq_iff {t : Nat} : goSleep t = t * 1000000 ↔ t ≤ 4294 := by
  rw [goSleep_eq]
  omega

theorem restarts_tSleep {cfg : Configuration} (small : cfg.tSleep < 4294967296)
    (flashes : List Flash) : (restarts cfg flashes).tSleep = cfg.tSleep := by
  induction flashes generalizing cfg with
  | nil => rfl
  | cons f flashes ih =>
    have same : (Configuration.boot (saveAndRestart cfg f)).tSleep = cfg.tSleep :=
      (configuration_survives small f).1.tSleep
    rw [restarts, List.foldl_cons, ← same]
    exact ih (by rw [same]; exact small)

/-- The sleep lasts as long as the stored value says exactly when that value is at most 4294
seconds, that is for the digits at the front of the first nine bytes of the line. -/
theorem sleepsAsStored_iff (b : Build) {s : RxUart} {x nl : UInt8} {line : List UInt8}
    (waiting : s.editing = none) (opens : command x = some .tSleep)
    (typing : ∀ c ∈ line, isNewline c = false) (newline : isNewline nl = true) :
    SleepsAsStored (rxBytes b s (x :: line ++ [nl])) ↔ decimalPrefix (line.take 9) ≤ 4294 := by
  have stored := tSleep_line b waiting opens typing newline
  have small := decimalPrefix_lt_pow (line.take 9) (List.length_take_le 9 line)
  have kept : ∀ flashes, (restarts (rxBytes b s (x :: line ++ [nl])).config flashes).tSleep =
      decimalPrefix (line.take 9) := fun flashes =>
    (restarts_tSleep (stored.trans_lt (Nat.lt_trans small (by decide))) flashes).trans stored
  simp only [SleepsAsStored, kept, stored, goSleep_eq_iff]
  exact ⟨fun h => h [], fun h _ => h⟩

/-- A minute. -/
theorem sleepsAsStored_minute :
    SleepsAsStored (rxBytes .meteo (.boot .blank) (120 :: [54, 48] ++ [10])) :=
  (sleepsAsStored_iff .meteo rfl (by decide) (by simp [isNewline]) (by decide)).mpr (by decide)

/-- Five thousand seconds are 5000000000 microseconds; the device sleeps for 705032704. -/
theorem not_sleepsAsStored_hours :
    ¬ SleepsAsStored (rxBytes .meteo (.boot .blank) (120 :: [53, 48, 48, 48] ++ [10])) ∧
    (rxBytes .meteo (.boot .blank) (120 :: [53, 48, 48, 48] ++ [10])).tSleep = 5000 ∧
    goSleep 5000 = 705032704 := by
  have stored : (rxBytes .meteo (.boot .blank) (120 :: [53, 48, 48, 48] ++ [10])).tSleep =
      5000 := by
    decide +kernel
  have sleeps : goSleep 5000 = 705032704 := by decide +kernel
  refine ⟨fun h => ?_, stored, sleeps⟩
  have now : goSleep (rxBytes .meteo (.boot .blank) (120 :: [53, 48, 48, 48] ++ [10])).tSleep =
    (rxBytes .meteo (.boot .blank) (120 :: [53, 48, 48, 48] ++ [10])).tSleep * 1000000 := h []
  rw [stored, sleeps] at now
  cases now

end Domotic
