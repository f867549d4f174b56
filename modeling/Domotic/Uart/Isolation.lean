import Domotic.Uart.Editor

/-!
# Editing one field at a time

`Line` is what a user types, with no cursor and no buffer: the field whose line is open and
the bytes of that line so far. The cursor of `rxUart0` follows it, saturated at the bound
of the state (`Follows`). Where a byte is stored is therefore a function of the length of
the line, and a store leaves the buffer of its field only in an address line that already
has sixteen bytes.
-/
namespace Domotic
open Library

/-- The configuration fields that a line edits. -/
inductive Field where
  | ssid | password | adresse (n : Fin 4) | stationName | topic | tSleep
  deriving DecidableEq, Repr

namespace Field

def buffer : Field → Buffer
  | .ssid => .ssid
  | .password => .password
  | .adresse _ => .adresse32bit
  | .stationName => .stationName
  | .topic => .topic
  | .tSleep => .strNumber

/-- Where the field starts in its buffer: an address is one row. -/
def base : Field → Nat
  | .adresse n => maxAdresseLength * n
  | _ => 0

def size : Field → Nat
  | .ssid => maxSsidLength
  | .password => maxPasswordLength
  | .adresse _ => maxAdresseLength
  | .stationName => maxLengthStationName
  | .topic => maxTopicLength
  | .tSleep => 10

/-- Where the cursor stops. -/
def bound : Field → Nat
  | .adresse _ => maxPasswordLength - 1
  | f => f.size - 1

def Contains (f : Field) (w : ByteStore) : Prop :=
  w.buffer = f.buffer ∧ f.base ≤ w.index ∧ w.index < f.base + f.size

end Field

/-- The line being typed, if one is open. -/
abbrev Line := Option (Field × List UInt8)

/-- The field whose line a byte opens. -/
def command (c : UInt8) : Option Field :=
  match Char.ofUInt8 c with
  | 's' | 'S' => some .ssid
  | 'p' | 'P' => some .password
  | 'a' | 'A' => some (.adresse 0)
  | 'n' | 'N' => some (.adresse 1)
  | 'g' | 'G' => some (.adresse 2)
  | 'm' | 'M' => some (.adresse 3)
  | 'i' | 'I' => some .stationName
  | 't' | 'T' => some .topic
  | 'x' | 'X' => some .tSleep
  | _ => none

def lineStep : Line → UInt8 → Line
  | none, c => (command c).map (·, [])
  | some (f, typed), c => if isNewline c then none else some (f, typed ++ [c])

def lineOf (bytes : List UInt8) : Line := bytes.foldl lineStep none

/-- The field that the state of the editor selects. -/
def RxUart.editing (s : RxUart) : Option Field :=
  match s.state with
  | .wait => none
  | .configSsid => some .ssid
  | .configTopic => some .topic
  | .configTSleep => some .tSleep
  | .configName => some .stationName
  | .configPassword => some .password
  | .configAddresse => some (.adresse s.numAdresse)

/-- `adresse[n]` -/
def RxUart.row (s : RxUart) (n : Fin 4) : List UInt8 :=
  (s.adresse32bit.toList.drop (maxAdresseLength * n)).take maxAdresseLength

/-- The two states agree on every configuration field other than `f`. -/
structure SameExcept (f : Option Field) (s t : RxUart) : Prop where
  ssid : f ≠ some .ssid → t.ssid = s.ssid
  password : f ≠ some .password → t.password = s.password
  adresse : ∀ n, f ≠ some (.adresse n) → t.row n = s.row n
  stationName : f ≠ some .stationName → t.stationName = s.stationName
  topic : f ≠ some .topic → t.topic = s.topic
  tSleep : f ≠ some .tSleep → t.tSleep = s.tSleep

/-- What one received byte may do: store inside the field being edited, and change no
other field. -/
def StepIsolated (b : Build) (s : RxUart) (c : UInt8) : Prop :=
  (∀ w ∈ (rxUart0 b s c).stores, ∃ f, s.editing = some f ∧ f.Contains w) ∧
    SameExcept s.editing s (rxUart0 b s c).next

/-- Every byte of the sequence is isolated in the state it is received in. -/
def Isolated (b : Build) (s : RxUart) (bytes : List UInt8) : Prop :=
  ∀ pre c post, bytes = pre ++ c :: post → StepIsolated b (rxBytes b s pre) c

/-- No byte, an ending CR or LF included, follows sixteen bytes of an address line. -/
def AddressLinesFit (bytes : List UInt8) : Prop :=
  ∀ pre c post, bytes = pre ++ c :: post →
    ∀ n typed, lineOf pre = some (.adresse n, typed) → typed.length < maxAdresseLength

/-! ## One step -/

section put
variable (s : RxUart) (b : Buffer) (i : Nat) (c : UInt8)

@[simp] theorem RxUart.put_state : (s.put b i c).state = s.state := by cases b <;> rfl
@[simp] theorem RxUart.put_pointeur : (s.put b i c).pointeur = s.pointeur := by cases b <;> rfl
@[simp] theorem RxUart.put_numAdresse : (s.put b i c).numAdresse = s.numAdresse := by
  cases b <;> rfl
@[simp] theorem RxUart.put_tSleep : (s.put b i c).tSleep = s.tSleep := by cases b <;> rfl

end put

theorem SameExcept.refl (f : Option Field) (s : RxUart) : SameExcept f s s :=
  ⟨fun _ => rfl, fun _ => rfl, fun _ _ => rfl, fun _ => rfl, fun _ => rfl, fun _ => rfl⟩

/-- A store inside one row of the addresses leaves the other rows alone. -/
theorem RxUart.row_put (s : RxUart) {m n : Fin 4} {i : Nat} (c : UInt8) (other : m ≠ n)
    (lo : maxAdresseLength * n ≤ i) (hi : i < maxAdresseLength * n + maxAdresseLength) :
    (s.put .adresse32bit i c).row m = s.row m := by
  have apart : i < maxAdresseLength * m ∨ maxAdresseLength * m + maxAdresseLength ≤ i := by
    simp only [maxAdresseLength] at *
    omega
  simp only [row, put, Vector.toList_setIfInBounds, List.drop_set]
  split
  · rfl
  · rw [List.take_set, List.set_eq_of_length_le]
    simp only [List.length_take]
    omega

/-- A store inside a field changes no other field. -/
theorem SameExcept.put (s : RxUart) {f : Field} {i : Nat} (c : UInt8)
    (lo : f.base ≤ i) (hi : i < f.base + f.size) :
    SameExcept (some f) s (s.put f.buffer i c) := by
  cases f with
  | adresse n =>
    refine ⟨fun _ => rfl, fun _ => rfl, fun m hm => ?_, fun _ => rfl, fun _ => rfl, fun _ => rfl⟩
    exact s.row_put c (fun eq => hm (by rw [eq])) lo hi
  | _ => constructor <;> simp [Field.buffer, RxUart.put, RxUart.row]

@[simp] theorem rxUart0_next (b : Build) (s : RxUart) (c : UInt8) :
    (rxUart0 b s c).next = (rxState b s c).next := rfl
@[simp] theorem rxUart0_stores (b : Build) (s : RxUart) (c : UInt8) :
    (rxUart0 b s c).stores = (rxState b s c).stores := rfl

theorem editing_eq_none {s : RxUart} : s.editing = none ↔ s.state = .wait := by
  unfold RxUart.editing
  cases s.state <;> simp

theorem editing_eq_tSleep {s : RxUart} : s.editing = some .tSleep ↔ s.state = .configTSleep := by
  unfold RxUart.editing
  cases s.state <;> simp

/-- In `WAIT` nothing is stored, and a command opens the line of its field. -/
theorem rxState_wait (b : Build) {s : RxUart} (c : UInt8) (h : s.editing = none) :
    (rxState b s c).stores = [] ∧ SameExcept none s (rxState b s c).next ∧
      (rxState b s c).next.editing = command c ∧
      (command c ≠ none → (rxState b s c).next.pointeur = 0) := by
  have wait : s.state = .wait := editing_eq_none.mp h
  have same : ∀ (st : StateRxUart) (p : Nat) (n : Fin 4),
      SameExcept none s { s with state := st, pointeur := p, numAdresse := n } :=
    fun _ _ _ => ⟨fun _ => rfl, fun _ => rfl, fun _ _ => rfl, fun _ => rfl, fun _ => rfl,
      fun _ => rfl⟩
  simp only [rxState, wait, rxWait]
  split <;> rename_i letter <;>
    simp [command, *, startLine, startAdresse, RxUart.editing, SameExcept.refl]

/-- A byte of a line is stored at the cursor. -/
theorem rxState_default (b : Build) {s : RxUart} {f : Field} {c : UInt8}
    (h : s.editing = some f) (hc : isNewline c = false) :
    ∃ tooLong, rxState b s c = editByte s f.buffer f.base f.bound tooLong c := by
  revert h
  unfold RxUart.editing rxState
  cases s.state <;> intro h <;> simp only [Option.some.injEq, reduceCtorEq] at h <;> subst h <;>
    simp only [rxConfigSsid, rxConfigTopic, rxConfigTSleep, rxConfigName, rxConfigPassword,
      rxConfigAddresse, hc] <;> exact ⟨_, rfl⟩

/-- The end of a line terminates the string at the cursor. -/
theorem rxState_newline (b : Build) {s : RxUart} {f : Field} {c : UInt8}
    (h : s.editing = some f) (hf : f ≠ .tSleep) (hc : isNewline c = true) :
    ∃ effects, rxState b s c = endLine s f.buffer f.base effects := by
  revert h
  unfold RxUart.editing rxState
  cases s.state <;> intro h <;> simp only [Option.some.injEq, reduceCtorEq] at h <;> subst h <;>
    simp only [rxConfigSsid, rxConfigTopic, rxConfigName, rxConfigPassword,
      rxConfigAddresse, hc, ↓reduceIte] <;> first | exact absurd rfl hf | exact ⟨_, rfl⟩

/-- The end of the sleep-time line parses the digits and prints them back into the digit
buffer, all ten bytes of which it writes. -/
theorem rxState_newline_tSleep (b : Build) {s : RxUart} {c : UInt8}
    (h : s.editing = some .tSleep) (hc : isNewline c = true) :
    (rxState b s c).stores =
        ⟨.strNumber, s.pointeur⟩ :: (List.range 10).map (⟨.strNumber, ·⟩) ∧
      (rxState b s c).next.editing = none ∧ SameExcept (some .tSleep) s (rxState b s c).next := by
  have state : s.state = .configTSleep := editing_eq_tSleep.mp h
  simp only [rxState, state, rxConfigTSleep, hc, ↓reduceIte, endLine, RxUart.editing]
  refine ⟨by simp, trivial, ?_⟩
  constructor <;> simp [RxUart.put, RxUart.row]

/-! ## The cursor follows the line -/

/-- The editor has the same line open, and its cursor is the length of that line saturated
at the bound of the state. -/
def Follows (l : Line) (s : RxUart) : Prop :=
  s.editing = l.map (·.1) ∧ ∀ f typed, l = some (f, typed) → s.pointeur = min typed.length f.bound

theorem follows_boot (cfg : Configuration) : Follows none (.boot cfg) :=
  ⟨rfl, fun _ _ h => nomatch h⟩

theorem follows_step (b : Build) {l : Line} {s : RxUart} (c : UInt8) (h : Follows l s) :
    Follows (lineStep l c) (rxUart0 b s c).next := by
  rw [rxUart0_next]
  obtain ⟨field, cursor⟩ := h
  match l with
  | none =>
    obtain ⟨-, -, opened, start⟩ := rxState_wait b c field
    refine ⟨by rw [opened]; cases hc : command c <;> simp [lineStep, hc], ?_⟩
    intro f typed eq
    cases hc : command c with
    | none => simp [lineStep, hc] at eq
    | some g =>
      obtain ⟨rfl, rfl⟩ : g = f ∧ typed = [] := by simpa [lineStep, hc] using eq
      simpa using start (by simp [hc])
  | some (f, typed) =>
    have field : s.editing = some f := field
    have at_cursor := cursor f typed rfl
    by_cases hc : isNewline c = true
    · have closed : (rxState b s c).next.editing = none := by
        by_cases hf : f = .tSleep
        · exact (rxState_newline_tSleep b (hf ▸ field) hc).2.1
        · obtain ⟨effects, step⟩ := rxState_newline b field hf hc
          simp [step, endLine, RxUart.editing]
      simp [Follows, lineStep, hc, closed]
    · have hc : isNewline c = false := by simpa using hc
      obtain ⟨tooLong, step⟩ := rxState_default b field hc
      have keep : (rxState b s c).next.editing = some f := by
        rw [← field, step]
        simp [editByte, RxUart.editing]
      refine ⟨by simp [keep, lineStep, hc], ?_⟩
      intro g typed' eq
      obtain ⟨rfl, rfl⟩ : f = g ∧ typed ++ [c] = typed' := by simpa [lineStep, hc] using eq
      simp only [step, editByte, at_cursor, List.length_append, List.length_singleton]
      split <;> omega

theorem follows_bytes (b : Build) (cfg : Configuration) (bytes : List UInt8) :
    Follows (lineOf bytes) (rxBytes b (.boot cfg) bytes) := by
  induction bytes using List.reverseRecOn with
  | nil => exact follows_boot cfg
  | append_singleton bytes c ih =>
    simpa [lineOf, rxBytes, List.foldl_append] using follows_step b c ih

/-! ## Isolation -/

/-- A line that is not an address, or is one with fewer than sixteen bytes, has its cursor
inside its field. -/
theorem cursor_inside_iff (f : Field) (n : Nat) :
    min n f.bound < f.size ↔ ∀ k, f = .adresse k → n < maxAdresseLength := by
  cases f <;>
    simp [Field.bound, Field.size, maxSsidLength, maxPasswordLength, maxAdresseLength,
      maxLengthStationName, maxTopicLength]

/-- In a state that follows a line, a byte is isolated exactly when the cursor is inside
the field. -/
theorem stepIsolated_iff (b : Build) {l : Line} {s : RxUart} (c : UInt8) (h : Follows l s) :
    StepIsolated b s c ↔
      ∀ n typed, l = some (.adresse n, typed) → typed.length < maxAdresseLength := by
  obtain ⟨field, cursor⟩ := h
  unfold StepIsolated
  rw [rxUart0_next, rxUart0_stores]
  match l with
  | none =>
    have field : s.editing = none := field
    obtain ⟨nothing, same, -, -⟩ := rxState_wait b c field
    simp [nothing, field, same]
  | some (f, typed) =>
    have field : s.editing = some f := field
    have at_cursor := cursor f typed rfl
    have inside : s.pointeur < f.size ↔
        ∀ n typed', some (f, typed) = some (.adresse n, typed') →
          typed'.length < maxAdresseLength := by
      rw [at_cursor, cursor_inside_iff]
      constructor
      · rintro h n typed' eq
        obtain ⟨rfl, rfl⟩ : f = .adresse n ∧ typed = typed' := by simpa using eq
        exact h n rfl
      · rintro h n rfl
        exact h n typed rfl
    rw [← inside, field]
    by_cases hs : isNewline c = true ∧ f = .tSleep
    · obtain ⟨hc, rfl⟩ := hs
      obtain ⟨stores, -, same⟩ := rxState_newline_tSleep b field hc
      have ten : s.pointeur < 10 := by
        simp only [at_cursor, Field.bound, Field.size]
        omega
      simp only [stores, same, Field.size, ten, and_true, iff_true]
      intro w hw
      refine ⟨_, rfl, ?_⟩
      rcases List.mem_cons.mp hw with rfl | hw
      · exact ⟨rfl, by simp [Field.base], by simpa [Field.base, Field.size] using ten⟩
      · obtain ⟨i, hi, rfl⟩ := List.mem_map.mp hw
        exact ⟨rfl, by simp [Field.base], by simpa [Field.base, Field.size] using hi⟩
    · have step : ∃ v, (rxState b s c).stores = [⟨f.buffer, f.base + s.pointeur⟩] ∧
          ∃ st p, (rxState b s c).next =
            { s.put f.buffer (f.base + s.pointeur) v with state := st, pointeur := p } := by
        by_cases hc : isNewline c = true
        · obtain ⟨effects, step⟩ := rxState_newline b field (fun hf => hs ⟨hc, hf⟩) hc
          exact ⟨0, by rw [step]; rfl, .wait, s.pointeur, by rw [step]; simp [endLine]⟩
        · obtain ⟨tooLong, step⟩ := rxState_default b field (by simpa using hc)
          exact ⟨c, by rw [step]; rfl, s.state, _, by rw [step]; simp [editByte]; rfl⟩
      obtain ⟨v, stores, st, p, next⟩ := step
      constructor
      · rintro ⟨lands, -⟩
        obtain ⟨g, hg, contains⟩ := lands _ (by rw [stores]; exact List.mem_singleton_self _)
        obtain rfl : f = g := by simpa using hg
        have := contains.2.2
        simp only at this
        omega
      · intro lt
        refine ⟨?_, ?_⟩
        · intro w hw
          rw [stores] at hw
          obtain rfl := List.mem_singleton.mp hw
          exact ⟨f, rfl, rfl, Nat.le_add_right _ _, by simpa using lt⟩
        · have same := SameExcept.put s (f := f) (i := f.base + s.pointeur) v
            (Nat.le_add_right _ _) (by omega)
          rw [next]
          exact ⟨same.ssid, same.password, same.adresse, same.stationName, same.topic,
            same.tSleep⟩

/-- Editing is isolated, for a whole sequence of bytes from boot, exactly when no address
line runs past its sixteen bytes. -/
theorem isolated_iff_addressLinesFit (b : Build) (cfg : Configuration) (bytes : List UInt8) :
    Isolated b (.boot cfg) bytes ↔ AddressLinesFit bytes := by
  constructor
  · intro h pre c post eq
    exact (stepIsolated_iff b c (follows_bytes b cfg pre)).mp (h pre c post eq)
  · intro h pre c post eq
    exact (stepIsolated_iff b c (follows_bytes b cfg pre)).mpr (h pre c post eq)

/-- A blank configuration. -/
def Configuration.blank : Configuration :=
  ⟨.replicate 32 0, .replicate 64 0, .replicate 64 0, .replicate 32 0, 0⟩

/-- The command `a` and seventeen digits: the last digit is stored in the netmask. -/
theorem not_isolated_long_address :
    ¬ Isolated .prise (.boot .blank) (97 :: List.replicate 17 49) ∧
      (rxBytes .prise (.boot .blank) (97 :: List.replicate 17 49)).row 1 ≠
        (RxUart.boot .blank).row 1 := by
  refine ⟨fun h => ?_, by decide +kernel⟩
  have last := h (97 :: List.replicate 16 49) 49 [] rfl
  have fits := (stepIsolated_iff .prise 49 (follows_bytes .prise .blank _)).mp last
  exact absurd (fits 0 (List.replicate 16 49) (by decide)) (by decide)

end Domotic
