import Domotic.Uart.Isolation
import Domotic.Uart.Storage

/-!
# The station name as a string

`ad_name` copies the name up to its terminator, and `send_paquet_sensor` tests a byte before
the bound of its loop; both may run between two received bytes. The memory they read starts
with the buffer of the name and goes on with whatever follows it.
-/
namespace Domotic
open Library

/-- `while(*x)`: the bytes copied and the number of bytes read. -/
def copyLoop : List UInt8 → Option (List UInt8 × Nat)
  | [] => none
  | c :: mem => if c = 0 then some ([], 1) else (copyLoop mem).map fun r => (c :: r.1, r.2 + 1)

/-- `ad_name`: the bytes stored in `string`, and the number of bytes read from `StationName`. -/
def adName (x mem : List UInt8) : Option (List UInt8 × Nat) := do
  let (a, _) ← copyLoop x
  let (n, reads) ← copyLoop mem
  some (a ++ n ++ [0], reads)

/-- The first loop of `send_paquet_sensor`, from index `l` on: `StationName[l]` is read before
`l` is compared. -/
def nameLoop : List UInt8 → Nat → Option (List UInt8 × Nat)
  | [], _ => none
  | c :: mem, l =>
    if c ≠ 0 ∧ l < maxLengthStationName then
      (nameLoop mem (l + 1)).map fun r => (c :: r.1, r.2 + 1)
    else some ([], 1)

/-- The second loop: the suffix as far as there is room. -/
def suffixLoop : List UInt8 → Nat → List UInt8
  | [], _ => []
  | c :: name, l => if l < maxLengthStationName then c :: suffixLoop name (l + 1) else []

/-- The buffer of `send_paquet_sensor` after its loops. -/
def paquet (type : UInt8) (val : Int) (n name : List UInt8) : List UInt8 :=
  [83, type] ++ (List.range 4).map (fun l => UInt8.ofInt (val / 2 ^ ((3 - l) * 8))) ++ n ++
    suffixLoop name n.length ++ [0]

/-- The payload that `send_paquet_sensor` publishes, if any, and the number of bytes its loop
reads from `StationName`. -/
def paquetSensor (mem : List UInt8) (type : UInt8) (val : Int) (name : List UInt8) :
    Option (Option (List UInt8) × Nat) := do
  if (← mem.head?) = 0 then some (none, 1)
  else
    let (n, reads) ← nameLoop mem 0
    some (some (paquet type val n name), reads)

/-- The size of `string` in `ad_name`. -/
def adNameSize : Nat := 100

/-- The size of `topicLight`, the only argument of `ad_name`. -/
def topicLightSize : Nat := 26

/-- The name is terminated in its buffer, and its readers stay inside whatever comes after. -/
structure NameSafe (v : Vector UInt8 32) : Prop where
  terminated : 0 ∈ v.toList
  adName : ∀ x after, x.length ≤ topicLightSize → 0 ∈ x → ∃ string reads,
    adName x (v.toList ++ after) = some (string, reads) ∧ reads ≤ maxLengthStationName ∧
      string.length ≤ adNameSize
  paquetSensor : ∀ after type val name, ∃ payload reads,
    paquetSensor (v.toList ++ after) type val name = some (payload, reads) ∧
      reads ≤ maxLengthStationName

/-- In every open line of the name, a thirty-second byte comes with a zero: among the first
thirty-one bytes or as the last one. -/
def NameLinesFit (bytes : List UInt8) : Prop :=
  ∀ pre typed, pre <+: bytes → lineOf pre = some (.stationName, typed) →
    typed.length < maxLengthStationName ∨ 0 ∈ typed.take 31 ∨ typed.getLast? = some 0

/-! ## The readers of a terminated name -/

theorem copyLoop_string {s : List UInt8} (nonzero : 0 ∉ s) (after : List UInt8) :
    copyLoop (s ++ 0 :: after) = some (s, s.length + 1) := by
  induction s with
  | nil => rfl
  | cons c s ih =>
    rw [List.mem_cons, not_or] at nonzero
    rw [List.cons_append, copyLoop, if_neg (Ne.symm nonzero.1), ih nonzero.2]
    rfl

/-- The loop copies the string in front of the first terminator. -/
theorem copyLoop_terminated {l : List UInt8} (ends : 0 ∈ l) (after : List UInt8) :
    copyLoop (l ++ after) = some (cString l, (cString l).length + 1) ∧
      (cString l).length < l.length := by
  obtain ⟨rest, split⟩ := terminated_eq ends
  constructor
  · have whole : l ++ after = cString l ++ 0 :: (rest ++ after) := by
      conv_lhs => rw [split]
      rw [List.append_assoc, List.cons_append]
    rw [whole, copyLoop_string (not_mem_cString l)]
  · have length := congrArg List.length split
    rw [List.length_append, List.length_cons] at length
    omega

theorem nameLoop_terminated {l : List UInt8} (ends : 0 ∈ l) (after : List UInt8) (i : Nat) :
    ∃ s reads, nameLoop (l ++ after) i = some (s, reads) ∧ reads ≤ l.length := by
  induction l generalizing i with
  | nil => cases ends
  | cons c l ih =>
    by_cases more : c ≠ 0 ∧ i < maxLengthStationName
    · obtain ⟨s, reads, run, short⟩ := ih (by simpa [eq_comm, more.1] using ends) (i + 1)
      exact ⟨c :: s, reads + 1, by simp [nameLoop, more, run], by simpa using short⟩
    · refine ⟨[], 1, ?_, by simp⟩
      simp only [List.cons_append, nameLoop, more, ↓reduceIte]

theorem nameSafe_iff (v : Vector UInt8 32) : NameSafe v ↔ 0 ∈ v.toList := by
  refine ⟨NameSafe.terminated, fun ends => ⟨ends, fun x after fits string => ?_, ?_⟩⟩
  · obtain ⟨copy, short⟩ := copyLoop_terminated string []
    obtain ⟨copy', short'⟩ := copyLoop_terminated ends after
    rw [List.append_nil] at copy
    refine ⟨cString x ++ cString v.toList ++ [0], (cString v.toList).length + 1,
      by simp [adName, copy, copy'], ?_, ?_⟩
    · simpa [maxLengthStationName] using short'
    · simp only [topicLightSize, adNameSize, Vector.length_toList, List.length_append,
        List.length_singleton] at *
      omega
  · intro after type val name
    obtain ⟨s, reads, run, short⟩ := nameLoop_terminated ends after 0
    have length : v.toList.length = 32 := Vector.length_toList
    obtain ⟨c, l, split⟩ := List.exists_cons_of_length_pos (l := v.toList) (by omega)
    by_cases unnamed : c = 0
    · refine ⟨none, 1, ?_, by decide⟩
      simp [paquetSensor, split, unnamed]
    · refine ⟨some (paquet type val s name), reads, ?_, by simpa [maxLengthStationName] using short⟩
      rw [split, List.cons_append] at run
      simp [paquetSensor, split, unnamed, run]

/-! ## The buffer between two bytes -/

/-- What the buffer holds: while its line is open the bytes typed, the last place taken by the
latest of the bytes beyond it; otherwise a zero in the last place. -/
def NameOf : Line → Vector UInt8 32 → Prop
  | some (.stationName, typed), v =>
    (∀ i < 31, ∀ c, typed[i]? = some c → v[i]? = some c) ∧
      v[31] = if typed.length < maxLengthStationName then 0 else typed.getLastD 0
  | _, v => v[31] = 0

theorem nameOf_of_ne {f : Field} {typed : List UInt8} {v : Vector UInt8 32}
    (other : f ≠ .stationName) : NameOf (some (f, typed)) v ↔ v[31] = 0 := by
  cases f <;> first | rfl | exact absurd rfl other

theorem put_stationName_of_ne (s : RxUart) {f : Field} (i : Nat) (c : UInt8)
    (other : f ≠ .stationName) : (s.put f.buffer i c).stationName = s.stationName := by
  cases f <;> first | rfl | exact absurd rfl other

/-- The line of another field leaves the name alone. -/
theorem rxState_stationName_of_ne (b : Build) {s : RxUart} {f : Field} (c : UInt8)
    (field : s.editing = some f) (other : f ≠ .stationName) :
    (rxState b s c).next.stationName = s.stationName := by
  by_cases newline : isNewline c = true
  · by_cases sleep : f = .tSleep
    · subst sleep
      exact (rxState_newline_tSleep b field newline).2.2.stationName (by simp)
    · obtain ⟨effects, step⟩ := rxState_newline b field sleep newline
      rw [step]
      exact put_stationName_of_ne s _ 0 other
  · obtain ⟨tooLong, step⟩ := rxState_default b field (Bool.eq_false_iff.mpr newline)
    rw [step]
    exact put_stationName_of_ne s _ c other

theorem nameOf_newline {s : RxUart} {typed : List UInt8}
    (h : NameOf (some (.stationName, typed)) s.stationName)
    (cursor : s.pointeur = min typed.length 31) :
    (s.put .stationName (0 + s.pointeur) 0).stationName[31] = 0 := by
  obtain ⟨-, last⟩ := h
  simp only [RxUart.put, cursor, Nat.zero_add, Vector.getElem_setIfInBounds]
  split
  · rfl
  · rename_i before
    rw [last, if_pos (by simp only [maxLengthStationName]; omega)]

theorem nameOf_byte {s : RxUart} {typed : List UInt8} (c : UInt8)
    (h : NameOf (some (.stationName, typed)) s.stationName)
    (cursor : s.pointeur = min typed.length 31) :
    NameOf (some (.stationName, typed ++ [c]))
      (s.put .stationName (0 + s.pointeur) c).stationName := by
  obtain ⟨typing, last⟩ := h
  refine ⟨fun i hi d at_i => ?_, ?_⟩
  · simp only [RxUart.put, cursor, Nat.zero_add, Vector.getElem?_setIfInBounds]
    obtain before | here | after := Nat.lt_trichotomy i typed.length
    · have old : typed[i]? = some d := by rwa [List.getElem?_append_left before] at at_i
      rw [if_neg (by omega)]
      exact typing i hi d old
    · have at_end : c = d := by simpa [here] using at_i
      rw [if_pos (by omega), if_pos (by omega), at_end]
    · rw [List.getElem?_eq_none (by simpa using after)] at at_i
      cases at_i
  · simp only [RxUart.put, cursor, Nat.zero_add, Vector.getElem_setIfInBounds, List.length_append,
      List.length_singleton, maxLengthStationName] at last ⊢
    by_cases full : 31 ≤ typed.length
    · rw [if_pos (by omega), if_neg (by omega)]
      simp
    · have short : typed.length < 32 := by omega
      rw [if_neg (by omega), if_pos (by omega), last]
      exact if_pos short

/-- The buffer after a byte. -/
theorem nameOf_step (b : Build) {l : Line} {s : RxUart} (c : UInt8) (follows : Follows l s)
    (h : NameOf l s.stationName) : NameOf (lineStep l c) (rxUart0 b s c).next.stationName := by
  rw [rxUart0_next]
  obtain ⟨field, cursor⟩ := follows
  match l with
  | none =>
    have same := (rxState_wait b c field).2.1.stationName nofun
    rw [same]
    cases opened : command c with
    | none =>
      simp only [lineStep, opened]
      exact h
    | some f =>
      by_cases name : f = .stationName
      · subst name
        simp only [lineStep, opened]
        exact ⟨by simp, h⟩
      · simp only [lineStep, opened]
        exact (nameOf_of_ne name).mpr h
  | some (f, typed) =>
    have field : s.editing = some f := field
    have at_cursor := cursor f typed rfl
    have closed (newline : isNewline c = true) : lineStep (some (f, typed)) c = none :=
      if_pos newline
    have longer (typing : isNewline c = false) :
        lineStep (some (f, typed)) c = some (f, typed ++ [c]) := if_neg (by simp [typing])
    by_cases name : f = .stationName
    · subst name
      by_cases newline : isNewline c = true
      · obtain ⟨effects, step⟩ := rxState_newline b field (by decide) newline
        rw [step, closed newline]
        exact nameOf_newline h at_cursor
      · have typing := Bool.eq_false_iff.mpr newline
        obtain ⟨tooLong, step⟩ := rxState_default b field typing
        rw [step, longer typing]
        exact nameOf_byte c h at_cursor
    · rw [rxState_stationName_of_ne b c field name]
      have last := (nameOf_of_ne name).mp h
      by_cases newline : isNewline c = true
      · rw [closed newline]
        exact last
      · rw [longer (Bool.eq_false_iff.mpr newline)]
        exact (nameOf_of_ne name).mpr last

theorem nameOf_bytes (b : Build) (f : Flash) (bytes : List UInt8) :
    NameOf (lineOf bytes) (rxBytes b (.boot (.boot f)) bytes).stationName := by
  induction bytes using List.reverseRecOn with
  | nil => exact (terminate_restored (Configuration.load f)).stationName 31 (by decide)
  | append_singleton bytes c ih =>
    simpa [lineOf, rxBytes, List.foldl_append] using
      nameOf_step b c (follows_bytes b (.boot f) bytes) ih

/-! ## When the name is safe -/

/-- A line that fills the buffer leaves no room for a terminator. -/
theorem toList_of_full {typed : List UInt8} {v : Vector UInt8 32}
    (h : NameOf (some (.stationName, typed)) v) (full : ¬ typed.length < maxLengthStationName) :
    v.toList = typed.take 31 ++ [typed.getLastD 0] := by
  obtain ⟨typing, last⟩ := h
  rw [if_neg full] at last
  have full : 32 ≤ typed.length := Nat.le_of_not_lt full
  refine List.ext_getElem (by simp; omega) fun i hi _ => ?_
  have inside : i < 32 := by simpa using hi
  by_cases before : i < 31
  · have byte := typing i before typed[i] (List.getElem?_eq_getElem (by omega))
    rw [Vector.getElem?_eq_getElem inside] at byte
    rw [List.getElem_append_left (by simp; omega)]
    simpa using byte
  · obtain rfl : i = 31 := by omega
    rw [List.getElem_append_right (by simp)]
    simpa using last

theorem terminated_iff {l : Line} {v : Vector UInt8 32} (h : NameOf l v) :
    0 ∈ v.toList ↔ ∀ typed, l = some (.stationName, typed) →
      typed.length < maxLengthStationName ∨ 0 ∈ typed.take 31 ∨ typed.getLast? = some 0 := by
  by_cases name : ∃ typed, l = some (.stationName, typed)
  · obtain ⟨typed, rfl⟩ := name
    obtain ⟨typing, last⟩ := h
    simp only [Option.some.injEq, Prod.mk.injEq, true_and, forall_eq']
    by_cases short : typed.length < maxLengthStationName
    · rw [if_pos short] at last
      exact iff_of_true (last ▸ Vector.mem_toList_iff.mpr (Vector.getElem_mem (by decide)))
        (.inl short)
    · rw [toList_of_full ⟨typing, last⟩ short]
      obtain ⟨before, c, rfl⟩ := typed.eq_nil_or_concat.resolve_left (by rintro rfl; contradiction)
      have long : ¬ before.length + 1 < maxLengthStationName := by simpa using short
      simp [long, eq_comm]
  · have last : v[31] = 0 := by
      match l with
      | none => exact h
      | some (f, typed) => exact (nameOf_of_ne fun eq => name ⟨typed, by rw [eq]⟩).mp h
    exact iff_of_true (last ▸ Vector.mem_toList_iff.mpr (Vector.getElem_mem (by decide)))
      fun typed line => absurd ⟨typed, line⟩ name

/-- After every byte the name is safe to read, exactly when no open line of the name has filled
its buffer without a zero. -/
theorem nameSafe_iff_nameLinesFit (b : Build) (f : Flash) (bytes : List UInt8) :
    (∀ pre, pre <+: bytes → NameSafe (rxBytes b (.boot (.boot f)) pre).stationName) ↔
      NameLinesFit bytes := by
  simp only [nameSafe_iff]
  constructor
  · intro h pre typed before line
    exact (terminated_iff (nameOf_bytes b f pre)).mp (h pre before) typed line
  · intro h pre before
    exact (terminated_iff (nameOf_bytes b f pre)).mpr fun typed line => h pre typed before line

/-- The command `i` and thirty-two letters: the buffer has no terminator, and the copy of
`ad_name` goes on into the memory behind it. -/
theorem not_nameSafe_full_line :
    ¬ (∀ pre, pre <+: 105 :: List.replicate 32 65 →
      NameSafe (rxBytes .prise (.boot (.boot fun _ => 0xFF)) pre).stationName) ∧
    adName [0] ((rxBytes .prise (.boot (.boot fun _ => 0xFF)) (105 :: List.replicate 32 65)
      ).stationName.toList ++ [7, 0]) = some (List.replicate 32 65 ++ [7, 0], 34) := by
  refine ⟨fun h => ?_, by decide +kernel⟩
  have full := (h _ List.prefix_rfl).terminated
  revert full
  decide +kernel

end Domotic
