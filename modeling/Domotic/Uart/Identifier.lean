import Domotic.Library.Numeral
import Domotic.Uart.StationName

/-!
# The identifier of a device

`user_init` writes the chip id in hexadecimal to `MYID`, and `ID` puts it behind a topic. The
digits stand right-aligned in nine bytes, leading zeros are blanked, and a terminator follows.
-/
namespace Domotic
open Library

/-- `TO_HEX` and its inverse. -/
def hexadecimal : Alphabet UInt8 where
  base := 16
  value c :=
    if 48 ≤ c ∧ c ≤ 57 then some (c.toNat - 48)
    else if 65 ≤ c ∧ c ≤ 70 then some (c.toNat - 55)
    else none
  digit := toHex
  two_le := by decide
  value_digit := by decide
  value_lt := by
    intro c d
    simp only [UInt8.le_iff_toNat_le, UInt8.reduceToNat]
    split_ifs <;> simp only [Option.some.injEq, false_implies] <;> omega
  digit_value := by
    intro c d
    simp only [UInt8.le_iff_toNat_le, UInt8.reduceToNat]
    split_ifs with figure letter
    · rintro ⟨⟩
      rw [toHex, if_pos (by omega), Nat.add_sub_cancel' figure.1, UInt8.ofNat_toNat]
    · rintro ⟨⟩
      have back : 65 - 10 + (c.toNat - 55) = c.toNat := by omega
      rw [toHex, if_neg (by omega), back, UInt8.ofNat_toNat]
    · exact nofun

/-- The second loop of `int_to_srthex` on the digits that it reads. -/
def blanked : Nat → List UInt8 → List UInt8
  | 0, cs => cs
  | _ + 1, [] => []
  | k + 1, c :: cs => if c ≠ 48 then c :: cs else 32 :: blanked k cs

/-- What `int_to_srthex` puts in front of the terminator. -/
def hexField (val : BitVec 32) : List UInt8 := 32 :: blanked 7 (hexadecimal.numeral 8 val.toNat)

/-- The string at `MYID` after `user_init`: a static buffer, written once. -/
def myid (chipId : BitVec 32) : Vector UInt8 maxIdLength :=
  intToSrthex (int32 chipId.toNat) (.replicate maxIdLength 0)

/-- `ID`: the loops of `ad_name`, with `MYID` for the name. -/
def ID (x myid : List UInt8) : Option (List UInt8 × Nat) := adName x myid

/-! ## The loops -/

/-- The shifted value has the digits of the unsigned one. -/
theorem shifted_digit (val : BitVec 32) {l : Nat} (inside : l < 8) :
    (val.toInt / 16 ^ l % 16).toNat = val.toNat / 16 ^ l % 16 := by
  have small := val.isLt
  rw [BitVec.toInt_eq_toNat_cond]
  split
  · norm_cast
  · interval_cases l <;> omega

/-- The first loop, after `k` rounds. -/
theorem digits_toList {n : Nat} (val : BitVec 32) (str : Vector UInt8 n) (room : 9 ≤ n) {k : Nat}
    (most : k ≤ 8) : ((List.range k).foldl
      (fun s l => s.setIfInBounds (8 - l) (toHex (val.toInt / 16 ^ l % 16).toNat)) str).toList =
      str.toList.take (9 - k) ++ (hexadecimal.numeral k val.toNat ++ str.toList.drop 9) := by
  induction k with
  | zero => simp [Alphabet.numeral]
  | succ k ih =>
    have length : str.toList.length = n := Vector.length_toList
    have place : 9 - k = 8 - k + 1 := by omega
    have front : ∀ c, (str.toList.take (9 - k)).set (8 - k) c = str.toList.take (8 - k) ++ [c] := by
      intro c
      rw [place, List.set_eq_take_append_cons_drop, if_pos (by simp; omega), List.take_take,
        List.drop_eq_nil_of_le (List.length_take_le _ _), Nat.min_eq_left (Nat.le_succ _)]
    rw [List.range_succ, List.foldl_append, List.foldl_cons, List.foldl_nil,
      Vector.toList_setIfInBounds, ih (by omega), List.set_append_left _ _ (by simp; omega), front,
      shifted_digit val (by omega), Nat.sub_add_eq 9 k 1, Nat.sub_right_comm, List.append_assoc]
    rfl

@[simp] theorem blanked_length (k : Nat) (cs : List UInt8) : (blanked k cs).length = cs.length := by
  fun_induction blanked k cs with
  | case1 => rfl
  | case2 => rfl
  | case3 => rfl
  | case4 k c cs zero ih => simp [ih]

theorem blanked_append {k : Nat} {cs : List UInt8} (most : k ≤ cs.length) (rest : List UInt8) :
    blanked k (cs ++ rest) = blanked k cs ++ rest := by
  fun_induction blanked k cs with
  | case1 cs => rfl
  | case2 k => simp at most
  | case3 k c cs other => simp [blanked, other]
  | case4 k c cs zero ih => simpa [blanked, zero] using ih (by simpa using most)

/-- The second loop, with `k` rounds left. -/
theorem blankZeros_toList {n k : Nat} (str : Vector UInt8 n) (most : k ≤ 7) :
    (blankZeros k str).toList = str.toList.take (8 - k) ++ blanked k (str.toList.drop (8 - k)) := by
  induction k generalizing str with
  | zero => simp [blankZeros, blanked]
  | succ k ih =>
    have place : 8 - (k + 1) = 7 - k := by omega
    have next : 8 - k = 7 - k + 1 := by omega
    rw [blankZeros, place, ← Vector.getElem?_toList]
    by_cases inside : 7 - k < str.toList.length
    · rw [List.drop_eq_getElem_cons inside, blanked, List.getElem?_eq_getElem inside]
      by_cases zero : str.toList[7 - k] = 48
      · have front : (str.toList.set (7 - k) 32).take (7 - k + 1) =
            str.toList.take (7 - k) ++ [32] := by
          rw [List.take_succ_eq_append_getElem (by simpa using inside), List.getElem_set_self,
            List.take_set_of_le (Nat.le_refl _)]
        have rest : (str.toList.set (7 - k) 32).drop (7 - k + 1) = str.toList.drop (7 - k + 1) :=
          List.drop_set_of_lt (Nat.lt_succ_self _)
        rw [if_neg (by simp [zero]), if_neg (by simp [zero]), ih _ (by omega), next,
          Vector.toList_setIfInBounds, front, rest, List.append_assoc]
        rfl
      · rw [if_pos (by simpa using zero), if_pos zero, ← List.drop_eq_getElem_cons inside,
          List.take_append_drop]
    · rw [List.getElem?_eq_none (Nat.le_of_not_lt inside), if_pos (by simp),
        List.drop_eq_nil_of_le (Nat.le_of_not_lt inside), blanked,
        List.take_of_length_le (Nat.le_of_not_lt inside), List.append_nil]

/-- `int_to_srthex` writes ten bytes, whatever stood there, and no others. -/
theorem intToSrthex_toList {n : Nat} (val : BitVec 32) (str : Vector UInt8 n) (room : 10 ≤ n) :
    (intToSrthex val.toInt str).toList = hexField val ++ 0 :: str.toList.drop 10 := by
  have length : str.toList.length = n := Vector.length_toList
  have ninth : str.toList.drop 9 = str.toList[9] :: str.toList.drop 10 :=
    List.drop_eq_getElem_cons (by omega)
  obtain ⟨c, first⟩ : ∃ c, str.toList.take (9 - 8) = [c] :=
    List.length_eq_one_iff.mp (by simp; omega)
  have digits : (str.toList.take (9 - 8) ++ (hexadecimal.numeral 8 val.toNat ++
      str.toList.drop 9)).set 0 32 =
        32 :: (hexadecimal.numeral 8 val.toNat ++ str.toList.drop 9) := by
    rw [first]
    rfl
  have wide : (hexField val).length = 9 := by simp [hexField]
  rw [intToSrthex, Vector.toList_setIfInBounds, blankZeros_toList _ (by decide),
    Vector.toList_setIfInBounds, digits_toList val str (by omega) (by decide), digits]
  calc _ = (hexField val ++ str.toList.drop 9).set 9 0 := by
        rw [List.drop_one, List.tail_cons, blanked_append (by simp)]
        rfl
    _ = hexField val ++ 0 :: str.toList.drop 10 := by
        rw [List.set_append_right _ _ (by omega), wide, ninth]
        rfl

/-! ## The string -/

/-- Blanks are neither digits nor terminators. -/
theorem ne_of_value {c : UInt8} (h : (hexadecimal.value c).isSome) : c ≠ 0 ∧ c ≠ 32 := by
  constructor <;> rintro rfl <;> exact absurd h (by decide)

/-- Without the blanks the digits are trimmed. -/
theorem dropWhile_blanked {k : Nat} {cs : List UInt8} (length : cs.length = k + 1)
    (digits : ∀ c ∈ cs, c ≠ 32) :
    (blanked k cs).dropWhile (· = 32) = hexadecimal.trim cs := by
  have zero_digit : hexadecimal.digit 0 = 48 := rfl
  induction k generalizing cs with
  | zero =>
    obtain ⟨c, rfl⟩ := List.length_eq_one_iff.mp length
    have digit := digits c (List.mem_singleton_self c)
    simp [blanked, Alphabet.trim, digit]
  | succ k ih =>
    obtain ⟨c, cs, rfl⟩ := List.exists_cons_of_length_eq_add_one length
    have length : cs.length = k + 1 := Nat.succ.inj length
    have more : cs ≠ [] := List.ne_nil_of_length_eq_add_one length
    rw [List.forall_mem_cons] at digits
    by_cases zero : c = 48
    · simpa [blanked, Alphabet.trim, zero_digit, zero, more] using ih length digits.2
    · simp [blanked, Alphabet.trim, zero_digit, zero, digits.1]

theorem mem_blanked {k : Nat} {cs : List UInt8} {c : UInt8} (mem : c ∈ blanked k cs) :
    c = 32 ∨ c ∈ cs := by
  fun_induction blanked k cs with
  | case1 => exact .inr mem
  | case2 => exact .inr mem
  | case3 => exact .inr mem
  | case4 k d cs zero ih =>
    obtain rfl | later := List.mem_cons.mp mem
    · exact .inl rfl
    · exact (ih later).imp_right (List.mem_cons_of_mem d)

/-- The string without its blanks is the shortest numeral of the unsigned value. -/
theorem hexField_shortest (val : BitVec 32) : 0 ∉ hexField val ∧
    hexadecimal.IsShortest val.toNat ((hexField val).dropWhile (· = 32)) := by
  have small : val.toNat < hexadecimal.base ^ 8 := val.isLt
  have number := hexadecimal.read_numeral (by decide : 8 ≠ 0) small
  have digits : ∀ c ∈ hexadecimal.numeral 8 val.toNat, c ≠ 0 ∧ c ≠ 32 := fun c mem =>
    ne_of_value (hexadecimal.value_of_readFrom number c mem)
  constructor
  · intro zero
    obtain here | later := List.mem_cons.mp zero
    · cases here
    · obtain blank | digit := mem_blanked later
      · cases blank
      · exact (digits 0 digit).1 rfl
  · rw [hexField, List.dropWhile_cons_of_pos (by decide),
      dropWhile_blanked (hexadecimal.numeral_length 8 _) fun c mem => (digits c mem).2]
    exact hexadecimal.isShortest_trim number

theorem hexField_injective {v w : BitVec 32} (h : hexField v = hexField w) : v = w := by
  have shortest := (hexField_shortest v).2
  rw [h] at shortest
  exact BitVec.eq_of_toNat_eq (shortest.unique (hexField_shortest w).2)

theorem myid_toList (chipId : BitVec 32) :
    (myid chipId).toList = hexField chipId ++ 0 :: List.replicate 6 0 := by
  have value : int32 chipId.toNat = chipId.toInt := by
    rw [int32, BitVec.ofInt_natCast, BitVec.ofNat_toNat, BitVec.setWidth_eq]
  rw [myid, value, intToSrthex_toList chipId _ (by decide)]
  rfl

/-! ## The topic -/

/-- `ID` appends the identifier to the string at `x`. -/
theorem ID_eq (chipId : BitVec 32) {x : List UInt8} (string : 0 ∈ x) (after : List UInt8) :
    ID x ((myid chipId).toList ++ after) = some (cString x ++ hexField chipId ++ [0], 10) := by
  have topic := (copyLoop_terminated string []).1
  rw [List.append_nil] at topic
  have identifier := copyLoop_string (hexField_shortest chipId).1 (List.replicate 6 0 ++ after)
  rw [ID, adName, topic, myid_toList, List.append_assoc, List.cons_append, identifier]
  simp [hexField]

theorem cString_topic (chipId : BitVec 32) (x : List UInt8) :
    cString (cString x ++ hexField chipId ++ [0]) = cString x ++ hexField chipId := by
  refine cString_nonzero (fun zero => ?_) []
  obtain topic | identifier := List.mem_append.mp zero
  · exact not_mem_cString x topic
  · exact (hexField_shortest chipId).1 identifier

/-- For every 32-bit value `int_to_srthex` writes the first ten bytes of its buffer: blanks and the
shortest hexadecimal numeral of the unsigned value, and a terminator. Two chips have different
identifiers and different topics. -/
theorem identifier_faithful (val : BitVec 32) :
    (∃ s, s.length = 9 ∧ 0 ∉ s ∧
      hexadecimal.IsShortest val.toNat (s.dropWhile (· = 32)) ∧
      ∀ n (str : Vector UInt8 n), 10 ≤ n →
        (intToSrthex val.toInt str).toList = s ++ 0 :: str.toList.drop 10) ∧
    ∀ other, other ≠ val →
      cString (myid other).toList ≠ cString (myid val).toList ∧
      ∀ x after after', 0 ∈ x → ∃ t t',
        ID x ((myid val).toList ++ after) = some (t, 10) ∧
        ID x ((myid other).toList ++ after') = some (t', 10) ∧ cString t' ≠ cString t := by
  obtain ⟨nonzero, shortest⟩ := hexField_shortest val
  refine ⟨⟨hexField val, by simp [hexField], nonzero, shortest,
    fun n str room => intToSrthex_toList val str room⟩, fun other different => ⟨?_, ?_⟩⟩
  · have string : ∀ chipId, cString (myid chipId).toList = hexField chipId := fun chipId => by
      rw [myid_toList, cString_nonzero (hexField_shortest chipId).1]
    rw [string, string]
    exact fun same => different (hexField_injective same)
  · intro x after after' ends
    refine ⟨_, _, ID_eq val ends after, ID_eq other ends after', fun same => ?_⟩
    rw [cString_topic, cString_topic] at same
    exact different (hexField_injective (List.append_cancel_left same))

/-- The topics of the chips `0x10` and `-16`. -/
theorem identifier_faithful_sixteen : ∃ t t', ID [47, 0] (myid 0x10#32).toList = some (t, 10) ∧
    ID [47, 0] (myid 0xFFFFFFF0#32).toList = some (t', 10) ∧ cString t' ≠ cString t := by
  have topics := (identifier_faithful 0x10#32).2 0xFFFFFFF0#32 (by decide)
  simpa using topics.2 [47, 0] [] [] (by decide)

example : cString (myid 0xA0B#32).toList = [32, 32, 32, 32, 32, 32, 65, 48, 66] := by decide +kernel

end Domotic
