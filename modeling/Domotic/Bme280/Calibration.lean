import Mathlib.Tactic

/-!
# The calibration of the BME280

`bme280_get_calib_param` reads the calibration of the sensor in two pieces, 26 bytes and 7 bytes,
and assembles the parameters from them: little-endian words of 16 bits, single bytes, and two
words of 12 bits that share a byte.
-/
namespace Domotic

/-- `struct bme280_calibration_param_t`, without `t_fine`. -/
structure Calibration where
  digT1 : UInt16
  digT2 : Int16
  digT3 : Int16
  digP1 : UInt16
  digP2 : Int16
  digP3 : Int16
  digP4 : Int16
  digP5 : Int16
  digP6 : Int16
  digP7 : Int16
  digP8 : Int16
  digP9 : Int16
  digH1 : UInt8
  digH2 : Int16
  digH3 : UInt8
  digH4 : Int16
  digH5 : Int16
  digH6 : Int8
  deriving DecidableEq

/-- `(u16)(((u16)((u8)msb)) << 8 | lsb)` -/
def wordU16 (msb lsb : UInt8) : UInt16 := msb.toUInt16 <<< 8 ||| lsb.toUInt16

/-- `(s16)(((s16)((s8)msb)) << 8 | lsb)` -/
def wordS16 (msb lsb : UInt8) : Int16 := msb.toInt8.toInt16 <<< 8 ||| lsb.toUInt16.toInt16

/-- `(s16)(((s16)((s8)msb)) << 4 | nibble)`, the last four bits from the byte `nibble`. -/
def wordS12 (msb nibble : UInt8) : Int16 := msb.toInt8.toInt16 <<< 4 ||| nibble.toUInt16.toInt16

/-- The assignments of `bme280_get_calib_param`, from the two arrays that it reads. -/
def calibParam (a : Vector UInt8 26) (h : Vector UInt8 7) : Calibration where
  digT1 := wordU16 a[1] a[0]
  digT2 := wordS16 a[3] a[2]
  digT3 := wordS16 a[5] a[4]
  digP1 := wordU16 a[7] a[6]
  digP2 := wordS16 a[9] a[8]
  digP3 := wordS16 a[11] a[10]
  digP4 := wordS16 a[13] a[12]
  digP5 := wordS16 a[15] a[14]
  digP6 := wordS16 a[17] a[16]
  digP7 := wordS16 a[19] a[18]
  digP8 := wordS16 a[21] a[20]
  digP9 := wordS16 a[23] a[22]
  digH1 := a[25]
  digH2 := wordS16 h[1] h[0]
  digH3 := h[2]
  digH4 := wordS12 h[3] (h[4] &&& 0x0F)
  digH5 := wordS12 h[5] (h[4] >>> 4)
  digH6 := h[6].toInt8

/-! ## The values of the words -/

theorem wordU16_toNat (msb lsb : UInt8) :
    (wordU16 msb lsb).toNat = 256 * msb.toNat + lsb.toNat := by
  have joined : (wordU16 msb lsb).toBitVec = msb.toBitVec ++ lsb.toBitVec := by
    ext i small
    simp [wordU16]
    grind
  have value := congrArg BitVec.toNat joined
  rw [BitVec.toNat_append, ← Nat.shiftLeft_add_eq_or_of_lt lsb.toBitVec.isLt,
    Nat.shiftLeft_eq] at value
  simp only [UInt16.toNat_toBitVec, UInt8.toNat_toBitVec] at value
  omega

theorem wordS16_toInt (msb lsb : UInt8) :
    (wordS16 msb lsb).toInt = 256 * msb.toInt8.toInt + lsb.toNat := by
  have joined : (wordS16 msb lsb).toBitVec = msb.toBitVec ++ lsb.toBitVec := by
    ext i small
    simp [wordS16, BitVec.getElem_signExtend]
    grind
  have value := congrArg BitVec.toInt joined
  rw [BitVec.toInt_append] at value
  exact value

theorem wordS12_toInt {msb nibble : UInt8} (small : nibble.toNat < 16) :
    (wordS12 msb nibble).toInt = 16 * msb.toInt8.toInt + nibble.toNat := by
  have joined : (wordS12 msb nibble).toBitVec =
      (msb.toBitVec ++ nibble.toBitVec.setWidth 4).signExtend 16 := by
    have high (i : Nat) (past : 4 ≤ i) : nibble.toBitVec.getLsbD i = false := by
      have wide : 2 ^ 4 ≤ 2 ^ i := Nat.pow_le_pow_right (by decide) past
      exact Nat.testBit_lt_two_pow (small.trans_le wide)
    ext i lt
    simp [wordS12, BitVec.getElem_signExtend]
    grind
  have value := congrArg BitVec.toInt joined
  rw [BitVec.toInt_signExtend_of_le (by decide), BitVec.toInt_append] at value
  have same : (nibble.toBitVec.setWidth 4).toNat = nibble.toNat := by
    simp [Nat.mod_eq_of_lt small]
  rw [same] at value
  exact value

/-! ## The bytes of a calibration -/

/-- The table of `bme280_get_calib_param`: the registers from `0x88` on and those from `0xE1` on
hold the parameters, low byte first, the signed ones in two's complement. -/
structure Calibration.Stored (c : Calibration) (a : Vector UInt8 26) (h : Vector UInt8 7) :
    Prop where
  t1 : c.digT1.toNat = 256 * a[1].toNat + a[0].toNat
  t2 : c.digT2.toInt = 256 * a[3].toInt8.toInt + a[2].toNat
  t3 : c.digT3.toInt = 256 * a[5].toInt8.toInt + a[4].toNat
  p1 : c.digP1.toNat = 256 * a[7].toNat + a[6].toNat
  p2 : c.digP2.toInt = 256 * a[9].toInt8.toInt + a[8].toNat
  p3 : c.digP3.toInt = 256 * a[11].toInt8.toInt + a[10].toNat
  p4 : c.digP4.toInt = 256 * a[13].toInt8.toInt + a[12].toNat
  p5 : c.digP5.toInt = 256 * a[15].toInt8.toInt + a[14].toNat
  p6 : c.digP6.toInt = 256 * a[17].toInt8.toInt + a[16].toNat
  p7 : c.digP7.toInt = 256 * a[19].toInt8.toInt + a[18].toNat
  p8 : c.digP8.toInt = 256 * a[21].toInt8.toInt + a[20].toNat
  p9 : c.digP9.toInt = 256 * a[23].toInt8.toInt + a[22].toNat
  h1 : c.digH1 = a[25]
  h2 : c.digH2.toInt = 256 * h[1].toInt8.toInt + h[0].toNat
  h3 : c.digH3 = h[2]
  h4 : c.digH4.toInt = 16 * h[3].toInt8.toInt + (h[4].toNat % 16 : Nat)
  h5 : c.digH5.toInt = 16 * h[5].toInt8.toInt + (h[4].toNat / 16 : Nat)
  h6 : c.digH6.toInt = h[6].toInt8.toInt

/-- Two of the parameters have 12 bits only. -/
def Calibration.Twelve (c : Calibration) : Prop :=
  (-2048 ≤ c.digH4.toInt ∧ c.digH4.toInt < 2048) ∧ -2048 ≤ c.digH5.toInt ∧ c.digH5.toInt < 2048

instance (c : Calibration) : Decidable c.Twelve := inferInstanceAs (Decidable (_ ∧ _))

theorem calibParam_stored (a : Vector UInt8 26) (h : Vector UInt8 7) :
    (calibParam a h).Stored a h := by
  have low : (h[4] &&& 0x0F).toNat = h[4].toNat % 16 := by
    rw [UInt8.toNat_and]
    exact Nat.and_two_pow_sub_one_eq_mod _ 4
  have high : (h[4] >>> 4).toNat = h[4].toNat / 16 := by
    rw [UInt8.toNat_shiftRight]
    exact Nat.shiftRight_eq_div_pow _ 4
  have fits := h[4].toNat_lt
  constructor
  case h1 | h3 | h6 => rfl
  case h4 =>
    rw [← low]
    exact wordS12_toInt (by omega)
  case h5 =>
    rw [← high]
    exact wordS12_toInt (by omega)
  case t1 | p1 => exact wordU16_toNat _ _
  all_goals exact wordS16_toInt _ _

theorem Calibration.Stored.unique {c c' : Calibration} {a : Vector UInt8 26} {h : Vector UInt8 7}
    (s : c.Stored a h) (s' : c'.Stored a h) : c = c' := by
  obtain ⟨t1, t2, t3, p1, p2, p3, p4, p5, p6, p7, p8, p9, h1, h2, h3, h4, h5, h6⟩ := s
  obtain ⟨t1', t2', t3', p1', p2', p3', p4', p5', p6', p7', p8', p9', h1', h2', h3', h4', h5',
    h6'⟩ := s'
  cases c
  cases c'
  simp only [mk.injEq]
  exact ⟨UInt16.toNat_inj.mp (t1.trans t1'.symm), Int16.toInt_inj.mp (t2.trans t2'.symm),
    Int16.toInt_inj.mp (t3.trans t3'.symm), UInt16.toNat_inj.mp (p1.trans p1'.symm),
    Int16.toInt_inj.mp (p2.trans p2'.symm), Int16.toInt_inj.mp (p3.trans p3'.symm),
    Int16.toInt_inj.mp (p4.trans p4'.symm), Int16.toInt_inj.mp (p5.trans p5'.symm),
    Int16.toInt_inj.mp (p6.trans p6'.symm), Int16.toInt_inj.mp (p7.trans p7'.symm),
    Int16.toInt_inj.mp (p8.trans p8'.symm), Int16.toInt_inj.mp (p9.trans p9'.symm),
    h1.trans h1'.symm, Int16.toInt_inj.mp (h2.trans h2'.symm), h3.trans h3'.symm,
    Int16.toInt_inj.mp (h4.trans h4'.symm), Int16.toInt_inj.mp (h5.trans h5'.symm),
    Int8.toInt_inj.mp (h6.trans h6'.symm)⟩

/-- The bytes of a number of 8 + `k` bits in two's complement. -/
theorem signed_bytes {x d : Int} (lo : -128 * d ≤ x) (hi : x < 128 * d) (positive : 0 < d)
    (small : d ≤ 256) :
    ∃ msb lsb : UInt8, (lsb.toNat : Int) < d ∧ x = d * msb.toInt8.toInt + lsb.toNat := by
  have rest := Int.emod_nonneg x positive.ne'
  have less := Int.emod_lt_of_pos x positive
  have whole := Int.mul_ediv_add_emod x d
  have above : -128 ≤ x / d := Int.le_ediv_of_mul_le positive lo
  have below : x / d < 128 := Int.ediv_lt_of_lt_mul positive hi
  refine ⟨(Int8.ofInt (x / d)).toUInt8, .ofNat (x % d).toNat, ?_⟩
  have msb : (Int8.ofInt (x / d)).toInt = x / d := Int8.toInt_ofInt_of_le above below
  have lsb : ((UInt8.ofNat (x % d).toNat).toNat : Int) = x % d := by
    rw [UInt8.toNat_ofNat']
    omega
  rw [Int8.toInt8_toUInt8, msb, lsb]
  exact ⟨less, whole.symm⟩

theorem s16_bytes (w : Int16) :
    ∃ msb lsb : UInt8, w.toInt = 256 * msb.toInt8.toInt + lsb.toNat := by
  obtain ⟨msb, lsb, -, value⟩ := signed_bytes (d := 256) w.le_toInt w.toInt_lt (by decide) le_rfl
  exact ⟨msb, lsb, value⟩

theorem u16_bytes (w : UInt16) : ∃ msb lsb : UInt8, w.toNat = 256 * msb.toNat + lsb.toNat := by
  have small := w.toNat_lt
  refine ⟨.ofNat (w.toNat / 256), .ofNat (w.toNat % 256), ?_⟩
  rw [UInt8.toNat_ofNat', UInt8.toNat_ofNat']
  omega

/-- Two halves of a byte. -/
theorem shared_byte {low high : UInt8} (hl : (low.toNat : Int) < 16)
    (hh : (high.toNat : Int) < 16) :
    ∃ b : UInt8, b.toNat % 16 = low.toNat ∧ b.toNat / 16 = high.toNat := by
  refine ⟨.ofNat (low.toNat + 16 * high.toNat), ?_⟩
  rw [UInt8.toNat_ofNat']
  omega

/-- Every calibration has its bytes. -/
theorem Calibration.Twelve.stored {c : Calibration} (twelve : c.Twelve) :
    ∃ a h, c.Stored a h := by
  obtain ⟨t1, t1', ht1⟩ := u16_bytes c.digT1
  obtain ⟨t2, t2', ht2⟩ := s16_bytes c.digT2
  obtain ⟨t3, t3', ht3⟩ := s16_bytes c.digT3
  obtain ⟨p1, p1', hp1⟩ := u16_bytes c.digP1
  obtain ⟨p2, p2', hp2⟩ := s16_bytes c.digP2
  obtain ⟨p3, p3', hp3⟩ := s16_bytes c.digP3
  obtain ⟨p4, p4', hp4⟩ := s16_bytes c.digP4
  obtain ⟨p5, p5', hp5⟩ := s16_bytes c.digP5
  obtain ⟨p6, p6', hp6⟩ := s16_bytes c.digP6
  obtain ⟨p7, p7', hp7⟩ := s16_bytes c.digP7
  obtain ⟨p8, p8', hp8⟩ := s16_bytes c.digP8
  obtain ⟨p9, p9', hp9⟩ := s16_bytes c.digP9
  obtain ⟨h2, h2', hh2⟩ := s16_bytes c.digH2
  obtain ⟨h4, h4', low, hh4⟩ :=
    signed_bytes (d := 16) twelve.1.1 twelve.1.2 (by decide) (by decide)
  obtain ⟨h5, h5', high, hh5⟩ :=
    signed_bytes (d := 16) twelve.2.1 twelve.2.2 (by decide) (by decide)
  obtain ⟨b, hb, hb'⟩ := shared_byte low high
  refine ⟨#v[t1', t1, t2', t2, t3', t3, p1', p1, p2', p2, p3', p3, p4', p4, p5', p5, p6', p6, p7',
      p7, p8', p8, p9', p9, 0, c.digH1],
    #v[h2', h2, c.digH3, h4, b, h5, c.digH6.toUInt8],
    ht1, ht2, ht3, hp1, hp2, hp3, hp4, hp5, hp6, hp7, hp8, hp9, rfl, hh2, rfl, ?_, ?_, rfl⟩
  · rw [hh4, ← hb]
    rfl
  · rw [hh5, ← hb']
    rfl

end Domotic
