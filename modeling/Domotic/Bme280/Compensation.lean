import Domotic.Bme280.Calibration
import Domotic.Library.Word

/-!
# The compensation of the BME280

`bme280_compensate_temperature_int32`, `bme280_compensate_pressure_int32` and
`bme280_compensate_humidity_int32` compute in 32 bits. For the temperature the driver also has
the plain formula, `bme280_compensate_temperature_double`; as long as the products fit 32 bits
the two agree within two hundredths of a degree.
-/
namespace Domotic
open Library

/-- `>>` on a signed number. -/
def sar (x : Int) (n : Nat) : Int := x / 2 ^ n

/-- `bme280_compensate_temperature_int32`: `t_fine`, and the temperature in hundredths of a
degree. -/
def compensateTemperatureInt32 (c : Calibration) (adc : Int) : Int × Int :=
  let t1 : Int := c.digT1.toNat
  let x1 := sar (int32 (int32 (sar adc 3 - t1 * 2) * c.digT2.toInt)) 11
  let d := int32 (sar adc 4 - t1)
  let x2 := sar (int32 (sar (int32 (d * d)) 12 * c.digT3.toInt)) 14
  let tFine := int32 (x1 + x2)
  (tFine, sar (int32 (int32 (tFine * 5) + 128)) 8)

/-- `bme280_compensate_pressure_int32`, in pascals. -/
def compensatePressureInt32 (c : Calibration) (tFine adc : Int) : Nat :=
  let x1 := int32 (sar tFine 1 - 64000)
  let q := int32 (sar x1 2 * sar x1 2)
  let x2 := int32 (sar q 11 * c.digP6.toInt)
  let x2 := int32 (x2 + int32 (int32 (x1 * c.digP5.toInt) * 2))
  let x2 := int32 (sar x2 2 + c.digP4.toInt * 65536)
  let x1 := sar (int32 (sar (int32 (c.digP3.toInt * sar q 13)) 3 +
    sar (int32 (c.digP2.toInt * x1)) 1)) 18
  let x1 := sar (int32 (int32 (32768 + x1) * c.digP1.toNat)) 15
  let p := uint32 (uint32 (1048576 - adc - sar x2 12) * 3125)
  -- the division by zero is avoided: BME280_INVALID_DATA
  if x1 = 0 then 0
  else
    let p :=
      if p < 0x80000000 then p * 2 / uint32 x1
      else uint32 ((p / uint32 x1 * 2 : Nat) : Int)
    let x1 := sar (int32 (c.digP9.toInt * (uint32 (p / 8 * (p / 8) : Nat) / 8192 : Nat))) 12
    let x2 := sar (int32 (((p / 4 : Nat) : Int) * c.digP8.toInt)) 13
    uint32 (int32 p + sar (int32 (int32 (x1 + x2) + c.digP7.toInt)) 4)

/-- `bme280_compensate_humidity_int32`, in percents times 1024. -/
def compensateHumidityInt32 (c : Calibration) (tFine adc : Int) : Int :=
  let x := int32 (tFine - 76800)
  let a := sar (int32 (int32 (int32 (int32 (adc * 16384) - int32 (c.digH4.toInt * 1048576)) -
    int32 (c.digH5.toInt * x)) + 16384)) 15
  let b := sar (int32 (x * c.digH6.toInt)) 10
  let e := int32 (sar (int32 (x * c.digH3.toNat)) 11 + 32768)
  let f := sar (int32 (int32 (int32 (sar (int32 (b * e)) 10 + 2097152) * c.digH2.toInt) + 8192)) 14
  let v := int32 (a * f)
  let v := int32 (v - sar (int32 (sar (int32 (sar v 15 * sar v 15)) 7 * c.digH1.toNat)) 4)
  let v := if v < 0 then 0 else v
  let v := if v > 419430400 then 419430400 else v
  sar v 12

/-- `bme280_compensate_temperature_double`, in degrees, over the rational numbers. -/
def compensateTemperatureDouble (c : Calibration) (adc : Int) : ℚ :=
  let t1 : ℚ := c.digT1.toNat
  let x1 := ((adc : ℚ) / 16384 - t1 / 1024) * c.digT2.toInt
  let x2 := ((adc : ℚ) / 131072 - t1 / 8192) * ((adc : ℚ) / 131072 - t1 / 8192) * c.digT3.toInt
  (x1 + x2) / 5120

theorem clamp_bounds (v : Int) :
    let v := if v < 0 then 0 else v
    let v := if v > 419430400 then 419430400 else v
    0 ≤ sar v 12 ∧ sar v 12 ≤ 100 * 1024 := by
  simp only [sar]
  split_ifs <;> omega

/-- The humidity is at most 100 percent, whatever the sensor and its calibration are. -/
theorem compensateHumidity_bounds (c : Calibration) (tFine adc : Int) :
    0 ≤ compensateHumidityInt32 c tFine adc ∧ compensateHumidityInt32 c tFine adc ≤ 100 * 1024 :=
  clamp_bounds _

/-! ## The accuracy of the temperature -/

/-- The products that `bme280_compensate_temperature_int32` computes fit 32 bits. -/
structure TemperatureFits (c : Calibration) (adc : Int) : Prop where
  lo : -2147483648 ≤ adc
  hi : adc < 2147483648
  linear : |(adc / 8 - c.digT1.toNat * 2) * c.digT2.toInt| < 2147483648
  square : (adc / 16 - c.digT1.toNat) * (adc / 16 - c.digT1.toNat) < 2147483648
  quadratic : |(adc / 16 - c.digT1.toNat) * (adc / 16 - c.digT1.toNat) / 4096 * c.digT3.toInt| <
    2147483648

/-- `t_fine`, without the wraps. -/
def exactTFine (c : Calibration) (adc : Int) : Int :=
  (adc / 8 - c.digT1.toNat * 2) * c.digT2.toInt / 2048 +
    (adc / 16 - c.digT1.toNat) * (adc / 16 - c.digT1.toNat) / 4096 * c.digT3.toInt / 16384

variable {c : Calibration} {adc : Int}

/-- No operation wraps when the products fit. -/
theorem TemperatureFits.exact (fits : TemperatureFits c adc) :
    compensateTemperatureInt32 c adc = (exactTFine c adc, (exactTFine c adc * 5 + 128) / 256) := by
  obtain ⟨lo, hi, linear, square, quadratic⟩ := fits
  have t1 := c.digT1.toNat_lt
  have positive := mul_self_nonneg (adc / 16 - (c.digT1.toNat : Int))
  rw [abs_lt] at linear quadratic
  simp only [compensateTemperatureInt32, sar, exactTFine]
  norm_num only
  rw [int32_of_range (x := adc / 8 - _) (by omega) (by omega),
    int32_of_range (x := adc / 16 - _) (by omega) (by omega),
    int32_of_range (x := _ * c.digT2.toInt) (by omega) (by omega),
    int32_of_range (x := (adc / 16 - _) * _) (by omega) (by omega),
    int32_of_range (x := _ / 4096 * _) (by omega) (by omega),
    int32_of_range (x := _ / 2048 + _) (by omega) (by omega),
    int32_of_range (x := _ * 5) (by omega) (by omega),
    int32_of_range (x := _ * 5 + 128) (by omega) (by omega)]

theorem abs_mul_le {x y m n : Int} (hx : |x| ≤ m) (hy : |y| ≤ n) : |x * y| ≤ m * n := by
  rw [abs_mul]
  exact mul_le_mul hx hy (abs_nonneg y) ((abs_nonneg x).trans hx)

/-- What the two shifts of the linear term lose, in units of `2 ^ -14`. -/
theorem linear_error (a t : Int) {g : Int} (small : |g| ≤ 32768) :
    |16384 * ((a / 8 - t * 2) * g / 2048) - (a - 16 * t) * g| ≤ 245760 := by
  have shifted : 0 ≤ a - 16 * t - 8 * (a / 8 - t * 2) ∧ a - 16 * t - 8 * (a / 8 - t * 2) ≤ 7 := by
    omega
  have lost := abs_mul_le (abs_le.mpr ⟨by omega, shifted.2⟩) small
  have split : (a - 16 * t) * g = 8 * ((a / 8 - t * 2) * g) +
      (a - 16 * t - 8 * (a / 8 - t * 2)) * g := by ring
  rw [split, abs_le] at *
  omega

/-- What the shifts of the square lose. -/
theorem square_error (a t : Int) (fits : (a / 16 - t) * (a / 16 - t) < 2147483648) :
    |1048576 * ((a / 16 - t) * (a / 16 - t) / 4096) - (a - 16 * t) * (a - 16 * t)| ≤ 23292001 := by
  have root : |a / 16 - t| ≤ 46340 := by
    rw [abs_le]
    constructor <;> nlinarith
  have rest : |a - 16 * t - 16 * (a / 16 - t)| ≤ 15 := by
    rw [abs_le]
    omega
  have cross := abs_mul_le root rest
  have corner := abs_mul_le rest rest
  have split : (a - 16 * t) * (a - 16 * t) = 256 * ((a / 16 - t) * (a / 16 - t)) +
      32 * ((a / 16 - t) * (a - 16 * t - 16 * (a / 16 - t))) +
      (a - 16 * t - 16 * (a / 16 - t)) * (a - 16 * t - 16 * (a / 16 - t)) := by ring
  rw [split]
  rw [abs_le] at *
  omega

/-- What the shifts of the quadratic term lose, in units of `2 ^ -34`. -/
theorem quadratic_error (a t : Int) {g : Int} (small : |g| ≤ 32768)
    (fits : (a / 16 - t) * (a / 16 - t) < 2147483648) :
    |17179869184 * ((a / 16 - t) * (a / 16 - t) / 4096 * g / 16384) -
      (a - 16 * t) * (a - 16 * t) * g| ≤ 780412157952 := by
  have lost := abs_mul_le (square_error a t fits) small
  have split : (1048576 * ((a / 16 - t) * (a / 16 - t) / 4096) - (a - 16 * t) * (a - 16 * t)) * g =
      1048576 * ((a / 16 - t) * (a / 16 - t) / 4096 * g) - (a - 16 * t) * (a - 16 * t) * g := by
    ring
  rw [split, abs_le] at lost
  rw [abs_le]
  omega

/-- In units of `2 ^ -42` of a hundredth of a degree, the whole code loses less than 1.7 units. -/
theorem temperature_error (fits : TemperatureFits c adc) :
    |4398046511104 * (compensateTemperatureInt32 c adc).2 -
      5 * (1048576 * ((adc - 16 * c.digT1.toNat) * c.digT2.toInt) +
        (adc - 16 * c.digT1.toNat) * (adc - 16 * c.digT1.toNat) * c.digT3.toInt)| ≤
      7450000000000 := by
  have byte (g : Int16) : |g.toInt| ≤ 32768 := abs_le.mpr ⟨g.le_toInt, g.toInt_lt.le⟩
  have linear := linear_error adc c.digT1.toNat (byte c.digT2)
  have quadratic := quadratic_error adc c.digT1.toNat (byte c.digT3) fits.square
  rw [fits.exact, exactTFine]
  rw [abs_le] at *
  omega

/-- As long as its products fit 32 bits, `bme280_compensate_temperature_int32` is within two
hundredths of a degree of the plain formula. -/
theorem temperature_accurate (fits : TemperatureFits c adc) :
    |((compensateTemperatureInt32 c adc).2 : ℚ) - 100 * compensateTemperatureDouble c adc| <
      17 / 10 := by
  have error := temperature_error fits
  have scaled : (4398046511104 : ℚ) *
      ((compensateTemperatureInt32 c adc).2 - 100 * compensateTemperatureDouble c adc) =
      ((4398046511104 * (compensateTemperatureInt32 c adc).2 -
        5 * (1048576 * ((adc - 16 * c.digT1.toNat) * c.digT2.toInt) +
          (adc - 16 * c.digT1.toNat) * (adc - 16 * c.digT1.toNat) * c.digT3.toInt) : Int) : ℚ) := by
    rw [compensateTemperatureDouble]
    push_cast
    ring
  have bound : |(4398046511104 : ℚ) *
      ((compensateTemperatureInt32 c adc).2 - 100 * compensateTemperatureDouble c adc)| ≤
      7450000000000 := by
    rw [scaled]
    exact_mod_cast error
  rw [abs_mul, abs_of_pos (by norm_num)] at bound
  linarith

theorem temperature_accurate_warm :
    let c : Calibration := ⟨27504, 26435, -1000, 0, 0, 0, 0, 0, 0, 0, 0, 0, 0, 0, 0, 0, 0, 0⟩
    (compensateTemperatureInt32 c 519888).2 = 2508 ∧
      |2508 - 100 * compensateTemperatureDouble c 519888| < 17 / 10 := by
  intro c
  have value : (compensateTemperatureInt32 c 519888).2 = 2508 := by decide
  have accurate := @temperature_accurate c 519888 (by constructor <;> decide)
  rw [value] at accurate
  exact ⟨value, accurate⟩

end Domotic
