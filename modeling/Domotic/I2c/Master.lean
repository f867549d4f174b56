import Domotic.Library.TwoWire

/-!
# The I²C master

`i2c_master.c`. Every function is a sequence of calls of `i2c_master_setDC`, which drives both
lines for half a clock; the delays between the calls are left out. The last levels driven are kept
in `m_nLastSDA` and `m_nLastSCL`.
-/
namespace Domotic
open Library TwoWire

/-- `m_nLastSDA`, `m_nLastSCL` and the lines. -/
structure I2c (σ : Type) where
  lastSDA : Bool
  lastSCL : Bool
  lines : Lines σ

section master
variable {σ : Type} (dev : Device σ)

/-- `i2c_master_setDC` -/
def i2cMasterSetDC (sda scl : Bool) (b : I2c σ) : I2c σ :=
  ⟨sda, scl, b.lines.drive dev sda scl⟩

/-- `i2c_master_getDC` -/
def i2cMasterGetDC (b : I2c σ) : Bool := b.lastSDA && dev.releases b.lines.device

/-- `i2c_master_start` -/
def i2cMasterStart (b : I2c σ) : I2c σ :=
  let b := i2cMasterSetDC dev true b.lastSCL b
  let b := i2cMasterSetDC dev true true b
  i2cMasterSetDC dev false true b

/-- `i2c_master_stop` -/
def i2cMasterStop (b : I2c σ) : I2c σ :=
  let b := i2cMasterSetDC dev false b.lastSCL b
  let b := i2cMasterSetDC dev false true b
  i2cMasterSetDC dev true true b

/-- `n` rounds of the loop in `i2c_master_init`. -/
def clearLoop : Nat → I2c σ → I2c σ
  | 0, b => b
  | n + 1, b => clearLoop n (i2cMasterSetDC dev true true (i2cMasterSetDC dev true false b))

/-- `i2c_master_init` -/
def i2cMasterInit (b : I2c σ) : I2c σ :=
  let b := i2cMasterSetDC dev true false b
  let b := i2cMasterSetDC dev false false b
  let b := i2cMasterSetDC dev true false b
  i2cMasterStop dev (clearLoop dev 28 b)

/-- `i2c_master_gpio_init`, which drives both lines high behind the back of `m_nLastSDA` and
`m_nLastSCL`. -/
def i2cMasterGpioInit (b : I2c σ) : I2c σ :=
  i2cMasterInit dev { b with lines := b.lines.drive dev true true }

/-- `i2c_master_setAck` -/
def i2cMasterSetAck (level : Bool) (b : I2c σ) : I2c σ :=
  let b := i2cMasterSetDC dev b.lastSDA false b
  let b := i2cMasterSetDC dev level false b
  let b := i2cMasterSetDC dev level true b
  let b := i2cMasterSetDC dev level false b
  i2cMasterSetDC dev true false b

/-- `i2c_master_send_nack` -/
def i2cMasterSendNack (b : I2c σ) : I2c σ := i2cMasterSetAck dev true b

/-- `i2c_master_getAck` -/
def i2cMasterGetAck (b : I2c σ) : I2c σ × Bool :=
  let b := i2cMasterSetDC dev b.lastSDA false b
  let b := i2cMasterSetDC dev true false b
  let b := i2cMasterSetDC dev true true b
  (i2cMasterSetDC dev true false b, i2cMasterGetDC dev b)

/-- The loop of `i2c_master_readByte` with `n` bits to go. -/
def readLoop : Nat → I2c σ → UInt8 → I2c σ × UInt8
  | 0, b, retVal => (b, retVal)
  | n + 1, b, retVal =>
    let b := i2cMasterSetDC dev true false b
    let b := i2cMasterSetDC dev true true b
    let k : UInt8 := if i2cMasterGetDC dev b then 1 else 0
    readLoop n b (retVal ||| k <<< UInt8.ofNat n)

/-- `i2c_master_readByte` -/
def i2cMasterReadByte (b : I2c σ) : I2c σ × UInt8 :=
  let r := readLoop dev 8 (i2cMasterSetDC dev b.lastSDA false b) 0
  (i2cMasterSetDC dev true false r.1, r.2)

/-- The loop of `i2c_master_writeByte` with `n` bits to go. -/
def writeLoop (wrdata : UInt8) : Nat → I2c σ → I2c σ
  | 0, b => b
  | n + 1, b =>
    let dat := wrdata.toNat.testBit n
    let b := i2cMasterSetDC dev dat false b
    let b := i2cMasterSetDC dev dat true b
    writeLoop wrdata n (i2cMasterSetDC dev dat false b)

/-- `i2c_master_writeByte` -/
def i2cMasterWriteByte (wrdata : UInt8) (b : I2c σ) : I2c σ :=
  writeLoop dev wrdata 8 (i2cMasterSetDC dev b.lastSDA false b)

/-- The byte that `send_PCF8885` reads: it addresses the device, reads once and does not look at
the acknowledgement. -/
def readPcf8885 (b : I2c σ) : I2c σ × UInt8 :=
  let b := i2cMasterWriteByte dev 0x41 (i2cMasterStart dev b)
  let b := (i2cMasterGetAck dev b).1
  let r := i2cMasterReadByte dev b
  (i2cMasterStop dev (i2cMasterSendNack dev r.1), r.2)

end master

/-! ## What is read is what is heard -/

section anyDevice
variable {σ : Type} {dev : Device σ} {b : I2c σ}

theorem setDC_low (sda : Bool) :
    (i2cMasterSetDC dev sda false b).lines.symbols = b.lines.symbols ++ b.lines.heard.flush ∧
      (i2cMasterSetDC dev sda false b).lines.heard.scl = false ∧
      (i2cMasterSetDC dev sda false b).lines.heard.flush = [] := Lines.drive_low sda

/-- The level that is read while the clock is high is the bit that is heard. -/
theorem setDC_rise (low : b.lines.heard.scl = false) :
    (i2cMasterSetDC dev true true b).lines.symbols = b.lines.symbols ∧
      (i2cMasterSetDC dev true true b).lines.heard.flush =
        [.bit (i2cMasterGetDC dev (i2cMasterSetDC dev true true b))] := by
  obtain ⟨symbols, heard, still⟩ := @Lines.drive_rise σ dev b.lines low true
  refine ⟨symbols, ?_⟩
  unfold i2cMasterGetDC i2cMasterSetDC
  dsimp only
  rw [heard, still]
  rfl

/-- A low clock after a low clock. -/
theorem setDC_stays (low : b.lines.heard.scl = false) (sda : Bool) :
    (i2cMasterSetDC dev sda false b).lines.symbols = b.lines.symbols := by
  have silent : b.lines.heard.flush = [] := by simp [Listener.flush, low]
  rw [(setDC_low sda).1, silent, List.append_nil]

/-- The acknowledgement that is returned is the bit that is heard. -/
theorem getAck_heard (low : b.lines.heard.scl = false) :
    (i2cMasterGetAck dev b).1.lines.symbols =
      b.lines.symbols ++ [.bit (i2cMasterGetAck dev b).2] := by
  have first := @setDC_stays σ dev b low b.lastSDA
  have low₁ := (@setDC_low σ dev b b.lastSDA).2.1
  have second := @setDC_stays σ dev _ low₁ true
  have low₂ := (@setDC_low σ dev (i2cMasterSetDC dev b.lastSDA false b) true).2.1
  obtain ⟨third, level⟩ := @setDC_rise σ dev _ low₂
  unfold i2cMasterGetAck
  dsimp only
  rw [(setDC_low true).1, third, level, second, first]

/-- The number with these binary digits. -/
def word : List Bool → UInt8
  | [] => 0
  | k :: ks => (if k then 1 else 0) <<< UInt8.ofNat ks.length ||| word ks

theorem bits_word_of (a b c d e f g h : Bool) :
    bits (word [a, b, c, d, e, f, g, h]) = [a, b, c, d, e, f, g, h] := by
  decide +revert

theorem bits_word {ks : List Bool} (byte : ks.length = 8) : bits (word ks) = ks := by
  match ks, byte with
  | [a, b, c, d, e, f, g, h], _ => exact bits_word_of a b c d e f g h

/-- The loop returns the bits that are heard. -/
theorem readLoop_heard (n : Nat) (retVal : UInt8) :
    ∃ ks, ks.length = n ∧ (readLoop dev n b retVal).2 = retVal ||| word ks ∧
      (readLoop dev n b retVal).1.lines.symbols ++ (readLoop dev n b retVal).1.lines.heard.flush =
        b.lines.symbols ++ b.lines.heard.flush ++ ks.map .bit := by
  induction n generalizing b retVal with
  | zero => exact ⟨[], rfl, (UInt8.or_zero).symm, (List.append_nil _).symm⟩
  | succ n ih =>
    obtain ⟨ended, low, -⟩ := @setDC_low σ dev b true
    obtain ⟨same, level⟩ := @setDC_rise σ dev _ low
    obtain ⟨ks, length, value, symbols⟩ := @ih
      (i2cMasterSetDC dev true true (i2cMasterSetDC dev true false b))
      (retVal ||| (if i2cMasterGetDC dev
        (i2cMasterSetDC dev true true (i2cMasterSetDC dev true false b)) then 1 else 0) <<<
          UInt8.ofNat n)
    refine ⟨i2cMasterGetDC dev
      (i2cMasterSetDC dev true true (i2cMasterSetDC dev true false b)) :: ks, by simp [length],
      ?_, ?_⟩
    · rw [readLoop, value, word, length, UInt8.or_assoc]
    · rw [readLoop, symbols, same, level, ended]
      simp

/-- Whatever device is on the bus, the byte that is returned is the byte that is heard. -/
theorem readByte_heard (low : b.lines.heard.scl = false) :
    (i2cMasterReadByte dev b).1.lines.symbols =
      b.lines.symbols ++ (bits (i2cMasterReadByte dev b).2).map .bit := by
  obtain ⟨ended, -, silent⟩ := @setDC_low σ dev b b.lastSDA
  obtain ⟨ks, length, value, symbols⟩ :=
    @readLoop_heard σ dev (i2cMasterSetDC dev b.lastSDA false b) 8 0
  have before := @setDC_stays σ dev b low b.lastSDA
  unfold i2cMasterReadByte
  dsimp only
  rw [(setDC_low true).1, symbols, value, UInt8.zero_or, bits_word length, silent, before,
    List.append_nil]

/-- Whatever device is on the bus, an acknowledgement and a byte that are returned are the bits that
any listener hears. -/
theorem returned_heard (low : b.lines.heard.scl = false) :
    (i2cMasterGetAck dev b).1.lines.symbols =
        b.lines.symbols ++ [.bit (i2cMasterGetAck dev b).2] ∧
      (i2cMasterReadByte dev b).1.lines.symbols =
        b.lines.symbols ++ (bits (i2cMasterReadByte dev b).2).map .bit :=
  ⟨getAck_heard low, readByte_heard low⟩

/-- A device that was left in the middle of a byte. -/
def midByte : I2c Sender :=
  ⟨false, false, ⟨false, false, none⟩, [], ⟨false, false, none⟩, .data 3, false, 5⟩

theorem returned_heard_midByte :
    (i2cMasterGetAck (sender 0x41) midByte).1.lines.symbols =
        midByte.lines.symbols ++ [.bit (i2cMasterGetAck (sender 0x41) midByte).2] ∧
      (i2cMasterReadByte (sender 0x41) midByte).1.lines.symbols =
        midByte.lines.symbols ++ (bits (i2cMasterReadByte (sender 0x41) midByte).2).map .bit :=
  returned_heard rfl

end anyDevice

end Domotic
