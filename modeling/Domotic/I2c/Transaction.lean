import Domotic.I2c.Master

/-!
# A read from a device

What the master and a device that sends a byte do to each other. `i2c_master_init` brings the
device to rest from any state it was left in. After that every read of the code is one frame on the
bus, and returns the byte that the device sends then; when no device has the address, the line
stays high and the read returns `0xFF`.
-/
namespace Domotic
open Library TwoWire

variable {own value wrdata : UInt8} {p : Phase} {b : I2c Sender}

/-! ## One call of `i2c_master_setDC` -/

theorem setDC_low_sender (h : ClockLow p value b.lines) (sda : Bool) :
    ClockLow p value (i2cMasterSetDC (sender own) sda false b).lines ∧
      (i2cMasterSetDC (sender own) sda false b).lines.symbols = b.lines.symbols := h.low sda

/-- A whole clock. -/
theorem clock_sender (h : ClockLow p value b.lines) (sda sda' : Bool) :
    ClockLow (p.next own (.bit (sda && p.out value))) value
        (i2cMasterSetDC (sender own) sda' false (i2cMasterSetDC (sender own) sda true b)).lines ∧
      (i2cMasterSetDC (sender own) sda' false
        (i2cMasterSetDC (sender own) sda true b)).lines.symbols =
          b.lines.symbols ++ [.bit (sda && p.out value)] := by
  obtain ⟨high, silent⟩ := @ClockLow.rise own value p b.lines h sda
  obtain ⟨low, bit⟩ := @ClockHigh.fall own value p _ _ high sda'
  exact ⟨low, bit.trans (by rw [silent])⟩

/-! ## A written byte -/

/-- The lower `n` bits of a byte, the highest one first. -/
def lowBits (v : UInt8) : Nat → List Bool
  | 0 => []
  | n + 1 => v.toNat.testBit n :: lowBits v n

theorem lowBits_eight (v : UInt8) : lowBits v 8 = bits v := rfl

/-- A device that reads its address hears what is written. -/
theorem writeLoop_address {bs : List Bool} {n : Nat} (h : ClockLow (.address bs) value b.lines)
    (rest : bs.length + (n + 1) = 8) :
    ClockLow (if bs ++ lowBits wrdata (n + 1) = bits own then .acknowledge else .idle) value
        (writeLoop (sender own) wrdata (n + 1) b).lines ∧
      (writeLoop (sender own) wrdata (n + 1) b).lines.symbols =
        b.lines.symbols ++ (lowBits wrdata (n + 1)).map .bit := by
  induction n generalizing b bs with
  | zero =>
    obtain ⟨low, silent⟩ := @setDC_low_sender own value _ b h (wrdata.toNat.testBit 0)
    obtain ⟨next, bit⟩ := @clock_sender own value _ _ low (wrdata.toNat.testBit 0)
      (wrdata.toNat.testBit 0)
    rw [silent] at bit
    have full : ¬ bs.length < 7 := by omega
    simp only [Phase.out, Bool.and_true, Phase.next, full, ↓reduceIte] at next bit
    exact ⟨next, bit⟩
  | succ n ih =>
    obtain ⟨low, silent⟩ := @setDC_low_sender own value _ b h (wrdata.toNat.testBit (n + 1))
    obtain ⟨next, bit⟩ := @clock_sender own value _ _ low (wrdata.toNat.testBit (n + 1))
      (wrdata.toNat.testBit (n + 1))
    rw [silent] at bit
    have more : bs.length < 7 := by omega
    simp only [Phase.out, Bool.and_true, Phase.next, more, ↓reduceIte] at next bit
    obtain ⟨last, symbols⟩ := ih next (by rw [List.length_append, List.length_singleton]; omega)
    rw [bit] at symbols
    rw [List.append_assoc] at last symbols
    exact ⟨last, symbols⟩

/-! ## An acknowledgement and a read byte -/

theorem getAck_sender (h : ClockLow p value b.lines) :
    (i2cMasterGetAck (sender own) b).2 = p.out value ∧
      ClockLow (p.next own (.bit (p.out value))) value (i2cMasterGetAck (sender own) b).1.lines ∧
      (i2cMasterGetAck (sender own) b).1.lines.symbols =
        b.lines.symbols ++ [.bit (p.out value)] := by
  obtain ⟨low, silent⟩ := @setDC_low_sender own value p b h b.lastSDA
  obtain ⟨low', silent'⟩ := @setDC_low_sender own value p _ low true
  obtain ⟨next, bit⟩ := @clock_sender own value p _ low' true true
  have heard := @getAck_heard _ (sender own) b h.scl
  rw [Bool.true_and] at next bit
  rw [silent', silent] at bit
  have same := heard.symm.trans bit
  have result : (i2cMasterGetAck (sender own) b).2 = p.out value := by simpa using same
  exact ⟨result, next, bit⟩

theorem setAck_sender (h : ClockLow p value b.lines) (level : Bool) :
    ClockLow (p.next own (.bit (level && p.out value))) value
        (i2cMasterSetAck (sender own) level b).lines ∧
      (i2cMasterSetAck (sender own) level b).lines.symbols =
        b.lines.symbols ++ [.bit (level && p.out value)] := by
  obtain ⟨low, silent⟩ := @setDC_low_sender own value p b h b.lastSDA
  obtain ⟨low', silent'⟩ := @setDC_low_sender own value p _ low level
  obtain ⟨next, bit⟩ := @clock_sender own value p _ low' level level
  obtain ⟨last, silent''⟩ := @setDC_low_sender own value _ _ next true
  rw [silent', silent] at bit
  exact ⟨last, silent''.trans bit⟩

/-- The phases that a device goes through while the master reads bits. -/
def PhasesRead (own value : UInt8) (phase : Nat → Phase) (n : Nat) : Prop :=
  ∀ i < n, (phase i).next own (.bit ((phase i).out value)) = phase (i + 1)

theorem readLoop_sender {phase : Nat → Phase} {n : Nat} (reads : PhasesRead own value phase n)
    {syms : List Symbol}
    (h : ClockLow (phase 0) value (i2cMasterSetDC (sender own) true false b).lines)
    (heard : (i2cMasterSetDC (sender own) true false b).lines.symbols = syms) (retVal : UInt8) :
    ClockLow (phase n) value
        (i2cMasterSetDC (sender own) true false (readLoop (sender own) n b retVal).1).lines ∧
      (i2cMasterSetDC (sender own) true false (readLoop (sender own) n b retVal).1).lines.symbols =
        syms ++ (List.range n).map fun i => .bit ((phase i).out value) := by
  induction n generalizing b retVal phase syms with
  | zero => exact ⟨h, heard.trans (List.append_nil _).symm⟩
  | succ n ih =>
    obtain ⟨next, bit⟩ := @clock_sender own value _ _ h true true
    rw [Bool.true_and, reads 0 (Nat.succ_pos n)] at next
    rw [Bool.true_and, heard] at bit
    have later : PhasesRead own value (fun i => phase (i + 1)) n := fun i small =>
      reads (i + 1) (Nat.succ_lt_succ small)
    obtain ⟨last, symbols⟩ := ih later next bit
      (retVal ||| (if i2cMasterGetDC (sender own) (i2cMasterSetDC (sender own) true true
        (i2cMasterSetDC (sender own) true false b)) then 1 else 0) <<< UInt8.ofNat n)
    refine ⟨last, symbols.trans ?_⟩
    rw [List.range_succ_eq_map]
    simp

theorem readByte_sender {phase : Nat → Phase} (reads : PhasesRead own value phase 8)
    (h : ClockLow (phase 0) value b.lines) :
    ClockLow (phase 8) value (i2cMasterReadByte (sender own) b).1.lines ∧
      (i2cMasterReadByte (sender own) b).1.lines.symbols =
        b.lines.symbols ++ (List.range 8).map fun i => .bit ((phase i).out value) := by
  obtain ⟨low, silent⟩ := @setDC_low_sender own value _ b h b.lastSDA
  obtain ⟨low', silent'⟩ := @setDC_low_sender own value _ _ low true
  exact readLoop_sender reads low' (silent'.trans silent) 0

/-! ## A read of `send_PCF8885` -/

/-- Both lines are high and the device waits. -/
structure AtRest (value : UInt8) (b : I2c Sender) : Prop where
  lastSDA : b.lastSDA = true
  lastSCL : b.lastSCL = true
  scl : b.lines.heard.scl = true
  sda : b.lines.heard.sda = true
  device : b.lines.device = ⟨b.lines.heard, .idle, true, value⟩

/-- A start was heard, and the device reads an address. -/
structure StartHeard (value : UInt8) (b : I2c Sender) : Prop where
  heard : b.lines.heard = ⟨true, false, none⟩
  device : b.lines.device = ⟨b.lines.heard, .address [], true, value⟩

theorem AtRest.hold (h : AtRest value b) :
    AtRest value (i2cMasterSetDC (sender own) true true b) ∧
      (i2cMasterSetDC (sender own) true true b).lines.symbols = b.lines.symbols := by
  obtain ⟨-, -, scl, sda, device⟩ := h
  have same : b.lines.heard.hear true true = (b.lines.heard, []) := by
    simp [Listener.hear, scl, sda]
  refine ⟨⟨rfl, rfl, ?_, ?_, ?_⟩, ?_⟩
  · simp [i2cMasterSetDC, Lines.drive, sender, device, same, scl]
  · simp [i2cMasterSetDC, Lines.drive, sender, device, same, sda]
  · simp [i2cMasterSetDC, Lines.drive, sender, Sender.react, device, same]
  · simp [i2cMasterSetDC, Lines.drive, sender, device, same]

/-- The data line falls while the clock is high. -/
theorem AtRest.fall (h : AtRest value b) :
    StartHeard value (i2cMasterSetDC (sender own) false true b) ∧
      (i2cMasterSetDC (sender own) false true b).lines.symbols = b.lines.symbols ++ [.start] := by
  obtain ⟨-, -, scl, sda, device⟩ := h
  have start : b.lines.heard.hear false true = (⟨true, false, none⟩, [.start]) := by
    simp [Listener.hear, scl, sda]
  refine ⟨⟨?_, ?_⟩, ?_⟩
  · simp [i2cMasterSetDC, Lines.drive, start]
  · simp [i2cMasterSetDC, Lines.drive, sender, Sender.react, device, start, Phase.next]
  · simp [i2cMasterSetDC, Lines.drive, start]

theorem start_sender (h : AtRest value b) :
    StartHeard value (i2cMasterStart (sender own) b) ∧
      (i2cMasterStart (sender own) b).lines.symbols = b.lines.symbols ++ [.start] := by
  unfold i2cMasterStart
  dsimp only
  rw [h.lastSCL]
  obtain ⟨first, silent⟩ := @AtRest.hold own value b h
  obtain ⟨second, silent'⟩ := @AtRest.hold own value _ first
  obtain ⟨started, symbols⟩ := @AtRest.fall own value _ second
  exact ⟨started, symbols.trans (by rw [silent', silent])⟩

/-- The first call of `i2c_master_writeByte` after a start. -/
theorem StartHeard.low (h : StartHeard value b) (sda : Bool) :
    ClockLow (.address []) value (i2cMasterSetDC (sender own) sda false b).lines ∧
      (i2cMasterSetDC (sender own) sda false b).lines.symbols = b.lines.symbols := by
  obtain ⟨heard, device⟩ := h
  refine ⟨⟨rfl, ?_⟩, ?_⟩
  · simp [i2cMasterSetDC, Lines.drive, sender, Sender.react, Listener.hear, Listener.flush, device,
      heard, Phase.out]
  · simp [i2cMasterSetDC, Lines.drive, Listener.hear, Listener.flush, heard]

theorem bits_injective {v w : UInt8} (same : bits v = bits w) : v = w := by
  apply UInt8.toNat_inj.mp
  refine Nat.eq_of_testBit_eq fun i => ?_
  by_cases small : i < 8
  · have each := List.map_inj_left.mp same (7 - i) (List.mem_range.mpr (by omega))
    rwa [show 7 - (7 - i) = i by omega] at each
  · have high : ∀ u : UInt8, u.toNat.testBit i = false := by
      intro u
      exact Nat.testBit_lt_two_pow (u.toNat_lt.trans_le
        (Nat.pow_le_pow_right (by decide) (Nat.le_of_not_lt small)))
    rw [high v, high w]

/-- The device acknowledges its own address. -/
theorem writeByte_started (h : StartHeard value b) :
    ClockLow (if wrdata = own then .acknowledge else .idle) value
        (i2cMasterWriteByte (sender own) wrdata b).lines ∧
      (i2cMasterWriteByte (sender own) wrdata b).lines.symbols =
        b.lines.symbols ++ (bits wrdata).map .bit := by
  obtain ⟨low, silent⟩ := @StartHeard.low own value b h b.lastSDA
  obtain ⟨last, symbols⟩ := @writeLoop_address own value wrdata _ [] 7 low rfl
  rw [List.nil_append, lowBits_eight] at last
  rw [lowBits_eight, silent] at symbols
  have known : bits wrdata = bits own ↔ wrdata = own := ⟨bits_injective, congrArg bits⟩
  rw [if_congr known rfl rfl] at last
  exact ⟨last, symbols⟩

/-- A stop, from a low clock. -/
theorem stop_sender (lastSCL : b.lastSCL = false) (h : ClockLow .idle value b.lines) :
    AtRest value (i2cMasterStop (sender own) b) ∧
      (i2cMasterStop (sender own) b).lines.symbols = b.lines.symbols ++ [.stop] := by
  unfold i2cMasterStop
  dsimp only
  rw [lastSCL]
  obtain ⟨low, silent⟩ := @setDC_low_sender own value _ b h false
  obtain ⟨high, silent'⟩ := @ClockLow.rise own value _ _ low false
  obtain ⟨heard, stop, device⟩ :=
    @ClockHigh.change own value _ _ _ high rfl true (by simp [Phase.out])
  refine ⟨⟨rfl, rfl, ?_, ?_, ?_⟩, ?_⟩
  · exact congrArg Listener.scl heard
  · exact congrArg Listener.sda heard
  · exact device.trans (by rw [← heard]; rfl)
  · exact stop.trans (by rw [silent']; exact congrArg (· ++ [Symbol.stop]) silent)

/-- What is heard when a byte is read from the device at `own`, or from no device. -/
def frame (own value : UInt8) : List Symbol :=
  [.start] ++ (bits 0x41).map .bit ++ [.bit (decide (0x41 ≠ own))] ++
    (bits (if 0x41 = own then value else 0xFF)).map .bit ++ [.bit true, .stop]

/-- The phases of a device while its byte is read. -/
def sending (i : Nat) : Phase := if i < 8 then .data i else .acknowledged

theorem sending_read : PhasesRead own value sending 8 := by
  intro i small
  unfold sending
  rw [if_pos small]
  unfold Phase.next
  dsimp only
  by_cases last : i < 7
  · rw [if_pos last, if_pos (by omega)]
  · rw [if_neg last, if_neg (by omega)]

theorem idle_read : PhasesRead own value (fun _ => .idle) 8 := fun _ _ => rfl

/-- The rest of a read, behind the address. -/
theorem readPcf8885_rest {phase : Nat → Phase} {v : UInt8} (reads : PhasesRead own value phase 8)
    (h : ClockLow (phase 0) value b.lines)
    (sent : (List.range 8).map (fun i => (phase i).out value) = bits v)
    (released : (phase 8).out value = true) (done : (phase 8).next own (.bit true) = .idle) :
    (i2cMasterReadByte (sender own) b).2 = v ∧
      AtRest value (i2cMasterStop (sender own)
        (i2cMasterSendNack (sender own) (i2cMasterReadByte (sender own) b).1)) ∧
      (i2cMasterStop (sender own) (i2cMasterSendNack (sender own)
        (i2cMasterReadByte (sender own) b).1)).lines.symbols =
          b.lines.symbols ++ (bits v).map .bit ++ [.bit true, .stop] := by
  obtain ⟨read, symbols⟩ := @readByte_sender own value b phase reads h
  obtain ⟨low, nack⟩ := @setAck_sender own value _ _ read true
  rw [released, Bool.and_true, done] at low
  rw [released, Bool.and_true] at nack
  obtain ⟨rest, stop⟩ := @stop_sender own value _ rfl low
  have heard := @readByte_heard _ (sender own) b h.scl
  have bitsSent : (List.range 8).map (fun i => Symbol.bit ((phase i).out value)) =
      (bits v).map .bit := by
    rw [← sent, List.map_map]
    rfl
  rw [bitsSent] at symbols
  have same := List.append_cancel_left (heard.symm.trans symbols)
  have result : bits (i2cMasterReadByte (sender own) b).2 = bits v :=
    List.map_injective_iff.mpr (fun x y eq => Symbol.bit.inj eq) same
  refine ⟨bits_injective result, rest, stop.trans ?_⟩
  rw [nack, symbols]
  simp

/-- A read returns the byte of the device at the address, or `0xFF` when there is none. -/
theorem readPcf8885_sender (h : AtRest value b) :
    (readPcf8885 (sender own) b).2 = (if 0x41 = own then value else 0xFF) ∧
      AtRest value (readPcf8885 (sender own) b).1 ∧
      (readPcf8885 (sender own) b).1.lines.symbols = b.lines.symbols ++ frame own value := by
  obtain ⟨started, start⟩ := @start_sender own value b h
  obtain ⟨written, address⟩ := @writeByte_started own value 0x41 _ started
  obtain ⟨-, acknowledged, ack⟩ := @getAck_sender own value _ _ written
  unfold readPcf8885
  dsimp only
  unfold frame
  by_cases known : 0x41 = own
  · subst known
    simp only [↓reduceIte, Phase.out, Phase.next] at acknowledged ack
    obtain ⟨result, rest, symbols⟩ := readPcf8885_rest sending_read acknowledged rfl rfl rfl
    refine ⟨result, rest, symbols.trans ?_⟩
    rw [ack, address, start]
    simp
  · simp only [known, ↓reduceIte, Phase.out, Phase.next] at acknowledged ack
    obtain ⟨result, rest, symbols⟩ :=
      @readPcf8885_rest own value _ _ 0xFF idle_read acknowledged rfl rfl rfl
    simp only [known, ↓reduceIte]
    refine ⟨result, rest, symbols.trans ?_⟩
    rw [ack, address, start]
    simp [known]

/-! ## The initialisation -/

/-- What a device does on a clock while the master lets go of the data line. -/
def calm (own value : UInt8) (p : Phase) : Phase := p.next own (.bit (p.out value))

/-- The clocks after which a device is at rest, at most. -/
def clocks : Phase → Nat
  | .idle => 0
  | .acknowledged => 1
  | .data i => 2 + (7 - i)
  | .acknowledge => 10
  | .address bs => 11 + (7 - bs.length)

theorem clocks_calm (p : Phase) : clocks (calm own value p) ≤ clocks p - 1 := by
  cases p with
  | idle => exact Nat.le_refl 0
  | acknowledged => exact Nat.le_refl 0
  | acknowledge => exact Nat.le_refl 9
  | data i =>
    unfold calm Phase.next
    dsimp only
    split
    · simp only [clocks]
      omega
    · simp only [clocks]
      omega
  | address bs =>
    unfold calm Phase.next
    dsimp only
    split
    · simp only [clocks, List.length_append, List.length_singleton]
      omega
    · split
      · simp only [clocks]
        omega
      · simp only [clocks]
        omega

theorem calm_idle {n : Nat} {p : Phase} (enough : clocks p ≤ n) :
    (calm own value)^[n] p = .idle := by
  induction n generalizing p with
  | zero =>
    cases p with
    | idle => rfl
    | _ =>
      simp only [clocks] at enough
      omega
  | succ n ih =>
    have fewer := @clocks_calm own value p
    rw [Function.iterate_succ_apply]
    exact ih (by omega)

theorem clocks_le (p : Phase) : clocks p ≤ 18 := by
  cases p with
  | address bs =>
    simp only [clocks]
    omega
  | data i =>
    simp only [clocks]
    omega
  | _ => simp only [clocks, Nat.reduceLeDiff, Nat.zero_le]

/-- The last round of the loop. -/
theorem clearLoop_succ (n : Nat) (b : I2c Sender) :
    clearLoop (sender own) (n + 1) b =
      i2cMasterSetDC (sender own) true true
        (i2cMasterSetDC (sender own) true false (clearLoop (sender own) n b)) := by
  induction n generalizing b with
  | zero => rfl
  | succ n ih => exact ih _

theorem clearLoop_sender (n : Nat)
    (h : ClockLow p value (i2cMasterSetDC (sender own) true false b).lines) :
    ClockLow ((calm own value)^[n] p) value
      (i2cMasterSetDC (sender own) true false (clearLoop (sender own) n b)).lines := by
  induction n generalizing b p with
  | zero => exact h
  | succ n ih =>
    obtain ⟨next, -⟩ := @clock_sender own value p _ h true true
    rw [Bool.true_and] at next
    rw [Function.iterate_succ_apply]
    exact ih next

theorem StartHeard.hold (h : StartHeard value b) :
    StartHeard value (i2cMasterSetDC (sender own) false true b) := by
  obtain ⟨heard, device⟩ := h
  have same : b.lines.heard.hear false true = (b.lines.heard, []) := by
    simp [Listener.hear, heard]
  refine ⟨?_, ?_⟩
  · simp [i2cMasterSetDC, Lines.drive, Listener.hear, heard]
  · simp [i2cMasterSetDC, Lines.drive, sender, Sender.react, device, same]

theorem StartHeard.stop (h : StartHeard value b) :
    AtRest value (i2cMasterSetDC (sender own) true true b) := by
  obtain ⟨heard, device⟩ := h
  have stop : b.lines.heard.hear true true = (⟨true, true, none⟩, [.stop]) := by
    simp [Listener.hear, heard]
  refine ⟨rfl, rfl, ?_, ?_, ?_⟩
  · simp [i2cMasterSetDC, Lines.drive, sender, device, stop]
  · simp [i2cMasterSetDC, Lines.drive, sender, device, stop]
  · simp [i2cMasterSetDC, Lines.drive, sender, Sender.react, device, stop, Phase.next]

/-- The data line falls, stays low and rises while the clock is high. -/
theorem stop_high (lastSCL : b.lastSCL = true) (h : ClockHigh .idle value true b.lines) :
    AtRest value (i2cMasterStop (sender own) b) := by
  unfold i2cMasterStop
  dsimp only
  rw [lastSCL]
  obtain ⟨heard, -, device⟩ := @ClockHigh.change own value _ _ _ h rfl false (by decide)
  have started : StartHeard value (i2cMasterSetDC (sender own) false true b) :=
    ⟨heard, device.trans (by rw [← heard]; rfl)⟩
  exact started.hold.stop

/-- The clock is low behind any state of a device that heard the lines. -/
theorem low_sender (listening : b.lines.device.heard = b.lines.heard) (sda : Bool) :
    ∃ p, ClockLow p b.lines.device.value (i2cMasterSetDC (sender own) sda false b).lines := by
  refine ⟨(i2cMasterSetDC (sender own) sda false b).lines.device.phase, rfl, ?_⟩
  simp only [i2cMasterSetDC, Lines.drive, sender, Sender.react, listening, Bool.false_eq_true,
    ↓reduceIte]

/-- `i2c_master_gpio_init` brings the device to rest, whatever it was doing. -/
theorem init_sender (listening : b.lines.device.heard = b.lines.heard) :
    AtRest b.lines.device.value (i2cMasterGpioInit (sender own) b) := by
  have listens : (b.lines.drive (sender own) true true).device.heard =
      (b.lines.drive (sender own) true true).heard := by
    simp only [Lines.drive, sender, Sender.react, listening]
  obtain ⟨p, low⟩ := @low_sender own
    { b with lines := b.lines.drive (sender own) true true } listens true
  obtain ⟨low₂, -⟩ := @setDC_low_sender own _ _ _ low false
  obtain ⟨low₃, -⟩ := @setDC_low_sender own _ _ _ low₂ true
  obtain ⟨low₄, -⟩ := @setDC_low_sender own _ _ _ low₃ true
  -- 27 clocks are enough, and the last round ends with a high clock
  have cleared := @clearLoop_sender own _ _ _ 27 low₄
  rw [calm_idle ((clocks_le p).trans (by decide))] at cleared
  obtain ⟨high, -⟩ := @ClockLow.rise own _ _ _ cleared true
  unfold i2cMasterGpioInit i2cMasterInit
  dsimp only
  rw [clearLoop_succ]
  exact stop_high rfl high

/-! ## Many reads -/

/-- The device has another byte to send. -/
def setValue (v : UInt8) (b : I2c Sender) : I2c Sender :=
  { b with lines := { b.lines with device := { b.lines.device with value := v } } }

theorem AtRest.setValue (h : AtRest value b) (v : UInt8) : AtRest v (setValue v b) := by
  obtain ⟨lastSDA, lastSCL, scl, sda, device⟩ := h
  refine ⟨lastSDA, lastSCL, scl, sda, ?_⟩
  unfold Domotic.setValue
  dsimp only
  rw [device]

/-- The bytes that are read while the device has these bytes to send. -/
def readAll (own : UInt8) : List UInt8 → I2c Sender → List UInt8 × I2c Sender
  | [], b => ([], b)
  | v :: vs, b =>
    let r := readPcf8885 (sender own) (setValue v b)
    let rest := readAll own vs r.1
    (r.2 :: rest.1, rest.2)

theorem readAll_sender (vs : List UInt8) (h : AtRest value b) :
    (readAll own vs b).1 = vs.map (fun v => if 0x41 = own then v else 0xFF) ∧
      (readAll own vs b).2.lines.symbols = b.lines.symbols ++ vs.flatMap (frame own) := by
  induction vs generalizing b value with
  | nil => exact ⟨rfl, (List.append_nil _).symm⟩
  | cons v vs ih =>
    obtain ⟨result, rest, symbols⟩ := @readPcf8885_sender own v _ (h.setValue v)
    obtain ⟨results, frames⟩ := ih rest
    unfold readAll
    dsimp only
    rw [result, results, frames, symbols]
    exact ⟨rfl, by simp [setValue]⟩

/-- After the initialisation, every read returns what the device sends at that time, and is one
frame on the bus. -/
theorem reads_after_init (listening : b.lines.device.heard = b.lines.heard) (vs : List UInt8) :
    (readAll own vs (i2cMasterGpioInit (sender own) b)).1 =
        vs.map (fun v => if 0x41 = own then v else 0xFF) ∧
      (readAll own vs (i2cMasterGpioInit (sender own) b)).2.lines.symbols =
        (i2cMasterGpioInit (sender own) b).lines.symbols ++ vs.flatMap (frame own) :=
  readAll_sender vs (init_sender listening)

theorem reads_after_init_midByte :
    (readAll 0x41 [5, 9] (i2cMasterGpioInit (sender 0x41) midByte)).1 = [5, 9] ∧
      (readAll 0x41 [5, 9] (i2cMasterGpioInit (sender 0x41) midByte)).2.lines.symbols =
        (i2cMasterGpioInit (sender 0x41) midByte).lines.symbols ++ [5, 9].flatMap (frame 0x41) :=
  reads_after_init rfl [5, 9]

end Domotic
