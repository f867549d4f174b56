import Mathlib.Tactic

/-!
# A bus of two wires

A clock line, which the master drives, and a data line, which the master and a device can both
pull low. What happens on the bus is read from the levels of the lines (`Listener`): the data line
falls or rises while the clock is high, which is a start or a stop, or it keeps its level until
the clock falls, which is a bit.

A `Sender` is a device that waits for its address, acknowledges it, and sends a byte again and
again until the master does not acknowledge one.
-/
namespace Library
namespace TwoWire

inductive Symbol where
  | start
  | stop
  | bit (level : Bool)
  deriving DecidableEq

/-- What a listener remembers of the lines. -/
structure Listener where
  scl : Bool
  sda : Bool
  /-- The level of the data line since the clock rose, unless it changed. -/
  pending : Option Bool
  deriving DecidableEq

namespace Listener

/-- The bit that ends when the clock falls. -/
def flush (l : Listener) : List Symbol := if l.scl then l.pending.toList.map .bit else []

/-- The lines take these levels. -/
def hear (l : Listener) (sda scl : Bool) : Listener × List Symbol :=
  if scl then
    if l.scl then
      if sda = l.sda then (l, [])
      else (⟨true, sda, none⟩, [if sda then .stop else .start])
    else (⟨true, sda, some sda⟩, [])
  else (⟨false, sda, none⟩, l.flush)

end Listener

/-- A device, by when it lets go of the data line and how it reacts to the levels of both. It does
not touch the data line while the clock is high. -/
structure Device (σ : Type) where
  releases : σ → Bool
  react : σ → Bool → Bool → σ
  still : ∀ s sda, releases (react s sda true) = releases s

/-- The lines, with everything that was heard on them. -/
structure Lines (σ : Type) where
  heard : Listener
  symbols : List Symbol
  device : σ

section lines
variable {σ : Type} (dev : Device σ) (l : Lines σ)

/-- The master drives the lines. -/
def Lines.drive (sda scl : Bool) : Lines σ :=
  let level := sda && dev.releases l.device
  let r := l.heard.hear level scl
  ⟨r.1, l.symbols ++ r.2, dev.react l.device level scl⟩

variable {dev l}

/-- A low clock ends the bit. -/
theorem Lines.drive_low (sda : Bool) :
    (l.drive dev sda false).symbols = l.symbols ++ l.heard.flush ∧
      (l.drive dev sda false).heard.scl = false ∧ (l.drive dev sda false).heard.flush = [] :=
  ⟨rfl, rfl, rfl⟩

/-- A rising clock begins a bit. -/
theorem Lines.drive_rise (low : l.heard.scl = false) (sda : Bool) :
    (l.drive dev sda true).symbols = l.symbols ∧
      (l.drive dev sda true).heard =
        ⟨true, sda && dev.releases l.device, some (sda && dev.releases l.device)⟩ ∧
      dev.releases (l.drive dev sda true).device = dev.releases l.device := by
  refine ⟨?_, ?_, dev.still _ _⟩
  · simp [drive, Listener.hear, low]
  · simp [drive, Listener.hear, low]

end lines

/-! ## A device that sends a byte -/

inductive Phase where
  | idle
  /-- The bits of the address so far. -/
  | address (bits : List Bool)
  | acknowledge
  /-- The next bit of the byte, counted from the highest one. -/
  | data (i : Nat)
  /-- The master says whether it wants the byte again. -/
  | acknowledged
  deriving DecidableEq

/-- The bits of a byte, the highest one first. -/
def bits (v : UInt8) : List Bool := (List.range 8).map fun i => v.toNat.testBit (7 - i)

namespace Phase

/-- The phase behind a symbol; `own` is the address of the device, with the bit that asks for
data. -/
def next (own : UInt8) : Phase → Symbol → Phase
  | _, .start => .address []
  | _, .stop => .idle
  | .idle, .bit _ => .idle
  | .address bs, .bit b =>
    if bs.length < 7 then .address (bs ++ [b])
    else if bs ++ [b] = bits own then .acknowledge
    else .idle
  | .acknowledge, .bit _ => .data 0
  | .data i, .bit _ => if i < 7 then .data (i + 1) else .acknowledged
  | .acknowledged, .bit b => if b then .idle else .data 0

/-- The level that the device gives to the data line; the high one lets go of it. -/
def out (value : UInt8) : Phase → Bool
  | .acknowledge => false
  | .data i => value.toNat.testBit (7 - i)
  | _ => true

end Phase

/-- A device that sends `value`. -/
structure Sender where
  heard : Listener
  phase : Phase
  releases : Bool
  value : UInt8

/-- It follows what it hears, and changes its level only while the clock is low. -/
def Sender.react (own : UInt8) (s : Sender) (sda scl : Bool) : Sender :=
  let r := s.heard.hear sda scl
  let phase := r.2.foldl (Phase.next own) s.phase
  ⟨r.1, phase, if scl then s.releases else phase.out s.value, s.value⟩

def sender (own : UInt8) : Device Sender where
  releases := Sender.releases
  react := Sender.react own
  still := fun _ _ => rfl

section sender
variable {own value : UInt8} {p : Phase} {l : Lines Sender}

/-- The clock is low, and the device has taken the level of its phase. -/
structure ClockLow (p : Phase) (value : UInt8) (l : Lines Sender) : Prop where
  scl : l.heard.scl = false
  device : l.device = ⟨l.heard, p, p.out value, value⟩

/-- The clock is high, and `level` is the bit of this clock. -/
structure ClockHigh (p : Phase) (value : UInt8) (level : Bool) (l : Lines Sender) : Prop where
  heard : l.heard = ⟨true, level, some level⟩
  device : l.device = ⟨l.heard, p, p.out value, value⟩

theorem ClockLow.low (h : ClockLow p value l) (sda : Bool) :
    ClockLow p value (l.drive (sender own) sda false) ∧
      (l.drive (sender own) sda false).symbols = l.symbols := by
  obtain ⟨scl, device⟩ := h
  refine ⟨⟨rfl, ?_⟩, ?_⟩
  · simp [Lines.drive, sender, Sender.react, Listener.hear, Listener.flush, device, scl]
  · simp [Lines.drive, Listener.hear, Listener.flush, scl]

/-- The clock rises: the bit is low if either side pulls it. -/
theorem ClockLow.rise (h : ClockLow p value l) (sda : Bool) :
    ClockHigh p value (sda && p.out value) (l.drive (sender own) sda true) ∧
      (l.drive (sender own) sda true).symbols = l.symbols := by
  obtain ⟨scl, device⟩ := h
  refine ⟨⟨?_, ?_⟩, ?_⟩
  · simp [Lines.drive, sender, Listener.hear, device, scl]
  · simp [Lines.drive, sender, Sender.react, Listener.hear, device, scl]
  · simp [Lines.drive, Listener.hear, scl]

/-- The clock falls: the bit is heard, and the device goes on. -/
theorem ClockHigh.fall {level : Bool} (h : ClockHigh p value level l) (sda : Bool) :
    ClockLow (p.next own (.bit level)) value (l.drive (sender own) sda false) ∧
      (l.drive (sender own) sda false).symbols = l.symbols ++ [.bit level] := by
  obtain ⟨heard, device⟩ := h
  refine ⟨⟨rfl, ?_⟩, ?_⟩
  · simp [Lines.drive, sender, Sender.react, Listener.hear, Listener.flush, device, heard]
  · simp [Lines.drive, Listener.hear, Listener.flush, heard]

/-- The data line falls or rises while the clock is high. -/
theorem ClockHigh.change {level : Bool} (h : ClockHigh p value level l)
    (released : p.out value = true) (sda : Bool) (other : sda ≠ level) :
    (l.drive (sender own) sda true).heard = ⟨true, sda, none⟩ ∧
      (l.drive (sender own) sda true).symbols =
        l.symbols ++ [if sda then .stop else .start] ∧
      (l.drive (sender own) sda true).device =
        ⟨⟨true, sda, none⟩, p.next own (if sda then .stop else .start), true, value⟩ := by
  obtain ⟨heard, device⟩ := h
  have changed : ¬ sda = level := other
  refine ⟨?_, ?_, ?_⟩
  · simp [Lines.drive, sender, Listener.hear, device, heard, released, changed]
  · simp [Lines.drive, sender, Listener.hear, device, heard, released, changed]
  · simp [Lines.drive, sender, Sender.react, Listener.hear, device, heard, released, changed]

end sender
end TwoWire
end Library
