import Mathlib.Tactic

/-!
# NOR flash

Erasing sets every byte of a sector to `0xFF`; a write can only clear bits. Regions written
once after an erase read back unchanged when no two of them overlap and all lie in the sector.
-/
namespace Library

/-- The contents of a flash memory. -/
abbrev Flash := Nat → UInt8

/-- Bytes at an address. -/
structure Region where
  addr : Nat
  bytes : List UInt8

namespace Region

def stop (r : Region) : Nat := r.addr + r.bytes.length

/-- The region lies in the sector. -/
def Inside (size sector : Nat) (r : Region) : Prop :=
  sector * size ≤ r.addr ∧ r.stop ≤ (sector + 1) * size

def Disjoint (r s : Region) : Prop := r.stop ≤ s.addr ∨ s.stop ≤ r.addr

end Region

namespace Flash

/-- Erase a sector of `size` bytes. -/
def erase (size sector : Nat) (f : Flash) : Flash := fun a =>
  if sector * size ≤ a ∧ a < (sector + 1) * size then 0xFF else f a

def write (f : Flash) (r : Region) : Flash := fun a =>
  if r.addr ≤ a then
    match r.bytes[a - r.addr]? with
    | some c => f a &&& c
    | none => f a
  else f a

/-- Write some regions in order. -/
def program (f : Flash) (rs : List Region) : Flash := rs.foldl write f

def read (f : Flash) (addr n : Nat) : Vector UInt8 n := Vector.ofFn fun i => f (addr + i)

variable {f : Flash} {r : Region} {rs : List Region} {a i size sector : Nat}

theorem write_outside (out : a < r.addr ∨ r.stop ≤ a) : f.write r a = f a := by
  unfold write
  split
  · rename_i above
    have past : r.bytes.length ≤ a - r.addr := by
      unfold Region.stop at out
      omega
    rw [List.getElem?_eq_none past]
  · rfl

/-- Written over `0xFF`, a byte is the byte written. -/
theorem write_erased (hi : i < r.bytes.length) (blank : f (r.addr + i) = 0xFF) :
    f.write r (r.addr + i) = r.bytes[i] := by
  have offset : r.addr + i - r.addr = i := by omega
  rw [write, if_pos (Nat.le_add_right _ _), offset, List.getElem?_eq_getElem hi]
  simp only [blank]
  generalize r.bytes[i] = c
  exact UInt8.neg_one_and

theorem program_outside (out : ∀ r ∈ rs, a < r.addr ∨ r.stop ≤ a) : f.program rs a = f a := by
  induction rs generalizing f with
  | nil => rfl
  | cons r rs ih =>
    have rest := ih (f := f.write r) fun s hs => out s (List.mem_cons_of_mem r hs)
    exact rest.trans (write_outside (out r List.mem_cons_self))

/-- Disjoint regions written over `0xFF` read back. -/
theorem program_blank (apart : rs.Pairwise Region.Disjoint)
    (blank : ∀ r ∈ rs, ∀ i < r.bytes.length, f (r.addr + i) = 0xFF) :
    ∀ r ∈ rs, ∀ i, ∀ h : i < r.bytes.length, f.program rs (r.addr + i) = r.bytes[i] := by
  induction rs generalizing f with
  | nil => simp
  | cons r rs ih =>
    obtain ⟨first, apart⟩ := List.pairwise_cons.mp apart
    have away : ∀ s ∈ rs, ∀ i < s.bytes.length, s.addr + i < r.addr ∨ r.stop ≤ s.addr + i := by
      intro s hs i hi
      have := first s hs
      unfold Region.Disjoint Region.stop at *
      omega
    intro s hs i hi
    obtain rfl | hs := List.mem_cons.mp hs
    · have out : ∀ t ∈ rs, s.addr + i < t.addr ∨ t.stop ≤ s.addr + i := by
        intro t ht
        have := first t ht
        unfold Region.Disjoint Region.stop at *
        omega
      exact (program_outside out).trans (write_erased hi (blank s hs i hi))
    · refine ih apart (fun t ht j hj => ?_) s hs i hi
      rw [write_outside (away t ht j hj)]
      exact blank t (List.mem_cons_of_mem r ht) j hj

/-- What is written once in an erased sector reads back. -/
theorem read_program {n addr : Nat} {v : Vector UInt8 n} (apart : rs.Pairwise Region.Disjoint)
    (inside : ∀ r ∈ rs, r.Inside size sector) (mem : ⟨addr, v.toList⟩ ∈ rs) :
    ((f.erase size sector).program rs).read addr n = v := by
  have blank : ∀ r ∈ rs, ∀ i < r.bytes.length, f.erase size sector (r.addr + i) = 0xFF := by
    intro r hr i hi
    obtain ⟨lo, stop⟩ := inside r hr
    unfold Region.stop at stop
    exact if_pos ⟨by omega, by omega⟩
  refine Vector.ext fun i hi => ?_
  have back := program_blank apart blank _ mem i (by simpa using hi)
  simpa [read] using back

end Flash

end Library
