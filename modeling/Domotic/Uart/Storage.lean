import Domotic.Library.Flash
import Domotic.Uart.Editor

/-!
# The stored configuration

`save_and_restart` erases one sector and writes the five parts of the configuration to it, one
behind the other; `user_init` reads them from the same places and terminates every string.
-/
namespace Domotic
open Library

/-- `ADRESSE_CONFIG_IN_FLASH` -/
def adresseConfigInFlash : Nat := 0x7A000

def sectorSize : Nat := 4096

/-- `t_sleep` in memory: the target is little-endian. -/
def tSleepBytes (t : Nat) : Vector UInt8 4 := Vector.ofFn fun i => UInt8.ofNat (t / 256 ^ (i : Nat))

def tSleepOf (v : Vector UInt8 4) : Nat := v.toList.foldr (fun c t => c.toNat + 256 * t) 0

/-- The calls of `spi_flash_write`, in order. -/
def Configuration.writes (cfg : Configuration) : List Region :=
  [⟨adresseConfigInFlash, cfg.ssid.toList⟩,
   ⟨adresseConfigInFlash + maxSsidLength, cfg.password.toList⟩,
   ⟨adresseConfigInFlash + maxSsidLength + maxPasswordLength, cfg.adresse32bit.toList⟩,
   ⟨adresseConfigInFlash + maxSsidLength + maxPasswordLength + maxAdresseLength * nbAdresse,
     cfg.stationName.toList⟩,
   ⟨adresseConfigInFlash + maxSsidLength + maxPasswordLength + maxAdresseLength * nbAdresse +
     maxLengthStationName, (tSleepBytes cfg.tSleep).toList⟩]

/-- `save_and_restart`, up to the restart. -/
def saveAndRestart (cfg : Configuration) (f : Flash) : Flash :=
  (f.erase sectorSize (adresseConfigInFlash >>> 12)).program cfg.writes

/-- The calls of `spi_flash_read`. -/
def Configuration.load (f : Flash) : Configuration where
  ssid := f.read adresseConfigInFlash 32
  password := f.read (adresseConfigInFlash + maxSsidLength) 64
  adresse32bit := f.read (adresseConfigInFlash + maxSsidLength + maxPasswordLength) 64
  stationName := f.read
    (adresseConfigInFlash + maxSsidLength + maxPasswordLength + maxAdresseLength * nbAdresse) 32
  tSleep := tSleepOf (f.read (adresseConfigInFlash + maxSsidLength + maxPasswordLength +
    maxAdresseLength * nbAdresse + maxLengthStationName) 4)

/-- The terminators that `user_init` forces. -/
def Configuration.terminate (cfg : Configuration) : Configuration :=
  { cfg with
    stationName := cfg.stationName.setIfInBounds (maxLengthStationName - 1) 0
    adresse32bit := (List.range nbAdresse).foldl
      (fun v l => v.setIfInBounds (maxAdresseLength * l + (maxAdresseLength - 1)) 0)
      cfg.adresse32bit
    password := cfg.password.setIfInBounds (maxPasswordLength - 1) 0
    ssid := cfg.ssid.setIfInBounds (maxSsidLength - 1) 0 }

/-- The configuration that `user_init` finds in flash. -/
def Configuration.boot (f : Flash) : Configuration := (Configuration.load f).terminate

/-- `adresse[n]` -/
def Configuration.row (cfg : Configuration) (n : Fin 4) : List UInt8 :=
  (cfg.adresse32bit.toList.drop (maxAdresseLength * n)).take maxAdresseLength

/-- The second configuration is the first one with the last byte of every string zero. -/
structure Restored (cfg cfg' : Configuration) : Prop where
  ssid (i : Nat) (h : i < 32) : cfg'.ssid[i] = if i = 31 then (0 : UInt8) else cfg.ssid[i]
  password (i : Nat) (h : i < 64) :
    cfg'.password[i] = if i = 63 then (0 : UInt8) else cfg.password[i]
  adresse (i : Nat) (h : i < 64) :
    cfg'.adresse32bit[i] = if i % 16 = 15 then (0 : UInt8) else cfg.adresse32bit[i]
  stationName (i : Nat) (h : i < 32) :
    cfg'.stationName[i] = if i = 31 then (0 : UInt8) else cfg.stationName[i]
  tSleep : cfg'.tSleep = cfg.tSleep

/-- Every string that is terminated inside its buffer is the same in both. -/
structure SameStrings (cfg cfg' : Configuration) : Prop where
  ssid : 0 ∈ cfg.ssid.toList → cString cfg'.ssid.toList = cString cfg.ssid.toList
  password : 0 ∈ cfg.password.toList → cString cfg'.password.toList = cString cfg.password.toList
  adresse : ∀ n, 0 ∈ cfg.row n → cString (cfg'.row n) = cString (cfg.row n)
  stationName : 0 ∈ cfg.stationName.toList →
    cString cfg'.stationName.toList = cString cfg.stationName.toList

/-! ## The regions -/

theorem writes_disjoint (cfg : Configuration) : cfg.writes.Pairwise Region.Disjoint := by
  simp [Configuration.writes, Region.Disjoint, Region.stop, adresseConfigInFlash, maxSsidLength,
    maxPasswordLength, maxAdresseLength, nbAdresse, maxLengthStationName]

theorem writes_inside (cfg : Configuration) :
    ∀ r ∈ cfg.writes, r.Inside sectorSize (adresseConfigInFlash >>> 12) := by
  simp [Configuration.writes, Region.Inside, Region.stop, adresseConfigInFlash, maxSsidLength,
    maxPasswordLength, maxAdresseLength, nbAdresse, maxLengthStationName, sectorSize]

theorem tSleepOf_bytes {t : Nat} (small : t < 4294967296) : tSleepOf (tSleepBytes t) = t := by
  simp [tSleepOf, tSleepBytes, Vector.toList_ofFn, List.ofFn_succ]
  omega

/-- What `user_init` reads is what `save_and_restart` wrote. -/
theorem load_save {cfg : Configuration} (small : cfg.tSleep < 4294967296) (f : Flash) :
    Configuration.load (saveAndRestart cfg f) = cfg := by
  have back {n addr : Nat} {v : Vector UInt8 n} (mem : ⟨addr, v.toList⟩ ∈ cfg.writes) :
      (saveAndRestart cfg f).read addr n = v :=
    Flash.read_program (writes_disjoint cfg) (writes_inside cfg) mem
  unfold Configuration.load
  rw [back (v := cfg.ssid) (by simp [Configuration.writes]),
    back (v := cfg.password) (by simp [Configuration.writes]),
    back (v := cfg.adresse32bit) (by simp [Configuration.writes]),
    back (v := cfg.stationName) (by simp [Configuration.writes]),
    back (v := tSleepBytes cfg.tSleep) (by simp [Configuration.writes]), tSleepOf_bytes small]

/-! ## The terminators -/

theorem terminate_restored (cfg : Configuration) : Restored cfg cfg.terminate := by
  refine ⟨fun i h => ?_, fun i h => ?_, fun i h => ?_, fun i h => ?_, rfl⟩
  · simp [Configuration.terminate, maxSsidLength, Vector.getElem_setIfInBounds, eq_comm]
  · simp [Configuration.terminate, maxPasswordLength, Vector.getElem_setIfInBounds, eq_comm]
  · simp only [Configuration.terminate, nbAdresse, maxAdresseLength, List.range_succ,
      List.range_zero, List.nil_append, List.cons_append, List.foldl_cons, List.foldl_nil,
      Vector.getElem_setIfInBounds]
    split_ifs <;> first | rfl | omega
  · simp [Configuration.terminate, maxLengthStationName, Vector.getElem_setIfInBounds, eq_comm]

/-- A terminator at the end does not cut a string that ends before. -/
theorem cString_set_last {l : List UInt8} (ends : 0 ∈ l) :
    cString (l.set (l.length - 1) 0) = cString l := by
  induction l with
  | nil => rfl
  | cons c l ih =>
    by_cases stop : c = 0
    · cases l <;> simp [cString, stop]
    · have rest : 0 ∈ l := by simpa [eq_comm, stop] using ends
      obtain ⟨d, l, rfl⟩ := List.exists_cons_of_ne_nil (List.ne_nil_of_mem rest)
      simpa [cString, stop] using ih rest

theorem Restored.row {cfg cfg' : Configuration} (h : Restored cfg cfg') (n : Fin 4) :
    cfg'.row n = (cfg.row n).set 15 0 := by
  refine List.ext_getElem ?_ fun i hi hi' => ?_
  · simp [Configuration.row]
  · have inside : i < 16 := by
      simp only [Configuration.row, maxAdresseLength, List.length_take] at hi
      omega
    have byte := h.adresse (16 * n + i) (by omega)
    have last : (16 * (n : Nat) + i) % 16 = 15 ↔ 15 = i := by omega
    simp only [last] at byte
    simpa [Configuration.row, maxAdresseLength, List.getElem_set] using byte

theorem cString_terminated {n : Nat} {v v' : Vector UInt8 n} (ends : 0 ∈ v.toList)
    (same : ∀ i, ∀ h : i < n, v'[i] = if i = n - 1 then (0 : UInt8) else v[i]) :
    cString v'.toList = cString v.toList := by
  have whole : v'.toList = v.toList.set (v.toList.length - 1) 0 := by
    refine List.ext_getElem (by simp) fun i hi _ => ?_
    have byte := same i (by simpa using hi)
    have flip : n - 1 = i ↔ i = n - 1 := eq_comm
    simp [List.getElem_set, flip, byte]
  rw [whole]
  exact cString_set_last ends

theorem Restored.sameStrings {cfg cfg' : Configuration} (h : Restored cfg cfg') :
    SameStrings cfg cfg' := by
  refine ⟨fun ends => cString_terminated ends h.ssid,
    fun ends => cString_terminated ends h.password, fun n ends => ?_,
    fun ends => cString_terminated ends h.stationName⟩
  have length : (cfg.row n).length = 16 := by
    simp only [Configuration.row, maxAdresseLength, List.length_take, List.length_drop,
      Vector.length_toList]
    omega
  have last := cString_set_last ends
  rwa [length, ← h.row] at last

/-- The configuration survives a restart, and every write stays inside the erased sector. -/
theorem configuration_survives {cfg : Configuration} (small : cfg.tSleep < 4294967296)
    (f : Flash) : Restored cfg (.boot (saveAndRestart cfg f)) ∧
      SameStrings cfg (.boot (saveAndRestart cfg f)) ∧
      ∀ r ∈ cfg.writes, r.Inside sectorSize (adresseConfigInFlash >>> 12) := by
  have restored : Restored cfg (.boot (saveAndRestart cfg f)) := by
    rw [Configuration.boot, load_save small]
    exact terminate_restored cfg
  exact ⟨restored, restored.sameStrings, writes_inside cfg⟩

/-- An SSID and a name without terminator, saved over a blank flash. -/
theorem configuration_survives_full_name :
    Restored ⟨.replicate 32 65, .replicate 64 0, .replicate 64 0, .replicate 32 66, 60⟩
      (.boot (saveAndRestart
        ⟨.replicate 32 65, .replicate 64 0, .replicate 64 0, .replicate 32 66, 60⟩
        fun _ => 0xFF)) :=
  (configuration_survives (by decide) fun _ => 0xFF).1

end Domotic
