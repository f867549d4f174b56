import Mathlib.Data.List.TakeWhile
import Domotic.Config
import Domotic.Library.Word

/-!
# The UART line editor

`rxUart0` is called with every byte received on UART 0. One cursor, `pointeur`, is shared
by all fields; the state says which buffer it moves in. A plain `char` of the target is
unsigned, so received bytes are `UInt8`.

Each step also returns what it prints or asks of other modules, and the places it stores
to. The four addresses are rows of one array of 64 bytes. A store past its end would land
in whatever the linker placed next; the buffers modelled here do not change and the list
of stores names the place.
-/
namespace Domotic
open Library

/-- `stateRxUart` -/
inductive StateRxUart where
  | wait | configSsid | configTopic | configTSleep | configName | configPassword
  | configAddresse
  deriving DecidableEq, Repr

/-- The buffers the line editor writes to. -/
inductive Buffer where
  | strNumber | topic | ssid | stationName | password | adresse32bit
  deriving DecidableEq, Repr

/-- One byte stored at an offset from the start of a buffer. -/
structure ByteStore where
  buffer : Buffer
  index : Nat
  deriving DecidableEq, Repr

inductive RxEffect where
  | print (text : String)
  | printBytes (bytes : List UInt8)
  | mqttSubscribe (topic : List UInt8)
  | saveAndRestart
  | disarmDisconnect
  | setfnDisconnect
  | armDisconnect (ms : Nat)
  deriving DecidableEq, Repr

/-- The configuration that `user_init` reads from flash. -/
structure Configuration where
  ssid : Vector UInt8 32
  password : Vector UInt8 64
  adresse32bit : Vector UInt8 64
  stationName : Vector UInt8 32
  tSleep : Nat
  deriving DecidableEq

/-- The rows of `adresse32bit` are numbered from zero. -/
instance addressRows : NeZero 4 := ⟨by decide⟩

/-- The static variables of `rx_uart0` and the globals it edits. -/
structure RxUart where
  state : StateRxUart
  pointeur : Nat
  numAdresse : Fin 4
  strNumber : Vector UInt8 10
  topic : Vector UInt8 128
  ssid : Vector UInt8 32
  password : Vector UInt8 64
  adresse32bit : Vector UInt8 64
  stationName : Vector UInt8 32
  tSleep : Nat
  deriving DecidableEq

structure RxResult where
  next : RxUart
  effects : List RxEffect
  stores : List ByteStore

/-- Static variables start at zero and `topic` is not read from flash. -/
def RxUart.boot (cfg : Configuration) : RxUart where
  state := .wait
  pointeur := 0
  numAdresse := 0
  strNumber := .replicate 10 0
  topic := .replicate 128 0
  ssid := cfg.ssid
  password := cfg.password
  adresse32bit := cfg.adresse32bit
  stationName := cfg.stationName
  tSleep := cfg.tSleep

def RxUart.put (s : RxUart) (b : Buffer) (i : Nat) (c : UInt8) : RxUart :=
  match b with
  | .strNumber => { s with strNumber := s.strNumber.setIfInBounds i c }
  | .topic => { s with topic := s.topic.setIfInBounds i c }
  | .ssid => { s with ssid := s.ssid.setIfInBounds i c }
  | .stationName => { s with stationName := s.stationName.setIfInBounds i c }
  | .password => { s with password := s.password.setIfInBounds i c }
  | .adresse32bit => { s with adresse32bit := s.adresse32bit.setIfInBounds i c }

/-- The bytes of a C string, up to its first NUL. -/
def cString (bytes : List UInt8) : List UInt8 := bytes.takeWhile (· ≠ 0)

def stringToUintLoop : List UInt8 → Int → Int
  | [], val => val
  | c :: str, val =>
    if 48 ≤ c ∧ c ≤ 57 then stringToUintLoop str (int32 (val * 10 + (c.toNat - 48))) else val

def stringToUint (str : List UInt8) : Nat := uint32 (stringToUintLoop str 0)

/-- `TO_HEX` -/
def toHex (i : Nat) : UInt8 :=
  if i ≤ 9 then UInt8.ofNat (48 + i) else UInt8.ofNat (65 - 10 + i)

/-- The second loop of `int_to_srthex`, with `k` rounds left of seven. -/
def blankZeros {n : Nat} : Nat → Vector UInt8 n → Vector UInt8 n
  | 0, str => str
  | k + 1, str =>
    if str[7 - k]? ≠ some 48 then str
    else blankZeros k (str.setIfInBounds (7 - k) 32)

/-- Shifting a negative value right rounds down, as `/` does here, so the low four bits of
the result are the digit of the two's-complement representation. -/
def intToSrthex {n : Nat} (val : Int) (str : Vector UInt8 n) : Vector UInt8 n :=
  let digits := (List.range 8).foldl
    (fun s l => s.setIfInBounds (8 - l) (toHex (val / 16 ^ l % 16).toNat)) str
  (blankZeros 7 (digits.setIfInBounds 0 32)).setIfInBounds 9 0

def printMenu : RxEffect := .print
  "\n\ns) modifie ssid\np) modifie password\na) modifie addresse\nn) modifie netmask\ng) modifie gateway\nm) modifie MQTT serveur\ni) modifie name\nx) modifie sleep time [s]\nc) Configure and save\n"

/-- Enter a state: the cursor goes back to the start of the buffer. -/
def startLine (s : RxUart) (state : StateRxUart) (prompt : List RxEffect) : RxResult :=
  { next := { s with state := state, pointeur := 0 }, effects := prompt, stores := [] }

def startAdresse (s : RxUart) (n : Fin 4) (prompt : String) : RxResult :=
  startLine { s with numAdresse := n } .configAddresse [.print prompt]

/-- The `WAIT` case of `rx_uart0`. -/
def rxWait (s : RxUart) (c : UInt8) : RxResult :=
  match Char.ofUInt8 c with
  | 's' | 'S' => startLine s .configSsid [.print "SSID="]
  | 'p' | 'P' => startLine s .configPassword [.print "PASSWORD="]
  | 'a' | 'A' => startAdresse s 0 "empy for DHCP\nIP="
  | 'n' | 'N' => startAdresse s 1 "MASK="
  | 'g' | 'G' => startAdresse s 2 "GW="
  | 'm' | 'M' => startAdresse s 3 "MQTT="
  | 'i' | 'I' => startLine s .configName [.print "Name (no Name => MQTT disable)="]
  | 'c' | 'C' => { next := s, effects := [.saveAndRestart], stores := [] }
  | 't' | 'T' => startLine s .configTopic []
  | 'x' | 'X' => startLine s .configTSleep [.print "Time="]
  | _ => { next := s, effects := [printMenu], stores := [] }

/-- The `default` branch of an editing state: store the byte at the cursor, which stops
moving at `bound`. -/
def editByte (s : RxUart) (b : Buffer) (base bound : Nat) (tooLong : String) (c : UInt8) :
    RxResult :=
  { next := { s.put b (base + s.pointeur) c with
      pointeur := if s.pointeur < bound then s.pointeur + 1 else s.pointeur }
    effects := if s.pointeur < bound then [] else [.print tooLong]
    stores := [⟨b, base + s.pointeur⟩] }

/-- The `'\n'` and `'\r'` branch of an editing state: terminate the string. -/
def endLine (s : RxUart) (b : Buffer) (base : Nat) (effects : RxUart → List RxEffect) :
    RxResult :=
  let t := { s.put b (base + s.pointeur) 0 with state := .wait }
  { next := t, effects := effects t, stores := [⟨b, base + s.pointeur⟩] }

def isNewline (c : UInt8) : Bool := c = 10 || c = 13

def rxConfigTSleep (s : RxUart) (c : UInt8) : RxResult :=
  if isNewline c then
    let r := endLine s .strNumber 0 fun _ => []
    let t := stringToUint r.next.strNumber.toList
    let str := intToSrthex (int32 t) r.next.strNumber
    { next := { r.next with tSleep := t, strNumber := str }
      effects := [.print "\n0x", .printBytes (cString str.toList)]
      stores := r.stores ++ (List.range 10).map (⟨.strNumber, ·⟩) }
  else editByte s .strNumber 0 (10 - 1) "Number to high" c

def rxConfigTopic (b : Build) (s : RxUart) (c : UInt8) : RxResult :=
  if isNewline c then
    endLine s .topic 0 fun t => .mqttSubscribe (cString t.topic.toList) ::
      if b.sleep then [.armDisconnect 800] else []
  else editByte s .topic 0 (maxTopicLength - 1) "Topic to long" c

def rxConfigSsid (s : RxUart) (c : UInt8) : RxResult :=
  if isNewline c then endLine s .ssid 0 fun _ => [printMenu]
  else editByte s .ssid 0 (maxSsidLength - 1) "SSID to long" c

def rxConfigName (s : RxUart) (c : UInt8) : RxResult :=
  if isNewline c then endLine s .stationName 0 fun _ => [printMenu]
  else editByte s .stationName 0 (maxLengthStationName - 1) "Name to long" c

def rxConfigPassword (s : RxUart) (c : UInt8) : RxResult :=
  if isNewline c then endLine s .password 0 fun _ => [printMenu]
  else editByte s .password 0 (maxPasswordLength - 1) "Password to long" c

/-- The bound is the one of the password, not `MAX_ADRESSE_LENGTH`. -/
def rxConfigAddresse (s : RxUart) (c : UInt8) : RxResult :=
  if isNewline c then
    endLine s .adresse32bit (maxAdresseLength * s.numAdresse) fun _ => [printMenu]
  else editByte s .adresse32bit (maxAdresseLength * s.numAdresse) (maxPasswordLength - 1)
    "Adresse to long" c

/-- The `switch` of `rx_uart0` on its state. -/
def rxState (b : Build) (s : RxUart) (c : UInt8) : RxResult :=
  match s.state with
  | .wait => rxWait s c
  | .configTSleep => rxConfigTSleep s c
  | .configTopic => rxConfigTopic b s c
  | .configSsid => rxConfigSsid s c
  | .configName => rxConfigName s c
  | .configPassword => rxConfigPassword s c
  | .configAddresse => rxConfigAddresse s c

/-- A `SLEEP` build first puts its disconnection off by three seconds. -/
def rxUart0 (b : Build) (s : RxUart) (c : UInt8) : RxResult :=
  let r := rxState b s c
  { r with effects := (if b.sleep then
      [.disarmDisconnect, .setfnDisconnect, .armDisconnect 3000] else []) ++ r.effects }

/-- The state after a sequence of received bytes. -/
def rxBytes (b : Build) (s : RxUart) (bytes : List UInt8) : RxUart :=
  bytes.foldl (fun s c => (rxUart0 b s c).next) s

/-! ## C strings -/

/-- What stands behind a terminator does not belong to the string. -/
theorem cString_append (s after : List UInt8) : cString (s ++ 0 :: after) = cString s := by
  induction s with
  | nil => simp [cString]
  | cons c s ih =>
    by_cases stop : c = 0
    · simp [cString, stop]
    · simpa [cString, stop] using ih

theorem cString_nonzero {s : List UInt8} (nonzero : 0 ∉ s) (after : List UInt8) :
    cString (s ++ 0 :: after) = s := by
  rw [cString_append, cString, List.takeWhile_eq_self_iff]
  intro c mem
  simpa using ne_of_mem_of_not_mem mem nonzero

/-- Memory with a terminator starts with a string. -/
theorem terminated_eq {mem : List UInt8} (ends : 0 ∈ mem) :
    ∃ after, mem = cString mem ++ 0 :: after := by
  induction mem with
  | nil => cases ends
  | cons c mem ih =>
    by_cases stop : c = 0
    · exact ⟨mem, by simp [cString, stop]⟩
    · obtain ⟨after, split⟩ := ih (by simpa [eq_comm, stop] using ends)
      refine ⟨after, ?_⟩
      rw [cString, List.takeWhile_cons_of_pos (by simpa using stop), List.cons_append]
      exact congrArg _ split

theorem not_mem_cString (mem : List UInt8) : 0 ∉ cString mem := by
  intro zero
  have all := List.all_eq_true.mp (@List.all_takeWhile UInt8 (· ≠ 0) mem)
  simpa using all 0 zero

end Domotic
