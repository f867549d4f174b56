import Mathlib.Tactic

/-!
# Build configuration

The make argument of a build selects its compile-time switches (`user_config.h`). A switch
is a Boolean function of the build, so the code of every build is one definition in which
`#ifdef` is an ordinary `if`.
-/
namespace Domotic

/-- The values of the make argument that `user_config.h` tests. -/
inductive Build where
  | prise | priseV2 | pwm12V | pwmTriack | pwmTriack0VDetect | store | sonoff | radiator
  | meteo | meteoAds786x | switchPcf8885 | pwm12VAndSwitchPcf8885 | switchQt1040
  deriving DecidableEq, Repr

namespace Build

/-- `TRIACK` -/
@[simp] def triack : Build → Bool
  | .prise | .priseV2 | .pwmTriack | .pwmTriack0VDetect | .store | .radiator => true
  | _ => false

/-- `STORE` -/
@[simp] def isStore : Build → Bool
  | .store => true
  | _ => false

/-- `PWM` -/
@[simp] def pwm : Build → Bool
  | .pwm12V | .pwm12VAndSwitchPcf8885 | .pwmTriack | .pwmTriack0VDetect | .store => true
  | _ => false

/-- `NB_PWM`; zero where `PWM` is not defined. -/
@[simp] def nbPwm : Build → Nat
  | .pwm12V | .pwm12VAndSwitchPcf8885 | .store => 2
  | .pwmTriack | .pwmTriack0VDetect => 1
  | _ => 0

/-- `BIT_PWM[]`, initialised with `BIT_PWM_VAL`. -/
@[simp] def bitPwm : Build → Nat → Nat
  | .pwm12V, 0 | .pwm12VAndSwitchPcf8885, 0 => 4
  | .pwm12V, _ | .pwm12VAndSwitchPcf8885, _ => 5
  | .store, 0 => 5
  | .store, _ => 0
  | _, _ => 5

/-- `TLI4970_ENABLE` -/
@[simp] def tli4970Enable : Build → Bool
  | .prise | .priseV2 | .pwmTriack | .pwmTriack0VDetect => true
  | _ => false

/-- `DETECT_0V` -/
@[simp] def detect0V : Build → Bool
  | .pwmTriack0VDetect => true
  | _ => false

/-- `TRIACK_ON_OFF` -/
@[simp] def triackOnOff : Build → Bool
  | .pwmTriack | .pwmTriack0VDetect | .store | .radiator => true
  | _ => false

/-- `TRIACK_ON_OFF_INVERSE` -/
@[simp] def triackOnOffInverse : Build → Bool
  | .radiator => true
  | _ => false

/-- `HALF_SIN_POS`, commented out in every build. -/
@[simp] def halfSinPos : Build → Bool := fun _ => false

/-- `HALF_SIN_NEG` -/
@[simp] def halfSinNeg : Build → Bool
  | .radiator => true
  | _ => false

/-- `defined(HALF_SIN_POS) || defined(HALF_SIN_NEG)` -/
@[simp] def halfSin (b : Build) : Bool := b.halfSinPos || b.halfSinNeg

/-- `RELAY` and `SET_GPIO` -/
@[simp] def relay : Build → Bool
  | .sonoff => true
  | _ => false

/-- `SLEEP` -/
@[simp] def sleep : Build → Bool
  | .meteo | .meteoAds786x | .switchPcf8885 | .switchQt1040 => true
  | _ => false

/-- `PUISSANCE_MAX`: a value too big for a delay, which disables the timer. -/
def puissanceMax : Int := 100000

/-- `TRIACK_ON_OFF_PUISSANCE` -/
@[simp] def triackOnOffPuissance : Build → Int
  | .radiator => 9000
  | _ => puissanceMax

/-- `PRECISION_TIMER`, the period of the soft-timer tick in microseconds. -/
@[simp] def precisionTimer : Build → Nat
  | .store | .radiator => 100
  | _ => 21

/-- `NB_MAX_CALLBACK_TIME` -/
@[simp] def nbMaxCallbackTime : Build → Nat
  | .store => 4
  | _ => 3

/-- `PWM_SCALL` -/
@[simp] def pwmScall : Build → Nat
  | .store => 100
  | _ => 5

/-- `PWM_SCALL_SLOW` -/
@[simp] def pwmScallSlow (b : Build) : Nat := b.pwmScall * 4

end Build

/-- `TRIAC_MIN` -/
def triacMin : Int := 900
/-- `TRIAC_SCALL` -/
def triacScall : Int := 83
/-- `P_MIN_STORE_UP` -/
def pMinStoreUp : Nat := 60
/-- `P_MIN_STORE_DOWN` -/
def pMinStoreDown : Nat := 17
/-- `TIMOUT_STORE_START`, in milliseconds. -/
def timoutStoreStart : Nat := 1500
/-- `TIMOUT_STORE`, in milliseconds. -/
def timoutStore : Nat := 200

/-- `BIT_TRIAC` -/
def bitTriac : Nat := 15
/-- `BIT_RELAY` -/
def bitRelay : Nat := 12

/-- `MAX_SSID_LENGTH` -/
def maxSsidLength : Nat := 32
/-- `MAX_PASSWORD_LENGTH` -/
def maxPasswordLength : Nat := 64
/-- `MAX_ADRESSE_LENGTH` -/
def maxAdresseLength : Nat := 16
/-- `MAX_LENGTH_STATION_NAME` -/
def maxLengthStationName : Nat := 32
/-- `MAX_ID_LENGTH` -/
def maxIdLength : Nat := 16
/-- `MAX_TOPIC_LENGTH` -/
def maxTopicLength : Nat := 128
/-- `NB_ADRESSE`: address, mask, gateway, MQTT server. -/
def nbAdresse : Nat := 4

/-- `MQTT_BUF_SIZE` -/
def mqttBufSize : Nat := 1280
/-- `QUEUE_BUFFER_SIZE` -/
def queueBufferSize : Nat := 512

end Domotic
