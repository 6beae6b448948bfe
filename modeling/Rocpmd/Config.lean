import Mathlib.Data.Int.Basic

/-!
# The configuration of the daemon

The values a `config` object holds once it is loaded. A field that no entry of the configuration
file assigned holds whatever its memory held, so nothing is assumed of any of them.
-/

namespace Rocpmd

/-- `CFG_ROLE_*`: what a pin of the power board is for. -/
inductive Role
  | csB | off | pgoodB | udB | reqOffB | d1B | d2B
deriving DecidableEq, Repr

/-- `config_gpio`. -/
structure ConfigGpio where
  bcmPin : Int
  direction : Int
  resistor : Int
  role : Role
deriving DecidableEq, Repr

/-- `config_battery_level_reader`: the interval in seconds, the delays in microseconds. -/
structure ConfigBatteryLevelReader where
  batteryLevelReadInterval : Int
  batteryLevelGpioDelay : Int
  batteryLevelPgoodDelay : Int
  batteryLevelLog : Bool
deriving DecidableEq, Repr

structure Config where
  off : ConfigGpio
  reqOff : ConfigGpio
  cs : ConfigGpio
  ud : ConfigGpio
  pgood : ConfigGpio
  d1 : ConfigGpio
  d2 : ConfigGpio
  batteryLevelReader : ConfigBatteryLevelReader
  powermap : List Int
  /-- The words of memory behind the vector's last element: `operator[]` checks no bound. -/
  pastPowermap : ℕ → Int

namespace Config

def getGpioByRole (conf : Config) : Role → ConfigGpio
  | .off => conf.off
  | .reqOffB => conf.reqOff
  | .csB => conf.cs
  | .udB => conf.ud
  | .pgoodB => conf.pgood
  | .d1B => conf.d1
  | .d2B => conf.d2

/-- The pin that plays a role. -/
def pin (conf : Config) (role : Role) : Int := (conf.getGpioByRole role).bcmPin

def getPowermapSize (conf : Config) : ℕ := conf.powermap.length

def getPowermapElementAt (conf : Config) (i : ℕ) : Int :=
  (conf.powermap[i]?).getD (conf.pastPowermap i)

theorem getPowermapElementAt_of_lt (conf : Config) {i : ℕ} (hi : i < conf.getPowermapSize) :
    conf.powermap[i]? = some (conf.getPowermapElementAt i) := by
  have hget : conf.powermap[i]? = some conf.powermap[i] := List.getElem?_eq_getElem hi
  rw [getPowermapElementAt, hget]
  rfl

theorem getPowermapElementAt_of_le (conf : Config) {i : ℕ} (hi : conf.getPowermapSize ≤ i) :
    conf.getPowermapElementAt i = conf.pastPowermap i := by
  rw [getPowermapElementAt, List.getElem?_eq_none hi]
  rfl

/-- The configuration file shipped with the daemon. -/
def shipped : Config where
  off := ⟨12, 0, 0, .off⟩
  reqOff := ⟨5, 0, 0, .reqOffB⟩
  cs := ⟨6, 0, 0, .csB⟩
  ud := ⟨16, 0, 0, .udB⟩
  pgood := ⟨13, 0, 0, .pgoodB⟩
  d1 := ⟨20, 0, 0, .d1B⟩
  d2 := ⟨26, 0, 0, .d2B⟩
  batteryLevelReader := ⟨10, 10000, 500000, false⟩
  powermap := [100, 100, 100, 100, 100, 100, 96, 90, 84, 78, 71, 63, 54, 41, 24, 14, 9, 7, 5, 4,
    3, 1, 1] ++ List.replicate 41 0
  pastPowermap := fun _ => 0

end Config

end Rocpmd
