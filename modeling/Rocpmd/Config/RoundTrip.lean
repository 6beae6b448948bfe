import Mathlib.Tactic.TFAE
import Rocpmd.Config.Accepted
import Rocpmd.Config.Directions

/-!
# Configurations as files

Which configurations the constructor can build, whatever the memory held before: exactly those whose
every pin and delay would pass its own check. Each of them has a file that it is read back from.
-/

namespace Rocpmd

open Foundation

/-! ## Configurations that a file determines -/

/-- A pin that the object of a GPIOS section can give to the role. -/
structure ConfigGpio.Storable (gpio : ConfigGpio) (role : Role) : Prop where
  role : gpio.role = role
  bcmPin : gpio.bcmPin ∈ legalBcmPiPins
  direction : gpio.direction ∈ [cfgNoval, input, output]
  resistor : gpio.resistor ∈ [cfgNoval, pudUp, pudDown, pudOff]

structure Config.Storable (conf : Config) : Prop where
  gpio : ∀ role, (conf.getGpioByRole role).Storable role
  reader : conf.batteryLevelReader.Valid

section Listed

variable {Node : Type} {lib : YamlLibrary Node} {dirs : Directories}

theorem readOptional_mem {node : Node} {key : String} {validateField : String → Except String Unit}
    {map : String → Int} {value : Int} (words : List String)
    (hvalid : ∀ text, validateField text = .ok () → text ∈ words)
    (hread : readOptional lib node key validateField map = .ok value) :
    value ∈ cfgNoval :: words.map map := by
  rcases readOptional_eq_ok_iff.mp hread with ⟨-, rfl⟩ | ⟨-, text, -, hlegal, rfl⟩
  · exact List.mem_cons_self
  · exact List.mem_cons_of_mem _ (List.mem_map_of_mem (hvalid text hlegal))

/-- What is read from an object can be stored for its role. -/
theorem storable_of_readGpio {node : Node} {gpio : ConfigGpio}
    (hread : readGpio lib node = .ok gpio) : gpio.Storable gpio.role := by
  obtain ⟨-, hpin, _, -, -, hdirection, hresistor, -⟩ := readGpio_eq_ok_iff.mp hread
  have hwords := readOptional_mem ["input", "output"] ?_ hdirection
  have hwords' := readOptional_mem ["pull_up", "pull_down", "none"] ?_ hresistor
  · exact ⟨rfl, List.contains_iff_mem.mp (validate_ok_iff.mp hpin), hwords, hwords'⟩
  · intro text hlegal
    simpa [validateGpioResistor, or_assoc] using validate_ok_iff.mp hlegal
  · intro text hlegal
    simpa [validateGpioDirection] using validate_ok_iff.mp hlegal

theorem storable_of_mem_listedGpios {file : ConfigFile Node} {values : List Assignment}
    (hlist : listFile lib dirs file = .ok values) {role : Role} {gpio : ConfigGpio}
    (hmem : gpio ∈ listedGpios values role) : gpio.Storable role := by
  obtain ⟨value, hvalue, hgpio⟩ := List.mem_filterMap.mp hmem
  cases value with
  | gpio entry =>
      obtain ⟨hrole, hentry⟩ := Option.ite_none_right_eq_some.mp hgpio
      obtain rfl := Option.some.inj hentry
      obtain ⟨_, -, hread⟩ := isGpioObject_of_mem hlist hvalue
      exact hrole ▸ storable_of_readGpio hread
  | powermapElement element => cases hgpio
  | batteryLevelReader entry => cases hgpio

end Listed

/-! ## The file of a configuration -/

def Role.word : Role → String
  | .csB => "CS_B"
  | .off => "OFF"
  | .pgoodB => "PGOOD_B"
  | .udB => "UD_B"
  | .reqOffB => "REQ_OFF_B"
  | .d1B => "D1_B"
  | .d2B => "D2_B"

def resistorWord (resistor : Int) : String :=
  if resistor = pudUp then "pull_up" else if resistor = pudDown then "pull_down" else "none"

namespace YamlNode

/-- A field that is left out if it has no value. -/
def optional (key : String) (value : Int) (word : Int → String) : List (YamlNode × YamlNode) :=
  if value = cfgNoval then [] else [(text key, text (word value))]

def ofGpio (gpio : ConfigGpio) : YamlNode :=
  map ([(text "bcm-pin", number gpio.bcmPin), (text "role", text gpio.role.word)] ++
    (optional "direction" gpio.direction directionWord ++
      optional "resistor" gpio.resistor resistorWord))

def ofReader (reader : ConfigBatteryLevelReader) : YamlNode :=
  map [(text "battery-level-read-interval", number reader.batteryLevelReadInterval),
    (text "battery-level-gpio-delay", number reader.batteryLevelGpioDelay),
    (text "battery-level-pgood-delay", number reader.batteryLevelPgoodDelay),
    (text "battery-level-log", text (if reader.batteryLevelLog then "true" else "false"))]

/-- One document with a section for the pins, one for the reader and one for the powermap. -/
def ofConfig (conf : Config) : YamlNode :=
  map [(text "GPIOS", sequence (cleanupOrder.map fun role => ofGpio (conf.getGpioByRole role))),
    (text "battery-level-reader", sequence [ofReader conf.batteryLevelReader]),
    (text "powermap", sequence [sequence (conf.powermap.map number)])]

/-- A pin is read back from its object. -/
theorem readGpio_ofGpio {gpio : ConfigGpio} {role : Role} (hgpio : gpio.Storable role) :
    readGpio library (ofGpio gpio) = .ok gpio := by
  obtain ⟨bcmPin, direction, resistor, own⟩ := gpio
  obtain ⟨rfl, hpin, hdirection, hresistor⟩ := hgpio
  simp only [List.mem_cons, List.not_mem_nil, or_false] at hdirection hresistor
  refine readGpio_eq_ok_iff.mpr
    ⟨rfl, validate_ok_iff.mpr (List.contains_iff_mem.mpr hpin), own.word, rfl, ?_, ?_, ?_, ?_⟩
  · cases own <;> rfl
  · rcases hdirection with rfl | rfl | rfl <;> rcases hresistor with rfl | rfl | rfl | rfl <;> rfl
  · rcases hdirection with rfl | rfl | rfl <;> rcases hresistor with rfl | rfl | rfl | rfl <;> rfl
  · cases own <;> rfl

theorem readDelay_field {node : YamlNode} {key : String} {delay : Int}
    (hfield : node.field key = some (number delay)) (hpos : 0 < delay) :
    readDelay library node key = .ok delay := by
  have hvalue : library.value node key = .ok (number delay) := by
    simp [library, hfield]
  have hdelay : validateDelay delay = .ok () := validate_ok_iff.mpr (decide_eq_true hpos)
  exact bind_eq_ok_iff.mpr ⟨delay, bind_eq_ok_iff.mpr ⟨_, hvalue, rfl⟩,
    bind_eq_ok_iff.mpr ⟨(), hdelay, rfl⟩⟩

theorem readBatteryLevelReader_ofReader {reader : ConfigBatteryLevelReader}
    (hreader : reader.Valid) : readBatteryLevelReader library (ofReader reader) = .ok reader := by
  obtain ⟨readInterval, gpioDelay, pgoodDelay, log⟩ := reader
  obtain ⟨hinterval, hgpio, hpgood⟩ := hreader
  refine bind_eq_ok_iff.mpr ⟨readInterval, readDelay_field rfl hinterval, ?_⟩
  refine bind_eq_ok_iff.mpr ⟨gpioDelay, readDelay_field rfl hgpio, ?_⟩
  refine bind_eq_ok_iff.mpr ⟨pgoodDelay, readDelay_field rfl hpgood, ?_⟩
  cases log <;> rfl

end YamlNode

/-- What the file of a configuration lists. -/
def Config.values (conf : Config) : List Assignment :=
  cleanupOrder.map (fun role => .gpio (conf.getGpioByRole role)) ++
    .batteryLevelReader conf.batteryLevelReader :: conf.powermap.map .powermapElement

namespace YamlNode

variable {conf : Config}

theorem listGpios_ofConfig (hconf : conf.Storable) :
    listGpios library (sequence (cleanupOrder.map fun role => ofGpio (conf.getGpioByRole role))) =
      .ok (cleanupOrder.map fun role => .gpio (conf.getGpioByRole role)) := by
  refine bind_eq_ok_iff.mpr ⟨(), rfl, bind_eq_ok_iff.mpr ⟨(), rfl, ?_⟩⟩
  change readAll _ (List.range cleanupOrder.length) = _
  refine readAll_range fun i hi => ?_
  refine listGpio_eq_ok_iff.mpr ⟨_, _, ?_, readGpio_ofGpio (hconf.gpio cleanupOrder[i]), rfl⟩
  simp [library, hi]

theorem listPowermap_ofConfig (powermap : List Int) :
    listPowermap library (sequence (powermap.map number)) =
      .ok (powermap.map .powermapElement) := by
  have hsize : library.size (sequence (powermap.map number)) = powermap.length := by
    simp [library]
  rw [listPowermap, hsize]
  refine readAll_range fun i hi => bind_eq_ok_iff.mpr ⟨powermap[i], ?_, rfl⟩
  refine bind_eq_ok_iff.mpr ⟨number powermap[i], ?_, rfl⟩
  simp [library, hi]

/-- The document lists the pins, the reader and the powermap. -/
theorem listDocument_ofConfig (dirs : Directories) (hconf : conf.Storable) :
    listDocument library dirs (.ok (ofConfig conf)) = .ok conf.values := by
  have hgpios : listEntry library dirs (text "GPIOS",
      sequence (cleanupOrder.map fun role => ofGpio (conf.getGpioByRole role))) =
        .ok (cleanupOrder.map fun role => .gpio (conf.getGpioByRole role)) :=
    bind_eq_ok_iff.mpr ⟨"GPIOS", rfl, listGpios_ofConfig hconf⟩
  have hreader : listEntry library dirs (text "battery-level-reader",
      sequence [ofReader conf.batteryLevelReader]) =
        .ok [.batteryLevelReader conf.batteryLevelReader] :=
    bind_eq_ok_iff.mpr ⟨"battery-level-reader", rfl, bind_eq_ok_iff.mpr ⟨_, rfl,
      bind_eq_ok_iff.mpr ⟨_, readBatteryLevelReader_ofReader hconf.reader, rfl⟩⟩⟩
  have hpowermap : listEntry library dirs (text "powermap",
      sequence [sequence (conf.powermap.map number)]) =
        .ok (conf.powermap.map .powermapElement) :=
    bind_eq_ok_iff.mpr ⟨"powermap", rfl, bind_eq_ok_iff.mpr ⟨_, rfl,
      listPowermap_ofConfig conf.powermap⟩⟩
  refine bind_eq_ok_iff.mpr ⟨_, rfl, bind_eq_ok_iff.mpr ⟨_, rfl, ?_⟩⟩
  simp only [readAll_cons, hgpios, hreader, hpowermap]
  exact congrArg Except.ok (by simp [Config.values])

end YamlNode

/-- The file of a configuration. -/
def Config.file (conf : Config) : ConfigFile YamlNode :=
  ⟨"/etc/rocpmd.conf", true, [.ok (YamlNode.ofConfig conf)]⟩

namespace Config

variable {conf : Config}

theorem listFile_file (dirs : Directories) (hconf : conf.Storable) :
    listFile YamlNode.library dirs conf.file = .ok conf.values := by
  refine bind_eq_ok_iff.mpr ⟨(), rfl, ?_⟩
  simp only [file, readAll_cons, YamlNode.listDocument_ofConfig dirs hconf]
  exact congrArg Except.ok (List.append_nil _)

/-- A configuration is its fields. -/
theorem eq_of_fields {other : Config}
    (hgpio : ∀ role, conf.getGpioByRole role = other.getGpioByRole role)
    (hreader : conf.batteryLevelReader = other.batteryLevelReader)
    (hpowermap : conf.powermap = other.powermap)
    (hpast : conf.pastPowermap = other.pastPowermap) : conf = other := by
  cases conf
  cases other
  simp only [mk.injEq]
  exact ⟨hgpio .off, hgpio .reqOffB, hgpio .csB, hgpio .udB, hgpio .pgoodB, hgpio .d1B, hgpio .d2B,
    hreader, hpowermap, hpast⟩

theorem listedGpios_values (hconf : conf.Storable) (role : Role) :
    listedGpios conf.values role = [conf.getGpioByRole role] := by
  have hrole : ∀ other, (conf.getGpioByRole other).role = other := fun other =>
    (hconf.gpio other).role
  simp only [listedGpios, values, cleanupOrder, List.map_cons, List.map_nil, List.cons_append,
    List.nil_append, List.filterMap_cons, Assignment.gpioFor, hrole, List.filterMap_map]
  cases role <;> simp [Function.comp_def, Assignment.gpioFor]

theorem listedReaders_values : listedReaders conf.values = [conf.batteryLevelReader] := by
  simp [listedReaders, values, Assignment.reader, Function.comp_def, List.filterMap_map]

theorem listedPowermap_values : listedPowermap conf.values = conf.powermap := by
  simp [listedPowermap, values, List.filterMap_cons, Assignment.element, Function.comp_def,
    List.filterMap_map]

theorem pastPowermap_foldl (memory : Config) (values : List Assignment) :
    (values.foldl assign memory).pastPowermap = memory.pastPowermap := by
  induction values generalizing memory with
  | nil => rfl
  | cons value values ih =>
      rw [List.foldl_cons, ih]
      cases value with
      | gpio gpio => simp only [assign, assignGpio]; cases gpio.role <;> rfl
      | powermapElement | batteryLevelReader => rfl

/-- Loading the file builds the configuration, whatever the memory held. What lies behind the
powermap is no part of it. -/
def DeterminedBy {Node : Type} (lib : YamlLibrary Node) (dirs : Directories)
    (file : ConfigFile Node) (conf : Config) : Prop :=
  ∀ memory, load lib dirs memory file = .ok { conf with pastPowermap := memory.pastPowermap }

theorem determinedBy_file (dirs : Directories) (hconf : conf.Storable) :
    DeterminedBy YamlNode.library dirs conf.file conf := by
  intro memory
  rw [load_of_listed (listFile_file dirs hconf)]
  refine congrArg Except.ok (eq_of_fields (fun role => ?_) ?_ ?_ ?_)
  · rw [getGpioByRole_foldl, listedGpios_values hconf]
    cases role <;> rfl
  · rw [batteryLevelReader_foldl, listedReaders_values]
    rfl
  · rw [powermap_foldl, listedPowermap_values]
    rfl
  · rw [pastPowermap_foldl]

section Determined

variable {Node : Type} {lib : YamlLibrary Node} {dirs : Directories} {file : ConfigFile Node}

/-- A field that does not depend on the memory was listed. -/
theorem getGpioByRole_mem_listed (hdetermined : DeterminedBy lib dirs file conf)
    {values : List Assignment} (hlist : listFile lib dirs file = .ok values) (role : Role) :
    conf.getGpioByRole role ∈ listedGpios values role := by
  have hfield : ∀ memory : Config, conf.getGpioByRole role =
      (listedGpios values role).getLast?.getD (memory.getGpioByRole role) := by
    intro memory
    have hload := (load_of_listed hlist memory).symm.trans (hdetermined memory)
    have hgpio := congrArg (fun conf : Config => conf.getGpioByRole role) (Except.ok.inj hload)
    rw [getGpioByRole_foldl] at hgpio
    cases role <;> exact hgpio.symm
  have hne : listedGpios values role ≠ [] := by
    intro hnone
    -- two memories that differ in the pin
    have hone := hfield shipped
    have htwo := hfield (shipped.assignGpio ⟨0, 0, 0, role⟩)
    rw [hnone, hone, hnone] at htwo
    simp only [List.getLast?_nil, Option.getD_none, assignGpio_getGpioByRole, if_true] at htwo
    revert htwo
    cases role <;> decide
  rw [hfield shipped]
  exact getLast?_getD_mem hne _

theorem reader_mem_listed (hdetermined : DeterminedBy lib dirs file conf)
    {values : List Assignment} (hlist : listFile lib dirs file = .ok values) :
    conf.batteryLevelReader ∈ listedReaders values := by
  have hfield : ∀ memory : Config, conf.batteryLevelReader =
      (listedReaders values).getLast?.getD memory.batteryLevelReader := by
    intro memory
    have hload := (load_of_listed hlist memory).symm.trans (hdetermined memory)
    have hreader := congrArg batteryLevelReader (Except.ok.inj hload)
    rw [batteryLevelReader_foldl] at hreader
    exact hreader.symm
  have hne : listedReaders values ≠ [] := by
    intro hnone
    have hone := hfield shipped
    have htwo := hfield { shipped with batteryLevelReader := ⟨0, 0, 0, false⟩ }
    rw [hnone, hone, hnone] at htwo
    exact absurd htwo (by decide)
  rw [hfield shipped]
  exact getLast?_getD_mem hne _

theorem storable_of_determinedBy (hdetermined : DeterminedBy lib dirs file conf) :
    conf.Storable := by
  obtain ⟨values, hlist, -⟩ := (load_eq_ok_iff lib dirs).mp (hdetermined shipped)
  exact
    { gpio := fun role =>
        storable_of_mem_listedGpios hlist (getGpioByRole_mem_listed hdetermined hlist role)
      reader := valid_of_mem_listedReaders (listFile_valid hlist)
        (reader_mem_listed hdetermined hlist) }

end Determined

end Config

/-- **Configurations round-trip.** A configuration can be loaded from some file, by some YAML
library, whatever the memory held, if and only if every pin, direction, resistor and delay of it
passes its own check; and then it is read back from its own file. -/
theorem config_round_trip (dirs : Directories) (conf : Config) :
    [conf.Storable, Config.DeterminedBy YamlNode.library dirs conf.file conf,
      ∃ (Node : Type) (lib : YamlLibrary Node) (file : ConfigFile Node),
        Config.DeterminedBy lib dirs file conf].TFAE := by
  tfae_have 1 → 2 := Config.determinedBy_file dirs
  tfae_have 2 → 3 := fun hdetermined => ⟨YamlNode, YamlNode.library, conf.file, hdetermined⟩
  tfae_have 3 → 1 := fun ⟨_, _, _, hdetermined⟩ => Config.storable_of_determinedBy hdetermined
  tfae_finish

end Rocpmd
