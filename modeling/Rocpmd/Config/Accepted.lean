import Rocpmd.Client.ChargingReports
import Rocpmd.Config.Listing

/-!
# What acceptance of a configuration promises

The constructor validates each value it reads. That a value is there at all, or that there are
enough of them, is a property of the whole file, and the constructor does not look at it.
-/

namespace Rocpmd

open Foundation

variable {Node : Type} {lib : YamlLibrary Node} {dirs : Directories}

/-! ## Every listed value is valid -/

def ConfigGpio.Valid (gpio : ConfigGpio) : Prop := gpio.bcmPin ∈ legalBcmPiPins

def ConfigBatteryLevelReader.Valid (reader : ConfigBatteryLevelReader) : Prop :=
  0 < reader.batteryLevelReadInterval ∧ 0 < reader.batteryLevelGpioDelay ∧
    0 < reader.batteryLevelPgoodDelay

def Assignment.Valid : Assignment → Prop
  | .gpio entry => entry.Valid
  | .powermapElement _ => True
  | .batteryLevelReader entry => entry.Valid

theorem readGpio_valid {node : Node} {gpio : ConfigGpio} (hread : readGpio lib node = .ok gpio) :
    gpio.Valid := by
  obtain ⟨bcmPin, -, hread⟩ := bind_eq_ok_iff.mp hread
  obtain ⟨⟨⟩, hpin, hread⟩ := bind_eq_ok_iff.mp hread
  obtain ⟨role, -, hread⟩ := bind_eq_ok_iff.mp hread
  obtain ⟨-, -, hread⟩ := bind_eq_ok_iff.mp hread
  obtain ⟨direction, -, hread⟩ := bind_eq_ok_iff.mp hread
  obtain ⟨resistor, -, hread⟩ := bind_eq_ok_iff.mp hread
  obtain rfl := Except.ok.inj hread
  exact List.contains_iff_mem.mp (validate_ok_iff.mp hpin)

theorem readDelay_pos {node : Node} {key : String} {delay : Int}
    (hread : readDelay lib node key = .ok delay) : 0 < delay := by
  obtain ⟨value, -, hread⟩ := bind_eq_ok_iff.mp hread
  obtain ⟨⟨⟩, hdelay, hread⟩ := bind_eq_ok_iff.mp hread
  obtain rfl := Except.ok.inj hread
  exact of_decide_eq_true (validate_ok_iff.mp hdelay)

theorem readBatteryLevelReader_valid {node : Node} {reader : ConfigBatteryLevelReader}
    (hread : readBatteryLevelReader lib node = .ok reader) : reader.Valid := by
  obtain ⟨readInterval, hinterval, hread⟩ := bind_eq_ok_iff.mp hread
  obtain ⟨gpioDelay, hgpio, hread⟩ := bind_eq_ok_iff.mp hread
  obtain ⟨pgoodDelay, hpgood, hread⟩ := bind_eq_ok_iff.mp hread
  obtain ⟨batteryLevelLog, -, hread⟩ := bind_eq_ok_iff.mp hread
  obtain rfl := Except.ok.inj hread
  exact ⟨readDelay_pos hinterval, readDelay_pos hgpio, readDelay_pos hpgood⟩

theorem listGpios_valid {docValue : Node} {values : List Assignment}
    (hlist : listGpios lib docValue = .ok values) : ∀ value ∈ values, value.Valid := by
  intro value hvalue
  obtain ⟨-, -, hlist⟩ := bind_eq_ok_iff.mp hlist
  obtain ⟨-, -, hlist⟩ := bind_eq_ok_iff.mp hlist
  obtain ⟨i, -, held, hheld, hmem⟩ := mem_of_readAll _ hlist hvalue
  obtain ⟨subnode, -, hheld⟩ := bind_eq_ok_iff.mp hheld
  obtain ⟨gpio, hgpio, hheld⟩ := bind_eq_ok_iff.mp hheld
  obtain rfl := Except.ok.inj hheld
  obtain rfl := List.mem_singleton.mp hmem
  exact readGpio_valid hgpio

theorem listPowermap_valid {node : Node} {values : List Assignment}
    (hlist : listPowermap lib node = .ok values) : ∀ value ∈ values, value.Valid := by
  intro value hvalue
  obtain ⟨element, rfl⟩ := listPowermap_elements hlist value hvalue
  trivial

theorem listEntry_valid {entry : Node × Node} {values : List Assignment}
    (hlist : listEntry lib dirs entry = .ok values) : ∀ value ∈ values, value.Valid := by
  have hnone : ∀ {values : List Assignment}, (pure [] : Except String _) = .ok values →
      ∀ value ∈ values, value.Valid := by
    intro values hpure
    obtain rfl := Except.ok.inj hpure
    exact fun _ hmem => absurd hmem List.not_mem_nil
  obtain ⟨key, -, hlist⟩ := bind_eq_ok_iff.mp hlist
  split_ifs at hlist
  · exact listGpios_valid hlist
  · obtain ⟨node, -, hlist⟩ := bind_eq_ok_iff.mp hlist
    obtain ⟨-, -, hlist⟩ := bind_eq_ok_iff.mp hlist
    exact hnone hlist
  · obtain ⟨node, -, hlist⟩ := bind_eq_ok_iff.mp hlist
    obtain ⟨-, -, hlist⟩ := bind_eq_ok_iff.mp hlist
    exact hnone hlist
  · obtain ⟨node, -, hlist⟩ := bind_eq_ok_iff.mp hlist
    exact listPowermap_valid hlist
  · obtain ⟨node, -, hlist⟩ := bind_eq_ok_iff.mp hlist
    obtain ⟨reader, hreader, hlist⟩ := bind_eq_ok_iff.mp hlist
    obtain rfl := Except.ok.inj hlist
    intro value hvalue
    obtain rfl := List.mem_singleton.mp hvalue
    exact readBatteryLevelReader_valid hreader
  · exact hnone hlist

/-- Whatever an accepted file lists has passed its check. -/
theorem listFile_valid {file : ConfigFile Node} {values : List Assignment}
    (hlist : listFile lib dirs file = .ok values) : ∀ value ∈ values, value.Valid := by
  intro value hvalue
  obtain ⟨-, -, hlist⟩ := bind_eq_ok_iff.mp hlist
  obtain ⟨document, -, held, hheld, hmem⟩ := mem_of_readAll _ hlist hvalue
  obtain ⟨node, -, hheld⟩ := bind_eq_ok_iff.mp hheld
  obtain ⟨entries, -, hheld⟩ := bind_eq_ok_iff.mp hheld
  obtain ⟨entry, -, held', hheld', hmem'⟩ := mem_of_readAll _ hheld hmem
  exact listEntry_valid hheld' value hmem'

/-! ## Completeness -/

/-- Every pin and the reader of a configuration are among the values a file lists for them, and
passed their checks. -/
structure CompletedBy (values : List Assignment) (conf : Config) : Prop where
  gpio : ∀ role, conf.getGpioByRole role ∈ listedGpios values role
  gpioValid : ∀ role, (conf.getGpioByRole role).Valid
  reader : conf.batteryLevelReader ∈ listedReaders values
  readerValid : conf.batteryLevelReader.Valid

/-- A pin for every role, and a reader. -/
structure ListsEverything (values : List Assignment) : Prop where
  gpio : ∀ role, listedGpios values role ≠ []
  reader : listedReaders values ≠ []

theorem valid_of_mem_listedGpios {values : List Assignment} (hvalid : ∀ value ∈ values, value.Valid)
    {role : Role} {gpio : ConfigGpio} (hmem : gpio ∈ listedGpios values role) : gpio.Valid := by
  obtain ⟨value, hvalue, hgpio⟩ := List.mem_filterMap.mp hmem
  cases value with
  | gpio entry =>
      obtain ⟨-, hentry⟩ := Option.ite_none_right_eq_some.mp hgpio
      obtain rfl := Option.some.inj hentry
      exact hvalid _ hvalue
  | powermapElement element => cases hgpio
  | batteryLevelReader entry => cases hgpio

theorem valid_of_mem_listedReaders {values : List Assignment}
    (hvalid : ∀ value ∈ values, value.Valid) {reader : ConfigBatteryLevelReader}
    (hmem : reader ∈ listedReaders values) : reader.Valid := by
  obtain ⟨value, hvalue, hreader⟩ := List.mem_filterMap.mp hmem
  cases value with
  | gpio entry => cases hreader
  | powermapElement element => cases hreader
  | batteryLevelReader entry =>
      obtain rfl := Option.some.inj hreader
      exact hvalid _ hvalue

/-- The last of some values is one of them, whatever stands in for none. -/
theorem getLast?_getD_mem {α : Type} {values : List α} (hne : values ≠ []) (default : α) :
    values.getLast?.getD default ∈ values := by
  rw [List.getLast?_eq_getLast_of_ne_nil hne]
  exact List.getLast_mem hne

theorem completedBy_foldl {values : List Assignment} (hvalid : ∀ value ∈ values, value.Valid)
    (hlists : ListsEverything values) (conf : Config) :
    CompletedBy values (values.foldl Config.assign conf) := by
  have hgpio : ∀ role, (values.foldl Config.assign conf).getGpioByRole role ∈
      listedGpios values role := by
    intro role
    rw [Config.getGpioByRole_foldl]
    exact getLast?_getD_mem (hlists.gpio role) _
  have hreader : (values.foldl Config.assign conf).batteryLevelReader ∈ listedReaders values := by
    rw [Config.batteryLevelReader_foldl]
    exact getLast?_getD_mem hlists.reader _
  exact {
    gpio := hgpio
    gpioValid := fun role => valid_of_mem_listedGpios hvalid (hgpio role)
    reader := hreader
    readerValid := valid_of_mem_listedReaders hvalid hreader }

/-- A file is complete, whatever the memory held, if it lists a pin for each role and a reader. The
constructor does not ask for that. -/
theorem accepted_config_complete_iff (lib : YamlLibrary Node) (dirs : Directories)
    (file : ConfigFile Node) :
    (∀ memory conf, Config.load lib dirs memory file = .ok conf →
      ∃ values, listFile lib dirs file = .ok values ∧ CompletedBy values conf) ↔
      ∀ values, listFile lib dirs file = .ok values → ListsEverything values := by
  constructor
  · intro hcomplete values hlist
    have hload := load_of_listed hlist Config.shipped
    obtain ⟨listed, hlisted, hcompleted⟩ := hcomplete _ _ hload
    obtain rfl : listed = values := Except.ok.inj (hlisted.symm.trans hlist)
    exact {
      gpio := fun role => List.ne_nil_of_mem (hcompleted.gpio role)
      reader := List.ne_nil_of_mem hcompleted.reader }
  · intro hlists memory conf hload
    obtain ⟨values, hlist, rfl⟩ := (load_eq_ok_iff lib dirs).mp hload
    exact ⟨values, hlist, completedBy_foldl (listFile_valid hlist) (hlists values hlist) _⟩

/-- A file without any section is accepted: the pins are the ones the memory happened to hold. -/
theorem empty_file_leaves_pins :
    ¬ ∀ memory conf, Config.load YamlNode.library ⟨fun _ => true, fun _ => true⟩ memory
        ⟨"/etc/rocpmd.conf", true, []⟩ = .ok conf →
      ∃ values, listFile YamlNode.library ⟨fun _ => true, fun _ => true⟩
        ⟨"/etc/rocpmd.conf", true, []⟩ = .ok values ∧ CompletedBy values conf := by
  intro hcomplete
  obtain ⟨values, hlist, hcompleted⟩ := hcomplete Config.shipped _ rfl
  obtain rfl : [] = values := Except.ok.inj hlist
  exact List.not_mem_nil hcompleted.reader

/-! ## The powermap -/

/-- An entry for each level, and only percentages. -/
structure LegalPowermap (powermap : List Int) : Prop where
  length : 64 ≤ powermap.length
  percentage : ∀ element ∈ powermap, 0 ≤ element ∧ element ≤ 100

/-- The lookups of `map_battery_level` and of `main` stay inside the powermap and find percentages
for every level, and nothing else is in the powermap either. -/
structure CoversReadings (conf : Config) : Prop where
  inBounds : ∀ raw : Int, 0 ≤ raw → raw ≤ 63 → raw.toNat < conf.getPowermapSize
  served : ∀ raw : Int, 0 ≤ raw → raw ≤ 63 →
    0 ≤ mapBatteryLevel conf raw ∧ mapBatteryLevel conf raw ≤ 100
  printed : ∀ opts (raw percentPower : Int), 0 ≤ raw → raw ≤ 63 →
    .percentagePowerLevel percentPower ∈ reportBySysfs opts conf raw →
      0 ≤ percentPower ∧ percentPower ≤ 100
  legal : LegalPowermap conf.powermap

theorem LegalPowermap.element {conf : Config} (hlegal : LegalPowermap conf.powermap) {raw : Int}
    (hlower : 0 ≤ raw) (hupper : raw ≤ 63) :
    raw.toNat < conf.getPowermapSize ∧
      0 ≤ conf.getPowermapElementAt raw.toNat ∧ conf.getPowermapElementAt raw.toNat ≤ 100 := by
  have hlt : raw.toNat < conf.getPowermapSize := by
    have hlength : 64 ≤ conf.getPowermapSize := hlegal.length
    omega
  have hget := conf.getPowermapElementAt_of_lt hlt
  exact ⟨hlt, hlegal.percentage _ (List.mem_of_getElem? hget)⟩

theorem coversReadings_of_legal {conf : Config} (hlegal : LegalPowermap conf.powermap) :
    CoversReadings conf where
  inBounds raw hlower hupper := (hlegal.element hlower hupper).1
  served raw hlower hupper := by
    rw [mapBatteryLevel, if_pos hlower]
    exact (hlegal.element hlower hupper).2
  printed opts raw percentPower hlower hupper hprinted := by
    rw [reportBySysfs, if_pos hlower] at hprinted
    obtain rfl : percentPower = conf.getPowermapElementAt raw.toNat := by
      split_ifs at hprinted <;> simp at hprinted <;> exact hprinted
    exact (hlegal.element hlower hupper).2
  legal := hlegal

/-- Whatever the files answer, a level that is measured has its entry. -/
theorem CoversReadings.of_measurement {W : Type} {conf : Config} (hcovers : CoversReadings conf)
    (fs : Sysfs W) (w : W) (hlevel : 0 ≤ (gpioReadBatteryLevelRaw fs conf w).1) :
    (gpioReadBatteryLevelRaw fs conf w).1.toNat < conf.getPowermapSize :=
  hcovers.inBounds _ hlevel (gpioReadBatteryLevelRaw_le fs conf w)

/-- The powermap of a configuration is what all the powermap sections of its file list, one after
the other: it covers the readings if and only if that does. -/
theorem accepted_powermap_covers_iff (lib : YamlLibrary Node) (dirs : Directories)
    (file : ConfigFile Node) :
    (∀ memory conf, Config.load lib dirs memory file = .ok conf → CoversReadings conf) ↔
      ∀ values, listFile lib dirs file = .ok values → LegalPowermap (listedPowermap values) := by
  constructor
  · intro hcovers values hlist
    have hload := load_of_listed hlist Config.shipped
    have hlegal := (hcovers _ _ hload).legal
    rw [Config.powermap_foldl] at hlegal
    exact hlegal
  · intro hlegal memory conf hload
    obtain ⟨values, hlist, rfl⟩ := (load_eq_ok_iff lib dirs).mp hload
    apply coversReadings_of_legal
    rw [Config.powermap_foldl]
    exact hlegal values hlist

/-- `powermap: [[100, 96]]`, and nothing else. -/
def ConfigFile.twoLevels : ConfigFile YamlNode where
  path := "/etc/rocpmd.conf"
  good := true
  documents := [.ok (.map [(.text "powermap", .sequence [.sequence [.number 100, .number 96]])])]

/-- The short powermap is accepted, and a reading of 63 is looked up behind its end. -/
theorem short_powermap_accepted :
    ¬ ∀ memory conf, Config.load YamlNode.library ⟨fun _ => true, fun _ => true⟩ memory
      .twoLevels = .ok conf → CoversReadings conf := by
  intro hcovers
  have hbounds := (hcovers Config.shipped _ rfl).inBounds 63 (by decide) (by decide)
  exact absurd hbounds (by decide)

example (dirs : Directories) (values : List Assignment)
    (hlist : listFile YamlNode.library dirs .shipped = .ok values) :
    ListsEverything values ∧ LegalPowermap (listedPowermap values) := by
  rw [listFile_shipped] at hlist
  obtain rfl := Except.ok.inj hlist
  refine ⟨⟨fun role => ?_, by decide⟩, by decide, by decide⟩
  cases role <;> decide

end Rocpmd
