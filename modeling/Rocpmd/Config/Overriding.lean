import Rocpmd.Config.Listing

/-!
# Definitions that replace earlier ones

A file may define a pin, the reader and the powermap more than once. Pins and the reader are
assigned, so the last definition stands; the elements of a powermap are pushed behind those of the
powermaps before it.
-/

namespace Rocpmd

open Foundation

/-! ## Definitions -/

/-- What a section of the file defines as a whole. -/
inductive Definition
  | gpio (gpio : ConfigGpio)
  | powermap (powermap : List Int)
  | batteryLevelReader (batteryLevelReader : ConfigBatteryLevelReader)
deriving DecidableEq, Repr

namespace Definition

/-- The values that loading a definition assigns. -/
def assignments : Definition → List Assignment
  | gpio entry => [.gpio entry]
  | powermap elements => elements.map .powermapElement
  | batteryLevelReader entry => [.batteryLevelReader entry]

def ofAssignment : Assignment → Definition
  | .gpio entry => gpio entry
  | .powermapElement element => powermap [element]
  | .batteryLevelReader entry => batteryLevelReader entry

theorem assignments_ofAssignment (value : Assignment) :
    (ofAssignment value).assignments = [value] := by
  cases value <;> rfl

/-- The definition as one of the pin of a role. -/
def gpioFor (role : Role) : Definition → Option ConfigGpio
  | gpio entry => if entry.role = role then some entry else none
  | _ => none

def reader : Definition → Option ConfigBatteryLevelReader
  | batteryLevelReader entry => some entry
  | _ => none

def elements : Definition → Option (List Int)
  | powermap elements => some elements
  | _ => none

end Definition

section Defining

variable {Node : Type} (lib : YamlLibrary Node) (dirs : Directories)

/-- A powermap is one definition however many elements it has; of the values elsewhere each is
one. -/
def defineEntry (entry : Node × Node) : Except String (List Definition) := do
  let key ← lib.readString entry.1
  let values ← listEntry lib dirs entry
  pure (if key = "powermap" then [.powermap (listedPowermap values)]
    else values.map Definition.ofAssignment)

def defineDocument (document : Except String Node) : Except String (List Definition) := do
  readAll (defineEntry lib dirs) (← lib.entries (← document))

/-- The definitions of a file in stream order. -/
def defineFile (file : ConfigFile Node) : Except String (List Definition) := do
  validate file.good (errorFileMsg file.path)
  readAll (defineDocument lib dirs) file.documents

end Defining

/-- The definitions of the pin of a role, of the reader and of the powermap. -/
def definedGpios (definitions : List Definition) (role : Role) : List ConfigGpio :=
  definitions.filterMap (Definition.gpioFor role)

def definedReaders (definitions : List Definition) : List ConfigBatteryLevelReader :=
  definitions.filterMap Definition.reader

def definedPowermaps (definitions : List Definition) : List (List Int) :=
  definitions.filterMap Definition.elements

/-- Whatever is defined is as its last definition has it. -/
structure LastDefinitions (definitions : List Definition) (conf : Config) : Prop where
  gpio : ∀ role, ∀ gpio ∈ (definedGpios definitions role).getLast?,
    conf.getGpioByRole role = gpio
  reader : ∀ reader ∈ (definedReaders definitions).getLast?, conf.batteryLevelReader = reader
  powermap : ∀ powermap ∈ (definedPowermaps definitions).getLast?, conf.powermap = powermap

/-! ## Definitions and the values they assign -/

section Assigning

variable {Node : Type} (lib : YamlLibrary Node) (dirs : Directories)

/-- A list of elements is the list of its elements. -/
theorem map_listedPowermap {values : List Assignment}
    (helements : ∀ value ∈ values, ∃ element, value = .powermapElement element) :
    (listedPowermap values).map Assignment.powermapElement = values := by
  induction values with
  | nil => rfl
  | cons value values ih =>
      obtain ⟨element, rfl⟩ := helements value List.mem_cons_self
      have hrest := ih fun value hvalue => helements value (List.mem_cons_of_mem _ hvalue)
      exact congrArg (Assignment.powermapElement element :: ·) hrest

theorem listEntry_elements {entry : Node × Node} {values : List Assignment}
    (hkey : lib.readString entry.1 = .ok "powermap")
    (hlist : listEntry lib dirs entry = .ok values) :
    ∀ value ∈ values, ∃ element, value = .powermapElement element := by
  obtain ⟨key, hread, hlist⟩ := bind_eq_ok_iff.mp hlist
  obtain rfl : "powermap" = key := Except.ok.inj (hkey.symm.trans hread)
  obtain ⟨node, -, hlist⟩ := bind_eq_ok_iff.mp hlist
  exact listPowermap_elements hlist

theorem listEntry_eq (entry : Node × Node) :
    listEntry lib dirs entry =
      (defineEntry lib dirs entry).map (List.flatMap Definition.assignments) := by
  unfold defineEntry
  cases hkey : lib.readString entry.1 with
  | error e => rw [listEntry, hkey]; rfl
  | ok key =>
      cases hlist : listEntry lib dirs entry with
      | error e => rfl
      | ok values =>
          refine congrArg Except.ok ?_
          by_cases hpowermap : key = "powermap"
          · have helements := listEntry_elements lib dirs (hpowermap ▸ hkey) hlist
            rw [if_pos hpowermap, List.flatMap_singleton]
            exact (map_listedPowermap helements).symm
          · rw [if_neg hpowermap, List.flatMap_map]
            simp only [Definition.assignments_ofAssignment]
            exact (List.flatMap_singleton' values).symm

theorem listDocument_eq (document : Except String Node) :
    listDocument lib dirs document =
      (defineDocument lib dirs document).map (List.flatMap Definition.assignments) := by
  simp only [listDocument, defineDocument, bind_map]
  congr 1
  funext node
  congr 1
  funext entries
  exact readAll_flatMap (listEntry_eq lib dirs) entries

/-- The values of a file are those its definitions assign. -/
theorem listFile_eq (file : ConfigFile Node) :
    listFile lib dirs file =
      (defineFile lib dirs file).map (List.flatMap Definition.assignments) := by
  simp only [listFile, defineFile, bind_map]
  congr 1
  funext _
  exact readAll_flatMap (listDocument_eq lib dirs) file.documents

/-- A file is accepted if it can be read into definitions, and the configuration is what they
assign. -/
theorem load_eq_ok_iff_defined {memory conf : Config} {file : ConfigFile Node} :
    Config.load lib dirs memory file = .ok conf ↔
      ∃ definitions, defineFile lib dirs file = .ok definitions ∧
        conf = (definitions.flatMap Definition.assignments).foldl Config.assign
          { memory with powermap := [] } := by
  rw [load_eq_ok_iff, listFile_eq]
  cases defineFile lib dirs file with
  | error e => simp [Except.map]
  | ok definitions => simp [Except.map]

end Assigning

/-! ## Which definition stands -/

variable (definitions : List Definition)

/-- A value that a definition assigns to a field at most once is assigned by the definition. -/
theorem filterMap_assignments {Field : Type} {held : Assignment → Option Field}
    {defined : Definition → Option Field}
    (hheld : ∀ definition, definition.assignments.filterMap held = (defined definition).toList) :
    (definitions.flatMap Definition.assignments).filterMap held =
      definitions.filterMap defined := by
  induction definitions with
  | nil => rfl
  | cons definition definitions ih =>
      rw [List.flatMap_cons, List.filterMap_append, ih, hheld]
      cases hdefined : defined definition with
      | none => rw [List.filterMap_cons_none hdefined]; rfl
      | some value => rw [List.filterMap_cons_some hdefined]; rfl

theorem filterMap_powermapElement_none {Field : Type} {held : Assignment → Option Field}
    (hheld : ∀ element, held (.powermapElement element) = none) (elements : List Int) :
    (elements.map Assignment.powermapElement).filterMap held = [] := by
  rw [List.filterMap_map]
  exact List.filterMap_eq_nil_iff.mpr fun element _ => hheld element

theorem listedGpios_assignments (role : Role) :
    listedGpios (definitions.flatMap Definition.assignments) role =
      definedGpios definitions role := by
  apply filterMap_assignments
  intro definition
  cases definition with
  | gpio entry =>
      by_cases hrole : entry.role = role <;>
        simp [Definition.assignments, Assignment.gpioFor, Definition.gpioFor, hrole]
  | powermap elements => exact filterMap_powermapElement_none (fun _ => rfl) elements
  | batteryLevelReader entry => rfl

theorem listedReaders_assignments :
    listedReaders (definitions.flatMap Definition.assignments) = definedReaders definitions := by
  apply filterMap_assignments
  intro definition
  cases definition with
  | gpio entry => rfl
  | powermap elements => exact filterMap_powermapElement_none (fun _ => rfl) elements
  | batteryLevelReader entry => rfl

/-- All powermaps of the file, one behind the other. -/
theorem listedPowermap_assignments :
    listedPowermap (definitions.flatMap Definition.assignments) =
      (definedPowermaps definitions).flatten := by
  induction definitions with
  | nil => rfl
  | cons definition definitions ih =>
      rw [List.flatMap_cons, listedPowermap, List.filterMap_append]
      change _ ++ listedPowermap _ = _
      rw [ih]
      cases definition with
      | gpio entry => rfl
      | powermap elements =>
          have helements : (elements.map Assignment.powermapElement).filterMap
              Assignment.element = elements := by
            rw [List.filterMap_map]
            exact List.filterMap_some
          exact congrArg (· ++ _) helements
      | batteryLevelReader entry => rfl

/-- The last of some lists is all of them, one behind the other, if the others are empty. -/
theorem flatten_eq_getLast_iff {α : Type} {lists : List (List α)} {last : List α}
    (hlast : last ∈ lists.getLast?) :
    lists.flatten = last ↔ ∀ list ∈ lists.dropLast, list = [] := by
  obtain ⟨earlier, rfl⟩ := List.getLast?_eq_some_iff.mp hlast
  rw [List.flatten_append, List.flatten_singleton, List.append_left_eq_self,
    List.dropLast_concat, List.flatten_eq_nil_iff]

/-- Pins and the reader are always the last ones; the powermap is, if the earlier are empty. -/
theorem lastDefinitions_iff (conf : Config) (hempty : conf.powermap = []) :
    LastDefinitions definitions
        ((definitions.flatMap Definition.assignments).foldl Config.assign conf) ↔
      ∀ powermap ∈ (definedPowermaps definitions).dropLast, powermap = [] := by
  have hpowermap : ((definitions.flatMap Definition.assignments).foldl Config.assign
      conf).powermap = (definedPowermaps definitions).flatten := by
    rw [Config.powermap_foldl, hempty, listedPowermap_assignments, List.nil_append]
  constructor
  · intro hlast
    cases hpowermaps : (definedPowermaps definitions).getLast? with
    | none =>
        rw [List.getLast?_eq_none_iff.mp hpowermaps]
        exact fun _ hmem => absurd hmem List.not_mem_nil
    | some powermap =>
        rw [← flatten_eq_getLast_iff hpowermaps, ← hpowermap]
        exact hlast.powermap powermap hpowermaps
  · intro hearlier
    refine ⟨?_, ?_, ?_⟩
    · intro role gpio hgpio
      rw [Config.getGpioByRole_foldl, listedGpios_assignments, hgpio]
      rfl
    · intro reader hreader
      rw [Config.batteryLevelReader_foldl, listedReaders_assignments, hreader]
      rfl
    · intro powermap hlast
      rw [hpowermap]
      exact (flatten_eq_getLast_iff hlast).mpr hearlier

/-- In every configuration a file is loaded into the last definitions stand, if and only if no
powermap of the file but the last has any elements. -/
theorem later_definitions_override_iff {Node : Type} (lib : YamlLibrary Node) (dirs : Directories)
    (file : ConfigFile Node) :
    (∀ memory conf, Config.load lib dirs memory file = .ok conf →
      ∃ definitions, defineFile lib dirs file = .ok definitions ∧
        LastDefinitions definitions conf) ↔
      ∀ definitions, defineFile lib dirs file = .ok definitions →
        ∀ powermap ∈ (definedPowermaps definitions).dropLast, powermap = [] := by
  constructor
  · intro hlast definitions hdefine
    obtain ⟨defined, hdefined, hstands⟩ := hlast Config.shipped _
      ((load_eq_ok_iff_defined lib dirs).mpr ⟨definitions, hdefine, rfl⟩)
    obtain rfl : defined = definitions := Except.ok.inj (hdefined.symm.trans hdefine)
    exact (lastDefinitions_iff defined _ rfl).mp hstands
  · intro hearlier memory conf hload
    obtain ⟨definitions, hdefine, rfl⟩ := (load_eq_ok_iff_defined lib dirs).mp hload
    exact ⟨definitions, hdefine,
      (lastDefinitions_iff definitions _ rfl).mpr (hearlier definitions hdefine)⟩

/-- A document with a powermap, and a second one that replaces it by a shorter one. -/
def ConfigFile.twoPowermaps : ConfigFile YamlNode where
  path := "/etc/rocpmd.conf"
  good := true
  documents := [
    .ok (.map [(.text "powermap", .sequence [.sequence [.number 100, .number 50]])]),
    .ok (.map [(.text "powermap", .sequence [.sequence [.number 90]])])]

/-- The daemon has the powermap 100, 50, 90. -/
theorem earlier_powermap_stays :
    ¬ ∀ memory conf, Config.load YamlNode.library ⟨fun _ => true, fun _ => true⟩ memory
        .twoPowermaps = .ok conf →
      ∃ definitions, defineFile YamlNode.library ⟨fun _ => true, fun _ => true⟩ .twoPowermaps =
        .ok definitions ∧ LastDefinitions definitions conf := by
  intro hlast
  obtain ⟨definitions, hdefine, hstands⟩ := hlast Config.shipped _ rfl
  obtain rfl : [.powermap [100, 50], .powermap [90]] = definitions := Except.ok.inj hdefine
  exact absurd (hstands.powermap [90] rfl) (by decide)

end Rocpmd
