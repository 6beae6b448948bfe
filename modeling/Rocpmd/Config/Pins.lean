import Rocpmd.Config.Listing
import Rocpmd.Gpio.DrivenLevels

/-!
# One pin for each role

`validate_gpio_duplicate_pins` would refuse a pin that two roles share, but nothing calls it. A pin
that UD_B or CS_B shares with another role follows every measurement.
-/

namespace Rocpmd

open Foundation

variable {Node : Type} {lib : YamlLibrary Node} {dirs : Directories}

/-- The roles whose pins a measurement has no business with, except for reading them. -/
def sparedRoles : List Role := [.off, .reqOffB, .pgoodB, .d1B, .d2B]

/-- Roles that the file configures have different pins, and no measurement changes the level of a
spared one. -/
structure PinsSeparate (values : List Assignment) (conf : Config) : Prop where
  distinct : ∀ role role', role ≠ role' → listedGpios values role ≠ [] →
    listedGpios values role' ≠ [] → conf.pin role ≠ conf.pin role'
  spared : ∀ role ∈ sparedRoles, ∀ (W : Type) (fs : Sysfs W) (isOutput : W → Int → Bool) (w : W)
    (level : Int → Bool), conf.pin role ∉ changedPins fs isOutput conf w level

/-- The pin that stands for a role once the whole file is loaded. -/
def lastPin (values : List Assignment) (role : Role) : Option Int :=
  (listedGpios values role).getLast?.map ConfigGpio.bcmPin

/-- Every role has a pin of its own. -/
structure DistinctPins (values : List Assignment) : Prop where
  listed : ∀ role, listedGpios values role ≠ []
  distinct : ∀ role role', role ≠ role' → lastPin values role ≠ lastPin values role'

theorem pin_foldl (values : List Assignment) (conf : Config) (role : Role) :
    (values.foldl Config.assign conf).pin role = (lastPin values role).getD (conf.pin role) := by
  rw [Config.pin, Config.getGpioByRole_foldl, lastPin]
  cases (listedGpios values role).getLast? <;> rfl

theorem lastPin_eq_none_iff {values : List Assignment} {role : Role} :
    lastPin values role = none ↔ listedGpios values role = [] := by
  rw [lastPin, Option.map_eq_none_iff, List.getLast?_eq_none_iff]

theorem lastPin_eq_some {values : List Assignment} {role : Role}
    (hlisted : listedGpios values role ≠ []) (conf : Config) :
    lastPin values role = some ((values.foldl Config.assign conf).pin role) := by
  rw [pin_foldl]
  cases hlast : lastPin values role with
  | none => exact absurd (lastPin_eq_none_iff.mp hlast) hlisted
  | some pin => rfl

/-- Memory that holds the same pin for every role. -/
def Config.uniform (pin : Int) : Config where
  off := ⟨pin, 0, 0, .off⟩
  reqOff := ⟨pin, 0, 0, .reqOffB⟩
  cs := ⟨pin, 0, 0, .csB⟩
  ud := ⟨pin, 0, 0, .udB⟩
  pgood := ⟨pin, 0, 0, .pgoodB⟩
  d1 := ⟨pin, 0, 0, .d1B⟩
  d2 := ⟨pin, 0, 0, .d2B⟩
  batteryLevelReader := Config.shipped.batteryLevelReader
  powermap := []
  pastPowermap := fun _ => 0

theorem Config.pin_uniform (pin : Int) (role : Role) : (Config.uniform pin).pin role = pin := by
  cases role <;> rfl

/-- A role that is not listed may find any pin in memory, also that of another role. -/
theorem exists_shared_pin {values : List Assignment} {role : Role}
    (hlisted : listedGpios values role = []) (role' : Role) :
    ∃ memory : Config, (values.foldl Config.assign { memory with powermap := [] }).pin role =
      (values.foldl Config.assign { memory with powermap := [] }).pin role' := by
  refine ⟨Config.uniform ((lastPin values role').getD 0), ?_⟩
  have hpin : ∀ role, ({ Config.uniform ((lastPin values role').getD 0) with powermap := [] } :
      Config).pin role = (lastPin values role').getD 0 := Config.pin_uniform _
  rw [pin_foldl, pin_foldl, hpin, hpin, lastPin_eq_none_iff.mpr hlisted]
  cases lastPin values role' <;> rfl

theorem PinsSeparate.pin_ne_udB {values : List Assignment} {conf : Config}
    (hseparate : PinsSeparate values conf) {role : Role} (hspared : role ∈ sparedRoles) :
    conf.pin role ≠ conf.pin .udB := by
  intro heq
  apply hseparate.spared role hspared ℕ Sysfs.writable (fun _ _ => true) 1 fun _ => false
  rw [heq]
  exact udB_mem_changedPins conf

theorem PinsSeparate.pin_ne_csB {values : List Assignment} {conf : Config}
    (hseparate : PinsSeparate values conf) {role : Role} (hspared : role ∈ sparedRoles) :
    conf.pin role ≠ conf.pin .csB := by
  intro heq
  apply hseparate.spared role hspared ℕ Sysfs.writable (fun _ _ => true) 2 fun _ => true
  rw [heq]
  exact csB_mem_changedPins conf

/-- If the pins are separate whatever the memory held, every role is listed. -/
theorem listed_of_pinsSeparate {values : List Assignment}
    (hseparate : ∀ memory : Config,
      PinsSeparate values (values.foldl Config.assign { memory with powermap := [] }))
    (role : Role) : listedGpios values role ≠ [] := by
  intro hlisted
  by_cases hspared : role ∈ sparedRoles
  · obtain ⟨memory, hshared⟩ := exists_shared_pin hlisted .udB
    exact (hseparate memory).pin_ne_udB hspared hshared
  · -- one of the driven pins: it is mistaken for OFF
    obtain ⟨memory, hshared⟩ := exists_shared_pin hlisted .off
    have hoff : Role.off ∈ sparedRoles := by decide
    cases role with
    | udB => exact (hseparate memory).pin_ne_udB hoff hshared.symm
    | csB => exact (hseparate memory).pin_ne_csB hoff hshared.symm
    | _ => exact hspared (by decide)

theorem distinctPins_of_pinsSeparate {values : List Assignment}
    (hseparate : ∀ memory : Config,
      PinsSeparate values (values.foldl Config.assign { memory with powermap := [] })) :
    DistinctPins values where
  listed := listed_of_pinsSeparate hseparate
  distinct := by
    intro role role' hne heq
    have hlisted := listed_of_pinsSeparate hseparate
    apply (hseparate .shipped).distinct role role' hne (hlisted role) (hlisted role')
    rw [lastPin_eq_some (hlisted role), lastPin_eq_some (hlisted role')] at heq
    exact Option.some.inj heq

theorem pinsSeparate_of_distinctPins {values : List Assignment} (hdistinct : DistinctPins values)
    (conf : Config) : PinsSeparate values (values.foldl Config.assign conf) := by
  have hpins : ∀ role role', role ≠ role' → (values.foldl Config.assign conf).pin role ≠
      (values.foldl Config.assign conf).pin role' := by
    intro role role' hne heq
    apply hdistinct.distinct role role' hne
    rw [lastPin_eq_some (hdistinct.listed role) conf, lastPin_eq_some (hdistinct.listed role') conf,
      heq]
  refine ⟨fun role role' hne _ _ => hpins role role' hne, ?_⟩
  intro role hspared W fs isOutput w level hmem
  rcases eq_of_mem_changedPins hmem with hud | hcs
  · exact hpins role .udB (by rintro rfl; exact absurd hspared (by decide)) hud
  · exact hpins role .csB (by rintro rfl; exact absurd hspared (by decide)) hcs

/-- Roles have separate pins, whatever the memory held, if the file gives each a pin of its own; the
constructor accepts others as well. -/
theorem accepted_pins_separate_iff (lib : YamlLibrary Node) (dirs : Directories)
    (file : ConfigFile Node) :
    (∀ memory conf, Config.load lib dirs memory file = .ok conf →
      ∃ values, listFile lib dirs file = .ok values ∧ PinsSeparate values conf) ↔
      ∀ values, listFile lib dirs file = .ok values → DistinctPins values := by
  constructor
  · intro hseparate values hlist
    apply distinctPins_of_pinsSeparate
    intro memory
    have hload := load_of_listed hlist memory
    obtain ⟨listed, hlisted, hconf⟩ := hseparate memory _ hload
    obtain rfl : listed = values := Except.ok.inj (hlisted.symm.trans hlist)
    exact hconf
  · intro hdistinct memory conf hload
    obtain ⟨values, hlist, rfl⟩ := (load_eq_ok_iff lib dirs).mp hload
    exact ⟨values, hlist, pinsSeparate_of_distinctPins (hdistinct values hlist) _⟩

/-- The GPIOS section of a file that gives OFF the pin of UD_B. -/
def ConfigFile.offIsUd : ConfigFile YamlNode where
  path := "/etc/rocpmd.conf"
  good := true
  documents := [.ok (.map [(.text "GPIOS", .sequence [.gpio 6 "CS_B", .gpio 16 "OFF",
    .gpio 13 "PGOOD_B", .gpio 16 "UD_B", .gpio 5 "REQ_OFF_B", .gpio 20 "D1_B", .gpio 26 "D2_B"])])]

theorem shared_pin_accepted :
    ¬ ∀ memory conf, Config.load YamlNode.library ⟨fun _ => true, fun _ => true⟩ memory
      .offIsUd = .ok conf →
        ∃ values, listFile YamlNode.library ⟨fun _ => true, fun _ => true⟩ .offIsUd = .ok values ∧
          PinsSeparate values conf := by
  intro hseparate
  obtain ⟨values, -, hpins⟩ := hseparate Config.shipped _ rfl
  exact hpins.pin_ne_udB (by decide : Role.off ∈ sparedRoles) rfl

example (dirs : Directories) (values : List Assignment)
    (hlist : listFile YamlNode.library dirs .shipped = .ok values) : DistinctPins values := by
  rw [listFile_shipped] at hlist
  obtain rfl := Except.ok.inj hlist
  refine ⟨fun role => ?_, fun role role' => ?_⟩
  · cases role <;> decide
  · cases role <;> cases role' <;> decide

end Rocpmd
