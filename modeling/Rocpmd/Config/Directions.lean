import Rocpmd.Config.Listing
import Rocpmd.Gpio.Operations

/-!
# Stated directions

An object of the GPIOS section may state the direction of its pin. `gpio_init` programs the
direction of the role whatever was stated, `validate_gpio_roles_vs_direction` compares the two for
every role but UD_B, and nothing calls it.
-/

namespace Rocpmd

open Foundation

/-! ## validate_gpio_roles_vs_direction -/

def roleDirection : Role → Int
  | .csB | .off => output
  | .pgoodB | .udB | .reqOffB | .d1B | .d2B => input

def roleDirectionMsg : Role → String
  | .csB => "The CS_B* pin should be an output."
  | .off => "The OFF pin should be an output."
  | .pgoodB => "The PGOOD_B pin should be an input."
  | .udB => "The UD_B* pin should be an input."
  | .reqOffB => "The REQ_OFF_B pin should be an input"
  | .d1B => "The D1_B pin should be an input."
  | .d2B => "The D2_B pin should be an input."

def validateGpioRolesVsDirection (gpios : List ConfigGpio) : Except String Unit :=
  gpios.forM fun gpio =>
    validate (roleDirection gpio.role == gpio.direction) (roleDirectionMsg gpio.role)

theorem validateGpioRolesVsDirection_error_iff {gpios : List ConfigGpio} :
    (∃ msg, validateGpioRolesVsDirection gpios = .error msg) ↔
      ∃ gpio ∈ gpios, gpio.direction ≠ roleDirection gpio.role := by
  induction gpios with
  | nil => simp [validateGpioRolesVsDirection, pure, Except.pure]
  | cons gpio gpios ih =>
      simp only [List.mem_cons, exists_eq_or_imp]
      change (∃ msg, (validate _ _ >>= fun _ => validateGpioRolesVsDirection gpios) = _) ↔ _
      by_cases hdirection : roleDirection gpio.role = gpio.direction
      · rw [validate_ok_iff.mpr (beq_iff_eq.mpr hdirection)]
        exact ih.trans (or_iff_right (not_not_intro hdirection.symm)).symm
      · rw [validate, if_neg (by simpa using hdirection)]
        exact iff_of_true ⟨_, rfl⟩ (.inl (Ne.symm hdirection))

/-- The tables of the two files agree on every role but one. -/
theorem roleDirection_eq_initDirection {role : Role} (hrole : role ≠ .udB) :
    roleDirection role = initDirection role := by
  cases role <;> first | rfl | exact absurd rfl hrole

/-- The validator throws if and only if some direction is not the programmed one. -/
def ValidatorEnforces (gpios : List ConfigGpio) : Prop :=
  (∃ msg, validateGpioRolesVsDirection gpios = .error msg) ↔
    ∃ gpio ∈ gpios, gpio.direction ≠ initDirection gpio.role

/-! ## Objects of the GPIOS section -/

section Objects

variable {Node : Type} (lib : YamlLibrary Node) (dirs : Directories)

/-- The objects of the GPIOS sections of a file. -/
def IsGpioObject (file : ConfigFile Node) (subnode : Node) : Prop :=
  ∃ doc entries entry i, .ok doc ∈ file.documents ∧ lib.entries doc = .ok entries ∧
    entry ∈ entries ∧ lib.readString entry.1 = .ok "GPIOS" ∧ i < lib.size entry.2 ∧
      lib.element entry.2 i = .ok subnode

/-- The word for a direction. -/
def directionWord (direction : Int) : String := if direction = input then "input" else "output"

/-- The object states the direction that is programmed for its role, or none. -/
def StatesOwn (subnode : Node) : Prop :=
  ∀ stated ∈ lib.findValue subnode "direction", ∃ role,
    readStringField lib subnode "role" = .ok role ∧
      readStringField lib subnode "direction" =
        .ok (directionWord (initDirection (mapGpioRole role)))

/-- The same nodes, with no direction found in any of them. -/
def YamlLibrary.withoutDirections : YamlLibrary Node :=
  { lib with findValue := fun node key =>
      if key = "direction" then none else lib.findValue node key }

/-- A file is accepted only if its objects state the programmed directions, and if they do, their
directions have no part in whether it is. -/
structure DirectionsEnforced (file : ConfigFile Node) : Prop where
  accepted : ∀ memory conf, Config.load lib dirs memory file = .ok conf →
    ∀ subnode, IsGpioObject lib file subnode → StatesOwn lib subnode
  spared : (∀ subnode, IsGpioObject lib file subnode → StatesOwn lib subnode) → ∀ memory,
    (Succeeds (Config.load lib dirs memory file) ↔
      Succeeds (Config.load lib.withoutDirections dirs memory file))

/-! ## Reading an object -/

variable {lib} {dirs}

theorem readOptional_eq_ok_iff {node : Node} {key : String}
    {validateField : String → Except String Unit} {map : String → Int} {value : Int} :
    readOptional lib node key validateField map = .ok value ↔
      (lib.findValue node key = none ∧ value = cfgNoval) ∨
        (lib.findValue node key ≠ none ∧ ∃ text, readStringField lib node key = .ok text ∧
          validateField text = .ok () ∧ value = map text) := by
  unfold readOptional
  cases lib.findValue node key with
  | none => simp [pure, Except.pure, eq_comm]
  | some stated =>
      simp only [bind_eq_ok_iff, pure, Except.pure, Except.ok.injEq]
      constructor
      · rintro ⟨text, htext, ⟨⟩, hlegal, hmap⟩
        exact .inr ⟨Option.some_ne_none _, text, htext, hlegal, hmap.symm⟩
      · rintro (⟨hnone, -⟩ | ⟨-, text, htext, hlegal, hmap⟩)
        · cases hnone
        · exact ⟨text, htext, (), hlegal, hmap.symm⟩

theorem readGpio_eq_ok_iff {node : Node} {gpio : ConfigGpio} :
    readGpio lib node = .ok gpio ↔
      readIntField lib node "bcm-pin" = .ok gpio.bcmPin ∧ validateGpioPin gpio.bcmPin = .ok () ∧
        ∃ role, readStringField lib node "role" = .ok role ∧ validateGpioRole role = .ok () ∧
          readOptional lib node "direction" validateGpioDirection mapDirection =
            .ok gpio.direction ∧
          readOptional lib node "resistor" validateGpioResistor mapResistor = .ok gpio.resistor ∧
          gpio.role = mapGpioRole role := by
  obtain ⟨bcmPin, direction, resistor, role⟩ := gpio
  simp only [readGpio, bind_eq_ok_iff, pure, Except.pure, Except.ok.injEq, ConfigGpio.mk.injEq]
  constructor
  · rintro ⟨_, hpin, _, hvalid, name, hname, _, hlegal, _, hdirection, _, hresistor, rfl, rfl, rfl,
      rfl⟩
    exact ⟨hpin, hvalid, name, hname, hlegal, hdirection, hresistor, rfl⟩
  · rintro ⟨hpin, hvalid, name, hname, hlegal, hdirection, hresistor, rfl⟩
    exact ⟨bcmPin, hpin, _, hvalid, name, hname, _, hlegal, direction, hdirection, resistor,
      hresistor, rfl, rfl, rfl, rfl⟩

/-- Of the two legal words, the one for the programmed direction is the one that is mapped to it. -/
theorem eq_directionWord_iff {text : String} (hlegal : validateGpioDirection text = .ok ())
    (role : Role) :
    text = directionWord (initDirection role) ↔ mapDirection text = initDirection role := by
  have hwords := validate_ok_iff.mp hlegal
  simp only [Bool.or_eq_true, beq_iff_eq] at hwords
  rcases hwords with rfl | rfl <;> cases role <;> decide

/-- An object that was read states the programmed direction if the pin has it, or none. -/
theorem statesOwn_iff {node : Node} {gpio : ConfigGpio} (hread : readGpio lib node = .ok gpio) :
    StatesOwn lib node ↔
      gpio.direction = cfgNoval ∨ gpio.direction = initDirection gpio.role := by
  obtain ⟨-, -, role, hrole, -, hdirection, -, hmapped⟩ := readGpio_eq_ok_iff.mp hread
  rw [hmapped]
  rcases readOptional_eq_ok_iff.mp hdirection with ⟨hnone, hvalue⟩ | ⟨hsome, text, htext, hlegal,
    hvalue⟩
  · refine iff_of_true (fun stated hstated => ?_) (.inl hvalue)
    rw [hnone] at hstated
    cases hstated
  · have hstated : gpio.direction ≠ cfgNoval := by
      rw [hvalue, mapDirection]
      split_ifs <;> decide
    rw [or_iff_right hstated, hvalue, ← eq_directionWord_iff hlegal]
    obtain ⟨stated, hfind⟩ := Option.ne_none_iff_exists'.mp hsome
    constructor
    · intro hstates
      obtain ⟨name, hname, hword⟩ := hstates stated hfind
      obtain rfl : role = name := Except.ok.inj (hrole.symm.trans hname)
      exact Except.ok.inj (htext.symm.trans hword)
    · intro hword _ _
      exact ⟨role, hrole, hword ▸ htext⟩

/-- The direction of an object that states the programmed one is read without an error. -/
theorem readOptional_of_statesOwn {node : Node} (hstates : StatesOwn lib node) :
    Succeeds (readOptional lib node "direction" validateGpioDirection mapDirection) := by
  cases hfind : lib.findValue node "direction" with
  | none => exact ⟨cfgNoval, readOptional_eq_ok_iff.mpr (.inl ⟨hfind, rfl⟩)⟩
  | some stated =>
      obtain ⟨role, -, hword⟩ := hstates stated hfind
      have hlegal : validateGpioDirection (directionWord (initDirection (mapGpioRole role))) =
          .ok () := by
        cases mapGpioRole role <;> rfl
      exact ⟨_, readOptional_eq_ok_iff.mpr
        (.inr ⟨by rw [hfind]; exact Option.some_ne_none _, _, hword, hlegal, rfl⟩)⟩

/-- An object that states the programmed direction, or none, may as well state none. -/
theorem readGpio_withoutDirections {node : Node} (hstates : StatesOwn lib node) :
    Succeeds (readGpio lib node) ↔ Succeeds (readGpio lib.withoutDirections node) := by
  constructor
  · rintro ⟨gpio, hread⟩
    obtain ⟨hpin, hvalid, role, hrole, hlegal, -, hresistor, hmapped⟩ := readGpio_eq_ok_iff.mp hread
    exact ⟨{ gpio with direction := cfgNoval }, readGpio_eq_ok_iff.mpr
      ⟨hpin, hvalid, role, hrole, hlegal, rfl, hresistor, hmapped⟩⟩
  · rintro ⟨gpio, hread⟩
    obtain ⟨hpin, hvalid, role, hrole, hlegal, -, hresistor, hmapped⟩ := readGpio_eq_ok_iff.mp hread
    obtain ⟨direction, hdirection⟩ := readOptional_of_statesOwn hstates
    exact ⟨{ gpio with direction := direction }, readGpio_eq_ok_iff.mpr
      ⟨hpin, hvalid, role, hrole, hlegal, hdirection, hresistor, hmapped⟩⟩

/-! ## The whole file -/

theorem listGpio_eq_ok_iff {docValue : Node} {i : ℕ} {values : List Assignment} :
    listGpio lib docValue i = .ok values ↔
      ∃ subnode gpio, lib.element docValue i = .ok subnode ∧ readGpio lib subnode = .ok gpio ∧
        values = [.gpio gpio] := by
  simp only [listGpio, bind_eq_ok_iff]
  constructor
  · rintro ⟨subnode, helement, gpio, hread, hvalues⟩
    exact ⟨subnode, gpio, helement, hread, (Except.ok.inj hvalues).symm⟩
  · rintro ⟨subnode, gpio, helement, hread, rfl⟩
    exact ⟨subnode, helement, gpio, hread, rfl⟩

/-- Only the GPIOS section lists pins. -/
theorem listGpios_of_listEntry {entry : Node × Node} {values : List Assignment}
    (hlist : listEntry lib dirs entry = .ok values) {gpio : ConfigGpio}
    (hgpio : .gpio gpio ∈ values) :
    lib.readString entry.1 = .ok "GPIOS" ∧ listGpios lib entry.2 = .ok values := by
  obtain ⟨key, hkey, hlist⟩ := bind_eq_ok_iff.mp hlist
  split_ifs at hlist with hgpios
  · exact ⟨hgpios ▸ hkey, hlist⟩
  · obtain ⟨node, -, hlist⟩ := bind_eq_ok_iff.mp hlist
    obtain ⟨-, -, hlist⟩ := bind_eq_ok_iff.mp hlist
    obtain rfl := Except.ok.inj hlist
    cases hgpio
  · obtain ⟨node, -, hlist⟩ := bind_eq_ok_iff.mp hlist
    obtain ⟨-, -, hlist⟩ := bind_eq_ok_iff.mp hlist
    obtain rfl := Except.ok.inj hlist
    cases hgpio
  · obtain ⟨node, -, hlist⟩ := bind_eq_ok_iff.mp hlist
    obtain ⟨element, ⟨⟩⟩ := listPowermap_elements hlist _ hgpio
  · obtain ⟨node, -, hlist⟩ := bind_eq_ok_iff.mp hlist
    obtain ⟨reader, -, hlist⟩ := bind_eq_ok_iff.mp hlist
    obtain rfl := Except.ok.inj hlist
    cases List.mem_singleton.mp hgpio
  · obtain rfl := Except.ok.inj hlist
    cases hgpio

theorem listGpios_withoutDirections {docValue : Node}
    (hstates : ∀ i < lib.size docValue, ∀ subnode, lib.element docValue i = .ok subnode →
      StatesOwn lib subnode) :
    Succeeds (listGpios lib docValue) ↔ Succeeds (listGpios lib.withoutDirections docValue) := by
  refine succeeds_bind_congr fun _ _ => succeeds_bind_congr fun _ _ => ?_
  refine readAll_succeeds_congr fun i hi => succeeds_bind_congr fun subnode helement => ?_
  have hread := readGpio_withoutDirections (hstates i (List.mem_range.mp hi) subnode helement)
  constructor
  · rintro ⟨_, hlist⟩
    obtain ⟨gpio, hgpio, -⟩ := bind_eq_ok_iff.mp hlist
    obtain ⟨gpio', hgpio'⟩ := hread.mp ⟨gpio, hgpio⟩
    exact ⟨[.gpio gpio'], bind_eq_ok_iff.mpr ⟨gpio', hgpio', rfl⟩⟩
  · rintro ⟨_, hlist⟩
    obtain ⟨gpio, hgpio, -⟩ := bind_eq_ok_iff.mp hlist
    obtain ⟨gpio', hgpio'⟩ := hread.mpr ⟨gpio, hgpio⟩
    exact ⟨[.gpio gpio'], bind_eq_ok_iff.mpr ⟨gpio', hgpio', rfl⟩⟩

/-- If every object states the programmed direction, or none, the file is listed with the
directions if and only if it is without them. -/
theorem listFile_withoutDirections {file : ConfigFile Node}
    (hstates : ∀ subnode, IsGpioObject lib file subnode → StatesOwn lib subnode) :
    Succeeds (listFile lib dirs file) ↔ Succeeds (listFile lib.withoutDirections dirs file) := by
  refine succeeds_bind_congr fun _ _ => readAll_succeeds_congr fun document hdocument => ?_
  refine succeeds_bind_congr fun doc hdoc => succeeds_bind_congr fun entries hentries => ?_
  refine readAll_succeeds_congr fun entry hentry => succeeds_bind_congr fun key hkey => ?_
  by_cases hgpios : key = "GPIOS"
  · rw [if_pos hgpios, if_pos hgpios]
    apply listGpios_withoutDirections
    intro i hi subnode helement
    exact hstates subnode
      ⟨doc, entries, entry, i, hdoc ▸ hdocument, hentries, hentry, hgpios ▸ hkey, hi, helement⟩
  · -- no other section looks for a direction
    rw [if_neg hgpios, if_neg hgpios]
    exact Iff.rfl

/-- The object of a listed file was read, and its pin is listed. -/
theorem read_of_isGpioObject {file : ConfigFile Node} {values : List Assignment}
    (hlist : listFile lib dirs file = .ok values) {subnode : Node}
    (hobject : IsGpioObject lib file subnode) :
    ∃ gpio, readGpio lib subnode = .ok gpio ∧ .gpio gpio ∈ values := by
  obtain ⟨doc, entries, entry, i, hdoc, hentries, hentry, hkey, hi, helement⟩ := hobject
  obtain ⟨-, -, hlist⟩ := bind_eq_ok_iff.mp hlist
  obtain ⟨ofDocument, hdocument, hinFile⟩ := mem_readAll _ hlist hdoc
  simp only [listDocument, bind_eq_ok_iff, Except.ok.injEq, exists_eq_left'] at hdocument
  obtain ⟨_, hread, hdocument⟩ := hdocument
  obtain rfl := Except.ok.inj (hentries.symm.trans hread)
  obtain ⟨ofEntry, hlisted, hinDocument⟩ := mem_readAll _ hdocument hentry
  obtain ⟨key, hread, hlisted⟩ := bind_eq_ok_iff.mp hlisted
  obtain rfl := Except.ok.inj (hkey.symm.trans hread)
  obtain ⟨-, -, hlisted⟩ := bind_eq_ok_iff.mp hlisted
  obtain ⟨-, -, hlisted⟩ := bind_eq_ok_iff.mp hlisted
  obtain ⟨ofObject, hobject, hinEntry⟩ := mem_readAll _ hlisted (List.mem_range.mpr hi)
  obtain ⟨_, gpio, hread, hgpio, rfl⟩ := listGpio_eq_ok_iff.mp hobject
  obtain rfl := Except.ok.inj (helement.symm.trans hread)
  exact ⟨gpio, hgpio, hinFile _ (hinDocument _ (hinEntry _ List.mem_cons_self))⟩

/-- A listed pin was read from an object. -/
theorem isGpioObject_of_mem {file : ConfigFile Node} {values : List Assignment}
    (hlist : listFile lib dirs file = .ok values) {gpio : ConfigGpio}
    (hgpio : .gpio gpio ∈ values) :
    ∃ subnode, IsGpioObject lib file subnode ∧ readGpio lib subnode = .ok gpio := by
  obtain ⟨-, -, hlist⟩ := bind_eq_ok_iff.mp hlist
  obtain ⟨document, hdocument, ofDocument, hlisted, hmem⟩ := mem_of_readAll _ hlist hgpio
  obtain ⟨doc, hdoc, hlisted⟩ := bind_eq_ok_iff.mp hlisted
  obtain ⟨entries, hentries, hlisted⟩ := bind_eq_ok_iff.mp hlisted
  obtain ⟨entry, hentry, ofEntry, hlisted, hmem⟩ := mem_of_readAll _ hlisted hmem
  obtain ⟨hkey, hlisted⟩ := listGpios_of_listEntry hlisted hmem
  obtain ⟨-, -, hlisted⟩ := bind_eq_ok_iff.mp hlisted
  obtain ⟨-, -, hlisted⟩ := bind_eq_ok_iff.mp hlisted
  obtain ⟨i, hi, ofObject, hobject, hmem⟩ := mem_of_readAll _ hlisted hmem
  obtain ⟨subnode, read, helement, hread, rfl⟩ := listGpio_eq_ok_iff.mp hobject
  obtain rfl : gpio = read := Assignment.gpio.inj (List.mem_singleton.mp hmem)
  exact ⟨subnode, ⟨doc, entries, entry, i, hdoc ▸ hdocument, hentries, hentry, hkey,
    List.mem_range.mp hi, helement⟩, hread⟩

theorem load_succeeds_iff {memory : Config} {file : ConfigFile Node} :
    Succeeds (Config.load lib dirs memory file) ↔ Succeeds (listFile lib dirs file) := by
  constructor
  · rintro ⟨conf, hload⟩
    obtain ⟨values, hlist, -⟩ := (load_eq_ok_iff lib dirs).mp hload
    exact ⟨values, hlist⟩
  · rintro ⟨values, hlist⟩
    exact ⟨_, load_of_listed hlist memory⟩

theorem directionsEnforced_iff (file : ConfigFile Node) :
    DirectionsEnforced lib dirs file ↔
      ∀ values, listFile lib dirs file = .ok values → ∀ gpio, .gpio gpio ∈ values →
        gpio.direction = cfgNoval ∨ gpio.direction = initDirection gpio.role := by
  constructor
  · intro henforced values hlist gpio hgpio
    obtain ⟨subnode, hobject, hread⟩ := isGpioObject_of_mem hlist hgpio
    have hload := load_of_listed hlist Config.shipped
    exact (statesOwn_iff hread).mp (henforced.accepted _ _ hload subnode hobject)
  · intro hdirections
    refine ⟨fun memory conf hload subnode hobject => ?_, fun hstates memory => ?_⟩
    · obtain ⟨values, hlist, -⟩ := (load_eq_ok_iff lib dirs).mp hload
      obtain ⟨gpio, hread, hgpio⟩ := read_of_isGpioObject hlist hobject
      exact (statesOwn_iff hread).mpr (hdirections values hlist gpio hgpio)
    · rw [load_succeeds_iff, load_succeeds_iff]
      exact listFile_withoutDirections hstates

end Objects

/-! ## The validator -/

/-- A table that has the programmed directions except for UD_B finds the wrong pins of the other
roles, and of UD_B those that have the direction it does not want. -/
theorem exists_wrong_iff {gpios : List ConfigGpio} {wanted : Role → Int} {other : Int}
    (hagrees : ∀ role, role ≠ .udB → wanted role = initDirection role)
    (hother : ∀ gpio ∈ gpios, gpio.direction ≠ wanted .udB ↔ gpio.direction = other) :
    (∃ gpio ∈ gpios, gpio.direction ≠ wanted gpio.role) ↔
      (∃ gpio ∈ gpios, gpio.role ≠ .udB ∧ gpio.direction ≠ initDirection gpio.role) ∨
        ∃ gpio ∈ gpios, gpio.role = .udB ∧ gpio.direction = other := by
  constructor
  · rintro ⟨gpio, hgpio, hwrong⟩
    by_cases hrole : gpio.role = .udB
    · exact .inr ⟨gpio, hgpio, hrole, (hother gpio hgpio).mp (hrole ▸ hwrong)⟩
    · exact .inl ⟨gpio, hgpio, hrole, hagrees _ hrole ▸ hwrong⟩
  · rintro (⟨gpio, hgpio, hrole, hwrong⟩ | ⟨gpio, hgpio, hrole, hdirection⟩)
    · exact ⟨gpio, hgpio, (hagrees _ hrole).symm ▸ hwrong⟩
    · exact ⟨gpio, hgpio, hrole.symm ▸ (hother gpio hgpio).mpr hdirection⟩

/-- The validator answers right if the pin of another role gives it reason to throw, or if it has
as much reason to throw over UD_B as it should have. -/
theorem validatorEnforces_iff {gpios : List ConfigGpio}
    (hstated : ∀ gpio ∈ gpios, gpio.direction = input ∨ gpio.direction = output) :
    ValidatorEnforces gpios ↔
      (∃ gpio ∈ gpios, gpio.role ≠ .udB ∧ gpio.direction ≠ initDirection gpio.role) ∨
        ((∃ gpio ∈ gpios, gpio.role = .udB ∧ gpio.direction = input) ↔
          ∃ gpio ∈ gpios, gpio.role = .udB ∧ gpio.direction = output) := by
  have houtput : ∀ gpio ∈ gpios, gpio.direction ≠ roleDirection .udB ↔ gpio.direction = output := by
    intro gpio hgpio
    rcases hstated gpio hgpio with hdirection | hdirection <;> rw [hdirection] <;> decide
  have hinput : ∀ gpio ∈ gpios, gpio.direction ≠ initDirection .udB ↔ gpio.direction = input := by
    intro gpio hgpio
    rcases hstated gpio hgpio with hdirection | hdirection <;> rw [hdirection] <;> decide
  have hthrows := exists_wrong_iff (fun _ => roleDirection_eq_initDirection) houtput
  have hwrong := exists_wrong_iff (fun _ _ => rfl) hinput
  rw [ValidatorEnforces, validateGpioRolesVsDirection_error_iff, hthrows, hwrong]
  by_cases hother : ∃ gpio ∈ gpios, gpio.role ≠ .udB ∧ gpio.direction ≠ initDirection gpio.role
  · simp only [hother, true_or]
  · simp only [hother, false_or]
    exact Iff.comm

/-- A file has its directions enforced if no object that is read states the direction opposite to
the programmed one; the validator, which nothing calls, is wrong about UD_B only. -/
theorem directions_enforced_iff {Node : Type} (lib : YamlLibrary Node) (dirs : Directories)
    (file : ConfigFile Node) (gpios : List ConfigGpio)
    (hstated : ∀ gpio ∈ gpios, gpio.direction = input ∨ gpio.direction = output) :
    (DirectionsEnforced lib dirs file ↔
      ∀ values, listFile lib dirs file = .ok values → ∀ gpio, .gpio gpio ∈ values →
        gpio.direction = cfgNoval ∨ gpio.direction = initDirection gpio.role) ∧
    (ValidatorEnforces gpios ↔
      (∃ gpio ∈ gpios, gpio.role ≠ .udB ∧ gpio.direction ≠ initDirection gpio.role) ∨
        ((∃ gpio ∈ gpios, gpio.role = .udB ∧ gpio.direction = input) ↔
          ∃ gpio ∈ gpios, gpio.role = .udB ∧ gpio.direction = output)) :=
  ⟨directionsEnforced_iff file, validatorEnforces_iff hstated⟩

/-- The shipped file states no direction; a list with OFF as an input is thrown out. -/
theorem shipped_directions_enforced :
    DirectionsEnforced YamlNode.library ⟨fun _ => true, fun _ => true⟩ .shipped ∧
      ValidatorEnforces [⟨12, input, 0, .off⟩, ⟨16, output, 0, .udB⟩] := by
  obtain ⟨henforced, hvalidator⟩ := directions_enforced_iff YamlNode.library
    ⟨fun _ => true, fun _ => true⟩ .shipped [⟨12, input, 0, .off⟩, ⟨16, output, 0, .udB⟩]
    (by decide)
  refine ⟨henforced.mpr ?_, hvalidator.mpr (by decide)⟩
  intro values hlist gpio hgpio
  rw [listFile_shipped] at hlist
  obtain rfl := Except.ok.inj hlist
  rcases List.mem_append.mp hgpio with hpin | hpowermap
  · simp only [List.mem_cons, List.not_mem_nil, Assignment.gpio.injEq, reduceCtorEq,
      or_false] at hpin
    rcases hpin with rfl | rfl | rfl | rfl | rfl | rfl | rfl <;> exact .inl rfl
  · obtain ⟨element, -, ⟨⟩⟩ := List.mem_map.mp hpowermap

/-- A GPIOS section with an OFF pin that is said to be an input. -/
def ConfigFile.offIsInput : ConfigFile YamlNode where
  path := "/etc/rocpmd.conf"
  good := true
  documents := [.ok (.map [(.text "GPIOS", .sequence [.map [(.text "bcm-pin", .number 12),
    (.text "role", .text "OFF"), (.text "direction", .text "input")]])])]

/-- It is accepted; and UD_B as the output it is programmed as would be thrown out. -/
theorem input_off_accepted :
    ¬ DirectionsEnforced YamlNode.library ⟨fun _ => true, fun _ => true⟩ .offIsInput ∧
      ¬ ValidatorEnforces [⟨16, output, 0, .udB⟩] := by
  constructor
  · intro henforced
    have hstates := henforced.accepted Config.shipped _ rfl _
      ⟨_, _, _, 0, List.mem_singleton_self _, rfl, List.mem_singleton_self _, rfl, by decide, rfl⟩
    obtain ⟨role, hrole, hword⟩ := hstates _ rfl
    obtain rfl : "OFF" = role := Except.ok.inj hrole
    exact absurd (Except.ok.inj hword) (by decide)
  · intro henforces
    have hthrows : ∃ msg, validateGpioRolesVsDirection [⟨16, output, 0, .udB⟩] = .error msg :=
      ⟨_, rfl⟩
    exact absurd (henforces.mp hthrows) (by decide)

end Rocpmd
