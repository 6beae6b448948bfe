import Rocpmd.Config.Load

/-!
# What a configuration file lists

Whether a file is accepted, and which values it has for the configuration, does not depend on the
configuration they are assigned to. What the constructor builds is the file's list of values
assigned one after the other to whatever the memory held.
-/

namespace Rocpmd

open Foundation

/-! ## Lists of values -/

section Listing

variable {Node : Type} (lib : YamlLibrary Node) (dirs : Directories)

def listGpio (docValue : Node) (i : ℕ) : Except String (List Assignment) := do
  let gpio ← readGpio lib (← lib.element docValue i)
  pure [.gpio gpio]

def listGpios (docValue : Node) : Except String (List Assignment) := do
  validate (lib.isSequence docValue) errorGpioMsgSequence
  validate (lib.size docValue ≤ 40) errorGpioMsgSequence
  readAll (listGpio lib docValue) (List.range (lib.size docValue))

def listElement (node : Node) (i : ℕ) : Except String (List Assignment) := do
  let element ← readElement lib node i
  pure [.powermapElement element]

def listPowermap (node : Node) : Except String (List Assignment) :=
  readAll (listElement lib node) (List.range (lib.size node))

variable {lib} in
theorem listPowermap_elements {node : Node} {values : List Assignment}
    (hlist : listPowermap lib node = .ok values) :
    ∀ value ∈ values, ∃ element, value = .powermapElement element := by
  intro value hvalue
  obtain ⟨i, -, held, hheld, hmem⟩ := mem_of_readAll _ hlist hvalue
  obtain ⟨element, -, hheld⟩ := bind_eq_ok_iff.mp hheld
  obtain rfl := Except.ok.inj hheld
  exact ⟨element, List.mem_singleton.mp hmem⟩

/-- The values of one key of a document. The sockets are checked and have none. -/
def listEntry (entry : Node × Node) : Except String (List Assignment) := do
  let key ← lib.readString entry.1
  if key = "GPIOS" then listGpios lib entry.2
  else if key = "websocket" then do
    readWebsocket lib dirs (← lib.element entry.2 0)
    pure []
  else if key = "berkleysocket" then do
    readSocket lib (← lib.element entry.2 0)
    pure []
  else if key = "powermap" then do
    listPowermap lib (← lib.element entry.2 0)
  else if key = "battery-level-reader" then do
    let reader ← readBatteryLevelReader lib (← lib.element entry.2 0)
    pure [.batteryLevelReader reader]
  else pure []

def listDocument (document : Except String Node) : Except String (List Assignment) := do
  readAll (listEntry lib dirs) (← lib.entries (← document))

def listFile (file : ConfigFile Node) : Except String (List Assignment) := do
  validate file.good (errorFileMsg file.path)
  readAll (listDocument lib dirs) file.documents

/-! ## Loading assigns what is listed -/

/-- What a part of the file does to a configuration, given what it lists. -/
def assigning (listed : Except String (List Assignment)) (conf : Config) : Except String Config :=
  listed.map fun values => values.foldl Config.assign conf

theorem assigning_bind {α : Type} (read : Except String α)
    (listed : α → Except String (List Assignment)) (conf : Config) :
    assigning (read >>= listed) conf = read >>= fun value => assigning (listed value) conf := by
  cases read <;> rfl

theorem assigning_nil (conf : Config) : assigning (pure []) conf = pure conf := rfl

theorem assigning_one (value : Assignment) (conf : Config) :
    assigning (pure [value]) conf = pure (conf.assign value) := rfl

theorem assigning_readAll {Item : Type} {listed : Item → Except String (List Assignment)}
    {load : Config → Item → Except String Config}
    (hload : ∀ conf item, load conf item = assigning (listed item) conf)
    (items : List Item) (conf : Config) :
    items.foldlM load conf = assigning (readAll listed items) conf :=
  foldlM_eq_readAll hload conf items

theorem loadGpios_eq (conf : Config) (docValue : Node) :
    loadGpios lib conf docValue = assigning (listGpios lib docValue) conf := by
  simp only [loadGpios, listGpios, assigning_bind]
  congr 1
  funext _
  congr 1
  funext _
  apply assigning_readAll
  intro conf i
  simp only [listGpio, assigning_bind, assigning_one]

theorem loadPowermap_eq (conf : Config) (node : Node) :
    loadPowermap lib conf node = assigning (listPowermap lib node) conf := by
  apply assigning_readAll
  intro conf i
  simp only [listElement, assigning_bind, assigning_one]

theorem loadEntry_eq (conf : Config) (entry : Node × Node) :
    loadEntry lib dirs conf entry = assigning (listEntry lib dirs entry) conf := by
  simp only [loadEntry, listEntry, assigning_bind]
  congr 1
  funext key
  split_ifs <;> simp only [loadGpios_eq, loadPowermap_eq, assigning_bind, assigning_one,
    assigning_nil]

theorem loadDocument_eq (conf : Config) (document : Except String Node) :
    loadDocument lib dirs conf document = assigning (listDocument lib dirs document) conf := by
  simp only [loadDocument, listDocument, assigning_bind]
  congr 1
  funext node
  congr 1
  funext entries
  exact assigning_readAll (loadEntry_eq lib dirs) entries conf

/-- The constructor assigns what the file lists, to memory that holds anything. -/
theorem load_eq (memory : Config) (file : ConfigFile Node) :
    Config.load lib dirs memory file =
      assigning (listFile lib dirs file) { memory with powermap := [] } := by
  simp only [Config.load, listFile, assigning_bind]
  congr 1
  funext _
  exact assigning_readAll (loadDocument_eq lib dirs) file.documents _

/-- A configuration comes from a list of values, and the list from the file alone. -/
theorem load_eq_ok_iff {memory conf : Config} {file : ConfigFile Node} :
    Config.load lib dirs memory file = .ok conf ↔
      ∃ values, listFile lib dirs file = .ok values ∧
        conf = values.foldl Config.assign { memory with powermap := [] } := by
  rw [load_eq]
  cases listFile lib dirs file with
  | error e => simp [assigning, Except.map]
  | ok values => simp [assigning, Except.map, eq_comm]

variable {lib dirs} in
/-- Whatever the memory held, a file that can be listed is accepted. -/
theorem load_of_listed {file : ConfigFile Node} {values : List Assignment}
    (hlist : listFile lib dirs file = .ok values) (memory : Config) :
    Config.load lib dirs memory file =
      .ok (values.foldl Config.assign { memory with powermap := [] }) :=
  (load_eq_ok_iff lib dirs).mpr ⟨values, hlist, rfl⟩

end Listing

/-! ## The fields after loading -/

namespace Assignment

/-- The value as one for the pin of a role. -/
def gpioFor (role : Role) : Assignment → Option ConfigGpio
  | .gpio entry => if entry.role = role then some entry else none
  | _ => none

def element : Assignment → Option Int
  | .powermapElement element => some element
  | _ => none

def reader : Assignment → Option ConfigBatteryLevelReader
  | .batteryLevelReader reader => some reader
  | _ => none

end Assignment

/-- The pins a file lists for a role, the elements of all its powermaps, and its readers. -/
def listedGpios (values : List Assignment) (role : Role) : List ConfigGpio :=
  values.filterMap (Assignment.gpioFor role)

def listedPowermap (values : List Assignment) : List Int := values.filterMap Assignment.element

def listedReaders (values : List Assignment) : List ConfigBatteryLevelReader :=
  values.filterMap Assignment.reader

namespace Config

variable (conf : Config) (values : List Assignment)

theorem assignGpio_getGpioByRole (gpio : ConfigGpio) (role : Role) :
    (conf.assignGpio gpio).getGpioByRole role =
      if gpio.role = role then gpio else conf.getGpioByRole role := by
  unfold assignGpio
  cases gpio.role <;> cases role <;> rfl

theorem getGpioByRole_foldl (role : Role) :
    (values.foldl assign conf).getGpioByRole role =
      ((listedGpios values role).getLast?).getD (conf.getGpioByRole role) := by
  apply field_foldl (fun conf : Config => conf.getGpioByRole role)
  intro conf value
  cases value with
  | gpio gpio =>
      rw [assign, assignGpio_getGpioByRole, Assignment.gpioFor]
      split_ifs <;> rfl
  | powermapElement element => cases role <;> rfl
  | batteryLevelReader reader => cases role <;> rfl

theorem powermap_foldl :
    (values.foldl assign conf).powermap = conf.powermap ++ listedPowermap values := by
  apply collected_foldl powermap
  intro conf value
  cases value with
  | gpio gpio =>
      simp only [assign, assignGpio, Assignment.element]
      cases gpio.role <;> exact (List.append_nil _).symm
  | powermapElement element => rfl
  | batteryLevelReader reader => exact (List.append_nil _).symm

theorem batteryLevelReader_foldl :
    (values.foldl assign conf).batteryLevelReader =
      ((listedReaders values).getLast?).getD conf.batteryLevelReader := by
  apply field_foldl batteryLevelReader
  intro conf value
  cases value with
  | gpio gpio =>
      simp only [assign, assignGpio, Assignment.reader]
      cases gpio.role <;> rfl
  | powermapElement element => rfl
  | batteryLevelReader reader => rfl

end Config

/-! ## Files as plain trees -/

/-- A YAML node as a value, without its place in the text. -/
inductive YamlNode
  | text (value : String)
  | number (value : Int)
  | sequence (elements : List YamlNode)
  | map (entries : List (YamlNode × YamlNode))

namespace YamlNode

def isText (word : String) : YamlNode → Bool
  | text value => value == word
  | _ => false

def field (node : YamlNode) (key : String) : Option YamlNode :=
  match node with
  | map entries => (entries.find? fun entry => entry.1.isText key).map Prod.snd
  | _ => none

def library : YamlLibrary YamlNode where
  entries
    | map entries => .ok entries
    | sequence _ => .error "yaml-cpp: bad dereference"
    | _ => .ok []
  isSequence
    | sequence _ => true
    | _ => false
  size
    | sequence elements => elements.length
    | _ => 0
  element
    | sequence elements, i => elements[i]?.elim (.error "yaml-cpp: bad dereference") .ok
    | _, _ => .error "yaml-cpp: bad dereference"
  value node key := (node.field key).elim (.error ("yaml-cpp: key not found: " ++ key)) .ok
  findValue := field
  readString
    | text value => .ok value
    | number value => .ok (toString value)
    | _ => .error "yaml-cpp: invalid scalar"
  readInt
    | number value => .ok value
    | _ => .error "yaml-cpp: invalid scalar"

/-- An object of the GPIOS section with its mandatory fields. -/
def gpio (bcmPin : Int) (role : String) : YamlNode :=
  map [(text "bcm-pin", number bcmPin), (text "role", text role)]

end YamlNode

/-- `config/rocpmd.conf`. -/
def ConfigFile.shipped : ConfigFile YamlNode where
  path := "/etc/rocpmd.conf"
  good := true
  documents := [.ok (.map [
    (.text "GPIOS", .sequence [.gpio 6 "CS_B", .gpio 12 "OFF", .gpio 13 "PGOOD_B", .gpio 16 "UD_B",
      .gpio 5 "REQ_OFF_B", .gpio 20 "D1_B", .gpio 26 "D2_B"]),
    (.text "battery-level-reader", .sequence [.map [
      (.text "battery-level-read-interval", .number 10),
      (.text "battery-level-gpio-delay", .number 10000),
      (.text "battery-level-pgood-delay", .number 500000),
      (.text "battery-level-log", .text "false")]]),
    (.text "powermap", .sequence [.sequence (Config.shipped.powermap.map .number)])])]

/-- The pins, the reader and the powermap of the shipped configuration, in the order of its file. -/
theorem listFile_shipped (dirs : Directories) :
    listFile YamlNode.library dirs .shipped =
      .ok ([.gpio ⟨6, 0, 0, .csB⟩, .gpio ⟨12, 0, 0, .off⟩, .gpio ⟨13, 0, 0, .pgoodB⟩,
        .gpio ⟨16, 0, 0, .udB⟩, .gpio ⟨5, 0, 0, .reqOffB⟩, .gpio ⟨20, 0, 0, .d1B⟩,
        .gpio ⟨26, 0, 0, .d2B⟩, .batteryLevelReader ⟨10, 10000, 500000, false⟩] ++
        Config.shipped.powermap.map .powermapElement) := by
  rfl

end Rocpmd
