import Rocpmd.Config
import Rocpmd.Foundation.Reading
import Rocpmd.Gpio.Sysfs

/-!
# Loading the configuration

The constructor of `config`: a loop over the documents of a YAML stream, over the entries of each
document and over the items of an entry. The YAML library is a parameter. All its exceptions are
runtime errors, as are those of the validation, so an error is its text.
-/

namespace Rocpmd

open Foundation

/-! ## What is outside -/

/-- The operations of the YAML library on its nodes. -/
structure YamlLibrary (Node : Type) where
  /-- The keys and values that iterating over a document goes through. -/
  entries : Node → Except String (List (Node × Node))
  isSequence : Node → Bool
  size : Node → ℕ
  element : Node → ℕ → Except String Node
  value : Node → String → Except String Node
  findValue : Node → String → Option Node
  readString : Node → Except String String
  readInt : Node → Except String Int

/-- What `access` finds at a path. -/
structure Directories where
  existing : String → Bool
  readable : String → Bool

/-! ## Error messages -/

def configErrPrefix : String := "Configuration File Error: "

def errorGpioMsgSequence : String :=
  configErrPrefix ++ "The GPIO field must be followed by a " ++
    "sequnece of GPIO no more that 40 profile objects:\n\n" ++
    "GPIO:\n" ++
    "  - bcm-pin: 1\n" ++
    "    direction: input\n" ++
    "    resistor: up\n" ++
    "  - bcm-pin: 2\n" ++
    "    direction: output\n" ++
    "    resistor: down\n" ++
    "    ...etc."

def errorGpioMsgPinNo (pinNo : Int) : String :=
  configErrPrefix ++ "Invalid GPIO pin number: '" ++ toString pinNo ++
    "', Legal Broadcom GPIO pin numbers are:\n" ++
    "    2,  3,  4,  17, 27, 22, 10, 9, 11,  5,  6, 13, 19, 26,\n" ++
    "    14, 15, 18, 23, 24, 25,  8, 7, 12, 16, 20, 21"

def errorGpioMsgRole (role : String) : String :=
  configErrPrefix ++ "Invalid GPIO role: '" ++ role ++ "', Legal roles for GPIO pins are:\n" ++
    "    CS_B, OFF, PGOOD_B, UD_B, REQ_OFF_B, D1_B and D2_B"

/-! ## Input validation -/

/-- Throw the message unless the check succeeds. -/
def validate (legal : Bool) (msg : String) : Except String Unit :=
  if legal then .ok () else .error msg

theorem validate_ok_iff {legal : Bool} {msg : String} :
    validate legal msg = .ok () ↔ legal = true := by
  cases legal <;> simp [validate]

def legalBcmPiPins : List Int :=
  [2, 3, 4, 17, 27, 22, 10, 9, 11, 5, 6, 13, 19, 26,
    14, 15, 18, 23, 24, 25, 8, 7, 12, 16, 20, 21]

def legalRoles : List String :=
  ["CS_B", "OFF", "PGOOD_B", "UD_B", "REQ_OFF_B", "D1_B", "D2_B"]

def validateGpioPin (pinNo : Int) : Except String Unit :=
  validate (legalBcmPiPins.contains pinNo) (errorGpioMsgPinNo pinNo)

def validateGpioRole (role : String) : Except String Unit :=
  validate (legalRoles.contains role) (errorGpioMsgRole role)

def validateGpioDirection (direction : String) : Except String Unit :=
  validate (direction == "input" || direction == "output")
    (configErrPrefix ++ "The value of the direction field can only be [input|output].")

def validateGpioResistor (resistor : String) : Except String Unit :=
  validate (resistor == "pull_up" || resistor == "pull_down" || resistor == "none")
    (configErrPrefix ++ "The value of the resistor field can only be [pull_up|pull_down|none].")

def validatePort (port : Int) : Except String Unit :=
  validate (0 ≤ port && port ≤ 0xFFFF)
    (configErrPrefix ++ "The range of legal port numbers is between 0 and 65535.")

def validateDelay (delay : Int) : Except String Unit :=
  validate (0 < delay) (configErrPrefix ++ "A time delay value must be greater than 0." ++ "\n")

def validateDirectory (dirs : Directories) (path : String) : Except String Unit := do
  let msg := configErrPrefix ++ "The directory: " ++ path
  validate (dirs.existing path) (msg ++ " does not exist.")
  validate (dirs.readable path) (msg ++ " is not readable.")

/-! ## Reading the items of the sections -/

/-- `CFG_NOVAL`: the file does not give the field. -/
def cfgNoval : Int := 0

/-- The role a validated name stands for: `D2_B` is the only one the comparisons leave. -/
def mapGpioRole (role : String) : Role :=
  if role = "CS_B" then .csB
  else if role = "OFF" then .off
  else if role = "PGOOD_B" then .pgoodB
  else if role = "UD_B" then .udB
  else if role = "REQ_OFF_B" then .reqOffB
  else if role = "D1_B" then .d1B
  else .d2B

def mapDirection (direction : String) : Int := if direction = "input" then input else output

def mapResistor (resistor : String) : Int :=
  if resistor = "pull_up" then pudUp else if resistor = "pull_down" then pudDown else pudOff

section Reading

variable {Node : Type} (lib : YamlLibrary Node) (dirs : Directories)

/-- `node[key] >> value` for an `int` and for a `string`. -/
def readIntField (node : Node) (key : String) : Except String Int := do
  lib.readInt (← lib.value node key)

def readStringField (node : Node) (key : String) : Except String String := do
  lib.readString (← lib.value node key)

/-- A field that may be missing: it is validated and mapped if it is there. -/
def readOptional (node : Node) (key : String) (validateField : String → Except String Unit)
    (map : String → Int) : Except String Int :=
  match lib.findValue node key with
  | none => pure cfgNoval
  | some _ => do
      let value ← readStringField lib node key
      validateField value
      pure (map value)

def readGpio (node : Node) : Except String ConfigGpio := do
  let bcmPin ← readIntField lib node "bcm-pin"
  validateGpioPin bcmPin
  let role ← readStringField lib node "role"
  validateGpioRole role
  let direction ← readOptional lib node "direction" validateGpioDirection mapDirection
  let resistor ← readOptional lib node "resistor" validateGpioResistor mapResistor
  pure ⟨bcmPin, direction, resistor, mapGpioRole role⟩

/-- The port is only checked: nothing asks for it. -/
def readSocket (node : Node) : Except String Unit := do
  validatePort (← readIntField lib node "port")

def readWebsocket (node : Node) : Except String Unit := do
  validatePort (← readIntField lib node "port")
  validateDirectory dirs (← readStringField lib node "resource-path")

def readDelay (node : Node) (key : String) : Except String Int := do
  let delay ← readIntField lib node key
  validateDelay delay
  pure delay

def readBatteryLevelReader (node : Node) : Except String ConfigBatteryLevelReader := do
  let readInterval ← readDelay lib node "battery-level-read-interval"
  let gpioDelay ← readDelay lib node "battery-level-gpio-delay"
  let pgoodDelay ← readDelay lib node "battery-level-pgood-delay"
  let batteryLevelLog ← readStringField lib node "battery-level-log"
  pure ⟨readInterval, gpioDelay, pgoodDelay, batteryLevelLog == "true"⟩

def readElement (node : Node) (i : ℕ) : Except String Int := do
  lib.readInt (← lib.element node i)

end Reading

/-! ## The constructor -/

/-- A value that loading a file assigns to a field of the configuration. -/
inductive Assignment
  | gpio (gpio : ConfigGpio)
  | powermapElement (element : Int)
  | batteryLevelReader (batteryLevelReader : ConfigBatteryLevelReader)
deriving DecidableEq, Repr

namespace Config

def assignGpio (conf : Config) (gpio : ConfigGpio) : Config :=
  match gpio.role with
  | .off => { conf with off := gpio }
  | .reqOffB => { conf with reqOff := gpio }
  | .csB => { conf with cs := gpio }
  | .udB => { conf with ud := gpio }
  | .pgoodB => { conf with pgood := gpio }
  | .d1B => { conf with d1 := gpio }
  | .d2B => { conf with d2 := gpio }

def assign (conf : Config) : Assignment → Config
  | .gpio gpio => conf.assignGpio gpio
  | .powermapElement element => { conf with powermap := conf.powermap ++ [element] }
  | .batteryLevelReader reader => { conf with batteryLevelReader := reader }

end Config

/-- The file at the path, if it can be opened, and what the parser makes of it: the documents in
order, up to one that it gives up on. -/
structure ConfigFile (Node : Type) where
  path : String
  good : Bool
  documents : List (Except String Node)

def errorFileMsg (path : String) : String :=
  "The configuration file '" ++ path ++ "' either could not be found or " ++
    "or you have insufficent privileges to access it."

section Loading

variable {Node : Type} (lib : YamlLibrary Node) (dirs : Directories)

/-- `for(i = 0; i < doc_value.size(); i++)` over the objects of the GPIOS section. -/
def loadGpios (conf : Config) (docValue : Node) : Except String Config := do
  validate (lib.isSequence docValue) errorGpioMsgSequence
  validate (lib.size docValue ≤ 40) errorGpioMsgSequence
  (List.range (lib.size docValue)).foldlM (fun conf i => do
    let gpio ← readGpio lib (← lib.element docValue i)
    pure (conf.assign (.gpio gpio))) conf

/-- `node >> powermap`: the elements are pushed behind those of an earlier list. -/
def loadPowermap (conf : Config) (node : Node) : Except String Config :=
  (List.range (lib.size node)).foldlM (fun conf i => do
    let element ← readElement lib node i
    pure (conf.assign (.powermapElement element))) conf

def loadEntry (conf : Config) (entry : Node × Node) : Except String Config := do
  let key ← lib.readString entry.1
  if key = "GPIOS" then loadGpios lib conf entry.2
  else if key = "websocket" then do
    readWebsocket lib dirs (← lib.element entry.2 0)
    pure conf
  else if key = "berkleysocket" then do
    readSocket lib (← lib.element entry.2 0)
    pure conf
  else if key = "powermap" then do
    loadPowermap lib conf (← lib.element entry.2 0)
  else if key = "battery-level-reader" then do
    let reader ← readBatteryLevelReader lib (← lib.element entry.2 0)
    pure (conf.assign (.batteryLevelReader reader))
  else pure conf

def loadDocument (conf : Config) (document : Except String Node) : Except String Config := do
  (← lib.entries (← document)).foldlM (loadEntry lib dirs) conf

/-- The constructor, in memory that may hold anything: only the powermap is initialised. -/
def Config.load (memory : Config) (file : ConfigFile Node) : Except String Config := do
  validate file.good (errorFileMsg file.path)
  file.documents.foldlM (loadDocument lib dirs) { memory with powermap := [] }

end Loading

end Rocpmd
