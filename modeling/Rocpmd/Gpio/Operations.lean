import Rocpmd.Gpio.Sysfs

/-!
# Setting pins up, tearing them down, and the plain reads and writes

`gpio_init` and `gpio_cleanup` are fixed sequences of accesses, each followed by the same early
return. They are kept as lists of operations, so that a model of several processes can let other
processes act between two of them.
-/

namespace Rocpmd

open Call

variable {W : Type} (fs : Sysfs W) (conf : Config)

inductive GpioOp
  | initPin (pinNo : Int)
  | setPinDirection (pinNo dir : Int)
  | digitalWrite (pinNo val : Int)
  | cleanupPin (pinNo : Int)
deriving DecidableEq, Repr

def GpioOp.run : GpioOp → Call W
  | .initPin pinNo => gpioInitPin fs pinNo
  | .setPinDirection pinNo dir => gpioSetPinDirection fs pinNo dir
  | .digitalWrite pinNo val => Rocpmd.digitalWrite fs pinNo val
  | .cleanupPin pinNo => gpioCleanupPin fs pinNo

/-- Run the operations in order and return at the first error. -/
def runOps : List GpioOp → Call W
  | [] => ret gpioSuccess
  | op :: rest => orReturn (op.run fs) fun _ => runOps rest

/-! ## gpio_init and gpio_cleanup -/

def gpioInitOps : List GpioOp :=
  [.initPin (conf.pin .off), .setPinDirection (conf.pin .off) output,
    .initPin (conf.pin .reqOffB), .setPinDirection (conf.pin .reqOffB) input,
    .initPin (conf.pin .csB), .setPinDirection (conf.pin .csB) output,
    .digitalWrite (conf.pin .csB) high,
    .initPin (conf.pin .udB), .setPinDirection (conf.pin .udB) output,
    .initPin (conf.pin .pgoodB), .setPinDirection (conf.pin .pgoodB) input,
    .initPin (conf.pin .d1B), .setPinDirection (conf.pin .d1B) input,
    .initPin (conf.pin .d2B), .setPinDirection (conf.pin .d2B) input]

def gpioInit : Call W := runOps fs (gpioInitOps conf)

/-- The order in which `gpio_cleanup` gives the pins back. -/
def cleanupOrder : List Role := [.off, .reqOffB, .csB, .udB, .pgoodB, .d1B, .d2B]

/-- The direction `gpio_init` programs for the pin of a role. -/
def initDirection : Role → Int
  | .off | .csB | .udB => output
  | .reqOffB | .pgoodB | .d1B | .d2B => input

/-- What `gpio_init` does with the pin of a role: CS_B is driven high besides. -/
def initOps (role : Role) : List GpioOp :=
  [.initPin (conf.pin role), .setPinDirection (conf.pin role) (initDirection role)] ++
    if role = .csB then [.digitalWrite (conf.pin role) high] else []

/-- The pins are set up one after the other, in the order in which they are given back. -/
theorem gpioInitOps_eq : gpioInitOps conf = cleanupOrder.flatMap (initOps conf) := rfl

def gpioCleanupOps : List GpioOp := cleanupOrder.map fun role => .cleanupPin (conf.pin role)

def gpioCleanup : Call W := runOps fs (gpioCleanupOps conf)

/-- Which of the operations find their file, up to the first that does not. -/
def opOutcomes : List GpioOp → W → List Bool
  | [], _ => []
  | op :: rest, w =>
      if (op.run fs w).1 = gpioError then [false]
      else true :: opOutcomes rest (op.run fs w).2

/-! ## The OFF signal -/

/-- `n` rounds of the loop in `gpio_write_off`; the delays are longer here because of debounce. -/
def pulseOff (pinNoOff : Int) : ℕ → Call W
  | 0 => ret gpioSuccess
  | n + 1 =>
      orReturn (digitalWrite fs pinNoOff high) fun _ =>
      delay fs 200000 <|
      orReturn (digitalWrite fs pinNoOff low) fun _ =>
      delay fs 200000 <|
      pulseOff pinNoOff n

def gpioWriteOff : Call W := pulseOff fs (conf.pin .off) 3

theorem gpioWriteOff_shut (w : W) : gpioWriteOff fs.shut conf w = (gpioError, w) := rfl

/-! ## Reads of active low inputs -/

/-- The `!` of C on an `int`. -/
def cNot (n : Int) : Int := if n = 0 then 1 else 0

/-- Read an active low pin: one when it is asserted, and the status code when it cannot be read. -/
def readAsserted (pinNo : Int) : Call W :=
  orReturn (digitalRead fs pinNo) fun status => ret (cNot status)

def gpioReadReqOff : Call W := readAsserted fs (conf.pin .reqOffB)

def gpioReadD1 : Call W := readAsserted fs (conf.pin .d1B)

def gpioReadD2 : Call W := readAsserted fs (conf.pin .d2B)

theorem gpioReadReqOff_shut (w : W) : gpioReadReqOff fs.shut conf w = (gpioError, w) := rfl

theorem readAsserted_of_cannotOpen {pinNo : Int} {w : W}
    (hread : (fs.read (.value pinNo) w).1 = .cannotOpen) :
    (readAsserted fs pinNo w).1 = gpioError := by
  have hvalue := digitalRead_of_cannotOpen fs hread
  simp [readAsserted, orReturn, hvalue]

theorem readAsserted_of_opened {pinNo : Int} {w : W} {val : String}
    (hread : (fs.read (.value pinNo) w).1 = .opened val) :
    (readAsserted fs pinNo w).1 = if val = "1" then 0 else 1 := by
  have hvalue := digitalRead_of_opened fs hread
  by_cases hval : val = "1" <;>
    simp [readAsserted, orReturn, hvalue, hval, ret, cNot, high, low, gpioError]

/-- The call answers zero, "not asserted", in one case only: the file reads one. Every failure to
read the pin is true in a C condition. -/
theorem readAsserted_eq_zero_iff (pinNo : Int) (w : W) :
    (readAsserted fs pinNo w).1 = 0 ↔ (fs.read (.value pinNo) w).1 = .opened "1" := by
  cases hread : (fs.read (.value pinNo) w).1 with
  | cannotOpen => simp [readAsserted_of_cannotOpen fs hread, gpioError]
  | opened val => simp [readAsserted_of_opened fs hread]

end Rocpmd
