import Rocpmd.Config

/-!
# Access to pins through sysfs

Every GPIO access opens a file below `/sys/class/gpio`, reads or writes it once and closes it. What
the files answer is left to a world of any type: it may refuse an access, lose a write or change its
mind between two reads, so a statement about every world covers every pattern of failures.
-/

namespace Rocpmd

/-! ## Status codes -/

def gpioError : Int := -2
def charging : Int := -1
def gpioSuccess : Int := 7

def low : Int := 0
def high : Int := 1
def pudUp : Int := 2
def pudDown : Int := 3
def pudOff : Int := 4
def input : Int := 5
def output : Int := 6

/-! ## Files and worlds -/

inductive GpioFile
  | exportFile
  | unexportFile
  | direction (pin : Int)
  | value (pin : Int)
deriving DecidableEq, Repr

/-- What opening a file and extracting a token from it comes to. The token is empty when the file
opened and nothing could be read. -/
inductive ReadOutcome
  | cannotOpen
  | opened (val : String)
deriving DecidableEq, Repr

/-- The sysfs files and the passing of time over worlds `W`. A write reports whether the file could
be opened; nothing tells the program whether the text arrived. -/
structure Sysfs (W : Type) where
  read : GpioFile → W → ReadOutcome × W
  write : GpioFile → String → W → Bool × W
  usleep : Int → W → W

/-- The same files, none of which can be opened. -/
def Sysfs.shut {W : Type} (fs : Sysfs W) : Sysfs W where
  read := fun _ w => (.cannotOpen, w)
  write := fun _ _ w => (false, w)
  usleep := fs.usleep

/-- Every pin can be written and reads one. -/
def Sysfs.allHigh : Sysfs Unit where
  read := fun _ w => (.opened "1", w)
  write := fun _ _ w => (true, w)
  usleep := fun _ w => w

/-! ## Calls and early returns -/

variable {W : Type}

/-- A function of the program that returns an `int` and acts on the world. -/
abbrev Call (W : Type) := W → Int × W

namespace Call

def ret (n : Int) : Call W := fun w => (n, w)

/-- `status = first; if(status == GPIO_ERROR) { return status; }` followed by the rest. -/
def orReturn (first : Call W) (rest : Int → Call W) : Call W := fun w =>
  if (first w).1 = gpioError then first w else rest (first w).1 (first w).2

/-- `n = first;` followed by the rest, whatever the value is. -/
def andThen (first : Call W) (rest : Int → Call W) : Call W := fun w =>
  rest (first w).1 (first w).2

theorem orReturn_of_error {first : Call W} {w w' : W} (h : first w = (gpioError, w'))
    (rest : Int → Call W) : orReturn first rest w = (gpioError, w') := by
  simp [orReturn, h]

theorem orReturn_of_ne {first : Call W} {w w' : W} {n : Int} (h : first w = (n, w'))
    (hn : n ≠ gpioError) (rest : Int → Call W) : orReturn first rest w = rest n w' := by
  simp [orReturn, h, hn]

/-- A block that returns early returns early from the function it stands in. -/
theorem orReturn_assoc (first : Call W) (second third : Int → Call W) :
    orReturn (orReturn first second) third =
      orReturn first fun n => orReturn (second n) third := by
  funext w
  by_cases hfirst : (first w).1 = gpioError <;> simp [orReturn, hfirst]

end Call

open Call

/-- `DELAY(delay)`, then the rest. -/
def delay (fs : Sysfs W) (duration : Int) (rest : Call W) : Call W := fun w =>
  rest (fs.usleep duration w)

theorem orReturn_delay (fs : Sysfs W) (duration : Int) (first : Call W) (rest : Int → Call W) :
    orReturn (delay fs duration first) rest = delay fs duration (orReturn first rest) := rfl

/-! ## Single accesses -/

variable (fs : Sysfs W)

def digitalWrite (gpionum val : Int) : Call W := fun w =>
  let (isOpen, w') := fs.write (.value gpionum) (toString val) w
  if isOpen then (gpioSuccess, w') else (gpioError, w')

def digitalRead (gpionum : Int) : Call W := fun w =>
  match fs.read (.value gpionum) w with
  | (.cannotOpen, w') => (gpioError, w')
  | (.opened val, w') => if val = "1" then (high, w') else (low, w')

def gpioMapDirection (direction : Int) : String :=
  if direction = input then "in" else if direction = output then "out" else "off"

def gpioInitPin (pinNo : Int) : Call W := fun w =>
  let (isOpen, w') := fs.write .exportFile (toString pinNo) w
  if isOpen then (gpioSuccess, w') else (gpioError, w')

def gpioCleanupPin (pinNo : Int) : Call W := fun w =>
  let (isOpen, w') := fs.write .unexportFile (toString pinNo) w
  if isOpen then (gpioSuccess, w') else (gpioError, w')

def gpioSetPinDirection (pinNo dir : Int) : Call W := fun w =>
  let (isOpen, w') := fs.write (.direction pinNo) (gpioMapDirection dir ++ "\n") w
  if isOpen then (gpioSuccess, w') else (gpioError, w')

theorem digitalRead_of_cannotOpen {gpionum : Int} {w : W}
    (hread : (fs.read (.value gpionum) w).1 = .cannotOpen) :
    (digitalRead fs gpionum w).1 = gpioError := by
  unfold digitalRead
  split
  next => rfl
  next val w' heq => rw [heq] at hread; cases hread

/-- Anything but a one reads as low, also when nothing could be read. -/
theorem digitalRead_of_opened {gpionum : Int} {w : W} {val : String}
    (hread : (fs.read (.value gpionum) w).1 = .opened val) :
    (digitalRead fs gpionum w).1 = if val = "1" then high else low := by
  unfold digitalRead
  split
  next w' heq => rw [heq] at hread; cases hread
  next val' w' heq =>
    rw [heq] at hread
    cases hread
    split <;> rfl

end Rocpmd
