import Mathlib
import Rocpmd.Gpio.Operations

/-!
# Pins behind the files

Pins with a direction and a level, and files that refuse to be opened or to take what is written. A
call that opens one file acts on one pin, and its status says only whether the file could be opened.
-/

namespace Rocpmd

open Call

/-! ## Banks of pins -/

/-- What an attempt to write a text to a file comes to: it cannot be opened, the text is refused
once it is open, or the text arrives. -/
inductive Access
  | cannotOpen | refused | accepted
deriving DecidableEq, Repr

theorem Access.refused_or_accepted {access : Access} (hopens : access ≠ .cannotOpen) :
    access = .refused ∨ access = .accepted := by
  cases access with
  | cannotOpen => exact absurd rfl hopens
  | refused => exact .inl rfl
  | accepted => exact .inr rfl

structure Pin where
  exported : Bool
  isOutput : Bool
  level : Bool
deriving DecidableEq, Repr

/-- All pins of the board. -/
abbrev PinBank := Int → Pin

namespace PinBank

/-- The files of a pin exist while it is exported. -/
def hasFile (bank : PinBank) : GpioFile → Bool
  | .exportFile | .unexportFile => true
  | .direction pin | .value pin => (bank pin).exported

/-- A pin turned to output is low; the level of an input cannot be set. -/
def take (bank : PinBank) (text : String) : GpioFile → PinBank
  | .exportFile => fun pin =>
      if toString pin = text then { bank pin with exported := true } else bank pin
  | .unexportFile => fun pin =>
      if toString pin = text then { bank pin with exported := false } else bank pin
  | .direction pin => Function.update bank pin <|
      if text = "in\n" then { bank pin with isOutput := false }
      else if text = "out\n" then { bank pin with isOutput := true, level := false }
      else bank pin
  | .value pin => Function.update bank pin <|
      if (bank pin).isOutput then { bank pin with level := text != "0" } else bank pin

end PinBank

/-- The files of a bank of pins, each text of which has its fate. `gpio_init` writes no text twice
to a file, if no two roles share a pin. -/
def Sysfs.withFaults (faults : GpioFile → String → Access) : Sysfs PinBank where
  read file bank :=
    match file with
    | .value pin =>
        if (bank pin).exported then (.opened (if (bank pin).level then "1" else "0"), bank)
        else (.cannotOpen, bank)
    | _ => (.opened "", bank)
  write file text bank :=
    if faults file text = .cannotOpen ∨ bank.hasFile file = false then (false, bank)
    else if faults file text = .refused then (true, bank)
    else (true, bank.take text file)
  usleep _ bank := bank

/-! ## Calls that act on one pin -/

namespace Pin

/-- Two acts on a pin, the second one if the first succeeded. -/
def andThen (first second : Pin → Bool × Pin) (pin : Pin) : Bool × Pin :=
  if (first pin).1 then second (first pin).2 else first pin

def exportBy (access : Access) (pin : Pin) : Bool × Pin :=
  (access ≠ .cannotOpen, if access = .accepted then { pin with exported := true } else pin)

def direct (access : Access) (dir : Int) (pin : Pin) : Bool × Pin :=
  (access ≠ .cannotOpen && pin.exported,
    if access = .accepted ∧ pin.exported = true then
      { pin with isOutput := dir ≠ input, level := dir = input && pin.level }
    else pin)

def raise (access : Access) (pin : Pin) : Bool × Pin :=
  (access ≠ .cannotOpen && pin.exported,
    if access = .accepted ∧ pin.exported = true ∧ pin.isOutput = true then
      { pin with level := true }
    else pin)

theorem andThen_succeeds_iff (first second : Pin → Bool × Pin) (pin : Pin) :
    (andThen first second pin).1 = true ↔
      (first pin).1 = true ∧ (second (first pin).2).1 = true := by
  unfold andThen
  split
  next hfirst => simp [hfirst]
  next hfirst => simp [hfirst]

theorem andThen_of_succeeds {first second : Pin → Bool × Pin} {pin : Pin}
    (hfirst : (first pin).1 = true) : andThen first second pin = second (first pin).2 :=
  if_pos hfirst

/-- A field that the second act leaves alone is as the first one left it. -/
theorem andThen_field {α : Type} (field : Pin → α) {first second : Pin → Bool × Pin}
    (hsecond : ∀ pin, field (second pin).2 = field pin) (pin : Pin) :
    field (andThen first second pin).2 = field (first pin).2 := by
  unfold andThen
  split
  next => exact hsecond _
  next => rfl

variable (access : Access) (dir : Int) (pin : Pin)

theorem exportBy_succeeds_iff : (exportBy access pin).1 = true ↔ access ≠ .cannotOpen :=
  decide_eq_true_iff

theorem direct_succeeds_iff :
    (direct access dir pin).1 = true ↔ access ≠ .cannotOpen ∧ pin.exported = true := by
  rw [direct, Bool.and_eq_true, decide_eq_true_iff]

theorem raise_succeeds_iff :
    (raise access pin).1 = true ↔ access ≠ .cannotOpen ∧ pin.exported = true := by
  rw [raise, Bool.and_eq_true, decide_eq_true_iff]

theorem direct_exported : (direct access dir pin).2.exported = pin.exported := by
  unfold direct
  dsimp only
  split <;> rfl

theorem raise_exported : (raise access pin).2.exported = pin.exported := by
  unfold raise
  dsimp only
  split <;> rfl

theorem exportBy_exported :
    (exportBy access pin).2.exported = (pin.exported || access = .accepted) := by
  unfold exportBy
  by_cases haccess : access = .accepted <;> simp [haccess]

end Pin

/-- Nothing is left to do. -/
theorem Pin.andThen_done (act : Pin → Bool × Pin) :
    Pin.andThen act (fun pin => (true, pin)) = act := by
  funext pin
  unfold Pin.andThen
  split
  next hact => exact Prod.ext hact.symm rfl
  next => rfl

/-- The call changes a single pin, and its status depends on that pin alone. -/
def Call.ActsOn (call : Call PinBank) (pin : Int) (act : Pin → Bool × Pin) : Prop :=
  ∀ bank, call bank = (if (act (bank pin)).1 then gpioSuccess else gpioError,
    Function.update bank pin (act (bank pin)).2)

theorem Call.ActsOn.orReturn {first second : Call PinBank} {pin : Int}
    {act act' : Pin → Bool × Pin} (hfirst : first.ActsOn pin act)
    (hsecond : second.ActsOn pin act') :
    (Call.orReturn first fun _ => second).ActsOn pin (Pin.andThen act act') := by
  intro bank
  unfold Call.orReturn Pin.andThen
  rw [hfirst bank]
  by_cases hact : (act (bank pin)).1 = true
  · simp [hact, hsecond _, gpioSuccess, gpioError]
  · simp [hact]

section Acting

variable (faults : GpioFile → String → Access)

theorem write_withFaults (file : GpioFile) (text : String) (bank : PinBank) :
    (Sysfs.withFaults faults).write file text bank =
      (faults file text ≠ .cannotOpen && bank.hasFile file,
        if faults file text = .accepted ∧ bank.hasFile file = true then bank.take text file
        else bank) := by
  cases hfile : bank.hasFile file <;> cases haccess : faults file text <;>
    simp [Sysfs.withFaults, hfile, haccess]

theorem status_of_write (written : Bool × PinBank) :
    (let (isOpen, bank) := written
      if isOpen then (gpioSuccess, bank) else (gpioError, bank)) =
        (if written.1 then gpioSuccess else gpioError, written.2) := by
  obtain ⟨isOpen, bank⟩ := written
  cases isOpen <;> rfl

/-- A call that writes a text acts on a pin as the file does, if the file exists and the text
arrives. -/
theorem actsOn_of_write {call : Call PinBank} (file : GpioFile) (text : String) {pin : Int}
    {act : Pin → Bool × Pin} (present : Pin → Bool)
    (hcall : ∀ bank, call bank =
      (if ((Sysfs.withFaults faults).write file text bank).1 then gpioSuccess else gpioError,
        ((Sysfs.withFaults faults).write file text bank).2))
    (hpresent : ∀ bank : PinBank, bank.hasFile file = present (bank pin))
    (hopen : ∀ p, (act p).1 = (faults file text ≠ .cannotOpen && present p))
    (harrived : ∀ bank : PinBank, faults file text = .accepted → present (bank pin) = true →
      Function.update bank pin (act (bank pin)).2 = bank.take text file)
    (hlost : ∀ p, ¬ (faults file text = .accepted ∧ present p = true) → (act p).2 = p) :
    call.ActsOn pin act := by
  intro bank
  rw [hcall, write_withFaults, hopen, hpresent]
  by_cases harrives : faults file text = .accepted ∧ present (bank pin) = true
  · rw [if_pos harrives, harrived bank harrives.1 harrives.2]
  · rw [if_neg harrives, hlost _ harrives, Function.update_eq_self]

theorem take_exportFile (bank : PinBank) (pin : Int) :
    bank.take (toString pin) .exportFile =
      Function.update bank pin { bank pin with exported := true } := by
  funext other
  by_cases hother : other = pin
  · subst hother
    simp [PinBank.take]
  · have htext : ¬ toString other = toString pin := fun htext => hother (Int.repr_injective htext)
    rw [Function.update_of_ne hother]
    exact if_neg htext

theorem gpioInitPin_actsOn (pin : Int) :
    (gpioInitPin (.withFaults faults) pin).ActsOn pin
      (Pin.exportBy (faults .exportFile (toString pin))) := by
  apply actsOn_of_write faults .exportFile (toString pin) fun _ => true
  · exact fun bank => status_of_write _
  · exact fun bank => rfl
  · exact fun p => (Bool.and_true _).symm
  · intro bank haccepted _
    rw [take_exportFile, Pin.exportBy, if_pos haccepted]
  · exact fun p hlost => if_neg fun haccepted => hlost ⟨haccepted, rfl⟩

theorem gpioSetPinDirection_actsOn (pin : Int) {dir : Int} (hdir : dir = input ∨ dir = output) :
    (gpioSetPinDirection (.withFaults faults) pin dir).ActsOn pin
      (Pin.direct (faults (.direction pin) (gpioMapDirection dir ++ "\n")) dir) := by
  apply actsOn_of_write faults (.direction pin) (gpioMapDirection dir ++ "\n") Pin.exported
  · exact fun bank => status_of_write _
  · exact fun bank => rfl
  · exact fun p => rfl
  · intro bank haccepted hexported
    rw [Pin.direct, if_pos ⟨haccepted, hexported⟩]
    rcases hdir with rfl | rfl <;> rfl
  · exact fun p hlost => if_neg hlost

theorem digitalWrite_actsOn (pin : Int) :
    (digitalWrite (.withFaults faults) pin high).ActsOn pin
      (Pin.raise (faults (.value pin) "1")) := by
  apply actsOn_of_write faults (.value pin) "1" Pin.exported
  · exact fun bank => status_of_write _
  · exact fun bank => rfl
  · exact fun p => rfl
  · intro bank haccepted hexported
    rw [Pin.raise, PinBank.take]
    by_cases houtput : (bank pin).isOutput = true <;> simp [haccepted, hexported, houtput]
  · exact fun p hlost => if_neg fun h => hlost ⟨h.1, h.2.1⟩

end Acting

end Rocpmd
