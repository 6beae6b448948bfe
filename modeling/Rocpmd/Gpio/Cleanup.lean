import Rocpmd.Gpio.InitOutcome

/-!
# What gpio_cleanup gives back

`gpio_cleanup` writes the number of one pin after the other and stops at the first file that cannot
be opened. Like `gpio_init` it does not see whether a text arrived.
-/

namespace Rocpmd

open Call

/-! ## Giving back one pin -/

namespace Pin

def unexportBy (access : Access) (pin : Pin) : Bool × Pin :=
  (access ≠ .cannotOpen, if access = .accepted then { pin with exported := false } else pin)

end Pin

section Roles

variable (faults : GpioFile → String → Access) (conf : Config)

theorem take_unexportFile (bank : PinBank) (pin : Int) :
    bank.take (toString pin) .unexportFile =
      Function.update bank pin { bank pin with exported := false } := by
  funext other
  by_cases hother : other = pin
  · subst hother
    simp [PinBank.take]
  · have htext : ¬ toString other = toString pin := fun htext => hother (Int.repr_injective htext)
    rw [Function.update_of_ne hother]
    exact if_neg htext

def unexportAccess (role : Role) : Access := faults .unexportFile (toString (conf.pin role))

theorem gpioCleanupPin_actsOn (role : Role) :
    (gpioCleanupPin (.withFaults faults) (conf.pin role)).ActsOn (conf.pin role)
      (Pin.unexportBy (unexportAccess faults conf role)) := by
  apply actsOn_of_write faults .unexportFile (toString (conf.pin role)) fun _ => true
  · exact fun bank => status_of_write _
  · exact fun bank => rfl
  · exact fun p => (Bool.and_true _).symm
  · intro bank haccepted _
    rw [take_unexportFile, Pin.unexportBy, unexportAccess, if_pos haccepted]
  · exact fun p hlost => if_neg fun haccepted => hlost ⟨haccepted, rfl⟩

/-! ## Giving back all pins -/

/-- The pins given back: those whose number arrives, up to the first file that cannot be opened. -/
def returnedPins (roles : List Role) : List Int :=
  ((roles.takeWhile fun role => unexportAccess faults conf role ≠ .cannotOpen).filter
    fun role => unexportAccess faults conf role = .accepted).map conf.pin

/-- The pins are not exported any more, and otherwise as they were. -/
def PinBank.without (bank : PinBank) (pins : List Int) : PinBank := fun pin =>
  { bank pin with exported := (bank pin).exported && decide (pin ∉ pins) }

theorem PinBank.without_nil (bank : PinBank) : bank.without [] = bank := by
  funext pin
  simp [without]

theorem PinBank.without_cons (bank : PinBank) (pin : Int) (pins : List Int) :
    without (Function.update bank pin { bank pin with exported := false }) pins =
      without bank (pin :: pins) := by
  funext other
  by_cases hother : other = pin
  · subst hother
    simp [without]
  · simp [without, hother]

theorem returnedPins_of_cannotOpen {role : Role} {roles : List Role}
    (haccess : unexportAccess faults conf role = .cannotOpen) :
    returnedPins faults conf (role :: roles) = [] := by
  simp [returnedPins, haccess]

theorem returnedPins_of_refused {role : Role} {roles : List Role}
    (haccess : unexportAccess faults conf role = .refused) :
    returnedPins faults conf (role :: roles) = returnedPins faults conf roles := by
  simp [returnedPins, haccess]

theorem returnedPins_of_accepted {role : Role} {roles : List Role}
    (haccess : unexportAccess faults conf role = .accepted) :
    returnedPins faults conf (role :: roles) =
      conf.pin role :: returnedPins faults conf roles := by
  simp [returnedPins, haccess]

/-- What the cleanup of some roles does: the status says whether every file could be opened. -/
theorem runOps_cleanup (roles : List Role) (bank : PinBank) :
    runOps (.withFaults faults) (roles.map fun role => .cleanupPin (conf.pin role)) bank =
      (if ∀ role ∈ roles, unexportAccess faults conf role ≠ .cannotOpen then gpioSuccess
        else gpioError, bank.without (returnedPins faults conf roles)) := by
  induction roles generalizing bank with
  | nil => exact Prod.ext rfl (PinBank.without_nil bank).symm
  | cons role roles ih =>
      have hfirst := gpioCleanupPin_actsOn faults conf role bank
      rw [List.map_cons, runOps, GpioOp.run]
      cases haccess : unexportAccess faults conf role with
      | cannotOpen =>
          have hfails : ¬ ∀ role' ∈ role :: roles, unexportAccess faults conf role' ≠ .cannotOpen :=
            fun hopens => hopens role List.mem_cons_self haccess
          rw [if_neg hfails, returnedPins_of_cannotOpen faults conf haccess, PinBank.without_nil]
          apply orReturn_of_error
          simpa [Pin.unexportBy, haccess] using hfirst
      | refused =>
          rw [returnedPins_of_refused faults conf haccess]
          have hstep : gpioCleanupPin (.withFaults faults) (conf.pin role) bank =
              (gpioSuccess, bank) := by
            simpa [Pin.unexportBy, haccess] using hfirst
          rw [orReturn_of_ne hstep (by decide), ih]
          simp [haccess]
      | accepted =>
          rw [returnedPins_of_accepted faults conf haccess, ← PinBank.without_cons]
          have hstep : gpioCleanupPin (.withFaults faults) (conf.pin role) bank = (gpioSuccess,
              Function.update bank (conf.pin role)
                { bank (conf.pin role) with exported := false }) := by
            simpa [Pin.unexportBy, haccess] using hfirst
          rw [orReturn_of_ne hstep (by decide), ih]
          simp [haccess]

theorem gpioCleanup_pins (bank : PinBank) :
    (gpioCleanup (.withFaults faults) conf bank).2 =
      bank.without (returnedPins faults conf cleanupOrder) :=
  congrArg Prod.snd (runOps_cleanup faults conf cleanupOrder bank)

theorem mem_range_of_mem_returnedPins {roles : List Role} {pin : Int}
    (hpin : pin ∈ returnedPins faults conf roles) : pin ∈ Set.range conf.pin := by
  obtain ⟨role, -, rfl⟩ := List.mem_map.mp hpin
  exact ⟨role, rfl⟩

theorem gpioCleanup_eqOn (bank : PinBank) :
    Set.EqOn (gpioCleanup (.withFaults faults) conf bank).2 bank (Set.range conf.pin)ᶜ := by
  intro pin hpin
  have hkept : pin ∉ returnedPins faults conf cleanupOrder :=
    fun hmem => hpin (mem_range_of_mem_returnedPins faults conf hmem)
  rw [gpioCleanup_pins]
  simp [PinBank.without, hkept]

/-- All pins of the roles are given back exactly if every number arrives. -/
theorem forall_mem_returnedPins_iff :
    (∀ role, conf.pin role ∈ returnedPins faults conf cleanupOrder) ↔
      ∀ role, unexportAccess faults conf role = .accepted := by
  constructor
  · intro hreturned role
    obtain ⟨other, hother, hpin⟩ := List.mem_map.mp (hreturned role)
    have haccess := of_decide_eq_true (List.mem_filter.mp hother).2
    rwa [unexportAccess, hpin] at haccess
  · intro haccepted role
    refine List.mem_map_of_mem (List.mem_filter.mpr ⟨?_, decide_eq_true (haccepted role)⟩)
    rw [List.takeWhile_eq_self_iff.mpr]
    · exact mem_cleanupOrder role
    · intro other _
      simp [haccepted other]

end Roles

end Rocpmd
