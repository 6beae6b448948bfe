import Rocpmd.Board.BoardPins
import Rocpmd.Client.QueryPaths
import Rocpmd.Daemon.Session

/-!
# One action on the board

While no daemon lives, `main` itself sets the pins up, measures, signals OFF and gives the pins
back. Whatever it finds there, the lines it prints tell what the board shows, and it cuts the power
if it is asked to and not otherwise.
-/

namespace Rocpmd

open Call Foundation

section Main

variable {W : Type} (fs : Sysfs W) (conf : Config) (opts : CmdlineOptions)

/-- The part of `main` that answers a query by sysfs: the lines printed and the world behind it. -/
def queryBySysfs (w : W) : List ReportLine × W :=
  if opts.queries then
    let rawPower := gpioReadBatteryLevelRaw fs conf w
    (reportBySysfs opts conf rawPower.1, rawPower.2)
  else ([], w)

/-- The part that powers off. -/
def powerOffIfAsked (w : W) : W := if opts.isPowerOff then (gpioWriteOff fs conf w).2 else w

/-- `main` from the first look at the lock file on, if an option asks for an action and no daemon is
found to live. What comes back from `gpio_init` is not looked at. -/
def commandMode (w : W) : List ReportLine × W :=
  let queried := queryBySysfs fs conf opts (gpioInit fs conf w).2
  (queried.1, (gpioCleanup fs conf (powerOffIfAsked fs conf opts queried.2)).2)

end Main

namespace Installation

variable (install : Installation)

/-! ## Giving the pins back -/

section Cleanup

variable (pins : BoardPins)

def giveBackPin (pins : BoardPins) (role : Role) : BoardPins :=
  { pins with exported := Function.update pins.exported (install.conf.pin role) false }

theorem runOps_giveBack (roles : List Role) :
    runOps install.pinFiles (roles.map fun role => .cleanupPin (install.conf.pin role)) pins =
      (gpioSuccess, roles.foldl install.giveBackPin pins) := by
  induction roles generalizing pins with
  | nil => rfl
  | cons role roles ih =>
      rw [List.map_cons, runOps, GpioOp.run,
        orReturn_of_ne (install.gpioCleanupPin_pinFiles pins _) (by decide)]
      exact ih (install.giveBackPin pins role)

theorem giveBack_exported (roles : List Role) (pin : Int) :
    (roles.foldl install.giveBackPin pins).exported pin =
      (pins.exported pin && decide (∀ role ∈ roles, install.conf.pin role ≠ pin)) := by
  induction roles generalizing pins with
  | nil => simp
  | cons role roles ih =>
      rw [List.foldl_cons, ih, giveBackPin]
      by_cases hpin : pin = install.conf.pin role
      · simp [hpin]
      · simp [hpin, Ne.symm hpin]

theorem giveBack_rest (roles : List Role) :
    (roles.foldl install.giveBackPin pins).isOutput = pins.isOutput ∧
      (roles.foldl install.giveBackPin pins).field = pins.field := by
  induction roles generalizing pins with
  | nil => exact ⟨rfl, rfl⟩
  | cons role roles ih => exact ih (install.giveBackPin pins role)

end Cleanup

/-! ## Measuring and signalling -/

/-- No pin is exported, given back or turned round. -/
structure SamePins (before after : BoardPins) : Prop where
  exported : after.exported = before.exported
  isOutput : after.isOutput = before.isOutput

theorem samePins_write (pin : Int) (text : String) (pins : BoardPins) :
    SamePins pins (install.pinFiles.write (.value pin) text pins).2 := by
  simp only [pinFiles]
  split_ifs <;> exact ⟨rfl, rfl⟩

theorem samePins_measurementKeeps :
    install.pinFiles.MeasurementKeeps install.conf SamePins where
  refl _ := ⟨rfl, rfl⟩
  trans _ _ _ hfirst hsecond :=
    ⟨hsecond.exported.trans hfirst.exported, hsecond.isOutput.trans hfirst.isOutput⟩
  read file pins := by
    cases file <;> simp only [pinFiles]
    case value => split <;> exact ⟨rfl, rfl⟩
    all_goals exact ⟨rfl, rfl⟩
  usleep _ _ := ⟨rfl, rfl⟩
  writeUd := install.samePins_write _
  writeCs := install.samePins_write _

/-- A measurement on pins that are set up, with CS_B negated. -/
theorem measurement_pinFiles {pins : BoardPins} (hready : install.Ready pins)
    (hselect : pins.field.comparator.select = true) :
    let out := gpioReadBatteryLevelRaw install.pinFiles install.conf pins
    pins.field.IsReading out.1 ∧ install.Ready out.2 ∧ SamePins pins out.2 ∧
      out.2.field.controller = pins.field.controller ∧
      out.2.field.comparator.select = true := by
  obtain ⟨hreadyAfter, hseen⟩ := install.pinFiles_view.gpioReadBatteryLevelRaw pins hready
  have hfinds := install.measurement_finds pins.field hselect
  have hcontroller := install.measurement_controller pins.field
  rw [hseen] at hfinds hcontroller
  exact ⟨hfinds.1, hreadyAfter, install.samePins_measurementKeeps.gpioReadBatteryLevelRaw pins,
    hcontroller, hfinds.2.1⟩

/-- The OFF signal on pins that are set up. -/
theorem gpioWriteOff_pinFiles {pins : BoardPins} (hready : install.Ready pins) :
    let out := gpioWriteOff install.pinFiles install.conf pins
    SamePins pins out.2 ∧ out.2.field = { pins.field with controller := ⟨.powerOff, false⟩ } := by
  obtain ⟨-, hseen⟩ := install.pinFiles_view.gpioWriteOff pins hready
  have hcut := install.gpioWriteOff_eq pins.field
  rw [hseen] at hcut
  exact ⟨install.samePins_measurementKeeps.pulseOff (install.samePins_write _) 3 pins, hcut⟩

/-! ## The parts of main -/

theorem queryBySysfs_pinFiles (opts : CmdlineOptions) {pins : BoardPins}
    (hready : install.Ready pins) (hselect : pins.field.comparator.select = true) :
    let out := queryBySysfs install.pinFiles install.conf opts pins
    (∃ reading, pins.field.IsReading reading ∧ out.1 = linesBySysfs opts install.conf reading) ∧
      install.Ready out.2 ∧ SamePins pins out.2 ∧
      out.2.field.controller = pins.field.controller ∧
      out.2.field.comparator.select = true := by
  obtain ⟨hreading, hrest⟩ := install.measurement_pinFiles hready hselect
  dsimp only [queryBySysfs, linesBySysfs]
  by_cases hqueries : opts.queries = true
  · rw [if_pos hqueries]
    exact ⟨⟨_, hreading, (if_pos hqueries).symm⟩, hrest⟩
  · rw [if_neg hqueries]
    exact ⟨⟨_, hreading, (if_neg hqueries).symm⟩, hready, ⟨rfl, rfl⟩, rfl, hselect⟩

theorem powerOffIfAsked_pinFiles (opts : CmdlineOptions) {pins : BoardPins}
    (hready : install.Ready pins) :
    let after := powerOffIfAsked install.pinFiles install.conf opts pins
    SamePins pins after ∧ after.field.comparator = pins.field.comparator ∧
      after.field.controller.state =
        if opts.isPowerOff then .powerOff else pins.field.controller.state := by
  obtain ⟨hsame, hfield⟩ := install.gpioWriteOff_pinFiles hready
  dsimp only [powerOffIfAsked]
  split
  next => exact ⟨hsame, by rw [hfield], by rw [hfield]⟩
  next => exact ⟨⟨rfl, rfl⟩, rfl, rfl⟩

theorem gpioCleanup_pinFiles (pins : BoardPins) :
    let after := (gpioCleanup install.pinFiles install.conf pins).2
    after.field = pins.field ∧ after.isOutput = pins.isOutput ∧
      (∀ role, after.exported (install.conf.pin role) = false) ∧
      ∀ pin, (∀ role, install.conf.pin role ≠ pin) → after.exported pin = pins.exported pin := by
  have hcleanup : (gpioCleanup install.pinFiles install.conf pins).2 =
      cleanupOrder.foldl install.giveBackPin pins :=
    congrArg Prod.snd (install.runOps_giveBack pins cleanupOrder)
  obtain ⟨houtput, hfield⟩ := install.giveBack_rest pins cleanupOrder
  dsimp only
  rw [hcleanup]
  refine ⟨hfield, houtput, fun role => ?_, fun pin hpin => ?_⟩
  · have hgiven : ¬ ∀ other ∈ cleanupOrder, install.conf.pin other ≠ install.conf.pin role :=
      fun hall => hall role (mem_cleanupOrder role) rfl
    rw [giveBack_exported, decide_eq_false hgiven, Bool.and_false]
  · rw [giveBack_exported, decide_eq_true fun role _ => hpin role, Bool.and_true]

end Installation

/-- **One action on the board.** Whatever the pins and the lines of the board were before: the lines
printed tell what the board shows, the battery level or that external power is present; the power is
cut if that is asked for, and the controller is where it was if it is not; CS_B is negated, the pins
of the roles are all given back, and the others are as they were. -/
theorem command_mode_on_board (install : Installation) (opts : CmdlineOptions)
    (pins : BoardPins) :
    let out := commandMode install.pinFiles install.conf opts pins
    (∃ reading, pins.field.IsReading reading ∧ out.1 = linesBySysfs opts install.conf reading) ∧
      out.2.field.controller.state =
        (if opts.isPowerOff then .powerOff else pins.field.controller.state) ∧
      out.2.field.comparator.select = true ∧
      (∀ role, out.2.exported (install.conf.pin role) = false) ∧
      ∀ pin, (∀ role, install.conf.pin role ≠ pin) →
        out.2.exported pin = pins.exported pin ∧ out.2.isOutput pin = pins.isOutput pin := by
  -- each part leaves the board as the next one needs it
  obtain ⟨hstate, -, hselect⟩ := pins.field.settled_unmoved
  rw [← install.setUp_field pins] at hstate hselect
  have hinit : (gpioInit install.pinFiles install.conf pins).2 =
      cleanupOrder.foldl install.setUpPin pins :=
    congrArg Prod.snd (install.gpioInit_pinFiles pins)
  obtain ⟨hlines, hready, hqueried, hcontroller, hdeselected⟩ :=
    install.queryBySysfs_pinFiles opts (install.ready_setUp pins) hselect
  obtain ⟨hsignalled, hcomparator, hpower⟩ := install.powerOffIfAsked_pinFiles opts hready
  obtain ⟨hfield, houtput, hreturned, hothers⟩ := install.gpioCleanup_pinFiles
    (powerOffIfAsked install.pinFiles install.conf opts
      (queryBySysfs install.pinFiles install.conf opts
        (cleanupOrder.foldl install.setUpPin pins)).2)
  dsimp only [commandMode]
  rw [hinit]
  refine ⟨?_, ?_, ?_, hreturned, fun pin hpin => ?_⟩
  · rw [install.setUp_field pins] at hlines
    exact hlines
  · rw [hfield, hpower, hcontroller, hstate]
  · rw [hfield, hcomparator, hdeselected]
  · rw [hothers pin hpin, houtput, hsignalled.exported, hsignalled.isOutput, hqueried.exported,
      hqueried.isOutput]
    exact install.setUp_others pins hpin cleanupOrder

end Rocpmd
