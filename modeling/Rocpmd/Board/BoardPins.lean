import Rocpmd.Board.PoweredDaemon
import Rocpmd.Daemon.Views
import Rocpmd.Gpio.InitOutcome

/-!
# The board behind pins that have to be set up

A pin has files while it is exported, and drives its line of the board while it is an output.
`gpio_init` sees to both, whatever the pins were before, and on its pins the daemon does what it
does on the board itself.
-/

namespace Rocpmd

open Call Foundation

/-- The board, and the state of the pins in front of it. The levels of the pins are those of the
lines. -/
structure BoardPins where
  exported : Int → Bool
  isOutput : Int → Bool
  field : Field

namespace Field

/-- The lines of the outputs have been driven low, and CS_B high after that. -/
def settled (field : Field) : Field :=
  { field with
    controller := field.controller.setOff false
    comparator := ((field.comparator.setSelect false).setSelect true).setLine false }

/-- No edge of OFF moves the controller, and none of UD_B the comparator. -/
theorem settled_unmoved (field : Field) :
    field.settled.controller.state = field.controller.state ∧
      field.settled.comparator.pos = field.comparator.pos ∧
      field.settled.comparator.select = true := by
  refine ⟨?_, ?_, ?_⟩
  · simp [settled, PowerController.setOff]
  · have hselected : (field.comparator.setSelect false).pos = field.comparator.pos := by
      unfold UpDownCounter.setSelect
      split <;> rfl
    simp [settled, hselected]
  · simp [settled]

end Field

namespace Installation

variable (install : Installation)

/-- The files of the pins. A pin turned to output is low. -/
def pinFiles : Sysfs BoardPins where
  read file pins :=
    match file with
    | .value pin =>
        if pins.exported pin then
          (.opened (if install.level pin pins.field then "1" else "0"), pins)
        else (.cannotOpen, pins)
    | _ => (.cannotOpen, pins)
  write file text pins :=
    match file with
    | .exportFile =>
        (true, { pins with exported := fun pin => toString pin = text || pins.exported pin })
    | .unexportFile =>
        (true, { pins with exported := fun pin => toString pin ≠ text && pins.exported pin })
    | .direction pin =>
        if pins.exported pin then
          if text = "in\n" then
            (true, { pins with isOutput := Function.update pins.isOutput pin false })
          else if text = "out\n" then
            (true, { pins with
              isOutput := Function.update pins.isOutput pin true
              field := install.drive pin false pins.field })
          else (true, pins)
        else (false, pins)
    | .value pin =>
        if pins.exported pin then
          if pins.isOutput pin then
            (true, { pins with field := install.drive pin (text == "1") pins.field })
          else (true, pins)
        else (false, pins)
  usleep _ pins := pins

/-! ## Setting the pins up -/

/-- What setting up the pin of a role does to the board: it drives an output low, and CS_B high
after that. -/
def setUpLine (role : Role) (field : Field) : Field :=
  if initDirection role = output then
    let lowered := install.drive (install.conf.pin role) false field
    if role = .csB then install.drive (install.conf.pin role) true lowered else lowered
  else field

def setUpPin (pins : BoardPins) (role : Role) : BoardPins where
  exported := Function.update pins.exported (install.conf.pin role) true
  isOutput :=
    Function.update pins.isOutput (install.conf.pin role) (decide (initDirection role = output))
  field := install.setUpLine role pins.field

section Operations

variable (pins : BoardPins) (pin : Int)

theorem gpioInitPin_pinFiles : gpioInitPin install.pinFiles pin pins =
    (gpioSuccess, { pins with exported := Function.update pins.exported pin true }) := by
  have hexported : (fun other => decide (toString other = toString pin) || pins.exported other) =
      Function.update pins.exported pin true := by
    funext other
    by_cases hother : other = pin <;> simp [hother]
  simp only [gpioInitPin, pinFiles, if_true, hexported]

theorem gpioCleanupPin_pinFiles : gpioCleanupPin install.pinFiles pin pins =
    (gpioSuccess, { pins with exported := Function.update pins.exported pin false }) := by
  have hexported : (fun other => decide (toString other ≠ toString pin) && pins.exported other) =
      Function.update pins.exported pin false := by
    funext other
    by_cases hother : other = pin <;> simp [hother]
  simp only [gpioCleanupPin, pinFiles, if_true, hexported]

variable {pin}

theorem gpioSetPinDirection_pinFiles (hexported : pins.exported pin = true) {dir : Int}
    (hdir : dir = input ∨ dir = output) : gpioSetPinDirection install.pinFiles pin dir pins =
      (gpioSuccess, { pins with
        isOutput := Function.update pins.isOutput pin (decide (dir = output))
        field := if dir = output then install.drive pin false pins.field else pins.field }) := by
  have hin : gpioMapDirection input ++ "\n" = "in\n" := rfl
  have hout : gpioMapDirection output ++ "\n" = "out\n" := rfl
  have hne : input ≠ output := by decide
  rcases hdir with rfl | rfl
  · simp [gpioSetPinDirection, pinFiles, hin, hexported, hne]
  · simp [gpioSetPinDirection, pinFiles, hout, hexported]

theorem digitalWrite_pinFiles (hexported : pins.exported pin = true)
    (houtput : pins.isOutput pin = true) (level : Bool) :
    digitalWrite install.pinFiles pin (levelStatus level) pins =
      (gpioSuccess, { pins with field := install.drive pin level pins.field }) := by
  simp [digitalWrite, pinFiles, hexported, houtput, repr_levelStatus]

end Operations

theorem initDirection_cases (role : Role) : initDirection role = input ∨
    initDirection role = output := by
  cases role <;> decide

theorem runOps_initOps_pinFiles (pins : BoardPins) (role : Role) :
    runOps install.pinFiles (initOps install.conf role) pins =
      (gpioSuccess, install.setUpPin pins role) := by
  have hexported : (Function.update pins.exported (install.conf.pin role) true)
      (install.conf.pin role) = true := Function.update_self ..
  have hexport := install.gpioInitPin_pinFiles pins (install.conf.pin role)
  have hdirect := install.gpioSetPinDirection_pinFiles
    { pins with exported := Function.update pins.exported (install.conf.pin role) true }
    hexported (initDirection_cases role)
  by_cases hrole : role = .csB
  · subst hrole
    have hops : initOps install.conf .csB = [.initPin (install.conf.pin .csB),
        .setPinDirection (install.conf.pin .csB) (initDirection .csB),
        .digitalWrite (install.conf.pin .csB) high] := rfl
    rw [hops, runOps, GpioOp.run, orReturn_of_ne hexport (by decide), runOps, GpioOp.run,
      orReturn_of_ne hdirect (by decide), runOps, GpioOp.run]
    exact orReturn_of_ne (install.digitalWrite_pinFiles _ hexported (Function.update_self ..) true)
      (by decide) _
  · have hops : initOps install.conf role = [.initPin (install.conf.pin role),
        .setPinDirection (install.conf.pin role) (initDirection role)] := by
      rw [initOps, if_neg hrole, List.append_nil]
    rw [hops, runOps, GpioOp.run, orReturn_of_ne hexport (by decide), runOps, GpioOp.run,
      orReturn_of_ne hdirect (by decide), runOps, ret, setUpPin, setUpLine, if_neg hrole]

/-! ## gpio_init on the board -/

section Init

variable (pins : BoardPins)

theorem runOps_setUp (roles : List Role) :
    runOps install.pinFiles (roles.flatMap (initOps install.conf)) pins =
      (gpioSuccess, roles.foldl install.setUpPin pins) := by
  induction roles generalizing pins with
  | nil => rfl
  | cons role roles ih =>
      rw [List.flatMap_cons, runOps_append,
        orReturn_of_ne (install.runOps_initOps_pinFiles pins role) (by decide), ih]
      rfl

theorem gpioInit_pinFiles : gpioInit install.pinFiles install.conf pins =
    (gpioSuccess, cleanupOrder.foldl install.setUpPin pins) := by
  rw [gpioInit, gpioInitOps_eq]
  exact install.runOps_setUp pins cleanupOrder

/-- Other roles leave the pin alone: each has its own. -/
theorem setUp_pin {role : Role} {roles : List Role} (hmem : role ∈ roles) :
    (roles.foldl install.setUpPin pins).exported (install.conf.pin role) = true ∧
      (roles.foldl install.setUpPin pins).isOutput (install.conf.pin role) =
        decide (initDirection role = output) := by
  induction roles using List.reverseRecOn with
  | nil => cases hmem
  | append_singleton roles last ih =>
      rw [List.foldl_append, List.foldl_cons, List.foldl_nil]
      by_cases hlast : role = last
      · subst hlast
        exact ⟨Function.update_self .., Function.update_self ..⟩
      · have hbefore : role ∈ roles := by simpa [hlast] using hmem
        have hne := install.pin_ne hlast
        simp only [setUpPin, Function.update_of_ne hne]
        exact ih hbefore

theorem setUp_others {pin : Int} (hpin : ∀ role, install.conf.pin role ≠ pin)
    (roles : List Role) :
    (roles.foldl install.setUpPin pins).exported pin = pins.exported pin ∧
      (roles.foldl install.setUpPin pins).isOutput pin = pins.isOutput pin := by
  induction roles using List.reverseRecOn with
  | nil => exact ⟨rfl, rfl⟩
  | append_singleton roles last ih =>
      rw [List.foldl_append, List.foldl_cons, List.foldl_nil]
      simp only [setUpPin, Function.update_of_ne (hpin last).symm]
      exact ih

theorem setUp_field : (cleanupOrder.foldl install.setUpPin pins).field = pins.field.settled := by
  have hoff (field : Field) : install.setUpLine .off field =
      { field with controller := field.controller.setOff false } := by
    rw [setUpLine, if_pos (by decide), if_neg (by decide), drive_off]
  have hcs (field : Field) : install.setUpLine .csB field = { field with
      comparator := (field.comparator.setSelect false).setSelect true } := by
    rw [setUpLine, if_pos (by decide), if_pos rfl, drive_csB, drive_csB]
  have hud (field : Field) : install.setUpLine .udB field =
      { field with comparator := field.comparator.setLine false } := by
    rw [setUpLine, if_pos (by decide), if_neg (by decide), drive_udB]
  have hinputs {role : Role} (hrole : initDirection role ≠ output) (field : Field) :
      install.setUpLine role field = field := if_neg hrole
  have hfields (roles : List Role) : (roles.foldl install.setUpPin pins).field =
      roles.foldl (fun field role => install.setUpLine role field) pins.field := by
    induction roles generalizing pins with
    | nil => rfl
    | cons role roles ih => exact ih (install.setUpPin pins role)
  rw [hfields]
  simp only [cleanupOrder, List.foldl_cons, List.foldl_nil, hoff, hcs, hud,
    hinputs (show initDirection .reqOffB ≠ output by decide),
    hinputs (show initDirection .pgoodB ≠ output by decide),
    hinputs (show initDirection .d1B ≠ output by decide),
    hinputs (show initDirection .d2B ≠ output by decide), Field.settled]

end Init

/-! ## The daemon on pins that are set up -/

/-- The pins of the roles have their files, and the outputs drive their lines. -/
structure Ready (pins : BoardPins) : Prop where
  exported : ∀ role, pins.exported (install.conf.pin role) = true
  isOutput : ∀ role, initDirection role = output → pins.isOutput (install.conf.pin role) = true

theorem ready_setUp (pins : BoardPins) :
    install.Ready (cleanupOrder.foldl install.setUpPin pins) where
  exported role := (install.setUp_pin pins (mem_cleanupOrder role)).1
  isOutput role hrole := by
    rw [(install.setUp_pin pins (mem_cleanupOrder role)).2, decide_eq_true hrole]

theorem pinFiles_view :
    install.pinFiles.View install.sysfs install.conf install.Ready BoardPins.field where
  read role pins hready := by
    simp only [pinFiles, if_pos (hready.exported role)]
    exact ⟨hready, rfl⟩
  write role hrole text pins hready := by
    simp only [pinFiles, if_pos (hready.exported role), if_pos (hready.isOutput role hrole)]
    exact ⟨⟨hready.exported, hready.isOutput⟩, rfl⟩
  usleep _ _ hready := ⟨hready, rfl⟩

variable (limits : Limits)

def pinSetup : Setup BoardPins where
  fs := install.pinFiles
  conf := install.conf
  limits := limits

/-- The daemon on its pins takes its steps while there is power. -/
def pinMachine : Machine (Daemon BoardPins) PoweredEvent where
  step d event :=
    if d.world.field.controller.state = .powerOff then none
    else
      match event with
      | .daemon event => (daemonMachine (install.pinSetup limits)).step d event
      | .around change =>
          some { d with world := { d.world with field := d.world.field.surround change } }

theorem pinMachine_view : (install.pinMachine limits).View
    (install.poweredMachine limits) (fun d => install.Ready d.world)
    (Daemon.seenBy BoardPins.field) where
  step d event hready := by
    simp only [pinMachine, poweredMachine]
    change (if d.world.field.controller.state = .powerOff then none else _) = _
    split
    next => rfl
    next =>
      cases event with
      | daemon event => exact (install.pinFiles_view.daemon limits).step d event hready
      | around change => rfl
  keeps d event next hready hnext := by
    simp only [pinMachine] at hnext
    split at hnext
    next => cases hnext
    next =>
      cases event with
      | daemon event =>
          exact (install.pinFiles_view.daemon limits).keeps d event next hready hnext
      | around change =>
          obtain rfl := Option.some.inj hnext
          exact ⟨hready.exported, hready.isOutput⟩

theorem start_seenBy {pins : BoardPins} (hready : install.Ready pins) (lastRead : Timeval)
    (log : Option Logger) (net : Network) (descriptors : Finset ℕ) :
    install.Ready (Daemon.start (install.pinSetup limits) pins lastRead log net
        descriptors).world ∧
      Daemon.start (install.setup limits) pins.field lastRead log net descriptors =
        (Daemon.start (install.pinSetup limits) pins lastRead log net
          descriptors).seenBy BoardPins.field :=
  Daemon.measure_seenBy install.pinFiles_view limits hready

end Installation

/-- **The daemon on its pins is the daemon on the board.** Whatever the pins and the lines of the
board were before, `gpio_init` succeeds, moves neither the controller nor the comparator and leaves
CS_B negated; and from then on a sequence of events is a run of the daemon on the pins exactly if it
is one on the board, with the same daemon and the same board at its end. -/
theorem daemon_on_pins (install : Installation) (limits : Limits) (pins : BoardPins)
    (lastRead : Timeval) (log : Option Logger) (net : Network) (descriptors : Finset ℕ) :
    let initialised := gpioInit install.pinFiles install.conf pins
    initialised.1 = gpioSuccess ∧
      initialised.2.field.controller.state = pins.field.controller.state ∧
      initialised.2.field.comparator.pos = pins.field.comparator.pos ∧
      initialised.2.field.comparator.select = true ∧
      ∀ events, (install.poweredMachine limits).run
          (.start (install.setup limits) initialised.2.field lastRead log net descriptors)
          events =
        ((install.pinMachine limits).run
          (.start (install.pinSetup limits) initialised.2 lastRead log net descriptors)
          events).map (Daemon.seenBy BoardPins.field) := by
  have hinit := install.gpioInit_pinFiles pins
  have hready := install.ready_setUp pins
  obtain ⟨hstate, hpos, hselect⟩ := pins.field.settled_unmoved
  rw [← install.setUp_field pins] at hstate hpos hselect
  dsimp only
  rw [hinit]
  refine ⟨rfl, hstate, hpos, hselect, fun events => ?_⟩
  obtain ⟨hstarted, hstart⟩ :=
    install.start_seenBy limits hready lastRead log net descriptors
  rw [hstart]
  exact (install.pinMachine_view limits).run hstarted events

end Rocpmd
