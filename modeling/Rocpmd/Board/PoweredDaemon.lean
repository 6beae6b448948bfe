import Rocpmd.Board.Installation
import Rocpmd.Daemon.OffRequests
import Rocpmd.Daemon.ServedLevels
import Rocpmd.Daemon.World

/-!
# The daemon on the board

The daemon runs on the files of the whole board, between whose steps the battery, the supply and the
button do what they like. Nothing runs without power. What it serves is what the board showed when
it was measured last, and the power controller moves by the button and by OFF requests alone.
-/

namespace Rocpmd

open Foundation

/-! ## The system -/

/-- What happens around the board. -/
inductive Surrounding
  | press
  | battery (pgood : Fin 64 → Bool) (d2 : Bool)

def Field.surround (field : Field) : Surrounding → Field
  | .press => { field with controller := { field.controller with
      state := field.controller.state.press } }
  | .battery pgood d2 => { field with pgood := pgood, d2 := d2 }

inductive PoweredEvent
  | daemon (event : DaemonEvent)
  | around (change : Surrounding)

namespace Installation

variable (install : Installation) (limits : Limits)

def setup : Setup Field where
  fs := install.sysfs
  conf := install.conf
  limits := limits

/-- The daemon takes its steps while there is power. -/
def poweredMachine : Machine (Daemon Field) PoweredEvent where
  step d event :=
    if d.world.controller.state = .powerOff then none
    else
      match event with
      | .daemon event => (daemonMachine (install.setup limits)).step d event
      | .around change => some { d with world := d.world.surround change }

/-- A ghost beside the daemon: the board as its latest measurement met it. -/
def measuredOn (field : Field) (d : Daemon Field) : PoweredEvent → Field
  | .daemon event => (Daemon.measuredIn (install.setup limits) ⟨install.sysfs, field⟩ d event).world
  | .around _ => field

end Installation

/-! ## Steps -/

namespace Installation

variable {install : Installation} {limits : Limits} {d next : Daemon Field}

theorem poweredMachine_step {event : PoweredEvent}
    (hstep : (install.poweredMachine limits).step d event = some next) :
    d.world.controller.state ≠ .powerOff ∧
      ((∃ taken, event = .daemon taken ∧ Daemon.Step (install.setup limits) d taken next) ∨
        ∃ change, event = .around change ∧ next = { d with world := d.world.surround change }) := by
  simp only [poweredMachine] at hstep
  split at hstep
  next => cases hstep
  next hpower =>
    refine ⟨hpower, ?_⟩
    cases event with
    | daemon taken => exact .inl ⟨taken, rfl, .of_step hstep⟩
    | around change =>
        obtain rfl := Option.some.inj hstep
        exact .inr ⟨change, rfl, rfl⟩

theorem polledWorld_eq (install : Installation) (limits : Limits) (d : Daemon Field) :
    d.polledWorld (install.setup limits) = d.world := by
  unfold Daemon.polledWorld Setup.files
  dsimp only
  split
  next => rfl
  next => exact congrArg Prod.snd (install.gpioReadReqOff_eq d.world)

theorem measured_eq (install : Installation) {limits : Limits} {d : Daemon Field} {text : String}
    (hpolled : reqOffOutcome (install.setup limits) d = .opened text) :
    (gpioReadBatteryLevelRaw ((install.setup limits).files d.descriptors)
        (install.setup limits).conf (d.polledWorld (install.setup limits))) =
      gpioReadBatteryLevelRaw install.sysfs install.conf d.world := by
  rw [polledWorld_eq, Setup.files_of_free (Daemon.free_of_opened hpolled)]
  rfl

/-- The OFF signal cuts the power if there is a descriptor to send it with. -/
theorem written_eq (install : Installation) (limits : Limits) (d : Daemon Field) :
    (gpioWriteOff ((install.setup limits).files d.descriptors)
        (install.setup limits).conf d.world).2 =
      if lowestFree limits.descriptors d.descriptors = none then d.world
      else { d.world with controller := ⟨.powerOff, false⟩ } := by
  split
  next hfull => rw [Setup.files_of_full hfull, gpioWriteOff_shut]
  next hfree =>
    rw [Setup.files_of_free hfree]
    exact install.gpioWriteOff_eq d.world

/-- Between two steps CS_B is negated. -/
theorem select_of_worldStep {event : DaemonEvent}
    (hstep : Daemon.WorldStep (install.setup limits) d event next)
    (hselect : d.world.comparator.select = true) : next.world.comparator.select = true := by
  cases hstep with
  | polls _ _ _ _ hworld => rw [hworld, polledWorld_eq]; exact hselect
  | measures _ _ _ _ hpolled hworld =>
      rw [hworld, measured_eq install hpolled]
      exact (install.measurement_finds d.world hselect).2.1
  | writesOff _ _ hworld =>
      rw [hworld, written_eq]
      split <;> exact hselect
  | leaves hworld => rw [hworld]; exact hselect

theorem measuredOn_select {field : Field} (hfield : field.comparator.select = true)
    (hselect : d.world.comparator.select = true) (event : PoweredEvent) :
    (install.measuredOn limits field d event).comparator.select = true := by
  cases event with
  | around => exact hfield
  | daemon event =>
      unfold measuredOn Daemon.measuredIn
      cases event with
      | iterate now stamp room =>
          dsimp only
          split
          next =>
            change (d.polledWorld (install.setup limits)).comparator.select = true
            rw [polledWorld_eq]
            exact hselect
          next => exact hfield
      | _ => exact hfield

end Installation

/-! ## What is served -/

/-- The server holds what the board showed at the latest measurement. -/
structure ShowsBoard (install : Installation) (s : Daemon Field × Field) : Prop where
  deselected : s.1.world.comparator.select = true
  metDeselected : s.2.comparator.select = true
  lastReading : s.1.history.lastReading =
    (gpioReadBatteryLevelRaw install.sysfs install.conf s.2).1
  latest : ServesLatest install.conf s.1

namespace ShowsBoard

variable {install : Installation} {limits : Limits}

theorem start {field : Field} (hselect : field.comparator.select = true)
    (lastRead : Timeval) (log : Option Logger) (net : Network) {descriptors : Finset ℕ}
    (hfree : lowestFree limits.descriptors descriptors ≠ none) :
    ShowsBoard install (Daemon.start (install.setup limits) field lastRead log net
      descriptors, field) := by
  have hfiles : (install.setup limits).files descriptors = install.sysfs :=
    Setup.files_of_free hfree
  have hmeasured : gpioReadBatteryLevelRaw ((install.setup limits).files descriptors)
      install.conf field = gpioReadBatteryLevelRaw install.sysfs install.conf field := by
    rw [hfiles]
  exact
    { deselected := by
        change (gpioReadBatteryLevelRaw _ install.conf field).2.comparator.select = true
        rw [hmeasured]
        exact (install.measurement_finds field hselect).2.1
      metDeselected := hselect
      lastReading := congrArg Prod.fst hmeasured
      latest := ⟨rfl, rfl⟩ }

theorem step {s next : Daemon Field × Field} {event : PoweredEvent} (hshows : ShowsBoard install s)
    (hstep : ((install.poweredMachine limits).monitored
      (install.measuredOn limits)).step s event = some next) :
    ShowsBoard install next := by
  obtain ⟨hdaemon, hghost⟩ := Machine.monitored_step hstep
  have hmet : next.2.comparator.select = true :=
    hghost ▸ Installation.measuredOn_select hshows.metDeselected hshows.deselected event
  obtain ⟨-, ⟨taken, rfl, htaken⟩ | ⟨change, rfl, hchange⟩⟩ :=
    Installation.poweredMachine_step hdaemon
  · refine ⟨Installation.select_of_worldStep htaken.worldStep hshows.deselected, hmet, ?_,
      htaken.servesLatest hshows.latest⟩
    have hlast : s.1.history.lastReading =
        (Measurement.mk install.sysfs s.2).raw (install.setup limits).conf := hshows.lastReading
    have hreading := htaken.lastReading_eq hlast
    have hfiles : (Daemon.measuredIn (install.setup limits) ⟨install.sysfs, s.2⟩ s.1
        taken).files = install.sysfs :=
      (Daemon.measuredIn_files _ s.1 taken).elim id id
    rw [hghost]
    rwa [Measurement.raw, hfiles] at hreading
  · obtain ⟨d, field⟩ := next
    subst hchange hghost
    refine ⟨?_, hmet, hshows.lastReading, hshows.latest.of_same rfl rfl rfl⟩
    cases change <;> exact hshows.deselected

end ShowsBoard

/-- **What is served is what the board showed.** The battery, the supply and the button may change
between any two steps. In every state of a run on a board whose CS_B is negated at the start, when a
descriptor is free, the server holds what there was to find at the latest measurement, the battery
level or that external power was present, with its percentage; and CS_B is negated. -/
theorem board_served (install : Installation) (limits : Limits) {field : Field}
    (hselect : field.comparator.select = true) (lastRead : Timeval) (log : Option Logger)
    (net : Network) {descriptors : Finset ℕ}
    (hfree : lowestFree limits.descriptors descriptors ≠ none) {s : Daemon Field × Field}
    (hreach : ((install.poweredMachine limits).monitored
      (install.measuredOn limits)).Reachable
        (.start (install.setup limits) field lastRead log net descriptors, field) s) :
    s.2.IsReading s.1.ud.batteryLevelRaw ∧
      s.1.ud.batteryLevelPercent = mapBatteryLevel install.conf s.1.ud.batteryLevelRaw ∧
      s.1.world.comparator.select = true := by
  have hshows : ShowsBoard install s := hreach.invariant
    (.start hselect lastRead log net hfree)
    fun _ _ _ hshows _ hnext => hshows.step hnext
  have hraw := hshows.latest.raw
  refine ⟨?_, by rw [hshows.latest.percent, hraw], hshows.deselected⟩
  rw [hraw, hshows.lastReading]
  exact (install.measurement_finds s.2 hshows.metDeselected).1

/-- The board of the shipped configuration. -/
def Installation.shipped : Installation := ⟨.shipped, by decide⟩

/-- A board that has just been switched on, with the battery above the levels up to 40. -/
def Field.switchedOn : Field where
  comparator := ⟨⟨31, by decide⟩, .down, true, true, []⟩
  controller := ⟨.powerOn, false⟩
  pgood p := decide (40 < p.val)
  d2 := true

/-- The daemon of the examples, right before its loop. -/
def Field.daemon (field : Field) : Daemon Field :=
  Daemon.start (Installation.shipped.setup .usual) field ⟨0, 0⟩ none .empty {}

/-- The battery falls to level 20 before the next measurement. -/
theorem board_served_falling : ∃ s,
    ((Installation.shipped.poweredMachine .usual).monitored
        (Installation.shipped.measuredOn .usual)).run (Field.switchedOn.daemon, .switchedOn)
        [.around (.battery (fun p => decide (20 < p.val)) true),
          .daemon (.iterate ⟨20, 0⟩ "" 4096)] =
      some s ∧ s.1.ud.batteryLevelRaw = 20 ∧
      s.2.IsReading s.1.ud.batteryLevelRaw ∧
      s.1.ud.batteryLevelPercent = mapBatteryLevel .shipped s.1.ud.batteryLevelRaw ∧
      s.1.world.comparator.select = true := by
  have hrun : ∃ s ∈ ((Installation.shipped.poweredMachine .usual).monitored
        (Installation.shipped.measuredOn .usual)).run (Field.switchedOn.daemon, .switchedOn)
        [.around (.battery (fun p => decide (20 < p.val)) true),
          .daemon (.iterate ⟨20, 0⟩ "" 4096)],
      s.1.ud.batteryLevelRaw = 20 := by decide +kernel
  obtain ⟨s, hs, hraw⟩ := hrun
  exact ⟨s, hs, hraw, board_served .shipped .usual rfl ⟨0, 0⟩ none .empty (by decide +kernel)
    (.of_run hs)⟩

/-! ## What moves the power controller -/

/-- What the controller is told. -/
inductive PowerInput
  | press
  | cut
deriving DecidableEq, Repr

def PowerInput.act (state : PowerState) : PowerInput → PowerState
  | .press => state.press
  | .cut => .powerOff

/-- The input that a step of the system is to the controller. -/
def powerInput (limits : Limits) (d : Daemon Field) : PoweredEvent → List PowerInput
  | .around .press => [.press]
  | .daemon .checkOff =>
      if d.ud.powerOffFlag ∧ lowestFree limits.descriptors d.descriptors ≠ none then [.cut] else []
  | _ => []

/-- A ghost beside the daemon: all the inputs of a run. -/
def recordInput (limits : Limits) (inputs : List PowerInput) (d : Daemon Field)
    (event : PoweredEvent) : List PowerInput :=
  inputs ++ powerInput limits d event

namespace Installation

variable {install : Installation} {limits : Limits} {d next : Daemon Field}

/-- One step moves the controller by its input, if it has one. -/
theorem state_step {event : PoweredEvent}
    (hstep : (install.poweredMachine limits).step d event = some next) :
    next.world.controller.state =
      (powerInput limits d event).foldl PowerInput.act d.world.controller.state := by
  obtain ⟨-, ⟨taken, rfl, htaken⟩ | ⟨change, rfl, rfl⟩⟩ := poweredMachine_step hstep
  · cases htaken.worldStep with
    | polls _ _ _ _ hworld => rw [hworld, polledWorld_eq]; rfl
    | measures _ _ _ _ hpolled hworld =>
        rw [hworld, measured_eq install hpolled, measurement_controller]
        rfl
    | writesOff _ hflag hworld =>
        rw [hworld, written_eq, powerInput]
        by_cases hfull : lowestFree limits.descriptors d.descriptors = none
        · simp [hfull]
        · simp [hfull, hflag, PowerInput.act]
    | leaves hworld _ _ hflag =>
        have hinput : powerInput limits d (.daemon taken) = [] := by
          cases taken with
          | checkOff => simp [powerInput, hflag rfl]
          | _ => rfl
        rw [hworld, hinput]
        rfl
  · cases change <;> rfl

end Installation

/-- The button is read as released where it is and there is a descriptor to read it with. -/
theorem Installation.reqOffOutcome_eq_iff (install : Installation) (limits : Limits)
    (d : Daemon Field) : reqOffOutcome (install.setup limits) d = .opened "1" ↔
      lowestFree limits.descriptors d.descriptors ≠ none ∧
        d.world.controller.state ≠ .reqOff := by
  by_cases hfull : lowestFree limits.descriptors d.descriptors = none
  · exact iff_of_false (fun hone => Daemon.free_of_opened hone hfull) fun h => h.1 hfull
  · have hread := readAsserted_eq_zero_iff install.sysfs (install.conf.pin .reqOffB) d.world
    have hpoll := install.gpioReadReqOff_eq d.world
    rw [and_iff_right hfull, reqOffOutcome, Setup.files_of_free hfull]
    refine hread.symm.trans ?_
    rw [gpioReadReqOff] at hpoll
    rw [hpoll]
    by_cases hstate : d.world.controller.state = .reqOff <;> simp [hstate]

/-! ### Inputs -/

theorem powerInput_cases (limits : Limits) (d : Daemon Field) (event : PoweredEvent) :
    powerInput limits d event = [] ∨ powerInput limits d event = [.press] ∨
      powerInput limits d event = [.cut] := by
  unfold powerInput
  split
  next => exact .inr (.inl rfl)
  next => split <;> simp
  next => exact .inl rfl

theorem flag_of_cut_mem {limits : Limits} {d : Daemon Field} {event : PoweredEvent}
    (hcut : .cut ∈ powerInput limits d event) : d.ud.powerOffFlag = true := by
  unfold powerInput at hcut
  split at hcut
  next => simp at hcut
  next =>
    split at hcut
    next hflag => exact hflag.1
    next => cases hcut
  next => cases hcut

/-- Only the button leads to REQ_OFF, and only a cut or a second press to POWER_OFF. -/
theorem cause_of_inputs (inputs : List PowerInput) :
    (inputs.foldl PowerInput.act .powerOn = .reqOff → 1 ≤ inputs.count .press) ∧
      (inputs.foldl PowerInput.act .powerOn = .powerOff →
        .cut ∈ inputs ∨ 2 ≤ inputs.count .press) := by
  induction inputs using List.reverseRecOn with
  | nil => exact ⟨nofun, nofun⟩
  | append_singleton inputs input ih =>
      rw [List.foldl_append, List.count_append]
      cases input with
      | cut => exact ⟨nofun, fun _ => .inl (by simp)⟩
      | press =>
          have hcount : [PowerInput.press].count .press = 1 := rfl
          rw [hcount]
          refine ⟨fun _ => Nat.le_add_left .., fun hoff => ?_⟩
          have hbefore : inputs.foldl PowerInput.act .powerOn = .reqOff := by
            revert hoff
            cases inputs.foldl PowerInput.act .powerOn <;> decide
          exact .inr (Nat.add_le_add_right (ih.1 hbefore) 1)

/-! ### Runs -/

/-- What the inputs so far have come from, and what has come of them. -/
structure PowerInvariant (install : Installation) (limits : Limits)
    (s : Daemon Field × List PowerInput) : Prop where
  state : s.1.world.controller.state = s.2.foldl PowerInput.act .powerOn
  flag : FlagInvariant s.1
  cut : .cut ∈ s.2 → s.1.history.OffReceived
  latest : ServesLatest install.conf s.1
  halted : s.1.pc = .halted → .press ∈ s.2 ∨ s.1.ud.batteryLevelPercent = 0 ∨
    lowestFree limits.descriptors s.1.descriptors = none

namespace PowerInvariant

variable {install : Installation} {limits : Limits} {s next : Daemon Field × List PowerInput}

theorem start (limits : Limits) {field : Field} (hpower : field.controller.state = .powerOn)
    (lastRead : Timeval) (log : Option Logger) (net : Network) (descriptors : Finset ℕ) :
    PowerInvariant install limits (Daemon.start (install.setup limits) field lastRead log net
      descriptors, []) where
  state := by
    change (gpioReadBatteryLevelRaw _ install.conf field).2.controller.state = .powerOn
    unfold Setup.files
    split
    next => exact hpower
    next =>
      have hcontroller := install.measurement_controller field
      exact (congrArg PowerController.state hcontroller).trans hpower
  flag := Daemon.flagInvariant_start ..
  cut := nofun
  latest := ⟨rfl, rfl⟩
  halted := nofun

/-- A shutdown is called for by the button or by the reading it follows, unless no descriptor is
left to read the button with. -/
theorem halted_iterate (hinv : PowerInvariant install limits s) (now : Timeval) (stamp : String)
    (room : ℕ)
    (hhalted : (s.1.iterate (install.setup limits) now stamp room).pc = .halted) :
    .press ∈ s.2 ∨
      (s.1.iterate (install.setup limits) now stamp room).ud.batteryLevelPercent = 0 ∨
      lowestFree limits.descriptors
        (s.1.iterate (install.setup limits) now stamp room).descriptors = none := by
  obtain ⟨-, ⟨hone, -, -⟩ | ⟨-, -, hselect, -⟩ | ⟨-, -, htaken, htested⟩⟩ :=
    s.1.iterate_cases (install.setup limits) now stamp room
  · rw [(Daemon.sameRequests_iterate (install.setup limits) s.1 now stamp room).descriptors]
    by_cases hfull : lowestFree limits.descriptors s.1.descriptors = none
    · exact .inr (.inr hfull)
    · left
      have hstate : s.1.world.controller.state = .reqOff := by
        by_contra hne
        exact hone ((install.reqOffOutcome_eq_iff limits s.1).mpr ⟨hfull, hne⟩)
      exact List.count_pos_iff.mp ((cause_of_inputs s.2).1 (hinv.state.symm.trans hstate))
  · rw [hselect] at hhalted
    cases hhalted
  · right
    left
    have hlatest : ServesLatest (install.setup limits).conf
        (s.1.iterate (install.setup limits) now stamp room) :=
      Daemon.servesLatest_iterate hinv.latest now stamp room
    rw [hlatest.percent, htaken.lastReading]
    exact htested.mp hhalted

theorem step {event : PoweredEvent} (hinv : PowerInvariant install limits s)
    (hstep : ((install.poweredMachine limits).monitored (recordInput limits)).step s event =
      some next) : PowerInvariant install limits next := by
  obtain ⟨hdaemon, hghost⟩ := Machine.monitored_step hstep
  have hstate : next.1.world.controller.state = next.2.foldl PowerInput.act .powerOn := by
    rw [hghost, recordInput, List.foldl_append, ← hinv.state]
    exact Installation.state_step hdaemon
  have hcut : .cut ∈ next.2 → s.1.history.OffReceived := by
    rw [hghost, recordInput, List.mem_append]
    rintro (hbefore | hnow)
    · exact hinv.cut hbefore
    · exact hinv.flag.received_of_flag (flag_of_cut_mem hnow)
  have hpress : .press ∈ s.2 → .press ∈ next.2 := by
    rw [hghost, recordInput]
    exact List.mem_append_left _
  obtain ⟨-, ⟨taken, rfl, htaken⟩ | ⟨change, rfl, hchange⟩⟩ :=
    Installation.poweredMachine_step hdaemon
  · refine ⟨hstate, htaken.flagInvariant hinv.flag, fun h => htaken.offReceived (hcut h),
      htaken.servesLatest hinv.latest, fun hhalted => ?_⟩
    rcases htaken.halted_cases hhalted with hbefore | ⟨now, stamp, room, hiterate⟩
    · obtain ⟨-, -, hud, hdescriptors⟩ := htaken.of_halted hbefore
      rw [hud, hdescriptors]
      exact (hinv.halted hbefore).imp_left hpress
    · rw [hiterate] at hhalted ⊢
      exact (hinv.halted_iterate now stamp room hhalted).imp_left hpress
  · obtain ⟨d, inputs⟩ := next
    subst hchange
    refine ⟨hstate, ?_, hcut, hinv.latest.of_same rfl rfl rfl, ?_⟩
    · exact hinv.flag.of_same rfl rfl rfl rfl rfl id
    · exact fun hhalted => (hinv.halted hhalted).imp_left hpress

end PowerInvariant

/-- **What moves the power.** In any run on a board with the power on, the controller is where the
presses of the button and the OFF requests have put it. The daemon cuts the power only after bytes
were received on the off socket, so a board without power has seen those or two presses; and it has
shut the system down only after a press, when it serves zero percent, or when no descriptor is left
to read the button with. -/
theorem power_moved (install : Installation) (limits : Limits) {field : Field}
    (hpower : field.controller.state = .powerOn) (lastRead : Timeval) (log : Option Logger)
    (net : Network) (descriptors : Finset ℕ) {s : Daemon Field × List PowerInput}
    (hreach : ((install.poweredMachine limits).monitored (recordInput limits)).Reachable
      (Daemon.start (install.setup limits) field lastRead log net descriptors, []) s) :
    s.1.world.controller.state = s.2.foldl PowerInput.act .powerOn ∧
      (.cut ∈ s.2 → s.1.history.OffReceived) ∧
      (s.1.world.controller.state = .powerOff →
        s.1.history.OffReceived ∨ 2 ≤ s.2.count .press) ∧
      (s.1.pc = .halted → .press ∈ s.2 ∨ s.1.ud.batteryLevelPercent = 0 ∨
        lowestFree limits.descriptors s.1.descriptors = none) := by
  have hinv : PowerInvariant install limits s := hreach.invariant
    (.start limits hpower lastRead log net descriptors)
    fun _ _ _ hinv _ hnext => hinv.step hnext
  refine ⟨hinv.state, hinv.cut, fun hoff => ?_, hinv.halted⟩
  exact ((cause_of_inputs s.2).2 (hinv.state.symm.trans hoff)).imp_left hinv.cut

/-- The button is pressed, and the next iteration sees it. -/
def pressed : List PoweredEvent := [.around .press, .daemon (.iterate ⟨1, 0⟩ "" 4096)]

theorem power_moved_pressed : ∃ s,
    ((Installation.shipped.poweredMachine .usual).monitored (recordInput .usual)).run
        (Field.switchedOn.daemon, []) pressed = some s ∧
      s.1.pc = .halted ∧
      s.1.world.controller.state = s.2.foldl PowerInput.act .powerOn ∧
      (.cut ∈ s.2 → s.1.history.OffReceived) ∧
      (s.1.world.controller.state = .powerOff →
        s.1.history.OffReceived ∨ 2 ≤ s.2.count .press) ∧
      (s.1.pc = .halted → .press ∈ s.2 ∨ s.1.ud.batteryLevelPercent = 0 ∨
        lowestFree Limits.usual.descriptors s.1.descriptors = none) := by
  have hrun : ∃ s ∈ ((Installation.shipped.poweredMachine .usual).monitored
      (recordInput .usual)).run (Field.switchedOn.daemon, []) pressed, s.1.pc = .halted := by
    decide +kernel
  obtain ⟨s, hs, hpc⟩ := hrun
  exact ⟨s, hs, hpc, power_moved .shipped .usual rfl ⟨0, 0⟩ none .empty {} (.of_run hs)⟩

/-! ## After an OFF request -/

/-- A power off check has a descriptor to open the file of OFF with. -/
def SparesCheck (limits : Limits) (d : Daemon Field) : PoweredEvent → Prop
  | .daemon .checkOff => lowestFree limits.descriptors d.descriptors ≠ none
  | _ => True

instance (limits : Limits) (d : Daemon Field) : ∀ event, Decidable (SparesCheck limits d event)
  | .daemon .checkOff => inferInstanceAs (Decidable (_ ≠ _))
  | .daemon (.iterate _ _ _) | .daemon (.select _) | .daemon (.accept _) | .daemon (.read _ _)
  | .daemon (.serve _) | .daemon (.connect _) | .daemon (.send _ _) | .daemon (.receive _ _)
  | .daemon (.close _) | .around _ => inferInstanceAs (Decidable True)

/-- **An OFF request is obeyed at the first check.** In a run whose power off checks have a
descriptor to spare, no OFF signal was sent while the board has power, and no check has been made
since the first byte received on the off socket. -/
theorem off_request_obeyed (install : Installation) (limits : Limits) (field : Field)
    (lastRead : Timeval) (log : Option Logger) (net : Network) (descriptors : Finset ℕ)
    {d : Daemon Field}
    (hreach : (install.poweredMachine limits).ReachableUnder (SparesCheck limits)
      (Daemon.start (install.setup limits) field lastRead log net descriptors) d)
    (hpower : d.world.controller.state ≠ .powerOff) :
    d.history.offWrites = 0 ∧ d.history.offChecks = 0 := by
  have hinv : FlagInvariant d ∧ (d.world.controller.state ≠ .powerOff →
      d.history.offWrites = 0) := by
    apply hreach.invariant
    · exact ⟨Daemon.flagInvariant_start .., fun _ => rfl⟩
    rintro s event next ⟨hflag, hwrites⟩ hspares hnext
    obtain ⟨hon, ⟨taken, rfl, htaken⟩ | ⟨change, rfl, rfl⟩⟩ :=
      Installation.poweredMachine_step hnext
    · refine ⟨htaken.flagInvariant hflag, fun hpower => ?_⟩
      rcases htaken.offWrites_cases with hsame | ⟨rfl, -, hworld⟩
      · rw [hsame, hwrites hon]
      · rw [hworld, Installation.written_eq, if_neg hspares] at hpower
        exact absurd rfl hpower
    · exact ⟨hflag.of_same rfl rfl rfl rfl rfl id, fun _ => hwrites hon⟩
  exact ⟨hinv.2 hpower, hinv.1.writes_eq ▸ hinv.2 hpower⟩

/-- A client has sent one byte on the off socket, and the check is about to be made. -/
def offRequested : List PoweredEvent :=
  [.daemon (.connect .off), .daemon (.send 0 [0]), .daemon (.iterate ⟨1, 0⟩ "" 4096),
    .daemon (.select true), .daemon (.accept true), .daemon (.read 1 true),
    .daemon (.serve true), .daemon (.close 0), .daemon (.read 0 true)]

theorem off_request_obeyed_requested : ∃ d,
    (Installation.shipped.poweredMachine .usual).run Field.switchedOn.daemon offRequested = some d ∧
      d.pc = .checkOff ∧ d.ud.powerOffFlag = true ∧
      d.history.offWrites = 0 ∧ d.history.offChecks = 0 := by
  have hspares : (Installation.shipped.poweredMachine .usual).Meets (SparesCheck .usual)
      Field.switchedOn.daemon offRequested := by decide +kernel
  have hrun : ∃ d ∈ (Installation.shipped.poweredMachine .usual).run Field.switchedOn.daemon
      offRequested, d.pc = .checkOff ∧ d.ud.powerOffFlag = true ∧
        d.world.controller.state ≠ .powerOff := by decide +kernel
  obtain ⟨d, hd, hpc, hflag, hpower⟩ := hrun
  exact ⟨d, hd, hpc, hflag, off_request_obeyed .shipped .usual .switchedOn ⟨0, 0⟩ none .empty {}
    (.of_run .start hspares hd) hpower⟩

/-! ## After the button -/

/-- The button has been pressed in `before`, and nothing has been measured since. -/
structure PressedSince (before later : Daemon Field) : Prop where
  state : later.world.controller.state ≠ .powerOn
  comparator : later.world.comparator = before.world.comparator
  lastReading : later.history.lastReading = before.history.lastReading
  log : later.batteryLevelLog = before.batteryLevelLog

namespace PressedSince

variable {install : Installation} {limits : Limits} {before later next : Daemon Field}

/-- What runs after the press runs in REQ_OFF. -/
theorem reqOff_of_power (hpressed : PressedSince before later)
    (hpower : later.world.controller.state ≠ .powerOff) :
    later.world.controller.state = .reqOff := by
  cases hstate : later.world.controller.state with
  | powerOff => exact absurd hstate hpower
  | powerOn => exact absurd hstate hpressed.state
  | reqOff => rfl

theorem step {event : PoweredEvent} (hpressed : PressedSince before later)
    (hstep : (install.poweredMachine limits).step later event = some next) :
    PressedSince before next := by
  have hstate := Installation.state_step hstep
  obtain ⟨hpower, htaken⟩ := Installation.poweredMachine_step hstep
  have hreqOff := hpressed.reqOff_of_power hpower
  have hnext : next.world.controller.state ≠ .powerOn := by
    rw [hstate, hreqOff]
    rcases powerInput_cases limits later event with h | h | h <;> rw [h] <;> decide
  obtain ⟨taken, rfl, htaken⟩ | ⟨change, rfl, rfl⟩ := htaken
  · cases htaken.worldStep with
    | polls _ _ _ _ hworld hkeeps =>
        rw [Installation.polledWorld_eq] at hworld
        exact ⟨hnext, by rw [hworld, hpressed.comparator],
          hkeeps.lastReading.trans hpressed.lastReading, hkeeps.log.trans hpressed.log⟩
    | measures _ _ _ _ hpolled =>
        exact absurd hreqOff ((install.reqOffOutcome_eq_iff limits later).mp hpolled).2
    | writesOff _ _ hworld hkeeps =>
        refine ⟨hnext, ?_, hkeeps.lastReading.trans hpressed.lastReading,
          hkeeps.log.trans hpressed.log⟩
        rw [hworld, Installation.written_eq]
        split <;> exact hpressed.comparator
    | leaves hworld hkeeps =>
        exact ⟨hnext, by rw [hworld, hpressed.comparator],
          hkeeps.lastReading.trans hpressed.lastReading, hkeeps.log.trans hpressed.log⟩
  · refine ⟨hnext, ?_, hpressed.lastReading, hpressed.log⟩
    cases change <;> exact hpressed.comparator

end PressedSince

/-- **The button ends the measurements.** From REQ_OFF on, whatever clients and surroundings do, the
daemon leaves the comparator, the latest reading and the log as they are; the first iteration shuts
the system down, and nothing but a cut of the power gets the board out of REQ_OFF. -/
theorem button_ends_measurements (install : Installation) (limits : Limits)
    {before later : Daemon Field} (hreqOff : before.world.controller.state = .reqOff)
    (hreach : (install.poweredMachine limits).Reachable before later) :
    later.world.comparator = before.world.comparator ∧
      later.history.lastReading = before.history.lastReading ∧
      later.batteryLevelLog = before.batteryLevelLog ∧
      (later.world.controller.state = .reqOff ∨ later.world.controller.state = .powerOff) ∧
      ∀ now stamp room next,
        (install.poweredMachine limits).step later
          (.daemon (.iterate now stamp room)) = some next → next.pc = .halted := by
  have hpressed : PressedSince before later := hreach.invariant
    ⟨by rw [hreqOff]; decide, rfl, rfl, rfl⟩ fun _ _ _ hpressed _ hnext => hpressed.step hnext
  refine ⟨hpressed.comparator, hpressed.lastReading, hpressed.log, ?_, ?_⟩
  · by_cases hpower : later.world.controller.state = .powerOff
    · exact .inr hpower
    · exact .inl (hpressed.reqOff_of_power hpower)
  · intro now stamp room next hnext
    obtain ⟨hpower, ⟨taken, heq, htaken⟩ | ⟨change, heq, -⟩⟩ :=
      Installation.poweredMachine_step hnext
    · obtain rfl := PoweredEvent.daemon.inj heq
      have hstate := hpressed.reqOff_of_power hpower
      have hpoll : reqOffOutcome (install.setup limits) later ≠ .opened "1" :=
        fun hone => ((install.reqOffOutcome_eq_iff limits later).mp hone).2 hstate
      cases htaken
      obtain ⟨-, ⟨-, hhalted, -⟩ | ⟨hone, -⟩ | ⟨hone, -⟩⟩ :=
        later.iterate_cases (install.setup limits) now stamp room
      · exact hhalted
      · exact absurd hone hpoll
      · exact absurd hone hpoll
    · cases heq

/-- The button has been pressed and clients come and go, until an iteration. -/
theorem button_ends_measurements_pressed : ∃ before later,
    (Installation.shipped.poweredMachine .usual).run Field.switchedOn.daemon [.around .press] =
        some before ∧
      (Installation.shipped.poweredMachine .usual).run before
        [.daemon (.connect .batteryLevel), .daemon (.iterate ⟨20, 0⟩ "" 4096)] = some later ∧
      later.world.comparator = before.world.comparator ∧
      later.history.lastReading = before.history.lastReading ∧
      later.batteryLevelLog = before.batteryLevelLog ∧
      (later.world.controller.state = .reqOff ∨ later.world.controller.state = .powerOff) ∧
      ∀ now stamp room next,
        (Installation.shipped.poweredMachine .usual).step later
          (.daemon (.iterate now stamp room)) = some next → next.pc = .halted := by
  have hrun : ∃ before ∈ (Installation.shipped.poweredMachine .usual).run Field.switchedOn.daemon
      [.around .press], before.world.controller.state = .reqOff ∧
        ((Installation.shipped.poweredMachine .usual).run before
          [.daemon (.connect .batteryLevel), .daemon (.iterate ⟨20, 0⟩ "" 4096)]).isSome := by
    decide +kernel
  obtain ⟨before, hbefore, hreqOff, hlater⟩ := hrun
  obtain ⟨later, hlater⟩ := Option.isSome_iff_exists.mp hlater
  exact ⟨before, later, hbefore, hlater,
    button_ends_measurements .shipped .usual hreqOff (.of_run hlater)⟩

end Rocpmd
