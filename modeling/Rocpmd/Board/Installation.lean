import Rocpmd.Board.Measurement
import Rocpmd.Board.PowerController

/-!
# The whole board behind the pins of a configuration

The comparator and the power controller on one set of files, with the battery and the external
supply around them. Each pin of the configuration leads to one line of the board, so a measurement
finds what it finds on the bench and leaves the controller alone, and OFF does not reach the
comparator.
-/

namespace Rocpmd

open Foundation Call

/-- The configuration names a pin of its own for each line of the board. -/
structure Installation where
  conf : Config
  distinct : (cleanupOrder.map conf.pin).Nodup

/-- The board, and what the comparator and D2_B see around it. -/
structure Field where
  comparator : Comparator
  controller : PowerController
  pgood : Fin 64 → Bool
  d2 : Bool

namespace Field

/-- What a measurement meets here: no access fails. -/
def conditions (field : Field) : Conditions := ⟨field.pgood, field.d2, fun _ => false⟩

/-- What a measurement is to find: the battery level, or that external power is present. -/
def IsReading (field : Field) (reading : Int) : Prop :=
  if field.d2 then ∃ level, IsBatteryLevel field.pgood level ∧ reading = ((level : ℕ) : Int)
  else reading = charging

end Field

namespace Installation

variable (install : Installation)

theorem pin_ne {role other : Role} (hne : role ≠ other) :
    install.conf.pin role ≠ install.conf.pin other := by
  have hmem : ∀ role : Role, role ∈ cleanupOrder := by intro role; cases role <;> decide
  exact fun heq => hne (List.inj_on_of_nodup_map install.distinct (hmem role) (hmem other) heq)

/-- The lines of the comparator, as on the bench. -/
def wiring : Wiring where
  conf := install.conf
  distinct := by
    simp only [List.nodup_cons, List.mem_cons, List.not_mem_nil, or_false, not_or,
      not_false_eq_true, List.nodup_nil, and_true]
    exact ⟨⟨install.pin_ne nofun, install.pin_ne nofun, install.pin_ne nofun⟩,
      ⟨install.pin_ne nofun, install.pin_ne nofun⟩, install.pin_ne nofun⟩

/-- The board's reaction to a level driven on a pin. -/
def drive (pin : Int) (level : Bool) (field : Field) : Field :=
  if pin = install.conf.pin .off then { field with controller := field.controller.setOff level }
  else { field with comparator := install.wiring.drive pin level field.comparator }

/-- The level of a pin. -/
def level (pin : Int) (field : Field) : Bool :=
  if pin = install.conf.pin .reqOffB then field.controller.reqOffB
  else if pin = install.conf.pin .off then field.controller.offLine
  else install.wiring.level field.conditions pin field.comparator

def sysfs : Sysfs Field where
  read file field :=
    match file with
    | .value pin => (.opened (if install.level pin field then "1" else "0"), field)
    | _ => (.cannotOpen, field)
  write file text field :=
    match file with
    | .value pin => (true, install.drive pin (text == "1") field)
    | _ => (true, field)
  usleep _ field := field

theorem digitalRead_eq (pin : Int) (field : Field) :
    digitalRead install.sysfs pin field = (levelStatus (install.level pin field), field) := by
  cases hlevel : install.level pin field <;> simp [digitalRead, sysfs, hlevel, levelStatus]

theorem digitalWrite_eq (pin val : Int) (field : Field) :
    digitalWrite install.sysfs pin val field =
      (gpioSuccess, install.drive pin (toString val == "1") field) := rfl

theorem readAsserted_eq (pin : Int) (field : Field) :
    readAsserted install.sysfs pin field =
      (if install.level pin field then 0 else 1, field) := by
  cases hlevel : install.level pin field <;>
    simp [readAsserted, orReturn, digitalRead_eq, hlevel, levelStatus, ret, cNot, high, low,
      gpioError]

/-! ## The files of the board and those of the bench -/

/-- The lines of the comparator and of the supply have no other meaning. -/
theorem level_of_ne {pin : Int} (hreqOff : pin ≠ install.conf.pin .reqOffB)
    (hoff : pin ≠ install.conf.pin .off) (field : Field) :
    install.level pin field = install.wiring.level field.conditions pin field.comparator := by
  rw [level, if_neg hreqOff, if_neg hoff]

theorem drive_of_ne {pin : Int} (hoff : pin ≠ install.conf.pin .off) (level : Bool)
    (field : Field) : install.drive pin level field =
      { field with comparator := install.wiring.drive pin level field.comparator } :=
  if_neg hoff

theorem drive_off (level : Bool) (field : Field) :
    install.drive (install.conf.pin .off) level field =
      { field with controller := field.controller.setOff level } := if_pos rfl

theorem drive_csB (level : Bool) (field : Field) :
    install.drive (install.conf.pin .csB) level field =
      { field with comparator := field.comparator.setSelect level } := by
  have hoff : install.conf.pin .csB ≠ install.conf.pin .off := install.pin_ne nofun
  have hcs : install.conf.pin .csB = install.wiring.conf.pin .csB := rfl
  rw [install.drive_of_ne hoff, Wiring.drive, if_pos hcs]

theorem drive_udB (level : Bool) (field : Field) :
    install.drive (install.conf.pin .udB) level field =
      { field with comparator := field.comparator.setLine level } := by
  have hoff : install.conf.pin .udB ≠ install.conf.pin .off := install.pin_ne nofun
  have hcs : install.conf.pin .udB ≠ install.wiring.conf.pin .csB := install.pin_ne nofun
  have hud : install.conf.pin .udB = install.wiring.conf.pin .udB := rfl
  rw [install.drive_of_ne hoff, Wiring.drive, if_neg hcs, if_pos hud]

/-- The call does here what the other does on the bench, and changes nothing but the comparator. -/
def AsOnBench (cond : Conditions) (call : Call Field) (onBench : Call Bench) : Prop :=
  ∀ field bench, field.conditions = cond → bench.board = field.comparator →
    (call field).1 = (onBench bench).1 ∧
      (call field).2 = { field with comparator := (onBench bench).2.board }

variable {install} {cond : Conditions}

@[simp] theorem fails_conditions (field : Field) (pin : Int) (bench : Bench) :
    install.wiring.fails field.conditions pin bench = false := rfl

theorem asOnBench_read {pin : Int} (hreqOff : pin ≠ install.conf.pin .reqOffB)
    (hoff : pin ≠ install.conf.pin .off) :
    AsOnBench cond (digitalRead install.sysfs pin)
      (digitalRead (install.wiring.sysfs cond) pin) := by
  rintro field bench rfl hboard
  rw [digitalRead_eq, level_of_ne install hreqOff hoff]
  cases hlevel : install.wiring.level field.conditions pin field.comparator <;>
    simp [digitalRead, Wiring.sysfs, hboard, hlevel, levelStatus, Bench.passed]

theorem asOnBench_write {pin : Int} (hoff : pin ≠ install.conf.pin .off) (val : Int) :
    AsOnBench cond (digitalWrite install.sysfs pin val)
      (digitalWrite (install.wiring.sysfs cond) pin val) := by
  rintro field bench rfl hboard
  rw [digitalWrite_eq, drive_of_ne install hoff]
  simp [digitalWrite, Wiring.sysfs, hboard]

theorem asOnBench_orReturn {first : Call Field} {first' : Call Bench} {rest : Int → Call Field}
    {rest' : Int → Call Bench} (hfirst : AsOnBench cond first first')
    (hrest : ∀ n, n ≠ gpioError → AsOnBench cond (rest n) (rest' n)) :
    AsOnBench cond (orReturn first rest) (orReturn first' rest') := by
  intro field bench hcond hboard
  obtain ⟨hstatus, hfield⟩ := hfirst field bench hcond hboard
  unfold orReturn
  rw [hstatus, hfield]
  split
  next herror => exact ⟨hstatus.trans rfl, hfield⟩
  next hne => exact hrest _ hne _ _ hcond rfl

/-- The accesses of a measurement keep to the comparator. -/
theorem measurement (install : Installation) (cond : Conditions) :
    MeasurementRelation install.sysfs (install.wiring.sysfs cond) install.conf
      (AsOnBench cond) where
  ret n _ := fun field bench _ hboard => ⟨rfl, by rw [ret, ret, hboard]⟩
  delay duration rest rest' hrest := hrest
  orReturn := asOnBench_orReturn
  readPgood := asOnBench_read (install.pin_ne nofun) (install.pin_ne nofun)
  writeUd := asOnBench_write (install.pin_ne nofun)
  writeCs := asOnBench_write (install.pin_ne nofun)

theorem asOnBench_andThen {first : Call Field} {first' : Call Bench} {rest : Int → Call Field}
    {rest' : Int → Call Bench} (hfirst : AsOnBench cond first first')
    (hrest : ∀ n, AsOnBench cond (rest n) (rest' n)) :
    AsOnBench cond (andThen first rest) (andThen first' rest') := by
  intro field bench hcond hboard
  obtain ⟨hstatus, hfield⟩ := hfirst field bench hcond hboard
  unfold andThen
  rw [hstatus, hfield]
  exact hrest _ _ _ hcond rfl

theorem asOnBench_measurement (install : Installation) (cond : Conditions) :
    AsOnBench cond (gpioReadBatteryLevelRaw install.sysfs install.conf)
      (gpioReadBatteryLevelRaw (install.wiring.sysfs cond) install.conf) := by
  have hrel := install.measurement cond
  rw [gpioReadBatteryLevelRaw_eq, gpioReadBatteryLevelRaw_eq]
  apply hrel.orReturn hrel.readPgood
  intro _ _
  apply hrel.delay
  have hd2 : AsOnBench cond (gpioReadD2 install.sysfs install.conf)
      (gpioReadD2 (install.wiring.sysfs cond) install.conf) := by
    have hread : AsOnBench cond (digitalRead install.sysfs (install.conf.pin .d2B))
        (digitalRead (install.wiring.sysfs cond) (install.conf.pin .d2B)) :=
      asOnBench_read (install.pin_ne nofun) (install.pin_ne nofun)
    exact asOnBench_orReturn hread fun n _ field bench _ hboard =>
      ⟨rfl, by rw [ret, ret, hboard]⟩
  apply asOnBench_andThen hd2
  intro d2
  split
  next => exact hrel.ret charging (by decide)
  next => exact hrel.delay _ hrel.onBattery

/-! ## What the functions of the daemon do to the board -/

/-- A measurement on a deselected board finds what there is to find, deselects the board again and
touches nothing else. -/
theorem measurement_finds (install : Installation) (field : Field)
    (hselect : field.comparator.select = true) :
    let out := gpioReadBatteryLevelRaw install.sysfs install.conf field
    field.IsReading out.1 ∧ out.2.comparator.select = true ∧
      out.2 = { field with comparator := out.2.comparator } := by
  obtain ⟨level, hlevel⟩ := exists_isBatteryLevel field.pgood
  obtain ⟨hstatus, hfield⟩ := install.asOnBench_measurement field.conditions field
    ⟨field.comparator, 0, none⟩ rfl rfl
  change _ = (measure install.wiring field.conditions field.comparator).1 at hstatus
  dsimp only
  rw [hstatus, hfield]
  change _ ∧ (measure install.wiring field.conditions field.comparator).2.board.select = true ∧ _
  rcases measure_cases install.wiring field.conditions hlevel field.comparator hselect with
    ⟨hd2, -, after, hout, hdeselected, -⟩ | ⟨hd2, hout⟩ | hstops | ⟨-, hstops⟩
  · rw [hout]
    refine ⟨?_, hdeselected, rfl⟩
    rw [Field.IsReading, if_pos (show field.d2 = true from hd2)]
    exact ⟨level, hlevel, rfl⟩
  · rw [hout]
    refine ⟨?_, hselect, rfl⟩
    rw [Field.IsReading, if_neg (ne_true_of_eq_false (show field.d2 = false from hd2))]
  · exact absurd hstops (not_stopsIn fun _ => rfl)
  · exact absurd hstops (not_stopsIn fun _ => rfl)

theorem measurement_controller (install : Installation) (field : Field) :
    (gpioReadBatteryLevelRaw install.sysfs install.conf field).2.controller = field.controller := by
  rw [(install.asOnBench_measurement field.conditions field ⟨field.comparator, 0, none⟩ rfl rfl).2]

/-- The poll sees whether the controller is in REQ_OFF. -/
theorem gpioReadReqOff_eq (install : Installation) (field : Field) :
    gpioReadReqOff install.sysfs install.conf field =
      (if field.controller.state = .reqOff then 1 else 0, field) := by
  rw [gpioReadReqOff, readAsserted_eq, level, if_pos rfl, PowerController.reqOffB]
  by_cases hstate : field.controller.state = .reqOff <;> simp [hstate]

theorem pulseOff_eq (install : Installation) (n : ℕ) (field : Field) :
    pulseOff install.sysfs (install.conf.pin .off) n field =
      (gpioSuccess, { field with controller := PowerController.pulse^[n] field.controller }) := by
  induction n generalizing field with
  | zero => rfl
  | succ n ih =>
      have hhigh := install.digitalWrite_eq (install.conf.pin .off) high field
      rw [drive_off] at hhigh
      have hlow := install.digitalWrite_eq (install.conf.pin .off) low
        { field with controller := field.controller.setOff true }
      rw [drive_off] at hlow
      rw [pulseOff, orReturn_of_ne hhigh (by decide), delay]
      apply (orReturn_of_ne hlow (by decide) _).trans
      exact ih { field with controller := field.controller.pulse }

/-- OFF reaches the controller only, and cuts the power. -/
theorem gpioWriteOff_eq (install : Installation) (field : Field) :
    (gpioWriteOff install.sysfs install.conf field).2 =
      { field with controller := ⟨.powerOff, false⟩ } := by
  have hpulses : PowerController.pulse^[3] field.controller = ⟨.powerOff, false⟩ := by
    obtain ⟨comparator, ⟨state, offLine⟩, pgood, d2⟩ := field
    cases state <;> cases offLine <;> rfl
  rw [gpioWriteOff, pulseOff_eq, hpulses]

end Installation

end Rocpmd
