import Rocpmd.Gpio.Operations

/-!
# The battery measurement

`gpio_read_battery_level_raw` drives the comparator of the power board to its upper rail and steps
it down until PGOOD goes low. The two loops of the source are functions of their own; each returns
early as the function around it does.
-/

namespace Rocpmd

open Call

variable {W : Type} (fs : Sysfs W)

/-- `n` rounds of the reset loop: a low and a high UD_B, then a read of PGOOD that only its error
makes matter. -/
def resetPulses (pinNoUd pinNoPgood gpioDelay : Int) : ℕ → Call W
  | 0 => ret gpioSuccess
  | n + 1 =>
      orReturn (digitalWrite fs pinNoUd low) fun _ =>
      delay fs gpioDelay <|
      orReturn (digitalWrite fs pinNoUd high) fun _ =>
      delay fs gpioDelay <|
      orReturn (digitalRead fs pinNoPgood) fun _ =>
      resetPulses pinNoUd pinNoPgood gpioDelay n

/-- `while(status_pgood == 1 && battlevel > 0)`, returning `battlevel`. -/
def scanLevel (pinNoUd pinNoPgood gpioDelay : Int) : ℕ → Int → Call W
  | 0, _ => ret 0
  | battlevel + 1, statusPgood =>
      if statusPgood = 1 then
        orReturn (digitalWrite fs pinNoUd high) fun _ =>
        delay fs gpioDelay <|
        orReturn (digitalWrite fs pinNoUd low) fun _ =>
        delay fs gpioDelay <|
        orReturn (digitalRead fs pinNoPgood) fun statusPgood =>
        scanLevel pinNoUd pinNoPgood gpioDelay battlevel statusPgood
      else ret (battlevel + 1)

variable (conf : Config)

def gpioReadBatteryLevelRaw : Call W :=
  let pinNoCs := conf.pin .csB
  let pinNoUd := conf.pin .udB
  let pinNoPgood := conf.pin .pgoodB
  let gpioDelay := conf.batteryLevelReader.batteryLevelGpioDelay
  let pgoodDelay := conf.batteryLevelReader.batteryLevelPgoodDelay
  orReturn (digitalRead fs pinNoPgood) fun _ =>
  delay fs gpioDelay <|
  andThen (gpioReadD2 fs conf) fun d2 =>
  if d2 ≠ 0 then ret charging else
  delay fs gpioDelay <|
  -- reset the comparator
  orReturn (digitalWrite fs pinNoUd high) fun _ =>
  delay fs gpioDelay <|
  orReturn (digitalWrite fs pinNoCs low) fun _ =>
  delay fs gpioDelay <|
  orReturn (resetPulses fs pinNoUd pinNoPgood gpioDelay 64) fun _ =>
  orReturn (digitalWrite fs pinNoCs high) fun _ =>
  delay fs pgoodDelay <|
  orReturn (digitalRead fs pinNoPgood) fun _ =>
  delay fs gpioDelay <|
  orReturn (digitalWrite fs pinNoUd low) fun _ =>
  delay fs gpioDelay <|
  orReturn (digitalWrite fs pinNoCs low) fun _ =>
  delay fs gpioDelay <|
  -- read the level now
  orReturn (digitalRead fs pinNoPgood) fun statusPgood =>
  orReturn (scanLevel fs pinNoUd pinNoPgood gpioDelay 63 statusPgood) fun battlevel =>
  orReturn (digitalWrite fs pinNoCs high) fun _ =>
  delay fs gpioDelay <|
  ret battlevel

/-! ## The phases of a measurement -/

/-- PGOOD can be read and the board runs from its battery. -/
def checkSupply (rest : Call W) : Call W :=
  orReturn (digitalRead fs (conf.pin .pgoodB)) fun _ =>
  delay fs conf.batteryLevelReader.batteryLevelGpioDelay <|
  andThen (gpioReadD2 fs conf) fun d2 =>
  if d2 ≠ 0 then ret charging else
  delay fs conf.batteryLevelReader.batteryLevelGpioDelay rest

/-- From the first write of UD_B to the pause after CS_B is negated again. -/
def resetComparator : Call W :=
  orReturn (digitalWrite fs (conf.pin .udB) high) fun _ =>
  delay fs conf.batteryLevelReader.batteryLevelGpioDelay <|
  orReturn (digitalWrite fs (conf.pin .csB) low) fun _ =>
  delay fs conf.batteryLevelReader.batteryLevelGpioDelay <|
  orReturn (resetPulses fs (conf.pin .udB) (conf.pin .pgoodB)
    conf.batteryLevelReader.batteryLevelGpioDelay 64) fun _ =>
  orReturn (digitalWrite fs (conf.pin .csB) high) fun _ =>
  delay fs conf.batteryLevelReader.batteryLevelPgoodDelay <|
  ret gpioSuccess

/-- PGOOD settles and UD_B goes low, with CS_B negated. -/
def selectDecrement : Call W :=
  orReturn (digitalRead fs (conf.pin .pgoodB)) fun _ =>
  delay fs conf.batteryLevelReader.batteryLevelGpioDelay <|
  orReturn (digitalWrite fs (conf.pin .udB) low) fun _ =>
  delay fs conf.batteryLevelReader.batteryLevelGpioDelay <|
  ret gpioSuccess

/-- From the second assertion of CS_B to the end. -/
def readLevel : Call W :=
  orReturn (digitalWrite fs (conf.pin .csB) low) fun _ =>
  delay fs conf.batteryLevelReader.batteryLevelGpioDelay <|
  orReturn (digitalRead fs (conf.pin .pgoodB)) fun statusPgood =>
  orReturn (scanLevel fs (conf.pin .udB) (conf.pin .pgoodB)
    conf.batteryLevelReader.batteryLevelGpioDelay 63 statusPgood) fun battlevel =>
  orReturn (digitalWrite fs (conf.pin .csB) high) fun _ =>
  delay fs conf.batteryLevelReader.batteryLevelGpioDelay <|
  ret battlevel

theorem gpioReadBatteryLevelRaw_eq : gpioReadBatteryLevelRaw fs conf =
    checkSupply fs conf (orReturn (resetComparator fs conf) fun _ =>
      orReturn (selectDecrement fs conf) fun _ => readLevel fs conf) := by
  have hret : ∀ rest : Int → Call W, orReturn (ret gpioSuccess) rest = rest gpioSuccess := by
    intro rest
    funext w
    have hsuccess : ret gpioSuccess w = (gpioSuccess, w) := rfl
    exact orReturn_of_ne hsuccess (by decide) rest
  simp only [gpioReadBatteryLevelRaw, checkSupply, resetComparator, selectDecrement, readLevel,
    orReturn_assoc, orReturn_delay, hret]

/-! ## Measurements on two sets of files -/

/-- A relation between calls on two sets of files that early returns and pauses respect, and that
holds between the accesses a measurement makes on battery power. -/
structure MeasurementRelation {W' : Type} (fs : Sysfs W) (fs' : Sysfs W') (conf : Config)
    (R : Call W → Call W' → Prop) : Prop where
  ret : ∀ n, n ≠ gpioError → R (ret n) (ret n)
  delay : ∀ duration {rest rest'}, R rest rest' →
    R (delay fs duration rest) (delay fs' duration rest')
  orReturn : ∀ {first first' rest rest'}, R first first' →
    (∀ n, n ≠ gpioError → R (rest n) (rest' n)) → R (orReturn first rest) (orReturn first' rest')
  readPgood : R (digitalRead fs (conf.pin .pgoodB)) (digitalRead fs' (conf.pin .pgoodB))
  writeUd : ∀ val, R (digitalWrite fs (conf.pin .udB) val) (digitalWrite fs' (conf.pin .udB) val)
  writeCs : ∀ val, R (digitalWrite fs (conf.pin .csB) val) (digitalWrite fs' (conf.pin .csB) val)

namespace MeasurementRelation

variable {W' : Type} {fs : Sysfs W} {fs' : Sysfs W'} {conf : Config}
  {R : Call W → Call W' → Prop} (hrel : MeasurementRelation fs fs' conf R)

include hrel

theorem resetPulses (gpioDelay : Int) (n : ℕ) :
    R (resetPulses fs (conf.pin .udB) (conf.pin .pgoodB) gpioDelay n)
      (resetPulses fs' (conf.pin .udB) (conf.pin .pgoodB) gpioDelay n) := by
  induction n with
  | zero => exact hrel.ret _ (by decide)
  | succ n ih =>
      apply hrel.orReturn (hrel.writeUd _)
      intro _ _
      apply hrel.delay
      apply hrel.orReturn (hrel.writeUd _)
      intro _ _
      apply hrel.delay
      exact hrel.orReturn hrel.readPgood fun _ _ => ih

theorem scanLevel (gpioDelay : Int) (battlevel : ℕ) (statusPgood : Int) :
    R (scanLevel fs (conf.pin .udB) (conf.pin .pgoodB) gpioDelay battlevel statusPgood)
      (scanLevel fs' (conf.pin .udB) (conf.pin .pgoodB) gpioDelay battlevel statusPgood) := by
  induction battlevel generalizing statusPgood with
  | zero => exact hrel.ret _ (by decide)
  | succ battlevel ih =>
      unfold Rocpmd.scanLevel
      split
      next =>
        apply hrel.orReturn (hrel.writeUd _)
        intro _ _
        apply hrel.delay
        apply hrel.orReturn (hrel.writeUd _)
        intro _ _
        apply hrel.delay
        exact hrel.orReturn hrel.readPgood fun _ _ => ih _
      next => exact hrel.ret _ (by simp only [gpioError]; omega)

theorem resetComparator : R (resetComparator fs conf) (resetComparator fs' conf) := by
  apply hrel.orReturn (hrel.writeUd _)
  intro _ _
  apply hrel.delay
  apply hrel.orReturn (hrel.writeCs _)
  intro _ _
  apply hrel.delay
  apply hrel.orReturn (hrel.resetPulses _ 64)
  intro _ _
  apply hrel.orReturn (hrel.writeCs _)
  intro _ _
  exact hrel.delay _ (hrel.ret _ (by decide))

theorem selectDecrement : R (selectDecrement fs conf) (selectDecrement fs' conf) := by
  apply hrel.orReturn hrel.readPgood
  intro _ _
  apply hrel.delay
  apply hrel.orReturn (hrel.writeUd _)
  intro _ _
  exact hrel.delay _ (hrel.ret _ (by decide))

theorem readLevel : R (readLevel fs conf) (readLevel fs' conf) := by
  apply hrel.orReturn (hrel.writeCs _)
  intro _ _
  apply hrel.delay
  apply hrel.orReturn hrel.readPgood
  intro _ _
  apply hrel.orReturn (hrel.scanLevel _ 63 _)
  intro _ hlevel
  apply hrel.orReturn (hrel.writeCs _)
  intro _ _
  exact hrel.delay _ (hrel.ret _ hlevel)

/-- It holds between all that the measurements do once the supply is checked. -/
theorem onBattery :
    R (Call.orReturn (Rocpmd.resetComparator fs conf) fun _ =>
        Call.orReturn (Rocpmd.selectDecrement fs conf) fun _ => Rocpmd.readLevel fs conf)
      (Call.orReturn (Rocpmd.resetComparator fs' conf) fun _ =>
        Call.orReturn (Rocpmd.selectDecrement fs' conf) fun _ => Rocpmd.readLevel fs' conf) := by
  apply hrel.orReturn hrel.resetComparator
  intro _ _
  exact hrel.orReturn hrel.selectDecrement fun _ _ => hrel.readLevel

end MeasurementRelation

/-! ## The range of the level -/

/-- What holds of the error and of the rest's result holds of the result. -/
theorem orReturn_result {P : Int → Prop} (herror : P gpioError) {first : Call W}
    {rest : Int → Call W} {w : W} (hrest : P (rest (first w).1 (first w).2).1) :
    P (orReturn first rest w).1 := by
  unfold orReturn
  split
  next h => rw [h]; exact herror
  next => exact hrest

theorem orReturn_le {bound : Int} (hbound : gpioError ≤ bound) {first : Call W}
    {rest : Int → Call W} {w : W} (hrest : (rest (first w).1 (first w).2).1 ≤ bound) :
    (orReturn first rest w).1 ≤ bound :=
  @orReturn_result W (· ≤ bound) hbound first rest w hrest

theorem scanLevel_le (pinNoUd pinNoPgood gpioDelay : Int) (battlevel : ℕ) (statusPgood : Int)
    (w : W) :
    (scanLevel fs pinNoUd pinNoPgood gpioDelay battlevel statusPgood w).1 ≤ battlevel := by
  induction battlevel generalizing statusPgood w with
  | zero => exact Int.le_refl 0
  | succ battlevel ih =>
      have hbound : gpioError ≤ ((battlevel + 1 : ℕ) : Int) := by simp only [gpioError]; omega
      unfold scanLevel
      split
      next =>
        refine orReturn_le hbound (orReturn_le hbound (orReturn_le hbound ?_))
        exact Int.le_trans (ih _ _) (by omega)
      next => exact Int.le_refl _

/-- Whatever the files answer, no reading exceeds the upper rail. -/
theorem gpioReadBatteryLevelRaw_le (w : W) : (gpioReadBatteryLevelRaw fs conf w).1 ≤ 63 := by
  have hbound : gpioError ≤ (63 : Int) := by decide
  rw [gpioReadBatteryLevelRaw_eq]
  apply orReturn_le hbound
  simp only [delay, andThen]
  split
  next => exact Int.le_trans (by decide : charging ≤ 0) (by decide)
  next =>
    -- the reset, the change of direction, CS_B, PGOOD, the scan and CS_B again
    refine orReturn_le hbound (orReturn_le hbound (orReturn_le hbound (orReturn_le hbound ?_)))
    exact orReturn_le hbound (orReturn_le hbound (scanLevel_le fs _ _ _ 63 _ _))

/-! ## The supply -/

/-- The result of a measurement on battery power: a level, or the error. -/
def IsReading (n : Int) : Prop := n = gpioError ∨ 0 ≤ n

theorem scanLevel_isReading (pinNoUd pinNoPgood gpioDelay : Int) (battlevel : ℕ)
    (statusPgood : Int) (w : W) :
    IsReading (scanLevel fs pinNoUd pinNoPgood gpioDelay battlevel statusPgood w).1 := by
  have herror : IsReading gpioError := .inl rfl
  induction battlevel generalizing statusPgood w with
  | zero => exact .inr (Int.le_refl 0)
  | succ battlevel ih =>
      unfold scanLevel
      split
      next =>
        apply orReturn_result herror
        exact orReturn_result herror (orReturn_result herror (ih _ _))
      next => exact .inr (Int.natCast_nonneg _)

/-- What the file of D2_B answers in the measurement that starts in a world, if the measurement gets
to it: PGOOD is read first. -/
def d2Outcome (w : W) : Option ReadOutcome :=
  let statusPgood := digitalRead fs (conf.pin .pgoodB) w
  if statusPgood.1 = gpioError then none
  else
    let delayed := fs.usleep conf.batteryLevelReader.batteryLevelGpioDelay statusPgood.2
    some (fs.read (.value (conf.pin .d2B)) delayed).1

/-- The three ends of a measurement: before D2_B, at D2_B unless the file says one, and after it. -/
theorem gpioReadBatteryLevelRaw_cases (w : W) :
    d2Outcome fs conf w = none ∧ (gpioReadBatteryLevelRaw fs conf w).1 = gpioError ∨
      (∃ outcome, d2Outcome fs conf w = some outcome ∧ outcome ≠ .opened "1" ∧
        (gpioReadBatteryLevelRaw fs conf w).1 = charging) ∨
      d2Outcome fs conf w = some (.opened "1") ∧
        IsReading (gpioReadBatteryLevelRaw fs conf w).1 := by
  rw [gpioReadBatteryLevelRaw_eq]
  unfold d2Outcome checkSupply
  dsimp only
  split
  next herror => exact .inl ⟨rfl, by rw [orReturn, if_pos herror]; exact herror⟩
  next hpgood =>
    rw [orReturn, if_neg hpgood, delay, andThen]
    have hd2 := readAsserted_eq_zero_iff fs (conf.pin .d2B)
      (fs.usleep conf.batteryLevelReader.batteryLevelGpioDelay
        (digitalRead fs (conf.pin .pgoodB) w).2)
    split
    next hne => exact .inr (.inl ⟨_, rfl, fun h => hne (hd2.mpr h), rfl⟩)
    next hzero =>
      have hone := hd2.mp (not_not.mp hzero)
      refine .inr (.inr ⟨congrArg some hone, ?_⟩)
      -- the reset, the change of direction, CS_B, PGOOD, the scan and CS_B again
      have herror : IsReading gpioError := .inl rfl
      refine orReturn_result herror (orReturn_result herror (orReturn_result herror ?_))
      refine orReturn_result herror (orReturn_result herror (orReturn_result herror ?_))
      exact scanLevel_isReading fs _ _ _ 63 _ _

end Rocpmd
